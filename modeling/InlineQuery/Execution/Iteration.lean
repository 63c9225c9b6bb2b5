import InlineQuery.Execution.Handle

/-!
Taking the events of an execution one by one. An iteration ends behind a final event, or where the
queue says that nothing follows; after that a new one begins.
-/

namespace InlineQuery

/-- An iteration over events. `answer` is what the last question got, and `none` in it the end. -/
structure Iteration where
  isAsking : Bool
  isOver : Bool
  answer : Option (Option ResultEvent)
  deriving Repr, Inhabited

namespace Iteration

def new : Iteration := ⟨false, false, none⟩

/-- Asks for the next event, unless a question or its answer is still open. -/
def ask (it : Iteration) : Iteration :=
  if it.isAsking || it.answer.isSome then it
  else if it.isOver then { it with isOver := false, answer := some none }
  else { it with isAsking := true }

/-- Answers an open question from the queue. -/
def serve (it : Iteration) (h : Handle) : Iteration × Handle :=
  if !it.isAsking then (it, h)
  else match h.queue with
    | [] => (it, h)
    | none :: rest => (⟨false, false, some none⟩, { h with queue := rest })
    | some e :: rest => (⟨false, e.isFinal, some (some e)⟩, { h with queue := rest })

end Iteration
end InlineQuery
