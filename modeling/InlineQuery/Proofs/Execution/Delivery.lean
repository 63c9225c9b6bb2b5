import InlineQuery.Execution.Iteration
import InlineQuery.Proofs.Execution.Turn

namespace InlineQuery

/-- An execution whose events are taken by one iteration. The turn is what its task has still to do
before it waits again. Of its transport the events are recorded that it has yielded, and the failure
that ended it; of the iteration, the events that it has delivered and whether it has ended. -/
structure Delivery where
  handle : Handle
  net : Network
  turn : Option Turn
  yielded : List ResultEvent
  raised : Option Failure
  iteration : Iteration
  delivered : List ResultEvent
  isEnded : Bool

/-- What can happen to an execution, at any time and in any order. The network changes at will, the
task begins its first turn or a later one, performs an effect or comes to the end of a turn, the
execution is disposed, the next event is asked for, or the question is answered if it can be. -/
inductive Happening where
  | network (net : Network)
  | launch (resolved : Except Failure (Option Endpoint))
  | resume
  | perform
  | dispose
  | ask
  | serve

namespace ResultEvent

def NoneFinal (events : List ResultEvent) : Prop := ∀ e ∈ events, e.isFinal = false

def LastFinal (events : List ResultEvent) : Prop :=
  ∃ front e, events = front ++ [e] ∧ NoneFinal front ∧ e.isFinal = true

theorem LastFinal.not_noneFinal {events : List ResultEvent} (last : LastFinal events)
    (noFinal : NoneFinal events) : False := by
  obtain ⟨front, e, rfl, _, final⟩ := last
  have notFinal := noFinal e (List.mem_append_right _ (List.mem_singleton_self e))
  rw [final] at notFinal
  cases notFinal

theorem NoneFinal.not_append {front rest : List ResultEvent} {e : ResultEvent}
    (noFinal : NoneFinal (front ++ e :: rest)) (final : e.isFinal = true) : False := by
  have notFinal := noFinal e (List.mem_append_right _ (List.mem_cons_self ..))
  rw [final] at notFinal
  cases notFinal

/-- Nothing follows the first final event. -/
theorem LastFinal.behind {front rest : List ResultEvent} {e : ResultEvent}
    (known : LastFinal (front ++ e :: rest)) (final : e.isFinal = true) : rest = [] := by
  obtain ⟨before, last, same, noFinal, _⟩ := known
  rcases List.eq_nil_or_concat rest with rfl | ⟨inner, x, rfl⟩
  · rfl
  · have regrouped : (front ++ e :: inner) ++ [x] = before ++ [last] := by simpa using same
    rw [← List.append_inj_left' regrouped rfl] at noFinal
    exact (noFinal.not_append final).elim

end ResultEvent

namespace Delivery

/-- The events of the transport, and behind them the one of the failure that ended it. -/
def offered (d : Delivery) : List ResultEvent :=
  d.yielded ++ (d.raised.map ResultEvent.ofFailure).toList

/-- An execution is started. It fails at once when values of variables are missing. -/
def start (id : String) (operation : Operation) (values : List (String × Datum)) (net : Network) :
    Delivery where
  handle := .start id operation values
  net := net
  turn := none
  yielded := []
  raised :=
    match operation.missingVariables values with
    | [] => none
    | names => some (.missingVariables names)
  iteration := .new
  delivered := []
  isEnded := false

/-- Takes the answer that the iteration has got. -/
def collect (d : Delivery) : Delivery :=
  match d.iteration.answer with
  | none => d
  | some none => { d with iteration := { d.iteration with answer := none }, isEnded := true }
  | some (some e) =>
    { d with iteration := { d.iteration with answer := none }, delivered := d.delivered ++ [e] }

/-- A happening that cannot happen now changes nothing. A disposed task is not kept from going on,
so that nothing depends on how fast it ends. -/
def next (d : Delivery) : Happening → Delivery
  | .network net => { d with net }
  | .launch resolved =>
    match d.turn, d.handle.task with
    | none, .created =>
      let (turn, net) := d.handle.firstTurn d.net resolved
      { d with turn := some turn, net }
    | _, _ => d
  | .resume =>
    match d.turn, d.handle.nextTurn? d.net with
    | none, some (turn, net) => { d with turn := some turn, net }
    | _, _ => d
  | .perform =>
    match d.turn with
    | none => d
    | some ⟨effect :: rest, ending⟩ =>
      { d with
        handle := d.handle.perform effect
        turn := some ⟨rest, ending⟩
        yielded := d.yielded ++ effect.event?.toList }
    | some ⟨[], ending⟩ =>
      { d with handle := d.handle.conclude ending, turn := none, raised := ending.raised? }
  | .dispose =>
    let (handle, net) := d.handle.dispose d.net
    { d with handle, net }
  | .ask => if d.isEnded then d else { d with iteration := d.iteration.ask }.collect
  | .serve =>
    let (iteration, handle) := d.iteration.serve d.handle
    { d with iteration, handle }.collect

section
variable {d : Delivery} {effect : Effect} {rest : List Effect} {ending : Ending}

theorem next_idle (turn : d.turn = none) : d.next .perform = d := by simp [next, turn]

theorem next_effect (turn : d.turn = some ⟨effect :: rest, ending⟩) : d.next .perform = { d with
    handle := d.handle.perform effect
    turn := some ⟨rest, ending⟩
    yielded := d.yielded ++ effect.event?.toList } := by
  simp [next, turn]

theorem next_ending (turn : d.turn = some ⟨[], ending⟩) : d.next .perform =
    { d with handle := d.handle.conclude ending, turn := none, raised := ending.raised? } := by
  simp [next, turn]

end

def run (d : Delivery) (happenings : List Happening) : Delivery := happenings.foldl next d

/-- A turn performed to its end is the turn that the execution takes. -/
theorem handle_run_perform {d : Delivery} {t : Turn} (turn : d.turn = some t) :
    (d.run (List.replicate (t.effects.length + 1) .perform)).handle = d.handle.take t := by
  obtain ⟨effects, ending⟩ := t
  induction effects generalizing d with
  | nil => simp [run, next_ending turn, Handle.take]
  | cons effect rest ih =>
    have later := ih (d := d.next .perform) (by rw [next_effect turn])
    rw [next_effect turn] at later
    simpa [run, next_effect turn, Handle.take, List.replicate_succ] using later

end Delivery
end InlineQuery
