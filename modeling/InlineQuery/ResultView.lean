import InlineQuery.Execution.Handle

/-!
A document that shows the latest result of an execution. Each event replaces its content.
-/

namespace InlineQuery

/-- What the owner of a view is told: a new content with its version, that the view was disposed,
or that the final event is shown. -/
inductive ViewNote where
  | updated (version : Nat) (content : String)
  | disposed
  | finished
  deriving DecidableEq, Repr, Inhabited

/-- Whether a view takes events. -/
inductive Showing where
  | idle
  | running
  | done
  deriving DecidableEq, Repr, Inhabited

structure ResultView where
  uri : String
  content : String
  version : Nat
  lastEvent : Option ResultEvent
  isDisposed : Bool
  isWatched : Bool
  showing : Showing
  notes : List ViewNote
  deriving Repr, Inhabited

namespace ResultView

def defaultUri : String := "graphql://authority/graphql"

/-- What a view shows before the first event. -/
def pendingText : String := "Executing..."

/-- A view that shows nothing yet. Only a watched one tells of its updates. -/
def new (uri : String) (isWatched : Bool) : ResultView where
  uri := uri
  content := pendingText
  version := 0
  lastEvent := none
  isDisposed := false
  isWatched := isWatched
  showing := .idle
  notes := []

def note (v : ResultView) (n : ViewNote) : ResultView := { v with notes := v.notes ++ [n] }

/-- Whether an event only says that nothing follows. -/
def isCompletion (e : ResultEvent) : Bool := e.isFinal && e.error.isNone && e.payload.isNull

/-- Whether an event is shown: a mere completion keeps what is shown already. -/
def shows (v : ResultView) (e : ResultEvent) : Bool := !(isCompletion e && 0 < v.version)

def apply (v : ResultView) (e : ResultEvent) : ResultView :=
  let seen := { v with lastEvent := some e }
  if v.shows e then
    let shown := { seen with content := e.text, version := v.version + 1 }
    if v.isWatched then shown.note (.updated shown.version shown.content) else shown
  else seen

def run (v : ResultView) : ResultView :=
  if v.showing = .running then v else { v with showing := .running }

def hasFinal (v : ResultView) : Bool := (v.lastEvent.map (·.isFinal)).getD false

/-- Stops taking events. -/
def conclude (v : ResultView) : ResultView :=
  let v := { v with showing := .done }
  if !v.isDisposed && v.hasFinal then v.note .finished else v

/-- Disposes a view and with it the execution. -/
def dispose (v : ResultView) (h : Handle) (net : Network) : ResultView × Handle × Network :=
  if v.isDisposed then (v, h, net)
  else
    let (h, net) := h.dispose net
    ({ v with isDisposed := true }.note .disposed, h, net)

/-- Shows an event. The owner may dispose the view when it is told of the update. -/
def show_ (disposes : Nat → Bool) (v : ResultView) (h : Handle) (net : Network) (e : ResultEvent) :
    ResultView × Handle × Network :=
  let shown := v.apply e
  if v.shows e && v.isWatched && disposes shown.version then shown.dispose h net
  else (shown, h, net)

/-- Takes the next event if there is one. `disposes` says at which versions the owner disposes the
view. -/
def step (disposes : Nat → Bool) (v : ResultView) (h : Handle) (net : Network) :
    ResultView × Handle × Network :=
  match v.showing, h.queue with
  | .running, none :: rest => (v.conclude, { h with queue := rest }, net)
  | .running, some e :: rest =>
    let h := { h with queue := rest }
    if v.isDisposed then (v.conclude, h, net)
    else
      let (v, h, net) := v.show_ disposes h net e
      (if e.isFinal then v.conclude else v, h, net)
  | _, _ => (v, h, net)

def steps (disposes : Nat → Bool) (v : ResultView) (h : Handle) (net : Network) :
    Nat → ResultView × Handle × Network
  | 0 => (v, h, net)
  | n + 1 =>
    let (v, h, net) := v.step disposes h net
    steps disposes v h net n

/-- Takes all events that wait, and the mark that a disposal leaves. -/
def settle (disposes : Nat → Bool) (v : ResultView) (h : Handle) (net : Network) :
    ResultView × Handle × Network :=
  v.steps disposes h net (h.queue.length + 1)

end ResultView
end InlineQuery
