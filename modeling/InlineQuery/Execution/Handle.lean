import InlineQuery.Execution.Network
import InlineQuery.Execution.Subscription

/-!
One execution of an operation. Its task brings events, which wait in a queue until they are taken.
Disposing it ends the task and drops the events that were not taken.
-/

namespace InlineQuery

inductive ExecutionState where
  | idle
  | resolving
  | connecting
  | streaming
  | completed
  | failed
  | disposed
  deriving DecidableEq, Repr, Inhabited

namespace ExecutionState

def name : ExecutionState → String
  | idle => "idle"
  | resolving => "resolving"
  | connecting => "connecting"
  | streaming => "streaming"
  | completed => "completed"
  | failed => "failed"
  | disposed => "disposed"

def isTerminal : ExecutionState → Bool
  | completed | failed | disposed => true
  | _ => false

end ExecutionState

/-- What an execution waits for: its turn, the outcome of its request, or a frame over one of the
network's connections. A task that the user interrupts ends without an event. -/
inductive Task where
  | absent
  | created
  | posted (outcome : Option (Except Failure ResultEvent))
  | streaming (stage : Stage) (socket : Nat)
  | ended
  | interrupted
  deriving Inhabited

/-- An execution. The queue holds the events that were not taken; `none` marks its end. -/
structure Handle where
  id : String
  operation : Operation
  values : List (String × Datum)
  state : ExecutionState
  endpoint : Option Endpoint
  error : Option ErrorDescriptor
  queue : List (Option ResultEvent)
  isReleased : Bool
  task : Task
  deriving Inhabited

/-- What a task does to its execution between two waits. -/
inductive Effect where
  | connecting (endpoint : Option Endpoint)
  | opened
  | emitted (e : ResultEvent)
  deriving Inhabited

/-- A task in the end waits again, or it finishes, by a failure if there is one. -/
inductive Ending where
  | waiting (task : Task)
  | finished (failure : Option Failure)
  deriving Inhabited

/-- All that a task does from one wait to the next. -/
structure Turn where
  effects : List Effect
  ending : Ending
  deriving Inhabited

namespace Turn

/-- A turn that only ends the task by a failure. -/
def failed (e : Failure) : Turn := ⟨[], .finished (some e)⟩

/-- A turn behind an effect. -/
def after (effect : Effect) (t : Turn) : Turn := { t with effects := effect :: t.effects }

end Turn

namespace Handle

/-- An execution that nothing has happened to. -/
def idle (id : String) (operation : Operation) (values : List (String × Datum)) : Handle where
  id := id
  operation := operation
  values := values
  state := .idle
  endpoint := none
  error := none
  queue := []
  isReleased := false
  task := .absent

/-- An execution in a message. -/
def label (h : Handle) : String :=
  let name := match h.operation.name with
    | some name => if name = "" then "anonymous" else name
    | none => "anonymous"
  "<ExecutionHandle " ++ String.ofList (h.id.toList.take 8) ++ " " ++ name ++ " " ++ h.state.name
    ++ ">"

def isDisposed (h : Handle) : Bool := h.state == .disposed

/-- Puts an event into the queue. After the release nothing changes any more. -/
def emit (h : Handle) (e : ResultEvent) : Handle :=
  if h.isReleased then h
  else { h with
    state := if e.isFinal then .completed else .streaming
    queue := h.queue ++ [some e] }

/-- Ends the events by a failure. -/
def fail (h : Handle) (e : Failure) : Handle :=
  if h.isReleased then h
  else { h with
    error := some (.ofFailure e)
    state := .failed
    queue := h.queue ++ [some (.ofFailure e)] }

/-- The server has acknowledged a subscription. -/
def opened (h : Handle) : Handle :=
  if h.isReleased then h else { h with state := .streaming }

/-- Ends the task, by a failure if there is one. -/
def finish (h : Handle) (failure : Option Failure) : Handle :=
  match failure with
  | none => { h with task := .ended }
  | some e =>
    if e.kind.isInterrupt then { h with task := .interrupted }
    else { h.fail e with task := .ended }

/-- Drops the events that were not taken, and all that would come. A state that is terminal stays. -/
def release (h : Handle) : Handle :=
  { h with
    isReleased := true
    state := if h.state.isTerminal then h.state else .disposed
    queue := [none] }

/-- Starts an execution. When values of variables are missing it fails at once. -/
def start (id : String) (operation : Operation) (values : List (String × Datum)) : Handle :=
  let h := { idle id operation values with state := .resolving }
  match operation.missingVariables values with
  | [] => { h with task := .created }
  | names => h.fail (.missingVariables names)

def request (h : Handle) : Request := ⟨h.operation, h.values, h.endpoint⟩

/-- The subscription that a task follows over a connection. -/
def subscription (h : Handle) (stage : Stage) (socket : Socket) : Subscription :=
  ⟨h.id, h.request.body, stage, socket⟩

def perform (h : Handle) : Effect → Handle
  | .connecting endpoint => { h with endpoint, state := .connecting }
  | .opened => h.opened
  | .emitted e => h.emit e

def conclude (h : Handle) : Ending → Handle
  | .waiting task => { h with task }
  | .finished failure => h.finish failure

/-- Takes a turn. -/
def take (h : Handle) (t : Turn) : Handle := (t.effects.foldl perform h).conclude t.ending

/-- The turn that comes of a step of the subscription over a connection. Behind a final event the
subscription is ended. -/
def progress (net : Network) (i : Nat) : Progress → Turn × Network
  | .waiting s => (⟨[], .waiting (.streaming s.stage i)⟩, net.putSocket i s.socket)
  | .opened s => (⟨[.opened], .waiting (.streaming s.stage i)⟩, net.putSocket i s.socket)
  | .event e s =>
    if e.isFinal then
      let (socket, failure) := s.cancel
      (⟨[.emitted e], .finished failure⟩, net.putSocket i socket)
    else (⟨[.emitted e], .waiting (.streaming s.stage i)⟩, net.putSocket i s.socket)
  | .ended failure socket => (⟨[], .finished failure⟩, net.putSocket i socket)

/-- Connects to the server of a subscription and greets it. -/
def subscribe (h : Handle) (net : Network) : Turn × Network :=
  match h.request.dial net with
  | (.error e, net) => (.failed e, net)
  | (.ok i, net) => progress net i (Subscription.greet h.request h.id (net.socket i))

/-- Sends the request of a query or mutation. -/
def post (h : Handle) (net : Network) : Turn × Network :=
  let (outcome, net) := h.request.post net
  (⟨[], .waiting (.posted outcome)⟩, net)

/-- The first turn of a task, which is told the endpoint or why there is none. -/
def firstTurn (h : Handle) (net : Network) (resolved : Except Failure (Option Endpoint)) :
    Turn × Network :=
  match resolved with
  | .error e => (.failed e, net)
  | .ok endpoint =>
    let h := { h with endpoint }
    let (turn, net) :=
      if h.operation.kind = .subscription then h.subscribe net else h.post net
    (turn.after (.connecting endpoint), net)

/-- The next turn of a task, if it can take one. -/
def nextTurn? (h : Handle) (net : Network) : Option (Turn × Network) :=
  match h.task with
  | .posted (some (.ok e)) => some (⟨[.emitted e], .finished none⟩, net)
  | .posted (some (.error e)) => some (.failed e, net)
  | .streaming stage i => do
    let (frame, net) ← net.takeFrame i
    return progress net i ((h.subscription stage (net.socket i)).receive frame)
  | _ => none

/-- The first step of a task. -/
def launch (h : Handle) (net : Network) (resolved : Except Failure (Option Endpoint)) :
    Handle × Network :=
  let (turn, net) := h.firstTurn net resolved
  (h.take turn, net)

/-- The next step of a task, if it can take one. -/
def step (h : Handle) (net : Network) : Handle × Network :=
  match h.nextTurn? net with
  | some (turn, net) => (h.take turn, net)
  | none => (h, net)

/-- How many steps a task can take at most before something else happens. -/
def pendingSteps (h : Handle) (net : Network) : Nat :=
  match h.task with
  | .posted _ => 1
  | .streaming _ i => (net.socket i).arrived.length
  | _ => 0

def steps (h : Handle) (net : Network) : Nat → Handle × Network
  | 0 => (h, net)
  | n + 1 =>
    let (h, net) := h.step net
    h.steps net n

/-- Takes all steps that the task can take. -/
def settle (h : Handle) (net : Network) : Handle × Network := h.steps net (h.pendingSteps net)

/-- Disposes an execution. A task that has not begun never will; one that follows a subscription
ends it. -/
def dispose (h : Handle) (net : Network) : Handle × Network :=
  if h.isReleased then (h, net)
  else match h.task with
    | .created | .posted _ => ({ h.release with task := .ended }, net)
    | .streaming stage i =>
      let (socket, _) := (h.subscription stage (net.socket i)).cancel
      ({ h.release with task := .ended }, net.putSocket i socket)
    | .absent | .ended | .interrupted => (h.release, net)

end Handle
end InlineQuery
