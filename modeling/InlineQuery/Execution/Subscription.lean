import InlineQuery.Data.Json.Reader
import InlineQuery.Execution.Event
import InlineQuery.Execution.Socket
import InlineQuery.Text.Truncate

/-!
A subscription is told frame by frame what its server sends. It greets the server, starts when the
server has acknowledged the greeting, and then yields an event for each result.
-/

namespace InlineQuery

/-- How far a subscription has come. In the last stage it has yielded its final event. -/
inductive Stage where
  | greeted
  | started
  | completed
  deriving DecidableEq, Repr, Inhabited

/-- What a frame says: a message, that the server closed the connection as usual, or nothing. -/
inductive Signal where
  | message (entries : Datum)
  | closed
  | silence
  deriving Repr, Inhabited

namespace Signal

/-- The codes of a usual end. -/
def isUsual (code : Option Int) : Bool := code == none || code == some 1000 || code == some 1001

def malformed (text : String) : Failure := .transport ("Malformed websocket message: " ++ text)

def ofText (content : String) : Except Failure Signal :=
  match Json.read content.toList with
  | .ok (.map entries) => .ok (.message (.map entries))
  | .ok _ => .error (malformed "expected an object")
  | .error (.huge integer) => .error (.value integer.message)
  | .error (.malformed _ _) => .error (malformed (Text.truncate content 200))

def ofFrame : Frame → Except Failure Signal
  | .text content => ofText content
  | .closing code _ =>
    match code with
    | some n =>
      if isUsual code then .ok .closed
      else .error (.transport ("Websocket closed with code " ++ toString n))
    | none => .ok .closed
  | .error text _ => .error (.transport ("Websocket error: " ++ text.getD "None"))
  | .failure e _ => .error e
  | .other => .ok .silence

end Signal

/-- A subscription between two frames. -/
structure Subscription where
  id : String
  body : Datum
  stage : Stage
  socket : Socket
  deriving Repr, Inhabited

/-- What comes of a step: the subscription waits for the next frame, and may have been opened or
have yielded an event, or it is over. -/
inductive Progress where
  | waiting (s : Subscription)
  | opened (s : Subscription)
  | event (e : ResultEvent) (s : Subscription)
  | ended (failure : Option Failure) (socket : Socket)
  deriving Repr, Inhabited

namespace Subscription

/-- A failure inside a subscription. Those that the network client reports are explained. -/
def explained (e : Failure) : Failure :=
  if e.kind.isClient then .transport ("Websocket error: " ++ e.message) else e

/-- Takes leave of the server, which is told to stop unless it has ended the subscription. -/
def leave (s : Subscription) (isRunning : Bool) : Socket × Option Failure :=
  s.socket.leave (if isRunning then some s.id else none)

/-- Ends a subscription by a failure. One of the leave-taking takes its place. -/
def fail (s : Subscription) (isRunning : Bool) (e : Failure) : Progress :=
  let (socket, later) := s.leave isRunning
  .ended (some (later.getD (explained e))) socket

/-- Ends a subscription from outside. -/
def cancel (s : Subscription) : Socket × Option Failure := s.leave (s.stage == .started)

/-- Greets the server on a new connection. -/
def greet (request : Request) (id : String) (socket : Socket) : Progress :=
  let s : Subscription := ⟨id, request.body, .greeted, socket⟩
  let params := (request.endpoint.map (·.connectionParams)).getD []
  match socket.send (.greeting params) with
  | .ok socket => .waiting { s with socket }
  | .error e => s.fail false e

def isType (message : Datum) (type : String) : Bool :=
  match message.field? "type" with
  | some (.text t) => t == type
  | _ => false

/-- The failure that a server reports. -/
def reported (message : Datum) : Failure :=
  .transport (Envelope.reportedText ((message.field? "payload").getD .null))

/-- Whether a message is for another subscription. -/
def isForeign (s : Subscription) (message : Datum) : Bool :=
  match message.field? "id" with
  | none | some .null => false
  | some (.text id) => id != s.id
  | some _ => true

def start (s : Subscription) : Progress :=
  match s.socket.send (.start s.id s.body) with
  | .ok socket => .opened { s with socket, stage := .started }
  | .error e => s.fail false e

/-- What a signal means before the acknowledgement. -/
def receiveGreeted (s : Subscription) : Signal → Progress
  | .silence => .waiting s
  | .closed => s.fail false (.transport "Websocket closed before connection_ack")
  | .message m =>
    if isType m "connection_ack" then s.start
    else if isType m "connection_error" then s.fail false (reported m)
    else .waiting s

def complete (s : Subscription) : Progress := .event .completion { s with stage := .completed }

/-- What a signal means after it. -/
def receiveStarted (s : Subscription) : Signal → Progress
  | .silence => .waiting s
  | .closed => s.complete
  | .message m =>
    if isType m "ka" || s.isForeign m then .waiting s
    else if isType m "data" then
      match Envelope.event ((m.field? "payload").getD .null) false with
      | .ok e => .event e s
      | .error e => s.fail true e
    else if isType m "complete" then s.complete
    else if isType m "error" || isType m "connection_error" then s.fail false (reported m)
    else .waiting s

/-- The connection after a frame has been received. -/
def after (s : Subscription) (frame : Frame) : Subscription :=
  if frame.isGone then { s with socket := { s.socket with isClosed := true } } else s

/-- Receives a frame. A completed subscription only takes leave. -/
def receive (s : Subscription) (frame : Frame) : Progress :=
  match s.stage with
  | .completed =>
    let (socket, failure) := s.cancel
    .ended failure socket
  | .greeted =>
    match Signal.ofFrame frame with
    | .ok signal => (s.after frame).receiveGreeted signal
    | .error e => (s.after frame).fail false e
  | .started =>
    match Signal.ofFrame frame with
    | .ok signal => (s.after frame).receiveStarted signal
    | .error e => (s.after frame).fail true e

end Subscription

/-- What was seen of a subscription: its events, how often it was opened, the failure that ended it,
and its connection in the end. -/
structure SubscriptionRun where
  events : List ResultEvent
  openings : Nat
  failure : Option Failure
  socket : Socket
  deriving Repr, Inhabited

namespace SubscriptionRun

def addEvent (r : SubscriptionRun) (e : ResultEvent) : SubscriptionRun :=
  { r with events := e :: r.events }

def addOpening (r : SubscriptionRun) : SubscriptionRun := { r with openings := r.openings + 1 }

end SubscriptionRun

namespace Subscription

/-- A run that ends here, from outside or because all was said. -/
def ended (s : Subscription) : SubscriptionRun :=
  let (socket, failure) := s.cancel
  ⟨[], 0, failure, socket⟩

/-- Follows a subscription over frames. It is ended from outside after the last frame, and after so
many events if a limit is given. -/
def follow (limit : Option Nat) (s : Subscription) : List Frame → SubscriptionRun
  | [] => s.ended
  | frame :: rest =>
    match s.receive frame with
    | .waiting s => s.follow limit rest
    | .opened s => (s.follow limit rest).addOpening
    | .event e s =>
      if e.isFinal || limit == some 1 then s.ended.addEvent e
      else (s.follow (limit.map (· - 1)) rest).addEvent e
    | .ended failure socket => ⟨[], 0, failure, socket⟩

/-- Runs a subscription on a new connection over frames. -/
def runOver (request : Request) (id : String) (limit : Option Nat) (socket : Socket)
    (frames : List Frame) : SubscriptionRun :=
  match greet request id socket with
  | .waiting s | .opened s | .event _ s => s.follow limit frames
  | .ended failure socket => ⟨[], 0, failure, socket⟩

/-- Runs a subscription on a new connection over the frames that arrive there. Behind them the
server closes the connection. -/
def run (request : Request) (id : String) (limit : Option Nat) (socket : Socket) :
    SubscriptionRun :=
  runOver request id limit socket (socket.arrived ++ [.closing none false])

end Subscription
end InlineQuery
