import InlineQuery.Execution.Request

/-!
The connection of a subscription: what is sent over it, and the frames that come over it.
-/

namespace InlineQuery

/-- A message to a subscription server. -/
inductive Message where
  | greeting (params : List (String × Datum))
  | start (id : String) (body : Datum)
  | stop (id : String)
  | terminate
  deriving Repr, Inhabited

def Message.datum : Message → Datum
  | greeting params =>
    .object [("type", .text "connection_init"), ("payload", .object params)]
  | start id body => .object [("id", .text id), ("type", .text "start"), ("payload", body)]
  | stop id => .object [("id", .text id), ("type", .text "stop")]
  | terminate => .object [("type", .text "connection_terminate")]

/-- A frame from a subscription server, or the failure to receive one. `gone` says that the
connection is closed by the time the frame is handed over. The network client closes it before it
hands an error over, and as a rule before a closing; a failure leaves it closed if it comes while
the client closes it. -/
inductive Frame where
  | text (content : String)
  | closing (code : Option Int) (gone : Bool)
  | error (text : Option String) (gone : Bool := false)
  | failure (e : Failure) (gone : Bool := false)
  | other
  deriving DecidableEq, Repr, Inhabited

/-- Whether the connection is closed by the time a frame is handed over. -/
def Frame.isGone : Frame → Bool
  | .closing _ gone | .error _ gone | .failure _ gone => gone
  | .text _ | .other => false

/-- What was done with a connection. -/
inductive SocketAction where
  | sent (message : Message)
  | closed
  deriving Repr, Inhabited

/-- One end of a connection: the frames that have arrived, what was done, and how many messages can
be sent before sending fails. -/
structure Socket where
  arrived : List Frame
  fault : Option (Nat × Failure)
  actions : List SocketAction
  isClosed : Bool
  deriving Repr, Inhabited

namespace Socket

def messages (s : Socket) : List Message :=
  s.actions.filterMap fun
    | .sent message => some message
    | .closed => none

def arrive (s : Socket) (frame : Frame) : Socket := { s with arrived := s.arrived ++ [frame] }

/-- Why the next message cannot be sent. -/
def obstacle? (s : Socket) : Option Failure :=
  if s.isClosed then some { kind := .runtime, message := "websocket is closed" }
  else match s.fault with
    | some (limit, e) => if limit ≤ s.messages.length then some e else none
    | none => none

/-- Sends a message, which has to be one of JSON's values. -/
def send (s : Socket) (message : Message) : Except Failure Socket := do
  let _ ← Json.sent message.datum
  match s.obstacle? with
  | some e => throw e
  | none => return { s with actions := s.actions ++ [.sent message] }

def close (s : Socket) : Socket :=
  { s with actions := s.actions ++ [.closed], isClosed := true }

/-- Whether a failure to send says that the other end may be gone. -/
def isLoss (e : Failure) : Bool :=
  e.kind.isClient || e.kind == .connectionReset || e.kind == .runtime

/-- Sends messages until one fails. -/
def sendAll (s : Socket) : List Message → Socket × Option Failure
  | [] => (s, none)
  | message :: rest =>
    match s.send message with
    | .ok s => s.sendAll rest
    | .error e => (s, some e)

/-- Takes leave of the server, unless the connection is closed, and closes the connection. A
failure that is no loss of the connection prevents the closing. -/
def leave (s : Socket) (subscription : Option String) : Socket × Option Failure :=
  if s.isClosed then (s.close, none)
  else match s.sendAll ((subscription.map Message.stop).toList ++ [.terminate]) with
    | (s, none) => (s.close, none)
    | (s, some e) => if isLoss e then (s.close, none) else (s, some e)

end Socket
end InlineQuery
