import InlineQuery.Execution.Reply
import InlineQuery.Execution.Socket

/-!
The network as an execution meets it: what it will answer, and what has been asked of it so far.
-/

namespace InlineQuery

/-- A request that was sent. -/
structure Post where
  url : String
  data : String
  headers : List (String × String)
  deriving DecidableEq, Repr, Inhabited

/-- An attempt to connect. -/
structure Dial where
  url : String
  protocols : List String
  headers : List (String × String)
  deriving DecidableEq, Repr, Inhabited

inductive Connection where
  | refused (e : Failure)
  | accepted (socket : Socket)
  deriving Repr, Inhabited

/-- Answers to come, in order, and the one for everything behind them; then what was sent, and the
connections that were made. -/
structure Network where
  replies : List Reply
  connections : List Connection
  lastReply : Reply
  lastConnection : Connection
  posts : List Post
  dials : List Dial
  sockets : List Socket
  deriving Repr, Inhabited

namespace Network

def post (net : Network) (p : Post) : Reply × Network :=
  (net.replies.headD net.lastReply,
    { net with replies := net.replies.tail, posts := net.posts ++ [p] })

/-- Connects and gives the number of the connection. -/
def dial (net : Network) (d : Dial) : Except Failure Nat × Network :=
  let rest := { net with connections := net.connections.tail, dials := net.dials ++ [d] }
  match net.connections.headD net.lastConnection with
  | .refused e => (.error e, rest)
  | .accepted socket => (.ok rest.sockets.length, { rest with sockets := rest.sockets ++ [socket] })

def socket (net : Network) (i : Nat) : Socket := (net.sockets[i]?).getD default

def putSocket (net : Network) (i : Nat) (socket : Socket) : Network :=
  { net with sockets := net.sockets.set i socket }

/-- A frame arrives over a connection. -/
def arrive (net : Network) (i : Nat) (frame : Frame) : Network :=
  { net with sockets := net.sockets.modify i (·.arrive frame) }

/-- Takes the first frame that has arrived over a connection. -/
def takeFrame (net : Network) (i : Nat) : Option (Frame × Network) :=
  match (net.socket i).arrived with
  | [] => none
  | frame :: rest => some (frame, net.putSocket i { net.socket i with arrived := rest })

end Network

namespace Request

/-- Sends a query or mutation to its endpoint: the outcome, if it ever has one. A request that
cannot be sent fails. -/
def post (r : Request) (net : Network) : Option (Except Failure ResultEvent) × Network :=
  match r.endpoint with
  | none => (some (.error (.transport "No endpoint to send the request to")), net)
  | some endpoint =>
    match Json.sent r.body with
    | .error e => (some (.error e), net)
    | .ok data =>
      let (reply, net) := net.post ⟨endpoint.url, data, r.headers⟩
      (reply.outcome? endpoint.url, net)

/-- A failure to connect. Those that the network client reports name the address. -/
def unconnected (url : String) (e : Failure) : Failure :=
  if e.kind.isClient then
    .transport ("Websocket connection to " ++ url ++ " failed: " ++ e.message)
  else e

/-- Connects to the server of a subscription. -/
def dial (r : Request) (net : Network) : Except Failure Nat × Network :=
  match r.endpoint with
  | none => (.error (.transport "No endpoint to subscribe to"), net)
  | some endpoint =>
    match endpoint.socketUrl with
    | .error e => (.error e, net)
    | .ok url =>
      let (made, net) := net.dial ⟨url, ["graphql-ws"], endpoint.headers⟩
      (made.mapError (unconnected url), net)

end Request
end InlineQuery
