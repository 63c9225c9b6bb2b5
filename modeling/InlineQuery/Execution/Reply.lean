import InlineQuery.Data.Json.Reader
import InlineQuery.Execution.Event
import InlineQuery.Text.Charset
import InlineQuery.Text.Truncate

/-!
What comes back from a request. Whatever the response, it becomes a final event or a failure.
-/

namespace InlineQuery

/-- Bytes that are not read, as a failure. -/
def Text.Undecoded.failure : Text.Undecoded → Failure
  | .flawed message => { kind := .decoding, message }
  | .unknown message => { kind := .lookup, message }
  | .refused message => { kind := .unicode, message }

/-- A response of a server. Without a charset its body is UTF-8. -/
structure Response where
  status : Int
  charset : Option String
  body : List UInt8
  /-- What the platform makes of the body if its charset is one of those that are not defined
  here. -/
  foreign : Text.Decoding := default
  deriving Repr, Inhabited

namespace Response

def charsetName (r : Response) : String :=
  match r.charset with
  | some name => if name = "" then "utf-8" else name
  | none => "utf-8"

def isSuccess (r : Response) : Bool := 200 ≤ r.status && r.status < 300

/-- What one way of reading the body gives. An empty body is not looked at, but the name of its
charset is. -/
def textBy (r : Response) (way : Text.Decoding → Except Text.Undecoded (List Char)) :
    Except Failure (List Char) :=
  if r.charsetName.toList.contains '\x00' then .error (.value "embedded null character")
  else if r.body.isEmpty then .ok []
  else (way (.named r.charsetName r.body r.foreign)).mapError Text.Undecoded.failure

/-- The text of a body, or why it has none. -/
def text (r : Response) : Except Failure (List Char) := r.textBy (·.strict)

/-- Its text with what is none replaced, or why it cannot be read even so. -/
def replacedText (r : Response) : Except Failure (List Char) := r.textBy (·.lenient)

/-- The failure that a response without success stands for. -/
def refusal (r : Response) : Failure :=
  match r.replacedText with
  | .error e => e
  | .ok text =>
    .response r.status
      ("HTTP " ++ toString r.status ++ ": " ++ Text.truncate (String.ofList text) 500)

/-- Why the body of a response with success has no text. That the bytes are none and that their
charset is not known are explained. -/
def undecoded (r : Response) (e : Failure) : Failure :=
  if e.kind == .decoding || e.kind == .lookup then
    .response r.status ("Response body is not valid " ++ r.charsetName ++ " text: " ++ e.message)
  else e

/-- The value that a text is as JSON. -/
def value (r : Response) (text : List Char) : Except Failure Datum :=
  match Json.read text with
  | .ok value => .ok value
  | .error (.huge integer) => .error (.value integer.message)
  | .error (.malformed _ _) =>
    .error (.response r.status
      ("Invalid JSON response: " ++ Text.truncate (String.ofList text) 200))

/-- The event that a response stands for. -/
def event (r : Response) : Except Failure ResultEvent := do
  if !r.isSuccess then throw r.refusal
  let text ← r.text.mapError r.undecoded
  Envelope.event (← r.value text) true

end Response

/-- What a request gets: a response, a failure, or nothing ever. -/
inductive Reply where
  | response (r : Response)
  | failure (e : Failure)
  | silence
  deriving Repr, Inhabited

namespace Reply

/-- A failure to reach a server. Those that the network client reports name the address. -/
def unreached (url : String) (e : Failure) : Failure :=
  if e.kind.isClient then .transport ("Request to " ++ url ++ " failed: " ++ e.message) else e

/-- The outcome of a request to an address, if it ever has one. -/
def outcome? (reply : Reply) (url : String) : Option (Except Failure ResultEvent) :=
  match reply with
  | response r => some r.event
  | failure e => some (.error (unreached url e))
  | silence => none

end Reply
end InlineQuery
