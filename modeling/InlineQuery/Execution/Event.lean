import InlineQuery.Data.Display
import InlineQuery.Data.Json.Writer
import InlineQuery.Failure

/-!
Results of an execution. A server answers with an envelope that holds data, errors or both.
-/

namespace InlineQuery

/-- What a result says about a failure. -/
structure ErrorDescriptor where
  kind : String
  message : String
  details : Datum
  deriving Repr, Inhabited

def ErrorDescriptor.ofFailure (e : Failure) : ErrorDescriptor where
  kind := e.kind.name
  message := e.message
  details :=
    match e.kind, e.status with
    | .transport, some status => .object [("status", .int status)]
    | _, _ => .null

/-- One result of an execution. Nothing follows a final one. -/
structure ResultEvent where
  payload : Datum
  error : Option ErrorDescriptor
  isFinal : Bool
  deriving Repr, Inhabited

/-- The event with which a stream of results ends when its server completes it. -/
def ResultEvent.completion : ResultEvent := ⟨.null, none, true⟩

def ResultEvent.ofFailure (e : Failure) : ResultEvent := ⟨.null, some (.ofFailure e), true⟩

namespace Envelope

/-- The message of one reported error, which should be a text. -/
def errorMessage (e : Datum) : Datum :=
  match e with
  | .map _ => (e.field? "message").getD (.text e.display)
  | _ => .text e.display

/-- Joins messages, unless one of them is no text. -/
def joinMessages (messages : List Datum) : Except Failure String := do
  let texts ← messages.zipIdx.mapM fun (m, i) => match m with
    | .text s => Except.ok s
    | other => .error {
        kind := .type
        message := "sequence item " ++ toString i ++ ": expected str instance, "
          ++ other.typeName ++ " found" }
  return "; ".intercalate texts

def malformed : Failure :=
  .transport "Malformed response envelope: expected 'data' or 'errors'"

/-- The event that an envelope stands for. -/
def event (envelope : Datum) (isFinal : Bool) : Except Failure ResultEvent := do
  let data := envelope.field? "data"
  let errors := envelope.field? "errors"
  if data.isNone ∧ errors.isNone then throw malformed
  let errors := errors.getD .null
  let error ←
    if errors.isTruthy then
      let items := match errors with
        | .list items => items
        | single => [single]
      let message ← joinMessages (items.map errorMessage)
      pure (some ⟨"GraphQLError", message, errors⟩)
    else pure none
  return ⟨data.getD .null, error, isFinal⟩

mutual

/-- The text of an error that a server reports for a subscription. -/
def reportedText : Datum → String
  | .list items => "; ".intercalate (reportedTexts items)
  | .map entries =>
    let payload := Datum.map entries
    match payload.field? "message" with
    | some message => if message.isTruthy then message.display else payload.display
    | none => payload.display
  | payload => if payload.isTruthy then payload.display else "Subscription error"

def reportedTexts : List Datum → List String
  | [] => []
  | x :: xs => reportedText x :: reportedTexts xs

end

end Envelope

namespace ResultEvent

def payloadText (payload : Datum) : String := Json.pretty payload

def errorText (e : ErrorDescriptor) : String :=
  "Error (" ++ e.kind ++ "): " ++ e.message ++
    if e.details.isNull then "" else "\n\n" ++ payloadText e.details

/-- The text of a result: its error if it has one, or else its payload. -/
def text (event : ResultEvent) : String :=
  match event.error with
  | some e => errorText e
  | none => payloadText event.payload

end ResultEvent
end InlineQuery
