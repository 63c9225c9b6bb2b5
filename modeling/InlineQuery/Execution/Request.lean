import InlineQuery.Data.Json.Writer
import InlineQuery.Endpoint
import InlineQuery.Operation.Basic

namespace InlineQuery

/-- An operation to be sent with values for its variables. -/
structure Request where
  operation : Operation
  values : List (String × Datum)
  endpoint : Option Endpoint
  deriving Repr, Inhabited

namespace Request

/-- What is sent: the text of the operation, its name and the values. -/
def body (r : Request) : Datum :=
  .object [
    ("query", .text (String.ofList r.operation.source)),
    ("operationName", (r.operation.name.map .text).getD .null),
    ("variables", .object r.values)]

def defaultHeaders : List (String × String) :=
  [("Content-Type", "application/json"), ("Accept", "application/json")]

/-- The default headers with those of the endpoint written over them. -/
def headers (r : Request) : List (String × String) :=
  Assoc.merge defaultHeaders ((r.endpoint.map (·.headers)).getD [])

end Request

/-- What cannot be written, as a failure. -/
def Json.Unwritable.failure : Unwritable → Failure
  | .huge => .value huge.message
  | .circular => .value circular.message
  | fault => { kind := .type, message := fault.message }

/-- A value as it is sent. Only JSON's own values can be. -/
def Json.sent (d : Datum) : Except Failure String := (Json.compact d).mapError Unwritable.failure

end InlineQuery
