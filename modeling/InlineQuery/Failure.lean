namespace InlineQuery

/-- What kind of failure ended an operation. -/
inductive FailureKind where
  | configurationMissing
  | configurationInvalid
  | missingVariable
  | transport
  | operationNotFound
  | library
  | client
  | clientConnection
  | connectionReset
  | runtime
  | value
  | type
  | decoding
  | unicode
  | lookup
  | index
  | key
  | fileNotFound
  | isDirectory
  | notDirectory
  | overflow
  | recursion
  | missingMember
  | markup
  | interrupt
  deriving DecidableEq, Repr, Inhabited

namespace FailureKind

/-- The name of a kind in messages. -/
def name : FailureKind → String
  | configurationMissing => "ConfigurationMissing"
  | configurationInvalid => "ConfigurationInvalid"
  | missingVariable => "MissingVariable"
  | transport => "TransportError"
  | operationNotFound => "OperationNotFound"
  | library => "GqlensError"
  | client => "ClientError"
  | clientConnection => "ClientConnectionError"
  | connectionReset => "ConnectionResetError"
  | runtime => "RuntimeError"
  | value => "ValueError"
  | type => "TypeError"
  | decoding => "UnicodeDecodeError"
  | unicode => "UnicodeError"
  | lookup => "LookupError"
  | index => "IndexError"
  | key => "KeyError"
  | fileNotFound => "FileNotFoundError"
  | isDirectory => "IsADirectoryError"
  | notDirectory => "NotADirectoryError"
  | overflow => "OverflowError"
  | recursion => "RecursionError"
  | missingMember => "AttributeError"
  | markup => "MarkupError"
  | interrupt => "KeyboardInterrupt"

/-- The kinds by which the network client reports. -/
def isClient : FailureKind → Bool
  | client | clientConnection => true
  | _ => false

/-- The kinds that say that no usable configuration exists. -/
def isConfiguration : FailureKind → Bool
  | configurationMissing | configurationInvalid => true
  | _ => false

/-- Whether the failure is the user's request to stop. -/
def isInterrupt : FailureKind → Bool
  | interrupt => true
  | _ => false

end FailureKind

/-- A failure that ends an operation. A transport failure may carry the status of a response, one
for missing variables their names, and one of a configuration file the places of its problems. -/
structure Failure where
  kind : FailureKind
  message : String
  status : Option Int := none
  names : List String := []
  problems : List (String × String) := []
  deriving DecidableEq, Repr, Inhabited

namespace Failure

/-- Values for required variables were not given. -/
def missingVariables (names : List String) : Failure where
  kind := .missingVariable
  message := "Missing value for required variable(s): " ++ ", ".intercalate (names.map ("$" ++ ·))
  names := names

def transport (message : String) : Failure := { kind := .transport, message }

/-- A failure that a response with a status explains. -/
def response (status : Int) (message : String) : Failure :=
  { kind := .transport, message, status := some status }

def value (message : String) : Failure := { kind := .value, message }

/-- A computation that would not end. -/
def endless : Failure := { kind := .recursion, message := "maximum recursion depth exceeded" }

end Failure
end InlineQuery
