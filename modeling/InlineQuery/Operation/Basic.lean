import InlineQuery.Data.Datum
import InlineQuery.Data.Digits
import InlineQuery.Failure
import InlineQuery.Literal.Basic
import InlineQuery.Query.Parser

namespace InlineQuery

/-- A declared variable of an operation. It is required when its type is non-null and it has no
default. -/
structure Variable where
  name : String
  type : String
  required : Bool
  default : Datum
  deriving Repr, Inhabited

/-- One executable operation of a literal. `ordinal` counts the operations of the literal before
it; `source` is the text that is sent. -/
structure Operation where
  document : Query.Document
  kind : Query.OperationKind
  name : Option String
  declarations : List Variable
  literal : Literal
  source : List Char
  ordinal : Nat
  deriving Repr, Inhabited

/-- A literal that is not valid GraphQL, and where in the document it fails. -/
structure ParseFailure where
  message : String
  literal : Literal
  offset : Nat
  line : Nat
  column : Nat
  deriving DecidableEq, Repr, Inhabited

namespace Operation

/-- The names of required variables that are absent or null. -/
def missingVariables (operation : Operation) (values : List (String × Datum)) : List String :=
  (operation.declarations.filter fun v =>
    v.required && ((Assoc.get? values v.name).getD .null).isNull).map (·.name)

end Operation

namespace Query

mutual

/-- The value that a constant denotes. -/
def Value.datum : Value → Except HugeInteger Datum
  | .var name => .ok (.text ("$" ++ name))
  | .int text => (integerOf text.toList).map .int
  | .float text => .ok (.float (doubleOf text.toList))
  | .string value _ => .ok (.text value)
  | .boolean value => .ok (.bool value)
  | .null => .ok .null
  | .enum name => .ok (.text name)
  | .list items => do return .list (← datumItems items)
  | .object fields => do return .object (Assoc.ofList (← datumFields fields))

def datumItems : List Value → Except HugeInteger (List Datum)
  | [] => .ok []
  | v :: vs => do return (← v.datum) :: (← datumItems vs)

def datumFields : List (String × Value) → Except HugeInteger (List (String × Datum))
  | [] => .ok []
  | (name, v) :: rest => do return (name, ← v.datum) :: (← datumFields rest)

end

def VariableDefinition.variable (definition : VariableDefinition) :
    Except HugeInteger Variable := do
  let default ← match definition.default with
    | some value => value.datum
    | none => .ok .null
  return {
    name := definition.name
    type := definition.type.text
    required := definition.type.isNonNull && definition.default.isNone
    default }

end Query

/-- Where a syntax error of a literal lies in its document. Line ends before it are counted in the
literal alone. -/
def ParseFailure.ofSyntaxError (literal : Literal) (e : Query.SyntaxError) : ParseFailure :=
  let before := literal.raw.take e.position
  let lines := before.count '\n'
  { message := e.message
    literal
    offset := literal.start + e.position
    line := literal.startPos.1 + lines
    column :=
      if lines = 0 then literal.startPos.2 + e.position
      else (before.reverse.takeWhile (· ≠ '\n')).length + (e.position - before.length) }

namespace Literal

/-- The document of a literal, or why it has none. -/
def document (literal : Literal) : Except ParseFailure Query.Document :=
  (Query.parse literal.graphqlText).mapError (.ofSyntaxError literal)

/-- One operation of a literal's document. -/
def operation (literal : Literal) (document : Query.Document) (ordinal : Nat)
    (definition : Query.OperationDefinition) : Except HugeInteger Operation := do
  return {
    document
    kind := definition.kind
    name := definition.name
    declarations := ← definition.declarations.mapM (·.variable)
    literal
    source := literal.graphqlText
    ordinal }

/-- The operations of a literal's document in order. -/
def operationsOf (literal : Literal) (document : Query.Document) :
    Except Failure (List Operation) :=
  match document.operations.zipIdx.mapM fun (d, i) => literal.operation document i d with
  | .ok operations => .ok operations
  | .error huge => .error (.value huge.message)

/-- The operations of a literal, or why it is not valid GraphQL. -/
def operations (literal : Literal) : Except Failure (Except ParseFailure (List Operation)) := do
  match literal.document with
  | .error failure => return .error failure
  | .ok document => return .ok (← literal.operationsOf document)

end Literal
end InlineQuery
