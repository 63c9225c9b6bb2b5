import InlineQuery.Operation.Basic

/-!
All operations of a document. A literal gives either an entry, which may hold no operation, or a
failure; neither keeps the other literals from being read.
-/

namespace InlineQuery

/-- A literal with its document and its operations. -/
structure IndexEntry where
  literal : Literal
  document : Query.Document
  operations : List Operation
  deriving Repr, Inhabited

structure OperationIndex where
  entries : List IndexEntry
  failures : List ParseFailure
  deriving Repr, Inhabited

namespace OperationIndex

/-- What one literal adds to an index. -/
inductive Outcome where
  | entry (entry : IndexEntry)
  | failure (failure : ParseFailure)
  deriving Repr, Inhabited

def outcome (literal : Literal) : Except Failure Outcome := do
  match literal.document with
  | .error failure => return .failure failure
  | .ok document => return .entry ⟨literal, document, ← literal.operationsOf document⟩

def ofOutcomes (outcomes : List Outcome) : OperationIndex where
  entries := outcomes.filterMap fun
    | .entry entry => some entry
    | .failure _ => none
  failures := outcomes.filterMap fun
    | .entry _ => none
    | .failure failure => some failure

def ofLiterals (literals : List Literal) : Except Failure OperationIndex := do
  return ofOutcomes (← literals.mapM outcome)

def operations (index : OperationIndex) : List Operation := index.entries.flatMap (·.operations)

/-- The first operation with a name, or simply the first when no name is given. -/
def pick (operations : List Operation) : Option String → Option Operation
  | none => operations.head?
  | some name => operations.find? fun op => op.name == some name

/-- The operation of the first literal around an offset that has one of that name. -/
def operationAt (index : OperationIndex) (offset : Int) (name : Option String) :
    Option Operation :=
  (index.entries.filter fun e => 0 ≤ offset && e.literal.contains offset.toNat).findSome? fun e =>
    pick e.operations name

end OperationIndex
end InlineQuery
