import InlineQuery.Literal.Scan
import InlineQuery.Operation.Fragments

/-!
Lenses: the places of a document where an operation can be executed.
-/

namespace InlineQuery

/-- A text that is open for editing. The version counts its changes. -/
structure SourceDocument where
  uri : String
  text : List Char
  language : Language
  version : Nat
  deriving DecidableEq, Repr, Inhabited

/-- The command that a lens offers. -/
def executeCommand : String := "gqlens.executeOperation"

/-- What the execute command needs to find an operation again. -/
structure ExecuteArguments where
  uri : String
  start : Int
  stop : Option Int
  name : Option String
  deriving DecidableEq, Repr, Inhabited

/-- One place where an operation can be executed: the first line of its literal. -/
structure Lens where
  line : Nat
  column : Nat
  title : String
  command : String
  arguments : ExecuteArguments
  operation : Operation
  deriving Repr, Inhabited

/-- All lenses of one version of a document, with what could not be read of it. -/
structure LensSet where
  uri : String
  version : Nat
  text : List Char
  lenses : List Lens
  failures : List ParseFailure
  skipped : List (SkipReason × Nat)
  index : OperationIndex
  deriving Repr, Inhabited

namespace Lens

/-- The first letter in upper case. -/
def capitalized (s : String) : String :=
  match s.toList with
  | [] => ""
  | c :: r => String.ofList (c.toUpper :: r)

/-- The title of an operation's lens; its name is shown where there are several. -/
def titleOf (operation : Operation) (named : Bool) : String :=
  let title := "Execute " ++ capitalized operation.kind.name
  match operation.name with
  | some name => if named && name ≠ "" then title ++ " " ++ name else title
  | none => title

def ofOperation (uri : String) (named : Bool) (operation : Operation) : Lens :=
  let literal := operation.literal
  { line := literal.startPos.1
    column := literal.startPos.2
    title := titleOf operation named
    command := executeCommand
    arguments := ⟨uri, literal.start, some literal.stop, operation.name⟩
    operation }

/-- Whether a lens belongs to an operation: the same one of the same literal. -/
def belongsTo (lens : Lens) (operation : Operation) : Bool :=
  lens.operation.literal == operation.literal &&
    lens.operation.ordinal == operation.ordinal

end Lens

namespace LensSet

def ofEntry (uri : String) (entry : IndexEntry) : List Lens :=
  entry.operations.map (Lens.ofOperation uri (1 < entry.operations.length))

/-- The index of a document's operations. Only the definitions of a GraphQL file are linked: the
literals of a script are sent as they are. -/
def indexOf (document : SourceDocument) : Except Failure OperationIndex := do
  let index ← OperationIndex.ofLiterals (literals document.text document.language)
  return if document.language = .graphql then index.link else index

def skippedOf (document : SourceDocument) : List (SkipReason × Nat) :=
  (scan document.text document.language).filterMap fun
    | .skipped reason offset => some (reason, offset)
    | .found _ => none

/-- The lenses of a document: one for each executable operation. -/
def ofDocument (document : SourceDocument) : Except Failure LensSet := do
  let index ← indexOf document
  return {
    uri := document.uri
    version := document.version
    text := document.text
    lenses := index.entries.flatMap (ofEntry document.uri)
    failures := index.failures
    skipped := skippedOf document
    index }

def operationAt (set : LensSet) (offset : Int) (name : Option String) : Option Operation :=
  set.index.operationAt offset name

def lensAtOffset (set : LensSet) (offset : Int) (name : Option String) :
    Option Lens := do
  let operation ← set.operationAt offset name
  set.lenses.find? (·.belongsTo operation)

/-- The first lens whose literal spans a line. -/
def lensAtLine (set : LensSet) (line : Int) : Option Lens :=
  set.lenses.find? fun a =>
    let literal := a.operation.literal
    (literal.startPos.1 : Int) ≤ line && line ≤ literal.stopPos.1

/-- Whether a set was computed from this version and text of a document. -/
def isCurrent (set : LensSet) (document : SourceDocument) : Bool :=
  set.version == document.version && set.text == document.text

end LensSet

/-- The latest lenses of each document. -/
structure LensCache where
  sets : List (String × LensSet)
  deriving Repr, Inhabited

namespace LensCache

def empty : LensCache := ⟨[]⟩

def get? (cache : LensCache) (uri : String) : Option LensSet :=
  Assoc.get? cache.sets uri

/-- The set of a document, unless its text or version has changed since. -/
def current? (cache : LensCache) (document : SourceDocument) : Option LensSet :=
  (cache.get? document.uri).filter (·.isCurrent document)

/-- Computes the lenses of a document anew. -/
def changed (cache : LensCache) (document : SourceDocument) :
    Except Failure (LensSet × LensCache) := do
  let set ← LensSet.ofDocument document
  return (set, ⟨Assoc.put cache.sets document.uri set⟩)

/-- The lenses of a document, computed only when they are not current. -/
def provide (cache : LensCache) (document : SourceDocument) :
    Except Failure (LensSet × LensCache) :=
  match cache.current? document with
  | some set => .ok (set, cache)
  | none => cache.changed document

def closed (cache : LensCache) (uri : String) : LensCache :=
  ⟨Assoc.erase cache.sets uri⟩

def lenses (cache : LensCache) (uri : String) : List Lens :=
  ((cache.get? uri).map (·.lenses)).getD []

end LensCache
end InlineQuery
