import InlineQuery.Text.Lines

namespace InlineQuery

/-- A stretch of a text, from an offset up to but not including another. -/
structure Span where
  start : Nat
  stop : Nat
  deriving DecidableEq, Repr, Inhabited

/-- The part of a text that a span covers. -/
def Span.slice (span : Span) (text : List Char) : List Char :=
  (text.drop span.start).take (span.stop - span.start)

/-- The content of one embedded GraphQL text, delimiters excluded. Offsets count characters of
the document; interpolation spans are relative to the literal's start. -/
structure Literal where
  raw : List Char
  start : Nat
  stop : Nat
  startPos : Nat × Nat
  stopPos : Nat × Nat
  tag : Option String
  interpolations : List Span
  deriving DecidableEq, Repr, Inhabited

namespace Literal

/-- The literal that a span of a document holds. -/
def ofSpan (text : List Char) (lines : LineIndex) (span : Span) (tag : Option String)
    (interpolations : List Span) : Literal where
  raw := span.slice text
  start := span.start
  stop := span.stop
  startPos := lines.position span.start
  stopPos := lines.position span.stop
  tag := tag
  interpolations := interpolations

/-- Replaces the characters whose offset lies in some span by blanks. Line ends stay, so that
every other character keeps its line and column. -/
def blank (spans : List Span) (offset : Nat) : List Char → List Char
  | [] => []
  | c :: r =>
    (if spans.any (fun s => s.start ≤ offset && offset < s.stop) && c != '\r' && c != '\n'
      then ' ' else c) :: blank spans (offset + 1) r

/-- The text that is read as GraphQL: every interpolation is blanked out. -/
def graphqlText (literal : Literal) : List Char :=
  blank literal.interpolations 0 literal.raw

/-- Whether an offset lies in the literal or touches one of its ends. -/
def contains (literal : Literal) (offset : Nat) : Bool :=
  literal.start ≤ offset && offset ≤ literal.stop

end Literal

/-- Why a candidate was left out. -/
inductive SkipReason where
  | unterminatedTemplate
  | emptyTemplate
  | unterminatedBlockString
  | unbalanced (bracket : Char)
  | unterminatedDefinition
  deriving DecidableEq, Repr, Inhabited

def SkipReason.message : SkipReason → String
  | unterminatedTemplate => "unterminated template literal"
  | emptyTemplate => "empty template literal"
  | unterminatedBlockString => "unterminated block string"
  | unbalanced bracket => "unbalanced '" ++ bracket.toString ++ "'"
  | unterminatedDefinition => "unterminated definition"

/-- What scanning reports for one candidate. -/
inductive Extraction where
  | found (literal : Literal)
  | skipped (reason : SkipReason) (offset : Nat)
  deriving DecidableEq, Repr, Inhabited

def Extraction.literal? : Extraction → Option Literal
  | found literal => some literal
  | skipped .. => none

end InlineQuery
