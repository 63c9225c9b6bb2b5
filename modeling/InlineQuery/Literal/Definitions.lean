import InlineQuery.Literal.Basic
import InlineQuery.Literal.Token

/-!
Splitting a GraphQL document into its top-level definitions. The document is cut into tokens, and
a definition ends where the next one starts: at a definition keyword outside all brackets, or at a
second selection set after an anonymous query.
-/

namespace InlineQuery.Definitions

open Literal (isIdent isGap lineRest openBracket closeBracket)

/-- What a token is to the splitter. `unterminated` is a block string without an end. -/
inductive Kind where
  | description
  | word (chars : List Char)
  | mark (c : Char)
  | unterminated
  deriving DecidableEq, Repr, Inhabited

structure Token where
  kind : Kind
  start : Nat
  stop : Nat
  deriving DecidableEq, Repr, Inhabited

/-- How many characters up to and including the next three quotes that do not follow a backslash.
`previous` is the character before the text. -/
def blockStringRest (previous : Char) : List Char → Option Nat
  | '"' :: '"' :: '"' :: r =>
    if previous = '\\' then (blockStringRest '"' r).map (· + 3) else some 3
  | c :: r => (blockStringRest c r).map (· + 1)
  | [] => none

/-- How many characters of a string remain after its opening quote. A line feed ends it. -/
def stringRest : List Char → Nat
  | [] => 0
  | '\\' :: [] => 1
  | '\\' :: _ :: r => stringRest r + 2
  | c :: r => if c == '"' || c == '\n' then 1 else stringRest r + 1

/-- The kind of the token that starts with `c`, and how many characters of `rest` belong to it. -/
def token (c : Char) (rest : List Char) : Kind × Nat :=
  if c == '"' then
    if rest.take 2 == ['"', '"'] then
      match blockStringRest '"' (rest.drop 2) with
      | some n => (.description, n + 2)
      | none => (.unterminated, rest.length)
    else (.description, stringRest rest)
  else if isIdent c || c == '@' then
    let more := rest.takeWhile isIdent
    (.word (c :: more), more.length)
  else (.mark c, 0)

/-- The tokens of a text that starts at `offset`, where `skip` characters ahead belong to the last
token or comment. -/
def tokensFrom (offset skip : Nat) : List Char → List Token
  | [] => []
  | c :: rest =>
    match skip with
    | skip + 1 => tokensFrom (offset + 1) skip rest
    | 0 =>
      if isGap c || c == ',' then tokensFrom (offset + 1) 0 rest
      else if c == '#' then tokensFrom (offset + 1) (lineRest rest) rest
      else
        let (kind, more) := token c rest
        ⟨kind, offset, offset + 1 + more⟩ :: tokensFrom (offset + 1) more rest

def tokens (text : List Char) : List Token := tokensFrom 0 0 text

/-- The words that start a definition. -/
def keywords : List (List Char) :=
  ["query", "mutation", "subscription", "fragment", "schema", "scalar", "type", "interface",
    "union", "enum", "input", "directive", "extend"].map String.toList

/-- The definition being read: where it starts and where its last token so far ends, whether a
selection set or block of it was closed outside all brackets, and whether it holds more than
descriptions. -/
structure Current where
  start : Nat
  stop : Nat
  closedBlock : Bool
  hasBody : Bool
  deriving DecidableEq, Repr, Inhabited

/-- One finding of the splitter. -/
inductive Piece where
  | definition (span : Span)
  | skipped (reason : SkipReason) (offset : Nat)
  deriving DecidableEq, Repr, Inhabited

structure Split where
  depth : Nat
  current : Option Current
  extending : Bool
  deriving DecidableEq, Repr, Inhabited

def Split.start : Split := ⟨0, none, false⟩

def Current.span (d : Current) : Span := ⟨d.start, d.stop⟩

/-- Whether a token outside all brackets starts the next definition. -/
def startsDefinition (extending : Bool) (d : Current) : Kind → Bool
  | .word chars => keywords.contains chars && !extending
  | .mark c => c == '{' && d.closedBlock
  | _ => false

/-- The definition that ends before a token, if one does. -/
def Split.ended (s : Split) (kind : Kind) : Option Current :=
  s.current.filter fun d => s.depth == 0 && d.hasBody && startsDefinition s.extending d kind

/-- Adds a token to the definition being read, or starts one with it. -/
def extended (current : Option Current) (closesBlock : Bool) (t : Token) : Current :=
  let d := current.getD ⟨t.start, t.stop, false, false⟩
  { d with
    stop := t.stop
    closedBlock := d.closedBlock || closesBlock
    hasBody := d.hasBody || t.kind != .description }

/-- The state after a token and the definition that ends before it. A closing bracket outside all
brackets also ends what is being read, and is reported. -/
def Split.step (s : Split) (t : Token) : Split × List Piece :=
  let ended := s.ended t.kind
  let current := if ended.isSome then none else s.current
  let pieces := (ended.map fun d => Piece.definition d.span).toList
  let extending := t.kind == .word "extend".toList
  match t.kind with
  | .mark c =>
    if openBracket c then (⟨s.depth + 1, some (extended current false t), extending⟩, pieces)
    else if closeBracket c then
      if s.depth = 0 then
        let cut := (current.filter (·.hasBody)).map fun d => Piece.definition d.span
        (.start, pieces ++ cut.toList ++ [.skipped (.unbalanced c) t.start])
      else
        (⟨s.depth - 1, some (extended current (s.depth == 1 && c == '}') t), extending⟩, pieces)
    else (⟨s.depth, some (extended current false t), extending⟩, pieces)
  | _ => (⟨s.depth, some (extended current false t), extending⟩, pieces)

/-- What is reported when the tokens end. -/
def Split.finish (s : Split) : List Piece :=
  match s.current with
  | none => []
  | some d =>
    if s.depth ≠ 0 then [.skipped .unterminatedDefinition d.start] else [.definition d.span]

def Split.run (s : Split) : List Token → List Piece
  | [] => s.finish
  | t :: ts =>
    if t.kind = .unterminated then
      [.skipped .unterminatedBlockString ((s.current.map (·.start)).getD t.start)]
    else
      let (next, pieces) := s.step t
      pieces ++ next.run ts

/-- The definitions of a document in source order, with what could not be isolated. -/
def pieces (text : List Char) : List Piece := Split.start.run (tokens text)

def Piece.extraction (text : List Char) (lines : LineIndex) : Piece → Extraction
  | definition span => .found (.ofSpan text lines span none [])
  | skipped reason offset => .skipped reason offset

end InlineQuery.Definitions
