import InlineQuery.Text.Space
import InlineQuery.Literal.Basic
import InlineQuery.Literal.Token

/-!
Template literals of a script. The text is read once from left to right. What has been read is a
state, so reading two texts one after the other is reading the second from the state that the
first has left.
-/

namespace InlineQuery

/-- A template literal of a script, tagged as GraphQL or not. `spans` are its interpolations,
relative to the character after the opening delimiter. -/
structure Template where
  opened : Nat
  closed : Option Nat
  tag : Option String
  marked : Bool
  spans : List Span
  deriving DecidableEq, Repr, Inhabited

namespace Template

open Literal (isIdent isGap lineRest)

/-- The delimiter of template literals. -/
def delimiter : Char := '\x60'

/-- The last token of a stretch of code. -/
inductive Last where
  | nothing
  | word (chars : List Char)
  | mark (c : Char)
  deriving DecidableEq, Repr, Inhabited

/-- What is known of the code read so far: the depth of open braces, the last token, and whether
the last comment marks the next template as GraphQL. -/
structure Code where
  depth : Nat
  last : Last
  marked : Bool
  deriving DecidableEq, Repr, Inhabited

/-- The start of a text or of an interpolation. -/
def Code.fresh : Code := ⟨0, .nothing, false⟩

/-- A template whose closing delimiter has not been read. `hole` is where its last interpolation
starts, `inner` lists the templates that were closed inside its interpolations, and `outer` is the
depth of the code around it. -/
structure Opened where
  start : Nat
  tag : Option String
  marked : Bool
  spans : List Span
  hole : Nat
  inner : List Template
  outer : Nat
  deriving DecidableEq, Repr, Inhabited

/-- Whether the next character belongs to code or to the content of the innermost open template. -/
inductive Mode where
  | code (state : Code)
  | content
  deriving DecidableEq, Repr, Inhabited

/-- The state of reading. `skip` characters ahead belong to the last token. -/
structure Reading where
  offset : Nat
  before : List Char
  skip : Nat
  mode : Mode
  opened : List Opened
  done : List Template
  deriving DecidableEq, Repr, Inhabited

def Reading.start : Reading := ⟨0, [], 0, .code .fresh, [], []⟩

/-- A slash after one of these characters starts a regular expression. -/
def regexPreceders : List Char := "(,=:[!&|?\x7b\x7d;~+-*%<>^".toList

/-- A slash after one of these words starts a regular expression. -/
def regexWords : List (List Char) :=
  ["return", "typeof", "instanceof", "in", "of", "new", "delete", "void", "throw", "case", "do",
    "else", "yield", "await"].map String.toList

def Last.beforeRegex : Last → Bool
  | nothing => true
  | word chars => regexWords.contains chars
  | mark c => regexPreceders.contains c

/-- How many characters of a string remain, its closing quote included. A line feed ends a string
that is not closed. -/
def stringRest (quote : Char) : List Char → Nat
  | [] => 0
  | '\\' :: [] => 1
  | '\\' :: _ :: r => stringRest quote r + 2
  | c :: r => if c == quote then 1 else if c == '\n' then 0 else stringRest quote r + 1

/-- How many characters up to and including the slash that closes a regular expression. A line
feed, or the end of the text, comes before it in a division. -/
def regexBody (inClass : Bool) : List Char → Option Nat
  | [] => none
  | '\\' :: [] => none
  | '\\' :: _ :: r => (regexBody inClass r).map (· + 2)
  | c :: r =>
    if c == '\n' then none
    else if inClass then (regexBody (c != ']') r).map (· + 1)
    else if c == '/' then some 1
    else (regexBody (c == '[') r).map (· + 1)

/-- How many characters after its first slash a regular expression has, flags included. -/
def regexRest : List Char → Option Nat
  | '/' :: _ => none
  | cs => (regexBody false cs).map fun n => n + ((cs.drop n).takeWhile isIdent).length

/-- The body of a block comment, without its end mark. -/
def commentBody : List Char → Option (List Char)
  | [] => none
  | '*' :: '/' :: _ => some []
  | c :: r => (commentBody r).map (c :: ·)

/-- Whether a comment consists of the word that marks the next template. -/
def isMarker (body : List Char) : Bool :=
  (Text.trim body).map Char.toLower == "graphql".toList

/-- The last component of a chain that tags a template. -/
def tags : List String := ["gql", "graphql"]

/-- The last two components of the longer tag. -/
def experimentalTag : List String := ["graphql", "experimental"]

/-- The components of a dotted chain. -/
def components (chain : List Char) : List (List Char) := chain.splitOn '.'

/-- Whether a dotted chain tags a template as GraphQL. -/
def isTag (chain : List Char) : Bool :=
  let parts := components chain
  (parts.getLast?.map fun last => tags.contains (String.ofList last)).getD false ||
    (experimentalTag.map String.toList).isSuffixOf parts

/-- The tag before a template, read backwards: `before` is the text up to the delimiter in reverse
order. One opening parenthesis may stand between the two. -/
def tagBefore (before : List Char) : Option String :=
  let cs := before.dropWhile isGap
  let cs := match cs with
    | '(' :: r => r.dropWhile isGap
    | _ => cs
  let chain := (cs.takeWhile fun c => isIdent c || c == '.').reverse
  let chain := ((chain.dropWhile (· == '.')).reverse.dropWhile (· == '.')).reverse
  if chain ≠ [] ∧ isTag chain then some (String.ofList chain) else none

/-- What one token of code does: the state after it and how many characters follow its first. -/
def codeToken (state : Code) (c : Char) (rest : List Char) : Code × Nat :=
  if isGap c then (state, 0)
  else if c == '/' && rest.head? == some '/' then (state, lineRest rest)
  else if c == '/' && rest.head? == some '*' then
    match commentBody (rest.drop 1) with
    | none => (state, rest.length)
    | some body => ({ state with marked := isMarker body }, body.length + 3)
  else if c == '\'' || c == '"' then
    ({ state with last := .mark c, marked := false }, stringRest c rest)
  else if c == '/' then
    match if state.last.beforeRegex then regexRest rest else none with
    | some n => ({ state with last := .word [], marked := false }, n)
    | none => ({ state with last := .mark c, marked := false }, 0)
  else if isIdent c then
    let more := rest.takeWhile isIdent
    ({ state with last := .word (c :: more), marked := false }, more.length)
  else if c == '{' then ({ depth := state.depth + 1, last := .mark c, marked := false }, 0)
  else if c == '}' then ({ depth := state.depth - 1, last := .mark c, marked := false }, 0)
  else ({ state with last := .mark c, marked := false }, 0)

/-- The template that an open one becomes when its content ends, followed by those inside it. -/
def Opened.close (o : Opened) (closed : Option Nat) : List Template :=
  ⟨o.start, closed, o.tag, o.marked, o.spans⟩ :: o.inner

/-- Puts finished templates into the innermost open one, or else at top level. -/
def Reading.add (s : Reading) (finished : List Template) : Reading :=
  match s.opened with
  | [] => { s with done := s.done ++ finished }
  | o :: os => { s with opened := { o with inner := o.inner ++ finished } :: os }

/-- Reads the first character of a token of code. -/
def Reading.inCode (s : Reading) (state : Code) (c : Char) (rest : List Char) : Reading :=
  if c == delimiter then
    { s with
      mode := .content
      opened := ⟨s.offset, tagBefore s.before, state.marked, [], 0, [], state.depth⟩ :: s.opened }
  else
    match s.opened with
    | o :: os =>
      if c == '}' && state.depth == 0 then
        let span : Span := ⟨o.hole - (o.start + 1), s.offset + 1 - (o.start + 1)⟩
        { s with mode := .content, opened := { o with spans := o.spans ++ [span] } :: os }
      else
        let (state, n) := codeToken state c rest
        { s with mode := .code state, skip := n }
    | [] =>
      let (state, n) := codeToken state c rest
      { s with mode := .code state, skip := n }

/-- Reads a character of a template's content. -/
def Reading.inContent (s : Reading) (c : Char) (rest : List Char) : Reading :=
  if c == '\\' then { s with skip := 1 }
  else if c == delimiter then
    match s.opened with
    | [] => s
    | o :: os =>
      { s with opened := os, mode := .code ⟨o.outer, .mark delimiter, false⟩ }.add
        (o.close (some s.offset))
  else if c == '$' && rest.head? == some '{' then
    { s with
      mode := .code .fresh
      opened := s.opened.modifyHead fun o => { o with hole := s.offset }
      skip := 1 }
  else s

/-- Reads one character, given the text after it. -/
def Reading.step (s : Reading) (c : Char) (rest : List Char) : Reading :=
  let next :=
    if s.skip > 0 then { s with skip := s.skip - 1 }
    else match s.mode with
      | .code state => s.inCode state c rest
      | .content => s.inContent c rest
  { next with offset := s.offset + 1, before := c :: s.before }

def Reading.run (s : Reading) : List Char → Reading
  | [] => s
  | c :: rest => (s.step c rest).run rest

/-- All templates at the end of the text, those still open among them, in the order in which they
were opened. -/
def Reading.templates (s : Reading) : List Template :=
  s.done ++ (s.opened.reverse.map (·.close none)).flatten

/-- The template literals of a script in source order. -/
def all (text : List Char) : List Template := (Reading.start.run text).templates

/-- What scanning reports for a template: nothing when it is not GraphQL. -/
def extraction? (text : List Char) (lines : LineIndex) (t : Template) : Option Extraction :=
  if t.tag.isNone && !t.marked then none
  else match t.closed with
    | none => some (.skipped .unterminatedTemplate t.opened)
    | some stop =>
      let span : Span := ⟨t.opened + 1, stop⟩
      if Text.isBlank (span.slice text) then some (.skipped .emptyTemplate t.opened)
      else some (.found (.ofSpan text lines span t.tag t.spans))

end Template
end InlineQuery
