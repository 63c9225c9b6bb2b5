import InlineQuery.Data.Assoc
import InlineQuery.Data.Yaml.Token

/-!
The tokens of a text. Indentation opens and closes block collections. A key without a mark of its
own shows only by the colon after it, so its tokens are completed then: the key mark, and the start
of a mapping if the key opens one, are put before it. Reading stops at the first fault, which a
reader of the tokens meets only when it needs one that is not settled by then.
-/

namespace InlineQuery.Yaml

/-- A token that may turn out to start a key: how many tokens precede it and where it stands. A key
must follow if it stands where the entries of a block mapping do. -/
structure SimpleKey where
  before : Nat
  isRequired : Bool
  index : Nat
  line : Nat
  column : Nat
  deriving DecidableEq, Repr, Inhabited

/-- The tokens read so far, last first, with the columns of the open block collections, innermost
first, and for each depth of brackets the token that may start a key. -/
structure Layout where
  place : Place
  tokens : List Token
  indents : List Nat
  depth : Nat
  allowsKey : Bool
  keys : List (Nat × SimpleKey)
  isDone : Bool
  deriving DecidableEq, Repr, Inhabited

namespace Layout

def start (text : List Char) : Layout where
  place := .start (match text with
    | '\ufeff' :: r => r
    | _ => text)
  tokens := []
  indents := []
  depth := 0
  allowsKey := true
  keys := []
  isDone := false

def column (s : Layout) : Nat := s.place.column

def isFlow (s : Layout) : Bool := s.depth ≠ 0

def push (s : Layout) (t : Token) : Layout := { s with tokens := t :: s.tokens }

/-- Puts a token where so many others precede it. -/
def insertAt (s : Layout) (before : Nat) (t : Token) : Layout :=
  let after := s.tokens.length - before
  { s with tokens := s.tokens.take after ++ t :: s.tokens.drop after }

/-- The least column of what belongs to the innermost block collection. -/
def contentColumn (s : Layout) : Nat := (s.indents.head?.map (· + 1)).getD 0

/-- Closes the block collections that are indented further than a column; without one all of
them. -/
def unwind (s : Layout) (column : Option Nat) : Layout :=
  if s.isFlow then s
  else
    let closed := s.indents.takeWhile fun i => column.all (· < i)
    { s with
      tokens := List.replicate closed.length .blockEnd ++ s.tokens
      indents := s.indents.drop closed.length }

/-- Whether a block collection at a column would be a new one. -/
def opensBlock (s : Layout) (column : Nat) : Bool :=
  s.indents.head?.all (· < column)

/-- Opens a block collection at the next token if its column calls for it. -/
def openBlock (s : Layout) (t : Token) : Layout :=
  if s.opensBlock s.column then { s.push t with indents := s.column :: s.indents } else s

/-- Whether a token cannot start a key any more: a key stays on its line and is not longer than 1024
characters. -/
def isStale (s : Layout) (k : SimpleKey) : Bool :=
  k.line ≠ s.place.line || k.index + 1024 < s.place.index

/-- Forgets the tokens that cannot start a key any more. -/
def dropStale (s : Layout) : Except Fault Layout :=
  if s.keys.any fun (_, k) => s.isStale k && k.isRequired then .error .malformed
  else .ok { s with keys := s.keys.filter fun (_, k) => !s.isStale k }

/-- The tokens that nothing can be put before any more: those ahead of the first one that may still
start a key. -/
def settled (s : Layout) : List Token :=
  let pending := (s.keys.filter fun (_, k) => !s.isStale k).map fun (_, k) => k.before
  s.tokens.reverse.take (pending.foldl min s.tokens.length)

/-- Forgets the token of this depth that might have started a key. -/
def forgetKey (s : Layout) : Except Fault Layout :=
  match Assoc.get? s.keys s.depth with
  | some k =>
    if k.isRequired then .error .malformed else .ok { s with keys := Assoc.erase s.keys s.depth }
  | none => .ok s

/-- Notes that the next token may start a key. -/
def noteKey (s : Layout) : Except Fault Layout :=
  if !s.allowsKey then .ok s
  else do
    let s ← s.forgetKey
    let key : SimpleKey := {
      before := s.tokens.length
      isRequired := !s.isFlow && s.indents.head? == some s.column
      index := s.place.index
      line := s.place.line
      column := s.column }
    return { s with keys := Assoc.put s.keys s.depth key }

/-- Skips spaces, comments and line ends. A line end outside brackets allows a key. -/
def toNextToken : Nat → Layout → Layout
  | 0, s => s
  | fuel + 1, s =>
    let p := s.place.skipSpaces
    let p := if p.peek? = some '#' then (p.span fun c => !isBreak c).2 else p
    match p.lineEnd? with
    | some (_, p) => toNextToken fuel { s with place := p, allowsKey := s.allowsKey || !s.isFlow }
    | none => { s with place := p }

def finish (s : Layout) : Except Fault Layout := do
  let s ← (s.unwind none).forgetKey
  return { s with isDone := true }

def readDirective (s : Layout) : Except Fault Layout := do
  let s ← (s.unwind none).forgetKey
  let (t, p) ← Token.directive s.place
  return { s.push t with allowsKey := false, place := p }

/-- Reads a mark between documents. -/
def documentMark (s : Layout) (t : Token) : Except Fault Layout := do
  let s ← (s.unwind none).forgetKey
  return { s.push t with allowsKey := false, place := s.place.skip 3 }

def openFlow (s : Layout) (t : Token) : Except Fault Layout := do
  let s ← s.noteKey
  return { s.push t with depth := s.depth + 1, allowsKey := true, place := s.place.next }

def closeFlow (s : Layout) (t : Token) : Except Fault Layout := do
  let s ← s.forgetKey
  if s.depth = 0 then throw .malformed
  return { s.push t with depth := s.depth - 1, allowsKey := false, place := s.place.next }

def flowEntry (s : Layout) : Except Fault Layout := do
  let s ← s.forgetKey
  return { s.push .flowEntry with allowsKey := true, place := s.place.next }

def blockEntry (s : Layout) : Except Fault Layout := do
  if !s.isFlow && !s.allowsKey then throw .malformed
  let s := if s.isFlow then s else s.openBlock .blockSequenceStart
  let s ← s.forgetKey
  return { s.push .blockEntry with allowsKey := true, place := s.place.next }

def markedKey (s : Layout) : Except Fault Layout := do
  if !s.isFlow && !s.allowsKey then throw .malformed
  let s := if s.isFlow then s else s.openBlock .blockMappingStart
  let s ← s.forgetKey
  return { s.push .key with allowsKey := !s.isFlow, place := s.place.next }

/-- Reads the mark of a value. If a token may have started a key, it did. -/
def valueMark (s : Layout) : Except Fault Layout := do
  let s ← match Assoc.get? s.keys s.depth with
    | some k =>
      let s := { s with keys := Assoc.erase s.keys s.depth, allowsKey := false }
      let s := s.insertAt k.before .key
      pure (if !s.isFlow && s.opensBlock k.column then
          { s.insertAt k.before .blockMappingStart with indents := k.column :: s.indents }
        else s)
    | none =>
      if !s.isFlow && !s.allowsKey then throw .malformed
      let s := if s.isFlow then s else s.openBlock .blockMappingStart
      pure { s with allowsKey := !s.isFlow }
  return { s.push .value with place := s.place.next }

/-- Reads a token that may start a key. -/
def word (s : Layout) (read : Place → Except Fault (Token × Place)) : Except Fault Layout := do
  let s ← s.noteKey
  let (t, p) ← read s.place
  return { s.push t with allowsKey := false, place := p }

def blockScalar (s : Layout) (folded : Bool) : Except Fault Layout := do
  let s ← s.forgetKey
  let (text, p) ← Scalar.block folded s.contentColumn s.place.next
  return { s.push (.scalar (String.ofList text) false) with allowsKey := true, place := p }

def quotedScalar (s : Layout) (quote : Char) : Except Fault Layout :=
  s.word fun p => (Scalar.quoted quote p).map fun (text, p) =>
    (.scalar (String.ofList text) false, p)

/-- Reads a plain scalar. A key may follow if it ends at the start of a line. -/
def plainScalar (s : Layout) : Except Fault Layout := do
  let s ← s.noteKey
  let (text, broken, p) := Scalar.plain s.isFlow s.contentColumn s.place
  return { s.push (.scalar (String.ofList text) true) with allowsKey := broken, place := p }

/-- Whether a plain scalar can start with a character that another one follows. -/
def startsPlain (inFlow : Bool) (c : Char) (second : Option Char) : Bool :=
  !("-?:,[]\x7b\x7d#&*!|>'\"%@\x60".toList.contains c || isSpacing c) ||
    (!Place.isGap second && (c == '-' || (!inFlow && (c == '?' || c == ':'))))

/-- Reads the next token. -/
def step (s : Layout) : Except Fault Layout := do
  let s ← (toNextToken s.place.rest.length s).dropStale
  let s := s.unwind (some s.column)
  match s.place.rest with
  | [] => s.finish
  | c :: r =>
    let gap := Place.isGap r.head?
    if c == '%' && s.column = 0 then s.readDirective
    else if s.column = 0 && s.place.atMark '-' then s.documentMark .documentStart
    else if s.column = 0 && s.place.atMark '.' then s.documentMark .documentEnd
    else if c == '[' then s.openFlow .flowSequenceStart
    else if c == '\x7b' then s.openFlow .flowMappingStart
    else if c == ']' then s.closeFlow .flowSequenceEnd
    else if c == '\x7d' then s.closeFlow .flowMappingEnd
    else if c == ',' then s.flowEntry
    else if c == '-' && gap then s.blockEntry
    else if c == '?' && (s.isFlow || gap) then s.markedKey
    else if c == ':' && (s.isFlow || gap) then s.valueMark
    else if c == '*' then s.word fun p => (Token.anchorName p.next).map fun (n, p) => (.alias n, p)
    else if c == '&' then s.word fun p => (Token.anchorName p.next).map fun (n, p) => (.anchor n, p)
    else if c == '!' then s.word Token.tagToken
    else if c == '|' && !s.isFlow then s.blockScalar false
    else if c == '>' && !s.isFlow then s.blockScalar true
    else if c == '\'' then s.quotedScalar '\''
    else if c == '"' then s.quotedScalar '"'
    else if startsPlain s.isFlow c r.head? then s.plainScalar
    else throw .malformed

end Layout

/-- The tokens of a text that can be read before its first fault shows, and the fault. -/
structure TokenStream where
  tokens : List Token
  fault : Option Fault
  deriving DecidableEq, Repr, Inhabited

/-- Reads tokens up to the end of the text. Each of them takes a character. -/
def Layout.run : Nat → Layout → TokenStream
  | 0, s => ⟨s.tokens.reverse, none⟩
  | fuel + 1, s =>
    if s.isDone then ⟨s.tokens.reverse, none⟩
    else match s.step with
      | .ok next => run fuel next
      | .error fault => ⟨s.settled, some fault⟩

/-- Whether a character may stand in a document. -/
def isAllowed (c : Char) : Bool :=
  c == '\t' || c == '\n' || c == '\r' || (' ' ≤ c && c ≤ '~') || c == '\x85' ||
    ('\xa0' ≤ c && c != '\ufffe' && c != '\uffff')

/-- The tokens of a text. One with a character that may not stand there has none. -/
def TokenStream.ofText (text : List Char) : TokenStream :=
  if text.all isAllowed then (Layout.start text).run (text.length + 1) else ⟨[], some .malformed⟩

end InlineQuery.Yaml
