import InlineQuery.Data.Yaml.Place
import InlineQuery.Failure

/-!
The texts of scalars: plain ones, quoted ones, and blocks of lines that keep or fold their line
ends. Every loop reads at least a character, so the length of the text bounds it.
-/

namespace InlineQuery.Yaml

/-- Why a text cannot be read: it is no document, or a value that it names cannot exist. -/
inductive Fault where
  | malformed
  | value (failure : Failure)
  deriving DecidableEq, Repr, Inhabited

namespace Scalar

/-- What happens to the line ends after a block of lines. -/
inductive Ending where
  | clip
  | strip
  | keep
  deriving DecidableEq, Repr, Inhabited

/-- The first line of a block of lines. -/
structure Header where
  ending : Ending
  indent : Option Nat
  deriving DecidableEq, Repr, Inhabited

def ending? (p : Place) : Option (Ending × Place) :=
  match p.peek? with
  | some '+' => some (.keep, p.next)
  | some '-' => some (.strip, p.next)
  | _ => none

/-- Reads the depth of indentation that a header gives; it is not zero. -/
def indent? (p : Place) : Except Fault (Option Nat × Place) :=
  match p.peek? with
  | some c =>
    if c == '0' then .error .malformed
    else if c.isDigit then .ok (some (c.toNat - '0'.toNat), p.next)
    else .ok (none, p)
  | none => .ok (none, p)

/-- Reads a header, whose two parts may come in either order. -/
def header (p : Place) : Except Fault (Header × Place) := do
  let (first, p) := match ending? p with
    | some (e, p) => (some e, p)
    | none => (none, p)
  let (indent, p) ← indent? p
  let (ending, p) := match first, indent with
    | some e, _ => (e, p)
    | none, some _ => (ending? p).getD (.clip, p)
    | none, none => (.clip, p)
  if p.atWordEnd then return (⟨ending, indent⟩, p) else throw .malformed

/-- The line ends ahead, each after at most so many columns of indentation. -/
def blankLines (indent : Nat) : Nat → Place → List Char × Place
  | 0, p => ([], p)
  | fuel + 1, p =>
    let p := Place.skip (min (indent - p.column) (p.rest.takeWhile (· == ' ')).length) p
    match p.lineEnd? with
    | none => ([], p)
    | some (c, p) =>
      let (more, p) := blankLines indent fuel p
      (c :: more, p)

/-- The line ends ahead and the most spaces before one of them or before the text. -/
def leadingLines : Nat → Place → List Char × Nat × Place
  | 0, p => ([], 0, p)
  | fuel + 1, p =>
    let (spaces, p) := p.span (· == ' ')
    let depth := if spaces.isEmpty then 0 else p.column
    match p.lineEnd? with
    | none => ([], depth, p)
    | some (c, p) =>
      let (more, deepest, p) := leadingLines fuel p
      (c :: more, max depth deepest, p)

def startsIndented (p : Place) : Bool := p.peek? = some ' ' || p.peek? = some '\t'

/-- The lines of a block, without the line end of the last one and what follows it: those two come
after the text in the result. Folding joins two lines unless one is indented further. -/
def blockLines (folded : Bool) (indent : Nat) :
    Nat → List Char → Place → List Char × List Char × List Char × Place
  | 0, breaks, p => ([], [], breaks, p)
  | fuel + 1, breaks, p =>
    if p.column ≠ indent ∨ p.rest.isEmpty then ([], [], breaks, p)
    else
      let indented := startsIndented p
      let (line, p) := p.span fun c => !isBreak c
      let (lineEnd, p) := match p.lineEnd? with
        | some (c, p) => ([c], p)
        | none => ([], p)
      let (next, p) := blankLines indent p.rest.length p
      if p.column ≠ indent ∨ p.rest.isEmpty then (breaks ++ line, lineEnd, next, p)
      else
        let joint :=
          if folded && lineEnd == ['\n'] && !indented && !startsIndented p then
            if next.isEmpty then [' '] else []
          else lineEnd
        let (more, lineEnd, last, p) := blockLines folded indent fuel next p
        (breaks ++ line ++ joint ++ more, lineEnd, last, p)

/-- Reads a block of lines after its mark. `least` is the least depth of its indentation. -/
def block (folded : Bool) (least : Nat) (p : Place) : Except Fault (List Char × Place) := do
  let (header, p) ← header p
  let some p := p.emptyLine? | throw .malformed
  let least := max least 1
  let (indent, breaks, p) := match header.indent with
    | some n =>
      let indent := least + n - 1
      let (breaks, p) := blankLines indent p.rest.length p
      (indent, breaks, p)
    | none =>
      let (breaks, deepest, p) := leadingLines p.rest.length p
      (max least deepest, breaks, p)
  let (text, lineEnd, breaks, p) := blockLines folded indent p.rest.length breaks p
  return (match header.ending with
    | .strip => text
    | .clip => text ++ lineEnd
    | .keep => text ++ lineEnd ++ breaks, p)

/-- What line ends inside a text amount to: a single one is a space. -/
def foldedBreaks (first : Char) (more : List Char) : List Char :=
  if first ≠ '\n' then first :: more else if more.isEmpty then [' '] else more

/-- The line ends ahead with the spacing around them. A mark between documents is refused. -/
def quotedBreaks : Nat → Place → Except Fault (List Char × Place)
  | 0, p => .ok ([], p)
  | fuel + 1, p =>
    if p.atDocumentMark then .error .malformed
    else
      let (_, p) := p.span fun c => c == ' ' || c == '\t'
      match p.lineEnd? with
      | none => .ok ([], p)
      | some (c, p) => (quotedBreaks fuel p).map fun (more, p) => (c :: more, p)

/-- The character that a letter after a backslash stands for. -/
def escaped? : Char → Option Char
  | '0' => some '\x00'
  | 'a' => some '\x07'
  | 'b' => some '\x08'
  | 't' | '\t' => some '\t'
  | 'n' => some '\n'
  | 'v' => some '\x0b'
  | 'f' => some '\x0c'
  | 'r' => some '\r'
  | 'e' => some '\x1b'
  | ' ' => some ' '
  | '"' => some '"'
  | '\\' => some '\\'
  | '/' => some '/'
  | 'N' => some '\x85'
  | '_' => some '\xa0'
  | 'L' => some '\u2028'
  | 'P' => some '\u2029'
  | _ => none

/-- How many hexadecimal digits follow a letter after a backslash. -/
def numberedSize? : Char → Option Nat
  | 'x' => some 2
  | 'u' => some 4
  | 'U' => some 8
  | _ => none

def hexValue? (c : Char) : Option Nat :=
  if c.isDigit then some (c.toNat - '0'.toNat)
  else if 'a' ≤ c ∧ c ≤ 'f' then some (c.toNat - 'a'.toNat + 10)
  else if 'A' ≤ c ∧ c ≤ 'F' then some (c.toNat - 'A'.toNat + 10)
  else none

/-- The number that so many hexadecimal digits at the start of a text denote. -/
def hexNumber? (size : Nat) (cs : List Char) : Option Nat :=
  let digits := cs.take size
  if digits.length < size then none
  else digits.foldl (fun n c => return (← n) * 16 + (← hexValue? c)) (some 0)

/-- No character has the number. -/
def tooLarge (n : Nat) : Fault :=
  if 0x80000000 ≤ n then
    .value { kind := .overflow, message := "Python int too large to convert to C int" }
  else .value (.value "chr() arg not in range(0x110000)")

def isHighSurrogate (n : Nat) : Bool := 0xD800 ≤ n && n < 0xDC00

def isLowSurrogate (n : Nat) : Bool := 0xDC00 ≤ n && n < 0xE000

/-- Reads a numbered character after its backslash and letter. Two numbers that are the halves of a
pair are one character; a half alone is replaced. -/
def numbered (size : Nat) (p : Place) : Except Fault (Char × Place) := do
  let some n := hexNumber? size p.rest | throw .malformed
  let p := p.skip size
  if 0x110000 ≤ n then throw (tooLarge n)
  let second? := if isHighSurrogate n && ['\\', 'u'].isPrefixOf p.rest then
      (hexNumber? 4 (p.rest.drop 2)).filter isLowSurrogate
    else none
  return match second? with
    | some m => (Char.ofNat (0x10000 + (n - 0xD800) * 0x400 + (m - 0xDC00)), p.skip 6)
    | none => (if isHighSurrogate n || isLowSurrogate n then '\ufffd' else Char.ofNat n, p)

/-- Reads what a backslash introduces. A line end after it vanishes with the spacing that follows,
but further line ends stay. -/
def escape (p : Place) : Except Fault (List Char × Place) :=
  match p.peek? with
  | none => .error .malformed
  | some c =>
    match escaped? c, numberedSize? c, p.lineEnd? with
    | some d, _, _ => .ok ([d], p.next)
    | none, some size, _ => (numbered size p.next).map fun (d, p) => ([d], p)
    | none, none, some (_, p) => quotedBreaks p.rest.length p
    | none, none, none => .error .malformed

/-- The rest of a quoted text up to its closing quote. Only double quotes allow escapes; between
single quotes two quotes are one. -/
def quotedRest (quote : Char) : Nat → Place → Except Fault (List Char × Place)
  | 0, _ => .error .malformed
  | fuel + 1, p =>
    match p.rest with
    | [] => .error .malformed
    | c :: r =>
      if isSpacing c then do
        let (spaces, p) := p.span fun c => c == ' ' || c == '\t'
        match p.lineEnd? with
        | none =>
          let (more, p) ← quotedRest quote fuel p
          return (spaces ++ more, p)
        | some (first, p) =>
          let (breaks, p) ← quotedBreaks p.rest.length p
          let (more, p) ← quotedRest quote fuel p
          return (foldedBreaks first breaks ++ more, p)
      else if c == quote then
        if quote == '\'' && r.head? == some '\'' then do
          let (more, p) ← quotedRest quote fuel (p.skip 2)
          return ('\'' :: more, p)
        else .ok ([], p.next)
      else if c == '\\' && quote == '"' then do
        let (cs, p) ← escape p.next
        let (more, p) ← quotedRest quote fuel p
        return (cs ++ more, p)
      else do
        let (more, p) ← quotedRest quote fuel p.next
        return (c :: more, p)

/-- Reads a quoted text from its opening quote on. -/
def quoted (quote : Char) (p : Place) : Except Fault (List Char × Place) :=
  quotedRest quote p.rest.length p.next

/-- The characters that end a plain word inside brackets. -/
def isFlowMark (c : Char) : Bool := [',', '?', '[', ']', '\x7b', '\x7d'].contains c

/-- The longest plain word at the start of a text. A colon belongs to it if no gap follows, and
inside brackets none of their marks either. -/
def plainWord (inFlow : Bool) : List Char → List Char
  | [] => []
  | c :: r =>
    let colonEnds := Place.isGap r.head? ||
      (inFlow && [some ',', some '[', some ']', some '\x7b', some '\x7d'].contains r.head?)
    if isSpacing c || (c == ':' && colonEnds) || (inFlow && isFlowMark c) then []
    else c :: plainWord inFlow r

/-- The line ends ahead with the spaces around them. A mark between documents ends the scalar: then
there is no result, but the place of the mark. -/
def plainBreaks : Nat → Place → Option (List Char) × Place
  | 0, p => (some [], p)
  | fuel + 1, p =>
    if p.atDocumentMark then (none, p)
    else
      let p := p.skipSpaces
      match p.lineEnd? with
      | none => (some [], p)
      | some (c, p) =>
        let (more, p) := plainBreaks fuel p
        (more.map (c :: ·), p)

/-- What stands between two words of a plain scalar, and whether it holds a line end. -/
def plainSpaces (p : Place) : List Char × Bool × Place :=
  let (spaces, p) := p.span (· == ' ')
  match p.lineEnd? with
  | none => (spaces, false, p)
  | some (first, p) =>
    let (breaks, p) := plainBreaks p.rest.length p
    ((breaks.map (foldedBreaks first)).getD [], true, p)

/-- A plain scalar and whether it was followed by a line end. Lines after the first are indented by
`indent` columns at least, unless brackets are open. -/
def plainWords (inFlow : Bool) (indent : Nat) :
    Nat → List Char → Bool → Place → List Char × Bool × Place
  | 0, _, broken, p => ([], broken, p)
  | fuel + 1, spaces, broken, p =>
    let word := if p.peek? = some '#' then [] else plainWord inFlow p.rest
    if word.isEmpty then ([], broken, p)
    else
      let (next, broken, p) := plainSpaces (p.skip word.length)
      if next.isEmpty || p.peek? = some '#' || (!inFlow && p.column < indent) then
        (spaces ++ word, broken, p)
      else
        let (more, broken, p) := plainWords inFlow indent fuel next broken p
        (spaces ++ word ++ more, broken, p)

def plain (inFlow : Bool) (indent : Nat) (p : Place) : List Char × Bool × Place :=
  plainWords inFlow indent p.rest.length [] false p

end Scalar
end InlineQuery.Yaml
