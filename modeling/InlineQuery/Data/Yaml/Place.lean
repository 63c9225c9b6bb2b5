/-!
Places in a text that is read line by line. Line ends are unified before a text is read, so that a
carriage return never ends a line here.
-/

namespace InlineQuery.Yaml

def isBreak (c : Char) : Bool := c == '\n' || c == '\x85' || c == '\u2028' || c == '\u2029'

/-- Whether a character is a space, a tab or a line end. -/
def isSpacing (c : Char) : Bool := c == ' ' || c == '\t' || isBreak c

/-- A place in a text and what follows it. -/
structure Place where
  rest : List Char
  index : Nat
  line : Nat
  column : Nat
  deriving DecidableEq, Repr, Inhabited

namespace Place

def start (text : List Char) : Place := ⟨text, 0, 0, 0⟩

def peek? (p : Place) : Option Char := p.rest.head?

/-- The place after the next character. A byte order mark takes no column. -/
def next (p : Place) : Place :=
  match p.rest with
  | [] => p
  | c :: r =>
    if isBreak c then ⟨r, p.index + 1, p.line + 1, 0⟩
    else ⟨r, p.index + 1, p.line, if c == '\ufeff' then p.column else p.column + 1⟩

def skip : Nat → Place → Place
  | 0, p => p
  | n + 1, p => skip n p.next

/-- The longest run of characters of a kind, and the place after it. -/
def span (f : Char → Bool) (p : Place) : List Char × Place :=
  let run := p.rest.takeWhile f
  (run, skip run.length p)

def skipSpaces (p : Place) : Place := (p.span (· == ' ')).2

/-- Reads a line end. Both of the plain ones stand for a line feed. -/
def lineEnd? (p : Place) : Option (Char × Place) :=
  match p.peek? with
  | some c => if isBreak c then some (if c == '\x85' then '\n' else c, p.next) else none
  | none => none

/-- Whether the text or the line ends here. -/
def atLineEnd (p : Place) : Bool := (p.peek?.map isBreak).getD true

/-- Whether a character counts as spacing, or there is none. -/
def isGap (c : Option Char) : Bool := (c.map isSpacing).getD true

/-- Whether a word ends here: the text or the line ends or a space follows. -/
def atWordEnd (p : Place) : Bool := (p.peek?.map fun c => c == ' ' || isBreak c).getD true

/-- Whether a mark between documents stands here: three of its characters, then a gap. -/
def atMark (p : Place) (c : Char) : Bool :=
  [c, c, c].isPrefixOf p.rest && isGap (p.rest.drop 3).head?

def atDocumentMark (p : Place) : Bool := p.atMark '-' || p.atMark '.'

/-- Skips the rest of a line that holds nothing but spaces and a comment, with its end. -/
def emptyLine? (p : Place) : Option Place :=
  let p := p.skipSpaces
  let p := if p.peek? = some '#' then (p.span fun c => !isBreak c).2 else p
  if p.atLineEnd then some ((p.lineEnd?.map (·.2)).getD p) else none

end Place
end InlineQuery.Yaml
