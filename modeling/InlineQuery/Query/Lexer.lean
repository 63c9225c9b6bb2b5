import InlineQuery.Query.Token

/-!
The tokens of a GraphQL text. Reading stops at the first fault, which a reader of the tokens meets
only when it gets there.
-/

namespace InlineQuery.Query

/-- The outcome of reading one token: how many characters follow its first, or the fault and how
far from that first character it lies. -/
abbrev Reads (α : Type) : Type := Except (Nat × Fault) (α × Nat)

def isNameStart (c : Char) : Bool := c.isAlpha || c == '_'

def isNamePart (c : Char) : Bool := c.isAlphanum || c == '_'

/-- Spaces, tabs, line ends, commas and byte order marks separate tokens. -/
def isIgnored (c : Char) : Bool :=
  c == ' ' || c == '\t' || c == ',' || c == '\n' || c == '\r' || c == '\ufeff'

def isLineEnd (c : Char) : Bool := c == '\n' || c == '\r'

/-- How many digits a text starts with. -/
def digitCount (cs : List Char) : Nat := (cs.takeWhile Char.isDigit).length

/-- Requires digits at a position of a text and returns the position after them. -/
def digitsAt (cs : List Char) (start : Nat) : Except (Nat × Fault) Nat :=
  let rest := cs.drop start
  if digitCount rest = 0 then .error (start, .digitExpected rest.head?) else .ok (start + digitCount rest)

/-- The end of the digits before a decimal point: a zero stands alone. -/
def integerPart (cs : List Char) (start : Nat) : Except (Nat × Fault) Nat :=
  match cs.drop start with
  | '0' :: d :: _ => if d.isDigit then .error (start + 1, .digitAfterZero d) else .ok (start + 1)
  | _ => digitsAt cs start

/-- The end of the fraction, if there is one. -/
def fractionPart (cs : List Char) (start : Nat) : Except (Nat × Fault) Nat :=
  if (cs.drop start).head? = some '.' then digitsAt cs (start + 1) else .ok start

/-- The end of the exponent, if there is one. -/
def exponentPart (cs : List Char) (start : Nat) : Except (Nat × Fault) Nat :=
  match cs.drop start with
  | e :: r =>
    if e == 'e' || e == 'E' then
      match r.head? with
      | some '+' | some '-' => digitsAt cs (start + 2)
      | _ => digitsAt cs (start + 1)
    else .ok start
  | [] => .ok start

/-- Reads a number. Neither a dot nor a name may follow it. -/
def number (cs : List Char) : Except (Nat × Fault) (Lexeme × Nat) := do
  let whole ← integerPart cs (if cs.head? = some '-' then 1 else 0)
  let fraction ← fractionPart cs whole
  let stop ← exponentPart cs fraction
  let next := (cs.drop stop).head?
  if next.any fun c => c == '.' || isNameStart c then throw (stop, .digitExpected next)
  let text := String.ofList (cs.take stop)
  return (if whole = stop then .int text else .float text, stop - 1)

def hexValue? (c : Char) : Option Nat :=
  if '0' ≤ c ∧ c ≤ '9' then some (c.toNat - 48)
  else if 'A' ≤ c ∧ c ≤ 'F' then some (c.toNat - 55)
  else if 'a' ≤ c ∧ c ≤ 'f' then some (c.toNat - 87)
  else none

/-- The value of the four hexadecimal digits that a text starts with. -/
def fourHex? : List Char → Option Nat
  | a :: b :: c :: d :: _ => do
    return ((← hexValue? a) * 16 + (← hexValue? b)) * 256 + (← hexValue? c) * 16 + (← hexValue? d)
  | _ => none

def scalar? (n : Nat) : Option Char :=
  if n < 0xD800 ∨ 0xDFFF < n ∧ n ≤ 0x10FFFF then some (Char.ofNat n) else none

/-- Reads the digits of a braced escape. `seen` counts the characters read since the brace. -/
def bracedEscape (point seen : Nat) : Nat → List Char → Except Nat (Char × Nat)
  | 0, _ => .error seen
  | _, [] => .error seen
  | room + 1, c :: r =>
    if c == '}' then
      match scalar? point with
      | some value => if seen = 0 then .error 1 else .ok (value, seen + 1)
      | none => .error (seen + 1)
    else match hexValue? c with
      | some digit => bracedEscape (point * 16 + digit) (seen + 1) room r
      | none => .error (seen + 1)

/-- The character behind four digits, or behind two groups of four that form a surrogate pair. -/
def fixedEscape (digits : List Char) : Except Fault (Char × Nat) :=
  let bad := Fault.invalidUnicodeEscape (String.ofList ('\\' :: 'u' :: digits.take 4))
  match fourHex? digits with
  | none => .error bad
  | some code =>
    match scalar? code with
    | some value => .ok (value, 4)
    | none =>
      if code < 0xDC00 ∧ (digits.drop 4).take 2 = ['\\', 'u'] then
        match fourHex? (digits.drop 6) with
        | none => .error bad
        | some low =>
          if 0xDC00 ≤ low ∧ low ≤ 0xDFFF then
            .ok (Char.ofNat (0x10000 + (code - 0xD800) * 0x400 + (low - 0xDC00)), 10)
          else .error bad
      else .error bad

def simpleEscape? : Char → Option Char
  | '"' => some '"'
  | '\\' => some '\\'
  | '/' => some '/'
  | 'b' => some '\x08'
  | 'f' => some '\x0c'
  | 'n' => some '\n'
  | 'r' => some '\r'
  | 't' => some '\t'
  | _ => none

/-- The character that an escape denotes and how many characters after the backslash it takes. -/
def escape : List Char → Except Fault (Char × Nat)
  | [] => .error (.invalidEscape "\\")
  | 'u' :: '{' :: r =>
    match bracedEscape 0 0 9 r with
    | .ok (value, n) => .ok (value, n + 2)
    | .error n => .error (.invalidUnicodeEscape (String.ofList ('\\' :: 'u' :: '{' :: r.take n)))
  | 'u' :: r => (fixedEscape r).map fun (value, n) => (value, n + 1)
  | c :: _ =>
    match simpleEscape? c with
    | some value => .ok (value, 1)
    | none => .error (.invalidEscape (String.ofList ['\\', c]))

/-- Reads a string up to its closing quote. `distance` counts the characters since its opening quote, and
`skip` characters ahead belong to the last escape. -/
def stringBody (distance skip : Nat) : List Char → Reads (List Char)
  | [] => .error (distance, .unterminatedString)
  | c :: r =>
    match skip with
    | skip + 1 => stringBody (distance + 1) skip r
    | 0 =>
      if c == '"' then .ok ([], distance)
      else if isLineEnd c then .error (distance, .unterminatedString)
      else if c == '\\' then
        match escape r with
        | .error fault => .error (distance, fault)
        | .ok (value, n) => (stringBody (distance + 1) n r).map fun (cs, stop) => (value :: cs, stop)
      else (stringBody (distance + 1) 0 r).map fun (cs, stop) => (c :: cs, stop)

/-- Puts a character at the start of the first line. -/
def consFirst (c : Char) : List (List Char) → List (List Char)
  | [] => [[c]]
  | line :: lines => (c :: line) :: lines

/-- The lines of a block string up to its closing quotes, and how many characters they take. Three
quotes after a backslash are content. -/
def blockBody (skip : Nat) : List Char → Option (List (List Char) × Nat)
  | [] => none
  | c :: r =>
    match skip with
    | skip + 1 => (blockBody skip r).map fun (lines, n) => (lines, n + 1)
    | 0 =>
      if c == '"' && r.take 2 == ['"', '"'] then some ([[]], 3)
      else if c == '\\' && r.take 3 == ['"', '"', '"'] then
        (blockBody 3 r).map fun (lines, n) =>
          (consFirst '"' (consFirst '"' (consFirst '"' lines)), n + 1)
      else if c == '\r' && r.head? == some '\n' then
        (blockBody 1 r).map fun (lines, n) => ([] :: lines, n + 1)
      else if isLineEnd c then (blockBody 0 r).map fun (lines, n) => ([] :: lines, n + 1)
      else (blockBody 0 r).map fun (lines, n) => (consFirst c lines, n + 1)

/-- How far a line is indented. -/
def indentation (line : List Char) : Nat := (line.takeWhile fun c => c == ' ' || c == '\t').length

def isBlankLine (line : List Char) : Bool := indentation line = line.length

/-- The least of some indentations. -/
def least : List Nat → Option Nat
  | [] => none
  | n :: ns => some (ns.foldl min n)

/-- Removes the indentation that all lines but the first share, then blank lines at both ends. -/
def dedent (lines : List (List Char)) : List (List Char) :=
  let common := least (((lines.drop 1).filter fun l => !isBlankLine l).map indentation)
  let lines := match lines with
    | [] => []
    | first :: more => first :: more.map fun (l : List Char) => match common with
      | some n => l.drop n
      | none => []
  let lines := lines.dropWhile isBlankLine
  (lines.reverse.dropWhile isBlankLine).reverse

def joinLines (lines : List (List Char)) : String :=
  "\n".intercalate (lines.map String.ofList)

/-- Reads the token that starts with `c`. -/
def lexeme (c : Char) (rest : List Char) : Reads Lexeme :=
  match Punctuator.ofChar? c with
  | some p => .ok (.mark p, 0)
  | none =>
    if c == '.' then
      if rest.take 2 == ['.', '.'] then .ok (.mark .spread, 2)
      else match rest.head? with
        | some '.' => .error (0, .twoDots)
        | some d =>
          if d.isDigit then
            .error (0, .digitBeforeDot (String.ofList (rest.takeWhile Char.isDigit)))
          else .error (0, .unexpectedCharacter c)
        | none => .error (0, .unexpectedCharacter c)
    else if c == '"' then
      if rest.take 2 == ['"', '"'] then
        match blockBody 0 (rest.drop 2) with
        | some (lines, n) => .ok (.blockString (joinLines (dedent lines)), n + 2)
        | none => .error (rest.length + 1, .unterminatedString)
      else (stringBody 1 0 rest).map fun (cs, stop) => (.string (String.ofList cs), stop)
    else if c.isDigit || c == '-' then number (c :: rest)
    else if isNameStart c then
      let more := rest.takeWhile isNamePart
      .ok (.name (String.ofList (c :: more)), more.length)
    else if c == '\'' then .error (0, .singleQuote)
    else .error (0, .unexpectedCharacter c)

/-- Tokens up to the end of a text or its first fault, and the one or the other. -/
structure Lexed where
  tokens : List Token
  ending : Except SyntaxError Token

/-- Reads the tokens of a text that starts at `offset`, where `skip` characters ahead belong to the
last token or comment. -/
def lexFrom (offset skip : Nat) : List Char → Lexed
  | [] => ⟨[], .ok ⟨.eof, offset, offset⟩⟩
  | c :: r =>
    match skip with
    | skip + 1 => lexFrom (offset + 1) skip r
    | 0 =>
      if isIgnored c then lexFrom (offset + 1) 0 r
      else if c == '#' then
        lexFrom (offset + 1) (r.takeWhile fun c => !isLineEnd c).length r
      else match lexeme c r with
        | .error (n, fault) => ⟨[], .error ⟨fault, offset + n⟩⟩
        | .ok (lexeme, n) =>
          let more := lexFrom (offset + 1) n r
          { more with tokens := ⟨lexeme, offset, offset + 1 + n⟩ :: more.tokens }

def lex (text : List Char) : Lexed := lexFrom 0 0 text

end InlineQuery.Query
