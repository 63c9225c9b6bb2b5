import InlineQuery.Data.Datum
import InlineQuery.Data.Digits

/-!
Reading JSON. Beside the standard's values the names of the special numbers are accepted, and a
repeated key keeps its first place and its last value.
-/

namespace InlineQuery.Json

inductive Cause where
  | valueExpected
  | nameExpected
  | colonExpected
  | commaExpected
  | extraData
  | unterminatedString
  | controlCharacter
  | invalidEscape
  | invalidUnicodeEscape
  | byteOrderMark
  deriving DecidableEq, Repr, Inhabited

def Cause.text : Cause → String
  | valueExpected => "Expecting value"
  | nameExpected => "Expecting property name enclosed in double quotes"
  | colonExpected => "Expecting ':' delimiter"
  | commaExpected => "Expecting ',' delimiter"
  | extraData => "Extra data"
  | unterminatedString => "Unterminated string starting at"
  | controlCharacter => "Invalid control character at"
  | invalidEscape => "Invalid \\escape"
  | invalidUnicodeEscape => "Invalid \\uXXXX escape"
  | byteOrderMark => "Unexpected UTF-8 BOM (decode using utf-8-sig)"

/-- Why a text is not read: it is not JSON from an offset on, or an integer is too long. -/
inductive Fault where
  | malformed (cause : Cause) (offset : Nat)
  | huge (integer : HugeInteger)
  deriving DecidableEq, Repr, Inhabited

/-- A position in a text for messages: line and column count from one. -/
def place (text : List Char) (offset : Nat) : String :=
  let before := text.take offset
  let line := before.count '\n' + 1
  let column := (before.reverse.takeWhile (· ≠ '\n')).length + 1
  "line " ++ toString line ++ " column " ++ toString column ++ " (char " ++ toString offset ++ ")"

def Cause.message (cause : Cause) (text : List Char) (offset : Nat) : String :=
  cause.text ++ ": " ++ place text offset

/-- What is left to read: the text from an offset on. -/
structure Rest where
  offset : Nat
  chars : List Char
  deriving Repr, Inhabited

abbrev Reads (α : Type) : Type := Except Fault (α × Rest)

def Rest.drop (rest : Rest) (n : Nat) : Rest := ⟨rest.offset + n, rest.chars.drop n⟩

def isGap (c : Char) : Bool := c == ' ' || c == '\t' || c == '\n' || c == '\r'

def Rest.skipGap (rest : Rest) : Rest := rest.drop (rest.chars.takeWhile isGap).length

def hexDigit? (c : Char) : Option Nat :=
  if '0' ≤ c ∧ c ≤ '9' then some (c.toNat - 48)
  else if 'A' ≤ c ∧ c ≤ 'F' then some (c.toNat - 55)
  else if 'a' ≤ c ∧ c ≤ 'f' then some (c.toNat - 87)
  else none

/-- The value of exactly four hexadecimal digits. -/
def hexValue? : List Char → Option Nat
  | [a, b, c, d] => do
    return (((← hexDigit? a) * 16 + (← hexDigit? b)) * 16 + (← hexDigit? c)) * 16 + (← hexDigit? d)
  | _ => none

def simpleEscape? : Char → Option Char
  | '"' => some '"'
  | '\\' => some '\\'
  | '/' => some '/'
  | 'b' => some '\x08'
  | 'f' => some '\x0c'
  | 'n' => some '\n'
  | 'r' => some '\r'
  | 't' => some '\t'
  | _ => none

/-- A character by its number. A text is a sequence of characters, and half of a surrogate pair is
none: where an escape names one alone, U+FFFD is read in its place. -/
def charOf (n : Nat) : Char :=
  if 0xD800 ≤ n ∧ n ≤ 0xDFFF then '\ufffd' else Char.ofNat n

/-- The character that an escape denotes and how many characters after the backslash it takes.
`rest` starts after the backslash. More text than the digits must follow a numbered escape. -/
def escape (start : Nat) (rest : Rest) : Except Fault (Char × Nat) :=
  match rest.chars with
  | [] => .error (.malformed .unterminatedString start)
  | 'u' :: digits =>
    if digits.length ≤ 4 then .error (.malformed .invalidUnicodeEscape rest.offset)
    else match hexValue? (digits.take 4) with
      | none => .error (.malformed .invalidUnicodeEscape rest.offset)
      | some high =>
        let tail := digits.drop 4
        if 0xD800 ≤ high ∧ high ≤ 0xDBFF ∧ 6 < tail.length ∧ tail.take 2 = ['\\', 'u'] then
          match hexValue? ((tail.drop 2).take 4) with
          | none => .error (.malformed .invalidUnicodeEscape (rest.offset + 6))
          | some low =>
            if 0xDC00 ≤ low ∧ low ≤ 0xDFFF then
              .ok (charOf (0x10000 + (high - 0xD800) * 0x400 + (low - 0xDC00)), 11)
            else .ok (charOf high, 5)
        else .ok (charOf high, 5)
  | c :: _ =>
    match simpleEscape? c with
    | some value => .ok (value, 1)
    | none => .error (.malformed .invalidEscape (rest.offset - 1))

/-- Reads a string after its opening quote at `start`; `skip` characters ahead belong to the last
escape. -/
def stringBody (start skip offset : Nat) : List Char → Reads (List Char)
  | [] => .error (.malformed .unterminatedString start)
  | c :: r =>
    match skip with
    | skip + 1 => stringBody start skip (offset + 1) r
    | 0 =>
      if c == '"' then .ok ([], ⟨offset + 1, r⟩)
      else if c == '\\' then
        match escape start ⟨offset + 1, r⟩ with
        | .error fault => .error fault
        | .ok (value, n) =>
          (stringBody start n (offset + 1) r).map fun (cs, rest) => (value :: cs, rest)
      else if c.toNat < 0x20 then .error (.malformed .controlCharacter offset)
      else (stringBody start 0 (offset + 1) r).map fun (cs, rest) => (c :: cs, rest)

def readString (rest : Rest) : Reads String :=
  (stringBody rest.offset 0 (rest.offset + 1) (rest.chars.drop 1)).map fun (cs, rest) =>
    (String.ofList cs, rest)

/-- How many characters of a fraction a text starts with. -/
def fractionLength (cs : List Char) : Nat :=
  match cs with
  | '.' :: r =>
    let n := (r.takeWhile Char.isDigit).length
    if n = 0 then 0 else n + 1
  | _ => 0

/-- How many characters of an exponent a text starts with. -/
def exponentLength (cs : List Char) : Nat :=
  match cs with
  | e :: r =>
    if e == 'e' || e == 'E' then
      let sign := match r.head? with
        | some '+' | some '-' => 1
        | _ => 0
      let n := ((r.drop sign).takeWhile Char.isDigit).length
      if n = 0 then 0 else n + sign + 1
    else 0
  | [] => 0

/-- How many characters of an integer a text starts with: a leading zero stands alone. -/
def integerLength (cs : List Char) : Nat :=
  let sign := if cs.head? = some '-' then 1 else 0
  match cs.drop sign with
  | '0' :: _ => sign + 1
  | r =>
    let n := (r.takeWhile Char.isDigit).length
    if n = 0 then 0 else sign + n

def readNumber (rest : Rest) : Reads Datum :=
  let cs := rest.chars
  let whole := integerLength cs
  if whole = 0 then .error (.malformed .valueExpected rest.offset)
  else
    let fraction := fractionLength (cs.drop whole)
    let exponent := exponentLength (cs.drop (whole + fraction))
    let stop := whole + fraction + exponent
    let text := cs.take stop
    if stop = whole then
      match integerOf text with
      | .ok n => .ok (.int n, rest.drop stop)
      | .error huge => .error (.huge huge)
    else .ok (.float (doubleOf text), rest.drop stop)

/-- The values that are written by name. -/
def named : List (List Char × Datum) :=
  [("null".toList, .null), ("true".toList, .bool true), ("false".toList, .bool false),
    ("NaN".toList, .float .nan), ("Infinity".toList, .float (.infinite false)),
    ("-Infinity".toList, .float (.infinite true))]

mutual

/-- Reads a value that starts here. -/
def readValue : Nat → Rest → Reads Datum
  | 0, rest => .error (.malformed .valueExpected rest.offset)
  | fuel + 1, rest =>
    match rest.chars with
    | '"' :: _ => (readString rest).map fun (s, rest) => (.text s, rest)
    | '{' :: _ =>
      let inner := (rest.drop 1).skipGap
      if inner.chars.head? = some '}' then .ok (.map [], inner.drop 1)
      else (members fuel inner).map fun (es, rest) => (.object (Assoc.ofList es), rest)
    | '[' :: _ =>
      let inner := (rest.drop 1).skipGap
      if inner.chars.head? = some ']' then .ok (.list [], inner.drop 1)
      else (elements fuel inner).map fun (xs, rest) => (.list xs, rest)
    | cs =>
      match named.find? fun (name, _) => name.isPrefixOf cs with
      | some (name, v) => .ok (v, rest.drop name.length)
      | none => readNumber rest

/-- Reads the elements of a list up to its closing bracket. -/
def elements : Nat → Rest → Except Fault (List Datum × Rest)
  | 0, rest => .error (.malformed .valueExpected rest.offset)
  | fuel + 1, rest => do
    let (first, rest) ← readValue fuel rest
    let rest := rest.skipGap
    match rest.chars with
    | ']' :: _ => return ([first], rest.drop 1)
    | ',' :: _ =>
      let (more, rest) ← elements fuel (rest.drop 1).skipGap
      return (first :: more, rest)
    | _ => .error (.malformed .commaExpected rest.offset)

/-- Reads the members of an object up to its closing brace. -/
def members : Nat → Rest → Except Fault (List (String × Datum) × Rest)
  | 0, rest => .error (.malformed .valueExpected rest.offset)
  | fuel + 1, rest => do
    if rest.chars.head? ≠ some '"' then throw (.malformed .nameExpected rest.offset)
    let (key, rest) ← readString rest
    let rest := rest.skipGap
    if rest.chars.head? ≠ some ':' then throw (.malformed .colonExpected rest.offset)
    let (first, rest) ← readValue fuel (rest.drop 1).skipGap
    let rest := rest.skipGap
    match rest.chars with
    | '}' :: _ => return ([(key, first)], rest.drop 1)
    | ',' :: _ =>
      let (more, rest) ← members fuel (rest.drop 1).skipGap
      return ((key, first) :: more, rest)
    | _ => .error (.malformed .commaExpected rest.offset)

end

/-- Reads a text that holds one value. Every bracket and every separator takes a character and two
calls at most, so the length of the text bounds their depth. -/
def read (text : List Char) : Except Fault Datum := do
  if text.head? = some '\ufeff' then throw (.malformed .byteOrderMark 0)
  let (v, rest) ← readValue (2 * text.length + 2) (Rest.mk 0 text).skipGap
  let rest := rest.skipGap
  if rest.chars ≠ [] then throw (.malformed .extraData rest.offset)
  return v

end InlineQuery.Json
