import InlineQuery.Number.Double
import InlineQuery.Text.Space

namespace InlineQuery

/-- The number that decimal digits denote. -/
def naturalOf (digits : List Char) : Nat :=
  digits.foldl (fun n c => n * 10 + (c.toNat - '0'.toNat)) 0

/-- The digits for zero of the other scripts that count in tens, by their numbers. Those for one to
nine follow each of them. -/
def foreignZeros : List Nat :=
  [0x660, 0x6F0, 0x7C0, 0x966, 0x9E6, 0xA66, 0xAE6, 0xB66, 0xBE6, 0xC66, 0xCE6, 0xD66, 0xDE6,
    0xE50, 0xED0, 0xF20, 0x1040, 0x1090, 0x17E0, 0x1810, 0x1946, 0x19D0, 0x1A80, 0x1A90, 0x1B50,
    0x1BB0, 0x1C40, 0x1C50, 0xA620, 0xA8D0, 0xA900, 0xA9D0, 0xA9F0, 0xAA50, 0xABF0, 0xFF10,
    0x104A0, 0x10D30, 0x11066, 0x110F0, 0x11136, 0x111D0, 0x112F0, 0x11450, 0x114D0, 0x11650,
    0x116C0, 0x11730, 0x118E0, 0x11950, 0x11C50, 0x11D50, 0x11DA0, 0x16A60, 0x16AC0, 0x16B50,
    0x1D7CE, 0x1D7D8, 0x1D7E2, 0x1D7EC, 0x1D7F6, 0x1E140, 0x1E2F0, 0x1E950, 0x1FBF0]

/-- A character as numbers are read: a digit of any script as that of ASCII, white space beyond ASCII
as a space, and nothing else beyond ASCII as a part of a number. -/
def numeralChar (c : Char) : Char :=
  let n := c.toNat
  if n < 0x7F then c
  else if Text.isSpace c then ' '
  else match foreignZeros.find? fun first => first ≤ n && n < first + 10 with
    | some first => Char.ofNat ('0'.toNat + (n - first))
    | none => '?'

/-- The most decimal digits that an integer may have. -/
def digitLimit : Nat := 4300

/-- Whether an integer has more digits than are written. -/
def isHuge (n : Int) : Bool := digitLimit < (Nat.toDigits 10 n.natAbs).length

/-- An integer with more digits than are read. -/
structure HugeInteger where
  digits : Nat
  deriving DecidableEq, Repr, Inhabited

def HugeInteger.message (e : HugeInteger) : String :=
  "Exceeds the limit (4300 digits) for integer string conversion: value has " ++
    toString e.digits ++ " digits; use sys.set_int_max_str_digits() to increase the limit"

/-- The integer that a text of an optional sign and digits denotes. -/
def integerOf (text : List Char) : Except HugeInteger Int :=
  let (negative, digits) := match text with
    | '-' :: r => (true, r)
    | '+' :: r => (false, r)
    | _ => (false, text)
  if digitLimit < digits.length then .error ⟨digits.length⟩
  else .ok ((if negative then -1 else 1) * (naturalOf digits : Int))

/-- An exponent as an integer; a size that no number reaches stands for all greater ones. -/
def exponentOf (text : List Char) : Int :=
  let (negative, digits) := match text with
    | '-' :: r => (true, r)
    | '+' :: r => (false, r)
    | _ => (false, text)
  let digits := digits.dropWhile (· == '0')
  let size : Int := if 12 < digits.length then 1000000000000 else naturalOf digits
  if negative then -size else size

/-- The floating point number nearest to a decimal text: an optional sign, digits with at most one
point among them, and an optional exponent. -/
def doubleOf (text : List Char) : Double :=
  let (negative, body) := match text with
    | '-' :: r => (true, r)
    | '+' :: r => (false, r)
    | _ => (false, text)
  let isMark (c : Char) : Bool := c == 'e' || c == 'E'
  let significand := body.takeWhile fun c => !isMark c
  let exponent := exponentOf ((body.dropWhile fun c => !isMark c).drop 1)
  let whole := significand.takeWhile (· ≠ '.')
  let fraction := (significand.dropWhile (· ≠ '.')).drop 1
  Double.ofDecimal negative (naturalOf (whole ++ fraction)) (exponent - fraction.length)

end InlineQuery
