import InlineQuery.Data.Json.Reader

/-!
JSON as it is written. A form keeps the spacing between tokens, the digits of numbers and the escapes
of strings, so that it gives back the text that it stands for.
-/

namespace InlineQuery.Json

/-- The spacing between two tokens. -/
def Gap : Type := { cs : List Char // ∀ c ∈ cs, isGap c = true }

def Gap.text (g : Gap) : List Char := g.val

def Gap.none : Gap := ⟨[], by simp⟩

/-- A character of a string: as it is, behind a backslash, or by its number. A pair of numbers stands
for the character whose halves they are. -/
inductive Piece where
  | plain (c : Char) (stands : c ≠ '"' ∧ c ≠ '\\' ∧ 0x20 ≤ c.toNat)
  | simple (mark value : Char) (means : simpleEscape? mark = some value)
  | numbered (digits : List Char) (code : Nat) (means : hexValue? digits = some code)
  | paired (high low : List Char) (first second : Nat) (isFirst : hexValue? high = some first)
      (isSecond : hexValue? low = some second)

namespace Piece

def text : Piece → List Char
  | plain c _ => [c]
  | simple mark _ _ => ['\\', mark]
  | numbered digits _ _ => '\\' :: 'u' :: digits
  | paired high low .. => '\\' :: 'u' :: high ++ '\\' :: 'u' :: low

def value : Piece → Char
  | plain c _ => c
  | simple _ value _ => value
  | numbered _ code _ => charOf code
  | paired _ _ first second .. => charOf (0x10000 + (first - 0xD800) * 0x400 + (second - 0xDC00))

end Piece

/-- A string, written between quotes. -/
structure Quotation where
  pieces : List Piece

namespace Quotation

/-- What is written behind the opening quote. -/
def body (q : Quotation) : List Char := q.pieces.flatMap Piece.text ++ ['"']

def text (q : Quotation) : List Char := '"' :: q.body

def value (q : Quotation) : String := String.ofList (q.pieces.map Piece.value)

end Quotation

/-- The power of ten at the end of a number. -/
structure Exponent where
  mark : Char
  sign : List Char
  digits : List Char
  isMark : mark = 'e' ∨ mark = 'E'
  isSign : sign = [] ∨ sign = ['+'] ∨ sign = ['-']
  areDigits : ∀ c ∈ digits, c.isDigit = true
  isGiven : digits ≠ []

def Exponent.text (e : Exponent) : List Char := e.mark :: e.sign ++ e.digits

/-- A number. One without a point and an exponent is an integer, and has not too many digits. -/
structure Numeral where
  isNegative : Bool
  whole : List Char
  fraction : List Char
  exponent : Option Exponent
  areDigits : ∀ c ∈ whole ++ fraction, c.isDigit = true
  isGiven : whole ≠ []
  noZero : whole = ['0'] ∨ whole.head? ≠ some '0'
  isShort : fraction = [] → exponent = none → whole.length ≤ digitLimit

namespace Numeral

def sign (n : Numeral) : List Char := if n.isNegative then ['-'] else []

def fractionText (n : Numeral) : List Char := if n.fraction = [] then [] else '.' :: n.fraction

def exponentText (n : Numeral) : List Char := (n.exponent.map Exponent.text).getD []

def text (n : Numeral) : List Char := n.sign ++ n.whole ++ n.fractionText ++ n.exponentText

def isWhole (n : Numeral) : Bool := n.fraction.isEmpty && n.exponent.isNone

def value (n : Numeral) : Datum :=
  if n.isWhole then .int ((if n.isNegative then -1 else 1) * (naturalOf n.whole : Int))
  else .float (doubleOf n.text)

end Numeral

mutual

/-- A value as it is written. -/
inductive Form where
  | word (name : List Char) (value : Datum) (isNamed : (name, value) ∈ named)
  | number (n : Numeral)
  | quoted (q : Quotation)
  | list (inner : Gap) (items : Items)
  | object (inner : Gap) (members : Members)

/-- The items of a list that are left. -/
inductive Items where
  | close
  | item (before : Gap) (value : Form) (behind : Gap) (rest : Items)

/-- The members of an object that are left. -/
inductive Members where
  | close
  | member (before : Gap) (key : Quotation) (beforeColon afterColon : Gap) (value : Form)
      (behind : Gap) (rest : Members)

end

/-- The comma before what is not the first. -/
def comma (isFirst : Bool) : List Char := if isFirst then [] else [',']

mutual

def Form.text : Form → List Char
  | .word name _ _ => name
  | .number n => n.text
  | .quoted q => q.text
  | .list inner items => '[' :: inner.text ++ items.text true
  | .object inner members => '\x7b' :: inner.text ++ members.text true

def Items.text (isFirst : Bool) : Items → List Char
  | .close => [']']
  | .item before value behind rest =>
    comma isFirst ++ before.text ++ value.text ++ behind.text ++ rest.text false

def Members.text (isFirst : Bool) : Members → List Char
  | .close => ['\x7d']
  | .member before key beforeColon afterColon value behind rest =>
    comma isFirst ++ before.text ++ key.text ++ beforeColon.text ++ [':'] ++ afterColon.text ++
      value.text ++ behind.text ++ rest.text false

end

mutual

def Form.value : Form → Datum
  | .word _ value _ => value
  | .number n => n.value
  | .quoted q => .text q.value
  | .list _ items => .list items.values
  | .object _ members => .object (Assoc.ofList members.entries)

def Items.values : Items → List Datum
  | .close => []
  | .item _ value _ rest => value.value :: rest.values

def Members.entries : Members → List (String × Datum)
  | .close => []
  | .member _ key _ _ value _ rest => (key.value, value.value) :: rest.entries

end

/-- A text with one value and the spacing around it. -/
structure Document where
  before : Gap
  root : Form
  behind : Gap

def Document.text (d : Document) : List Char := d.before.text ++ d.root.text ++ d.behind.text

/-- A text whose characters stand for themselves in a string. -/
structure PlainText where
  text : String
  stands : (text.toList.all fun c => c != '"' && c != '\\' && 0x20 ≤ c.toNat) = true

def PlainText.quotation (w : PlainText) : Quotation where
  pieces := w.text.toList.pmap Piece.plain (by simpa [and_assoc] using w.stands)

/-- Members that are texts, without spacing. -/
def Members.ofPlain : List (PlainText × PlainText) → Members
  | [] => .close
  | (key, value) :: rest =>
    .member .none key.quotation .none .none (.quoted value.quotation) .none (ofPlain rest)

/-- A document with an object of texts, without spacing. -/
def Document.ofPlain (entries : List (PlainText × PlainText)) : Document :=
  ⟨.none, .object .none (.ofPlain entries), .none⟩

end InlineQuery.Json
