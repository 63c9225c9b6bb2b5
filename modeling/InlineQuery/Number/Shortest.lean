import InlineQuery.Number.Double

/-!
The shortest decimal text of a floating point number: the fewest digits that read back as the same
number, and of those the nearest to it.
-/

namespace InlineQuery.Double

/-- The decimal place of the first digit of a positive quotient: it lies between
`10 ^ (place - 1)` and `10 ^ place`. Counts from an estimate that is never too large. -/
def placeFrom (num den : Nat) (place : Int) : Nat → Int
  | 0 => place
  | fuel + 1 =>
    let above :=
      if place < 0 then num * Nat.pow 10 (-place).toNat < den
      else num < den * Nat.pow 10 place.toNat
    if above then place else placeFrom num den (place + 1) fuel

def place (num den : Nat) : Int :=
  placeFrom num den ((decimalSize num : Int) - decimalSize den) 3

/-- The two points of the grid `10 ^ scale` next to a quotient, the lower one first, and whether
the upper one is nearer. -/
def neighbours (num den : Nat) (scale : Int) : Nat × Nat × Bool :=
  let (n, d) :=
    if scale < 0 then (num * Nat.pow 10 (-scale).toNat, den)
    else (num, den * Nat.pow 10 scale.toNat)
  let low := n / d
  let rest := n % d
  (low, low + 1, d < 2 * rest ∨ d = 2 * rest ∧ low % 2 = 1)

/-- The digits of the first grid with a point that reads back, with its scale. -/
def shortestFrom (significand : Nat) (exponent : Int) (num den : Nat) (scale : Int) :
    Nat → Nat × Int
  | 0 => (significand, exponent)
  | fuel + 1 =>
    let (low, high, upper) := neighbours num den scale
    let value := finite false significand exponent
    let lowHit := ofDecimal false low scale = value
    let highHit := ofDecimal false high scale = value
    if lowHit ∧ ¬(highHit ∧ upper) then (low, scale)
    else if highHit then (high, scale)
    else shortestFrom significand exponent num den (scale - 1) fuel

/-- Digits without trailing zeros, and the place of the decimal point from the first digit. -/
def shortest (significand : Nat) (exponent : Int) : List Char × Int :=
  let (num, den) := ratio significand exponent
  let (digits, scale) := shortestFrom significand exponent num den (place num den - 1) 17
  let text := Nat.toDigits 10 digits
  ((text.reverse.dropWhile (· == '0')).reverse, text.length + scale)

/-- How a number is written. -/
structure SpecialNames where
  infinity : String
  nan : String

/-- The text of positive digits with the decimal point at a place. It is positional from 10⁻⁴ up
to 10¹⁶ and always shows that the number is no integer by form. -/
def digitsText (digits : List Char) (place : Int) : String :=
  let zeros (n : Int) := List.replicate n.toNat '0'
  if place ≤ -4 ∨ 16 < place then
    let fraction := digits.drop 1
    let power := place - 1
    let powerDigits := Nat.toDigits 10 power.natAbs
    String.ofList (digits.take 1 ++ (if fraction.isEmpty then [] else '.' :: fraction)
      ++ ['e', if power < 0 then '-' else '+']
      ++ List.replicate (2 - powerDigits.length) '0' ++ powerDigits)
  else if place ≤ 0 then String.ofList (['0', '.'] ++ zeros (-place) ++ digits)
  else if (digits.length : Int) ≤ place then
    String.ofList (digits ++ zeros (place - digits.length) ++ ['.', '0'])
  else String.ofList (digits.take place.toNat ++ ['.'] ++ digits.drop place.toNat)

/-- The text of a number, given the names of infinity and of the undefined value. -/
def textWith (names : SpecialNames) : Double → String
  | nan => names.nan
  | infinite negative => (if negative then "-" else "") ++ names.infinity
  | finite negative significand exponent =>
    (if negative then "-" else "") ++
      if significand = 0 then "0.0"
      else
        let (digits, place) := shortest significand exponent
        digitsText digits place

/-- The plain text of a number. -/
def text (d : Double) : String := d.textWith ⟨"inf", "nan"⟩

end InlineQuery.Double
