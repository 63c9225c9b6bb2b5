/-!
Binary floating point numbers of 53 bits as exact values. Arithmetic rounds the exact result to the
nearest number, a tie to the even significand.
-/

namespace InlineQuery

/-- A finite number is its significand times a power of two. -/
inductive Double where
  | finite (negative : Bool) (significand : Nat) (exponent : Int)
  | infinite (negative : Bool)
  | nan
  deriving DecidableEq, Repr, Inhabited

namespace Double

/-- The exponent of the smallest positive number. -/
def leastExponent : Int := -1074

def zero (negative : Bool) : Double := finite negative 0 leastExponent

/-- The natural number nearest to a quotient, a tie going to the even one. -/
def roundDiv (num den : Nat) : Nat :=
  let q := num / den
  let r := num % den
  if den < 2 * r ∨ den = 2 * r ∧ q % 2 = 1 then q + 1 else q

/-- The quotient `num / den / 2 ^ e` as numerator and denominator. -/
def shifted (num den : Nat) (e : Int) : Nat × Nat :=
  if e < 0 then (num * Nat.pow 2 (-e).toNat, den) else (num, den * Nat.pow 2 e.toNat)

/-- The exponent of the greatest power of two that is at most a positive quotient. -/
def floorLog (num den : Nat) : Int :=
  let e : Int := num.log2 - den.log2
  let (n, d) := shifted num den e
  if d ≤ n then e else e - 1

/-- The number nearest to a quotient. -/
def ofRatio (negative : Bool) (num den : Nat) : Double :=
  if num = 0 then zero negative
  else
    let e := max (floorLog num den - 52) leastExponent
    let (n, d) := shifted num den e
    let q := roundDiv n d
    let (q, e) := if q = Nat.pow 2 53 then (Nat.pow 2 52, e + 1) else (q, e)
    if 971 < e then infinite negative else finite negative q e

/-- How many decimal digits a number has; zero has none. -/
def decimalSize (n : Nat) : Nat := if n = 0 then 0 else (Nat.toDigits 10 n).length

/-- The number nearest to `digits * 10 ^ exponent`. Beyond the bounds tested here every number is
infinite or zero. -/
def ofDecimal (negative : Bool) (digits : Nat) (exponent : Int) : Double :=
  let size : Int := decimalSize digits + exponent
  if digits = 0 ∨ size < -330 then zero negative
  else if 310 < size then infinite negative
  else if exponent < 0 then ofRatio negative digits (Nat.pow 10 (-exponent).toNat)
  else ofRatio negative (digits * Nat.pow 10 exponent.toNat) 1

def ofInt (n : Int) : Double := ofRatio (n < 0) n.natAbs 1

/-- The exact value of a finite number as numerator and denominator. -/
def ratio (significand : Nat) (exponent : Int) : Nat × Nat :=
  if exponent < 0 then (significand, Nat.pow 2 (-exponent).toNat)
  else (significand * Nat.pow 2 exponent.toNat, 1)

/-- Sign and size of a sum of two quotients with denominators. -/
def signedSum (n₁ : Bool) (a₁ b₁ : Nat) (n₂ : Bool) (a₂ b₂ : Nat) : Double :=
  let x : Int := (if n₁ then -1 else 1) * (a₁ * b₂ : Nat)
  let y : Int := (if n₂ then -1 else 1) * (a₂ * b₁ : Nat)
  if x + y = 0 then zero (n₁ && n₂) else ofRatio (x + y < 0) (x + y).natAbs (b₁ * b₂)

def add : Double → Double → Double
  | nan, _ | _, nan => nan
  | infinite a, infinite b => if a = b then infinite a else nan
  | infinite a, _ => infinite a
  | _, infinite b => infinite b
  | finite n₁ m₁ e₁, finite n₂ m₂ e₂ =>
    let (a₁, b₁) := ratio m₁ e₁
    let (a₂, b₂) := ratio m₂ e₂
    signedSum n₁ a₁ b₁ n₂ a₂ b₂

def mul : Double → Double → Double
  | nan, _ | _, nan => nan
  | infinite a, infinite b => infinite (a != b)
  | infinite a, finite b m _ | finite b m _, infinite a => if m = 0 then nan else infinite (a != b)
  | finite n₁ m₁ e₁, finite n₂ m₂ e₂ =>
    let (a₁, b₁) := ratio m₁ e₁
    let (a₂, b₂) := ratio m₂ e₂
    ofRatio (n₁ != n₂) (a₁ * a₂) (b₁ * b₂)

def neg : Double → Double
  | finite n m e => finite (!n) m e
  | infinite n => infinite (!n)
  | nan => nan

/-- Whether the number is zero of either sign. -/
def isZero : Double → Bool
  | finite _ m _ => m == 0
  | _ => false

/-- The integer that a number equals, if there is one. -/
def toInt? : Double → Option Int
  | finite n m e =>
    let (a, b) := ratio m e
    if a % b = 0 then some ((if n then -1 else 1) * (a / b : Nat)) else none
  | _ => none

end Double
end InlineQuery
