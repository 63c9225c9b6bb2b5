/-!
Bytes written as text, six bits to a letter.
-/

namespace InlineQuery.Base64

/-- The six bits that a letter stands for. -/
def value? (c : Char) : Option Nat :=
  if 'A' ≤ c ∧ c ≤ 'Z' then some (c.toNat - 'A'.toNat)
  else if 'a' ≤ c ∧ c ≤ 'z' then some (c.toNat - 'a'.toNat + 26)
  else if '0' ≤ c ∧ c ≤ '9' then some (c.toNat - '0'.toNat + 52)
  else if c == '+' then some 62
  else if c == '/' then some 63
  else none

/-- The byte that the letter at a place of its group of four completes. -/
def completed (place last value : Nat) : List UInt8 :=
  match place with
  | 0 => []
  | 1 => [(last * 4 + value / 16).toUInt8]
  | 2 => [(last % 16 * 16 + value / 4).toUInt8]
  | _ => [(last % 4 * 64 + value).toUInt8]

/-- Reads letters from a place within a group of four, after the letter with value `last` and so
many padding marks. Other characters do not count. A group that is neither full nor padded up is
refused. -/
def decodeFrom (place last pads : Nat) : List Char → Option (List UInt8)
  | [] => if place = 0 then some [] else none
  | c :: r =>
    if c == '=' then
      if 2 ≤ place then if 4 ≤ place + (pads + 1) then some [] else decodeFrom place last (pads + 1) r
      else decodeFrom place last pads r
    else match value? c with
      | none => decodeFrom place last pads r
      | some v => (decodeFrom ((place + 1) % 4) v 0 r).map (completed place last v ++ ·)

def decode? (text : List Char) : Option (List UInt8) := decodeFrom 0 0 0 text

end InlineQuery.Base64
