import InlineQuery.Data.Digits
import Mathlib.Algebra.Group.Nat.Defs
import Mathlib.Data.List.TakeWhile

/-!
Numbers in decimal digits. Whether a text can be read as an integer depends on how many digits it has
and on nothing else. The digits of a number denote it, and zeros behind them scale it. A text with a
point or an exponent is read part by part.
-/

namespace InlineQuery

/-- What follows the sign of an integer, if it has one. -/
def magnitude (text : List Char) : List Char :=
  match text with
  | '-' :: rest => rest
  | '+' :: rest => rest
  | _ => text

theorem length_magnitude_le (text : List Char) : (magnitude text).length ≤ text.length := by
  unfold magnitude
  split
  · exact Nat.le_succ _
  · exact Nat.le_succ _
  · exact Nat.le_refl _

theorem exists_integerOf_iff (text : List Char) :
    (∃ n, integerOf text = .ok n) ↔ (magnitude text).length ≤ digitLimit := by
  have read (negative : Bool) (digits : List Char) :
      (∃ n, (if digitLimit < digits.length then (.error ⟨digits.length⟩ : Except HugeInteger Int)
        else .ok ((if negative then -1 else 1) * (naturalOf digits : Int))) = .ok n) ↔
      digits.length ≤ digitLimit := by
    rw [← Nat.not_lt]
    split
    · rename_i long
      exact ⟨nofun, fun short => absurd long short⟩
    · rename_i short
      exact ⟨fun _ => short, fun _ => ⟨_, rfl⟩⟩
  rcases text with _ | ⟨c, rest⟩
  · exact read false []
  by_cases minus : c = '-'
  · subst minus
    exact read true rest
  by_cases plus : c = '+'
  · subst plus
    exact read false rest
  have unsigned : integerOf (c :: rest) = if digitLimit < (c :: rest).length then
      .error ⟨(c :: rest).length⟩
      else .ok ((if false then -1 else 1) * (naturalOf (c :: rest) : Int)) := by
    unfold integerOf
    split
    simp_all
  have bare : magnitude (c :: rest) = c :: rest := by simp [magnitude, minus, plus]
  rw [unsigned, bare]
  exact read false (c :: rest)

theorem integerOf_nines {n : Nat} (long : digitLimit < n + 1) :
    integerOf ('9' :: List.replicate n '9') = .error ⟨n + 1⟩ := by
  simpa [integerOf] using long

/-! ### What digits denote -/

theorem naturalOf_toDigits (n : Nat) : naturalOf (Nat.toDigits 10 n) = n := by
  refine Eq.trans ?_ (Nat.ofDigitChars_toDigits (by decide) (Nat.le_refl 10))
  simp only [naturalOf, Nat.ofDigitChars, Nat.mul_comm 10]

theorem naturalOf_append (front back : List Char) :
    naturalOf (front ++ back) = naturalOf front * 10 ^ back.length + naturalOf back := by
  have shifted (n : Nat) : back.foldl (fun n c => n * 10 + (c.toNat - '0'.toNat)) n =
      n * 10 ^ back.length + naturalOf back := by
    unfold naturalOf
    induction back generalizing n with
    | nil => simp
    | cons c back ih =>
      rw [List.foldl_cons, List.foldl_cons, ih, ih (0 * 10 + _), List.length_cons, Nat.pow_succ',
        Nat.add_mul, Nat.zero_mul, Nat.zero_add, Nat.mul_assoc, Nat.add_assoc]
  rw [naturalOf, List.foldl_append, shifted]
  rfl

theorem naturalOf_zeros (k : Nat) : naturalOf (List.replicate k '0') = 0 := by
  induction k with
  | zero => rfl
  | succ k ih => rw [List.replicate_succ', naturalOf_append, ih, Nat.zero_mul]; rfl

theorem naturalOf_zeros_append (k : Nat) (digits : List Char) :
    naturalOf (List.replicate k '0' ++ digits) = naturalOf digits := by
  rw [naturalOf_append, naturalOf_zeros, Nat.zero_mul, Nat.zero_add]

theorem naturalOf_append_zeros (digits : List Char) (k : Nat) :
    naturalOf (digits ++ List.replicate k '0') = naturalOf digits * 10 ^ k := by
  rw [naturalOf_append, naturalOf_zeros, List.length_replicate, Nat.add_zero]

theorem naturalOf_dropWhile (digits : List Char) :
    naturalOf (digits.dropWhile (· == '0')) = naturalOf digits := by
  induction digits with
  | nil => rfl
  | cons c digits ih =>
    by_cases zero : c = '0'
    · subst zero
      exact ih
    · rw [List.dropWhile_cons_of_neg (by simpa using zero)]

theorem naturalOf_lt {digits : List Char} (areDigits : ∀ c ∈ digits, c.isDigit = true) :
    naturalOf digits < 10 ^ digits.length := by
  induction digits with
  | nil => decide
  | cons c digits ih =>
    have later := ih fun other member => areDigits other (List.mem_cons_of_mem _ member)
    have digit := areDigits c (List.mem_cons_self ..)
    simp only [Char.isDigit, Bool.and_eq_true, decide_eq_true_eq] at digit
    have most : c.toNat ≤ 57 := digit.2
    have first : naturalOf [c] ≤ 9 := by
      have value : naturalOf [c] = 0 * 10 + (c.toNat - 48) := rfl
      omega
    have parts : naturalOf (c :: digits) = naturalOf [c] * 10 ^ digits.length + naturalOf digits :=
      naturalOf_append [c] digits
    have bound := Nat.mul_le_mul_right (10 ^ digits.length) first
    rw [parts, List.length_cons, Nat.pow_succ]
    omega

/-- An exponent of few digits is the number that they denote. -/
theorem exponentOf_signed (negative : Bool) {digits : List Char} (short : digits.length ≤ 12) :
    exponentOf ((if negative then '-' else '+') :: digits) =
      (if negative then -1 else 1) * (naturalOf digits : Int) := by
  have few : (digits.dropWhile (· == '0')).length ≤ 12 :=
    Nat.le_trans (List.dropWhile_suffix _).length_le short
  cases negative with
  | true =>
    simp only [exponentOf, if_true, naturalOf_dropWhile, if_neg (Nat.not_lt.mpr few)]
    omega
  | false =>
    simp only [exponentOf, Bool.false_eq_true, if_false, naturalOf_dropWhile,
      if_neg (Nat.not_lt.mpr few)]
    omega

/-! ### Numbers with a point or an exponent -/

def isExponentMark (c : Char) : Bool := c == 'e' || c == 'E'

/-- A text of a sign, digits with a point among them and an exponent is read part by part. -/
theorem doubleOf_signed (negative : Bool) {significand power : List Char}
    (plain : ∀ c ∈ significand, isExponentMark c = false)
    (unsigned : ∀ c ∈ significand.head?, c ≠ '-' ∧ c ≠ '+') (given : significand ≠ [])
    (marked : ∀ c ∈ power.head?, isExponentMark c = true) :
    doubleOf ((if negative then ['-'] else []) ++ (significand ++ power)) =
      Double.ofDecimal negative
        (naturalOf (significand.takeWhile (· ≠ '.') ++ (significand.dropWhile (· ≠ '.')).drop 1))
        (exponentOf (power.drop 1) - ((significand.dropWhile (· ≠ '.')).drop 1).length) := by
  have plain : ∀ c ∈ significand, (!isExponentMark c) = true := fun c member => by
    rw [plain c member]
    rfl
  have ended : power.takeWhile (fun c => !isExponentMark c) = [] ∧
      power.dropWhile (fun c => !isExponentMark c) = power := by
    cases power with
    | nil => exact ⟨rfl, rfl⟩
    | cons c power => simp [marked c rfl]
  have parts : (significand ++ power).takeWhile (fun c => !isExponentMark c) = significand ∧
      (significand ++ power).dropWhile (fun c => !isExponentMark c) = power := by
    rw [List.takeWhile_append_of_pos plain, List.dropWhile_append_of_pos plain, ended.1, ended.2,
      List.append_nil]
    exact ⟨rfl, rfl⟩
  have read (negative : Bool) (body : List Char) (same : body = significand ++ power) :
      Double.ofDecimal negative
        (naturalOf (((body.takeWhile fun c => !isExponentMark c).takeWhile (· ≠ '.')) ++
          (((body.takeWhile fun c => !isExponentMark c).dropWhile (· ≠ '.')).drop 1)))
        (exponentOf ((body.dropWhile fun c => !isExponentMark c).drop 1) -
          (((body.takeWhile fun c => !isExponentMark c).dropWhile (· ≠ '.')).drop 1).length) =
      Double.ofDecimal negative
        (naturalOf (significand.takeWhile (· ≠ '.') ++ (significand.dropWhile (· ≠ '.')).drop 1))
        (exponentOf (power.drop 1) - ((significand.dropWhile (· ≠ '.')).drop 1).length) := by
    rw [same, parts.1, parts.2]
  cases negative with
  | true => exact read true _ rfl
  | false =>
    obtain ⟨first, rest, starts⟩ := List.exists_cons_of_ne_nil given
    have isFirst := unsigned first (by rw [starts]; rfl)
    unfold doubleOf
    simp only [Bool.false_eq_true, if_false, List.nil_append]
    split
    · rename_i minus
      rw [starts] at minus
      cases minus
      exact absurd rfl isFirst.1
    · rename_i plus
      rw [starts] at plus
      cases plus
      exact absurd rfl isFirst.2
    · exact read false _ rfl

section Digits

variable {c : Char} {whole fraction power : List Char}

theorem ne_of_isDigit (digit : c.isDigit = true) {d : Char} (apart : d.isDigit = false) :
    c ≠ d := by
  rintro rfl
  rw [digit] at apart
  cases apart

theorem isExponentMark_of_isDigit (digit : c.isDigit = true) : isExponentMark c = false := by
  simp [isExponentMark, ne_of_isDigit digit (d := 'e') rfl, ne_of_isDigit digit (d := 'E') rfl]

theorem unsigned_of_digits (areDigits : ∀ c ∈ whole, c.isDigit = true) {rest : List Char}
    (given : whole ≠ []) : ∀ c ∈ (whole ++ rest).head?, c ≠ '-' ∧ c ≠ '+' := by
  obtain ⟨first, others, rfl⟩ := List.exists_cons_of_ne_nil given
  rintro c isFirst
  cases isFirst
  have digit := areDigits first (List.mem_cons_self ..)
  exact ⟨ne_of_isDigit digit rfl, ne_of_isDigit digit rfl⟩

theorem notPoint_of_digits (areDigits : ∀ c ∈ whole, c.isDigit = true) :
    ∀ c ∈ whole, decide (c ≠ '.') = true := fun c member =>
  decide_eq_true (ne_of_isDigit (areDigits c member) rfl)

/-- The number that digits around a point and an exponent denote. -/
theorem doubleOf_pointed (negative : Bool) (areDigits : ∀ c ∈ whole ++ fraction, c.isDigit = true)
    (given : whole ≠ []) (marked : ∀ c ∈ power.head?, isExponentMark c = true) :
    doubleOf ((if negative then ['-'] else []) ++ (whole ++ '.' :: (fraction ++ power))) =
      Double.ofDecimal negative (naturalOf (whole ++ fraction))
        (exponentOf (power.drop 1) - fraction.length) := by
  have areWhole : ∀ c ∈ whole, c.isDigit = true := fun c member =>
    areDigits c (List.mem_append_left _ member)
  have plain : ∀ c ∈ whole ++ '.' :: fraction, isExponentMark c = false := by
    intro c member
    rcases List.mem_append.mp member with inWhole | behind
    · exact isExponentMark_of_isDigit (areWhole c inWhole)
    · rcases List.mem_cons.mp behind with rfl | inFraction
      · rfl
      · exact isExponentMark_of_isDigit (areDigits c (List.mem_append_right _ inFraction))
  have point : (whole ++ '.' :: fraction).takeWhile (· ≠ '.') = whole ∧
      (whole ++ '.' :: fraction).dropWhile (· ≠ '.') = '.' :: fraction := by
    rw [List.takeWhile_append_of_pos (notPoint_of_digits areWhole),
      List.dropWhile_append_of_pos (notPoint_of_digits areWhole)]
    simp
  have regrouped : whole ++ '.' :: (fraction ++ power) = (whole ++ '.' :: fraction) ++ power := by
    simp
  rw [regrouped, doubleOf_signed negative plain (unsigned_of_digits areWhole given) (by simp) marked,
    point.1, point.2]
  rfl

/-- The number that digits and an exponent denote. -/
theorem doubleOf_whole (negative : Bool) (areDigits : ∀ c ∈ whole, c.isDigit = true)
    (given : whole ≠ []) (marked : ∀ c ∈ power.head?, isExponentMark c = true) :
    doubleOf ((if negative then ['-'] else []) ++ (whole ++ power)) =
      Double.ofDecimal negative (naturalOf whole) (exponentOf (power.drop 1)) := by
  have noPoint : whole.takeWhile (· ≠ '.') = whole ∧ whole.dropWhile (· ≠ '.') = [] := by
    have all := notPoint_of_digits areDigits
    exact ⟨List.takeWhile_eq_self_iff.mpr all, List.dropWhile_eq_nil_iff.mpr all⟩
  have unsigned : ∀ c ∈ (whole ++ []).head?, c ≠ '-' ∧ c ≠ '+' := unsigned_of_digits areDigits given
  rw [List.append_nil] at unsigned
  rw [doubleOf_signed negative (fun c member => isExponentMark_of_isDigit (areDigits c member))
    unsigned given marked, noPoint.1, noPoint.2]
  simp

end Digits

end InlineQuery
