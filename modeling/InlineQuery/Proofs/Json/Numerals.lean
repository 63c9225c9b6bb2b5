import InlineQuery.Data.Json.Writer
import InlineQuery.Proofs.Json.Reading
import InlineQuery.Proofs.Number.Shortest

/-!
Numbers as they are written. The text of a number is a numeral that has its value, and a numeral is
read with its value where it ends.
-/

namespace InlineQuery.Json

open Double (IsCanonical StandFor Hits)

variable {c : Char} {digits rest : List Char} {place e : Int} {m : Nat} {negative : Bool}

/-- The number that a numeral denotes. -/
theorem Numeral.doubleOf_text (n : Numeral) :
    doubleOf n.text = Double.ofDecimal n.isNegative (naturalOf (n.whole ++ n.fraction))
      (exponentOf (n.exponentText.drop 1) - n.fraction.length) := by
  have marked : ∀ c ∈ n.exponentText.head?, isExponentMark c = true := by
    unfold exponentText
    cases n.exponent with
    | none => simp
    | some e =>
      rintro c isFirst
      cases isFirst
      rcases e.isMark with isMark | isMark <;> rw [isMark] <;> rfl
  by_cases none : n.fraction = []
  · have areWhole : ∀ c ∈ n.whole, c.isDigit = true := fun c member =>
      n.areDigits c (List.mem_append_left _ member)
    have text : n.text = (if n.isNegative then ['-'] else []) ++ (n.whole ++ n.exponentText) := by
      simp [Numeral.text, fractionText, none, sign]
    rw [text, doubleOf_whole n.isNegative areWhole n.isGiven marked, none]
    simp
  · have text : n.text = (if n.isNegative then ['-'] else []) ++
        (n.whole ++ '.' :: (n.fraction ++ n.exponentText)) := by
      simp [Numeral.text, fractionText, none, sign]
    rw [text, doubleOf_pointed n.isNegative n.areDigits n.isGiven marked]

/-! ### Floating point numbers -/

/-- Digits with an exponent are written so from a distance on. -/
def exponentFor (place : Int) : Exponent where
  mark := 'e'
  sign := [if place - 1 < 0 then '-' else '+']
  digits := List.replicate (2 - (Nat.toDigits 10 (place - 1).natAbs).length) '0' ++
    Nat.toDigits 10 (place - 1).natAbs
  isMark := .inl rfl
  isSign := by split <;> simp
  areDigits := by
    intro c member
    rcases List.mem_append.mp member with zero | digit
    · rw [List.eq_of_mem_replicate zero]
      rfl
    · exact Nat.isDigit_of_mem_toDigits (by decide) (by decide) digit
  isGiven := by simp [Nat.toDigits_ne_nil]

theorem exponentOf_exponentFor (least : -330 ≤ place) (greatest : place ≤ 310) :
    exponentOf ((exponentFor place).text.drop 1) = place - 1 := by
  have few : (Nat.toDigits 10 (place - 1).natAbs).length ≤ 3 :=
    (Nat.length_toDigits_le_iff (by decide) (by decide)).mpr (by omega)
  have short : (exponentFor place).digits.length ≤ 12 := by
    simp only [exponentFor, List.length_append, List.length_replicate]
    omega
  have value : naturalOf (exponentFor place).digits = (place - 1).natAbs := by
    rw [exponentFor, naturalOf_zeros_append, naturalOf_toDigits]
  have text : (exponentFor place).text.drop 1 =
      (if decide (place - 1 < 0) then '-' else '+') :: (exponentFor place).digits := by
    simp [Exponent.text, exponentFor]
  rw [text, exponentOf_signed _ short, value]
  by_cases below : place - 1 < 0 <;> simp only [below, decide_true, decide_false, if_true, if_false,
    Bool.false_eq_true] <;> omega

/-- Digits in front of the point of a number and behind it, with a power of ten, are a numeral. -/
def decimalOf (negative : Bool) (whole fraction : List Char) (exponent : Option Exponent)
    (areDigits : ∀ c ∈ whole ++ fraction, c.isDigit = true) (isGiven : whole ≠ [])
    (noZero : whole = ['0'] ∨ whole.head? ≠ some '0') (isBroken : fraction ≠ [] ∨ exponent.isSome) :
    Numeral where
  isNegative := negative
  whole := whole
  fraction := fraction
  exponent := exponent
  areDigits := areDigits
  isGiven := isGiven
  noZero := noZero
  isShort := by
    rintro rfl rfl
    simp at isBroken

/-- A numeral is the text of a number whose digits it has, if its places are those of the digits. -/
structure Writes (n : Numeral) (negative : Bool) (digits : List Char) (place : Int) : Prop where
  isNegative : n.isNegative = negative
  isBroken : n.isWhole = false
  text : n.whole ++ n.fractionText ++ n.exponentText = (Double.digitsText digits place).toList
  value : Double.decimal (naturalOf (n.whole ++ n.fraction))
    (exponentOf (n.exponentText.drop 1) - n.fraction.length) =
      Double.decimal (naturalOf digits) (place - digits.length)

theorem isDigit_of_mem_zeros {k : Nat} : ∀ c ∈ List.replicate k '0', c.isDigit = true := by
  intro c member
  rw [List.eq_of_mem_replicate member]
  rfl

theorem isDigit_of_mem_append {front back : List Char} (isFront : ∀ c ∈ front, c.isDigit = true)
    (isBack : ∀ c ∈ back, c.isDigit = true) : ∀ c ∈ front ++ back, c.isDigit = true :=
  fun c member => (List.mem_append.mp member).elim (isFront c) (isBack c)

theorem Numeral.exponentText_of_none {n : Numeral} (none : n.exponent = .none) :
    n.exponentText = [] := by
  rw [exponentText, none]
  rfl

theorem Numeral.exponentOf_of_none {n : Numeral} (none : n.exponent = .none) :
    exponentOf (n.exponentText.drop 1) = 0 := by
  rw [exponentText_of_none none]
  rfl

/-! The digits of a number have their point behind the first of them, with an exponent, or behind
zeros, or in front of zeros, or among them. -/

section Points

variable (negative : Bool) (areDigits : ∀ c ∈ digits, c.isDigit = true) (given : digits ≠ [])
  (noZero : digits.head? ≠ some '0')

include areDigits given noZero

theorem exists_writes_distant (least : -330 ≤ place) (greatest : place ≤ 310)
    (distant : place ≤ -4 ∨ 16 < place) : ∃ n : Numeral, Writes n negative digits place := by
  obtain ⟨first, fraction, rfl⟩ := List.exists_cons_of_ne_nil given
  refine ⟨decimalOf negative [first] fraction (some (exponentFor place)) areDigits (by simp)
    (.inr noZero) (.inr rfl), rfl, by simp [Numeral.isWhole, decimalOf], ?_, ?_⟩
  · simp [Double.digitsText, distant, decimalOf, Numeral.fractionText, Numeral.exponentText,
      exponentFor, Exponent.text, List.isEmpty_iff]
  · have power := exponentOf_exponentFor least greatest
    simp only [decimalOf, Numeral.exponentText, Option.map_some, Option.getD_some, power,
      List.singleton_append, List.length_cons]
    congr 1
    omega

omit noZero in
theorem exists_writes_small (near : ¬ (place ≤ -4 ∨ 16 < place)) (small : place ≤ 0) :
    ∃ n : Numeral, Writes n negative digits place := by
  refine ⟨decimalOf negative ['0'] (List.replicate (-place).toNat '0' ++ digits) none
    (isDigit_of_mem_append (isDigit_of_mem_zeros (k := 1))
      (isDigit_of_mem_append isDigit_of_mem_zeros areDigits))
    (by simp) (.inl rfl) (.inl (by simp [given])), rfl,
    by simp [Numeral.isWhole, decimalOf, given], ?_, ?_⟩
  · simp [Double.digitsText, near, small, decimalOf, Numeral.fractionText, given,
      Numeral.exponentText_of_none]
  · have value : naturalOf (['0'] ++ (List.replicate (-place).toNat '0' ++ digits)) =
        naturalOf digits := by
      rw [← List.append_assoc, ← List.replicate_one, List.replicate_append_replicate,
        naturalOf_zeros_append]
    rw [Numeral.exponentOf_of_none rfl]
    simp only [decimalOf, value, List.length_append, List.length_replicate]
    congr 1
    omega

theorem exists_writes_great (near : ¬ (place ≤ -4 ∨ 16 < place))
    (great : (digits.length : Int) ≤ place) : ∃ n : Numeral, Writes n negative digits place := by
  let k := (place - digits.length).toNat
  have some_ : 0 < digits.length := List.length_pos_iff.mpr given
  refine ⟨decimalOf negative (digits ++ List.replicate k '0') ['0'] none
    (isDigit_of_mem_append (isDigit_of_mem_append areDigits isDigit_of_mem_zeros)
      (isDigit_of_mem_zeros (k := 1)))
    (by simp [given]) (.inr (by rwa [List.head?_append_of_ne_nil _ given])) (.inl (by simp)), rfl,
    by simp [Numeral.isWhole, decimalOf], ?_, ?_⟩
  · have positive : ¬ place ≤ 0 := by omega
    simp [Double.digitsText, near, positive, great, decimalOf, Numeral.fractionText,
      Numeral.exponentText_of_none, k]
  · have value : naturalOf (digits ++ List.replicate k '0' ++ ['0']) =
        naturalOf digits * 10 ^ (k + 1) := by
      rw [List.append_assoc, ← List.replicate_succ', naturalOf_append_zeros]
    rw [Numeral.exponentOf_of_none rfl]
    simp only [decimalOf, value, Double.decimal_mul_pow, List.length_singleton]
    congr 1
    omega

theorem exists_writes_among (near : ¬ (place ≤ -4 ∨ 16 < place)) (positive : 0 < place)
    (inside : place < digits.length) : ∃ n : Numeral, Writes n negative digits place := by
  have front : digits.take place.toNat ≠ [] := by
    simp [given]
    omega
  have back : digits.drop place.toNat ≠ [] := by
    simp
    omega
  have parts := List.take_append_drop place.toNat digits
  refine ⟨decimalOf negative (digits.take place.toNat) (digits.drop place.toNat) none
    (by rwa [parts]) front (.inr (by rwa [← parts, List.head?_append_of_ne_nil _ front] at noZero))
    (.inl back), rfl, by simpa [Numeral.isWhole, decimalOf] using back, ?_, ?_⟩
  · simp [Double.digitsText, near, Int.not_le.mpr positive, Int.not_le.mpr inside, decimalOf,
      Numeral.fractionText, back, Numeral.exponentText_of_none]
  · rw [Numeral.exponentOf_of_none rfl]
    simp only [decimalOf, parts, List.length_drop]
    congr 1
    omega

end Points

/-- The text of digits with their point is a numeral. -/
theorem exists_writes (negative : Bool) (stand : StandFor digits place m e) :
    ∃ n : Numeral, Writes n negative digits place := by
  obtain ⟨areDigits, given, noZero, least, greatest, -⟩ := stand
  by_cases distant : place ≤ -4 ∨ 16 < place
  · exact exists_writes_distant negative areDigits given noZero least greatest distant
  by_cases small : place ≤ 0
  · exact exists_writes_small negative areDigits given distant small
  by_cases great : (digits.length : Int) ≤ place
  · exact exists_writes_great negative areDigits given noZero distant great
  · exact exists_writes_among negative areDigits given noZero distant (Int.not_le.mp small)
      (Int.not_le.mp great)

/-- The text of a number in canonical form is a numeral that is read back as the number. -/
theorem exists_numeral_of_isCanonical (canonical : (Double.finite negative m e).IsCanonical) :
    ∃ n : Numeral, n.text = (numberText (.finite negative m e)).toList ∧
      n.value = .float (.finite negative m e) := by
  have signed (n : Numeral) (isNegative : n.isNegative = negative) :
      n.text = (if negative then "-" else "").toList ++
        (n.whole ++ n.fractionText ++ n.exponentText) := by
    rw [Numeral.text, Numeral.sign, isNegative]
    cases negative <;> simp
  rcases Nat.eq_zero_or_pos m with rfl | positive
  · obtain rfl := canonical.2.2.2 (by decide)
    refine ⟨decimalOf negative ['0'] ['0'] none (by simp) (by simp) (.inl rfl) (.inl (by simp)),
      ?_, ?_⟩
    · rw [signed _ rfl, numberText, Double.textWith, String.toList_append]
      rfl
    · have nothing : naturalOf (['0'] ++ ['0']) = 0 := rfl
      rw [Numeral.value, Numeral.doubleOf_text, if_neg (by simp [Numeral.isWhole, decimalOf])]
      simp only [decimalOf, nothing, Double.ofDecimal_zero]
      rfl
  · have stand := Double.shortest_standFor (m := m) (e := e) canonical positive
    obtain ⟨n, isNegative, isBroken, text, value⟩ := exists_writes negative stand
    refine ⟨n, ?_, ?_⟩
    · rw [signed n isNegative, text, numberText, Double.textWith, String.toList_append,
        if_neg positive.ne']
    · have unsigned := (Double.ofDecimal_congr false value).trans stand.value
      rw [Numeral.value, isBroken, Numeral.doubleOf_text, isNegative]
      simp only [Bool.false_eq_true, if_false]
      cases negative with
      | false => rw [unsigned]
      | true => rw [Double.ofDecimal_true, unsigned]; rfl

/-! ### Integers -/

theorem toList_toString_int (i : Int) : (toString i).toList =
    (if i < 0 then ['-'] else []) ++ Nat.toDigits 10 i.natAbs := by
  cases i with
  | ofNat k =>
    have unsigned : ¬ Int.ofNat k < 0 := Int.not_lt.mpr (Int.natCast_nonneg k)
    rw [if_neg unsigned]
    exact Nat.toList_repr
  | negSucc k =>
    rw [if_pos (Int.negSucc_lt_zero k)]
    have text : toString (Int.negSucc k) = "-" ++ (k + 1).repr := rfl
    rw [text, String.toList_append, Nat.toList_repr]
    rfl

/-- The text of an integer is a numeral that is read back as the integer. -/
theorem exists_numeral_of_int {i : Int} (short : (Nat.toDigits 10 i.natAbs).length ≤ digitLimit) :
    ∃ n : Numeral, n.text = (toString i).toList ∧ n.value = .int i := by
  have noZero : Nat.toDigits 10 i.natAbs = ['0'] ∨ (Nat.toDigits 10 i.natAbs).head? ≠ some '0' := by
    rcases Nat.eq_zero_or_pos i.natAbs with zero | positive
    · rw [zero]
      exact .inl rfl
    · exact .inr (Double.head?_toDigits positive)
  have areDigits : ∀ c ∈ Nat.toDigits 10 i.natAbs ++ [], c.isDigit = true := by
    rw [List.append_nil]
    exact fun c => Nat.isDigit_of_mem_toDigits (by decide) (by decide)
  refine ⟨⟨decide (i < 0), Nat.toDigits 10 i.natAbs, [], none, areDigits, Nat.toDigits_ne_nil, noZero,
    fun _ _ => short⟩, ?_, ?_⟩
  · rw [toList_toString_int]
    simp [Numeral.text, Numeral.sign, Numeral.fractionText, Numeral.exponentText]
  · have value : (if i < 0 then -1 else 1) * (i.natAbs : Int) = i := by
      split <;> omega
    simpa [Numeral.value, Numeral.isWhole, naturalOf_toDigits] using value

/-! ### Reading numerals -/

/-- Where a number ends: nothing follows that could be part of it. -/
def EndsNumber (rest : List Char) : Prop :=
  ∀ c ∈ rest.head?, c.isDigit = false ∧ c ≠ '.' ∧ isExponentMark c = false

theorem takeWhile_digits {front back : List Char} (areDigits : ∀ c ∈ front, c.isDigit = true)
    (ends : ∀ c ∈ back.head?, c.isDigit = false) :
    (front ++ back).takeWhile Char.isDigit = front := by
  rw [List.takeWhile_append_of_pos areDigits]
  cases back with
  | nil => simp
  | cons c back => simp [ends c rfl]

section Parts

variable (n : Numeral)

/-- What follows the fraction of a number starts with no digit and no point. -/
theorem head?_exponentText (ends : EndsNumber rest) :
    ∀ c ∈ (n.exponentText ++ rest).head?, c.isDigit = false ∧ c ≠ '.' := by
  intro c isFirst
  unfold Numeral.exponentText at isFirst
  cases isExponent : n.exponent with
  | none =>
    rw [isExponent] at isFirst
    exact ⟨(ends c isFirst).1, (ends c isFirst).2.1⟩
  | some e =>
    rw [isExponent] at isFirst
    cases isFirst
    rcases e.isMark with isMark | isMark <;> rw [isMark] <;> decide

theorem exponentLength_text (ends : EndsNumber rest) :
    exponentLength (n.exponentText ++ rest) = n.exponentText.length := by
  unfold Numeral.exponentText
  cases n.exponent with
  | none =>
    cases rest with
    | nil => rfl
    | cons c rest =>
      have noMark : (c == 'e' || c == 'E') = false := (ends c rfl).2.2
      rw [Option.map_none, Option.getD_none, List.nil_append, exponentLength, noMark]
      rfl
  | some e =>
    obtain ⟨mark, sign, digits, isMark, isSign, areDigits, isGiven⟩ := e
    have ends : ∀ c ∈ rest.head?, c.isDigit = false := fun c isFirst => (ends c isFirst).1
    have signed : signLength (sign ++ (digits ++ rest)) = sign.length := by
      rcases isSign with rfl | rfl | rfl
      · obtain ⟨first, others, rfl⟩ := List.exists_cons_of_ne_nil isGiven
        have digit := areDigits first (List.mem_cons_self ..)
        simp [signLength, ne_of_isDigit digit (d := '+') rfl, ne_of_isDigit digit (d := '-') rfl]
      · rfl
      · rfl
    have marked : (mark == 'e' || mark == 'E') = true := by rcases isMark with rfl | rfl <;> rfl
    have read : exponentLength (mark :: (sign ++ (digits ++ rest))) =
        if (((sign ++ (digits ++ rest)).drop (signLength (sign ++ (digits ++ rest)))).takeWhile
          Char.isDigit).length = 0 then 0
        else (((sign ++ (digits ++ rest)).drop (signLength (sign ++ (digits ++ rest)))).takeWhile
          Char.isDigit).length + signLength (sign ++ (digits ++ rest)) + 1 :=
      if_pos marked
    rw [signed, List.drop_left, takeWhile_digits areDigits ends,
      if_neg (by simpa using isGiven)] at read
    simp only [Option.map_some, Option.getD_some, Exponent.text, List.cons_append, List.append_assoc]
    rw [read, List.length_cons, List.length_append, Nat.add_comm digits.length]

theorem fractionLength_text (ends : EndsNumber rest) :
    fractionLength (n.fractionText ++ (n.exponentText ++ rest)) = n.fractionText.length := by
  have behind := head?_exponentText n ends
  by_cases none : n.fraction = []
  · rw [Numeral.fractionText, if_pos none, List.nil_append]
    unfold fractionLength
    split
    · rename_i point
      exact absurd rfl (behind '.' (by rw [point]; rfl)).2
    · rfl
  · rw [Numeral.fractionText, if_neg none, List.cons_append, fractionLength,
      takeWhile_digits (fun c member => n.areDigits c (List.mem_append_right _ member))
        fun c isFirst => (behind c isFirst).1]
    exact if_neg (by simpa using none)

theorem integerLength_text (ends : EndsNumber rest) :
    integerLength (n.sign ++ n.whole ++ (n.fractionText ++ (n.exponentText ++ rest))) =
      (n.sign ++ n.whole).length := by
  have areWhole : ∀ c ∈ n.whole, c.isDigit = true := fun c member =>
    n.areDigits c (List.mem_append_left _ member)
  have behind : ∀ c ∈ (n.fractionText ++ (n.exponentText ++ rest)).head?, c.isDigit = false := by
    intro c isFirst
    unfold Numeral.fractionText at isFirst
    split at isFirst
    · exact (head?_exponentText n ends c isFirst).1
    · cases isFirst
      rfl
  generalize n.fractionText ++ (n.exponentText ++ rest) = tail at behind ⊢
  obtain ⟨first, others, starts⟩ := List.exists_cons_of_ne_nil n.isGiven
  have digit := areWhole first (by rw [starts]; exact List.mem_cons_self ..)
  have signed : (if (n.sign ++ n.whole ++ tail).head? = some '-' then 1 else 0) = n.sign.length := by
    unfold Numeral.sign
    cases n.isNegative with
    | true => rfl
    | false => simp [starts, ne_of_isDigit digit (d := '-') rfl]
  have length : integerLength (n.sign ++ n.whole ++ tail) =
      wholeLength (if (n.sign ++ n.whole ++ tail).head? = some '-' then 1 else 0)
        ((n.sign ++ n.whole ++ tail).drop
          (if (n.sign ++ n.whole ++ tail).head? = some '-' then 1 else 0)) := rfl
  rw [length, signed, List.append_assoc, List.drop_left, List.length_append]
  rcases n.noZero with zero | noZero
  · rw [zero]
    rfl
  · rcases wholeLength_cases n.sign.length (n.whole ++ tail) with ⟨r, zero, -⟩ | ⟨-, whole⟩
    · rw [starts] at zero noZero
      cases zero
      exact absurd rfl noZero
    · rw [whole, takeWhile_digits areWhole behind, if_neg (by simpa using n.isGiven)]

end Parts

/-- A sign and not too many digits are read as an integer. -/
theorem integerOf_text {n : Numeral} (isWhole : n.isWhole = true) :
    integerOf n.text = .ok ((if n.isNegative then -1 else 1) * (naturalOf n.whole : Int)) := by
  obtain ⟨noFraction, noExponent⟩ : n.fraction = [] ∧ n.exponent = none := by
    simpa [Numeral.isWhole] using isWhole
  have text : n.text = (if n.isNegative then ['-'] else []) ++ n.whole := by
    simp [Numeral.text, Numeral.sign, Numeral.fractionText, Numeral.exponentText, noFraction, noExponent]
  have areWhole : ∀ c ∈ n.whole, c.isDigit = true := fun c member =>
    n.areDigits c (List.mem_append_left _ member)
  obtain ⟨first, others, starts⟩ := List.exists_cons_of_ne_nil n.isGiven
  have digit := areWhole first (by rw [starts]; exact List.mem_cons_self ..)
  have isMagnitude : magnitude n.text = n.whole := by
    rw [text]
    cases n.isNegative with
    | true => rfl
    | false =>
      simp [magnitude, starts, ne_of_isDigit digit (d := '+') rfl,
        ne_of_isDigit digit (d := '-') rfl]
  obtain ⟨i, read⟩ := (exists_integerOf_iff n.text).mpr
    (isMagnitude ▸ n.isShort noFraction noExponent)
  obtain ⟨rfl, -⟩ := integerOf_signed n.isNegative areWhole (text ▸ read)
  exact read

theorem length_text_eq_iff (n : Numeral) :
    n.text.length = (n.sign ++ n.whole).length ↔ n.isWhole = true := by
  have noFraction : n.fractionText.length = 0 ↔ n.fraction = [] := by
    unfold Numeral.fractionText
    split <;> simp [*]
  have noExponent : n.exponentText.length = 0 ↔ n.exponent = none := by
    unfold Numeral.exponentText
    cases n.exponent <;> simp [Exponent.text]
  rw [Numeral.isWhole, Bool.and_eq_true, List.isEmpty_iff, Option.isNone_iff_eq_none, ← noFraction,
    ← noExponent, Numeral.text, List.length_append, List.length_append]
  omega

/-- A numeral is read with its value, up to where it ends. -/
theorem readNumber_text (n : Numeral) (ends : EndsNumber rest) (offset : Nat) :
    readNumber ⟨offset, n.text ++ rest⟩ = .ok (n.value, ⟨offset + n.text.length, rest⟩) := by
  have parts : n.text ++ rest =
      (n.sign ++ n.whole) ++ (n.fractionText ++ (n.exponentText ++ rest)) := by
    simp [Numeral.text]
  have whole := integerLength_text n ends
  have behindWhole : (n.text ++ rest).drop (n.sign ++ n.whole).length =
      n.fractionText ++ (n.exponentText ++ rest) := by rw [parts, List.drop_left]
  have behindFraction : (n.text ++ rest).drop ((n.sign ++ n.whole).length + n.fractionText.length) =
      n.exponentText ++ rest := by
    rw [← List.drop_drop, behindWhole, List.drop_left]
  have length : (n.sign ++ n.whole).length + n.fractionText.length + n.exponentText.length =
      n.text.length := by
    simp only [Numeral.text, List.length_append]
  have given : (n.sign ++ n.whole).length ≠ 0 := by simp [n.isGiven]
  have left : Rest.drop ⟨offset, n.text ++ rest⟩ n.text.length = ⟨offset + n.text.length, rest⟩ := by
    rw [Rest.drop, List.drop_left]
  rw [← parts] at whole
  unfold readNumber
  simp only [whole, behindWhole, fractionLength_text n ends, behindFraction,
    exponentLength_text n ends, length, List.take_left, left, if_neg given, length_text_eq_iff]
  by_cases isWhole : n.isWhole = true
  · rw [if_pos isWhole, integerOf_text isWhole, Numeral.value, if_pos isWhole]
  · rw [if_neg isWhole, Numeral.value, if_neg isWhole]

end InlineQuery.Json
