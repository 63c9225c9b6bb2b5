import InlineQuery.Proofs.Number.Rounding
import InlineQuery.Proofs.Yaml.Numerals

/-!
The values of portable numbers with a point. Both readers take the same digits, point and exponent,
and one of them takes the sign apart.
-/

namespace InlineQuery.Yaml

open Json (Numeral Exponent)

variable {c : Char} {cs : List Char} {n : Numeral}

/-- A number with a point, and a sign in front of its exponent if it has one. -/
structure IsDecimal (n : Numeral) : Prop where
  fraction : n.fraction ≠ []
  exponent : n.exponentText = [] ∨ ∃ mark sign digits, n.exponentText = mark :: sign :: digits ∧
    (mark = 'e' ∨ mark = 'E') ∧ (sign = '+' ∨ sign = '-') ∧ digits ≠ [] ∧
    ∀ c ∈ digits, c.isDigit = true

theorem isDecimal_of_isPortable (portable : n.IsPortable) (broken : n.isWhole = false) :
    IsDecimal n := by
  rcases portable with isWhole | ⟨fraction, signed⟩
  · rw [isWhole] at broken
    cases broken
  · refine ⟨fraction, ?_⟩
    unfold Numeral.exponentText
    cases isExponent : n.exponent with
    | none => exact .inl rfl
    | some e =>
      right
      have given := signed e (by rw [isExponent]; rfl)
      rcases e.isSign with none | plus | minus
      · exact absurd none given
      · exact ⟨e.mark, '+', e.digits, by simp [Exponent.text, plus], e.isMark, .inl rfl, e.isGiven,
          e.areDigits⟩
      · exact ⟨e.mark, '-', e.digits, by simp [Exponent.text, minus], e.isMark, .inr rfl, e.isGiven,
          e.areDigits⟩

/-- What follows the point of a number. -/
def behindPoint (n : Numeral) : List Char := n.fraction ++ n.exponentText

theorem IsDecimal.magnitudeOf_eq (decimal : IsDecimal n) :
    magnitudeOf n = n.whole ++ '.' :: behindPoint n := by
  simp [magnitudeOf, Numeral.fractionText, decimal.fraction, behindPoint]

theorem isNumeric_of_mem_magnitudeOf (member : c ∈ magnitudeOf n) : IsNumeric c :=
  isNumeric_of_mem_text (n := n) (by rw [text_eq]; exact List.mem_append_right _ member)

theorem colonParts_of_not_mem (apart : ':' ∉ cs) : Tag.colonParts cs = [cs] := by
  induction cs with
  | nil => rfl
  | cons c cs ih =>
    rw [List.mem_cons, not_or] at apart
    have other : c ≠ ':' := fun same => apart.1 same.symm
    simp [Tag.colonParts, other, ih apart.2]

theorem IsDecimal.marked (decimal : IsDecimal n) :
    ∀ c ∈ n.exponentText.head?, isExponentMark c = true := by
  rcases decimal.exponent with none | ⟨mark, sign, digits, text, isMark, _⟩
  · simp [none]
  · rw [text]
    rintro c isFirst
    cases isFirst
    rcases isMark with rfl | rfl <;> rfl

theorem not_mem_magnitudeOf (n : Numeral) : ':' ∉ magnitudeOf n := fun member =>
  ne_of_isNumeric (isNumeric_of_mem_magnitudeOf member) ':' (by decide) rfl

theorem IsDecimal.isIntForm_eq (decimal : IsDecimal n) : Tag.isIntForm n.text = false := by
  obtain ⟨first, rest, starts, digit, isFirst⟩ := exists_magnitudeOf n
  have point : '.' ∈ rest := by
    have member : '.' ∈ first :: rest := by
      rw [← starts, decimal.magnitudeOf_eq]
      simp
    refine (List.mem_cons.mp member).resolve_left ?_
    rintro rfl
    cases digit
  have numeric : ∀ c ∈ first :: rest, IsNumeric c := by
    rw [← starts]
    exact fun c => isNumeric_of_mem_magnitudeOf
  rw [Tag.isIntForm, dropSign_text, starts]
  dsimp only
  split
  · rename_i same
    cases same
    cases point
  · rename_i same
    cases same
    exact absurd rfl (ne_of_isNumeric (numeric 'b' (by simp)) 'b' (by decide))
  · rename_i same
    cases same
    exact absurd rfl (ne_of_isNumeric (numeric 'x' (by simp)) 'x' (by decide))
  · rename_i same
    cases same
    rw [Bool.and_eq_false_iff]
    right
    rw [List.all_eq_false]
    exact ⟨'.', point, by decide⟩
  · have grouped : Tag.isGrouped (first :: rest) = false := by
      rw [Tag.isGrouped, Bool.and_eq_false_iff]
      right
      rw [List.all_eq_false]
      exact ⟨'.', List.mem_cons_of_mem _ point, by decide⟩
    have noColon := not_mem_magnitudeOf n
    rw [starts] at noColon
    simp [Tag.isCounting, grouped, Tag.isSexagesimal, colonParts_of_not_mem noColon]

theorem IsDecimal.isFraction_behindPoint (decimal : IsDecimal n) :
    Tag.isFraction (behindPoint n) = true := by
  have digits : ∀ c ∈ n.fraction, (c.isDigit || c == '_') = true := fun c member => by
    simp [n.areDigits c (List.mem_append_right _ member)]
  rw [Tag.isFraction, behindPoint, List.dropWhile_append_of_pos digits]
  rcases decimal.exponent with none | ⟨mark, sign, exponent, text, isMark, isSign, given, isDigit⟩
  · rw [none]
    rfl
  · rw [text]
    have apart : (mark.isDigit || mark == '_') = false := by rcases isMark with rfl | rfl <;> rfl
    rw [List.dropWhile_cons_of_neg (by simp [apart])]
    have all : exponent.all Char.isDigit = true := List.all_eq_true.mpr isDigit
    rcases isMark with rfl | rfl <;> rcases isSign with rfl | rfl <;> simp [given, all]

theorem takeWhile_whole (n : Numeral) (rest : List Char) :
    (n.whole ++ '.' :: rest).takeWhile (· ≠ '.') = n.whole ∧
      (n.whole ++ '.' :: rest).dropWhile (· ≠ '.') = '.' :: rest := by
  have apart : ∀ c ∈ n.whole, decide (c ≠ '.') = true := by
    intro c member
    have digit := isDigit_of_mem_whole member
    rw [decide_eq_true_eq]
    rintro rfl
    cases digit
  rw [List.takeWhile_append_of_pos apart, List.dropWhile_append_of_pos apart]
  simp

theorem IsDecimal.isFloatForm_eq (decimal : IsDecimal n) : Tag.isFloatForm n.text = true := by
  obtain ⟨c, rest, starts⟩ := List.exists_cons_of_ne_nil n.isGiven
  have grouped : Tag.isGrouped n.whole = true := by
    have digits : ∀ x ∈ n.whole, x.isDigit = true := fun x => isDigit_of_mem_whole
    rw [starts] at digits ⊢
    have others : ∀ x ∈ rest, x.isDigit = true ∨ x = '_' :=
      fun x member => .inl (digits x (List.mem_cons_of_mem _ member))
    simpa [Tag.isGrouped, digits c (List.mem_cons_self ..)] using others
  obtain ⟨whole, behind⟩ := takeWhile_whole n (behindPoint n)
  unfold Tag.isFloatForm
  rw [dropSign_text, decimal.magnitudeOf_eq]
  dsimp only
  split
  · rename_i point
    rw [starts] at point
    cases point
    cases isDigit_of_mem_whole (n := n) (c := '.') (by rw [starts]; exact List.mem_cons_self ..)
  · rw [whole, behind]
    simp [grouped, decimal.isFraction_behindPoint]

theorem IsDecimal.ofPlain_eq (decimal : IsDecimal n) :
    Tag.ofPlain (String.ofList n.text) = .float := by
  rw [ofPlain_text n (by rw [decimal.isFloatForm_eq, Bool.or_true]), decimal.isIntForm_eq]
  rfl

/-! ### The value of a number with a point -/

theorem toLower_of_isDigit (digit : c.isDigit = true) : c.toLower = c := by
  have sizes := Json.toNat_of_isDigit digit
  unfold Char.toLower
  rw [dif_neg]
  intro upper
  have : 65 ≤ c.toNat := upper.1
  omega

theorem map_toLower_of_digits (digits : ∀ c ∈ cs, c.isDigit = true) : cs.map Char.toLower = cs :=
  (List.map_congr_left fun c member => toLower_of_isDigit (digits c member)).trans (List.map_id cs)

/-- A number with a point in small letters, behind its sign. -/
theorem IsDecimal.exists_lowered (decimal : IsDecimal n) :
    ∃ power, (magnitudeOf n).map Char.toLower = n.whole ++ '.' :: (n.fraction ++ power) ∧
      power.drop 1 = n.exponentText.drop 1 ∧
      (power = [] ∨ ∃ sign digits, power = 'e' :: sign :: digits ∧ (sign = '+' ∨ sign = '-') ∧
        digits ≠ [] ∧ ∀ c ∈ digits, c.isDigit = true) := by
  have whole : n.whole.map Char.toLower = n.whole :=
    map_toLower_of_digits fun c => isDigit_of_mem_whole
  have fraction : n.fraction.map Char.toLower = n.fraction :=
    map_toLower_of_digits fun c member => n.areDigits c (List.mem_append_right _ member)
  refine ⟨n.exponentText.map Char.toLower, ?_, ?_⟩
  · rw [decimal.magnitudeOf_eq, behindPoint, List.map_append, List.map_cons, List.map_append, whole,
      fraction]
    rfl
  · rcases decimal.exponent with none | ⟨mark, sign, digits, text, isMark, isSign, given, areDigits⟩
    · rw [none]
      exact ⟨rfl, .inl rfl⟩
    · have mark : mark.toLower = 'e' := by rcases isMark with rfl | rfl <;> rfl
      have sign' : sign.toLower = sign := by rcases isSign with rfl | rfl <;> rfl
      rw [text, List.map_cons, List.map_cons, map_toLower_of_digits areDigits, mark, sign']
      exact ⟨rfl, .inr ⟨sign, digits, rfl, isSign, given, areDigits⟩⟩

/-- Digits, a point and more digits are a number to both readers. -/
theorem isNumber_decimal {whole fraction power : List Char}
    (digits : ∀ c ∈ whole ++ fraction, c.isDigit = true) (given : whole ≠ [])
    (powers : power = [] ∨ ∃ sign digits, power = 'e' :: sign :: digits ∧ (sign = '+' ∨ sign = '-') ∧
      digits ≠ [] ∧ ∀ c ∈ digits, c.isDigit = true) :
    Scalar.isNumber (whole ++ '.' :: (fraction ++ power)) = true := by
  have wholeDigits : ∀ c ∈ whole, c.isDigit = true := fun c member =>
    digits c (List.mem_append_left _ member)
  have fractionDigits : ∀ c ∈ fraction, c.isDigit = true := fun c member =>
    digits c (List.mem_append_right _ member)
  have noDigit : power.takeWhile Char.isDigit = [] := by
    rcases powers with rfl | ⟨sign, digits, rfl, _⟩ <;> rfl
  have wholeRead : (whole ++ '.' :: (fraction ++ power)).takeWhile Char.isDigit = whole := by
    rw [List.takeWhile_append_of_pos wholeDigits]
    simp
  have fractionRead : (fraction ++ power).takeWhile Char.isDigit = fraction := by
    rw [List.takeWhile_append_of_pos fractionDigits, noDigit, List.append_nil]
  simp only [Scalar.isNumber, wholeRead, List.drop_left, fractionRead]
  rcases powers with rfl | ⟨sign, digits, rfl, isSign, some, all⟩
  · simp [given]
  · rcases isSign with rfl | rfl <;> simpa [given, some, Tag.dropSign] using all

/-- A text that starts with a digit is none of the words for numbers. -/
theorem ne_of_digit {body : List Char} (digit : ∀ c ∈ body.head?, c.isDigit = true) (word : String)
    (apart : ∃ c ∈ word.toList.head?, c.isDigit = false) : String.ofList body ≠ word := by
  rintro rfl
  obtain ⟨c, isFirst, other⟩ := apart
  rw [String.toList_ofList] at isFirst
  rw [digit c isFirst] at other
  cases other

theorem isNumeric_toLower (numeric : IsNumeric c) : IsNumeric c.toLower := by
  rcases numeric with digit | mark
  · rw [toLower_of_isDigit digit]
    exact .inl digit
  · right
    simp only [List.mem_cons, List.not_mem_nil, or_false] at mark
    rcases mark with rfl | rfl | rfl | rfl | rfl <;> decide

/-- A number without a sign is the one that its digits denote. -/
theorem number_of_isNumber {body : List Char} (numeric : ∀ c ∈ body, IsNumeric c)
    (digit : ∀ c ∈ body.head?, c.isDigit = true) (isNumber : Scalar.isNumber body = true) :
    Scalar.number body = .ok (doubleOf body) := by
  have inf := ne_of_digit digit "inf" ⟨'i', rfl, rfl⟩
  have infinity := ne_of_digit digit "infinity" ⟨'i', rfl, rfl⟩
  have nan := ne_of_digit digit "nan" ⟨'n', rfl, rfl⟩
  simp only [Scalar.number, signedBody_of_head? numeric digit, isNumber, if_true,
    Bool.false_eq_true, if_false]

/-- In small letters a number with a point is its sign and what follows it. -/
theorem IsDecimal.float_text (decimal : IsDecimal n) :
    Scalar.float (String.ofList n.text) = .ok (doubleOf n.text) := by
  obtain ⟨first, rest, starts, digit, _⟩ := exists_magnitudeOf n
  have isFirst : ∀ c ∈ ((magnitudeOf n).map Char.toLower).head?, c.isDigit = true := by
    intro c isHead
    rw [starts, List.map_cons, toLower_of_isDigit digit] at isHead
    cases isHead
    exact digit
  have numeric : ∀ c ∈ (magnitudeOf n).map Char.toLower, IsNumeric c := by
    intro c member
    obtain ⟨before, inside, rfl⟩ := List.mem_map.mp member
    exact isNumeric_toLower (isNumeric_of_mem_magnitudeOf inside)
  obtain ⟨power, lowered, behind, powers⟩ := decimal.exists_lowered
  have given : (magnitudeOf n).map Char.toLower ≠ [] := by simp [starts]
  have text : n.text.map Char.toLower =
      (if n.isNegative then ['-'] else []) ++ (magnitudeOf n).map Char.toLower := by
    rw [text_eq, List.map_append, Numeral.sign]
    split <;> rfl
  have noColon : ((magnitudeOf n).map Char.toLower).contains ':' = false := by
    rw [List.contains_eq_mem, decide_eq_false_iff_not]
    intro member
    exact ne_of_isNumeric (numeric ':' member) ':' (by decide) rfl
  have kept : Scalar.withoutUnderscores (String.ofList n.text) = n.text :=
    withoutUnderscores_of_isNumeric fun c => isNumeric_of_mem_text
  have notInf := ne_of_digit isFirst ".inf" ⟨'.', rfl, rfl⟩
  have notNan := ne_of_digit isFirst ".nan" ⟨'.', rfl, rfl⟩
  have isNumber := isNumber_decimal n.areDigits n.isGiven powers
  rw [← lowered] at isNumber
  have marked : ∀ c ∈ power.head?, isExponentMark c = true := by
    rcases powers with rfl | ⟨sign, digits, rfl, _⟩ <;> simp [isExponentMark]
  have lowerValue := doubleOf_pointed false n.areDigits n.isGiven marked
  have value := doubleOf_pointed n.isNegative n.areDigits n.isGiven decimal.marked
  have magnitude : n.text = n.sign ++ (n.whole ++ '.' :: (n.fraction ++ n.exponentText)) := by
    rw [text_eq, decimal.magnitudeOf_eq, behindPoint]
  have lowerText : doubleOf ((magnitudeOf n).map Char.toLower) =
      Double.ofDecimal false (naturalOf (n.whole ++ n.fraction))
        (exponentOf (n.exponentText.drop 1) - n.fraction.length) := by
    rw [lowered, ← behind]
    exact lowerValue
  rw [Scalar.float, kept, text, unsigned_signed n.isNegative given isFirst, magnitude, Numeral.sign,
    value]
  simp only [bind, Except.bind, noColon, Bool.false_eq_true, if_false,
    number_of_isNumber numeric isFirst isNumber, pure, Except.pure, lowerText]
  cases n.isNegative with
  | true => rw [if_pos rfl, Double.ofDecimal_true]
  | false => rfl

/-! ### The values of plain scalars -/

/-- A portable number has the value that JSON gives it. -/
theorem scalarDatum_number (portable : n.IsPortable) :
    scalarDatum (Tag.ofPlain (String.ofList n.text)) (String.ofList n.text) = .ok n.value := by
  cases isWhole : n.isWhole with
  | true =>
    have isInt := isIntForm_of_isWhole isWhole
    rw [ofPlain_text n (by rw [isInt]; rfl), if_pos isInt, scalarDatum, integer_of_isWhole isWhole,
      Numeral.value, if_pos isWhole]
    rfl
  | false =>
    have decimal := isDecimal_of_isPortable portable isWhole
    rw [decimal.ofPlain_eq, scalarDatum, decimal.float_text, Numeral.value, isWhole]
    rfl

/-- So has a portable word. -/
theorem scalarDatum_word {name : List Char} {v : Datum} (isNamed : (name, v) ∈ Json.named)
    (portable : name ∈ Json.portableNames) :
    scalarDatum (Tag.ofPlain (String.ofList name)) (String.ofList name) = .ok v := by
  have isNull : Tag.ofPlain (String.ofList "null".toList) = .null := by decide
  have isTrue : Tag.ofPlain (String.ofList "true".toList) = .bool ∧
      Assoc.get? Tag.truthWords (String.ofList "true".toList).toLower = some true := by
    decide +kernel
  have isFalse : Tag.ofPlain (String.ofList "false".toList) = .bool ∧
      Assoc.get? Tag.truthWords (String.ofList "false".toList).toLower = some false := by
    decide +kernel
  simp only [Json.named, List.mem_cons, List.not_mem_nil, or_false, Prod.mk.injEq] at isNamed
  rcases isNamed with ⟨rfl, rfl⟩ | ⟨rfl, rfl⟩ | ⟨rfl, rfl⟩ | ⟨rfl, _⟩ | ⟨rfl, _⟩ | ⟨rfl, _⟩
  · rw [isNull]
    rfl
  · rw [isTrue.1, scalarDatum, isTrue.2]
  · rw [isFalse.1, scalarDatum, isFalse.2]
  all_goals exact absurd portable (by decide)

theorem isWord_of_mem {name : List Char} (portable : name ∈ Json.portableNames) :
    Scalar.IsWord name := by
  have all : (Json.portableNames.all fun name => !name.isEmpty && name.all fun c =>
      !isSpacing c && c != ':' && !Scalar.isFlowMark c && c != '#') = true := by decide
  have known := List.all_eq_true.mp all name portable
  simp only [Bool.and_eq_true, List.all_eq_true, Bool.not_eq_true', bne_iff_ne] at known
  refine ⟨by simpa using known.1, fun c member => ?_⟩
  obtain ⟨⟨⟨visible, notColon⟩, notMark⟩, notComment⟩ := known.2 c member
  exact ⟨visible, notColon, notMark, notComment⟩

end InlineQuery.Yaml
