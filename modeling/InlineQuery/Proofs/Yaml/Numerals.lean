import InlineQuery.Proofs.Json.Reading
import InlineQuery.Proofs.Yaml.Plain

/-!
The values of portable words and numbers, which are those that JSON gives them.
-/

namespace InlineQuery.Yaml

open Json (Numeral Exponent)

/-- A character of a number: a digit, or one of the marks around digits. -/
def IsNumeric (c : Char) : Prop := c.isDigit = true ∨ c ∈ ['-', '+', '.', 'e', 'E']

variable {c : Char} {cs : List Char} {n : Numeral}

theorem toNat_of_isNumeric (numeric : IsNumeric c) :
    43 ≤ c.toNat ∧ c.toNat ≤ 57 ∧ c.toNat ≠ 44 ∧ c.toNat ≠ 47 ∨ c.toNat = 69 ∨ c.toNat = 101 := by
  rcases numeric with digit | mark
  · have := Json.toNat_of_isDigit digit
    omega
  · simp only [List.mem_cons, List.not_mem_nil, or_false] at mark
    rcases mark with rfl | rfl | rfl | rfl | rfl <;> decide

theorem ne_of_isNumeric (numeric : IsNumeric c) (other : Char)
    (apart : ¬ (43 ≤ other.toNat ∧ other.toNat ≤ 57 ∧ other.toNat ≠ 44 ∧ other.toNat ≠ 47 ∨
      other.toNat = 69 ∨ other.toNat = 101)) : c ≠ other := by
  rintro rfl
  exact apart (toNat_of_isNumeric numeric)

/-- What follows the sign of a number. -/
def magnitudeOf (n : Numeral) : List Char := n.whole ++ n.fractionText ++ n.exponentText

theorem text_eq (n : Numeral) : n.text = n.sign ++ magnitudeOf n := by
  simp [Numeral.text, magnitudeOf]

/-- What follows the sign of a number starts with a digit. -/
theorem exists_magnitudeOf (n : Numeral) :
    ∃ c rest, magnitudeOf n = c :: rest ∧ c.isDigit = true ∧ n.whole.head? = some c := by
  obtain ⟨c, whole, isWhole⟩ := List.exists_cons_of_ne_nil n.isGiven
  refine ⟨c, whole ++ n.fractionText ++ n.exponentText, by simp [magnitudeOf, isWhole], ?_,
    by simp [isWhole]⟩
  exact n.areDigits c (by rw [isWhole]; exact List.mem_cons_self ..)

theorem isPadding_of_isNumeric (numeric : IsNumeric c) : Scalar.isPadding c = false := by
  have range := toNat_of_isNumeric numeric
  have notSpace := ne_of_isNumeric numeric ' ' (by decide)
  have notBelow : ¬ c ≤ '\r' := by
    intro below
    have : c.toNat ≤ 13 := below
    omega
  simp [Scalar.isPadding, notSpace, notBelow]

theorem numeralChar_of_isNumeric (numeric : IsNumeric c) : numeralChar c = c := by
  have range := toNat_of_isNumeric numeric
  have isAscii : c.toNat < 0x7F := by omega
  simp only [numeralChar, if_pos isAscii]

theorem numeral_of_isNumeric (numeric : ∀ c ∈ cs, IsNumeric c) : Scalar.numeral cs = cs := by
  have same : cs.map numeralChar = cs := by
    simpa using List.map_congr_left fun c member => numeralChar_of_isNumeric (numeric c member)
  have kept (cs : List Char) (numeric : ∀ c ∈ cs, IsNumeric c) :
      cs.dropWhile Scalar.isPadding = cs := by
    cases cs with
    | nil => rfl
    | cons c cs =>
      simp [isPadding_of_isNumeric (numeric c (List.mem_cons_self ..))]
  rw [Scalar.numeral, same, kept cs numeric,
    kept cs.reverse (by simpa using numeric), List.reverse_reverse]

theorem withoutUnderscores_of_isNumeric (numeric : ∀ c ∈ cs, IsNumeric c) :
    Scalar.withoutUnderscores (String.ofList cs) = cs := by
  rw [Scalar.withoutUnderscores, String.toList_ofList, List.filter_eq_self]
  intro c member
  simpa using ne_of_isNumeric (numeric c member) '_' (by decide)

theorem withoutLineEnd_of_isNumeric (numeric : ∀ c ∈ cs, IsNumeric c) :
    Timestamp.withoutLineEnd cs = cs := by
  induction cs with
  | nil => rfl
  | cons c cs ih =>
    have later := ih fun other member => numeric other (List.mem_cons_of_mem _ member)
    unfold Timestamp.withoutLineEnd
    split
    · rename_i feed
      cases feed
      exact absurd rfl (ne_of_isNumeric (numeric '\n' (by simp)) '\n' (by decide))
    · rename_i same
      cases same
      rw [later]
    · rename_i same
      cases same

theorem isNumeric_of_mem_text (member : c ∈ n.text) : IsNumeric c := Numeral.mem_text member

theorem isWord_text (n : Numeral) : Scalar.IsWord n.text := by
  refine ⟨?_, fun c member => ?_⟩
  · obtain ⟨c, rest, starts, _⟩ := exists_magnitudeOf n
    simp [text_eq, starts]
  · have apart := ne_of_isNumeric (isNumeric_of_mem_text member)
    refine ⟨?_, apart ':' (by decide), ?_, apart '#' (by decide)⟩
    · simp [isSpacing, isBreak, apart ' ' (by decide), apart '\t' (by decide), apart '\n' (by decide),
        apart '\x85' (by decide), apart '\u2028' (by decide), apart '\u2029' (by decide)]
    · simp [Scalar.isFlowMark, apart ',' (by decide), apart '?' (by decide), apart '[' (by decide),
        apart ']' (by decide), apart '\x7b' (by decide), apart '\x7d' (by decide)]

/-! ### Which kind a number is -/

theorem head?_text (n : Numeral) : ∀ c ∈ n.text.head?, c.isDigit = true ∨ c = '-' := by
  obtain ⟨first, rest, starts, digit, _⟩ := exists_magnitudeOf n
  intro c isFirst
  rw [text_eq, starts] at isFirst
  unfold Numeral.sign at isFirst
  split at isFirst
  · cases isFirst
    exact .inr rfl
  · cases isFirst
    exact .inl digit

/-- The words for nothing and for truth values. -/
def words : List String :=
  "~" :: "" :: Tag.spellings "null" ++ Tag.truthWords.flatMap fun (w, _) => Tag.spellings w

theorem mem_words_of_isNullWord {s : String} (isWord : Tag.isNullWord s = true) : s ∈ words := by
  simp only [Tag.isNullWord, Bool.or_eq_true, beq_iff_eq, List.contains_iff_mem] at isWord
  simp only [words, List.cons_append, List.mem_cons, List.mem_append]
  rcases isWord with (tilde | none) | spelled
  · exact .inl tilde
  · exact .inr (.inl none)
  · exact .inr (.inr (.inl spelled))

theorem mem_words_of_isTruthWord {s : String} (isWord : Tag.isTruthWord s = true) : s ∈ words := by
  obtain ⟨⟨w, b⟩, member, spelled⟩ := List.any_eq_true.mp isWord
  simp only [words, List.cons_append, List.mem_cons, List.mem_append, List.mem_flatMap]
  exact .inr (.inr (.inr ⟨(w, b), member, List.contains_iff_mem.mp spelled⟩))

/-- No word starts like a number. -/
theorem not_mem_words (n : Numeral) : String.ofList n.text ∉ words := by
  intro member
  have starts : (words.all fun w => w.toList.head?.all fun c => !(c.isDigit || c == '-')) = true := by
    decide +kernel
  have start := List.all_eq_true.mp starts _ member
  rw [String.toList_ofList] at start
  obtain ⟨c, rest, text⟩ := List.exists_cons_of_ne_nil (isWord_text n).given
  rw [text] at start
  rcases head?_text n c (by rw [text]; rfl) with digit | rfl
  · simp [digit] at start
  · simp at start

theorem isDigit_of_mem_whole {n : Numeral} (member : c ∈ n.whole) : c.isDigit = true :=
  n.areDigits c (List.mem_append_left _ member)

theorem dropSign_text (n : Numeral) : Tag.dropSign n.text = magnitudeOf n := by
  obtain ⟨first, rest, starts, digit, _⟩ := exists_magnitudeOf n
  rw [text_eq, starts]
  unfold Numeral.sign
  split
  · rfl
  · have numeric : IsNumeric first := .inl digit
    unfold Tag.dropSign
    split
    · rename_i plus
      cases plus
      cases digit
    · rename_i minus
      cases minus
      cases digit
    · rfl

/-- Of a number that is an integer the digits are all that follows the sign. -/
theorem magnitudeOf_of_isWhole (isWhole : n.isWhole = true) : magnitudeOf n = n.whole := by
  simp only [Numeral.isWhole, Bool.and_eq_true, List.isEmpty_iff, Option.isNone_iff_eq_none] at isWhole
  simp [magnitudeOf, Numeral.fractionText, Numeral.exponentText, isWhole.1, isWhole.2]

theorem isIntForm_of_isWhole (isWhole : n.isWhole = true) : Tag.isIntForm n.text = true := by
  rw [Tag.isIntForm, dropSign_text, magnitudeOf_of_isWhole isWhole]
  have digit : ∀ c ∈ n.whole, c.isDigit = true := fun c => isDigit_of_mem_whole
  rcases n.noZero with zero | notZero
  · rw [zero]
    rfl
  · obtain ⟨c, rest, starts⟩ := List.exists_cons_of_ne_nil n.isGiven
    rw [starts] at notZero digit ⊢
    have counting : Tag.isCounting (c :: rest) = true := by
      simp only [List.head?_cons, ne_eq, Option.some.injEq] at notZero
      have grouped : ∀ x ∈ rest, x.isDigit = true ∨ x = '_' :=
        fun x member => .inl (digit x (List.mem_cons_of_mem _ member))
      simpa [Tag.isCounting, Tag.isGrouped, digit c (List.mem_cons_self ..), notZero] using grouped
    dsimp only
    split
    · rfl
    · rename_i same
      cases same
      exact absurd rfl notZero
    · rename_i same
      cases same
      exact absurd rfl notZero
    · rename_i same
      cases same
      exact absurd rfl notZero
    · rw [counting]
      rfl

/-- Without a tag a number is what its form says. -/
theorem ofPlain_text (n : Numeral) (isNumber : (Tag.isIntForm n.text || Tag.isFloatForm n.text) = true) :
    Tag.ofPlain (String.ofList n.text) = if Tag.isIntForm n.text then .int else .float := by
  have kept : Timestamp.withoutLineEnd n.text = n.text :=
    withoutLineEnd_of_isNumeric fun c => isNumeric_of_mem_text
  have notNull : Tag.isNullWord (String.ofList n.text) = false :=
    Bool.eq_false_iff.mpr fun isWord => not_mem_words n (mem_words_of_isNullWord isWord)
  have notTruth : Tag.isTruthWord (String.ofList n.text) = false :=
    Bool.eq_false_iff.mpr fun isWord => not_mem_words n (mem_words_of_isTruthWord isWord)
  simp only [Tag.ofPlain, String.toList_ofList, kept, notNull, notTruth, Bool.false_eq_true, if_false]
  cases isInt : Tag.isIntForm n.text with
  | true => rfl
  | false =>
    rw [isInt, Bool.false_or] at isNumber
    simp [isNumber]

/-! ### The value of an integer -/

/-- A sign in front of what starts with a digit is taken off. -/
theorem unsigned_signed (negative : Bool) {body : List Char} (given : body ≠ [])
    (digit : ∀ c ∈ body.head?, c.isDigit = true) :
    Scalar.unsigned ((if negative then ['-'] else []) ++ body) = .ok (negative, body) := by
  cases negative with
  | true => rfl
  | false =>
    obtain ⟨first, rest, rfl⟩ := List.exists_cons_of_ne_nil given
    have isDigit := digit first rfl
    have notMinus : first ≠ '-' := by
      rintro rfl
      cases isDigit
    have notPlus : first ≠ '+' := by
      rintro rfl
      cases isDigit
    simp [Scalar.unsigned, notMinus, notPlus]

/-- Digits have no sign. -/
theorem signedBody_of_head? {body : List Char} (numeric : ∀ c ∈ body, IsNumeric c)
    (digit : ∀ c ∈ body.head?, c.isDigit = true) : Scalar.signedBody body = (false, body) := by
  rw [Scalar.signedBody, numeral_of_isNumeric numeric]
  split
  · cases digit '-' rfl
  · cases digit '+' rfl
  · rfl

theorem decimal_digits (digits : ∀ c ∈ cs, c.isDigit = true) (given : cs ≠ [])
    (short : cs.length ≤ digitLimit) : Scalar.decimal cs = .ok (naturalOf cs : Int) := by
  have bare : Scalar.signedBody cs = (false, cs) :=
    signedBody_of_head? (fun c member => .inl (digits c member))
      fun c isFirst => digits c (List.mem_of_mem_head? isFirst)
  have read : integerOf cs = .ok (naturalOf cs : Int) := by
    obtain ⟨n, read⟩ := (exists_integerOf_iff cs).mpr
      (Nat.le_trans (length_magnitude_le cs) short)
    have value := (Json.integerOf_signed false digits (by simpa using read)).1
    rw [read, value]
    simp
  have isDecimal : (cs.isEmpty || !cs.all Char.isDigit) = false := by
    simpa [given] using digits
  simp [Scalar.decimal, bare, isDecimal, read, Except.map, Except.mapError]

theorem not_mem_of_digits (digits : ∀ c ∈ cs, c.isDigit = true) : ':' ∉ cs := by
  intro member
  cases digits ':' member

/-- The integer of a text is its digits' number. -/
theorem integer_of_isWhole (isWhole : n.isWhole = true) :
    Scalar.integer (String.ofList n.text) =
      .ok ((if n.isNegative then -1 else 1) * (naturalOf n.whole : Int)) := by
  have digits : ∀ c ∈ n.whole, c.isDigit = true := fun c => isDigit_of_mem_whole
  have short : n.whole.length ≤ digitLimit := by
    simp only [Numeral.isWhole, Bool.and_eq_true, List.isEmpty_iff,
      Option.isNone_iff_eq_none] at isWhole
    exact n.isShort isWhole.1 isWhole.2
  have decimal := decimal_digits digits n.isGiven short
  have unsigned := unsigned_signed n.isNegative n.isGiven fun c isFirst =>
    digits c (List.mem_of_mem_head? isFirst)
  have sign : n.text = (if n.isNegative then ['-'] else []) ++ n.whole := by
    rw [text_eq, magnitudeOf_of_isWhole isWhole, Numeral.sign]
  rw [← sign] at unsigned
  have kept : Scalar.withoutUnderscores (String.ofList n.text) = n.text :=
    withoutUnderscores_of_isNumeric fun c => isNumeric_of_mem_text
  have signed (m : Int) : (if n.isNegative then -m else m) =
      (if n.isNegative then -1 else 1) * m := by
    cases n.isNegative <;> simp
  simp only [Scalar.integer, kept, unsigned, bind, Except.bind, pure, Except.pure, ← signed]
  rcases n.noZero with zero | notZero
  · rw [zero]
    rfl
  · have noColon := not_mem_of_digits digits
    obtain ⟨c, rest, starts⟩ := List.exists_cons_of_ne_nil n.isGiven
    rw [starts] at notZero decimal noColon ⊢
    split
    · rename_i same
      cases same
      exact absurd rfl notZero
    · rename_i same
      cases same
      exact absurd rfl notZero
    · rename_i same
      cases same
      exact absurd rfl notZero
    · rename_i same
      cases same
      exact absurd rfl notZero
    · rename_i same
      cases same
    · have bare : (c :: rest).contains ':' = false := by simpa using noColon
      rw [bare]
      simp only [Bool.false_eq_true, if_false, decimal]

end InlineQuery.Yaml
