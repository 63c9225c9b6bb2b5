import InlineQuery.Proofs.Data.Digits
import InlineQuery.Proofs.Data.Except
import InlineQuery.Proofs.Json.Form
import Mathlib.Data.List.TakeWhile

/-!
Every text that is read as JSON is that of a form with the value that is read.
-/

namespace InlineQuery.Json

theorem drop_length_takeWhile (p : Char → Bool) (cs : List Char) :
    cs.drop (cs.takeWhile p).length = cs.dropWhile p := by
  calc cs.drop (cs.takeWhile p).length
    _ = (cs.takeWhile p ++ cs.dropWhile p).drop (cs.takeWhile p).length := by
      rw [List.takeWhile_append_dropWhile]
    _ = cs.dropWhile p := List.drop_left

theorem Rest.exists_gap (rest : Rest) :
    ∃ gap : Gap, rest.chars = gap.text ++ rest.skipGap.chars := by
  have left : rest.skipGap.chars = rest.chars.dropWhile isGap := drop_length_takeWhile ..
  refine ⟨⟨rest.chars.takeWhile isGap, fun _ => List.mem_takeWhile_imp⟩, ?_⟩
  rw [left]
  exact List.takeWhile_append_dropWhile.symm

section Strings

variable {start offset skip n : Nat} {cs vs : List Char} {rest left : Rest} {value : Char}

/-- What follows the digits of a number that is half of a pair. -/
theorem paired_parts {digits : List Char} (marked : (digits.drop 4).take 2 = ['\\', 'u']) :
    digits = digits.take 4 ++ '\\' :: 'u' :: (((digits.drop 4).drop 2).take 4 ++ digits.drop 10) := by
  calc digits
    _ = digits.take 4 ++ ((digits.drop 4).take 2 ++
        (((digits.drop 4).drop 2).take 4 ++ ((digits.drop 4).drop 2).drop 4)) := by
      simp only [List.take_append_drop]
    _ = _ := by
      rw [marked, List.drop_drop, List.drop_drop]
      rfl

/-- An escape that is read is written behind the backslash. -/
theorem exists_piece_of_escape (escaped : escape start rest = .ok (value, n)) :
    ∃ piece : Piece, piece.value = value ∧
      '\\' :: rest.chars = piece.text ++ rest.chars.drop n := by
  unfold escape at escaped
  split at escaped
  · cases escaped
  · rename_i digits chars
    split at escaped
    · cases escaped
    · split at escaped
      · cases escaped
      · rename_i high isHigh
        have single (is : charOf high = value) (length : 5 = n) : ∃ piece : Piece,
            piece.value = value ∧ '\\' :: rest.chars = piece.text ++ rest.chars.drop n := by
          subst is length
          refine ⟨.numbered (digits.take 4) high isHigh, rfl, ?_⟩
          rw [chars]
          simp [Piece.text]
        dsimp only at escaped
        split at escaped
        · rename_i follows
          split at escaped
          · cases escaped
          · rename_i low isLow
            split at escaped
            · simp only [Except.ok.injEq, Prod.mk.injEq] at escaped
              obtain ⟨rfl, rfl⟩ := escaped
              refine ⟨.paired _ _ high low isHigh isLow, rfl, ?_⟩
              have parts := paired_parts follows.2.2.2
              rw [chars]
              simpa [Piece.text] using parts
            · cases escaped
              exact single rfl rfl
        · cases escaped
          exact single rfl rfl
  · rename_i c r notU chars
    split at escaped
    · rename_i simple means
      cases escaped
      exact ⟨.simple c value means, rfl, by rw [chars]; rfl⟩
    · cases escaped

/-- Passing over what belongs to an escape reads the string behind it. -/
theorem stringBody_skip (read : stringBody start skip offset cs = .ok (vs, left)) :
    stringBody start 0 (offset + skip) (cs.drop skip) = .ok (vs, left) := by
  induction skip generalizing offset cs with
  | zero => exact read
  | succ skip ih =>
    cases cs with
    | nil => cases read
    | cons c r =>
      have further := ih read
      rwa [Nat.add_assoc, Nat.add_comm 1 skip] at further

/-- A string that is read is written up to its closing quote. -/
theorem exists_pieces_of_stringBody (read : stringBody start 0 offset cs = .ok (vs, left)) :
    ∃ q : Quotation, q.pieces.map Piece.value = vs ∧ cs = q.body ++ left.chars := by
  induction length : cs.length using Nat.strong_induction_on generalizing offset cs vs with
  | _ size ih =>
    subst length
    cases cs with
    | nil => cases read
    | cons c r =>
      rw [stringBody] at read
      split at read
      · rename_i quote
        cases read
        exact ⟨⟨[]⟩, rfl, by rw [beq_iff_eq.mp quote]; rfl⟩
      rename_i notQuote
      split at read
      · rename_i backslash
        rw [beq_iff_eq.mp backslash]
        split at read
        · cases read
        · rename_i value n escaped
          obtain ⟨⟨more, behind⟩, body, same⟩ := map_eq_ok read
          cases same
          obtain ⟨piece, means, parts⟩ := exists_piece_of_escape escaped
          obtain ⟨q, values, inside⟩ := ih (r.drop n).length
            (by rw [List.length_drop, List.length_cons]; omega)
            (stringBody_skip body) rfl
          refine ⟨⟨piece :: q.pieces⟩, by simp [means, values], ?_⟩
          rw [parts, inside]
          simp [Quotation.body]
      rename_i notBackslash
      split at read
      · cases read
      · rename_i visible
        obtain ⟨⟨more, behind⟩, body, same⟩ := map_eq_ok read
        cases same
        obtain ⟨q, values, inside⟩ := ih r.length (by simp) body rfl
        have stands : c ≠ '"' ∧ c ≠ '\\' ∧ 0x20 ≤ c.toNat :=
          ⟨by simpa using notQuote, by simpa using notBackslash, Nat.le_of_not_lt visible⟩
        refine ⟨⟨.plain c stands :: q.pieces⟩, by simp [Piece.value, values], ?_⟩
        rw [inside]
        rfl

end Strings

section Numbers

variable {cs : List Char} {rest left : Rest} {v : Datum}

theorem take_takeWhile (p : Char → Bool) (cs : List Char) :
    cs.take (cs.takeWhile p).length = cs.takeWhile p := by
  calc cs.take (cs.takeWhile p).length
    _ = (cs.takeWhile p ++ cs.dropWhile p).take (cs.takeWhile p).length := by
      rw [List.takeWhile_append_dropWhile]
    _ = cs.takeWhile p := List.take_left

/-- The length of an integer behind its sign: a zero alone, or digits. -/
def wholeLength (sign : Nat) (r : List Char) : Nat :=
  match r with
  | '0' :: _ => sign + 1
  | r => if (r.takeWhile Char.isDigit).length = 0 then 0
    else sign + (r.takeWhile Char.isDigit).length

theorem wholeLength_cases (sign : Nat) (r : List Char) :
    (∃ tail, r = '0' :: tail ∧ wholeLength sign r = sign + 1) ∨
      ((∀ tail, r ≠ '0' :: tail) ∧ wholeLength sign r =
        if (r.takeWhile Char.isDigit).length = 0 then 0
        else sign + (r.takeWhile Char.isDigit).length) := by
  unfold wholeLength
  split
  · exact .inl ⟨_, rfl, rfl⟩
  · rename_i noZero
    exact .inr ⟨noZero, rfl⟩

/-- The integer at the start of a number: a sign, then digits without a zero in front. -/
theorem exists_whole_of_integerLength (given : integerLength cs ≠ 0) :
    ∃ (isNegative : Bool) (whole : List Char),
      cs.take (integerLength cs) = (if isNegative then ['-'] else []) ++ whole ∧
      (∀ c ∈ whole, c.isDigit = true) ∧ whole ≠ [] ∧ (whole = ['0'] ∨ whole.head? ≠ some '0') := by
  let sign := if cs.head? = some '-' then 1 else 0
  have signed : cs.take sign = if decide (cs.head? = some '-') then ['-'] else [] := by
    cases cs with
    | nil => rfl
    | cons c r => by_cases minus : c = '-' <;> simp [sign, minus]
  refine ⟨decide (cs.head? = some '-'), ?_⟩
  rw [← signed]
  have length : integerLength cs = wholeLength sign (cs.drop sign) := rfl
  rw [length] at given ⊢
  rcases wholeLength_cases sign (cs.drop sign) with ⟨r, zero, whole⟩ | ⟨noZero, whole⟩
  · rw [whole]
    exact ⟨['0'], by simp [zero, List.take_add], by simp, by simp, .inl rfl⟩
  · rw [whole] at given ⊢
    split at given
    · exact absurd rfl given
    · rename_i some
      rw [if_neg some, List.take_add, take_takeWhile]
      refine ⟨_, rfl, fun _ => List.mem_takeWhile_imp, fun none => some (by rw [none]; rfl),
        .inr fun zero => ?_⟩
      cases digits : cs.drop sign with
      | nil => simp [digits] at zero
      | cons c tail =>
        rw [digits, List.takeWhile_cons] at zero
        split at zero
        · cases zero
          exact noZero tail digits
        · cases zero

/-- The fraction at the start of a text: none, or a point and digits. -/
theorem exists_fraction_of_fractionLength (cs : List Char) :
    ∃ fraction : List Char,
      cs.take (fractionLength cs) = (if fraction = [] then [] else '.' :: fraction) ∧
      (∀ c ∈ fraction, c.isDigit = true) ∧ (fraction = [] ↔ fractionLength cs = 0) := by
  unfold fractionLength
  split
  · rename_i r
    dsimp only
    split
    · exact ⟨[], rfl, by simp, by simp⟩
    · rename_i some
      refine ⟨r.takeWhile Char.isDigit, ?_, fun _ => List.mem_takeWhile_imp, ?_⟩
      · rw [if_neg fun none => some (by rw [none]; rfl), List.take_succ_cons, take_takeWhile]
      · simpa using some
  · exact ⟨[], rfl, by simp, by simp⟩

def signLength (r : List Char) : Nat :=
  match r.head? with
  | some '+' | some '-' => 1
  | _ => 0

theorem take_signLength (r : List Char) :
    r.take (signLength r) = [] ∨ r.take (signLength r) = ['+'] ∨ r.take (signLength r) = ['-'] := by
  cases r with
  | nil => exact .inl rfl
  | cons c r =>
    by_cases plus : c = '+'
    · subst plus
      exact .inr (.inl rfl)
    by_cases minus : c = '-'
    · subst minus
      exact .inr (.inr rfl)
    left
    simp [signLength, plus, minus]

/-- The exponent at the start of a text: none, or a mark, perhaps a sign, and digits. -/
theorem exists_exponent_of_exponentLength (cs : List Char) :
    ∃ exponent : Option Exponent,
      cs.take (exponentLength cs) = (exponent.map Exponent.text).getD [] ∧
      (exponent = none ↔ exponentLength cs = 0) := by
  unfold exponentLength
  split
  · rename_i e r
    split
    · rename_i isMark
      let sign := signLength r
      change ∃ exponent : Option Exponent,
        (e :: r).take (if ((r.drop sign).takeWhile Char.isDigit).length = 0 then 0
          else ((r.drop sign).takeWhile Char.isDigit).length + sign + 1) =
            (exponent.map Exponent.text).getD [] ∧
        (exponent = none ↔ (if ((r.drop sign).takeWhile Char.isDigit).length = 0 then 0
          else ((r.drop sign).takeWhile Char.isDigit).length + sign + 1) = 0)
      split
      · exact ⟨none, rfl, by simp⟩
      · rename_i given
        refine ⟨some ⟨e, r.take sign, (r.drop sign).takeWhile Char.isDigit, by simpa using isMark,
          take_signLength r, fun _ => List.mem_takeWhile_imp, fun none => given (by rw [none]; rfl)⟩, ?_, ?_⟩
        · rw [Nat.add_comm _ sign, List.take_succ_cons, List.take_add, take_takeWhile]
          rfl
        · simp
    · exact ⟨none, rfl, by simp⟩
  · exact ⟨none, rfl, by simp⟩

/-- The integer that digits behind a sign denote. -/
theorem integerOf_signed (isNegative : Bool) {whole : List Char} {n : Int}
    (digits : ∀ c ∈ whole, c.isDigit = true)
    (read : integerOf ((if isNegative then ['-'] else []) ++ whole) = .ok n) :
    n = (if isNegative then -1 else 1) * (naturalOf whole : Int) ∧ whole.length ≤ digitLimit := by
  have bounded (negative : Bool) {m : Int} (given : (if digitLimit < whole.length then
      (.error ⟨whole.length⟩ : Except HugeInteger Int)
      else .ok ((if negative then -1 else 1) * (naturalOf whole : Int))) = .ok m) :
      m = (if negative then -1 else 1) * (naturalOf whole : Int) ∧ whole.length ≤ digitLimit := by
    split at given
    · cases given
    · rename_i short
      cases given
      exact ⟨rfl, Nat.le_of_not_lt short⟩
  cases isNegative with
  | true => exact bounded true read
  | false =>
    cases whole with
    | nil => exact bounded false read
    | cons c r =>
      have digit := digits c (List.mem_cons_self ..)
      refine bounded false ?_
      simp only [Bool.false_eq_true, if_false, List.nil_append, integerOf] at read ⊢
      split at read
      · rename_i minus
        cases minus
        cases digit
      · rename_i plus
        cases plus
        cases digit
      · exact read

/-- The parts of a number at the start of a text, which take so many characters. -/
structure AreParts (cs : List Char) (first second third : Nat) (isNegative : Bool)
    (whole fraction : List Char) (exponent : Option Exponent) : Prop where
  areDigits : ∀ c ∈ whole ++ fraction, c.isDigit = true
  isGiven : whole ≠ []
  noZero : whole = ['0'] ∨ whole.head? ≠ some '0'
  noFraction : fraction = [] ↔ second = 0
  noExponent : exponent = none ↔ third = 0
  text : cs.take (first + second + third) = (if isNegative then ['-'] else []) ++ whole ++
    (if fraction = [] then [] else '.' :: fraction) ++ (exponent.map Exponent.text).getD []

theorem exists_areParts (given : integerLength cs ≠ 0) :
    ∃ isNegative whole fraction exponent, AreParts cs (integerLength cs)
      (fractionLength (cs.drop (integerLength cs)))
      (exponentLength (cs.drop (integerLength cs + fractionLength (cs.drop (integerLength cs)))))
      isNegative whole fraction exponent := by
  obtain ⟨isNegative, whole, wholeText, wholeDigits, isGiven, noZero⟩ :=
    exists_whole_of_integerLength given
  obtain ⟨fraction, fractionText, fractionDigits, noFraction⟩ :=
    exists_fraction_of_fractionLength (cs.drop (integerLength cs))
  obtain ⟨exponent, exponentText, noExponent⟩ := exists_exponent_of_exponentLength
    (cs.drop (integerLength cs + fractionLength (cs.drop (integerLength cs))))
  have digits : ∀ c ∈ whole ++ fraction, c.isDigit = true := fun c member =>
    (List.mem_append.mp member).elim (wholeDigits c) (fractionDigits c)
  refine ⟨isNegative, whole, fraction, exponent, digits, isGiven, noZero, noFraction, noExponent, ?_⟩
  rw [List.take_add, List.take_add, wholeText, fractionText, exponentText]

/-- A number that is read is written as a numeral. -/
theorem exists_numeral_of_readNumber (read : readNumber rest = .ok (v, left)) :
    ∃ n : Numeral, n.value = v ∧ rest.chars = n.text ++ left.chars := by
  unfold readNumber at read
  dsimp only at read
  split at read
  · cases read
  rename_i given
  obtain ⟨isNegative, whole, fraction, exponent, parts⟩ := exists_areParts given
  obtain ⟨digits, isGiven, noZero, noFraction, noExponent, text⟩ := parts
  generalize integerLength rest.chars = first at *
  generalize fractionLength (rest.chars.drop first) = second at *
  generalize exponentLength (rest.chars.drop (first + second)) = third at *
  have split_ := (List.take_append_drop (first + second + third) rest.chars).symm
  split at read
  · -- an integer: its digits are all that is read
    rename_i isWhole
    obtain rfl : fraction = [] := noFraction.mpr (by omega)
    obtain rfl : exponent = none := noExponent.mpr (by omega)
    have signed : rest.chars.take (first + second + third) =
        (if isNegative then ['-'] else []) ++ whole := by simpa using text
    split at read
    · rename_i n isInteger
      cases read
      rw [signed] at isInteger
      obtain ⟨rfl, short⟩ := integerOf_signed _ (by simpa using digits) isInteger
      refine ⟨⟨isNegative, whole, [], none, digits, isGiven, noZero, fun _ _ => short⟩, ?_, ?_⟩
      · simp [Numeral.value, Numeral.isWhole]
      · refine split_.trans ?_
        rw [text]
        rfl
    · cases read
  · rename_i broken
    cases read
    have apart : fraction = [] → exponent = none → whole.length ≤ digitLimit := by
      intro none none'
      exact absurd (by rw [noFraction.mp none, noExponent.mp none']; rfl) broken
    have notWhole : (fraction.isEmpty && exponent.isNone) = false := by
      rw [Bool.and_eq_false_iff, ← Bool.not_eq_true, ← Bool.not_eq_true, List.isEmpty_iff,
        Option.isNone_iff_eq_none, noFraction, noExponent]
      omega
    refine ⟨⟨isNegative, whole, fraction, exponent, digits, isGiven, noZero, apart⟩, ?_, ?_⟩
    · simp only [Numeral.value, Numeral.isWhole, notWhole, Bool.false_eq_true, if_false]
      rw [text]
      rfl
    · refine split_.trans ?_
      rw [text]
      rfl

end Numbers

/-- What a value, the items and the members that a reader finds with so many calls are written as. -/
structure AreWritten (fuel : Nat) : Prop where
  value : ∀ {rest left : Rest} {v : Datum}, readValue fuel rest = .ok (v, left) →
    ∃ form : Form, form.value = v ∧ rest.chars = form.text ++ left.chars
  items : ∀ {rest left : Rest} {vs : List Datum}, elements fuel rest = .ok (vs, left) →
    ∃ (first : Form) (behind : Gap) (more : Items), first.value :: more.values = vs ∧
      rest.chars = first.text ++ behind.text ++ more.text false ++ left.chars
  members : ∀ {rest left : Rest} {es : List (String × Datum)}, members fuel rest = .ok (es, left) →
    ∃ (key : Quotation) (beforeColon afterColon : Gap) (first : Form) (behind : Gap)
      (more : Members), (key.value, first.value) :: more.entries = es ∧
      rest.chars = key.text ++ beforeColon.text ++ [':'] ++ afterColon.text ++ first.text ++
        behind.text ++ more.text false ++ left.chars

namespace AreWritten

variable {fuel : Nat} {rest left : Rest} {v : Datum}

theorem zero : AreWritten 0 := ⟨nofun, nofun, nofun⟩

theorem chars_of_head? (rest : Rest) {c : Char} (ahead : rest.chars.head? = some c) :
    rest.chars = c :: (rest.drop 1).chars := by
  obtain ⟨r, chars⟩ := List.head?_eq_some_iff.mp ahead
  rw [chars, Rest.drop, chars]
  rfl

theorem exists_quotation_of_readString {s : String} (ahead : rest.chars.head? = some '"')
    (read : readString rest = .ok (s, left)) :
    ∃ q : Quotation, q.value = s ∧ rest.chars = q.text ++ left.chars := by
  obtain ⟨⟨cs, behind⟩, body, same⟩ := map_eq_ok read
  cases same
  obtain ⟨q, values, inside⟩ := exists_pieces_of_stringBody body
  refine ⟨q, by rw [Quotation.value, values], ?_⟩
  rw [chars_of_head? _ ahead, Quotation.text, List.cons_append, ← inside]
  rfl

/-- Behind an opening bracket there is spacing. -/
theorem exists_opened {c : Char} {r : List Char} (chars : rest.chars = c :: r) :
    ∃ inner : Gap, rest.chars = c :: inner.text ++ (rest.drop 1).skipGap.chars := by
  obtain ⟨inner, spaced⟩ := (rest.drop 1).exists_gap
  refine ⟨inner, ?_⟩
  rw [List.cons_append, ← spaced]
  exact chars_of_head? _ (by rw [chars]; rfl)

theorem value_succ (written : AreWritten fuel) (read : readValue (fuel + 1) rest = .ok (v, left)) :
    ∃ form : Form, form.value = v ∧ rest.chars = form.text ++ left.chars := by
  rw [readValue] at read
  split at read
  · rename_i r chars
    obtain ⟨⟨s, behind⟩, string, same⟩ := map_eq_ok read
    cases same
    obtain ⟨q, means, text⟩ := exists_quotation_of_readString (by rw [chars]; rfl) string
    exact ⟨.quoted q, by rw [Form.value, means], text⟩
  · rename_i r chars
    obtain ⟨inner, opened⟩ := exists_opened chars
    dsimp only at read
    split at read
    · rename_i closes
      cases read
      refine ⟨.object inner .close, rfl, ?_⟩
      rw [opened, chars_of_head? _ closes]
      simp [Form.text, Members.text]
    · obtain ⟨⟨es, behind⟩, some, same⟩ := map_eq_ok read
      cases same
      obtain ⟨key, beforeColon, afterColon, first, spacing, more, means, text⟩ :=
        written.members some
      refine ⟨.object inner
        (.member .none key beforeColon afterColon first spacing more), ?_, ?_⟩
      · rw [Form.value, Members.entries, means]
      · rw [opened, text]
        simp [Form.text, Members.text, comma, Gap.none, Gap.text]
  · rename_i r chars
    obtain ⟨inner, opened⟩ := exists_opened chars
    dsimp only at read
    split at read
    · rename_i closes
      cases read
      refine ⟨.list inner .close, rfl, ?_⟩
      rw [opened, chars_of_head? _ closes]
      simp [Form.text, Items.text]
    · obtain ⟨⟨vs, behind⟩, some, same⟩ := map_eq_ok read
      cases same
      obtain ⟨first, spacing, more, means, text⟩ := written.items some
      refine ⟨.list inner (.item .none first spacing more), ?_, ?_⟩
      · rw [Form.value, Items.values, means]
      · rw [opened, text]
        simp [Form.text, Items.text, comma, Gap.none, Gap.text]
  · split at read
    · rename_i name value found
      cases read
      refine ⟨.word name v (List.mem_of_find?_eq_some found), rfl, ?_⟩
      have starts : name.isPrefixOf rest.chars = true := by simpa using List.find?_some found
      obtain ⟨behind, chars⟩ := List.isPrefixOf_iff_prefix.mp starts
      rw [Form.text, Rest.drop, ← chars, List.drop_left]
    · obtain ⟨n, means, text⟩ := exists_numeral_of_readNumber read
      exact ⟨.number n, means, text⟩

theorem items_succ {vs : List Datum} (written : AreWritten fuel)
    (read : elements (fuel + 1) rest = .ok (vs, left)) :
    ∃ (first : Form) (behind : Gap) (more : Items), first.value :: more.values = vs ∧
      rest.chars = first.text ++ behind.text ++ more.text false ++ left.chars := by
  rw [elements] at read
  obtain ⟨⟨v, next⟩, value, read⟩ := bind_eq_ok read
  obtain ⟨first, means, text⟩ := written.value value
  obtain ⟨spacing, spaced⟩ := next.exists_gap
  refine ⟨first, spacing, ?_⟩
  dsimp only at read
  split at read
  · rename_i r closes
    cases read
    refine ⟨.close, by simp [means, Items.values], ?_⟩
    rw [text, spaced, chars_of_head? next.skipGap (by rw [closes]; rfl)]
    simp [Items.text]
  · rename_i r separates
    obtain ⟨⟨vs, behind⟩, further, made⟩ := bind_eq_ok read
    cases made
    obtain ⟨second, last, more, values, inside⟩ := written.items further
    obtain ⟨before, separated⟩ := (next.skipGap.drop 1).exists_gap
    refine ⟨.item before second last more, by rw [Items.values, means, values], ?_⟩
    rw [text, spaced, chars_of_head? next.skipGap (by rw [separates]; rfl), separated, inside]
    simp [Items.text, comma]
  · cases read

theorem members_succ {es : List (String × Datum)} (written : AreWritten fuel)
    (read : Json.members (fuel + 1) rest = .ok (es, left)) :
    ∃ (key : Quotation) (beforeColon afterColon : Gap) (first : Form) (behind : Gap)
      (more : Members), (key.value, first.value) :: more.entries = es ∧
      rest.chars = key.text ++ beforeColon.text ++ [':'] ++ afterColon.text ++ first.text ++
        behind.text ++ more.text false ++ left.chars := by
  rw [Json.members] at read
  split at read
  · cases read
  rename_i quote
  obtain ⟨⟨s, next⟩, string, read⟩ := bind_eq_ok read
  obtain ⟨key, isKey, text⟩ := exists_quotation_of_readString (by simpa using quote) string
  obtain ⟨beforeColon, spaced⟩ := next.exists_gap
  dsimp only at read
  split at read
  · cases read
  rename_i colon
  have colon : next.skipGap.chars = ':' :: (next.skipGap.drop 1).chars :=
    chars_of_head? _ (by simpa using colon)
  obtain ⟨afterColon, spaced'⟩ := (next.skipGap.drop 1).exists_gap
  obtain ⟨⟨v, last⟩, value, read⟩ := bind_eq_ok read
  obtain ⟨first, means, inside⟩ := written.value value
  obtain ⟨spacing, closing⟩ := last.exists_gap
  have whole : rest.chars = key.text ++ beforeColon.text ++ [':'] ++ afterColon.text ++
      first.text ++ spacing.text ++ last.skipGap.chars := by
    rw [text, spaced, colon, spaced', inside, closing]
    simp
  refine ⟨key, beforeColon, afterColon, first, spacing, ?_⟩
  dsimp only at read
  split at read
  · rename_i r closes
    cases read
    refine ⟨.close, by simp [isKey, means, Members.entries], ?_⟩
    rw [whole, chars_of_head? last.skipGap (by rw [closes]; rfl)]
    simp [Members.text]
  · rename_i r separates
    obtain ⟨⟨es, behind⟩, further, made⟩ := bind_eq_ok read
    cases made
    obtain ⟨key', colonBefore, colonAfter, second, ending, more, entries, inside'⟩ :=
      written.members further
    obtain ⟨before, separated⟩ := (last.skipGap.drop 1).exists_gap
    refine ⟨.member before key' colonBefore colonAfter second ending more, ?_, ?_⟩
    · rw [Members.entries, isKey, means, entries]
    · rw [whole, chars_of_head? last.skipGap (by rw [separates]; rfl), separated, inside']
      simp [Members.text, comma]
  · cases read

theorem areWritten (fuel : Nat) : AreWritten fuel := by
  induction fuel with
  | zero => exact .zero
  | succ fuel ih => exact ⟨ih.value_succ, ih.items_succ, ih.members_succ⟩

end AreWritten

/-- A text that is read as JSON is written as a document of the value that is read. -/
theorem exists_document_of_read {text : List Char} {v : Datum} (isRead : read text = .ok v) :
    ∃ d : Document, d.text = text ∧ d.root.value = v := by
  unfold read at isRead
  split at isRead
  · cases isRead
  obtain ⟨⟨v', left⟩, value, isRead⟩ := bind_eq_ok isRead
  dsimp only at isRead
  split at isRead
  · cases isRead
  rename_i ended
  cases isRead
  obtain ⟨before, spaced⟩ := (Rest.mk 0 text).exists_gap
  obtain ⟨behind, closing⟩ := left.exists_gap
  obtain ⟨root, means, inside⟩ := (AreWritten.areWritten _).value value
  refine ⟨⟨before, root, behind⟩, ?_, means⟩
  have none : left.skipGap.chars = [] := by simpa using ended
  have spaced : text = before.text ++ (Rest.mk 0 text).skipGap.chars := spaced
  rw [spaced, inside, closing, none]
  simp [Document.text]

end InlineQuery.Json
