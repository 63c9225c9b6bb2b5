import InlineQuery.Proofs.Definitions.Strings
import InlineQuery.Proofs.Query.Lexing

/-!
A token depends on its own characters and at most on the one behind them. Other text may take the
place of what is behind it, as long as that one stays or becomes a line end, or nothing is left.
-/

namespace InlineQuery.Query

/-- A text that may take the place of another behind a token. -/
def Follows (after after' : List Char) : Prop :=
  after'.head? = after.head? ∨ ∀ c ∈ after'.head?, c = '\n'

namespace Follows

variable {own after after' : List Char} {p : Char → Bool}

theorem empty (after : List Char) : Follows after [] := .inr nofun

theorem feed (after rest : List Char) : Follows after ('\n' :: rest) :=
  .inr fun _ isHead => (Option.some.inj isHead).symm

theorem append (own : List Char) (follows : Follows after after') :
    Follows (own ++ after) (own ++ after') := by
  cases own with
  | nil => exact follows
  | cons c own => exact .inl rfl

/-- What the next character is not, it does not become. -/
theorem any_head? (follows : Follows after after') (feed : p '\n' = false)
    (notNext : after.head?.any p = false) : after'.head?.any p = false := by
  rcases follows with same | isFeed
  · rw [same, notNext]
  · cases isHead : after'.head? with
    | none => rfl
    | some c =>
      rw [isFeed c isHead]
      exact feed

/-- A run of characters that does not reach beyond the token stays what it is. -/
theorem takeWhile_eq (follows : Follows after after') (feed : p '\n' = false)
    (le : ((own ++ after).takeWhile p).length ≤ own.length) :
    (own ++ after').takeWhile p = (own ++ after).takeWhile p := by
  have nothing_iff (text : List Char) : text.takeWhile p = [] ↔ text.head?.any p = false := by
    cases text with
    | nil => simp
    | cons c text => cases holds : p c <;> simp [holds]
  induction own with
  | nil =>
    have nothing : after.takeWhile p = [] := List.length_eq_zero_iff.mp (Nat.le_zero.mp le)
    exact ((nothing_iff after').mpr (follows.any_head? feed ((nothing_iff after).mp nothing))).trans
      nothing.symm
  | cons c own ih =>
    cases holds : p c with
    | false => simp [holds]
    | true =>
      simp only [List.cons_append, List.takeWhile_cons_of_pos holds, List.length_cons] at le ⊢
      rw [ih (Nat.le_of_succ_le_succ le)]

end Follows

/-! ### Numbers -/

section
variable {own after after' : List Char} {start stop : Nat}

theorem head?_drop_append (lt : start < own.length) :
    ((own ++ after').drop start).head? = ((own ++ after).drop start).head? := by
  rw [List.head?_drop, List.head?_drop, List.getElem?_append_left lt, List.getElem?_append_left lt]

/-- The character at the end of the digits is not one of them. -/
theorem digitsAt_append (follows : Follows after after')
    (digits : digitsAt (own ++ after) start = .ok stop) (le : stop ≤ own.length) :
    start < stop ∧ digitsAt (own ++ after') start = .ok stop := by
  unfold digitsAt at digits ⊢
  dsimp only at digits ⊢
  split at digits
  · cases digits
  · rename_i present
    cases digits
    have within : start ≤ own.length := by omega
    have drops (rest : List Char) : (own ++ rest).drop start = own.drop start ++ rest :=
      List.drop_append_of_le_length within
    have same : digitCount ((own ++ after').drop start) = digitCount ((own ++ after).drop start) := by
      unfold digitCount at le ⊢
      rw [drops] at le
      rw [drops, drops, follows.takeWhile_eq (by decide) (by rw [List.length_drop]; omega)]
    rw [same, if_neg present]
    exact ⟨by omega, rfl⟩

/-- The digits before a decimal point are digits as anywhere else, but nothing follows a zero. -/
theorem integerPart_eq_ok_iff {cs : List Char} : integerPart cs start = .ok stop ↔
    digitsAt cs start = .ok stop ∧ ((cs.drop start).head? = some '0' → stop = start + 1) := by
  have isZero : Char.isDigit '0' = true := by decide
  unfold integerPart
  split
  · rename_i d rest next
    rw [next, digitsAt, next]
    cases isDigit : d.isDigit with
    | true => simp [digitCount, isZero, isDigit]; omega
    | false => simp [digitCount, isZero, isDigit]; omega
  · rename_i other
    refine ⟨fun digits => ⟨digits, fun isHead => ?_⟩, And.left⟩
    obtain ⟨rest, next⟩ := List.head?_eq_some_iff.mp isHead
    cases rest with
    | cons d rest => exact absurd next (other d rest)
    | nil =>
      unfold digitsAt at digits
      rw [next] at digits
      simp only [digitCount, isZero, List.takeWhile_cons_of_pos, List.takeWhile_nil,
        List.length_singleton, Nat.one_ne_zero, if_false] at digits
      exact (Except.ok.inj digits).symm

theorem integerPart_append (follows : Follows after after')
    (whole : integerPart (own ++ after) start = .ok stop) (le : stop ≤ own.length) :
    start < stop ∧ integerPart (own ++ after') start = .ok stop := by
  obtain ⟨digits, zero⟩ := integerPart_eq_ok_iff.mp whole
  obtain ⟨lt, digits'⟩ := digitsAt_append follows digits le
  refine ⟨lt, integerPart_eq_ok_iff.mpr ⟨digits', fun isZero => zero ?_⟩⟩
  rwa [head?_drop_append (by omega)] at isZero

/-- What does not come next does not come next with other text behind. -/
theorem any_head?_drop {p : Char → Bool} (follows : Follows after after') (feed : p '\n' = false)
    (le : start ≤ own.length) (notNext : ((own ++ after).drop start).head?.any p = false) :
    ((own ++ after').drop start).head?.any p = false := by
  rw [List.drop_append_of_le_length le] at notNext ⊢
  exact (follows.append _).any_head? feed notNext

theorem fractionPart_append (follows : Follows after after')
    (fraction : fractionPart (own ++ after) start = .ok stop) (le : stop ≤ own.length) :
    start ≤ stop ∧ fractionPart (own ++ after') start = .ok stop := by
  unfold fractionPart at fraction ⊢
  split at fraction
  · rename_i isDot
    obtain ⟨lt, digits⟩ := digitsAt_append follows fraction le
    rw [head?_drop_append (by omega), if_pos isDot]
    exact ⟨by omega, digits⟩
  · rename_i notDot
    cases fraction
    have isDot_iff (next : Option Char) : next.any (· == '.') = true ↔ next = some '.' := by
      cases next <;> simp
    have notDot' := any_head?_drop follows (by decide) le
      (Bool.eq_false_iff.mpr (mt (isDot_iff _).mp notDot))
    exact ⟨Nat.le_refl _, if_neg (mt (isDot_iff _).mpr (Bool.eq_false_iff.mp notDot'))⟩

/-- Whether a character introduces an exponent. -/
def isExponentSign (c : Char) : Bool := c == 'e' || c == 'E'

/-- Where the digits of an exponent start. -/
def exponentDigits (cs : List Char) (start : Nat) : Nat :=
  match (cs.drop (start + 1)).head? with
  | some '+' | some '-' => start + 2
  | _ => start + 1

theorem exponentPart_eq (cs : List Char) (start : Nat) : exponentPart cs start =
    if (cs.drop start).head?.any isExponentSign then digitsAt cs (exponentDigits cs start)
    else .ok start := by
  unfold exponentPart exponentDigits
  split
  · rename_i e rest next
    have behind : cs.drop (start + 1) = rest := by rw [← List.drop_drop, next]; rfl
    rw [next, behind, List.head?_cons, Option.any_some, isExponentSign]
    by_cases isSign : (e == 'e' || e == 'E') = true
    · rw [if_pos isSign, if_pos isSign]
      split <;> simp only [*]
    · rw [if_neg isSign, if_neg isSign]
  · rename_i nothing
    rw [nothing]
    rfl

theorem lt_exponentDigits (cs : List Char) (start : Nat) : start < exponentDigits cs start := by
  unfold exponentDigits
  split <;> omega

theorem exponentPart_append (follows : Follows after after')
    (exponent : exponentPart (own ++ after) start = .ok stop) (le : stop ≤ own.length) :
    start ≤ stop ∧ exponentPart (own ++ after') start = .ok stop := by
  rw [exponentPart_eq] at exponent ⊢
  split at exponent
  · rename_i isSign
    obtain ⟨lt, digits⟩ := digitsAt_append follows exponent le
    have first := lt_exponentDigits (own ++ after) start
    have same : exponentDigits (own ++ after') start = exponentDigits (own ++ after) start := by
      unfold exponentDigits
      rw [head?_drop_append (by omega)]
    rw [head?_drop_append (by omega), if_pos isSign, same]
    exact ⟨by omega, digits⟩
  · rename_i notSign
    cases exponent
    have notSign' := any_head?_drop follows (by decide) le (Bool.eq_false_iff.mpr notSign)
    exact ⟨Nat.le_refl _, if_neg (Bool.eq_false_iff.mp notSign')⟩

end

theorem number_append {c : Char} {own after after' : List Char} {read : Lexeme}
    (isNumber : number (c :: (own ++ after)) = .ok (read, own.length))
    (follows : Follows after after') :
    number (c :: (own ++ after')) = .ok (read, own.length) := by
  rw [← List.cons_append] at isNumber ⊢
  unfold number at isNumber ⊢
  obtain ⟨first, whole, isNumber⟩ := bind_eq_ok isNumber
  obtain ⟨second, fraction, isNumber⟩ := bind_eq_ok isNumber
  obtain ⟨stop, exponent, isNumber⟩ := bind_eq_ok isNumber
  dsimp only at isNumber
  split at isNumber
  · cases isNumber
  · rename_i ends
    obtain ⟨isRead, length⟩ := Prod.mk.inj (Except.ok.inj isNumber)
    have within : stop ≤ (c :: own).length := by
      rw [List.length_cons]
      omega
    obtain ⟨le, exponent'⟩ := exponentPart_append follows exponent within
    obtain ⟨le', fraction'⟩ := fractionPart_append follows fraction (by omega)
    obtain ⟨lt, whole'⟩ := integerPart_append follows whole (by omega)
    have isStop : (c :: own).length = stop := by
      rw [List.length_cons]
      omega
    have read' (rest : List Char) : (c :: own ++ rest).drop stop = rest ∧
        (c :: own ++ rest).take stop = c :: own := by
      rw [← isStop]
      exact ⟨List.drop_left, List.take_left⟩
    have head : (c :: own ++ after').head? = (c :: own ++ after).head? := rfl
    rw [(read' after).1] at ends
    rw [(read' after).2] at isRead
    have ends' := follows.any_head? (p := fun c => c == '.' || isNameStart c) (by decide)
      (Bool.eq_false_iff.mpr ends)
    rw [head, whole']
    dsimp only [bind, Except.bind]
    rw [fraction']
    dsimp only
    rw [exponent']
    dsimp only
    rw [(read' after').1, (read' after').2, ends']
    exact congrArg Except.ok (Prod.ext isRead length)

/-! ### Strings -/

section
variable {own after after' : List Char}

theorem fourHex_append (le : 4 ≤ own.length) (after after' : List Char) :
    fourHex? (own ++ after') = fourHex? (own ++ after) := by
  match own, le with
  | _ :: _ :: _ :: _ :: _, _ => rfl

/-- Four digits, or two groups of four with another escape sign between them. -/
theorem fixedEscape_eq_ok_iff {digits : List Char} {value : Char} {n : Nat} :
    fixedEscape digits = .ok (value, n) ↔ ∃ code, fourHex? digits = some code ∧
      ((scalar? code = some value ∧ n = 4) ∨
        (scalar? code = none ∧ code < 0xDC00 ∧ (digits.drop 4).take 2 = ['\\', 'u'] ∧
          ∃ low, fourHex? (digits.drop 6) = some low ∧ (0xDC00 ≤ low ∧ low ≤ 0xDFFF) ∧
            value = Char.ofNat (0x10000 + (code - 0xD800) * 0x400 + (low - 0xDC00)) ∧ n = 10)) := by
  unfold fixedEscape
  constructor
  · intro escaped
    dsimp only at escaped
    split at escaped
    · cases escaped
    · rename_i code isCode
      refine ⟨code, isCode, ?_⟩
      split at escaped
      · rename_i isScalar
        cases escaped
        exact .inl ⟨isScalar, rfl⟩
      · rename_i isHigh
        split at escaped
        · rename_i isPair
          split at escaped
          · cases escaped
          · rename_i low isLow
            split at escaped
            · rename_i within
              have isResult := Prod.mk.inj (Except.ok.inj escaped)
              exact .inr ⟨isHigh, isPair.1, isPair.2, low, isLow, within, isResult.1.symm,
                isResult.2.symm⟩
            · cases escaped
        · cases escaped
  · rintro ⟨code, isCode, ⟨isScalar, rfl⟩ | ⟨isHigh, lt, sign, low, isLow, within, isValue, rfl⟩⟩
    · simp only [isCode, isScalar]
    · simp only [isCode, isHigh, lt, sign, and_self, if_true, isLow, within, isValue]

theorem fixedEscape_append {value : Char} {n : Nat}
    (escaped : fixedEscape (own ++ after) = .ok (value, n)) (le : n ≤ own.length) :
    fixedEscape (own ++ after') = .ok (value, n) := by
  obtain ⟨code, isCode, isEscape⟩ := fixedEscape_eq_ok_iff.mp escaped
  rcases isEscape with ⟨isScalar, rfl⟩ | ⟨isHigh, lt, sign, low, isLow, within, isValue, rfl⟩
  · exact fixedEscape_eq_ok_iff.mpr
      ⟨code, (fourHex_append le after after').trans isCode, .inl ⟨isScalar, rfl⟩⟩
  · have four : 4 ≤ own.length := by omega
    have two : 2 ≤ (own.drop 4).length := by rw [List.length_drop]; omega
    have digits : 4 ≤ (own.drop 6).length := by rw [List.length_drop]; omega
    rw [List.drop_append_of_le_length four, List.take_append_of_le_length two] at sign
    rw [List.drop_append_of_le_length (by omega)] at isLow
    refine fixedEscape_eq_ok_iff.mpr ⟨code, (fourHex_append four after after').trans isCode,
      .inr ⟨isHigh, lt, ?_, low, ?_, within, isValue, rfl⟩⟩
    · rw [List.drop_append_of_le_length four, List.take_append_of_le_length two, sign]
    · rw [List.drop_append_of_le_length (by omega), fourHex_append digits after after', isLow]

theorem lt_of_bracedEscape {point seen room n : Nat} {text : List Char} {value : Char}
    (escaped : bracedEscape point seen room text = .ok (value, n)) : seen < n := by
  fun_induction bracedEscape point seen room text with
  | case4 => cases escaped; omega
  | case6 point seen room c rest _ digit _ ih => exact Nat.lt_of_succ_lt (ih escaped)
  | _ => cases escaped

theorem bracedEscape_append {point seen room n : Nat} {value : Char}
    (escaped : bracedEscape point seen room (own ++ after) = .ok (value, n))
    (le : n ≤ seen + own.length) : bracedEscape point seen room (own ++ after') = .ok (value, n) := by
  induction room generalizing point seen own with
  | zero => cases escaped
  | succ room ih =>
    cases own with
    | nil => exact absurd (lt_of_bracedEscape escaped) (Nat.not_lt.mpr le)
    | cons c own =>
      rw [List.cons_append, bracedEscape] at escaped ⊢
      split at escaped
      · rename_i isBrace
        rw [if_pos isBrace]
        exact escaped
      · rename_i notBrace
        rw [if_neg notBrace]
        split at escaped
        · exact ih escaped (by rw [List.length_cons] at le; omega)
        · cases escaped

theorem escape_eq_ok_iff {text : List Char} {value : Char} {n : Nat} :
    escape text = .ok (value, n) ↔
      (∃ rest m, text = 'u' :: '{' :: rest ∧ bracedEscape 0 0 9 rest = .ok (value, m) ∧ n = m + 2) ∨
      (∃ rest m, text = 'u' :: rest ∧ rest.head? ≠ some '{' ∧ fixedEscape rest = .ok (value, m) ∧
        n = m + 1) ∨
      ∃ c rest, text = c :: rest ∧ c ≠ 'u' ∧ simpleEscape? c = some value ∧ n = 1 := by
  constructor
  · intro escaped
    unfold escape at escaped
    split at escaped
    · cases escaped
    · rename_i rest
      split at escaped
      · rename_i m isBraced
        cases escaped
        exact .inl ⟨rest, m, rfl, isBraced, rfl⟩
      · cases escaped
    · rename_i rest notBrace
      cases isFixed : fixedEscape rest with
      | error e => rw [isFixed] at escaped; cases escaped
      | ok result =>
        rw [isFixed] at escaped
        cases escaped
        refine .inr (.inl ⟨rest, result.2, rfl, fun isHead => ?_, isFixed, rfl⟩)
        obtain ⟨more, isCons⟩ := List.head?_eq_some_iff.mp isHead
        exact notBrace more isCons
    · rename_i c rest _ notU
      split at escaped
      · cases escaped
        exact .inr (.inr ⟨c, rest, rfl, fun isU => notU isU, ‹_›, rfl⟩)
      · cases escaped
  · rintro (⟨rest, m, rfl, isBraced, rfl⟩ | ⟨rest, m, rfl, notBrace, isFixed, rfl⟩ |
      ⟨c, rest, rfl, notU, isSimple, rfl⟩)
    · simp only [escape, isBraced]
    · have notBrace' : ∀ more, rest ≠ '{' :: more := fun more isCons => notBrace (by rw [isCons]; rfl)
      rw [escape, isFixed]
      · rfl
      · exact fun more isCons => notBrace' more isCons
    · rw [escape, isSimple]
      · exact fun _ isU _ => notU isU
      · exact fun isU => notU isU

theorem escape_append {value : Char} {n : Nat}
    (escaped : escape (own ++ after) = .ok (value, n)) (le : n ≤ own.length) :
    escape (own ++ after') = .ok (value, n) := by
  rcases escape_eq_ok_iff.mp escaped with ⟨rest, m, isText, isBraced, rfl⟩ |
    ⟨rest, m, isText, notBrace, isFixed, rfl⟩ | ⟨c, rest, isText, notU, isSimple, rfl⟩
  · match own, le with
    | _ :: _ :: own, le =>
      cases isText
      have le : m ≤ 0 + own.length := by simp only [List.length_cons] at le; omega
      exact escape_eq_ok_iff.mpr (.inl ⟨own ++ after', m, rfl, bracedEscape_append isBraced le, rfl⟩)
  · match own, le with
    | _ :: own, le =>
      cases isText
      have le := Nat.le_of_succ_le_succ le
      have isFixed' : fixedEscape (own ++ after') = .ok (value, m) := fixedEscape_append isFixed le
      have positive : 0 < own.length := by
        obtain ⟨_, -, ⟨-, rfl⟩ | ⟨-, -, -, _, -, -, -, rfl⟩⟩ := fixedEscape_eq_ok_iff.mp isFixed
        · omega
        · omega
      refine escape_eq_ok_iff.mpr (.inr (.inl ⟨own ++ after', m, rfl, ?_, isFixed', rfl⟩))
      match own, positive with
      | _ :: _, _ => exact notBrace
  · match own, le with
    | _ :: own, _ =>
      cases isText
      exact escape_eq_ok_iff.mpr (.inr (.inr ⟨c, own ++ after', rfl, notU, isSimple, rfl⟩))

/-- A string closes here, or what is behind this character closes it. -/
theorem stringBody_cases {distance skip stop : Nat} {c : Char} {rest cs : List Char}
    (closes : stringBody distance skip (c :: rest) = .ok (cs, stop)) :
    (skip = 0 ∧ c = '"' ∧ stop = distance) ∨
      ∃ ahead more, stringBody (distance + 1) ahead rest = .ok (more, stop) ∧ skip ≤ ahead + 1 := by
  cases skip with
  | succ skip => exact .inr ⟨skip, cs, closes, Nat.le_refl _⟩
  | zero =>
    rcases stringBody_cons_ok closes with ⟨isQuote, stops⟩ | ⟨_, n, more, -, body, -⟩
    · exact .inl ⟨rfl, isQuote, stops⟩
    · exact .inr ⟨n, more, body, Nat.zero_le _⟩

theorem le_of_stringBody {distance skip stop : Nat} {text cs : List Char}
    (closes : stringBody distance skip text = .ok (cs, stop)) : distance + skip ≤ stop := by
  induction text generalizing distance skip cs with
  | nil => cases closes
  | cons c rest ih =>
    rcases stringBody_cases closes with ⟨rfl, -, rfl⟩ | ⟨ahead, more, ran, reach⟩
    · exact Nat.le_refl _
    · have le := ih ran
      omega

theorem StringStep.append {c value : Char} {n : Nat} (step : StringStep c (own ++ after) value n)
    (le : n ≤ own.length) : StringStep c (own ++ after') value n := by
  cases step with
  | escape isEscape escaped => exact .escape isEscape (escape_append escaped le)
  | plain notQuote notEnd notEscape => exact .plain notQuote notEnd notEscape

theorem stringBody_append {distance skip stop : Nat} {cs : List Char}
    (closes : stringBody distance skip (own ++ after) = .ok (cs, stop))
    (lt : stop < distance + own.length) :
    stringBody distance skip (own ++ after') = .ok (cs, stop) := by
  induction own generalizing distance skip cs with
  | nil =>
    have le := le_of_stringBody closes
    exact absurd lt (by simp only [List.length_nil]; omega)
  | cons c own ih =>
    rw [List.length_cons] at lt
    cases skip with
    | succ skip => exact ih closes (by omega)
    | zero =>
      rw [List.cons_append] at closes ⊢
      rcases stringBody_cons_ok closes with ⟨rfl, rfl⟩ | ⟨value, n, more, step, body, rfl⟩
      · exact closes
      · have le := le_of_stringBody body
        rw [(step.append (by omega)).stringBody_eq, ih body (by omega)]
        rfl

/-- A block string closes here, or what is behind this character closes it. -/
theorem blockBody_cases {skip n : Nat} {c : Char} {rest : List Char} {lines : List (List Char)}
    (closes : blockBody skip (c :: rest) = some (lines, n)) :
    (skip = 0 ∧ c = '"' ∧ rest.take 2 = ['"', '"'] ∧ n = 3) ∨
      ∃ ahead more m, blockBody ahead rest = some (more, m) ∧ n = m + 1 ∧ skip ≤ ahead + 1 := by
  cases skip with
  | succ skip =>
    obtain ⟨⟨more, m⟩, ran, made⟩ := Option.map_eq_some_iff.mp closes
    cases made
    exact .inr ⟨skip, _, m, ran, rfl, Nat.le_refl _⟩
  | zero =>
    by_cases closing : c = '"' ∧ rest.take 2 = ['"', '"']
    · obtain ⟨rfl, quotes⟩ := closing
      rw [blockBody, quotes] at closes
      cases closes
      exact .inl ⟨rfl, rfl, quotes, rfl⟩
    · obtain ⟨ahead, f, step⟩ := exists_blockStep closing
      rw [step.blockBody_eq] at closes
      obtain ⟨⟨more, m⟩, ran, made⟩ := Option.map_eq_some_iff.mp closes
      cases made
      exact .inr ⟨ahead, more, m, ran, rfl, Nat.zero_le _⟩

theorem le_of_blockBody {skip n : Nat} {text : List Char} {lines : List (List Char)}
    (closes : blockBody skip text = some (lines, n)) : skip + 3 ≤ n := by
  induction text generalizing skip lines n with
  | nil => cases closes
  | cons c rest ih =>
    rcases blockBody_cases closes with ⟨rfl, -, -, rfl⟩ | ⟨ahead, more, m, ran, rfl, reach⟩
    · exact Nat.le_refl _
    · have le := ih ran
      omega

/-- The next three characters decide what becomes of a character of a block string. -/
theorem BlockStep.congr {c : Char} {rest rest' : List Char} {ahead : Nat}
    {f : List (List Char) → List (List Char)} (step : BlockStep c rest ahead f)
    (same : rest'.take 3 = rest.take 3) : BlockStep c rest' ahead f := by
  have two : rest'.take 2 = rest.take 2 := by
    simpa [List.take_take] using congrArg (List.take 2) same
  have head : rest'.head? = rest.head? := by
    simpa [List.head?_take] using congrArg List.head? same
  cases step with
  | quotes isEscape escapes => exact .quotes isEscape (same.trans escapes)
  | feed isReturn isFeed => exact .feed isReturn (head.trans isFeed)
  | lineEnd isEnd alone => exact .lineEnd isEnd (by rwa [head])
  | plain notClosing notEnd notEscape =>
    exact .plain (by rwa [two]) notEnd (by rwa [same])

theorem blockBody_append {skip n : Nat} {lines : List (List Char)}
    (closes : blockBody skip (own ++ after) = some (lines, n)) (le : n ≤ own.length) :
    blockBody skip (own ++ after') = some (lines, n) := by
  have ahead {own : List Char} {k : Nat} (within : k ≤ own.length) :
      (own ++ after').take k = (own ++ after).take k := by
    rw [List.take_append_of_le_length within, List.take_append_of_le_length within]
  induction own generalizing skip lines n with
  | nil =>
    have le' := le_of_blockBody closes
    exact absurd le (by simp only [List.length_nil]; omega)
  | cons c own ih =>
    rw [List.length_cons] at le
    have least := le_of_blockBody closes
    rw [List.cons_append] at closes ⊢
    cases skip with
    | succ skip =>
      obtain ⟨⟨more, m⟩, ran, made⟩ := Option.map_eq_some_iff.mp closes
      cases made
      rw [blockBody, ih ran (by omega)]
      rfl
    | zero =>
      by_cases closing : c = '"' ∧ (own ++ after).take 2 = ['"', '"']
      · obtain ⟨rfl, quotes⟩ := closing
        rw [blockBody, quotes] at closes
        rw [blockBody, ahead (by omega), quotes]
        exact closes
      · obtain ⟨skip, f, step⟩ := exists_blockStep closing
        rw [step.blockBody_eq] at closes
        obtain ⟨⟨more, m⟩, ran, made⟩ := Option.map_eq_some_iff.mp closes
        cases made
        have inner := le_of_blockBody ran
        rw [(step.congr (ahead (by omega))).blockBody_eq, ih ran (by omega)]
        rfl

end

/-- Whether two quotes come next. -/
theorem take_two_eq_iff {text : List Char} : text.take 2 = ['"', '"'] ↔
    text.head? = some '"' ∧ (text.drop 1).head?.any (· == '"') = true := by
  match text with
  | [] | [_] => simp
  | _ :: _ :: _ => simp

theorem take_two_of_append {own after after' : List Char} (follows : Follows after after')
    (positive : 0 < own.length) (two : (own ++ after').take 2 = ['"', '"']) :
    (own ++ after).take 2 = ['"', '"'] := by
  obtain ⟨first, second⟩ := take_two_eq_iff.mp two
  obtain ⟨d, own, rfl⟩ := List.exists_cons_of_length_pos positive
  refine take_two_eq_iff.mpr ⟨first, Decidable.byContradiction fun notSecond => ?_⟩
  rw [any_head?_drop follows (by decide) positive (Bool.eq_false_iff.mpr notSecond)] at second
  cases second

/-- What is read as a string is read as that string before any text that may stand behind it. -/
theorem lexeme_append_quote {own after after' : List Char} {read : Lexeme}
    (isLexeme : lexeme '"' (own ++ after) = .ok (read, own.length)) (follows : Follows after after') :
    lexeme '"' (own ++ after') = .ok (read, own.length) := by
  have quoted (rest : List Char) : lexeme '"' rest =
      if rest.take 2 == ['"', '"'] then
        (blockBody 0 (rest.drop 2)).elim (.error (rest.length + 1, .unterminatedString))
          fun block => .ok (.blockString (joinLines (dedent block.1)), block.2 + 2)
      else (stringBody 1 0 rest).map fun body => (.string (String.ofList body.1), body.2) := by
    unfold lexeme
    cases blockBody 0 (rest.drop 2) <;> rfl
  rw [quoted] at isLexeme ⊢
  split at isLexeme
  · rename_i opens
    cases closes : blockBody 0 ((own ++ after).drop 2) with
    | none =>
      rw [closes] at isLexeme
      cases isLexeme
    | some block =>
      obtain ⟨lines, n⟩ := block
      rw [closes] at isLexeme
      have length : n + 2 = own.length := (Prod.mk.inj (Except.ok.inj isLexeme)).2
      have within : 2 ≤ own.length := by omega
      rw [List.take_append_of_le_length within] at opens ⊢
      rw [if_pos opens]
      rw [List.drop_append_of_le_length within] at closes ⊢
      rw [blockBody_append closes (by rw [List.length_drop]; omega)]
      exact isLexeme
  · rename_i single
    obtain ⟨⟨cs, stop⟩, body, made⟩ := map_eq_ok isLexeme
    obtain ⟨rfl, rfl⟩ := Prod.mk.inj made
    have least := le_of_stringBody body
    have single' := mt (take_two_of_append follows (by omega)) (mt beq_iff_eq.mpr single)
    rw [if_neg (mt beq_iff_eq.mp single'), stringBody_append body (by omega)]
    rfl

/-- What is read as a token is read as that token before any text that may stand behind it. -/
theorem lexeme_append {c : Char} {own after after' : List Char} {read : Lexeme}
    (isLexeme : lexeme c (own ++ after) = .ok (read, own.length)) (follows : Follows after after') :
    lexeme c (own ++ after') = .ok (read, own.length) := by
  by_cases isQuote : c = '"'
  · subst isQuote
    exact lexeme_append_quote isLexeme follows
  unfold lexeme at isLexeme ⊢
  split at isLexeme
  · exact isLexeme
  split at isLexeme
  · rename_i isDot
    rw [if_pos isDot]
    split at isLexeme
    · rename_i isSpread
      have two : 2 = own.length := (Prod.mk.inj (Except.ok.inj isLexeme)).2
      rw [List.take_append_of_le_length (by omega)] at isSpread ⊢
      rw [if_pos isSpread]
      exact isLexeme
    · split at isLexeme
      · cases isLexeme
      · split at isLexeme <;> cases isLexeme
      · cases isLexeme
  rename_i notDot
  rw [beq_false_of_ne isQuote] at isLexeme ⊢
  rw [if_neg notDot]
  rw [if_neg Bool.false_ne_true] at isLexeme ⊢
  split at isLexeme
  · rename_i isNumber
    rw [if_pos isNumber]
    exact number_append isLexeme follows
  rename_i notNumber
  rw [if_neg notNumber]
  split at isLexeme
  · rename_i isStart
    have length := (Prod.mk.inj (Except.ok.inj isLexeme)).2
    rw [if_pos isStart]
    dsimp only at isLexeme length ⊢
    rw [follows.takeWhile_eq (by decide) (Nat.le_of_eq length)]
    exact isLexeme
  · split at isLexeme <;> cases isLexeme

end InlineQuery.Query
