import InlineQuery.Proofs.Data.Except
import InlineQuery.Query.Lexer

/-!
What the tokens of a text look like character by character, as far as finding them again in another
way needs it.
-/

namespace InlineQuery.Query

/-- The characters that numbers are made of. -/
def isNumeric (c : Char) : Bool :=
  c.isDigit || c == '-' || c == '+' || c == '.' || c == 'e' || c == 'E'

/-- A text could start with a number of some length: only characters of numbers, the last of them a
digit. -/
structure IsNumeral (cs : List Char) (stop : Nat) : Prop where
  numeric : ∀ c ∈ cs.take stop, isNumeric c = true
  digit : ∃ d, (cs.take stop).getLast? = some d ∧ d.isDigit = true
  le_length : stop ≤ cs.length

theorem take_digitCount (cs : List Char) : cs.take (digitCount cs) = cs.takeWhile Char.isDigit :=
  (List.prefix_iff_eq_take.mp (List.takeWhile_prefix _)).symm

theorem isNumeral_digitsAt {cs : List Char} {start stop : Nat}
    (before : ∀ c ∈ cs.take start, isNumeric c = true) (digits : digitsAt cs start = .ok stop) :
    IsNumeral cs stop := by
  unfold digitsAt at digits
  dsimp only at digits
  split at digits
  · cases digits
  · rename_i present
    cases digits
    have parts : cs.take (start + digitCount (cs.drop start)) =
        cs.take start ++ (cs.drop start).takeWhile Char.isDigit := by
      rw [List.take_add, take_digitCount]
    have isDigit : ∀ c ∈ (cs.drop start).takeWhile Char.isDigit, c.isDigit = true :=
      fun c member => List.all_eq_true.mp List.all_takeWhile c member
    have nonempty : (cs.drop start).takeWhile Char.isDigit ≠ [] := by
      intro isNil
      exact present (by rw [digitCount, isNil]; rfl)
    refine ⟨?_, ?_, ?_⟩
    · rw [parts]
      intro c member
      rcases List.mem_append.mp member with earlier | later
      · exact before c earlier
      · simp [isNumeric, isDigit c later]
    · refine ⟨_, ?_, isDigit _ (List.getLast_mem nonempty)⟩
      rw [parts, List.getLast?_append, List.getLast?_eq_some_getLast nonempty]
      rfl
    · have room := (List.takeWhile_prefix Char.isDigit (l := cs.drop start)).length_le
      rw [List.length_drop] at room
      unfold digitCount at present ⊢
      omega

theorem isNumeric_of_take {cs : List Char} {start : Nat} {c : Char} {r : List Char}
    (before : ∀ c ∈ cs.take start, isNumeric c = true) (next : cs.drop start = c :: r)
    (numeric : isNumeric c = true) : ∀ c ∈ cs.take (start + 1), isNumeric c = true := by
  intro d member
  rw [List.take_add, next] at member
  rcases List.mem_append.mp member with earlier | later
  · exact before d earlier
  · simp only [List.take_succ_cons, List.take_zero, List.mem_singleton] at later
    exact later ▸ numeric

theorem length_of_drop {cs : List Char} {start : Nat} {c : Char} {rest : List Char}
    (next : cs.drop start = c :: rest) : cs.length = start + 1 + rest.length := by
  have length := congrArg List.length next
  rw [List.length_drop, List.length_cons] at length
  omega

theorem isNumeral_integerPart {cs : List Char} {start stop : Nat}
    (before : ∀ c ∈ cs.take start, isNumeric c = true) (whole : integerPart cs start = .ok stop) :
    IsNumeral cs stop := by
  unfold integerPart at whole
  split at whole
  · rename_i d r isZero
    split at whole
    · cases whole
    · cases whole
      have length := length_of_drop isZero
      refine ⟨isNumeric_of_take before isZero (by decide), ⟨'0', ?_, by decide⟩, by omega⟩
      rw [List.take_add, isZero, List.getLast?_append]
      rfl
  · exact isNumeral_digitsAt before whole

theorem isNumeral_fractionPart {cs : List Char} {start stop : Nat} (before : IsNumeral cs start)
    (fraction : fractionPart cs start = .ok stop) : IsNumeral cs stop := by
  unfold fractionPart at fraction
  split at fraction
  · rename_i isDot
    obtain ⟨r, next⟩ := List.head?_eq_some_iff.mp isDot
    exact isNumeral_digitsAt (isNumeric_of_take before.numeric next (by decide)) fraction
  · cases fraction
    exact before

theorem isNumeral_exponentPart {cs : List Char} {start stop : Nat} (before : IsNumeral cs start)
    (exponent : exponentPart cs start = .ok stop) : IsNumeral cs stop := by
  unfold exponentPart at exponent
  split at exponent
  · rename_i e r next
    split at exponent
    · rename_i isE
      have numeric : isNumeric e = true := by
        simp only [Bool.or_eq_true] at isE
        simp only [isNumeric, Bool.or_eq_true]
        rcases isE with same | same <;> simp [same]
      have first := isNumeric_of_take before.numeric next numeric
      have rest : cs.drop (start + 1) = r := by rw [← List.drop_drop, next]; rfl
      have signed {sign : Char} (isSign : r.head? = some sign) (numeric : isNumeric sign = true)
          (digits : digitsAt cs (start + 2) = .ok stop) : IsNumeral cs stop := by
        obtain ⟨r', after⟩ := List.head?_eq_some_iff.mp isSign
        exact isNumeral_digitsAt (isNumeric_of_take first (rest.trans after) numeric) digits
      split at exponent
      · exact signed ‹_› (by decide) exponent
      · exact signed ‹_› (by decide) exponent
      · exact isNumeral_digitsAt first exponent
    · cases exponent
      exact before
  · cases exponent
    exact before

def Lexeme.isNumber : Lexeme → Bool
  | int _ | float _ => true
  | _ => false

theorem isNumeric_sign {cs : List Char} :
    ∀ c ∈ cs.take (if cs.head? = some '-' then 1 else 0), isNumeric c = true := by
  intro c member
  split at member
  · rename_i isMinus
    obtain ⟨r, rfl⟩ := List.head?_eq_some_iff.mp isMinus
    simp only [List.take_succ_cons, List.take_zero, List.mem_singleton] at member
    exact member ▸ by decide
  · cases member

theorem isNumeral_number {cs : List Char} {read : Lexeme} {n : Nat}
    (isNumber : number cs = .ok (read, n)) : read.isNumber = true ∧ IsNumeral cs (n + 1) := by
  unfold number at isNumber
  obtain ⟨first, whole, isNumber⟩ := bind_eq_ok isNumber
  obtain ⟨second, fraction, isNumber⟩ := bind_eq_ok isNumber
  obtain ⟨stop, exponent, isNumber⟩ := bind_eq_ok isNumber
  have numeral := isNumeral_exponentPart (isNumeral_fractionPart
    (isNumeral_integerPart isNumeric_sign whole) fraction) exponent
  have positive : 0 < stop := by
    obtain ⟨-, ⟨d, isLast, -⟩, -⟩ := numeral
    cases stop with
    | zero => cases isLast
    | succ stop => exact Nat.succ_pos stop
  dsimp only at isNumber
  split at isNumber
  · cases isNumber
  · cases isNumber
    rw [Nat.sub_add_cancel positive]
    refine ⟨?_, numeral⟩
    split <;> rfl

/-! ### Strings, character by character -/

section
variable {c value : Char} {rest cs : List Char} {distance ahead stop n : Nat}

/-- A character of a string that neither ends it nor belongs to an escape before it: the character
that it stands for, and how many characters behind it belong to it. -/
inductive StringStep (c : Char) (rest : List Char) : Char → Nat → Prop
  | escape {value : Char} {n : Nat} (isEscape : c = '\\') (escaped : escape rest = .ok (value, n)) :
    StringStep c rest value n
  | plain (notQuote : c ≠ '"') (notEnd : isLineEnd c = false) (notEscape : c ≠ '\\') :
    StringStep c rest c 0

theorem StringStep.stringBody_eq (step : StringStep c rest value n) (distance : Nat) :
    stringBody distance 0 (c :: rest) =
      (stringBody (distance + 1) n rest).map fun (cs, stop) => (value :: cs, stop) := by
  cases step with
  | escape isEscape escaped =>
    subst isEscape
    rw [stringBody, escaped]
    rfl
  | plain notQuote notEnd notEscape =>
    rw [stringBody, beq_false_of_ne notQuote, notEnd, beq_false_of_ne notEscape]
    rfl

/-- A string closes here, or it goes on behind this character. -/
theorem stringBody_cons_ok (closes : stringBody distance 0 (c :: rest) = .ok (cs, stop)) :
    (c = '"' ∧ stop = distance) ∨ ∃ value n more, StringStep c rest value n ∧
      stringBody (distance + 1) n rest = .ok (more, stop) ∧ cs = value :: more := by
  rw [stringBody] at closes
  split at closes
  · rename_i isQuote
    cases closes
    exact .inl ⟨eq_of_beq isQuote, rfl⟩
  rename_i notQuote
  split at closes
  · cases closes
  rename_i notEnd
  right
  split at closes
  · rename_i isEscape
    split at closes
    · cases closes
    · rename_i value n escaped
      obtain ⟨⟨more, stop⟩, body, made⟩ := map_eq_ok closes
      cases made
      exact ⟨value, n, more, .escape (eq_of_beq isEscape) escaped, body, rfl⟩
  · rename_i notEscape
    obtain ⟨⟨more, stop⟩, body, made⟩ := map_eq_ok closes
    cases made
    exact ⟨c, 0, more, .plain (mt beq_iff_eq.mpr notQuote) (Bool.eq_false_iff.mpr notEnd)
      (mt beq_iff_eq.mpr notEscape), body, rfl⟩

/-- A character of a block string that neither ends it nor belongs to what stands before it: how
many characters behind it belong to it, and what becomes of the lines. -/
inductive BlockStep (c : Char) (rest : List Char) :
    Nat → (List (List Char) → List (List Char)) → Prop
  | quotes (isEscape : c = '\\') (escapes : rest.take 3 = ['"', '"', '"']) :
    BlockStep c rest 3 fun lines => consFirst '"' (consFirst '"' (consFirst '"' lines))
  | feed (isReturn : c = '\r') (isFeed : rest.head? = some '\n') : BlockStep c rest 1 ([] :: ·)
  | lineEnd (isEnd : isLineEnd c = true) (alone : ¬ (c = '\r' ∧ rest.head? = some '\n')) :
    BlockStep c rest 0 ([] :: ·)
  | plain (notClosing : ¬ (c = '"' ∧ rest.take 2 = ['"', '"'])) (notEnd : isLineEnd c = false)
    (notEscape : ¬ (c = '\\' ∧ rest.take 3 = ['"', '"', '"'])) : BlockStep c rest 0 (consFirst c)

theorem BlockStep.blockBody_eq {f : List (List Char) → List (List Char)}
    (step : BlockStep c rest ahead f) : blockBody 0 (c :: rest) =
      (blockBody ahead rest).map fun (lines, n) => (f lines, n + 1) := by
  cases step with
  | quotes isEscape escapes =>
    subst isEscape
    rw [blockBody, escapes]
    rfl
  | feed isReturn isFeed =>
    subst isReturn
    rw [blockBody, isFeed]
    rfl
  | lineEnd isEnd alone =>
    rw [isLineEnd, Bool.or_eq_true, beq_iff_eq, beq_iff_eq] at isEnd
    rcases isEnd with rfl | rfl
    · rfl
    · rw [blockBody, beq_false_of_ne fun isFeed => alone ⟨rfl, isFeed⟩]
      rfl
  | plain notClosing notEnd notEscape =>
    have closing : (c == '"' && rest.take 2 == ['"', '"']) = false := by simpa using notClosing
    have escapes : (c == '\\' && rest.take 3 == ['"', '"', '"']) = false := by simpa using notEscape
    have isReturn : (c == '\r') = false := (Bool.or_eq_false_iff.mp notEnd).2
    rw [blockBody, closing, escapes, isReturn, notEnd]
    rfl

theorem exists_blockStep (notClosing : ¬ (c = '"' ∧ rest.take 2 = ['"', '"'])) :
    ∃ ahead f, BlockStep c rest ahead f := by
  by_cases escapes : c = '\\' ∧ rest.take 3 = ['"', '"', '"']
  · exact ⟨_, _, .quotes escapes.1 escapes.2⟩
  by_cases isFeed : c = '\r' ∧ rest.head? = some '\n'
  · exact ⟨_, _, .feed isFeed.1 isFeed.2⟩
  cases isEnd : isLineEnd c with
  | true => exact ⟨_, _, .lineEnd isEnd isFeed⟩
  | false => exact ⟨_, _, .plain notClosing isEnd escapes⟩

end
/-! ### Tokens -/

/-- The tokens that start with `c`, and how many characters of `rest` belong to them. -/
inductive IsLexeme (c : Char) (rest : List Char) : Lexeme → Nat → Prop
  | mark {p : Punctuator} (isMark : Punctuator.ofChar? c = some p) : IsLexeme c rest (.mark p) 0
  | spread (isDot : c = '.') (isSpread : rest.take 2 = ['.', '.']) :
      IsLexeme c rest (.mark .spread) 2
  | blockString {value : String} {n : Nat} (isQuote : c = '"') (opens : rest.take 2 = ['"', '"'])
      (closes : (blockBody 0 (rest.drop 2)).map (·.2) = some n) :
      IsLexeme c rest (.blockString value) (n + 2)
  | string {value : String} {n : Nat} (isQuote : c = '"') (single : rest.take 2 ≠ ['"', '"'])
      (closes : (stringBody 1 0 rest).map (·.2) = .ok n) : IsLexeme c rest (.string value) n
  | number {read : Lexeme} {n : Nat} (isNumber : read.isNumber = true)
      (isNumeral : IsNumeral (c :: rest) (n + 1)) : IsLexeme c rest read n
  | name (isStart : isNameStart c = true) : IsLexeme c rest
      (.name (String.ofList (c :: rest.takeWhile isNamePart))) (rest.takeWhile isNamePart).length

theorem isLexeme_of_lexeme {c : Char} {rest : List Char} {read : Lexeme} {n : Nat}
    (isLexeme : lexeme c rest = .ok (read, n)) : IsLexeme c rest read n := by
  unfold lexeme at isLexeme
  split at isLexeme
  · cases isLexeme
    exact .mark ‹_›
  · split at isLexeme
    · rename_i isDot
      split at isLexeme
      · cases isLexeme
        exact .spread (eq_of_beq isDot) (eq_of_beq ‹_›)
      · split at isLexeme
        · cases isLexeme
        · split at isLexeme <;> cases isLexeme
        · cases isLexeme
    · split at isLexeme
      · rename_i isQuote
        split at isLexeme
        · split at isLexeme
          · rename_i closes
            cases isLexeme
            exact .blockString (eq_of_beq isQuote) (eq_of_beq ‹_›) (by rw [closes]; rfl)
          · cases isLexeme
        · rename_i single
          cases body : stringBody 1 0 rest with
          | error e => rw [body] at isLexeme; cases isLexeme
          | ok result =>
            rw [body] at isLexeme
            cases isLexeme
            exact .string (eq_of_beq isQuote) (by simpa using single) (by rw [body]; rfl)
      · split at isLexeme
        · obtain ⟨isNumber, isNumeral⟩ := isNumeral_number isLexeme
          exact .number isNumber isNumeral
        · split at isLexeme
          · cases isLexeme
            exact .name ‹_›
          · split at isLexeme <;> cases isLexeme

theorem IsLexeme.ne_eof {c : Char} {rest : List Char} {read : Lexeme} {n : Nat}
    (isLexeme : IsLexeme c rest read n) : read ≠ .eof := by
  cases isLexeme with
  | number isNumber _ => rintro rfl; cases isNumber
  | _ => nofun

/-- Tokens lie one behind the other, the first of them not before `bound`. -/
structure AreOrdered (bound : Nat) (ts : List Token) : Prop where
  le_start : ∀ t ∈ ts, bound ≤ t.start
  start_lt : ∀ t ∈ ts, t.start < t.stop
  apart : ts.Pairwise fun t u => t.stop ≤ u.start

namespace AreOrdered

variable {bound lower : Nat} {t : Token} {ts us : List Token}

theorem mono (ordered : AreOrdered bound ts) (le : lower ≤ bound) : AreOrdered lower ts :=
  ⟨fun t member => Nat.le_trans le (ordered.le_start t member), ordered.start_lt, ordered.apart⟩

theorem cons (le : bound ≤ t.start) (lt : t.start < t.stop) (ordered : AreOrdered t.stop ts) :
    AreOrdered bound (t :: ts) := by
  refine ⟨?_, List.forall_mem_cons.mpr ⟨lt, ordered.start_lt⟩,
    List.pairwise_cons.mpr ⟨ordered.le_start, ordered.apart⟩⟩
  refine List.forall_mem_cons.mpr ⟨le, fun u member => ?_⟩
  have behind := ordered.le_start u member
  omega

end AreOrdered

theorem lexFrom_skip {offset skip : Nat} {text : List Char} (le : skip ≤ text.length) :
    lexFrom offset skip text = lexFrom (offset + skip) 0 (text.drop skip) := by
  induction text generalizing offset skip with
  | nil =>
    cases Nat.le_zero.mp le
    rfl
  | cons c rest ih =>
    cases skip with
    | zero => rfl
    | succ skip =>
      rw [List.drop_succ_cons, show offset + (skip + 1) = offset + 1 + skip by omega,
        ← ih (Nat.le_of_succ_le_succ le)]
      rfl

theorem areOrdered_lexFrom (offset skip : Nat) (text : List Char) :
    AreOrdered (offset + skip) (lexFrom offset skip text).tokens := by
  induction text generalizing offset skip with
  | nil => exact ⟨nofun, nofun, .nil⟩
  | cons c rest ih =>
    cases skip with
    | succ skip => exact (ih (offset + 1) skip).mono (by omega)
    | zero =>
      unfold lexFrom
      dsimp only
      split
      · exact (ih (offset + 1) 0).mono (by omega)
      · split
        · exact (ih (offset + 1) _).mono (by omega)
        · split
          · exact ⟨nofun, nofun, .nil⟩
          · exact .cons (Nat.le_refl _) (by dsimp only; omega) (ih (offset + 1) _)

/-- The end of a text is no token of it. -/
theorem ne_eof_of_mem_lexFrom {offset skip : Nat} {text : List Char} {t : Token}
    (member : t ∈ (lexFrom offset skip text).tokens) : t.lexeme ≠ .eof := by
  induction text generalizing offset skip with
  | nil => cases member
  | cons c rest ih =>
    cases skip with
    | succ skip => exact ih member
    | zero =>
      unfold lexFrom at member
      dsimp only at member
      split at member
      · exact ih member
      · split at member
        · exact ih member
        · split at member
          · cases member
          · rename_i isLexeme
            rcases List.mem_cons.mp member with rfl | later
            · exact (isLexeme_of_lexeme isLexeme).ne_eof
            · exact ih later

theorem eof_of_ending_lexFrom {offset skip : Nat} {text : List Char} {t : Token}
    (ends : (lexFrom offset skip text).ending = .ok t) : t.lexeme = .eof := by
  induction text generalizing offset skip with
  | nil => cases ends; rfl
  | cons c rest ih =>
    cases skip with
    | succ skip => exact ih ends
    | zero =>
      unfold lexFrom at ends
      dsimp only at ends
      split at ends
      · exact ih ends
      · split at ends
        · exact ih ends
        · split at ends
          · cases ends
          · exact ih ends

end InlineQuery.Query
