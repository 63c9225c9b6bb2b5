import InlineQuery.Literal.Definitions
import InlineQuery.Proofs.Query.Lexing

/-!
The splitter ends a string without reading its escapes. On every string that is valid it finds the
same end.
-/

namespace InlineQuery.Definitions

open Query (blockBody stringBody escape bracedEscape fixedEscape fourHex? hexValue? isLineEnd)

/-! ### Block strings -/

theorem blockBody_skip (skip : Nat) (text : List Char) :
    (blockBody skip text).map (·.2) = (blockBody 0 (text.drop skip)).map (·.2 + skip) := by
  induction text generalizing skip with
  | nil => cases skip <;> rfl
  | cons c rest ih =>
    cases skip with
    | zero => rfl
    | succ skip =>
      rw [blockBody, Option.map_map, List.drop_succ_cons]
      have step := congrArg (Option.map (· + 1)) (ih skip)
      rw [Option.map_map, Option.map_map] at step
      exact step

/-- Three quotes behind a backslash are passed over. -/
theorem blockStringRest_eq (previous : Char) (text : List Char) :
    blockStringRest previous text =
      if previous = '\\' ∧ text.take 3 = ['"', '"', '"'] then
        (blockBody 0 (text.drop 3)).map (·.2 + 3)
      else (blockBody 0 text).map (·.2) := by
  fun_induction blockStringRest previous text with
  | case1 r ih =>
    rw [ih, if_neg (fun both => absurd both.1 (by decide)), if_pos ⟨rfl, rfl⟩, Option.map_map]
    rfl
  | case2 previous r free =>
    rw [if_neg (fun both => free both.1)]
    rfl
  | case3 previous c r notQuotes ih =>
    have notClosing : ¬ (c = '"' ∧ r.take 2 = ['"', '"']) := by
      rintro ⟨isQuote, quotes⟩
      match r, quotes with
      | _ :: _ :: r, rfl => exact notQuotes r isQuote rfl
    have notAll : ¬ (c :: r).take 3 = ['"', '"', '"'] := by
      intro all
      rw [List.take_succ_cons, List.cons.injEq] at all
      exact notClosing ⟨all.1, all.2⟩
    obtain ⟨ahead, f, step⟩ := Query.exists_blockStep notClosing
    have goesOn : (blockBody 0 (c :: r)).map (·.2) =
        ((blockBody 0 (r.drop ahead)).map (·.2 + ahead)).map (· + 1) := by
      rw [step.blockBody_eq, ← blockBody_skip, Option.map_map, Option.map_map]
      rfl
    rw [if_neg fun both => notAll both.2, goesOn, ih]
    cases step with
    | quotes isEscape escapes => rw [if_pos ⟨isEscape, escapes⟩]
    | feed isReturn isFeed =>
      obtain ⟨r', rfl⟩ := List.head?_eq_some_iff.mp isFeed
      have isEnd : isLineEnd '\n' = true := rfl
      rw [if_neg fun both => absurd (isReturn.symm.trans both.1) (by decide)]
      simp [blockBody, isEnd, Option.map_map, Function.comp_def]
    | lineEnd isEnd _ =>
      have notEscape : c ≠ '\\' := by rintro rfl; cases isEnd
      rw [if_neg fun both => notEscape both.1]
      rfl
    | plain _ _ notEscape =>
      rw [if_neg notEscape]
      rfl
  | case4 => simp [blockBody]

/-! ### Strings on one line -/

/-- Characters that neither end a string nor escape the next one. -/
def isContent (c : Char) : Bool := c != '"' && c != '\n' && c != '\\'

theorem stringRest_append {before : List Char} (all : ∀ c ∈ before, isContent c = true)
    (after : List Char) : stringRest (before ++ after) = before.length + stringRest after := by
  induction before with
  | nil => simp
  | cons c before ih =>
    obtain ⟨isContent, rest⟩ := List.forall_mem_cons.mp all
    simp only [Definitions.isContent, Bool.and_eq_true, bne_iff_ne, ne_eq] at isContent
    obtain ⟨⟨notQuote, notFeed⟩, notEscape⟩ := isContent
    rw [List.cons_append, stringRest]
    · simp only [beq_iff_eq, notQuote, notFeed, or_self, Bool.or_eq_true, if_false, ih rest,
        List.length_cons]
      omega
    · rintro rfl
      exact absurd rfl notEscape
    · rintro _ _ rfl
      exact absurd rfl notEscape

theorem isContent_of_hexValue {c : Char} {n : Nat} (isHex : hexValue? c = some n) :
    isContent c = true := by
  simp only [isContent, Bool.and_eq_true, bne_iff_ne, ne_eq]
  refine ⟨⟨?_, ?_⟩, ?_⟩ <;> rintro rfl <;> cases isHex

/-- A number of characters of a text that are all content. -/
def IsContent (n : Nat) (text : List Char) : Prop :=
  n ≤ text.length ∧ ∀ c ∈ text.take n, isContent c = true

theorem IsContent.cons {n : Nat} {c : Char} {rest : List Char} (first : isContent c = true)
    (more : IsContent n rest) : IsContent (n + 1) (c :: rest) :=
  ⟨Nat.succ_le_succ more.1, by
    rw [List.take_succ_cons]
    exact List.forall_mem_cons.mpr ⟨first, more.2⟩⟩

theorem IsContent.stringRest {n : Nat} {text : List Char} (content : IsContent n text) :
    Definitions.stringRest text = n + Definitions.stringRest (text.drop n) := by
  have parts := stringRest_append content.2 (text.drop n)
  rwa [List.take_append_drop, List.length_take, Nat.min_eq_left content.1] at parts

theorem isContent_fourHex {text : List Char} {n : Nat} (isHex : fourHex? text = some n) :
    IsContent 4 text := by
  unfold fourHex? at isHex
  split at isHex
  · rename_i a b c d rest
    simp only [Option.bind_eq_bind, Option.bind_eq_some_iff] at isHex
    obtain ⟨_, isA, _, isB, _, isC, _, isD, -⟩ := isHex
    have nothing : IsContent 0 rest := ⟨Nat.zero_le _, nofun⟩
    exact (((nothing.cons (isContent_of_hexValue isD)).cons (isContent_of_hexValue isC)).cons
      (isContent_of_hexValue isB)).cons (isContent_of_hexValue isA)
  · cases isHex

theorem isContent_bracedEscape {point seen room n : Nat} {text : List Char} {value : Char}
    (escaped : bracedEscape point seen room text = .ok (value, n)) :
    ∃ m, n = seen + m ∧ IsContent m text := by
  induction room generalizing point seen text with
  | zero => cases escaped
  | succ room ih =>
    cases text with
    | nil => cases escaped
    | cons c rest =>
      unfold bracedEscape at escaped
      split at escaped
      · rename_i isBrace
        split at escaped
        · split at escaped
          · cases escaped
          · cases escaped
            exact ⟨1, rfl, .cons (eq_of_beq isBrace ▸ by decide) ⟨Nat.zero_le _, nofun⟩⟩
        · cases escaped
      · split at escaped
        · rename_i digit isHex
          obtain ⟨m, count, content⟩ := ih escaped
          exact ⟨m + 1, by omega, content.cons (isContent_of_hexValue isHex)⟩
        · cases escaped

theorem stringRest_fixedEscape {digits : List Char} {value : Char} {n : Nat}
    (escaped : fixedEscape digits = .ok (value, n)) :
    n ≤ digits.length ∧ stringRest digits = n + stringRest (digits.drop n) := by
  unfold fixedEscape at escaped
  dsimp only at escaped
  split at escaped
  · cases escaped
  · rename_i code isCode
    have first := isContent_fourHex isCode
    split at escaped
    · cases escaped
      exact ⟨first.1, first.stringRest⟩
    · split at escaped
      · rename_i isPair
        split at escaped
        · cases escaped
        · rename_i low isLow
          split at escaped
          · obtain rfl : 10 = n := (Prod.mk.inj (Except.ok.inj escaped)).2
            have second := isContent_fourHex isLow
            -- Between the two groups of digits stands another escape sign.
            obtain ⟨rest, sign⟩ : ∃ rest, digits.drop 4 = '\\' :: 'u' :: rest := by
              have two := isPair.2
              match between : digits.drop 4 with
              | _ :: _ :: rest => rw [between] at two; cases two; exact ⟨rest, rfl⟩
              | [_] | [] => rw [between] at two; cases two
            have behind : digits.drop 6 = rest := by
              rw [show 6 = 4 + 2 from rfl, ← List.drop_drop, sign]
              rfl
            have room := second.1
            rw [List.length_drop] at room
            refine ⟨by omega, ?_⟩
            rw [first.stringRest, sign, stringRest, ← behind, second.stringRest, List.drop_drop,
              show 6 + 4 = 10 from rfl]
            omega
          · cases escaped
      · cases escaped

/-- The splitter steps over the character behind a backslash and then over the rest of the escape as
over any content. -/
theorem stringRest_escape {text : List Char} {value : Char} {n : Nat}
    (escaped : escape text = .ok (value, n)) :
    0 < n ∧ n ≤ text.length ∧ stringRest (text.drop 1) + 1 = n + stringRest (text.drop n) := by
  unfold escape at escaped
  split at escaped
  · cases escaped
  · rename_i r
    split at escaped
    · rename_i m isBraced
      cases escaped
      obtain ⟨m, rfl, content⟩ := isContent_bracedEscape isBraced
      have whole : IsContent (m + 1) ('{' :: r) := content.cons (by decide)
      have room := whole.1
      refine ⟨by omega, by simp only [List.length_cons] at room ⊢; omega, ?_⟩
      have rest := whole.stringRest
      simp only [List.drop_succ_cons, List.drop_zero, Nat.zero_add] at rest ⊢
      omega
    · cases escaped
  · rename_i r _
    cases isFixed : fixedEscape r with
    | error e => rw [isFixed] at escaped; cases escaped
    | ok result =>
      obtain ⟨character, length⟩ := result
      rw [isFixed] at escaped
      cases escaped
      obtain ⟨room, rest⟩ := stringRest_fixedEscape isFixed
      refine ⟨by omega, by simpa using room, ?_⟩
      simp only [List.drop_succ_cons, List.drop_zero]
      omega
  · split at escaped
    · cases escaped
      exact ⟨by omega, by simp, by omega⟩
    · cases escaped

theorem stringBody_skip (distance skip : Nat) {text : List Char} (le : skip ≤ text.length) :
    stringBody distance skip text = stringBody (distance + skip) 0 (text.drop skip) := by
  induction text generalizing distance skip with
  | nil =>
    cases Nat.le_zero.mp le
    rfl
  | cons c rest ih =>
    cases skip with
    | zero => rfl
    | succ skip =>
      rw [stringBody, ih _ _ (Nat.le_of_succ_le_succ le), List.drop_succ_cons]
      congr 1
      omega

/-- A valid string ends where the splitter ends it. -/
theorem stringRest_eq {distance stop : Nat} {text : List Char}
    (closes : (stringBody distance 0 text).map (·.2) = .ok stop) :
    stop + 1 = distance + stringRest text := by
  induction length : text.length using Nat.strongRecOn generalizing distance text with
  | ind size ih =>
    subst length
    cases text with
    | nil => cases closes
    | cons c rest =>
      obtain ⟨⟨cs, _⟩, read, same⟩ := map_eq_ok closes
      obtain rfl : stop = _ := same.symm
      rcases Query.stringBody_cons_ok read with ⟨rfl, rfl⟩ | ⟨value, n, more, step, body, rfl⟩
      · rfl
      -- Whatever comes first, the body of the string goes on behind it.
      have later (le : n ≤ rest.length) :
          stop + 1 = distance + 1 + n + stringRest (rest.drop n) := by
        refine ih _ (by simp only [List.length_drop, List.length_cons]; omega) ?_ rfl
        rw [← stringBody_skip _ _ le, body]
        rfl
      cases step with
      | escape isEscape escaped =>
        obtain ⟨positive, room, after⟩ := stringRest_escape escaped
        have behind := later room
        obtain ⟨x, rest, rfl⟩ := List.exists_cons_of_length_pos (Nat.lt_of_lt_of_le positive room)
        rw [isEscape, stringRest]
        simp only [List.drop_succ_cons, List.drop_zero] at after
        omega
      | plain notQuote notEnd notEscape =>
        have behind := later (Nat.zero_le _)
        have content : isContent c = true := by
          simp only [isLineEnd, Bool.or_eq_false_iff, beq_eq_false_iff_ne] at notEnd
          simp [isContent, notQuote, notEnd, notEscape]
        rw [show c :: rest = [c] ++ rest from rfl, stringRest_append (by simpa using content)]
        simpa [Nat.add_assoc] using behind

end InlineQuery.Definitions
