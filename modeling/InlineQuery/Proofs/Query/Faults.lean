import InlineQuery.Proofs.Query.Lexing
import InlineQuery.Proofs.Query.Reading

/-!
A text that is not GraphQL is blamed on one of its characters or on its end. Reading a token fails
on a character of the text, and a parser fails on a token ahead or where reading the tokens failed.
-/

namespace InlineQuery.Query

/-! ### Tokens -/

variable {cs : List Char}

theorem digitsAt_error {start : Nat} {e : Nat × Fault} (le : start ≤ cs.length)
    (failed : digitsAt cs start = .error e) : e.1 ≤ cs.length := by
  unfold digitsAt at failed
  dsimp only at failed
  split at failed <;> cases failed
  exact le

theorem integerPart_error {start : Nat} {e : Nat × Fault} (le : start ≤ cs.length)
    (failed : integerPart cs start = .error e) : e.1 ≤ cs.length := by
  unfold integerPart at failed
  split at failed
  · rename_i isZero
    have length := length_of_drop isZero
    split at failed <;> cases failed
    dsimp only
    omega
  · exact digitsAt_error le failed

theorem fractionPart_error {start : Nat} {e : Nat × Fault}
    (failed : fractionPart cs start = .error e) : e.1 ≤ cs.length := by
  unfold fractionPart at failed
  split at failed
  · rename_i isDot
    obtain ⟨rest, next⟩ := List.head?_eq_some_iff.mp isDot
    have length := length_of_drop next
    exact digitsAt_error (by omega) failed
  · cases failed

theorem exponentPart_error {start : Nat} {e : Nat × Fault}
    (failed : exponentPart cs start = .error e) : e.1 ≤ cs.length := by
  unfold exponentPart at failed
  split at failed
  · rename_i mark rest next
    have length := length_of_drop next
    have signed {sign : Char} (isSign : rest.head? = some sign)
        (failed : digitsAt cs (start + 2) = .error e) : e.1 ≤ cs.length := by
      obtain ⟨more, isRest⟩ := List.head?_eq_some_iff.mp isSign
      rw [isRest, List.length_cons] at length
      exact digitsAt_error (by omega) failed
    split at failed
    · split at failed
      · exact signed ‹_› failed
      · exact signed ‹_› failed
      · exact digitsAt_error (by omega) failed
    · cases failed
  · cases failed

theorem number_error {e : Nat × Fault} (failed : number cs = .error e) : e.1 ≤ cs.length := by
  unfold number at failed
  have start : (if cs.head? = some '-' then 1 else 0) ≤ cs.length := by
    split
    · rename_i isMinus
      obtain ⟨r, rfl⟩ := List.head?_eq_some_iff.mp isMinus
      exact Nat.le_add_left ..
    · exact Nat.zero_le _
  rcases bind_eq_error failed with failed | ⟨whole, isWhole, failed⟩
  · exact integerPart_error start failed
  rcases bind_eq_error failed with failed | ⟨fraction, isFraction, failed⟩
  · exact fractionPart_error failed
  rcases bind_eq_error failed with failed | ⟨stop, isExponent, failed⟩
  · exact exponentPart_error failed
  have numeral := isNumeral_exponentPart (isNumeral_fractionPart
    (isNumeral_integerPart isNumeric_sign isWhole) isFraction) isExponent
  dsimp only at failed
  split at failed <;> cases failed
  exact numeral.le_length

theorem stringBody_error {distance skip : Nat} {text : List Char} {e : Nat × Fault}
    (failed : stringBody distance skip text = .error e) : e.1 ≤ distance + text.length := by
  induction text generalizing distance skip with
  | nil =>
    cases failed
    exact Nat.le_refl _
  | cons c rest ih =>
    have inRest {skip : Nat} (failed : stringBody (distance + 1) skip rest = .error e) :
        e.1 ≤ distance + (c :: rest).length := by
      have le := ih failed
      rw [List.length_cons]
      omega
    have mapped {skip : Nat} {f : List Char × Nat → List Char × Nat}
        (failed : (stringBody (distance + 1) skip rest).map f = .error e) :
        e.1 ≤ distance + (c :: rest).length := by
      cases body : stringBody (distance + 1) skip rest with
      | ok result => rw [body] at failed; cases failed
      | error e' =>
        rw [body] at failed
        cases failed
        exact inRest body
    have here {fault : Fault} (same : e = (distance, fault)) :
        e.1 ≤ distance + (c :: rest).length := by
      rw [same]
      exact Nat.le_add_right ..
    cases skip with
    | succ skip => exact inRest failed
    | zero =>
      unfold stringBody at failed
      dsimp only at failed
      split at failed
      · cases failed
      · split at failed
        · exact here (Except.error.inj failed).symm
        · split at failed
          · split at failed
            · exact here (Except.error.inj failed).symm
            · exact mapped failed
          · exact mapped failed

/-- Reading a token fails on one of the characters from its first on, or where they end. -/
theorem lexeme_error {c : Char} {rest : List Char} {e : Nat × Fault}
    (failed : lexeme c rest = .error e) : e.1 ≤ (c :: rest).length := by
  have here {fault : Fault} (same : .error (0, fault) = (.error e : Reads Lexeme)) :
      e.1 ≤ (c :: rest).length := by
    rw [← Except.error.inj same]
    exact Nat.zero_le _
  unfold lexeme at failed
  split at failed
  · cases failed
  · split at failed
    · split at failed
      · cases failed
      · split at failed
        · exact here failed
        · split at failed <;> exact here failed
        · exact here failed
    · split at failed
      · split at failed
        · split at failed <;> cases failed
          exact Nat.le_refl _
        · cases body : stringBody 1 0 rest with
          | ok result => rw [body] at failed; cases failed
          | error e' =>
            rw [body] at failed
            cases failed
            have le := stringBody_error body
            rw [List.length_cons]
            omega
      · split at failed
        · exact number_error failed
        · split at failed
          · cases failed
          · split at failed <;> exact here failed

/-- The tokens and what follows them lie in the first characters of a text. -/
structure Cursor.IsWithin (n : Nat) (s : Cursor) : Prop where
  tokens : ∀ t ∈ s.tokens, t.start ≤ n
  ending : ∀ t, s.ending = .ok t → t.start ≤ n
  fault : ∀ e, s.ending = .error e → e.position ≤ n

theorem isWithin_lexFrom (offset skip last : Nat) (text : List Char) :
    Cursor.IsWithin (offset + text.length)
      ⟨(lexFrom offset skip text).tokens, (lexFrom offset skip text).ending, last⟩ := by
  induction text generalizing offset skip with
  | nil => exact ⟨nofun, fun t ends => by cases ends; exact Nat.le_refl _, nofun⟩
  | cons c rest ih =>
    have later (skip : Nat) := ih (offset + 1) skip
    have length : offset + 1 + rest.length = offset + (c :: rest).length := by
      rw [List.length_cons]
      omega
    rw [length] at later
    cases skip with
    | succ skip => exact later skip
    | zero =>
      unfold lexFrom
      dsimp only
      split
      · exact later 0
      · split
        · exact later _
        · split
          · rename_i failed
            have le := lexeme_error failed
            refine ⟨nofun, nofun, fun e same => ?_⟩
            cases same
            exact Nat.add_le_add_left le offset
          · rename_i n _
            exact ⟨List.forall_mem_cons.mpr ⟨Nat.le_add_right .., (later n).tokens⟩,
              (later n).ending, (later n).fault⟩

/-! ### Parsers -/

namespace Parser

variable {α β : Type} {n : Nat}

/-- From tokens in the first characters of a text, the parser goes on among them, or blames one. -/
structure Blames (n : Nat) (p : Parser α) : Prop where
  goes : ∀ ⦃s a next⦄, s.IsWithin n → p s = .ok (a, next) → next.IsWithin n
  blames : ∀ ⦃s e⦄, s.IsWithin n → p s = .error e → e.position ≤ n

theorem bind_error {p : Parser α} {f : α → Parser β} {s : Cursor} {e : SyntaxError}
    (failed : (p >>= f) s = .error e) :
    p s = .error e ∨ ∃ a middle, p s = .ok (a, middle) ∧ f a middle = .error e := by
  rcases bind_eq_error (f := fun r : α × Cursor => f r.1 r.2) failed with first | ⟨⟨a, middle⟩, both⟩
  · exact .inl first
  · exact .inr ⟨a, middle, both⟩

namespace Blames

variable {p : Parser α} {f : α → Parser β}

theorem pure {a : α} : Blames n (Pure.pure a) where
  goes s b next within ran := by
    cases ran
    exact within
  blames s e _ failed := by cases failed

theorem fail {position : Nat} {fault : Fault} (le : position ≤ n) :
    Blames n (fail position fault : Parser α) where
  goes s a next _ ran := by cases ran
  blames s e _ failed := by
    cases failed
    exact le

theorem bind (first : Blames n p) (second : ∀ a, Blames n (f a)) : Blames n (p >>= f) where
  goes s b next within ran := by
    obtain ⟨a, middle, ranFirst, ranSecond⟩ := bind_ok ran
    exact (second a).goes (first.goes within ranFirst) ranSecond
  blames s e within failed := by
    rcases bind_error failed with failed | ⟨a, middle, ranFirst, failed⟩
    · exact first.blames within failed
    · exact (second a).blames (first.goes within ranFirst) failed

theorem map (first : Blames n p) (g : α → β) : Blames n (g <$> p) := by
  rw [map_eq_pure_bind]
  exact first.bind fun _ => .pure

/-- A look at one of the tokens ahead. -/
theorem look {look : Parser Token} {f : Token → Parser α}
    (looks : ∀ ⦃s⦄, s.IsWithin n → (∃ t, look s = .ok (t, s) ∧ t.start ≤ n) ∨
      ∃ e, look s = .error e ∧ e.position ≤ n)
    (next : ∀ t, t.start ≤ n → Blames n (f t)) : Blames n (look >>= f) where
  goes s a after within ran := by
    obtain ⟨t, middle, ranFirst, ranSecond⟩ := bind_ok ran
    rcases looks within with ⟨u, saw, le⟩ | ⟨e, failed, -⟩
    · cases saw.symm.trans ranFirst
      exact (next _ le).goes within ranSecond
    · cases failed.symm.trans ranFirst
  blames s e within failed := by
    rcases bind_error failed with failed | ⟨t, middle, ranFirst, failed⟩
    · rcases looks within with ⟨u, saw, -⟩ | ⟨e', failed', le⟩
      · cases saw.symm.trans failed
      · cases failed'.symm.trans failed
        exact le
    · rcases looks within with ⟨u, saw, le⟩ | ⟨e', failed', -⟩
      · cases saw.symm.trans ranFirst
        exact (next _ le).blames within failed
      · cases failed'.symm.trans ranFirst

/-- What is seen behind the last token is the end of the text or a fault. -/
theorem ending_looks {s : Cursor} (within : s.IsWithin n) :
    (∃ t, s.ending.map (·, s) = .ok (t, s) ∧ t.start ≤ n) ∨
      ∃ e, s.ending.map (·, s) = .error e ∧ e.position ≤ n := by
  cases ending : s.ending with
  | ok t => exact .inl ⟨t, rfl, within.ending t ending⟩
  | error e => exact .inr ⟨e, rfl, within.fault e ending⟩

theorem peek {f : Token → Parser α} (next : ∀ t, t.start ≤ n → Blames n (f t)) :
    Blames n (peek >>= f) := by
  refine look (fun s within => ?_) next
  unfold Parser.peek
  split
  · rename_i t ts tokens
    exact .inl ⟨t, rfl, within.tokens t (tokens ▸ List.mem_cons_self)⟩
  · exact ending_looks within

theorem peekSecond {f : Token → Parser α} (next : ∀ t, t.start ≤ n → Blames n (f t)) :
    Blames n (peekSecond >>= f) := by
  refine look (fun s within => ?_) next
  unfold Parser.peekSecond
  split
  · rename_i t ts tokens
    exact .inl ⟨t, rfl, within.tokens t (tokens ▸ List.mem_cons_of_mem _ List.mem_cons_self)⟩
  · exact ending_looks within

theorem advance : Blames n advance where
  goes s a next within ran := by
    unfold Parser.advance at ran
    split at ran
    · cases ran
      exact within
    · rename_i t ts tokens
      have rest : Cursor.IsWithin n { s with tokens := ts, last := t.stop } :=
        ⟨fun u member => within.tokens u (tokens ▸ List.mem_cons_of_mem t member), within.ending,
          within.fault⟩
      dsimp only at ran
      split at ran
      · cases ending : s.ending <;> rw [ending] at ran <;> cases ran
        exact ending ▸ rest
      · cases ran
        exact rest
  blames s e within failed := by
    unfold Parser.advance at failed
    split at failed
    · cases failed
    · dsimp only at failed
      split at failed
      · cases ending : s.ending with
        | ok t => rw [ending] at failed; cases failed
        | error e' =>
          rw [ending] at failed
          cases failed
          exact within.fault e ending
      · cases failed

theorem unexpectedToken {t : Token} (le : t.start ≤ n) :
    Blames n (unexpectedToken t : Parser α) := fail le

theorem unexpected : Blames n (unexpected : Parser α) := peek fun _ le => unexpectedToken le

theorem tooDeep : Blames n (tooDeep : Parser α) := peek fun _ le => fail le

end Blames

end Parser

end InlineQuery.Query
