import InlineQuery.Proofs.Query.Shape
import InlineQuery.Query.Parser

/-!
What a parser takes from the tokens ahead when it succeeds. A parser of a construct is described by
the token lists that it may take, and these are put together as the parser is.
-/

namespace InlineQuery.Query

/-- Where the last of some tokens ends, if there is one. -/
def lastStop (before : Nat) (ts : List Token) : Nat := (ts.getLast?.map (·.stop)).getD before

theorem lastStop_append (before : Nat) (us vs : List Token) :
    lastStop before (us ++ vs) = lastStop (lastStop before us) vs := by
  unfold lastStop
  rw [List.getLast?_append]
  cases vs.getLast? <;> simp

namespace Cursor

/-- What comes after the tokens is the end of the text or a fault. -/
def IsSound (s : Cursor) : Prop := ∀ t, s.ending = .ok t → t.lexeme = .eof

/-- From one cursor to a later one some tokens are taken. -/
structure Takes (s : Cursor) (used : List Token) (next : Cursor) : Prop where
  tokens : s.tokens = used ++ next.tokens
  ending : next.ending = s.ending
  last : next.last = lastStop s.last used

namespace Takes

variable {s middle next : Cursor} {us vs : List Token}

theorem nothing (s : Cursor) : s.Takes [] s := ⟨rfl, rfl, rfl⟩

theorem trans (first : s.Takes us middle) (second : middle.Takes vs next) :
    s.Takes (us ++ vs) next where
  tokens := by rw [first.tokens, second.tokens, List.append_assoc]
  ending := second.ending.trans first.ending
  last := by rw [second.last, first.last, lastStop_append]

theorem isSound (takes : s.Takes us next) (sound : s.IsSound) : next.IsSound := by
  intro t ends
  exact sound t (takes.ending ▸ ends)

end Takes

end Cursor

namespace Parser

variable {α β : Type}

/-- When the parser succeeds, what it returns fits the tokens that it takes. -/
def Reads (p : Parser α) (fits : α → List Token → Prop) : Prop :=
  ∀ ⦃s a next⦄, s.IsSound → p s = .ok (a, next) → ∃ used, s.Takes used next ∧ fits a used

/-- The same where `t` comes next. -/
def ReadsAt (t : Token) (p : Parser α) (fits : α → List Token → Prop) : Prop :=
  ∀ ⦃s a next⦄, s.IsSound → peek s = .ok (t, s) → p s = .ok (a, next) →
    ∃ used, s.Takes used next ∧ fits a used

theorem bind_ok {p : Parser α} {f : α → Parser β} {s next : Cursor} {b : β}
    (ran : (p >>= f) s = .ok (b, next)) : ∃ a middle, p s = .ok (a, middle) ∧
      f a middle = .ok (b, next) := by
  cases first : p s with
  | error e =>
    have failed : (p >>= f) s = .error e := by simp only [bind, StateT.bind, first, Except.bind]
    rw [failed] at ran
    cases ran
  | ok result =>
    have went : (p >>= f) s = f result.1 result.2 := by
      simp only [bind, StateT.bind, first, Except.bind]
    exact ⟨result.1, result.2, rfl, went ▸ ran⟩

theorem peek_ok {s next : Cursor} {t : Token} (ran : peek s = .ok (t, next)) : next = s := by
  unfold peek at ran
  split at ran
  · cases ran; rfl
  · cases ending : s.ending <;> rw [ending] at ran <;> cases ran
    rfl

/-- The token that comes next is the first one, unless all are taken. -/
theorem tokens_of_peek {s : Cursor} {t : Token} (sound : s.IsSound) (ran : peek s = .ok (t, s)) :
    (∃ ts, s.tokens = t :: ts) ∨ (s.tokens = [] ∧ s.ending = .ok t ∧ t.lexeme = .eof) := by
  unfold peek at ran
  split at ran
  · rename_i isCons
    cases ran
    exact .inl ⟨_, isCons⟩
  · rename_i isNil
    cases ending : s.ending with
    | error e => rw [ending] at ran; cases ran
    | ok u =>
      rw [ending] at ran
      cases ran
      exact .inr ⟨isNil, rfl, sound t ending⟩

namespace Reads

variable {p : Parser α} {f : α → Parser β} {P : α → List Token → Prop}
  {Q : α → β → List Token → Prop} {R : β → List Token → Prop}

theorem mono {P' : α → List Token → Prop} (reads : Reads p P)
    (weaker : ∀ a u, P a u → P' a u) : Reads p P' := by
  intro s a next sound ran
  obtain ⟨used, takes, fits⟩ := reads sound ran
  exact ⟨used, takes, weaker a used fits⟩

theorem pure {a : α} (fits : P a []) : Reads (Pure.pure a) P := by
  intro s b next _ ran
  cases ran
  exact ⟨[], .nothing s, fits⟩

theorem fail {position : Nat} {fault : Fault} : Reads (fail position fault : Parser α) P := by
  intro s a next _ ran
  cases ran

theorem bind (first : Reads p P) (second : ∀ a, Reads (f a) (Q a))
    (joins : ∀ a b u v, P a u → Q a b v → R b (u ++ v)) : Reads (p >>= f) R := by
  intro s b next sound ran
  obtain ⟨a, middle, ranFirst, ranSecond⟩ := bind_ok ran
  obtain ⟨us, takesFirst, fitsFirst⟩ := first sound ranFirst
  obtain ⟨vs, takesSecond, fitsSecond⟩ := second a (takesFirst.isSound sound) ranSecond
  exact ⟨us ++ vs, takesFirst.trans takesSecond, joins a b us vs fitsFirst fitsSecond⟩

theorem peek {f : Token → Parser α} (next : ∀ t, ReadsAt t (f t) P) : Reads (peek >>= f) P := by
  intro s a next' sound ran
  obtain ⟨t, middle, ranFirst, ranSecond⟩ := bind_ok ran
  cases peek_ok ranFirst
  exact next t sound ranFirst ranSecond

/-- A parser that only looks. -/
theorem look {p : Parser α} (looks : ∀ s a next, p s = .ok (a, next) → next = s)
    (second : ∀ a, Reads (f a) R) : Reads (p >>= f) R := by
  intro s b next sound ran
  obtain ⟨a, middle, ranFirst, ranSecond⟩ := bind_ok ran
  cases looks _ _ _ ranFirst
  exact second a sound ranSecond

theorem readsAt (reads : Reads p P) (t : Token) : ReadsAt t p P :=
  fun _ _ _ sound _ ran => reads sound ran

/-- Where what fits does not depend on what is returned, it is enough that the parts fit and that
joining them keeps that. -/
theorem seq {L : List Token → Prop} (closed : ∀ {u v}, L u → L v → L (u ++ v))
    (first : Reads p fun _ => L) (second : ∀ a, Reads (f a) fun _ => L) :
    Reads (p >>= f) fun _ => L :=
  first.bind second fun _ _ _ _ => closed

theorem returning {f : α → β} (reads : Reads p P) (fits : ∀ a u, P a u → R (f a) u) :
    Reads (p >>= fun a => Pure.pure (f a)) R :=
  reads.bind (fun a => .pure (P := fun b u => b = f a ∧ u = []) ⟨rfl, rfl⟩)
    (by rintro a _ u _ took ⟨rfl, rfl⟩; rw [List.append_nil]; exact fits a u took)

/-- Nothing follows a parser that never succeeds. -/
theorem refuse (refuses : Reads p fun _ _ => False) : Reads (p >>= f) R := by
  intro s b next sound ran
  obtain ⟨a, middle, ranFirst, -⟩ := bind_ok ran
  obtain ⟨_, _, never⟩ := refuses sound ranFirst
  exact never.elim

theorem unexpectedToken {t : Token} : Reads (unexpectedToken t : Parser α) P := fail

theorem unexpected : Reads (unexpected : Parser α) P :=
  look (fun _ _ _ => peek_ok) fun _ => unexpectedToken

end Reads

/-- Takes the token that comes next. -/
theorem ReadsAt.advance {t : Token} {f : Unit → Parser α} {P R : α → List Token → Prop}
    (isToken : t.lexeme ≠ .eof) (second : Reads (f ()) P) (joins : ∀ a u, P a u → R a (t :: u)) :
    ReadsAt t (advance >>= f) R := by
  intro s a next sound peeked ran
  obtain ⟨_, middle, ranFirst, ranSecond⟩ := bind_ok ran
  rcases tokens_of_peek sound peeked with ⟨ts, isCons⟩ | ⟨_, _, isEnd⟩
  · have takes : s.Takes [t] middle := by
      unfold Parser.advance at ranFirst
      rw [isCons] at ranFirst
      dsimp only at ranFirst
      split at ranFirst
      · cases ending : s.ending <;> rw [ending] at ranFirst <;> cases ranFirst
        exact ⟨isCons, ending.symm, rfl⟩
      · cases ranFirst
        exact ⟨isCons, rfl, rfl⟩
    obtain ⟨us, takesSecond, fits⟩ := second (takes.isSound sound) ranSecond
    exact ⟨t :: us, takes.trans takesSecond, joins a us fits⟩
  · cases isToken isEnd

end Parser

end InlineQuery.Query
