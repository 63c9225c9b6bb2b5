import InlineQuery.Literal.Definitions

namespace InlineQuery.Definitions

/-- Tokens lie one behind the other, the first of them not before `bound`. -/
structure AreOrdered (bound : Nat) (ts : List Token) : Prop where
  le_start : ∀ t ∈ ts, bound ≤ t.start
  start_lt : ∀ t ∈ ts, t.start < t.stop
  apart : ts.Pairwise fun t u => t.stop ≤ u.start

namespace AreOrdered

variable {bound lower : Nat} {t : Token} {ts : List Token}

theorem mono (ordered : AreOrdered bound ts) (le : lower ≤ bound) : AreOrdered lower ts :=
  ⟨fun t member => Nat.le_trans le (ordered.le_start t member), ordered.start_lt, ordered.apart⟩

theorem cons (le : bound ≤ t.start) (lt : t.start < t.stop) (ordered : AreOrdered t.stop ts) :
    AreOrdered bound (t :: ts) := by
  refine ⟨?_, ?_, List.pairwise_cons.mpr ⟨ordered.le_start, ordered.apart⟩⟩
  · intro u member
    rcases List.mem_cons.mp member with rfl | later
    · exact le
    · have behind := ordered.le_start u later
      omega
  · intro u member
    rcases List.mem_cons.mp member with rfl | later
    · exact lt
    · exact ordered.start_lt u later

theorem tail (ordered : AreOrdered bound (t :: ts)) : AreOrdered t.stop ts where
  le_start := (List.pairwise_cons.mp ordered.apart).1
  start_lt u member := ordered.start_lt u (List.mem_cons_of_mem _ member)
  apart := (List.pairwise_cons.mp ordered.apart).2

end AreOrdered

theorem areOrdered_tokensFrom (offset skip : Nat) (text : List Char) :
    AreOrdered (offset + skip) (tokensFrom offset skip text) := by
  induction text generalizing offset skip with
  | nil => exact ⟨by simp [tokensFrom], by simp [tokensFrom], by simp [tokensFrom]⟩
  | cons c rest ih =>
    cases skip with
    | succ skip => exact (ih (offset + 1) skip).mono (by omega)
    | zero =>
      unfold tokensFrom
      dsimp only
      split
      · exact (ih (offset + 1) 0).mono (by omega)
      · split
        · exact (ih (offset + 1) _).mono (by omega)
        · exact .cons (Nat.le_refl _) (by simp only; omega) (ih (offset + 1) _)

def Piece.span? : Piece → Option Span
  | definition span => some span
  | skipped .. => none

theorem Split.current_of_ended {s : Split} {kind : Kind} {d : Current}
    (isEnded : s.ended kind = some d) : s.current = some d :=
  (Option.filter_eq_some_iff.mp isEnded).1

/-- A token either joins the definition being read or follows its end. In both cases the state after
it holds no earlier definition. -/
theorem Split.step_cases (s : Split) (t : Token) :
    ((s.step t).2.filterMap Piece.span? = [] ∧
      ((s.step t).1.current = none ∨
        ∃ closes, (s.step t).1.current = some (extended s.current closes t))) ∨
    ∃ d, s.current = some d ∧ (s.step t).2.filterMap Piece.span? = [d.span] ∧
      ((s.step t).1.current = none ∨
        ∃ closes, (s.step t).1.current = some (extended none closes t)) := by
  unfold Split.step
  cases isEnded : s.ended t.kind with
  | none =>
    dsimp only
    split
    · split
      · exact Or.inl ⟨rfl, Or.inr ⟨_, rfl⟩⟩
      · split
        · split
          · cases isCut : s.current.filter (·.hasBody) with
            | none => exact Or.inl ⟨by simp [isCut, Piece.span?], Or.inl rfl⟩
            | some d =>
              have atCurrent := (Option.filter_eq_some_iff.mp isCut).1
              exact Or.inr ⟨d, atCurrent, by simp [isCut, Piece.span?], Or.inl rfl⟩
          · exact Or.inl ⟨rfl, Or.inr ⟨_, rfl⟩⟩
        · exact Or.inl ⟨rfl, Or.inr ⟨_, rfl⟩⟩
    · exact Or.inl ⟨rfl, Or.inr ⟨_, rfl⟩⟩
  | some d =>
    have atCurrent := current_of_ended isEnded
    refine Or.inr ⟨d, atCurrent, ?_⟩
    dsimp only
    split
    · split
      · exact ⟨rfl, Or.inr ⟨_, rfl⟩⟩
      · split
        · split
          · exact ⟨rfl, Or.inl rfl⟩
          · exact ⟨rfl, Or.inr ⟨_, rfl⟩⟩
        · exact ⟨rfl, Or.inr ⟨_, rfl⟩⟩
    · exact ⟨rfl, Or.inr ⟨_, rfl⟩⟩

/-- The definition being read, if there is one, begins at or behind `bound` and ends before what
follows. -/
def Split.IsBehind (s : Split) (bound : Nat) (ts : List Token) : Prop :=
  ∀ d, s.current = some d →
    bound ≤ d.start ∧ d.start < d.stop ∧ ∀ t ∈ ts, d.stop ≤ t.start

namespace Split.IsBehind

variable {s : Split} {bound : Nat} {t : Token} {ts : List Token}

theorem of_none (isNone : s.current = none) : s.IsBehind bound ts := by
  intro d atCurrent
  rw [isNone] at atCurrent
  cases atCurrent

theorem of_new {closes : Bool} (started : s.current = some (extended none closes t))
    (ordered : AreOrdered bound (t :: ts)) : s.IsBehind bound ts := by
  intro d atCurrent
  cases atCurrent.symm.trans started
  exact ⟨ordered.le_start t (List.mem_cons_self ..), ordered.start_lt t (List.mem_cons_self ..),
    ordered.tail.le_start⟩

theorem of_extended {next : Split} {closes : Bool} (behind : s.IsBehind bound (t :: ts))
    (joined : next.current = some (extended s.current closes t))
    (ordered : AreOrdered bound (t :: ts)) : next.IsBehind bound ts := by
  cases atCurrent : s.current with
  | none => exact of_new (by rw [joined, atCurrent]) ordered
  | some d =>
    obtain ⟨le, lt, before⟩ := behind d atCurrent
    intro e atNext
    rw [atCurrent] at joined
    cases atNext.symm.trans joined
    have first := before t (List.mem_cons_self ..)
    have width := ordered.start_lt t (List.mem_cons_self ..)
    refine ⟨le, ?_, ordered.tail.le_start⟩
    simp only [extended, Option.getD_some]
    omega

end Split.IsBehind

/-- Definitions are not empty and lie one behind the other. -/
theorem run_ordered {s : Split} {bound : Nat} {ts : List Token} (ordered : AreOrdered bound ts)
    (behind : s.IsBehind bound ts) :
    (∀ span ∈ (s.run ts).filterMap Piece.span?, bound ≤ span.start ∧ span.start < span.stop) ∧
      ((s.run ts).filterMap Piece.span?).Pairwise fun a b => a.stop ≤ b.start := by
  induction ts generalizing s bound with
  | nil =>
    cases atCurrent : s.current with
    | none => simp [Split.run, Split.finish, atCurrent]
    | some d =>
      obtain ⟨le, lt, _⟩ := behind d atCurrent
      by_cases depth : s.depth = 0
      · simpa [Split.run, Split.finish, atCurrent, depth, Piece.span?, Current.span] using
          And.intro le lt
      · simp [Split.run, Split.finish, atCurrent, depth, Piece.span?, List.filterMap_cons]
  | cons t ts ih =>
    by_cases isUnterminated : t.kind = .unterminated
    · simp [Split.run, isUnterminated, Piece.span?, List.filterMap_cons]
    have tail : AreOrdered bound ts := ordered.tail.mono (by
      have first := ordered.le_start t (List.mem_cons_self ..)
      have width := ordered.start_lt t (List.mem_cons_self ..)
      omega)
    simp only [Split.run, isUnterminated, if_false, List.filterMap_append]
    rcases s.step_cases t with ⟨none, next⟩ | ⟨d, atCurrent, one, next⟩
    · rw [none, List.nil_append]
      rcases next with isNone | ⟨_, joined⟩
      · exact ih tail (.of_none isNone)
      · exact ih tail (behind.of_extended joined ordered)
    · obtain ⟨le, lt, before⟩ := behind d atCurrent
      have beyond : AreOrdered d.stop (t :: ts) := ⟨before, ordered.start_lt, ordered.apart⟩
      have rest : AreOrdered d.stop ts := ⟨fun u member => before u (List.mem_cons_of_mem _ member),
        tail.start_lt, tail.apart⟩
      have later : (s.step t).1.IsBehind d.stop ts := by
        rcases next with isNone | ⟨_, started⟩
        · exact .of_none isNone
        · exact .of_new started beyond
      obtain ⟨bounds, apart⟩ := ih rest later
      rw [one, List.singleton_append]
      refine ⟨?_, List.pairwise_cons.mpr ⟨fun span member => (bounds span member).1, apart⟩⟩
      intro span member
      rcases List.mem_cons.mp member with rfl | old
      · exact ⟨le, lt⟩
      · obtain ⟨above, width⟩ := bounds span old
        exact ⟨by omega, width⟩

/-- The definitions of a document are not empty and lie one behind the other. -/
theorem pieces_ordered (text : List Char) :
    (∀ span ∈ (pieces text).filterMap Piece.span?, span.start < span.stop) ∧
      ((pieces text).filterMap Piece.span?).Pairwise fun a b => a.stop ≤ b.start := by
  obtain ⟨bounds, apart⟩ := run_ordered (s := .start) (areOrdered_tokensFrom 0 0 text) (.of_none rfl)
  exact ⟨fun span member => (bounds span member).2, apart⟩

end InlineQuery.Definitions
