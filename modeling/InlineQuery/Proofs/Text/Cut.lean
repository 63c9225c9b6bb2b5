import InlineQuery.Text.Cut

/-!
A text cut at a character: its pieces hold no such character, and pieces that were put together are
found again.
-/

namespace InlineQuery.Text

variable {sep : Char} {piece rest : List Char}

theorem cut_of_notMem (none_ : sep ∉ piece) : cut sep piece = [piece] := by
  induction piece with
  | nil => rfl
  | cons c piece ih =>
    have other : (c == sep) = false := beq_false_of_ne fun same => none_ (by simp [same])
    rw [cut, other, ih fun inside => none_ (List.mem_cons_of_mem _ inside)]
    rfl

theorem cut_append (none_ : sep ∉ piece) (rest : List Char) :
    cut sep (piece ++ sep :: rest) = piece :: cut sep rest := by
  induction piece with
  | nil => rw [List.nil_append, cut, beq_self_eq_true, if_pos rfl]
  | cons c piece ih =>
    have other : (c == sep) = false := beq_false_of_ne fun same => none_ (by simp [same])
    rw [List.cons_append, cut, other, ih fun inside => none_ (List.mem_cons_of_mem _ inside)]
    rfl

/-- Pieces that were put together with a separator are found again. -/
theorem cut_intercalate {pieces : List (List Char)} (some_ : pieces ≠ [])
    (none_ : ∀ piece ∈ pieces, sep ∉ piece) : cut sep ([sep].intercalate pieces) = pieces := by
  induction pieces with
  | nil => exact absurd rfl some_
  | cons piece pieces ih =>
    have first := none_ piece (List.mem_cons_self ..)
    cases pieces with
    | nil => simpa using cut_of_notMem first
    | cons next pieces =>
      rw [List.intercalate_cons_cons, List.append_assoc, List.singleton_append, cut_append first,
        ih (by simp) fun piece inside => none_ piece (List.mem_cons_of_mem _ inside)]

theorem notMem_of_mem_cut {cs : List Char} (member : piece ∈ cut sep cs) : sep ∉ piece := by
  induction cs generalizing piece with
  | nil =>
    rw [cut, List.mem_singleton] at member
    simp [member]
  | cons c cs ih =>
    rw [cut] at member
    split at member
    · rcases List.mem_cons.mp member with rfl | later
      · simp
      · exact ih later
    · rename_i other
      have added {piece : List Char} (none_ : sep ∉ piece) : sep ∉ c :: piece := fun inside =>
        (List.mem_cons.mp inside).elim (fun same => other (beq_iff_eq.mpr same.symm)) none_
      split at member
      · rw [List.mem_singleton.mp member]
        exact added (by simp)
      · rename_i first pieces isCut
        rcases List.mem_cons.mp member with rfl | later
        · exact added (ih (isCut ▸ List.mem_cons_self ..))
        · exact ih (isCut ▸ List.mem_cons_of_mem _ later)

end InlineQuery.Text
