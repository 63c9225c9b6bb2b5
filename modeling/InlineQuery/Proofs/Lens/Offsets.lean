import InlineQuery.Proofs.Lens.Lines
import InlineQuery.Proofs.Operation.Places

/-!
The lines of a document with operations, by line and by offset. From one character to the next the
line goes up by one at most, so that the offsets of a literal pass every line that it spans.
-/

namespace InlineQuery

namespace LineIndex

variable {text : List Char} {a b line : Nat}

theorem position_succ_le (bound : b < text.length) :
    ((ofText text).position (b + 1)).1 ≤ ((ofText text).position b).1 + 1 := by
  rw [position_eq bound, position_eq (Nat.le_of_lt bound), List.take_succ_eq_append_getElem bound,
    List.count_append]
  exact Nat.add_le_add_left List.count_le_length _

/-- Every line from that of an offset to that of a later one has an offset between the two. -/
theorem exists_position_eq (ordered : a ≤ b) (bound : b ≤ text.length)
    (low : ((ofText text).position a).1 ≤ line) (high : line ≤ ((ofText text).position b).1) :
    ∃ offset, a ≤ offset ∧ offset ≤ b ∧ ((ofText text).position offset).1 = line := by
  induction ordered with
  | refl => exact ⟨a, Nat.le_refl a, Nat.le_refl a, Nat.le_antisymm low high⟩
  | @step b ordered ih =>
    have step := position_succ_le bound
    rcases Nat.lt_or_eq_of_le high with earlier | last
    · obtain ⟨offset, behind, before, same⟩ := ih (Nat.le_of_succ_le bound)
        (Nat.le_of_lt_succ (Nat.lt_of_lt_of_le earlier step))
      exact ⟨offset, behind, Nat.le_succ_of_le before, same⟩
    · exact ⟨b + 1, Nat.le_succ_of_le ordered, Nat.le_refl _, last.symm⟩

end LineIndex

namespace Literal

variable {text : List Char} {language : Language} {a : Literal} {line : Int}

/-- A literal has a part on a line if and only if an offset of the literal is on the line. -/
theorem spans_iff (member : a ∈ literals text language) : a.Spans line ↔
    ∃ offset, a.contains offset = true ∧ (((LineIndex.ofText text).position offset).1 : Int) = line := by
  have cut := isCutFrom_of_mem member
  have ordered := cut.ordered
  have bounded := cut.bounded
  simp only [contains_eq_true_iff]
  obtain ⟨span, tag, interpolations, rfl⟩ := exists_ofSpan_of_mem member
  constructor
  · rintro ⟨low, high⟩
    obtain ⟨n, rfl⟩ := Int.eq_ofNat_of_zero_le (Int.le_trans (Int.natCast_nonneg _) low)
    obtain ⟨offset, behind, before, same⟩ :=
      LineIndex.exists_position_eq ordered bounded (Int.ofNat_le.mp low) (Int.ofNat_le.mp high)
    exact ⟨offset, ⟨behind, before⟩, congrArg Int.ofNat same⟩
  · rintro ⟨offset, ⟨behind, before⟩, rfl⟩
    exact ⟨Int.ofNat_le.mpr (LineIndex.position_le _ behind),
      Int.ofNat_le.mpr (LineIndex.position_le _ before)⟩

end Literal

/-- An offset finds an operation if and only if a literal around it holds any. -/
theorem OperationIndex.operationAt_isSome_iff (index : OperationIndex) (offset : Nat) :
    (index.operationAt offset none).isSome = true ↔
      ∃ e ∈ index.entries, e.literal.contains offset = true ∧ e.operations ≠ [] := by
  rw [operationAt_natCast, List.findSome?_isSome_iff]
  simp only [around, List.mem_filter, pick, List.isSome_head?, and_assoc]

namespace LensSet

variable {document : SourceDocument} {set : LensSet} {line : Int}

/-- A line finds a lens if and only if a literal that spans it holds any operations. -/
theorem lensAtLine_isSome_iff (made : ofDocument document = .ok set) :
    (set.lensAtLine line).isSome = true ↔
      ∃ e ∈ set.index.entries, e.literal.Spans line ∧ e.operations ≠ [] := by
  constructor
  · intro found
    obtain ⟨lens, found⟩ := Option.isSome_iff_exists.mp found
    obtain ⟨indexed, lenses⟩ := isIndexed_ofDocument made
    have offered := List.mem_of_find?_eq_some found
    have onLine := List.find?_some found
    rw [lenses] at offered
    obtain ⟨entry, within, inEntry⟩ := List.mem_flatMap.mp offered
    obtain ⟨op, member, rfl⟩ := List.mem_map.mp inEntry
    have literal := (indexed.counted entry within).literal_eq member
    refine ⟨entry, within, ?_, List.ne_nil_of_mem member⟩
    simpa [Lens.ofOperation, literal, Literal.Spans] using onLine
  · rintro ⟨entry, within, spans, more⟩
    have exists_ : (set.index.entryOnLine? line).isSome = true :=
      List.find?_isSome.mpr ⟨entry, within, by simp [spans, more]⟩
    obtain ⟨first, isFirst⟩ := Option.isSome_iff_exists.mp exists_
    obtain ⟨op, -, found⟩ := lensAtLine_of_entry made isFirst
    rw [found]
    rfl

/-- A line finds a lens if and only if an offset on that line, from the start of the text to its end,
finds an operation. -/
theorem lensAtLine_isSome_iff_operationAt (made : ofDocument document = .ok set) (line : Int) :
    (set.lensAtLine line).isSome = true ↔ ∃ offset : Nat, offset ≤ document.text.length ∧
      (((LineIndex.ofText document.text).position offset).1 : Int) = line ∧
      (set.operationAt offset none).isSome = true := by
  have isLiteral {e : IndexEntry} (within : e ∈ set.index.entries) :=
    literal_mem_of_ofDocument made within
  rw [lensAtLine_isSome_iff made]
  constructor
  · rintro ⟨entry, within, spans, more⟩
    obtain ⟨offset, holds, onLine⟩ := (Literal.spans_iff (isLiteral within)).mp spans
    have bounded := (Literal.isCutFrom_of_mem (isLiteral within)).bounded
    have before := (Literal.contains_eq_true_iff.mp holds).2
    exact ⟨offset, Nat.le_trans before bounded, onLine,
      (set.index.operationAt_isSome_iff offset).mpr ⟨entry, within, holds, more⟩⟩
  · rintro ⟨offset, -, onLine, found⟩
    obtain ⟨entry, within, holds, more⟩ := (set.index.operationAt_isSome_iff offset).mp found
    exact ⟨entry, within, (Literal.spans_iff (isLiteral within)).mpr ⟨offset, holds, onLine⟩, more⟩

/-- The last line of an operation that ends in an interpolation with another one. -/
theorem lensAtLine_isSome_iff_operationAt_nested : ∃ set, LensSet.ofDocument ⟨"file:///a.ts",
      "x\ngql\x60query A { a }\n $\x7bgql\x60{ b }\n\x60\x7d\x60".toList, .javascript, 0⟩ = .ok set ∧
    (set.lensAtLine 3).isSome = true ∧ (set.lensAtLine 0).isSome = false := by
  obtain ⟨set, made, atEnd, noneAtStart⟩ : ∃ set ∈ (LensSet.ofDocument ⟨"file:///a.ts",
      "x\ngql\x60query A { a }\n $\x7bgql\x60{ b }\n\x60\x7d\x60".toList, .javascript, 0⟩).toOption,
      (set.operationAt 34 none).isSome = true ∧ (set.lensAtLine 0).isSome = false := by
    decide +kernel
  have made := eq_ok_of_mem_toOption made
  refine ⟨set, made, ?_, noneAtStart⟩
  exact (lensAtLine_isSome_iff_operationAt made 3).mpr ⟨34, by decide, by decide, atEnd⟩

end LensSet

end InlineQuery
