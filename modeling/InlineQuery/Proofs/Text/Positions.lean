import InlineQuery.Proofs.Text.Cut
import InlineQuery.Proofs.Text.Lines
import Mathlib.Data.Prod.Lex

/-!
The offsets of a text and their places. An offset is found again at its place, a later offset has a
later place, and every column of a line is the place of an offset.
-/

namespace InlineQuery.LineIndex

variable {index : LineIndex} {text content : List Char} {start line : Nat}

/-- A column of a line counts from where the line starts. -/
theorem offset_of_getElem? (found : index.starts[line]? = some start) (column : Nat) :
    index.offset line column = (start + column : Nat) := by
  obtain ⟨bound, -⟩ := List.getElem?_eq_some_iff.mp found
  have last : min line (index.starts.length - 1) = line := by omega
  have forward : ¬ (line : Int) < 0 := by omega
  rw [offset, if_neg forward, Int.toNat_natCast, last, found, Option.getD_some, Int.natCast_add]

/-- The line of an offset starts at the offset or before it, and the column is the distance. -/
theorem exists_start (text : List Char) (offset : Nat) :
    ∃ start, (ofText text).starts[((ofText text).position offset).1]? = some start ∧
      start ≤ offset ∧ ((ofText text).position offset).2 = offset - start := by
  have first : (ofText text).starts.takeWhile (· ≤ offset) =
      0 :: (lineEnds 0 text).takeWhile (· ≤ offset) :=
    List.takeWhile_cons_of_pos (by simp)
  have passed := List.all_eq_true.mp (List.all_takeWhile (p := (· ≤ offset)) (l := (ofText text).starts))
  obtain ⟨later, starts⟩ := List.takeWhile_prefix (· ≤ offset) (l := (ofText text).starts)
  unfold position
  -- The first line starts at zero, so that some line is passed, and the last of them is that of the
  -- offset.
  rcases List.eq_nil_or_concat ((ofText text).starts.takeWhile (· ≤ offset)) with none_ | ⟨front, start, split⟩
  · rw [first] at none_
    cases none_
  · rw [List.concat_eq_append] at split
    rw [split] at passed starts ⊢
    refine ⟨start, ?_, ?_, ?_⟩
    · rw [← starts]
      simp
    · simpa using passed start (by simp)
    · simp [List.getLastD_eq_getLast?]

/-- An offset is found again at its place. -/
theorem offset_position (text : List Char) (offset : Nat) :
    (ofText text).offset ((ofText text).position offset).1 ((ofText text).position offset).2 =
      offset := by
  obtain ⟨start, found, before, column⟩ := exists_start text offset
  rw [offset_of_getElem? found, column, Nat.add_sub_cancel' before]

/-- A later offset has a later place. -/
theorem strictMono_position (text : List Char) :
    StrictMono fun offset => toLex ((ofText text).position offset) := by
  intro a b lt
  rw [Prod.Lex.toLex_lt_toLex]
  rcases Nat.lt_or_eq_of_le ((ofText text).position_le (Nat.le_of_lt lt)) with above | same
  · exact .inl above
  · obtain ⟨start, found, before, column⟩ := exists_start text a
    obtain ⟨start', found', before', column'⟩ := exists_start text b
    rw [same, found'] at found
    cases found
    exact .inr ⟨same, by omega⟩

theorem starts_of_notMem (noFeed : '\n' ∉ text) : (ofText text).starts = [0] := by
  have noEnds : lineEnds 0 text = [] := by
    rw [← List.length_eq_zero_iff, length_lineEnds]
    exact List.count_eq_zero.mpr noFeed
  rw [ofText, noEnds]

/-- The lines behind the first one start where they do in a text of their own, so much later. -/
theorem starts_append (noFeed : '\n' ∉ content) (rest : List Char) :
    (ofText (content ++ '\n' :: rest)).starts =
      0 :: (ofText rest).starts.map (content.length + 1 + ·) := by
  have noEnds : lineEnds 0 content = [] := List.tail_eq_of_cons_eq (starts_of_notMem noFeed)
  have moved := lineEnds_add (content.length + 1) 0 rest
  rw [Nat.add_zero] at moved
  simp [ofText, lineEnds_append, lineEnds, noEnds, moved]

/-- A text is cut at its line feeds. In front of a line there are as many of them as its number
says, the last one right in front of it. -/
theorem exists_front (found : (Text.cut '\n' text)[line]? = some content) :
    ∃ front back, text = front ++ (content ++ back) ∧ '\n' ∉ content ∧
      (ofText text).starts[line]? = some front.length ∧ front.count '\n' = line ∧
      lastColumn front = 0 := by
  induction line generalizing text with
  | zero =>
    by_cases feed : '\n' ∈ text
    · obtain ⟨first, rest, rfl, noFeed⟩ := List.eq_append_cons_of_mem feed
      rw [Text.cut_append noFeed] at found
      cases found
      exact ⟨[], '\n' :: rest, rfl, noFeed, rfl, rfl, rfl⟩
    · rw [Text.cut_of_notMem feed] at found
      cases found
      exact ⟨[], [], (List.append_nil _).symm, feed, rfl, rfl, rfl⟩
  | succ line ih =>
    by_cases feed : '\n' ∈ text
    · obtain ⟨first, rest, rfl, noFeed⟩ := List.eq_append_cons_of_mem feed
      rw [Text.cut_append noFeed] at found
      obtain ⟨front, back, rfl, inLine, start, count, column⟩ := ih found
      have none_ : first.count '\n' = 0 := List.count_eq_zero.mpr noFeed
      refine ⟨first ++ '\n' :: front, back, by simp, inLine, ?_, ?_, ?_⟩
      · rw [starts_append noFeed, List.getElem?_cons_succ, List.getElem?_map, start, Option.map_some,
          List.length_append, List.length_cons]
        congr 1
        omega
      · rw [List.count_append, List.count_cons_self, none_, count, Nat.zero_add]
      · rw [lastColumn_behind, column]
    · rw [Text.cut_of_notMem feed] at found
      cases found

/-- Every column of a line, its end included, is the place of the offset found there. -/
theorem exists_offset {column : Nat} (found : (Text.cut '\n' text)[line]? = some content)
    (within : column ≤ content.length) : ∃ offset : Nat, offset ≤ text.length ∧
      (ofText text).offset line column = offset ∧ (ofText text).position offset = (line, column) := by
  obtain ⟨front, back, rfl, noFeed, start, count, atStart⟩ := exists_front found
  have bound : front.length + column ≤ (front ++ (content ++ back)).length := by
    simp only [List.length_append]
    omega
  have before : (front ++ (content ++ back)).take (front.length + column) =
      front ++ content.take column := by
    rw [List.take_length_add_append, List.take_append_of_le_length within]
  have inLine : '\n' ∉ content.take column := fun inside => noFeed (List.mem_of_mem_take inside)
  refine ⟨front.length + column, bound, offset_of_getElem? start column, ?_⟩
  rw [position_eq bound, before, List.count_append, count, List.count_eq_zero.mpr inLine,
    lastColumn_append_of_notMem inLine, atStart, List.length_take_of_le within, Nat.add_zero,
    Nat.zero_add]

/-- The offsets of a text and its columns line by line are the same places in the same order. The
place of an offset counts the line feeds before it and the characters behind the last of them; what
is found at that place is the offset. A later offset has a later place. Every column of a line, that
of its end included, is the place of what is found there. -/
theorem position_enumerates (text : List Char) :
    (∀ offset, offset ≤ text.length →
      (ofText text).position offset =
          ((text.take offset).count '\n', lastColumn (text.take offset)) ∧
        (ofText text).offset ((ofText text).position offset).1 ((ofText text).position offset).2 =
          offset) ∧
    (StrictMono fun offset => toLex ((ofText text).position offset)) ∧
    ∀ (line column : Nat) (content : List Char), (Text.cut '\n' text)[line]? = some content →
      column ≤ content.length → ∃ offset : Nat, offset ≤ text.length ∧
        (ofText text).offset line column = offset ∧
        (ofText text).position offset = (line, column) := by
  refine ⟨?_, strictMono_position text, ?_⟩
  · intro offset le
    exact ⟨position_eq le, offset_position text offset⟩
  · intro line column content found within
    exact exists_offset found within

/-- A text with a line that is empty and a last line without characters. -/
theorem position_enumerates_emptyLines :
    5 ≤ "ab\n\nc\n".toList.length ∧
    (ofText "ab\n\nc\n".toList).position 5 = (2, 1) ∧
    (ofText "ab\n\nc\n".toList).offset 2 1 = 5 ∧
    (Text.cut '\n' "ab\n\nc\n".toList)[3]? = some [] ∧
    ∃ offset : Nat, (ofText "ab\n\nc\n".toList).offset 3 0 = offset ∧
      (ofText "ab\n\nc\n".toList).position offset = (3, 0) := by
  obtain ⟨places, -, columns⟩ := position_enumerates "ab\n\nc\n".toList
  obtain ⟨place, back⟩ := places 5 (by decide)
  have atFive : (ofText "ab\n\nc\n".toList).position 5 = (2, 1) := place.trans (by decide)
  obtain ⟨offset, -, found, same⟩ := columns 3 0 [] (by decide) (by decide)
  rw [atFive] at back
  exact ⟨by decide, atFive, back, by decide, offset, found, same⟩

end InlineQuery.LineIndex
