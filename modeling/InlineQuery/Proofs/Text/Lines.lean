import InlineQuery.Text.Lines

/-!
Lines of a text that is put together from two: an offset of the first part keeps its line and
column, and behind a line feed the second part keeps its columns. Without a line feed in front of it,
the second part keeps its lines, and the columns of its first line move. So the place of an offset
counts the line feeds before it and the characters behind the last of them.
-/

namespace InlineQuery

/-- A run of characters goes no further than one that stops it, whatever stands behind that. -/
theorem takeWhile_stop {p : Char → Bool} {c : Char} (stops : p c = false)
    (front after : List Char) : (front ++ c :: after).takeWhile p = front.takeWhile p := by
  rw [List.takeWhile_append, List.takeWhile_cons_of_neg (by simp [stops]), List.append_nil]
  split
  · rename_i all
    exact ((List.takeWhile_prefix p).eq_of_length all).symm
  · rfl

namespace LineIndex

theorem lineEnds_append (k : Nat) (before after : List Char) :
    lineEnds k (before ++ after) = lineEnds k before ++ lineEnds (k + before.length) after := by
  induction before generalizing k with
  | nil => rfl
  | cons c before ih =>
    have place : k + 1 + before.length = k + (c :: before).length := by
      rw [List.length_cons]
      omega
    rw [List.cons_append, lineEnds, lineEnds, ih, place]
    split <;> rfl

theorem lineEnds_add (n k : Nat) (text : List Char) :
    lineEnds (n + k) text = (lineEnds k text).map (n + ·) := by
  induction text generalizing k with
  | nil => rfl
  | cons c text ih =>
    rw [lineEnds, lineEnds, Nat.add_assoc, ih]
    split <;> rfl

theorem length_lineEnds (k : Nat) (text : List Char) :
    (lineEnds k text).length = text.count '\n' := by
  induction text generalizing k with
  | nil => rfl
  | cons c text ih =>
    rw [lineEnds]
    split
    · rename_i isFeed
      rw [isFeed, List.length_cons, ih, List.count_cons_self]
    · rename_i other
      rw [ih, List.count_cons_of_ne other]

/-- A line starts behind the offset at which the text begins and not behind its end. -/
theorem bounds_of_mem_lineEnds {k e : Nat} {text : List Char} (member : e ∈ lineEnds k text) :
    k < e ∧ e ≤ k + text.length := by
  induction text generalizing k with
  | nil => cases member
  | cons c text ih =>
    have later (member : e ∈ lineEnds (k + 1) text) : k < e ∧ e ≤ k + (c :: text).length := by
      obtain ⟨lower, upper⟩ := ih member
      rw [List.length_cons]
      omega
    rw [lineEnds] at member
    split at member
    · rcases List.mem_cons.mp member with rfl | inRest
      · rw [List.length_cons]
        omega
      · exact later inRest
    · exact later member

/-- An offset up to the end of a text keeps its place when something is appended. -/
theorem position_before {before : List Char} {offset : Nat} (bound : offset ≤ before.length)
    (after : List Char) :
    (ofText (before ++ after)).position offset = (ofText before).position offset := by
  have beyond : (lineEnds (0 + before.length) after).takeWhile (· ≤ offset) = [] := by
    cases starts : lineEnds (0 + before.length) after with
    | nil => rfl
    | cons e es =>
      have lower := (bounds_of_mem_lineEnds (starts ▸ List.mem_cons_self : e ∈ _)).1
      exact List.takeWhile_cons_of_neg (by rw [decide_eq_true_eq]; omega)
  have starts : ((ofText (before ++ after)).starts).takeWhile (· ≤ offset) =
      ((ofText before).starts).takeWhile (· ≤ offset) := by
    rw [ofText, lineEnds_append, ← List.cons_append, List.takeWhile_append, beyond,
      List.append_nil]
    split
    · rename_i all
      exact (List.takeWhile_prefix _).eq_of_length all |>.symm
    · rfl
  rw [position, position, starts]

/-- Behind a text that ends with a line feed another one keeps its columns, and its lines are
counted from there. -/
theorem position_behind {before : List Char} (feeds : before.getLast? = some '\n')
    (after : List Char) (offset : Nat) :
    (ofText (before ++ after)).position (before.length + offset) =
      (before.count '\n' + ((ofText after).position offset).1,
        ((ofText after).position offset).2) := by
  obtain ⟨line, rfl⟩ := List.getLast?_eq_some_iff.mp feeds
  -- The text behind starts a line of its own.
  have ends : lineEnds 0 (line ++ ['\n']) = lineEnds 0 line ++ [(line ++ ['\n']).length] := by
    rw [lineEnds_append, List.length_append, Nat.zero_add]
    rfl
  have counted := length_lineEnds 0 (line ++ ['\n'])
  generalize isBefore : line ++ ['\n'] = before at *
  have passed : ∀ e ∈ 0 :: lineEnds 0 before, decide (e ≤ before.length + offset) = true := by
    intro e member
    rw [decide_eq_true_eq]
    rcases List.mem_cons.mp member with rfl | later
    · exact Nat.zero_le _
    · have upper := (bounds_of_mem_lineEnds later).2
      omega
  have starts : ((ofText (before ++ after)).starts).takeWhile (· ≤ before.length + offset) =
      (0 :: lineEnds 0 before) ++
        ((lineEnds 0 after).takeWhile (· ≤ offset)).map (before.length + ·) := by
    have moved : (fun e => decide (e ≤ before.length + offset)) ∘ (before.length + ·) =
        fun e => decide (e ≤ offset) := by
      funext e
      simp
    rw [ofText, lineEnds_append, ← List.cons_append, List.takeWhile_append_of_pos passed,
      Nat.zero_add, ← Nat.add_zero before.length, lineEnds_add, List.takeWhile_map,
      Nat.add_zero, moved]
  have alone : ((ofText after).starts).takeWhile (· ≤ offset) =
      0 :: (lineEnds 0 after).takeWhile (· ≤ offset) :=
    List.takeWhile_cons_of_pos (by simp)
  rw [position, position, starts, alone]
  refine Prod.ext ?_ ?_
  · simp only [List.length_append, List.length_cons, List.length_map, counted]
    omega
  · simp only [List.getLastD_eq_getLast?, List.getLast?_append, List.getLast?_cons, ends,
      List.getLast?_map, Option.getD_some]
    cases ((lineEnds 0 after).takeWhile (· ≤ offset)).getLast? with
    | none => simp
    | some e => simpa using Nat.add_sub_add_left ..

/-- A place of a text behind so many characters of its first line. -/
def indent (n : Nat) (place : Nat × Nat) : Nat × Nat :=
  (place.1, if place.1 = 0 then n + place.2 else place.2)

/-- Behind a text without line feeds another one keeps its lines, and its first line is indented. -/
theorem position_indented {before : List Char} (noFeed : '\n' ∉ before) (after : List Char)
    (offset : Nat) : (ofText (before ++ after)).position (before.length + offset) =
      indent before.length ((ofText after).position offset) := by
  have noEnds : lineEnds 0 before = [] := by
    rw [← List.length_eq_zero_iff, length_lineEnds, List.count_eq_zero]
    exact noFeed
  have moved : (fun e => decide (e ≤ before.length + offset)) ∘ (before.length + ·) =
      fun e => decide (e ≤ offset) := by
    funext e
    simp
  have starts : ((ofText (before ++ after)).starts).takeWhile (· ≤ before.length + offset) =
      0 :: ((lineEnds 0 after).takeWhile (· ≤ offset)).map (before.length + ·) := by
    rw [ofText, lineEnds_append, noEnds, List.nil_append, Nat.zero_add, ← Nat.add_zero before.length,
      lineEnds_add, Nat.add_zero, List.takeWhile_cons_of_pos (by simp), List.takeWhile_map, moved]
  have alone : ((ofText after).starts).takeWhile (· ≤ offset) =
      0 :: (lineEnds 0 after).takeWhile (· ≤ offset) :=
    List.takeWhile_cons_of_pos (by simp)
  rw [position, position, starts, alone]
  generalize isFront : (lineEnds 0 after).takeWhile (· ≤ offset) = ends
  rcases List.eq_nil_or_concat ends with rfl | ⟨front, e, rfl⟩
  · simp [indent]
  · have column : before.length + offset - (before.length + e) = offset - e := Nat.add_sub_add_left ..
    simp [indent, List.concat_eq_append, List.getLastD_eq_getLast?, List.getLast?_cons, column]

/-- A later offset is on the same line or on a later one. -/
theorem position_le (index : LineIndex) {a b : Nat} (le : a ≤ b) :
    (index.position a).1 ≤ (index.position b).1 := by
  have more (starts : List Nat) :
      (starts.takeWhile (· ≤ a)).length ≤ (starts.takeWhile (· ≤ b)).length := by
    induction starts with
    | nil => exact Nat.le_refl _
    | cons start starts ih =>
      by_cases first : start ≤ a
      · have alsoFirst : start ≤ b := Nat.le_trans first le
        simpa [first, alsoFirst] using ih
      · simp [first]
  exact Nat.sub_le_sub_right (more index.starts) 1

/-! ### Counting line feeds -/

/-- How many characters of a text stand behind its last line feed. -/
def lastColumn (text : List Char) : Nat := (text.reverse.takeWhile (· ≠ '\n')).length

theorem lastColumn_append_of_notMem {tail : List Char} (noFeed : '\n' ∉ tail) (front : List Char) :
    lastColumn (front ++ tail) = lastColumn front + tail.length := by
  have all : ∀ c ∈ tail.reverse, decide (c ≠ '\n') = true := by
    intro c member
    rw [decide_eq_true_eq]
    rintro rfl
    exact noFeed (List.mem_reverse.mp member)
  rw [lastColumn, List.reverse_append, List.takeWhile_append_of_pos all, List.length_append,
    List.length_reverse, Nat.add_comm, lastColumn]

theorem lastColumn_behind (front rest : List Char) :
    lastColumn (front ++ '\n' :: rest) = lastColumn rest := by
  rw [lastColumn, List.reverse_append, List.reverse_cons, List.append_assoc, List.singleton_append,
    takeWhile_stop (by decide), lastColumn]

theorem lastColumn_append_of_mem {tail : List Char} (feed : '\n' ∈ tail) (front : List Char) :
    lastColumn (front ++ tail) = lastColumn tail := by
  obtain ⟨before, rest, rfl⟩ := List.append_of_mem feed
  rw [← List.append_assoc, lastColumn_behind, lastColumn_behind]

theorem position_zero (text : List Char) : (ofText text).position 0 = (0, 0) :=
  @position_before [] 0 (Nat.le_refl 0) text

/-- A text is some whole lines and what stands behind its last line feed. -/
theorem exists_lastLine (text : List Char) : ∃ lines tail, text = lines ++ tail ∧ '\n' ∉ tail ∧
    (lines = [] ∨ lines.getLast? = some '\n') := by
  induction text with
  | nil => exact ⟨[], [], rfl, List.not_mem_nil, .inl rfl⟩
  | cons c text ih =>
    obtain ⟨lines, tail, rfl, noFeed, rfl | ends⟩ := ih
    · by_cases feed : c = '\n'
      · exact ⟨[c], tail, rfl, noFeed, .inr (congrArg some feed)⟩
      · refine ⟨[], c :: tail, rfl, ?_, .inl rfl⟩
        rw [List.mem_cons, not_or]
        exact ⟨fun same => feed same.symm, noFeed⟩
    · refine ⟨c :: lines, tail, rfl, noFeed, .inr ?_⟩
      rw [List.getLast?_cons, ends]
      rfl

/-- The place of an offset is the number of line feeds before it and of the characters behind the
last of them. -/
theorem position_eq {text : List Char} {offset : Nat} (le : offset ≤ text.length) :
    (ofText text).position offset =
      ((text.take offset).count '\n', lastColumn (text.take offset)) := by
  obtain ⟨lines, tail, whole, noFeed, ends⟩ := exists_lastLine (text.take offset)
  have length : offset = lines.length + tail.length := by
    rw [← List.length_append, ← whole, List.length_take, Nat.min_eq_left le]
  have parts : text = lines ++ (tail ++ text.drop offset) := by
    rw [← List.append_assoc, ← whole, List.take_append_drop]
  have inLine := position_indented noFeed (text.drop offset) 0
  rw [position_zero] at inLine
  have noneInTail : tail.count '\n' = 0 := List.count_eq_zero.mpr noFeed
  have column := lastColumn_append_of_notMem noFeed lines
  have place : (ofText text).position offset =
      (ofText (lines ++ (tail ++ text.drop offset))).position (lines.length + tail.length) := by
    rw [← parts, ← length]
  rw [place, whole, List.count_append, noneInTail, column]
  rcases ends with rfl | feeds
  · rw [List.length_nil, Nat.zero_add, show lastColumn [] = 0 from rfl, Nat.zero_add]
    exact inLine
  · have atStart : lastColumn lines = 0 := by
      obtain ⟨front, rfl⟩ := List.getLast?_eq_some_iff.mp feeds
      rw [lastColumn_append_of_mem List.mem_cons_self]
      rfl
    rw [atStart, position_behind feeds, ← Nat.add_zero tail.length, inLine, Nat.add_zero,
      Nat.zero_add]
    rfl

/-- The line of an offset is that of an earlier one exactly when no line feed stands from the one to
the other. -/
theorem line_eq_iff {text : List Char} {a b : Nat} (ordered : a ≤ b) (bound : b ≤ text.length) :
    ((ofText text).position b).1 = ((ofText text).position a).1 ↔
      ∀ i, a ≤ i → i < b → text[i]? ≠ some '\n' := by
  have parts : text.take b = text.take a ++ (text.drop a).take (b - a) := by
    rw [← List.take_add, Nat.add_sub_cancel' ordered]
  rw [position_eq bound, position_eq (Nat.le_trans ordered bound), parts, List.count_append,
    Nat.add_eq_left, List.count_eq_zero, List.mem_iff_getElem?]
  constructor
  · intro none_ i lower upper feed
    refine none_ ⟨i - a, ?_⟩
    rw [List.getElem?_take_of_lt (by omega), List.getElem?_drop, Nat.add_sub_cancel' lower, feed]
  · rintro none_ ⟨n, feed⟩
    have within : n < b - a :=
      Nat.lt_of_lt_of_le (List.getElem?_eq_some_iff.mp feed).1 (List.length_take_le ..)
    rw [List.getElem?_take_of_lt within, List.getElem?_drop] at feed
    exact none_ (a + n) (Nat.le_add_right a n) (by omega) feed

end LineIndex
end InlineQuery
