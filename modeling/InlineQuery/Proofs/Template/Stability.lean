import InlineQuery.Proofs.Template.Seam

/-!
What a change below a line leaves alone. Up to the end of the line two readings are the same, or
both of them are in a block comment that reaches beyond it. What comes later closes templates only
further down, so that those which are closed above the line are the same in both.
-/

namespace InlineQuery.Template

/-- Whether a template is closed before an offset. -/
def isClosedBefore (k : Nat) (t : Template) : Bool := t.closed.any (· < k)

theorem isClosedBefore_iff {k : Nat} {t : Template} :
    t.isClosedBefore k = true ↔ ∃ stop, t.closed = some stop ∧ stop < k := by
  simp [isClosedBefore, Option.any_eq_true]

namespace Reading

variable {s : Reading} {k : Nat} {c : Char} {front after after' : List Char}

/-- The templates found so far that are closed before an offset. -/
def closedBefore (s : Reading) (k : Nat) : List Template := s.templates.filter (isClosedBefore k)

/-- No template shows where its last interpolation starts. -/
theorem templates_suspend (offset hole skip : Nat) (before : List Char) (mode : Mode)
    (opened : List Opened) (done : List Template) :
    (Reading.mk offset before skip mode (opened.modifyHead fun o => { o with hole })
      done).templates = (Reading.mk offset before skip mode opened done).templates := by
  cases opened with
  | nil => rfl
  | cons o os =>
    rw [List.modifyHead_cons, templates_cons, templates_cons]
    rfl

/-- Which templates a character opens or closes does not depend on what follows it. -/
theorem templates_step_congr (s : Reading) (c : Char) (rest rest' : List Char) :
    (s.step c rest').templates = (s.step c rest).templates := by
  obtain ⟨offset, before, skip, mode, opened, done⟩ := s
  cases skip with
  | succ skip => rfl
  | zero =>
    cases mode with
    | code state =>
      simp only [step, inCode, Nat.lt_irrefl, if_false]
      split
      · rfl
      · cases opened with
        | nil => rfl
        | cons o os =>
          dsimp only
          split <;> rfl
    | content =>
      have suspended := templates_suspend (offset + 1) offset 1 (c :: before) (.code .fresh) opened
        done
      simp only [step, inContent, Nat.lt_irrefl, if_false]
      split
      · rfl
      split
      · rfl
      split
      · split
        · rfl
        · exact suspended
      · split
        · exact suspended.symm
        · rfl

/-- What is read behind an offset closes no template before it. -/
theorem closedBefore_step (behind : k ≤ s.offset + s.skip) (c : Char) (rest : List Char) :
    (s.step c rest).closedBefore k = s.closedBefore k := by
  obtain ⟨offset, before, skip, mode, opened, done⟩ := s
  cases skip with
  | succ skip => rfl
  | zero =>
    have late : ¬ offset < k := Nat.not_lt.mpr behind
    cases mode with
    | code state =>
      simp only [step, inCode, Nat.lt_irrefl, if_false]
      split
      · -- A template that is opened is not closed.
        rw [closedBefore, templates_cons, List.filter_append]
        exact List.append_nil _
      · cases opened with
        | nil => rfl
        | cons o os =>
          dsimp only
          split
          · rw [closedBefore, closedBefore, templates_cons, templates_cons, List.filter_append,
              List.filter_append]
            rfl
          · rfl
    | content =>
      simp only [step, inContent, Nat.lt_irrefl, if_false]
      split
      · rfl
      split
      · cases opened with
        | nil => rfl
        | cons o os =>
          have closed := templates_add
            (Reading.mk offset before 0 (.code ⟨o.outer, .mark delimiter, false⟩) os done)
            (o.close (some offset))
          have isLate : (o.template (some offset)).isClosedBefore k = false := by
            simp [isClosedBefore, Opened.template, late]
          have kept : (o.close (some offset)).filter (isClosedBefore k) =
              (o.close none).filter (isClosedBefore k) := by
            rw [Opened.close_eq, Opened.close_eq, List.filter_cons_of_neg (by simp [isLate])]
            rfl
          have parts := congrArg (List.filter (isClosedBefore k)) closed
          rw [List.filter_append, kept, ← List.filter_append] at parts
          rw [closedBefore, closedBefore, templates_cons]
          exact parts
      split
      · exact congrArg _
          (templates_suspend (offset + 1) offset 1 (c :: before) (.code .fresh) opened done)
      · rfl

theorem closedBefore_run (behind : k ≤ s.offset + s.skip) (rest : List Char) :
    (s.run rest).closedBefore k = s.closedBefore k := by
  induction rest generalizing s with
  | nil => rfl
  | cons c rest ih =>
    have later : k ≤ (s.step c rest).offset + (s.step c rest).skip := by
      have skip := s.skip_le_step c rest
      rw [offset_step]
      omega
    rw [run, ih later, closedBefore_step behind]

/-- Two scripts that agree up to the end of a line close the same templates above it. -/
theorem closedBefore_run_line (plain : front.getLast? ≠ some '\\')
    (isEnd : s.offset + front.length = k) :
    (s.run (front ++ '\n' :: after')).closedBefore k =
      (s.run (front ++ '\n' :: after)).closedBefore k := by
  induction front generalizing s with
  | nil =>
    have behind : k ≤ s.offset + s.skip := isEnd ▸ Nat.le_add_right ..
    rw [closedBefore_run behind, closedBefore_run behind]
  | cons c front ih =>
    have plainRest := getLast?_tail_ne plain
    rw [List.length_cons] at isEnd
    rw [List.cons_append, List.cons_append, run, run]
    by_cases fits : (s.step c (front ++ '\n' :: after)).skip ≤ front.length
    · have place : (s.step c (front ++ '\n' :: after)).offset + front.length = k := by
        rw [offset_step]
        omega
      rw [step_line plainRest fits]
      exact ih plainRest place
    · -- The token reaches beyond the line, and so does the one that it is in the other script.
      have reaches : ¬ (s.step c (front ++ '\n' :: after')).skip ≤ front.length := by
        intro fits'
        rw [← step_line plainRest fits'] at fits'
        exact fits fits'
      have behind : k ≤ s.offset + 1 + (s.step c (front ++ '\n' :: after)).skip := by omega
      have behind' : k ≤ s.offset + 1 + (s.step c (front ++ '\n' :: after')).skip := by omega
      rw [closedBefore_run behind', closedBefore_run behind]
      exact congrArg _ (templates_step_congr ..)

end Reading

/-- The literals of a script that end before an offset come from the templates that do. -/
theorem filter_literals_javascript (text : List Char) (k : Nat) :
    (literals text .javascript).filter (·.stop < k) =
      ((all text).filter (isClosedBefore k)).filterMap fun t =>
        (extraction? text (.ofText text) t).bind Extraction.literal? := by
  rw [literals, scan, List.filterMap_filterMap, List.filter_filterMap, List.filterMap_filter]
  refine List.filterMap_congr fun t _ => ?_
  cases reported : extraction? text (.ofText text) t with
  | none => simp
  | some e =>
    cases e with
    | skipped reason place => simp [Extraction.literal?]
    | found literal =>
      obtain ⟨stop, isClosed, rfl, _⟩ := eq_ofSpan_of_extraction? reported
      by_cases before : stop < k <;>
        simp [isClosedBefore, isClosed, Extraction.literal?, Literal.ofSpan, before, Option.filter]

/-- A template that is closed above a place is reported as in the text above that place alone. -/
theorem filterMap_closedBefore {text : List Char} {k : Nat} (inside : k ≤ text.length) :
    ((all text).filter (isClosedBefore k)).filterMap (fun t =>
        (extraction? text (.ofText text) t).bind Extraction.literal?) =
      ((all text).filter (isClosedBefore k)).filterMap fun t =>
        (extraction? (text.take k) (.ofText (text.take k)) t).bind Extraction.literal? := by
  obtain ⟨_, nested⟩ := exists_areNested_all text
  refine List.filterMap_congr fun t member => ?_
  obtain ⟨isTemplate, isBefore⟩ := List.mem_filter.mp member
  obtain ⟨stop, isClosed, before⟩ := isClosedBefore_iff.mp isBefore
  have within : ∀ stop, t.closed = some stop → t.opened < stop ∧ stop ≤ (text.take k).length := by
    intro last isLast
    cases isClosed.symm.trans isLast
    rw [List.length_take_of_le inside]
    exact ⟨(nested.closed t isTemplate stop isClosed).ordered, Nat.le_of_lt before⟩
  have reported := extraction?_within within (text.drop k)
  rw [List.take_append_drop] at reported
  rw [reported]

/-- Where two scripts agree up to the end of a line that does not end with a backslash, they have
the same literals above it. -/
theorem literals_above_line {text text' : List Char} {k : Nat}
    (same : text.take (k + 1) = text'.take (k + 1)) (feed : text[k]? = some '\n')
    (plain : ∀ i, k = i + 1 → text[i]? ≠ some '\\') :
    (literals text .javascript).filter (·.stop < k) =
      (literals text' .javascript).filter (·.stop < k) := by
  have feed' : text'[k]? = some '\n' := by
    rw [← List.getElem?_take_of_lt (Nat.lt_succ_self k), ← same,
      List.getElem?_take_of_lt (Nat.lt_succ_self k), feed]
  have above : text'.take k = text.take k := by
    have shorter := congrArg (List.take k) same
    rw [List.take_take, List.take_take, Nat.min_eq_left (Nat.le_succ k)] at shorter
    exact shorter.symm
  have bound : k ≤ text.length := Nat.le_of_lt (List.getElem?_eq_some_iff.mp feed).1
  have bound' : k ≤ text'.length := Nat.le_of_lt (List.getElem?_eq_some_iff.mp feed').1
  have split {t : List Char} (feed : t[k]? = some '\n') :
      t = t.take k ++ '\n' :: t.drop (k + 1) := by
    obtain ⟨inside, isFeed⟩ := List.getElem?_eq_some_iff.mp feed
    rw [← isFeed, ← List.drop_eq_getElem_cons inside, List.take_append_drop]
  have notEscaped : (text.take k).getLast? ≠ some '\\' := by
    cases k with
    | zero => nofun
    | succ i =>
      have inside : i < text.length := bound
      rw [List.take_succ_eq_append_getElem inside, List.getLast?_concat]
      rw [← List.getElem?_eq_getElem inside]
      exact plain i rfl
  have templates : (all text).filter (isClosedBefore k) =
      (all text').filter (isClosedBefore k) := by
    have isEnd : Reading.start.offset + (text.take k).length = k := by
      rw [List.length_take_of_le bound]
      exact Nat.zero_add k
    have lines : (Reading.start.run (text.take k ++ '\n' :: text.drop (k + 1))).closedBefore k =
        (Reading.start.run (text.take k ++ '\n' :: text'.drop (k + 1))).closedBefore k :=
      Reading.closedBefore_run_line notEscaped isEnd
    rw [← split feed, ← above, ← split feed'] at lines
    exact lines
  rw [filter_literals_javascript, filter_literals_javascript, filterMap_closedBefore bound,
    filterMap_closedBefore bound', templates, above]

/-- A comment that is opened below the line and not closed leaves the template around the line open,
and the literal in its interpolation stays. -/
theorem literals_above_line_open :
    let text := "\x60$\x7bgql\x60a\x60\n\x7d\x60".toList
    let text' := "\x60$\x7bgql\x60a\x60\n/*".toList
    text.take 10 = text'.take 10 ∧ text[9]? = some '\n' ∧
      (∀ i, 9 = i + 1 → text[i]? ≠ some '\\') ∧
      (literals text .javascript).filter (·.stop < 9) =
        (literals text' .javascript).filter (·.stop < 9) ∧
      (literals text' .javascript).map (·.start) = [7] := by
  intro text text'
  have same : text.take 10 = text'.take 10 := by decide
  have feed : text[9]? = some '\n' := by decide
  have plain : ∀ i, 9 = i + 1 → text[i]? ≠ some '\\' := by
    rintro i place
    cases place
    decide
  exact ⟨same, feed, plain, literals_above_line same feed plain, by decide⟩

end InlineQuery.Template
