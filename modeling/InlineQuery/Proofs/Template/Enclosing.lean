import InlineQuery.Proofs.Template.Seam

/-!
A script in an interpolation of a template. As long as no brace closes the interpolation, it is read
as it is outside of all templates, with one more open template below all others, which takes in what
would be done otherwise. At its end it leaves the interpolation open, and what it holds is reported
behind the template around it.
-/

namespace InlineQuery.Template

/-- A script as the only interpolation of a template, behind the name that tags it. -/
def interpolated (outer text : List Char) : List Char :=
  outer ++ ['\x60', '$', '\x7b'] ++ (text ++ ['\x7d', '\x60'])

/-- Whether a character outside of all templates is a brace that closes no brace of the script. -/
def Reading.leaves (s : Reading) (c : Char) : Bool :=
  match s.mode with
  | .code state => s.skip == 0 && s.opened.isEmpty && c == '\x7d' && state.depth == 0
  | .content => false

/-- No brace of a text, given what follows it, leaves the script. -/
def Reading.StaysInside (s : Reading) : List Char → List Char → Prop
  | [], _ => True
  | c :: text, behind => s.leaves c = false ∧ (s.step c (text ++ behind)).StaysInside text behind

instance Reading.decidableStaysInside (s : Reading) :
    (text behind : List Char) → Decidable (s.StaysInside text behind)
  | [], _ => isTrue trivial
  | c :: text, behind =>
    have := decidableStaysInside (s.step c (text ++ behind)) text behind
    inferInstanceAs (Decidable
      (s.leaves c = false ∧ (s.step c (text ++ behind)).StaysInside text behind))

/-- A script that keeps to itself: it ends with a statement outside of all braces and with its line,
and no brace leaves it. -/
structure IsSelfContained (text : List Char) : Prop where
  ends : ∃ front state, text = front ++ [';', '\n'] ∧
    (Reading.start.readTo front [';', '\n']).IsTopLevel ∧
    (Reading.start.readTo front [';', '\n']).mode = .code state ∧ state.depth = 0
  inside : Reading.start.StaysInside text []

/-- The reading in the interpolation of an open template that is outside of all templates else. -/
def Reading.enclose (around : Opened) (s : Reading) : Reading :=
  { s with opened := s.opened ++ [{ around with inner := s.done }], done := [] }

/-- The reading of a script behind another text. -/
def Reading.behind (front : List Char) : Reading :=
  { Reading.start with offset := front.length, before := front.reverse }

namespace Reading

variable {s t : Reading} {front text behind after after' : List Char} {done : List Template}
  {around : Opened} {c : Char}

/-! ### Staying inside -/

theorem leaves_of_ne (s : Reading) (other : c ≠ '\x7d') : s.leaves c = false := by
  unfold leaves
  split
  · simp [other]
  · rfl

theorem staysInside_append (s : Reading) (front text behind : List Char) :
    s.StaysInside (front ++ text) behind ↔ s.StaysInside front (text ++ behind) ∧
      (s.readTo front (text ++ behind)).StaysInside text behind := by
  induction front generalizing s with
  | nil => exact ⟨fun inside => ⟨trivial, inside⟩, And.right⟩
  | cons c front ih =>
    rw [List.cons_append, StaysInside, StaysInside, readTo, List.append_assoc, ih, and_assoc]

theorem staysInside_line (plain : front.getLast? ≠ some '\\')
    (isRead : (s.readTo front ('\n' :: after)).skip = 0)
    (inside : s.StaysInside front ('\n' :: after)) : s.StaysInside front ('\n' :: after') := by
  induction front generalizing s with
  | nil => trivial
  | cons c front ih =>
    have plainRest := getLast?_tail_ne plain
    have fits : (s.step c (front ++ '\n' :: after)).skip ≤ front.length := skip_le_of_readTo isRead
    refine ⟨inside.1, ?_⟩
    rw [step_line plainRest fits]
    exact ih plainRest isRead inside.2

theorem IsMoved.leaves (moved : s.IsMoved True front done t) (c : Char) :
    t.leaves c = s.leaves c := by
  obtain ⟨offset, before, skip, mode, opened, found⟩ := s
  obtain ⟨offset', before', skip', mode', opened', found'⟩ := t
  have depths := moved.depths
  have alike := moved.mode
  have isOpened := moved.opened
  cases (moved.skip : skip' = skip)
  cases alike with
  | content => rfl
  | code alike =>
    cases isOpened with
    | nil =>
      have same := AlikeInside.of_singleton depths trivial
      simp only [Reading.leaves, same]
    | cons => simp [Reading.leaves]

/-- Outside of all templates, the script alone is there, too, and at the same depth of braces. -/
theorem IsMoved.isTopLevel {state : Code} (moved : s.IsMoved True front done t) (top : s.IsTopLevel)
    (isCode : s.mode = .code state) :
    t.IsTopLevel ∧ ∃ state', t.mode = .code state' ∧ state'.depth = state.depth := by
  have isOpened := moved.opened
  have alike := moved.mode
  have depths := moved.depths
  rw [top.opened, List.forall₂_nil_left_iff] at isOpened
  rw [isCode] at alike
  cases isCode' : t.mode with
  | content => rw [isCode'] at alike; cases alike
  | code state' =>
    rw [Reading.depths, isCode, top.opened, Reading.depths, isCode', isOpened] at depths
    exact ⟨⟨moved.skip.trans top.skip, isOpened, state', isCode'⟩, state', rfl,
      depths.of_singleton trivial⟩

theorem IsMoved.staysInside (moved : s.IsMoved True front done t)
    (seam : ∀ before, tagBefore (before ++ front.reverse) = tagBefore before)
    (inside : s.StaysInside text behind) : t.StaysInside text behind := by
  induction text generalizing s t with
  | nil => trivial
  | cons c text ih =>
    refine ⟨?_, ih (moved.step seam c _) inside.2⟩
    rw [moved.leaves]
    exact inside.1

/-! ### The reading in the interpolation -/

theorem enclose_step (content : s.mode = .content → s.opened ≠ []) (inside : s.leaves c = false)
    (rest : List Char) : (s.enclose around).step c rest = (s.step c rest).enclose around := by
  obtain ⟨offset, before, skip, mode, opened, done⟩ := s
  cases skip with
  | succ skip => rfl
  | zero =>
    cases mode with
    | code state =>
      simp only [step, inCode, enclose, Nat.lt_irrefl, if_false]
      split
      · rfl
      · cases opened with
        | nil =>
          have stays : (c == '\x7d' && state.depth == 0) = false := inside
          rw [List.nil_append]
          dsimp only
          rw [if_neg (by simp [stays])]
        | cons o os =>
          rw [List.cons_append]
          dsimp only
          split <;> rfl
    | content =>
      cases opened with
      | nil => exact absurd rfl (content rfl)
      | cons o os =>
        simp only [step, inContent, enclose, Nat.lt_irrefl, if_false, List.cons_append]
        split
        · rfl
        split
        · cases os <;> rfl
        split <;> rfl

theorem IsMoved.opened_ne_nil {same : Prop} (moved : s.IsMoved same front done t)
    (isContent : t.mode = .content) : t.opened ≠ [] := by
  intro isTop
  refine moved.depths.ne_nil ?_
  rw [Reading.depths, isContent, isTop]
  rfl

theorem IsMoved.enclose_readTo (moved : s.IsMoved True front done t)
    (seam : ∀ before, tagBefore (before ++ front.reverse) = tagBefore before)
    (inside : t.StaysInside text behind) :
    (t.enclose around).readTo text behind = (t.readTo text behind).enclose around := by
  induction text generalizing s t with
  | nil => rfl
  | cons c text ih =>
    rw [Reading.readTo, Reading.readTo, enclose_step moved.opened_ne_nil inside.1]
    exact ih (moved.step seam c _) inside.2

/-- A brace and a delimiter behind the script close the template around it. -/
theorem templates_run_enclose {state : Code} (top : t.IsTopLevel) (isCode : t.mode = .code state)
    (flat : state.depth = 0) : ((t.enclose around).run ['\x7d', '\x60']).templates =
      ⟨around.start, some (t.offset + 1), around.tag, around.marked, around.spans ++
        [⟨around.hole - (around.start + 1), t.offset + 1 - (around.start + 1)⟩]⟩ :: t.done := by
  obtain ⟨offset, before, skip, mode, opened, done⟩ := t
  obtain ⟨isFree, isTop, -⟩ := top
  cases isFree
  cases isTop
  cases isCode
  simp [enclose, run, step, inCode, inContent, delimiter, add, Reading.templates, Opened.close,
    flat]

theorem isMoved_behind (front : List Char) :
    Reading.start.IsMoved True front [] (Reading.behind front) where
  offset := rfl
  before := rfl
  skip := rfl
  mode := .code ⟨rfl, rfl⟩
  opened := .nil
  depths := .outermost 0 0 fun _ => rfl
  done := rfl

end Reading

/-! ### The whole template -/

variable {outer text : List Char} {tag : Option String}

/-- The state behind the opening mark of the interpolation. -/
def IsOuter (outer : List Char) (tag : Option String) : Prop :=
  ∀ rest, Reading.start.readTo (outer ++ ['\x60', '$', '\x7b']) rest =
    (Reading.behind (outer ++ ['\x60', '$', '\x7b'])).enclose
      ⟨outer.length, tag, false, [], outer.length + 1, [], 0⟩

theorem isBar_opening (front : List Char) : IsBar ('\x7b' :: front) := ⟨rfl, rfl, rfl⟩

theorem IsSelfContained.readTo (contained : IsSelfContained text) (behind : List Char) :
    Reading.start.StaysInside text behind ∧
      (Reading.start.readTo text behind).IsAfter ';' 0 (all text) := by
  obtain ⟨⟨line, state, isText, top, isCode, depth⟩, inside⟩ := contained
  have after := Reading.isAfter_line rfl top isCode
  rw [← isText, depth] at after
  refine ⟨?_, ?_⟩
  · have whole : text = (line ++ [';']) ++ ['\n'] := by rw [isText, List.append_assoc]; rfl
    have plain : (line ++ [';']).getLast? ≠ some '\\' := by simp
    have isRead : (Reading.start.readTo (line ++ [';']) ['\n']).skip = 0 := by
      rw [Reading.readTo_append]
      exact (top.step_end isCode rfl ['\n']).skip
    rw [whole, Reading.staysInside_append] at inside ⊢
    exact ⟨Reading.staysInside_line plain isRead inside.1, Reading.leaves_of_ne _ (by decide),
      trivial⟩
  · rw [(after []).all_eq]
    exact after behind

theorem all_interpolated (isOuter : IsOuter outer tag) (contained : IsSelfContained text) :
    all (interpolated outer text) =
      ⟨outer.length, some (outer.length + (text.length + 4)), tag, false, [⟨0, text.length + 3⟩]⟩ ::
        (all text).map (.shift (outer.length + 3)) := by
  have seam (before : List Char) : tagBefore (before ++ (outer ++ ['\x60', '$', '\x7b']).reverse) =
      tagBefore before := by
    rw [List.reverse_append]
    exact (isBar_opening _).tagBefore_append before
  obtain ⟨inside, after⟩ := contained.readTo ['\x7d', '\x60']
  have start := Reading.isMoved_behind (outer ++ ['\x60', '$', '\x7b'])
  have moved := start.readTo seam text ['\x7d', '\x60']
  obtain ⟨top, state, isCode, flat⟩ := moved.isTopLevel after.toIsTopLevel after.code
  have length : (outer ++ ['\x60', '$', '\x7b']).length = outer.length + 3 := List.length_append
  rw [all, interpolated, Reading.run_append, isOuter, Reading.run_append,
    start.enclose_readTo seam (start.staysInside seam inside),
    Reading.templates_run_enclose top isCode flat, moved.done, after.done, List.nil_append,
    Reading.offset_readTo, Reading.behind, length]
  have hole : outer.length + 1 - (outer.length + 1) = 0 := Nat.sub_self _
  have closed : outer.length + 3 + text.length + 1 = outer.length + (text.length + 4) := by omega
  have width : outer.length + (text.length + 4) - (outer.length + 1) = text.length + 3 := by omega
  simp only [hole, closed, width, List.nil_append]

/-! ### What is reported -/

/-- The literal that stands around a script which is its only interpolation. -/
def literalAround (tag : Option String) (column : Nat) (text : List Char) : Literal where
  raw := '$' :: '\x7b' :: text ++ ['\x7d']
  start := column
  stop := column + (text.length + 3)
  startPos := (0, column)
  stopPos := (text.count '\n', 1)
  tag := tag
  interpolations := [⟨0, text.length + 3⟩]

theorem slice_around (outer text : List Char) :
    (Span.mk (outer.length + 1) (outer.length + (text.length + 4))).slice
      (interpolated outer text) = '$' :: '\x7b' :: text ++ ['\x7d'] := by
  have parts : interpolated outer text =
      (outer ++ ['\x60']) ++ (('$' :: '\x7b' :: text ++ ['\x7d']) ++ ['\x60']) := by
    simp [interpolated]
  have front : (outer ++ ['\x60']).length = outer.length + 1 := List.length_append
  have width : ('$' :: '\x7b' :: text ++ ['\x7d']).length = text.length + 3 := by simp
  have content := Span.slice_behind ⟨0, text.length + 3⟩ (outer ++ ['\x60'])
    (('$' :: '\x7b' :: text ++ ['\x7d']) ++ ['\x60'])
  have whole : (Span.mk 0 (text.length + 3)).slice ('$' :: '\x7b' :: text ++ ['\x7d']) =
      '$' :: '\x7b' :: text ++ ['\x7d'] := by
    rw [Span.slice, List.drop_zero, ← width, Nat.sub_zero, List.take_length]
  have stop : outer.length + 1 + (text.length + 3) = outer.length + (text.length + 4) := by omega
  rw [← parts, Span.slice_before (Nat.le_of_eq width.symm), whole, Span.shift, front, Nat.add_zero,
    stop] at content
  exact content

theorem ofSpan_around (noFeed : '\n' ∉ outer) (contained : IsSelfContained text) :
    Literal.ofSpan (interpolated outer text) (.ofText (interpolated outer text))
        ⟨outer.length + 1, outer.length + (text.length + 4)⟩ tag [⟨0, text.length + 3⟩] =
      literalAround tag (outer.length + 1) text := by
  have feeds : text.getLast? = some '\n' := by
    obtain ⟨⟨line, _, rfl, -⟩, -⟩ := contained
    simp
  have lines : text.count '\n' ≠ 0 :=
    Nat.ne_of_gt (List.count_pos_iff.mpr (List.mem_of_getLast? feeds))
  have startPos : (LineIndex.ofText (interpolated outer text)).position (outer.length + 1) =
      (0, outer.length + 1) := by
    have front : (outer ++ ['\x60']).length = outer.length + 1 := List.length_append
    have noFeed : '\n' ∉ outer ++ ['\x60'] := by simpa using noFeed
    have moved := LineIndex.position_indented noFeed ('$' :: '\x7b' :: (text ++ ['\x7d', '\x60'])) 0
    have origin := LineIndex.position_before (show 0 ≤ ([] : List Char).length from Nat.le_refl 0)
      ('$' :: '\x7b' :: (text ++ ['\x7d', '\x60']))
    rw [List.nil_append] at origin
    rw [origin, front] at moved
    have parts : interpolated outer text =
        outer ++ ['\x60'] ++ ('$' :: '\x7b' :: (text ++ ['\x7d', '\x60'])) := by simp [interpolated]
    rw [parts]
    exact moved
  have stopPos : (LineIndex.ofText (interpolated outer text)).position
      (outer.length + (text.length + 4)) = (text.count '\n', 1) := by
    have front : (outer ++ ['\x60', '$', '\x7b']).length = outer.length + 3 := List.length_append
    have noFeed : '\n' ∉ outer ++ ['\x60', '$', '\x7b'] := by simpa using noFeed
    have moved := LineIndex.position_indented noFeed (text ++ ['\x7d', '\x60']) (text.length + 1)
    have place : outer.length + 3 + (text.length + 1) = outer.length + (text.length + 4) := by omega
    rw [LineIndex.position_behind feeds, front, place] at moved
    rw [interpolated, moved, LineIndex.indent]
    exact Prod.ext rfl (if_neg lines)
  rw [Literal.ofSpan, slice_around, startPos, stopPos, literalAround]
  have stop : outer.length + 1 + (text.length + 3) = outer.length + (text.length + 4) := by omega
  rw [stop]

/-- What a script holds is reported in an interpolation as it is alone. -/
theorem scan_inside (noFeed : '\n' ∉ outer) (text behind : List Char) :
    ((all text).map (.shift outer.length)).filterMap
        (extraction? (outer ++ (text ++ behind)) (.ofText (outer ++ (text ++ behind)))) =
      (scan text .javascript).map (.indent outer.length) := by
  obtain ⟨_, nested⟩ := exists_areNested_all text
  rw [scan, List.filterMap_map, List.map_filterMap]
  refine List.filterMap_congr fun t member => ?_
  have within : ∀ stop, (t.shift outer.length).closed = some stop →
      (t.shift outer.length).opened < stop ∧ stop ≤ (outer ++ text).length := by
    intro last isLast
    obtain ⟨stop, isClosed, rfl⟩ := Option.map_eq_some_iff.mp isLast
    have known := nested.closed t member stop isClosed
    have bound := (List.getElem?_eq_some_iff.mp known.closes).1
    have ordered := known.ordered
    rw [List.length_append]
    exact ⟨Nat.add_lt_add_left ordered _, by omega⟩
  rw [← List.append_assoc, Function.comp_apply, extraction?_within within behind,
    extraction?_indented noFeed]

/-- A template around a script is reported in front of what the script holds, if it is tagged. -/
theorem scan_interpolated (isOuter : IsOuter outer tag) (noFeed : '\n' ∉ outer)
    (contained : IsSelfContained text) : scan (interpolated outer text) .javascript =
      (tag.map fun _ => Extraction.found (literalAround tag (outer.length + 1) text)).toList ++
        (scan text .javascript).map (.indent (outer.length + 3)) := by
  have length : (outer ++ ['\x60', '$', '\x7b']).length = outer.length + 3 := List.length_append
  have front : '\n' ∉ outer ++ ['\x60', '$', '\x7b'] := by simpa using noFeed
  have inner := scan_inside front text ['\x7d', '\x60']
  have whole : extraction? (interpolated outer text) (.ofText (interpolated outer text))
      ⟨outer.length, some (outer.length + (text.length + 4)), tag, false, [⟨0, text.length + 3⟩]⟩ =
      tag.map fun _ => Extraction.found (literalAround tag (outer.length + 1) text) := by
    unfold extraction?
    cases tag with
    | none => rfl
    | some name =>
      have visible : Text.isBlank ('$' :: '\x7b' :: text ++ ['\x7d']) = false := rfl
      dsimp only
      rw [slice_around, visible, ofSpan_around noFeed contained]
      rfl
  rw [length] at inner
  rw [scan, all_interpolated isOuter contained, ← inner, ← List.singleton_append,
    List.filterMap_append]
  refine congrArg₂ (· ++ ·) ?_ rfl
  rw [List.filterMap_cons, whole]
  cases tag <;> rfl

/-- A script that keeps to itself is scanned in an interpolation of a template as it is alone. A
template that is tagged is reported in front of that, and all its content is the interpolation. -/
theorem scan_javascript_interpolated (contained : IsSelfContained text) :
    scan (interpolated ['x'] text) .javascript = (scan text .javascript).map (.indent 4) ∧
      scan (interpolated ['g', 'q', 'l'] text) .javascript =
        .found (literalAround (some "gql") 4 text) :: (scan text .javascript).map (.indent 6) := by
  have plain : IsOuter ['x'] none := fun _ => rfl
  have tagged : IsOuter ['g', 'q', 'l'] (some "gql") := fun _ => rfl
  exact ⟨scan_interpolated plain (by decide) contained,
    scan_interpolated tagged (by decide) contained⟩

/-- A block with a literal in it, and a template that holds another one. -/
theorem scan_javascript_interpolated_nested :
    let text := "\x7b a = gql\x60b\x60 \x7d\nc = \x60$\x7bgql\x60d\x60\x7d\x60;\n".toList
    IsSelfContained text ∧
      scan (interpolated ['x'] text) .javascript = (scan text .javascript).map (.indent 4) ∧
      scan (interpolated ['g', 'q', 'l'] text) .javascript =
        .found (literalAround (some "gql") 4 text) :: (scan text .javascript).map (.indent 6) ∧
      (scan text .javascript).length = 2 := by
  intro text
  have contained : IsSelfContained text := by
    refine ⟨⟨"\x7b a = gql\x60b\x60 \x7d\nc = \x60$\x7bgql\x60d\x60\x7d\x60".toList,
      ⟨0, .mark delimiter, false⟩, rfl, ⟨?_, ?_, ⟨0, .mark delimiter, false⟩, ?_⟩, ?_, rfl⟩, ?_⟩ <;>
      decide
  obtain ⟨plain, tagged⟩ := scan_javascript_interpolated contained
  exact ⟨contained, plain, tagged, by decide⟩

end InlineQuery.Template
