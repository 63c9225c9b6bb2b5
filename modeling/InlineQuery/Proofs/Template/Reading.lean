import InlineQuery.Proofs.Template.Nesting

namespace InlineQuery.Template
namespace Reading

/-- The open templates of which an interpolation is being read. -/
def suspended (s : Reading) : List Opened :=
  match s.mode with
  | .code _ => s.opened
  | .content => s.opened.tail

/-- What is known while a text is read: the templates so far are nested, each open one was opened
behind the opening mark of the interpolation around it, and its content is that of a template. -/
structure IsSound (text : List Char) (s : Reading) : Prop where
  nested : AreNested text s.templates s.offset
  holes : s.opened.Pairwise fun inner outer => outer.hole + 1 < inner.start
  suspended : ∀ o ∈ s.suspended, o.IsSuspended text (s.offset + s.skip)
  active : s.mode = .content → ∃ o os, s.opened = o :: os ∧ o.IsActive text s.offset s.skip

variable {text before since rest : List Char} {offset skip : Nat} {mode : Mode} {state : Code}
  {opened : List Opened} {done : List Template} {o : Opened} {c : Char}

theorem templates_cons : (Reading.mk offset before skip mode (o :: opened) done).templates =
    (Reading.mk offset before skip mode opened done).templates ++ o.template none :: o.inner := by
  simp [templates, Opened.close_eq]

theorem templates_add (s : Reading) (finished : List Template) :
    (s.add finished).templates = s.templates ++ finished := by
  obtain ⟨offset, before, skip, mode, opened, done⟩ := s
  cases opened with
  | nil => simp [add, templates]
  | cons o os => simp [add, templates, Opened.close]

theorem isSound_start (text : List Char) : Reading.start.IsSound text := by
  refine ⟨⟨?_, ?_, ?_, ?_⟩, ?_, ?_, ?_⟩ <;> simp [Reading.start, templates, suspended]

theorem IsSound.code (sound : (Reading.mk offset before skip (.code state) opened done).IsSound text)
    {next : Code} {more : Nat} (bound : skip ≤ more + 1) :
    (Reading.mk (offset + 1) since more (.code next) opened done).IsSound text where
  nested := sound.nested.mono (Nat.le_succ offset)
  holes := sound.holes
  suspended o member := (sound.suspended o member).mono (by simp only; omega)
  active isContent := by cases isContent

theorem IsSound.content (sound : (Reading.mk offset before skip .content opened done).IsSound text)
    (since : List Char) (atOffset : text[offset]? = some c) (escaped : c = delimiter → skip = 1) :
    (Reading.mk (offset + 1) since (if c = '\\' then (skip + 1) % 2 else 0) .content opened
      done).IsSound text := by
  obtain ⟨o, os, isOpened, active⟩ := sound.active rfl
  have parity : skip < 2 := by
    have parity := active.parity
    simp only at parity
    omega
  refine ⟨sound.nested.mono (Nat.le_succ offset), sound.holes, ?_, ?_⟩
  · intro outer member
    exact (sound.suspended outer member).mono (by simp only; split <;> omega)
  · exact fun _ => ⟨o, os, isOpened, active.push atOffset escaped⟩

theorem IsSound.open (sound : (Reading.mk offset before 0 (.code state) opened done).IsSound text)
    (atOffset : text[offset]? = some delimiter) {tag : Option String} {marked : Bool}
    {outer : Nat} :
    (Reading.mk (offset + 1) since 0 .content (⟨offset, tag, marked, [], 0, [], outer⟩ :: opened)
      done).IsSound text := by
  refine ⟨?_, List.pairwise_cons.mpr ⟨?_, sound.holes⟩, ?_, ?_⟩
  · rw [templates_cons]
    exact sound.nested.concat rfl rfl
  · intro o member
    exact (sound.suspended o member).reached
  · intro o member
    exact (sound.suspended o member).mono (Nat.le_succ offset)
  · exact fun _ => ⟨_, opened, rfl, Opened.isActive_opened atOffset⟩

theorem IsSound.suspend (sound : (Reading.mk offset before 0 .content opened done).IsSound text)
    (dollar : text[offset]? = some '$') (opening : text[offset + 1]? = some '{') :
    (Reading.mk (offset + 1) since 1 (.code .fresh)
      (opened.modifyHead fun o => { o with hole := offset }) done).IsSound text := by
  obtain ⟨o, os, isOpened, active⟩ := sound.active rfl
  cases isOpened
  have apart := List.pairwise_cons.mp sound.holes
  refine ⟨?_, List.pairwise_cons.mpr ⟨apart.1, apart.2⟩, ?_, fun isContent => by cases isContent⟩
  · have nested := sound.nested.mono (Nat.le_succ offset)
    rw [templates_cons] at nested
    rw [List.modifyHead_cons, templates_cons]
    exact nested
  · intro outer member
    rcases List.mem_cons.mp member with rfl | old
    · exact active.suspend dollar opening
    · exact (sound.suspended outer old).mono (by simp only; omega)

theorem IsSound.resume
    (sound : (Reading.mk offset before 0 (.code state) (o :: opened) done).IsSound text)
    (atOffset : text[offset]? = some '}') :
    (Reading.mk (offset + 1) since 0 .content
      ({ o with spans := o.spans ++ [⟨o.hole - (o.start + 1), offset + 1 - (o.start + 1)⟩] } ::
        opened) done).IsSound text := by
  have nested := sound.nested
  rw [templates_cons] at nested
  have closed_lt : ∀ t ∈ o.inner, ∀ stop, t.closed = some stop → stop < offset := fun t member =>
    nested.closed_lt t (List.mem_append_right _ (List.mem_cons_of_mem _ member))
  have apart := List.pairwise_cons.mp sound.holes
  refine ⟨?_, List.pairwise_cons.mpr ⟨apart.1, apart.2⟩, ?_, ?_⟩
  · rw [templates_cons]
    exact nested.replace rfl rfl (Nat.le_succ offset) fun stop isClosed => by cases isClosed
  · intro outer member
    exact (sound.suspended outer (List.mem_cons_of_mem _ member)).mono (Nat.le_succ offset)
  · have known := sound.suspended o (List.mem_cons_self ..)
    exact fun _ => ⟨_, opened, rfl, known.resume atOffset closed_lt⟩

/-- A delimiter that is not escaped closes the innermost open template. It becomes one of the
templates in the interpolation around it. -/
theorem IsSound.close (sound : (Reading.mk offset before 0 .content (o :: opened) done).IsSound text)
    (atOffset : text[offset]? = some delimiter) :
    ({ (Reading.mk offset before 0 (.code state) opened done).add (o.close (some offset)) with
      offset := offset + 1, before := since }).IsSound text := by
  obtain ⟨_, _, isOpened, active⟩ := sound.active rfl
  cases isOpened
  have nested := sound.nested
  rw [templates_cons] at nested
  have apart := List.pairwise_cons.mp sound.holes
  have closes : ({ (Reading.mk offset before 0 (.code state) opened done).add
      (o.close (some offset)) with offset := offset + 1, before := since } : Reading).templates =
      (Reading.mk offset before 0 .content opened done).templates ++
        o.template (some offset) :: o.inner :=
    templates_add (Reading.mk offset before 0 (.code state) opened done) _
  have last : (o.template (some offset)).IsClosedAt text offset :=
    ⟨active.opens, atOffset, active.ordered, active.content⟩
  refine ⟨?_, ?_, ?_, ?_⟩
  · rw [closes]
    refine nested.replace rfl rfl (Nat.le_succ offset) fun stop isClosed => ?_
    cases isClosed
    exact ⟨Nat.lt_succ_self offset, last, active.inner⟩
  · cases opened with
    | nil => exact .nil
    | cons outer others =>
      have rest := List.pairwise_cons.mp apart.2
      exact .cons rest.1 rest.2
  · cases opened with
    | nil => simp [Reading.suspended, Reading.add]
    | cons outer others =>
      intro p member
      rcases List.mem_cons.mp member with rfl | old
      · have known := sound.suspended outer (List.mem_cons_self ..)
        exact (known.mono (Nat.le_succ offset)).add (apart.1 outer (List.mem_cons_self ..))
          active.inner
      · exact (sound.suspended p (List.mem_cons_of_mem _ old)).mono (Nat.le_succ offset)
  · cases opened <;> exact fun isContent => by cases isContent

/-- A token of code, or the rest of one, is read. -/
theorem IsSound.inCode (sound : (Reading.mk offset before 0 (.code state) opened done).IsSound text)
    (atOffset : text[offset]? = some c) :
    ({ (Reading.mk offset before 0 (.code state) opened done).inCode state c rest with
      offset := offset + 1, before := since }).IsSound text := by
  unfold Reading.inCode
  by_cases opens : c = delimiter
  · subst opens
    simpa only [beq_self_eq_true, if_true] using sound.open atOffset
  · simp only [beq_iff_eq, opens, if_false]
    cases opened with
    | nil => exact sound.code (Nat.zero_le _)
    | cons o os =>
      by_cases closes : (c == '}' && state.depth == 0) = true
      · have isBrace : c = '}' := by simp only [Bool.and_eq_true, beq_iff_eq] at closes; exact closes.1
        subst isBrace
        simpa only [closes, if_true] using sound.resume atOffset
      · simp only [closes]
        exact sound.code (Nat.zero_le _)

/-- A character of a template's content is read that no escape stands before. -/
theorem IsSound.inContent (sound : (Reading.mk offset before 0 .content opened done).IsSound text)
    (ahead : text.drop offset = c :: rest) :
    ({ (Reading.mk offset before 0 .content opened done).inContent c rest with
      offset := offset + 1, before := since }).IsSound text := by
  have atOffset : text[offset]? = some c := getElem?_of_drop ahead
  obtain ⟨o, os, isOpened, active⟩ := sound.active rfl
  cases isOpened
  unfold Reading.inContent
  by_cases escapes : c = '\\'
  · subst escapes
    simpa [delimiter] using sound.content since atOffset (by decide)
  by_cases closes : c = delimiter
  · subst closes
    simpa [delimiter] using sound.close atOffset
  have plain : (Reading.mk (offset + 1) since 0 .content (o :: os) done).IsSound text := by
    simpa [escapes] using sound.content since atOffset (fun h => absurd h closes)
  by_cases suspends : (c == '$' && rest.head? == some '{') = true
  · simp only [Bool.and_eq_true, beq_iff_eq] at suspends
    have opening : text[offset + 1]? = some '{' := by
      rw [← List.head?_drop, drop_succ_of_drop ahead, suspends.2]
    have dollar : text[offset]? = some '$' := by rw [atOffset, suspends.1]
    simpa [suspends, delimiter] using sound.suspend dollar opening
  · simpa [escapes, closes, suspends] using plain

theorem IsSound.step {s : Reading} (sound : s.IsSound text) (ahead : text.drop s.offset = c :: rest) :
    (s.step c rest).IsSound text := by
  have atOffset : text[s.offset]? = some c := getElem?_of_drop ahead
  obtain ⟨offset, before, skip, mode, opened, done⟩ := s
  cases skip with
  | zero =>
    cases mode with
    | code state => exact sound.inCode atOffset
    | content => exact sound.inContent ahead
  | succ skip =>
    cases mode with
    | code state => exact sound.code (Nat.le_refl _)
    | content =>
      obtain ⟨o, os, isOpened, active⟩ := sound.active rfl
      have parity : skip = 0 := by
        have parity := active.parity
        simp only at parity
        omega
      subst parity
      simpa [Reading.step] using sound.content (c :: before) atOffset (fun _ => rfl)

theorem offset_step (s : Reading) : (s.step c rest).offset = s.offset + 1 := rfl

theorem drop_step {s : Reading} (ahead : text.drop s.offset = c :: rest) :
    text.drop (s.step c rest).offset = rest := by
  rw [offset_step, drop_succ_of_drop ahead]

theorem IsSound.run {s : Reading} (sound : s.IsSound text) (ahead : text.drop s.offset = rest) :
    (s.run rest).IsSound text := by
  induction rest generalizing s with
  | nil => exact sound
  | cons c rest ih => exact ih (sound.step ahead) (drop_step ahead)

end Reading

/-- The templates of a text are nested, and each that is closed is delimited and interpolated as a
template is. -/
theorem exists_areNested_all (text : List Char) : ∃ offset, AreNested text (all text) offset :=
  ⟨_, ((Reading.isSound_start text).run rfl).nested⟩

end InlineQuery.Template
