import InlineQuery.Proofs.Template.Masking
import Mathlib.Data.List.Forall2

/-!
A script with some of its comments blanked out. Its templates stand where they stood, whatever the
comments were. Only how they are designated can change, since the tag in front of a template and the
comment that marks it are looked up in the text as it is.
-/

namespace InlineQuery.Template

open Literal (isIdent isGap lineRest)

/-! ### What reading a text has to do with tags -/

/-- A template without what designates it as GraphQL. -/
def bare (t : Template) : Template := { t with tag := none, marked := false }

def Code.bare (state : Code) : Code := { state with marked := false }

def Opened.bare (o : Opened) : Opened :=
  { o with tag := none, marked := false, inner := o.inner.map Template.bare }

def Mode.bare : Mode → Mode
  | code state => code state.bare
  | content => content

/-- A state of reading without what it knows of tags and marks. -/
def Reading.bare (s : Reading) : Reading :=
  { s with
    before := [], mode := s.mode.bare, opened := s.opened.map Opened.bare
    done := s.done.map Template.bare }

@[simp] theorem bare_bare (t : Template) : t.bare.bare = t.bare := rfl

@[simp] theorem Opened.bare_bare (o : Opened) : o.bare.bare = o.bare := by
  simp [Opened.bare]

@[simp] theorem Mode.bare_bare (mode : Mode) : mode.bare.bare = mode.bare := by
  cases mode <;> rfl

/-- A token takes the same part of the text whether or not a comment marks what follows. -/
theorem codeToken_bare (state : Code) (c : Char) (rest : List Char) :
    (codeToken state.bare c rest).2 = (codeToken state c rest).2 ∧
      (codeToken state.bare c rest).1.bare = (codeToken state c rest).1.bare := by
  obtain ⟨next, n, token⟩ := exists_isToken state.last.beforeRegex c rest
  have same : IsToken state.bare.last.beforeRegex c rest next n := token
  rw [same.codeToken_eq, token.codeToken_eq]
  cases token <;> exact ⟨rfl, rfl⟩

namespace Reading

variable {s s' : Reading} {c : Char} {rest rest' : List Char} {state : Code}

theorem bare_templates (s : Reading) : s.templates.map Template.bare = s.bare.templates := by
  simp only [templates, bare, List.map_append, List.map_flatten, List.map_map, List.map_reverse]
  rfl

@[simp] theorem bare_bare (s : Reading) : s.bare.bare = s.bare := by
  simp [bare]

theorem bare_inCode (s : Reading) (state : Code) (c : Char) (rest : List Char) :
    (s.bare.inCode state.bare c rest).bare = (s.inCode state c rest).bare := by
  obtain ⟨offset, before, skip, mode, opened, done⟩ := s
  obtain ⟨same, token⟩ := codeToken_bare state c rest
  unfold inCode
  split
  · simp [bare, Mode.bare, Opened.bare, Code.bare]
  cases opened with
  | nil => simp [bare, Mode.bare, token, same]
  | cons o os =>
    have depth : state.bare.depth = state.depth := rfl
    simp only [bare, List.map_cons, depth]
    split
    · simp [Mode.bare, Opened.bare]
    · simp [Mode.bare, token, same]

theorem bare_inContent (s : Reading) (c : Char) (rest : List Char) :
    (s.bare.inContent c rest).bare = (s.inContent c rest).bare := by
  obtain ⟨offset, before, skip, mode, opened, done⟩ := s
  unfold inContent
  split
  · simp [bare]
  split
  · cases opened with
    | nil => simp [bare]
    | cons o os =>
      have twice : Template.bare ∘ Template.bare = Template.bare := rfl
      cases os <;> simp [bare, add, Opened.bare, Opened.close, Mode.bare, Template.bare, twice]
  split
  · cases opened with
    | nil => simp [bare, Mode.bare]
    | cons o os => simp [bare, Mode.bare, Opened.bare]
  · simp

theorem bare_step (s : Reading) (c : Char) (rest : List Char) :
    (s.bare.step c rest).bare = (s.step c rest).bare := by
  obtain ⟨offset, before, skip, mode, opened, done⟩ := s
  -- Only the offset is set by the step itself.
  have moved (s : Reading) (before : List Char) :
      ({ s with offset := offset + 1, before } : Reading).bare = { s.bare with offset := offset + 1 } :=
    rfl
  cases skip with
  | zero =>
    cases mode with
    | code state => exact congrArg ({ · with offset := offset + 1 }) (bare_inCode _ state c rest)
    | content => exact congrArg ({ · with offset := offset + 1 }) (bare_inContent _ c rest)
  | succ skip => simp [step, bare]

/-- Two states that agree up to tags and marks go on to agree. -/
theorem bare_step_congr (same : s'.bare = s.bare) (c : Char) (rest : List Char) :
    (s'.step c rest).bare = (s.step c rest).bare := by
  rw [← bare_step s', same, bare_step]

/-! ### Reading with and without comments -/

theorem inCode_masked (masks : Masks (s.inCode state c rest).skip rest rest')
    (divides : rest.head? ≠ some '/' → regexRest rest = none → regexRest rest' = none) :
    s.inCode state c rest' = s.inCode state c rest := by
  unfold inCode at masks ⊢
  split
  · rfl
  · rename_i notOpened
    rw [if_neg notOpened] at masks
    cases isOpened : s.opened with
    | nil =>
      simp only [isOpened] at masks ⊢
      rw [codeToken_masked masks divides]
    | cons o os =>
      simp only [isOpened] at masks ⊢
      split
      · rfl
      · rename_i notClosed
        rw [if_neg notClosed] at masks
        rw [codeToken_masked masks divides]

theorem inContent_masked (masks : Masks (s.inContent c rest).skip rest rest') :
    s.inContent c rest' = s.inContent c rest := by
  by_cases opening : rest.head? = some '{'
  · obtain ⟨r, rfl⟩ := List.head?_eq_some_iff.mp opening
    by_cases dollar : c = '$'
    · subst dollar
      have skip : (s.inContent '$' ('{' :: r)).skip = 1 := rfl
      rw [skip] at masks
      obtain ⟨behind, rfl, _⟩ := masks.cons
      rfl
    · rw [inContent, inContent, beq_false_of_ne dollar, Bool.false_and, Bool.false_and]
  · have opening' : rest'.head? ≠ some '{' := fun same => opening (masks.head?_eq (by decide) same)
    rw [inContent, inContent, beq_false_of_ne opening, beq_false_of_ne opening']

/-- A character whose token keeps all that it takes does what it did. -/
theorem step_masked (masks : Masks (s.step c rest).skip rest rest')
    (divides : rest.head? ≠ some '/' → regexRest rest = none → regexRest rest' = none) :
    s.step c rest' = s.step c rest := by
  unfold step at masks ⊢
  split
  · rfl
  · rename_i free
    rw [if_neg free] at masks
    cases mode : s.mode with
    | code state =>
      simp only [mode] at masks ⊢
      rw [inCode_masked masks divides]
    | content =>
      simp only [mode] at masks ⊢
      rw [inContent_masked masks]

/-- Nothing happens at a character between the tokens of code. -/
theorem step_blank (free : s.skip = 0) (isCode : s.mode = .code state)
    (blank : c = ' ' ∨ c = '\n') :
    s.step c rest = { s with offset := s.offset + 1, before := c :: s.before } := by
  obtain ⟨offset, before, skip, mode, opened, done⟩ := s
  cases free
  cases isCode
  cases opened <;> rcases blank with rfl | rfl <;> rfl

theorem bare_step_blank (same : s'.bare = s.bare) (free : s.skip = 0) (isCode : s.mode = .code state)
    (blank : c = ' ' ∨ c = '\n') :
    (s'.step c rest).bare = { s.bare with offset := s.offset + 1 } := by
  have free' : s'.skip = 0 := (congrArg Reading.skip same).trans free
  have isCode' : s'.mode.bare = .code state.bare := by
    have mode : s'.mode.bare = s.mode.bare := congrArg Reading.mode same
    rw [mode, isCode]
    rfl
  cases mode : s'.mode with
  | content =>
    rw [mode] at isCode'
    cases isCode'
  | code state' =>
    rw [step_blank free' mode blank]
    have offset : s'.offset = s.offset := (congrArg Reading.offset same).trans rfl
    exact congrArg₂ (fun (s : Reading) k => { s with offset := k + 1 }) same offset

/-! ### Reading with and without comments -/

variable {chosen : List Span} {text : List Char}

/-- How reading a text without some of its comments keeps up with reading the text: up to tags and
marks the states are the same, or a comment is being skipped and blanks are read instead. All the
other comments are ahead. -/
inductive Follows (chosen : List Span) (s s' : Reading) (rest : List Char) : Prop
  | beside (same : s'.bare = s.bare)
      (ahead : ∀ span ∈ chosen, s.offset < span.stop → span ∈ s.comments rest) :
      Follows chosen s s' rest
  | inside {comment : Span} {state : Code} (member : comment ∈ chosen)
      (starts : comment.start < s.offset) (stop : comment.stop = s.offset + s.skip)
      (positive : 0 < s.skip) (isCode : s.mode = .code state)
      (same : s'.bare = ({ s with skip := 0 } : Reading).bare)
      (ahead : ∀ span ∈ chosen, comment.stop < span.stop → span ∈ s.comments rest) :
      Follows chosen s s' rest

/-- A comment to blank out begins. -/
theorem Follows.enter {comment : Span} {c' : Char} {rest' : List Char} (same : s'.bare = s.bare)
    (ahead : ∀ span ∈ chosen, s.offset < span.stop → span ∈ s.comments (c :: rest))
    (member : comment ∈ chosen) (begins : s.commentAt? c rest = some comment)
    (blank : c' = ' ' ∨ c' = '\n') : Follows chosen (s.step c rest) (s'.step c' rest') rest := by
  obtain ⟨state, n, free, isCode, isComment, rfl, marked, stepped⟩ := step_comment begins
  have blanked : (s'.step c' rest').bare = { s.bare with offset := s.offset + 1 } :=
    bare_step_blank same free isCode blank
  have later : ∀ span ∈ chosen, s.offset + 1 + n < span.stop →
      span ∈ (s.step c rest).comments rest := by
    intro span isChosen further
    have listed := ahead span isChosen (by omega)
    rw [Reading.comments, begins, Option.toList_some, List.mem_append, List.mem_singleton] at listed
    rcases listed with rfl | later
    · exact absurd further (Nat.lt_irrefl _)
    · exact later
  rw [stepped] at later ⊢
  refine .inside member (by simp) rfl (isComment_of_commentRest isComment).1 rfl ?_ later
  rw [blanked]
  simp [bare, isCode, free, Mode.bare, Code.bare]

/-- Within a comment that is blanked out. -/
theorem Follows.stay {comment : Span} {c' : Char} {rest' : List Char} (member : comment ∈ chosen)
    (starts : comment.start < s.offset) (stop : comment.stop = s.offset + s.skip)
    (positive : 0 < s.skip) (isCode : s.mode = .code state)
    (same : s'.bare = ({ s with skip := 0 } : Reading).bare)
    (ahead : ∀ span ∈ chosen, comment.stop < span.stop → span ∈ s.comments (c :: rest))
    (blank : c' = ' ' ∨ c' = '\n') : Follows chosen (s.step c rest) (s'.step c' rest') rest := by
  have blanked : (s'.step c' rest').bare =
      { ({ s with skip := 0 } : Reading).bare with offset := s.offset + 1 } :=
    bare_step_blank same rfl isCode blank
  have stepped : s.step c rest =
      { s with skip := s.skip - 1, offset := s.offset + 1, before := c :: s.before } := by
    rw [Reading.step, if_pos positive]
  have later : ∀ span ∈ chosen, comment.stop < span.stop → span ∈ (s.step c rest).comments rest := by
    intro span isChosen further
    have none_ : s.commentAt? c rest = none := by
      obtain ⟨n, isSucc⟩ := Nat.exists_eq_succ_of_ne_zero (Nat.ne_of_gt positive)
      rw [commentAt?, isSucc]
      rfl
    have listed := ahead span isChosen further
    rwa [Reading.comments, none_, Option.toList_none, List.nil_append] at listed
  rw [stepped] at later ⊢
  by_cases last : s.skip = 1
  · refine .beside ?_ fun span isChosen further => later span isChosen ?_
    · rw [blanked, last]
      rfl
    · simp only at further
      omega
  · refine .inside member ?_ ?_ ?_ isCode ?_ later
    · exact Nat.lt_succ_of_lt starts
    · simp only
      omega
    · simp only
      omega
    · rw [blanked]
      rfl

/-- A character that is kept, and with it the token that it begins. -/
theorem Follows.pass (known : AreComments text chosen) (further : text.drop (s.offset + 1) = rest)
    (same : s'.bare = s.bare)
    (later : ∀ span ∈ chosen, s.offset < span.stop → span ∈ (s.step c rest).comments rest) :
    Follows chosen (s.step c rest) (s'.step c (blankOut chosen (s.offset + 1) rest)) rest := by
  have behind : ∀ span ∈ chosen, s.offset < span.stop →
      s.offset + 1 + (s.step c rest).skip ≤ span.start := fun span member inside =>
    (isAhead_of_mem_comments (later span member inside)).behind
  have congr := bare_step_congr same c rest
  have skip : (s'.step c rest).skip = (s.step c rest).skip :=
    (congrArg Reading.skip congr).trans rfl
  have masks : Masks (s'.step c rest).skip rest (blankOut chosen (s.offset + 1) rest) := by
    refine masks_blankOut (fun j inside => Bool.eq_false_iff.mpr fun covered => ?_) rest
    obtain ⟨span, member, lower, upper⟩ := isCovered_iff.mp covered
    have := behind span member (by omega)
    omega
  have outside : IsOutside chosen (s.offset + 1) := fun span member inside => by
    have := behind span member (by omega)
    omega
  have masked := step_masked masks fun notSlash division =>
    regexRest_blankOut known further outside notSlash division
  refine .beside (masked ▸ congr) fun span member inside => later span member ?_
  rw [offset_step] at inside
  omega

theorem Follows.step (known : AreComments text chosen) (here : text.drop s.offset = c :: rest)
    (follows : Follows chosen s s' (c :: rest)) :
    Follows chosen (s.step c rest)
      (s'.step (if isCovered chosen s.offset && c != '\n' then ' ' else c)
        (blankOut chosen (s.offset + 1) rest)) rest := by
  have further : text.drop (s.offset + 1) = rest := drop_succ_of_drop here
  have blank (covered : isCovered chosen s.offset = true) :
      (if isCovered chosen s.offset && c != '\n' then ' ' else c) = ' ' ∨
        (if isCovered chosen s.offset && c != '\n' then ' ' else c) = '\n' := by
    by_cases feed : c = '\n' <;> simp [covered, feed]
  cases follows with
  | beside same ahead =>
    by_cases isChosen : ∃ comment ∈ chosen, s.commentAt? c rest = some comment
    · obtain ⟨comment, member, begins⟩ := isChosen
      refine .enter same ahead member begins (blank (isCovered_iff.mpr ⟨comment, member, ?_⟩))
      obtain ⟨_, _, _, _, _, rfl, _⟩ := step_comment begins
      exact ⟨Nat.le_refl _, by simp only; omega⟩
    · have later : ∀ span ∈ chosen, s.offset < span.stop →
          span ∈ (s.step c rest).comments rest := by
        intro span member inside
        refine (List.mem_append.mp (ahead span member inside)).resolve_left fun begins => ?_
        exact isChosen ⟨span, member, Option.mem_toList.mp begins⟩
      have kept : isCovered chosen s.offset = false := by
        refine Bool.eq_false_iff.mpr fun covered => ?_
        obtain ⟨span, member, lower, upper⟩ := isCovered_iff.mp covered
        have behind := (isAhead_of_mem_comments (later span member upper)).behind
        rw [offset_step] at behind
        omega
      rw [kept]
      exact .pass known further same later
  | inside member starts stop positive isCode same ahead =>
    refine .stay member starts stop positive isCode same ahead (blank ?_)
    exact isCovered_iff.mpr ⟨_, member, Nat.le_of_lt starts, by omega⟩

theorem Follows.run (known : AreComments text chosen) (here : text.drop s.offset = rest)
    (follows : Follows chosen s s' rest) :
    (s'.run (blankOut chosen s.offset rest)).templates.map Template.bare =
      (s.run rest).templates.map Template.bare := by
  induction rest generalizing s s' with
  | nil =>
    rw [blankOut, Reading.run, Reading.run, bare_templates, bare_templates]
    cases follows with
    | beside same => rw [same]
    | inside _ _ _ _ _ same =>
      rw [same]
      rfl
  | cons c rest ih =>
    exact ih (drop_step here) (follows.step known here)

end Reading

/-- Blanking out comments moves no template and none of its interpolations. -/
theorem bare_all_blankOut {text : List Char} {chosen : List Span} (known : AreComments text chosen)
    (sub : ∀ span ∈ chosen, span ∈ comments text) :
    (all (blankOut chosen 0 text)).map bare = (all text).map bare :=
  Reading.Follows.run known rfl (.beside rfl fun span member _ => sub span member)

end InlineQuery.Template
