import InlineQuery.Proofs.Template.Lookahead
import InlineQuery.Proofs.Template.Scan

/-!
The comments of a script that reading its templates skips: where they stand, and that inside a
template they stand in its interpolations.
-/

namespace InlineQuery.Template

open Literal (lineRest)

/-- How many characters follow the slash that starts a comment of code. One that marks the next
template says something and is none. A block comment that is not closed takes all that is left. -/
def commentRest (c : Char) (rest : List Char) : Option Nat :=
  if c == '/' then
    match rest with
    | '/' :: _ => some (lineRest rest)
    | '*' :: inner =>
      match commentBody inner with
      | none => some rest.length
      | some body => if isMarker body then none else some (body.length + 3)
    | _ => none
  else none

/-- The comment that starts with a character of code. -/
def Reading.commentAt? (s : Reading) (c : Char) (rest : List Char) : Option Span :=
  match s.skip, s.mode with
  | 0, .code _ => (commentRest c rest).map fun n => ⟨s.offset, s.offset + 1 + n⟩
  | _, _ => none

/-- The comments that are skipped from a state on. -/
def Reading.comments (s : Reading) : List Char → List Span
  | [] => []
  | c :: rest => (s.commentAt? c rest).toList ++ (s.step c rest).comments rest

/-- The comments that reading a script skips, in source order. -/
def comments (text : List Char) : List Span := Reading.start.comments text

theorem exists_of_commentBody {rest body : List Char} (closes : commentBody rest = some body) :
    ∃ after, rest = body ++ '*' :: '/' :: after := by
  fun_induction commentBody rest generalizing body with
  | case1 => cases closes
  | case2 r =>
    cases closes
    exact ⟨r, rfl⟩
  | case3 c r _ ih =>
    obtain ⟨inner, same, rfl⟩ := Option.map_eq_some_iff.mp closes
    obtain ⟨after, rfl⟩ := ih same
    exact ⟨after, rfl⟩

/-- What a comment holds behind its slash, and what comes behind it. It ends where its line does or
with its end mark, or it takes all that is left. -/
inductive IsComment : List Char → List Char → Prop
  | line {body after : List Char} : '\n' ∉ body → (∀ c ∈ after.head?, c = '\n') →
      IsComment ('/' :: body) after
  | block (body after : List Char) : IsComment ('*' :: body ++ ['*', '/']) after
  | unclosed (body : List Char) : IsComment ('*' :: body) []

/-- Behind a slash, so many characters belong to a comment that does not mark a template. -/
inductive SkipsComment : List Char → Nat → Prop
  | line (body : List Char) : SkipsComment ('/' :: body) (lineRest ('/' :: body))
  | unclosed {inner : List Char} (endless : commentBody inner = none) :
    SkipsComment ('*' :: inner) (inner.length + 1)
  | block {inner body : List Char} (closes : commentBody inner = some body)
    (unmarked : isMarker body = false) : SkipsComment ('*' :: inner) (body.length + 3)

theorem skipsComment_of_commentRest {c : Char} {rest : List Char} {n : Nat}
    (comment : commentRest c rest = some n) : c = '/' ∧ SkipsComment rest n := by
  unfold commentRest at comment
  split at comment
  · rename_i slash
    refine ⟨beq_iff_eq.mp slash, ?_⟩
    split at comment
    · rename_i body
      cases comment
      exact .line body
    · rename_i inner
      split at comment
      · rename_i endless
        cases comment
        exact .unclosed endless
      · rename_i body closes
        split at comment
        · cases comment
        · rename_i unmarked
          cases comment
          exact .block closes (Bool.eq_false_iff.mpr unmarked)
    · cases comment
  · cases comment

theorem isComment_of_commentRest {c : Char} {rest : List Char} {n : Nat}
    (comment : commentRest c rest = some n) :
    0 < n ∧ n ≤ rest.length ∧ IsComment (rest.take n) (rest.drop n) := by
  obtain ⟨-, skips⟩ := skipsComment_of_commentRest comment
  cases skips with
  | line r =>
    have whole := (List.takeWhile_append_dropWhile (p := (· ≠ '\n')) (l := r)).symm
    have line : lineRest ('/' :: r) = ('/' :: r.takeWhile (· ≠ '\n')).length := by simp [lineRest]
    have split_ : '/' :: r = ('/' :: r.takeWhile (· ≠ '\n')) ++ r.dropWhile (· ≠ '\n') :=
      congrArg ('/' :: ·) whole
    refine ⟨by rw [line]; exact Nat.succ_pos _, ?_, ?_⟩
    · rw [line]
      exact Nat.succ_le_succ (List.takeWhile_prefix _).length_le
    · rw [line, split_, List.take_left' (by simp), List.drop_left' (by simp)]
      refine .line (fun inside => ?_) fun c first => ?_
      · simpa using List.all_eq_true.mp List.all_takeWhile _ inside
      · have stops := List.head?_dropWhile_not (· ≠ '\n') r
        rw [Option.mem_def.mp first] at stops
        simpa using stops
  | @unclosed inner =>
    refine ⟨Nat.succ_pos _, Nat.le_refl _, ?_⟩
    have whole : inner.length + 1 = ('*' :: inner).length := rfl
    rw [whole, List.take_length, List.drop_length]
    exact .unclosed inner
  | @block _ body closes =>
    obtain ⟨after, rfl⟩ := exists_of_commentBody closes
    refine ⟨by omega, by simp, ?_⟩
    have split_ : '*' :: (body ++ '*' :: '/' :: after) =
        ('*' :: body ++ ['*', '/']) ++ after := by simp
    have length : body.length + 3 = ('*' :: body ++ ['*', '/']).length := by simp
    rw [split_, length, List.take_left' rfl, List.drop_left' rfl]
    exact .block body after

/-- A comment leaves the last token and the depth of braces as they are. -/
theorem codeToken_comment {c : Char} {rest : List Char} {n : Nat}
    (comment : commentRest c rest = some n) (state : Code) :
    ∃ marked, codeToken state c rest = ({ state with marked }, n) := by
  obtain ⟨rfl, skips⟩ := skipsComment_of_commentRest comment
  cases skips with
  | line => exact ⟨state.marked, (IsToken.line rfl).codeToken_eq⟩
  | @unclosed inner endless =>
    have token : IsToken state.last.beforeRegex '/' ('*' :: inner) id (inner.length + 1) :=
      .unclosed rfl endless
    exact ⟨state.marked, token.codeToken_eq⟩
  | @block inner body closes =>
    have token : IsToken state.last.beforeRegex '/' ('*' :: inner) (.comment (isMarker body))
        (body.length + 3) := .block rfl closes
    exact ⟨isMarker body, token.codeToken_eq⟩

namespace Reading

variable {s : Reading} {c : Char} {rest : List Char} {state : Code}

/-- Where a comment starts, its token is read. -/
theorem step_comment {comment : Span} (starts : s.commentAt? c rest = some comment) :
    ∃ state n, s.skip = 0 ∧ s.mode = .code state ∧ commentRest c rest = some n ∧
      comment = ⟨s.offset, s.offset + 1 + n⟩ ∧ ∃ marked,
        s.step c rest = { s with
          offset := s.offset + 1, before := c :: s.before
          mode := .code { state with marked }, skip := n } := by
  obtain ⟨offset, before, skip, mode, opened, done⟩ := s
  unfold commentAt? at starts
  split at starts
  · rename_i state free isCode
    cases free
    cases isCode
    obtain ⟨n, found, rfl⟩ := Option.map_eq_some_iff.mp starts
    obtain ⟨marked, token⟩ := codeToken_comment found state
    refine ⟨state, n, rfl, rfl, found, rfl, marked, ?_⟩
    obtain ⟨rfl, -⟩ := skipsComment_of_commentRest found
    have other : ('/' == delimiter) = false := rfl
    cases opened with
    | nil => simp [step, inCode, other, token]
    | cons o os => simp [step, inCode, other, token]
  · cases starts

/-- What is known of the comments ahead: they stand behind the token that is being read, and each is
one where it stands. -/
structure IsAhead (s : Reading) (rest : List Char) (comment : Span) : Prop where
  behind : s.offset + s.skip ≤ comment.start
  shape : ∃ n after, rest.drop (comment.start - s.offset) = '/' :: after ∧
    commentRest '/' after = some n ∧ comment.stop = comment.start + 1 + n

theorem isAhead_of_mem_comments {comment : Span} (member : comment ∈ s.comments rest) :
    s.IsAhead rest comment := by
  induction rest generalizing s with
  | nil => cases member
  | cons c rest ih =>
    rcases List.mem_append.mp member with here | later
    · obtain ⟨state, n, free, _, found, same, _⟩ := step_comment (Option.mem_toList.mp here)
      obtain ⟨rfl, -⟩ := skipsComment_of_commentRest found
      subst same
      exact ⟨by simp [free], n, rest, by simp, found, rfl⟩
    · obtain ⟨behind, n, after, place, found, stop⟩ := ih later
      have offset : (s.step c rest).offset = s.offset + 1 := rfl
      rw [offset] at behind place
      have skip := s.skip_le_step c rest
      refine ⟨by omega, n, after, ?_, found, stop⟩
      have apart : comment.start - s.offset = comment.start - (s.offset + 1) + 1 := by omega
      rw [apart, List.drop_succ_cons]
      exact place

theorem pairwise_comments (s : Reading) (rest : List Char) :
    (s.comments rest).Pairwise fun a b => a.stop ≤ b.start := by
  induction rest generalizing s with
  | nil => exact .nil
  | cons c rest ih =>
    refine List.pairwise_append.mpr ⟨?_, ih _, fun a here b later => ?_⟩
    · cases s.commentAt? c rest <;> simp
    · obtain ⟨state, n, _, _, _, rfl, marked, stepped⟩ := step_comment (Option.mem_toList.mp here)
      have behind := (isAhead_of_mem_comments later).behind
      rw [stepped] at behind
      exact behind

end Reading

/-- A comment lies between the opening mark and the closing brace of one of the interpolations of a
template that is opened at an offset. -/
def LiesIn (opened : Nat) (spans : List Span) (comment : Span) : Prop :=
  ∃ span ∈ spans, opened + span.start + 2 < comment.start ∧ comment.stop ≤ opened + span.stop

theorem LiesIn.append {opened : Nat} {spans : List Span} {comment : Span}
    (lies : LiesIn opened spans comment) (more : List Span) :
    LiesIn opened (spans ++ more) comment := by
  obtain ⟨span, member, inside⟩ := lies
  exact ⟨span, List.mem_append_left _ member, inside⟩

namespace Reading

/-- Where the comments read so far stand: in the interpolations of the templates around them, or in
the interpolation that is being read. -/
structure Surrounds (s : Reading) (comments : List Span) : Prop where
  read : ∀ comment ∈ comments, comment.start < s.offset ∧ comment.stop ≤ s.offset + s.skip
  content : s.mode = .content → ∀ comment ∈ comments, comment.stop ≤ s.offset
  closed : ∀ t ∈ s.templates, ∀ stop, t.closed = some stop → ∀ comment ∈ comments,
    t.opened < comment.start → comment.start < stop → LiesIn t.opened t.spans comment
  active : s.mode = .content → ∀ o os, s.opened = o :: os → ∀ comment ∈ comments,
    o.start < comment.start → LiesIn o.start o.spans comment
  suspended : ∀ o ∈ s.suspended, ∀ comment ∈ comments, o.start < comment.start →
    LiesIn o.start o.spans comment ∨ o.hole + 1 < comment.start

variable {text before since rest : List Char} {offset skip more n : Nat} {state next : Code}
  {opened : List Opened} {done : List Template} {o : Opened} {c : Char} {comments : List Span}

theorem surrounds_start : Reading.start.Surrounds [] :=
  ⟨nofun, nofun, fun _ _ _ _ => nofun, fun _ _ _ _ => nofun, fun _ _ => nofun⟩

theorem Surrounds.code
    (known : (Reading.mk offset before skip (.code state) opened done).Surrounds comments)
    (bound : skip ≤ more + 1) :
    (Reading.mk (offset + 1) since more (.code next) opened done).Surrounds comments where
  read comment member := by
    have read := known.read comment member
    simp only at read ⊢
    omega
  content := nofun
  closed := known.closed
  active := nofun
  suspended := known.suspended

/-- A comment of code stands behind all templates that are closed, and in the interpolations of those
that are open. -/
theorem Surrounds.comment
    (known : (Reading.mk offset before 0 (.code state) opened done).Surrounds comments)
    (sound : (Reading.mk offset before 0 (.code state) opened done).IsSound text) :
    (Reading.mk (offset + 1) since n (.code next) opened done).Surrounds
      (comments ++ [⟨offset, offset + 1 + n⟩]) where
  read comment member := by
    rcases List.mem_append.mp member with old | new
    · have read := known.read comment old
      simp only at read ⊢
      omega
    · rw [List.mem_singleton.mp new]
      simp
  content := nofun
  closed t inside stop isClosed comment member := by
    rcases List.mem_append.mp member with old | new
    · exact known.closed t inside stop isClosed comment old
    · have before := sound.nested.closed_lt t inside stop isClosed
      rw [List.mem_singleton.mp new]
      simp only at before ⊢
      omega
  active := nofun
  suspended o isOpen comment member := by
    rcases List.mem_append.mp member with old | new
    · exact known.suspended o isOpen comment old
    · have reached := (sound.suspended o isOpen).reached
      rw [List.mem_singleton.mp new]
      simp only at reached ⊢
      omega

theorem Surrounds.inContent_plain
    (known : (Reading.mk offset before skip .content opened done).Surrounds comments) :
    (Reading.mk (offset + 1) since more .content opened done).Surrounds comments where
  read comment member := by
    have read := known.read comment member
    have stop := known.content rfl comment member
    simp only at read stop ⊢
    omega
  content _ comment member := Nat.le_succ_of_le (known.content rfl comment member)
  closed := known.closed
  active := known.active
  suspended := known.suspended

theorem Surrounds.open
    (known : (Reading.mk offset before 0 (.code state) opened done).Surrounds comments)
    {tag : Option String} {marked : Bool} {outer : Nat} :
    (Reading.mk (offset + 1) since 0 .content (⟨offset, tag, marked, [], 0, [], outer⟩ :: opened)
      done).Surrounds comments where
  read comment member := by
    have read := known.read comment member
    simp only at read ⊢
    omega
  content _ comment member := Nat.le_succ_of_le (known.read comment member).2
  closed t inside stop isClosed := by
    rw [templates_cons, List.mem_append] at inside
    rcases inside with old | new
    · exact known.closed t old stop isClosed
    · rw [List.mem_singleton.mp new] at isClosed
      cases isClosed
  active _ o os isOpened comment member behind := by
    cases isOpened
    have read := (known.read comment member).1
    simp only at read behind
    omega
  suspended := known.suspended

theorem Surrounds.suspend
    (known : (Reading.mk offset before 0 .content opened done).Surrounds comments) :
    (Reading.mk (offset + 1) since 1 (.code .fresh)
      (opened.modifyHead fun o => { o with hole := offset }) done).Surrounds comments where
  read comment member := by
    have read := known.read comment member
    simp only at read ⊢
    omega
  content := nofun
  closed := by
    cases opened with
    | nil => exact known.closed
    | cons o os =>
      have closed := known.closed
      rw [templates_cons] at closed
      rw [List.modifyHead_cons, templates_cons]
      exact closed
  active := nofun
  suspended o member comment isRead behind := by
    cases opened with
    | nil => cases member
    | cons first os =>
      rcases List.mem_cons.mp member with rfl | old
      · exact .inl (known.active rfl first os rfl comment isRead behind)
      · exact known.suspended o old comment isRead behind

/-- A closing brace ends the interpolation, and the comments in it lie in it then. -/
theorem Surrounds.resume
    (known : (Reading.mk offset before 0 (.code state) (o :: opened) done).Surrounds comments)
    (sound : (Reading.mk offset before 0 (.code state) (o :: opened) done).IsSound text) :
    (Reading.mk (offset + 1) since 0 .content
      ({ o with spans := o.spans ++ [⟨o.hole - (o.start + 1), offset + 1 - (o.start + 1)⟩] } ::
        opened) done).Surrounds comments where
  read comment member := by
    have read := known.read comment member
    simp only at read ⊢
    omega
  content _ comment member := Nat.le_succ_of_le (known.read comment member).2
  closed t inside stop isClosed := by
    have closed := known.closed
    rw [templates_cons] at closed inside
    rcases List.mem_append.mp inside with old | new
    · exact closed t (List.mem_append_left _ old) stop isClosed
    · rcases List.mem_cons.mp new with rfl | inner
      · cases isClosed
      · exact closed t (List.mem_append_right _ (List.mem_cons_of_mem _ inner)) stop isClosed
  active _ first os isOpened comment member behind := by
    cases isOpened
    have suspended := sound.suspended o (List.mem_cons_self ..)
    have ordered := suspended.ordered
    rcases known.suspended o (List.mem_cons_self ..) comment member behind with lies | further
    · exact lies.append _
    · have read := known.read comment member
      refine ⟨_, List.mem_append_right _ (List.mem_singleton_self _), ?_, ?_⟩
      · simp only
        omega
      · simp only at read ⊢
        omega
  suspended p member := known.suspended p (List.mem_cons_of_mem _ member)

theorem Surrounds.close
    (known : (Reading.mk offset before 0 .content (o :: opened) done).Surrounds comments) :
    ({ (Reading.mk offset before 0 (.code state) opened done).add (o.close (some offset)) with
      offset := offset + 1, before := since }).Surrounds comments := by
  have closes : ({ (Reading.mk offset before 0 (.code state) opened done).add
      (o.close (some offset)) with offset := offset + 1, before := since } : Reading).templates =
      (Reading.mk offset before 0 .content opened done).templates ++
        o.template (some offset) :: o.inner :=
    templates_add (Reading.mk offset before 0 (.code state) opened done) _
  have closed := known.closed
  rw [templates_cons] at closed
  refine ⟨?_, ?_, ?_, ?_, ?_⟩
  · intro comment member
    have read := known.read comment member
    cases opened <;> simp only [add] at read ⊢ <;> omega
  · cases opened <;> exact fun isContent => by cases isContent
  · intro t inside stop isClosed comment member behind before
    rw [closes, List.mem_append] at inside
    rcases inside with old | new
    · exact closed t (List.mem_append_left _ old) stop isClosed comment member behind before
    · rcases List.mem_cons.mp new with rfl | inner
      · exact known.active rfl o opened rfl comment member behind
      · exact closed t (List.mem_append_right _ (List.mem_cons_of_mem _ inner)) stop isClosed
          comment member behind before
  · cases opened <;> exact fun isContent => by cases isContent
  · cases opened with
    | nil => exact fun _ member => by cases member
    | cons outer others =>
      intro p member
      rcases List.mem_cons.mp member with rfl | old
      · exact known.suspended outer (List.mem_cons_self ..)
      · exact known.suspended p (List.mem_cons_of_mem _ old)

theorem Surrounds.inCode
    (known : (Reading.mk offset before 0 (.code state) opened done).Surrounds comments)
    (sound : (Reading.mk offset before 0 (.code state) opened done).IsSound text) :
    ({ (Reading.mk offset before 0 (.code state) opened done).inCode state c rest with
      offset := offset + 1, before := since }).Surrounds comments := by
  unfold Reading.inCode
  split
  · exact known.open
  · cases opened with
    | nil => exact known.code (Nat.zero_le _)
    | cons o os =>
      dsimp only
      split
      · exact known.resume sound
      · exact known.code (Nat.zero_le _)

theorem Surrounds.inContent
    (known : (Reading.mk offset before 0 .content opened done).Surrounds comments) :
    ({ (Reading.mk offset before 0 .content opened done).inContent c rest with
      offset := offset + 1, before := since }).Surrounds comments := by
  unfold Reading.inContent
  split
  · exact known.inContent_plain
  split
  · cases opened with
    | nil => exact known.inContent_plain
    | cons o os => exact known.close
  split
  · exact known.suspend
  · exact known.inContent_plain

theorem Surrounds.step {s : Reading} (known : s.Surrounds comments) (sound : s.IsSound text) :
    (s.step c rest).Surrounds (comments ++ (s.commentAt? c rest).toList) := by
  cases starts : s.commentAt? c rest with
  | some comment =>
    obtain ⟨state, n, free, isCode, _, rfl, marked, stepped⟩ := step_comment starts
    obtain ⟨offset, before, skip, mode, opened, done⟩ := s
    cases free
    cases isCode
    rw [stepped]
    exact known.comment sound
  | none =>
    rw [Option.toList_none, List.append_nil]
    obtain ⟨offset, before, skip, mode, opened, done⟩ := s
    cases skip with
    | zero =>
      cases mode with
      | code state => exact known.inCode sound
      | content => exact known.inContent
    | succ skip =>
      cases mode with
      | code state => exact known.code (Nat.le_refl _)
      | content => exact known.inContent_plain

theorem Surrounds.run {s : Reading} (known : s.Surrounds comments) (sound : s.IsSound text)
    (ahead : text.drop s.offset = rest) :
    (s.run rest).Surrounds (comments ++ s.comments rest) := by
  induction rest generalizing s comments with
  | nil => simpa [run, Reading.comments] using known
  | cons c rest ih =>
    have stepped := ih (known.step sound) (sound.step ahead) (drop_step ahead)
    rwa [List.append_assoc] at stepped

end Reading

/-- A comment that starts within a closed template lies in one of its interpolations. -/
theorem liesIn_of_mem_comments {text : List Char} {t : Template} (inside : t ∈ all text) {stop : Nat}
    (isClosed : t.closed = some stop) {comment : Span} (member : comment ∈ comments text)
    (behind : t.opened < comment.start) (before : comment.start < stop) :
    LiesIn t.opened t.spans comment := by
  have known := Reading.surrounds_start.run (Reading.isSound_start text) rfl
  exact known.closed t inside stop isClosed comment (List.mem_append_right _ member) behind before

end InlineQuery.Template
