import InlineQuery.Proofs.Literal.Shift
import InlineQuery.Proofs.Template.Lookahead
import InlineQuery.Proofs.Template.Scan
import Mathlib.Data.List.Forall2

/-!
Two scripts one behind the other, the first of which ends with a statement and its line: the second
is read as if it stood alone. What has been read before the seam is left as it is. Behind it, the
state differs from that of a reading of the second script by its offsets, by the depth of the braces
that are open around all of it, and by a last token after which both expect the same.
-/

namespace InlineQuery.Template

open Literal (isIdent isGap)

/-- The template that stands so many characters further on. -/
def shift (n : Nat) (t : Template) : Template :=
  { t with opened := n + t.opened, closed := t.closed.map (n + ·) }

/-! ### The tag in front of a template -/

/-- What stands before an opening parenthesis, read backwards, or everything without one. -/
def beforeParen (text : List Char) : List Char :=
  match text with
  | '(' :: rest => rest.dropWhile isGap
  | _ => text

theorem beforeParen_cons {d : Char} (other : d ≠ '(') (rest : List Char) :
    beforeParen (d :: rest) = d :: rest := by
  unfold beforeParen
  split
  · rename_i same
    exact absurd (List.cons.inj same).1 other
  · rfl

/-- The tag that a chain of names is, read backwards. -/
def tagOf (names : List Char) : Option String :=
  let chain := ((names.reverse.dropWhile (· == '.')).reverse.dropWhile (· == '.')).reverse
  if chain ≠ [] ∧ isTag chain then some (String.ofList chain) else none

def namesBefore (text : List Char) : List Char := text.takeWhile fun c => isIdent c || c == '.'

theorem tagBefore_eq (before : List Char) :
    tagBefore before = tagOf (namesBefore (beforeParen (before.dropWhile isGap))) := rfl

/-- The characters that end a statement here. -/
def endsStatement (c : Char) : Bool := c == ';' || c == '}'

theorem eq_of_endsStatement {c : Char} (ends : endsStatement c = true) : c = ';' ∨ c = '}' := by
  rwa [endsStatement, Bool.or_eq_true, beq_iff_eq, beq_iff_eq] at ends

/-- No chain of names reaches back over a text: it ends with none, and so does what it holds before
the gap at its end, which is no parenthesis. -/
structure IsBar (front : List Char) : Prop where
  names : namesBefore front = []
  behindGap : namesBefore (front.dropWhile isGap) = []
  noParen : beforeParen (front.dropWhile isGap) = front.dropWhile isGap

theorem IsBar.tagBefore_append {front : List Char} (bar : IsBar front) (before : List Char) :
    tagBefore (before ++ front) = tagBefore before := by
  have line (before : List Char) : namesBefore (before ++ front) = namesBefore before := by
    have none_ := bar.names
    unfold namesBefore at none_ ⊢
    rw [List.takeWhile_append, none_, List.append_nil]
    split
    · rename_i all
      exact ((List.takeWhile_prefix _).eq_of_length all).symm
    · rfl
  have gap (before : List Char) : namesBefore ((before ++ front).dropWhile isGap) =
      namesBefore (before.dropWhile isGap) := by
    rw [List.dropWhile_append]
    split
    · rename_i all
      rw [List.isEmpty_iff.mp all, bar.behindGap]
      rfl
    · exact line _
  rw [tagBefore_eq, tagBefore_eq]
  refine congrArg tagOf ?_
  cases shown : before.dropWhile isGap with
  | nil =>
    rw [List.dropWhile_append, shown, List.isEmpty_nil, if_pos rfl, bar.noParen, bar.behindGap]
    rfl
  | cons d rest =>
    rw [List.dropWhile_append, shown, List.isEmpty_cons, if_neg Bool.false_ne_true, List.cons_append]
    by_cases isParen : d = '('
    · subst isParen
      exact gap rest
    · rw [beforeParen_cons isParen, beforeParen_cons isParen, ← List.cons_append, line]

theorem isBar_statement {c : Char} (ends : endsStatement c = true) (front : List Char) :
    IsBar ('\n' :: c :: front) := by
  rcases eq_of_endsStatement ends with rfl | rfl <;> exact ⟨rfl, rfl, rfl⟩

/-! ### Two readings of one text -/

/-- The depths of open braces, in the code that is being read and around each open template. -/
def Reading.depths (s : Reading) : List Nat :=
  match s.mode with
  | .code state => state.depth :: s.opened.map (·.outer)
  | .content => s.opened.map (·.outer)

/-- Depths that agree but for the outermost, on which nothing depends. It agrees, too, if it was
the `same` at first. -/
inductive AlikeInside (same : Prop) : List Nat → List Nat → Prop
  | outermost (d d' : Nat) (outside : same → d' = d) : AlikeInside same [d] [d']
  | cons (d : Nat) {ds ds' : List Nat} (alike : AlikeInside same ds ds') :
    AlikeInside same (d :: ds) (d :: ds')

namespace AlikeInside

variable {same : Prop} {d d' : Nat} {ds ds' : List Nat}

theorem map_head (alike : AlikeInside same (d :: ds) (d' :: ds')) (f : Nat → Nat) :
    AlikeInside same (f d :: ds) (f d' :: ds') := by
  cases alike with
  | outermost _ _ outside => exact .outermost _ _ fun holds => congrArg f (outside holds)
  | cons _ alike => exact .cons _ alike

theorem of_cons {e e' : Nat} (alike : AlikeInside same (d :: e :: ds) (d' :: e' :: ds')) :
    d' = d ∧ AlikeInside same (e :: ds) (e' :: ds') := by
  cases alike with
  | cons _ alike => exact ⟨rfl, alike⟩

theorem ne_nil (alike : AlikeInside same ds ds') : ds' ≠ [] := by
  cases alike <;> exact List.cons_ne_nil _ _

theorem of_singleton (alike : AlikeInside same [d] [d']) (holds : same) : d' = d := by
  cases alike with
  | outermost _ _ outside => exact outside holds
  | cons => rfl

end AlikeInside

/-- An open template and the one it is when so many characters stand in front. -/
structure Opened.IsMoved (n : Nat) (o o' : Opened) : Prop where
  start : o'.start = n + o.start
  hole : o'.hole - (o'.start + 1) = o.hole - (o.start + 1)
  tag : o'.tag = o.tag
  marked : o'.marked = o.marked
  spans : o'.spans = o.spans
  inner : o'.inner = o.inner.map (.shift n)

theorem Opened.IsMoved.close {n : Nat} {o o' : Opened} (moved : o.IsMoved n o')
    (stop : Option Nat) : o'.close (stop.map (n + ·)) = (o.close stop).map (.shift n) := by
  rw [Opened.close, Opened.close, moved.start, moved.tag, moved.marked, moved.spans, moved.inner]
  rfl

theorem close_opened {n : Nat} {os os' : List Opened} (moved : List.Forall₂ (Opened.IsMoved n) os os') :
    (os'.reverse.map (·.close none)).flatten =
      ((os.reverse.map (·.close none)).flatten).map (.shift n) := by
  induction moved with
  | nil => rfl
  | @cons o o' os os' head _ ih =>
    have last : o'.close none = (o.close none).map (.shift n) := head.close none
    simp only [List.reverse_cons, List.map_append, List.flatten_append, ih, List.map_cons,
      List.map_nil, List.flatten_cons, List.flatten_nil, List.append_nil, last]

/-- Code of which the next tokens are read alike, up to the depth of braces. -/
structure Code.IsAlike (state state' : Code) : Prop where
  last : state'.last.beforeRegex = state.last.beforeRegex
  marked : state'.marked = state.marked

inductive Mode.IsAlike : Mode → Mode → Prop
  | code {state state' : Code} (alike : state.IsAlike state') : IsAlike (.code state) (.code state')
  | content : IsAlike .content .content

/-- A reading, and the one with a text in front in which the templates `done` were found. -/
structure Reading.IsMoved (same : Prop) (front : List Char) (done : List Template) (s t : Reading) : Prop where
  offset : t.offset = front.length + s.offset
  before : t.before = s.before ++ front.reverse
  skip : t.skip = s.skip
  mode : s.mode.IsAlike t.mode
  opened : List.Forall₂ (Opened.IsMoved front.length) s.opened t.opened
  depths : AlikeInside same s.depths t.depths
  done : t.done = done ++ s.done.map (.shift front.length)

/-- Of the state, a token depends only on whether a regular expression may follow. What it does to
the depth of braces, it does to every depth. -/
theorem codeToken_alike {state state' : Code} (alike : state.IsAlike state') (c : Char)
    (rest : List Char) :
    (codeToken state' c rest).2 = (codeToken state c rest).2 ∧
      (codeToken state c rest).1.IsAlike (codeToken state' c rest).1 ∧
      ∃ f : Nat → Nat, (codeToken state c rest).1.depth = f state.depth ∧
        (codeToken state' c rest).1.depth = f state'.depth := by
  obtain ⟨next, n, token⟩ := exists_isToken state.last.beforeRegex c rest
  have token' : IsToken state'.last.beforeRegex c rest next n := by rwa [alike.last]
  rw [token.codeToken_eq, token'.codeToken_eq]
  refine ⟨rfl, ?_⟩
  cases token with
  | gap => exact ⟨alike, id, rfl, rfl⟩
  | line => exact ⟨alike, id, rfl, rfl⟩
  | unclosed => exact ⟨alike, id, rfl, rfl⟩
  | block => exact ⟨⟨alike.last, rfl⟩, id, rfl, rfl⟩
  | string => exact ⟨⟨rfl, rfl⟩, id, rfl, rfl⟩
  | regex => exact ⟨⟨rfl, rfl⟩, id, rfl, rfl⟩
  | division => exact ⟨⟨rfl, rfl⟩, id, rfl, rfl⟩
  | word => exact ⟨⟨rfl, rfl⟩, id, rfl, rfl⟩
  | mark => exact ⟨⟨rfl, rfl⟩, bracing c, rfl, rfl⟩

namespace Reading.IsMoved

variable {same : Prop} {front : List Char} {done : List Template} {s t : Reading}
  {state state' : Code}

/-- What is read of a character, moved to the place behind it. -/
theorem advance (moved : s.IsMoved same front done t) (c : Char) {next next' : Reading}
    (alike : next.IsMoved same front done next') :
    ({ next with offset := s.offset + 1, before := c :: s.before } : Reading).IsMoved same front done
      { next' with offset := t.offset + 1, before := c :: t.before } where
  offset := congrArg (· + 1) moved.offset
  before := congrArg (c :: ·) moved.before
  skip := alike.skip
  mode := alike.mode
  opened := alike.opened
  depths := alike.depths
  done := alike.done

theorem token (moved : s.IsMoved same front done t) (isCode : s.mode = .code state)
    (isCode' : t.mode = .code state') (c : Char) (rest : List Char) :
    ({ s with mode := .code (codeToken state c rest).1, skip := (codeToken state c rest).2 } :
      Reading).IsMoved same front done
      { t with mode := .code (codeToken state' c rest).1, skip := (codeToken state' c rest).2 } := by
  have mode := moved.mode
  have depths := moved.depths
  rw [isCode, isCode'] at mode
  rw [Reading.depths, isCode, Reading.depths, isCode'] at depths
  obtain ⟨alike⟩ := mode
  obtain ⟨skip, next, f, depth, depth'⟩ := codeToken_alike alike c rest
  refine { moved with skip := skip, mode := .code next, depths := ?_ }
  have mapped := depths.map_head f
  rw [← depth, ← depth'] at mapped
  exact mapped

theorem inCode (moved : s.IsMoved same front done t)
    (seam : ∀ before, tagBefore (before ++ front.reverse) = tagBefore before)
    (isCode : s.mode = .code state) (isCode' : t.mode = .code state') (c : Char)
    (rest : List Char) : (s.inCode state c rest).IsMoved same front done (t.inCode state' c rest) := by
  have token := moved.token isCode isCode' c rest
  obtain ⟨offset, before, skip, mode, opened, found⟩ := s
  obtain ⟨offset', before', skip', mode', opened', found'⟩ := t
  cases isCode
  cases isCode'
  obtain ⟨alike⟩ := moved.mode
  have depths := moved.depths
  have isOpened := moved.opened
  unfold Reading.inCode
  split
  · have tag : tagBefore before' = tagBefore before := by
      rw [show before' = before ++ front.reverse from moved.before, seam]
    have head : Opened.IsMoved front.length
        ⟨offset, tagBefore before, state.marked, [], 0, [], state.depth⟩
        ⟨offset', tagBefore before', state'.marked, [], 0, [], state'.depth⟩ :=
      ⟨moved.offset, by simp, tag, alike.marked, rfl, rfl⟩
    exact { moved with mode := .content, opened := .cons head isOpened, depths := depths }
  · cases isOpened with
    | nil => exact token
    | @cons o o' os os' head tail =>
      obtain ⟨inside, outside⟩ := AlikeInside.of_cons depths
      dsimp only
      rw [inside]
      split
      · have stop : offset' + 1 - (o'.start + 1) = offset + 1 - (o.start + 1) := by
          have place : offset' = front.length + offset := moved.offset
          have start := head.start
          omega
        have spans : o'.spans ++ [⟨o'.hole - (o'.start + 1), offset' + 1 - (o'.start + 1)⟩] =
            o.spans ++ [⟨o.hole - (o.start + 1), offset + 1 - (o.start + 1)⟩] := by
          rw [head.spans, head.hole, stop]
        exact { moved with
          mode := .content, opened := .cons { head with spans := spans } tail, depths := outside }
      · exact token

/-- Templates that end inside another one, or at top level. -/
theorem add (moved : s.IsMoved same front done t) (finished : List Template) :
    (s.add finished).IsMoved same front done (t.add (finished.map (.shift front.length))) := by
  obtain ⟨offset, before, skip, mode, opened, found⟩ := s
  obtain ⟨offset', before', skip', mode', opened', found'⟩ := t
  have isOpened := moved.opened
  have isDone := moved.done
  cases isOpened with
  | nil =>
    have longer : found' ++ finished.map (.shift front.length) =
        done ++ (found ++ finished).map (.shift front.length) := by
      rw [show found' = _ from isDone, List.map_append, List.append_assoc]
    exact { moved with done := longer }
  | @cons o o' os os' head tail =>
    have inner : o'.inner ++ finished.map (.shift front.length) =
        (o.inner ++ finished).map (.shift front.length) := by
      rw [head.inner, List.map_append]
    exact { moved with opened := .cons { head with inner := inner } tail }

theorem inContent (moved : s.IsMoved same front done t) (isContent : s.mode = .content) (c : Char)
    (rest : List Char) : (s.inContent c rest).IsMoved same front done (t.inContent c rest) := by
  obtain ⟨offset, before, skip, mode, opened, found⟩ := s
  obtain ⟨offset', before', skip', mode', opened', found'⟩ := t
  cases isContent
  have mode := moved.mode
  cases mode
  have depths := moved.depths
  have isOpened := moved.opened
  -- Content is always that of an open template.
  cases isOpened with
  | nil => cases depths
  | @cons o o' os os' head tail =>
    unfold Reading.inContent
    split
    · exact { moved with skip := rfl }
    split
    · have closed := head.close (some offset)
      have popped : (Reading.mk offset before skip (.code ⟨o.outer, .mark delimiter, false⟩) os
          found).IsMoved same front done
          (Reading.mk offset' before' skip' (.code ⟨o'.outer, .mark delimiter, false⟩) os'
            found') :=
        { moved with mode := .code ⟨rfl, rfl⟩, opened := tail, depths := depths }
      have added := popped.add (o.close (some offset))
      rw [← closed, Option.map_some, ← show offset' = front.length + offset from moved.offset]
        at added
      exact added
    split
    · have hole : offset' - (o'.start + 1) = offset - (o.start + 1) := by
        have place : offset' = front.length + offset := moved.offset
        have start := head.start
        omega
      exact { moved with
        skip := rfl, mode := .code ⟨rfl, rfl⟩
        opened := .cons { head with hole := hole } tail, depths := .cons 0 depths }
    · exact moved

theorem step (moved : s.IsMoved same front done t)
    (seam : ∀ before, tagBefore (before ++ front.reverse) = tagBefore before) (c : Char)
    (rest : List Char) : (s.step c rest).IsMoved same front done (t.step c rest) := by
  refine moved.advance c ?_
  rw [moved.skip]
  split
  · exact { moved with skip := rfl }
  · have mode := moved.mode
    cases isMode : s.mode with
    | code state =>
      rw [isMode] at mode
      cases isMode' : t.mode with
      | code state' => exact moved.inCode seam isMode isMode' c rest
      | content => rw [isMode'] at mode; cases mode
    | content =>
      rw [isMode] at mode
      cases isMode' : t.mode with
      | code => rw [isMode'] at mode; cases mode
      | content => exact moved.inContent isMode c rest

theorem readTo (moved : s.IsMoved same front done t)
    (seam : ∀ before, tagBefore (before ++ front.reverse) = tagBefore before)
    (text behind : List Char) :
    (s.readTo text behind).IsMoved same front done (t.readTo text behind) := by
  induction text generalizing s t with
  | nil => exact moved
  | cons c rest ih => exact ih (moved.step seam c _)

theorem run (moved : s.IsMoved same front done t)
    (seam : ∀ before, tagBefore (before ++ front.reverse) = tagBefore before)
    (text : List Char) : (s.run text).IsMoved same front done (t.run text) := by
  induction text generalizing s t with
  | nil => exact moved
  | cons c rest ih => exact ih (moved.step seam c rest)

theorem templates (moved : s.IsMoved same front done t) :
    t.templates = done ++ s.templates.map (.shift front.length) := by
  rw [Reading.templates, Reading.templates, moved.done, close_opened moved.opened, List.map_append,
    List.append_assoc]

end Reading.IsMoved

/-! ### The seam -/

/-- The next character is a token of code outside all templates. -/
structure Reading.IsTopLevel (s : Reading) : Prop where
  skip : s.skip = 0
  opened : s.opened = []
  mode : ∃ state, s.mode = .code state

/-- A script ends with a character that ends a statement, and a line feed. The character is a token
of code at top level. -/
def EndsStatement (text : List Char) : Prop :=
  ∃ front c, text = front ++ [c, '\n'] ∧ endsStatement c = true ∧
    (Reading.start.readTo front [c, '\n']).IsTopLevel

/-- What reading such a script leaves for what follows. -/
structure Reading.IsAfter (s : Reading) (c : Char) (depth : Nat) (done : List Template) : Prop
    extends s.IsTopLevel where
  code : s.mode = .code ⟨depth, .mark c, false⟩
  done : s.done = done

/-- The depth of braces behind the end of a statement. -/
def depthAfter (c : Char) (depth : Nat) : Nat := if c == '}' then depth - 1 else depth

variable {c : Char} {front line : List Char} {state : Code}

theorem codeToken_end (ends : endsStatement c = true) (state : Code) (rest : List Char) :
    c ≠ delimiter ∧
      codeToken state c rest = (⟨depthAfter c state.depth, .mark c, false⟩, 0) := by
  rcases eq_of_endsStatement ends with rfl | rfl
  · exact ⟨by decide, rfl⟩
  · exact ⟨by decide, rfl⟩

theorem Reading.IsTopLevel.step_end {s : Reading} (top : s.IsTopLevel) (isCode : s.mode = .code state)
    (ends : endsStatement c = true) (rest : List Char) :
    (s.step c rest).IsAfter c (depthAfter c state.depth) s.done := by
  obtain ⟨offset, before, skip, mode, opened, done⟩ := s
  obtain ⟨isFree, isTop, -⟩ := top
  cases isFree
  cases isTop
  cases isCode
  obtain ⟨notDelimiter, token⟩ := codeToken_end ends state rest
  have stepped : (Reading.mk offset before 0 (.code state) [] done).step c rest =
      ⟨offset + 1, c :: before, 0, .code ⟨depthAfter c state.depth, .mark c, false⟩, [], done⟩ := by
    simp [Reading.step, Reading.inCode, notDelimiter, token]
  rw [stepped]
  exact ⟨⟨rfl, rfl, _, rfl⟩, rfl, rfl⟩

theorem Reading.IsAfter.step_feed {s : Reading} {depth : Nat} {done : List Template}
    (after : s.IsAfter c depth done) (rest : List Char) :
    (s.step '\n' rest).IsAfter c depth done := by
  obtain ⟨offset, before, skip, mode, opened, found⟩ := s
  obtain ⟨⟨isFree, isTop, -⟩, isCode, isDone⟩ := after
  cases isFree
  cases isTop
  cases isCode
  cases isDone
  exact ⟨⟨rfl, rfl, _, rfl⟩, rfl, rfl⟩

/-- The state behind the line of a statement does not depend on what follows. -/
theorem Reading.isAfter_line (isEnd : endsStatement c = true)
    (top : (Reading.start.readTo line [c, '\n']).IsTopLevel)
    (isCode : (Reading.start.readTo line [c, '\n']).mode = .code state) (text : List Char) :
    (Reading.start.readTo (line ++ [c, '\n']) text).IsAfter c (depthAfter c state.depth)
      (Reading.start.readTo line [c, '\n']).done := by
  have alone := top.step_end isCode isEnd ['\n']
  have split (text : List Char) : Reading.start.readTo (line ++ [c]) ('\n' :: text) =
      (Reading.start.readTo line (c :: '\n' :: text)).step c ('\n' :: text) :=
    Reading.readTo_append ..
  have plain : (line ++ [c]).getLast? ≠ some '\\' := by
    rw [List.getLast?_concat]
    rintro same
    cases same
    cases isEnd
  -- The line feed ends the line outside of all tokens, whatever is behind it.
  have isRead : (Reading.start.readTo (line ++ [c]) ('\n' :: [])).skip = 0 := by
    rw [split]
    exact alone.skip
  have same : Reading.start.readTo (line ++ [c]) ('\n' :: text) =
      Reading.start.readTo (line ++ [c]) ('\n' :: []) := Reading.readTo_line plain isRead
  have whole : Reading.start.readTo (line ++ [c, '\n']) text =
      (Reading.start.readTo (line ++ [c]) ('\n' :: text)).step '\n' text := by
    rw [← List.singleton_append, ← List.append_assoc]
    exact Reading.readTo_append ..
  rw [whole, same, split]
  exact alone.step_feed text

theorem EndsStatement.exists_isAfter (ends : EndsStatement front) : ∃ c depth done,
    (∃ line, front = line ++ [c, '\n']) ∧ endsStatement c = true ∧
      ∀ text, (Reading.start.readTo front text).IsAfter c depth done := by
  obtain ⟨line, c, rfl, isEnd, top⟩ := ends
  obtain ⟨state, isCode⟩ := top.mode
  exact ⟨c, _, _, ⟨line, rfl⟩, isEnd, Reading.isAfter_line isEnd top isCode⟩

/-- Behind the line of a statement all templates are done. -/
theorem Reading.IsAfter.all_eq {depth : Nat} {done : List Template}
    (after : (Reading.start.readTo front []).IsAfter c depth done) : all front = done := by
  have run : Reading.start.run front = Reading.start.readTo front [] := by
    have parts := Reading.run_append .start front []
    rwa [List.append_nil] at parts
  rw [all, run, Reading.templates, after.opened, after.done]
  exact List.append_nil done

theorem all_append (ends : EndsStatement front) (text : List Char) :
    all (front ++ text) = all front ++ (all text).map (.shift front.length) := by
  obtain ⟨c, depth, done, ⟨line, isFront⟩, isEnd, after⟩ := ends.exists_isAfter
  have alone : all front = done := (after []).all_eq
  have isCode := (after text).code
  have regex : (Last.mark c).beforeRegex = true := by
    rcases eq_of_endsStatement isEnd with rfl | rfl <;> rfl
  -- A reading behind the statement differs from a new one only in the depth of braces around it.
  have moved : Reading.start.IsMoved False front done (Reading.start.readTo front text) := {
    offset := by rw [Reading.offset_readTo]; exact Nat.add_comm ..
    before := by rw [Reading.before_readTo]; exact List.append_nil _
    skip := (after text).skip
    mode := by rw [isCode]; exact .code ⟨regex, rfl⟩
    opened := by rw [(after text).opened]; exact .nil
    depths := by
      have behind : (Reading.start.readTo front text).depths = [depth] := by
        rw [Reading.depths, isCode, (after text).opened]
        rfl
      rw [behind]
      exact .outermost 0 depth False.elim
    done := by rw [(after text).done]; exact (List.append_nil done).symm }
  have seam (before : List Char) : tagBefore (before ++ front.reverse) = tagBefore before := by
    rw [isFront, List.reverse_append]
    exact (isBar_statement isEnd line.reverse).tagBefore_append before
  rw [all, Reading.run_append, (moved.run seam text).templates, alone]
  rfl

/-! ### What is reported -/

variable {t : Template}

/-- A template that ends in the first part of a text is reported as in that part alone. -/
theorem extraction?_within
    (within : ∀ stop, t.closed = some stop → t.opened < stop ∧ stop ≤ front.length)
    (text : List Char) : extraction? (front ++ text) (.ofText (front ++ text)) t =
      extraction? front (.ofText front) t := by
  unfold extraction?
  cases isClosed : t.closed with
  | none => rfl
  | some stop =>
    obtain ⟨ordered, bound⟩ := within stop isClosed
    let span : Span := ⟨t.opened + 1, stop⟩
    have slice : span.slice (front ++ text) = span.slice front := Span.slice_before bound text
    have literal : Literal.ofSpan (front ++ text) (.ofText (front ++ text)) span t.tag t.spans =
        .ofSpan front (.ofText front) span t.tag t.spans :=
      Literal.ofSpan_before (show span.start ≤ span.stop from ordered) bound text
    dsimp only [span] at slice literal ⊢
    rw [slice, literal]

theorem extraction?_before (closed : ∀ stop, t.closed = some stop → t.IsClosedAt front stop)
    (text : List Char) : extraction? (front ++ text) (.ofText (front ++ text)) t =
      extraction? front (.ofText front) t := by
  refine extraction?_within (fun stop isClosed => ?_) text
  have known := closed stop isClosed
  exact ⟨known.ordered, Nat.le_of_lt (List.getElem?_eq_some_iff.mp known.closes).1⟩

theorem extraction?_behind (feeds : front.getLast? = some '\n') (text : List Char) (t : Template) :
    extraction? (front ++ text) (.ofText (front ++ text)) (t.shift front.length) =
      (extraction? text (.ofText text) t).map (.shift front.length (front.count '\n')) := by
  refine extraction?_map (front.length + ·) _ rfl rfl rfl (fun _ => rfl) fun stop _ => ?_
  have slice := Span.slice_behind ⟨t.opened + 1, stop⟩ front text
  have literal : Literal.ofSpan (front ++ text) (.ofText (front ++ text))
      ((Span.mk (t.opened + 1) stop).shift front.length) t.tag t.spans =
      (Literal.ofSpan text (.ofText text) ⟨t.opened + 1, stop⟩ t.tag t.spans).shift front.length
        (front.count '\n') := Literal.ofSpan_behind feeds text ⟨t.opened + 1, stop⟩
  exact ⟨congrArg Text.isBlank slice, congrArg Extraction.found literal.symm⟩

theorem extraction?_indented (noFeed : '\n' ∉ front) (text : List Char) (t : Template) :
    extraction? (front ++ text) (.ofText (front ++ text)) (t.shift front.length) =
      (extraction? text (.ofText text) t).map (.indent front.length) := by
  refine extraction?_map (front.length + ·) _ rfl rfl rfl (fun _ => rfl) fun stop _ => ?_
  have slice := Span.slice_behind ⟨t.opened + 1, stop⟩ front text
  have literal : Literal.ofSpan (front ++ text) (.ofText (front ++ text))
      ((Span.mk (t.opened + 1) stop).shift front.length) t.tag t.spans =
      (Literal.ofSpan text (.ofText text) ⟨t.opened + 1, stop⟩ t.tag t.spans).indent front.length :=
    Literal.ofSpan_indented noFeed text ⟨t.opened + 1, stop⟩
  exact ⟨congrArg Text.isBlank slice, congrArg Extraction.found literal.symm⟩

/-- A script that ends with a statement and its line, and another one, are scanned as if each stood
alone. -/
theorem scan_javascript_append (ends : EndsStatement front) (text : List Char) :
    scan (front ++ text) .javascript = scan front .javascript ++
      (scan text .javascript).map (.shift front.length (front.count '\n')) := by
  have read := all_append ends text
  obtain ⟨line, c, isFront, -⟩ := ends
  have feeds : front.getLast? = some '\n' := by
    rw [isFront, List.getLast?_append]
    rfl
  obtain ⟨_, nested⟩ := exists_areNested_all front
  rw [scan, scan, scan, read, List.filterMap_append, List.filterMap_map,
    List.map_filterMap]
  refine congrArg₂ (· ++ ·) (List.filterMap_congr fun t member => ?_)
    (List.filterMap_congr fun t _ => extraction?_behind feeds text t)
  exact extraction?_before (nested.closed t member) text

theorem scan_javascript_append_statement :
    EndsStatement "gql\x60a\x60;\n".toList ∧
      scan ("gql\x60a\x60;\n".toList ++ "/\x60/; x = gql\x60b$\x7bc\x7d\x60".toList) .javascript =
        scan "gql\x60a\x60;\n".toList .javascript ++
          (scan "/\x60/; x = gql\x60b$\x7bc\x7d\x60".toList .javascript).map (.shift 8 1) := by
  have ends : EndsStatement "gql\x60a\x60;\n".toList :=
    ⟨"gql\x60a\x60".toList, ';', rfl, rfl, by decide, by decide,
      ⟨0, .mark delimiter, false⟩, by decide⟩
  exact ⟨ends, scan_javascript_append ends _⟩

end InlineQuery.Template
