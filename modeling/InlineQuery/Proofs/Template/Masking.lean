import InlineQuery.Proofs.Template.Comments
import Mathlib.Data.List.Forall2

/-!
A script with some characters blanked out. A token that keeps all its characters is read as before,
and a slash that divides divides still: a comment that is blanked out leaves no more slashes behind
it than there were.
-/

namespace InlineQuery.Template

open Literal (isIdent isGap lineRest)

/-- Whether an offset lies in one of some stretches of a text. -/
def isCovered (spans : List Span) (offset : Nat) : Bool :=
  spans.any fun span => span.start ≤ offset && offset < span.stop

/-- Replaces by blanks what lies in some stretches of a text, except for line feeds. -/
def blankOut (spans : List Span) (offset : Nat) : List Char → List Char
  | [] => []
  | c :: rest =>
    (if isCovered spans offset && c != '\n' then ' ' else c) :: blankOut spans (offset + 1) rest

variable {chosen : List Span} {rest rest' : List Char}

theorem isCovered_iff {offset : Nat} : isCovered chosen offset = true ↔
    ∃ span ∈ chosen, span.start ≤ offset ∧ offset < span.stop := by
  simp [isCovered]

theorem blankOut_append (spans : List Span) (k : Nat) (front behind : List Char) :
    blankOut spans k (front ++ behind) =
      blankOut spans k front ++ blankOut spans (k + front.length) behind := by
  induction front generalizing k with
  | nil => rfl
  | cons c front ih =>
    rw [List.cons_append, blankOut, blankOut, ih, List.length_cons, List.cons_append,
      Nat.add_assoc, Nat.add_comm 1]

theorem blankOut_kept {spans : List Span} {k : Nat} (kept : isCovered spans k = false) (c : Char)
    (rest : List Char) : blankOut spans k (c :: rest) = c :: blankOut spans (k + 1) rest := by
  rw [blankOut, kept, Bool.false_and, if_neg Bool.false_ne_true]

theorem getElem?_blankOut (spans : List Span) (k : Nat) (text : List Char) (i : Nat) :
    (blankOut spans k text)[i]? =
      text[i]?.map fun c => if isCovered spans (k + i) && c != '\n' then ' ' else c := by
  induction text generalizing k i with
  | nil => rfl
  | cons c text ih =>
    cases i with
    | zero => rfl
    | succ i =>
      rw [blankOut, List.getElem?_cons_succ, List.getElem?_cons_succ, ih, Nat.add_right_comm]
      rfl

theorem length_blankOut (spans : List Span) (k : Nat) (text : List Char) :
    (blankOut spans k text).length = text.length := by
  induction text generalizing k with
  | nil => rfl
  | cons c text ih => rw [blankOut, List.length_cons, List.length_cons, ih]

/-! ### Tokens -/

/-- A text some characters of which may be blanked out. A number of them at the start are kept. -/
structure Masks (n : Nat) (rest rest' : List Char) : Prop where
  alike : List.Forall₂ (fun c c' => c' = c ∨ c' = ' ' ∧ c ≠ '\n') rest rest'
  kept : rest'.take n = rest.take n

theorem masks_blankOut {k n : Nat} (kept : ∀ j < n, isCovered chosen (k + j) = false)
    (rest : List Char) : Masks n rest (blankOut chosen k rest) := by
  refine ⟨?_, List.ext_getElem? fun i => ?_⟩
  · clear kept
    induction rest generalizing k with
    | nil => exact .nil
    | cons c rest ih =>
      refine .cons ?_ ih
      split
      · rename_i covered
        simp only [Bool.and_eq_true, bne_iff_ne] at covered
        exact .inr ⟨rfl, covered.2⟩
      · exact .inl rfl
  · by_cases before : i < n
    · rw [List.getElem?_take_of_lt before, List.getElem?_take_of_lt before, getElem?_blankOut,
        kept i before]
      simp
    · rw [List.getElem?_take_eq_none (by omega), List.getElem?_take_eq_none (by omega)]

namespace Masks

variable {n : Nat} {c : Char}

theorem nil (masks : Masks n [] rest') : rest' = [] := List.forall₂_nil_left_iff.mp masks.alike

theorem cons (masks : Masks (n + 1) (c :: rest) rest') :
    ∃ behind, rest' = c :: behind ∧ Masks n rest behind := by
  obtain ⟨c', behind, _, alike, rfl⟩ := List.forall₂_cons_left_iff.mp masks.alike
  have kept := masks.kept
  rw [List.take_succ_cons, List.take_succ_cons, List.cons_eq_cons] at kept
  exact ⟨behind, by rw [kept.1], alike, kept.2⟩

/-- A text all of whose characters are kept. -/
theorem eq (masks : Masks rest.length rest rest') : rest' = rest := by
  have kept := masks.kept
  rwa [List.take_length, masks.alike.length_eq, List.take_length] at kept

theorem head (masks : Masks n (c :: rest) rest') :
    ∃ c' behind, rest' = c' :: behind ∧ (c' = c ∨ c' = ' ' ∧ c ≠ '\n') := by
  obtain ⟨c', behind, first, _, rfl⟩ := List.forall₂_cons_left_iff.mp masks.alike
  exact ⟨c', behind, rfl, first⟩

theorem mono {m : Nat} (masks : Masks n rest rest') (le : m ≤ n) : Masks m rest rest' := by
  refine ⟨masks.alike, ?_⟩
  rw [← Nat.min_eq_left le, ← List.take_take, ← List.take_take, masks.kept]

theorem drop {m : Nat} (masks : Masks (m + n) rest rest') : Masks n (rest.drop m) (rest'.drop m) := by
  refine ⟨List.forall₂_drop m masks.alike, ?_⟩
  have kept := congrArg (List.drop m) masks.kept
  rwa [List.drop_take, List.drop_take, Nat.add_sub_cancel_left] at kept

/-- No character but a blank comes in. -/
theorem head?_eq (masks : Masks n rest rest') (notBlank : c ≠ ' ') (first : rest'.head? = some c) :
    rest.head? = some c := by
  cases rest with
  | nil => rw [masks.nil] at first; cases first
  | cons d rest =>
    obtain ⟨c', behind, rfl, same | ⟨rfl, _⟩⟩ := masks.head
    · rw [← same]; exact first
    · exact absurd (Option.some.inj first).symm notBlank

theorem takeWhile_eq {p : Char → Bool} (stops : p ' ' = false)
    (masks : Masks (rest.takeWhile p).length rest rest') : rest'.takeWhile p = rest.takeWhile p := by
  induction rest generalizing rest' with
  | nil => rw [masks.nil]
  | cons c rest ih =>
    cases holds : p c with
    | true =>
      rw [List.takeWhile_cons_of_pos holds, List.length_cons] at masks
      obtain ⟨behind, rfl, tail⟩ := masks.cons
      rw [List.takeWhile_cons_of_pos holds, List.takeWhile_cons_of_pos holds, ih tail]
    | false =>
      obtain ⟨c', behind, rfl, same⟩ := masks.head
      have holds' : p c' = false := by
        rcases same with rfl | ⟨rfl, _⟩
        · exact holds
        · exact stops
      rw [List.takeWhile_cons_of_neg (Bool.eq_false_iff.mp holds),
        List.takeWhile_cons_of_neg (Bool.eq_false_iff.mp holds')]

theorem lineRest_eq (masks : Masks n rest rest') : lineRest rest' = lineRest rest := by
  have alike := masks.alike
  clear masks
  unfold lineRest
  induction alike with
  | nil => rfl
  | @cons c c' rest rest' first _ ih =>
    by_cases feed : c = '\n'
    · have same : c' = c := first.elim id fun blanked => absurd feed blanked.2
      rw [same, feed]
      rfl
    · have feed' : c' ≠ '\n' := by
        rcases first with rfl | ⟨rfl, _⟩
        · exact feed
        · decide
      have passes (d : Char) (other : d ≠ '\n') (r : List Char) :
          (d :: r).takeWhile (· ≠ '\n') = d :: r.takeWhile (· ≠ '\n') :=
        List.takeWhile_cons_of_pos (decide_eq_true other)
      rw [passes c feed, passes c' feed', List.length_cons, List.length_cons, ih]

theorem stringRest_eq {quote : Char} (masks : Masks (stringRest quote rest) rest rest') :
    stringRest quote rest' = stringRest quote rest := by
  fun_induction stringRest quote rest generalizing rest' with
  | case1 => rw [masks.nil]; rfl
  | case2 =>
    obtain ⟨behind, rfl, tail⟩ := masks.cons
    rw [tail.nil]
    rfl
  | case3 d r ih =>
    obtain ⟨_, rfl, tail⟩ := masks.cons
    obtain ⟨behind, rfl, further⟩ := tail.cons
    rw [stringRest, ih further]
  | case4 c r one two isQuote =>
    obtain ⟨behind, rfl, tail⟩ := masks.cons
    rw [stringRest_cons (ne_backslash one two), if_pos isQuote]
  | case5 c r one two notQuote isFeed =>
    obtain ⟨c', behind, rfl, rfl | ⟨_, notFeed⟩⟩ := masks.head
    · rw [stringRest_cons (ne_backslash one two), if_neg notQuote, if_pos isFeed]
    · exact absurd (by simpa using isFeed) notFeed
  | case6 c r one two notQuote notFeed ih =>
    obtain ⟨behind, rfl, tail⟩ := masks.cons
    rw [stringRest_cons (ne_backslash one two), if_neg notQuote, if_neg notFeed, ih tail]

theorem commentBody_eq {body : List Char} (closes : commentBody rest = some body)
    (masks : Masks (body.length + 2) rest rest') : commentBody rest' = some body := by
  obtain ⟨after, rfl⟩ := exists_of_commentBody closes
  have split_ : body ++ '*' :: '/' :: after = (body ++ ['*', '/']) ++ after := by simp
  have length : (body ++ ['*', '/']).length = body.length + 2 := by simp
  have kept := masks.kept
  rw [split_, List.take_left' length] at kept
  rw [← List.take_append_drop (body.length + 2) rest', kept]
  rw [split_] at closes
  exact commentBody_append closes (Nat.le_of_eq length.symm)

theorem regexBody_eq {inClass : Bool} (closes : regexBody inClass rest = some n)
    (masks : Masks n rest rest') : regexBody inClass rest' = some n := by
  fun_induction regexBody inClass rest generalizing n rest' with
  | case1 => cases closes
  | case2 => cases closes
  | case3 inClass d r ih =>
    obtain ⟨m, inner, rfl⟩ := Option.map_eq_some_iff.mp closes
    obtain ⟨_, rfl, tail⟩ := masks.cons
    obtain ⟨behind, rfl, further⟩ := tail.cons
    rw [regexBody, ih inner further]
    rfl
  | case4 => cases closes
  | case5 c r one two notFeed ih =>
    obtain ⟨m, inner, rfl⟩ := Option.map_eq_some_iff.mp closes
    obtain ⟨behind, rfl, tail⟩ := masks.cons
    rw [regexBody_cons (ne_backslash one two), if_neg notFeed, if_pos rfl, ih inner tail]
    rfl
  | case6 inClass c r one two notFeed notClass isSlash =>
    cases closes
    obtain ⟨behind, rfl, tail⟩ := masks.cons
    rw [regexBody_cons (ne_backslash one two), if_neg notFeed, if_neg notClass, if_pos isSlash]
  | case7 inClass c r one two notFeed notClass notSlash ih =>
    obtain ⟨m, inner, rfl⟩ := Option.map_eq_some_iff.mp closes
    obtain ⟨behind, rfl, tail⟩ := masks.cons
    rw [regexBody_cons (ne_backslash one two), if_neg notFeed, if_neg notClass, if_neg notSlash,
      ih inner tail]
    rfl

theorem regexRest_eq (closes : regexRest rest = some n) (masks : Masks n rest rest') :
    regexRest rest' = some n := by
  have notSlash : rest.head? ≠ some '/' := by
    intro slash
    obtain ⟨r, rfl⟩ := List.head?_eq_some_iff.mp slash
    cases closes
  have notSlash' : rest'.head? ≠ some '/' := fun slash =>
    notSlash (masks.head?_eq (by decide) slash)
  rw [regexRest_of_ne notSlash] at closes
  rw [regexRest_of_ne notSlash']
  obtain ⟨m, inner, rfl⟩ := Option.map_eq_some_iff.mp closes
  have flags := masks.drop.takeWhile_eq (p := isIdent) rfl
  rw [regexBody_eq inner (masks.mono (Nat.le_add_right ..)), Option.map_some, flags]

end Masks

/-! ### Divisions -/

/-- Comments to be blanked out, at the places where they stand in a text. -/
structure AreComments (text : List Char) (chosen : List Span) : Prop where
  isComment : ∀ span ∈ chosen, ∃ n after, text.drop span.start = '/' :: after ∧
    commentRest '/' after = some n ∧ span.stop = span.start + 1 + n
  apart : ∀ a ∈ chosen, ∀ b ∈ chosen, a.start < b.start → a.stop ≤ b.start
  unescaped : ∀ span ∈ chosen, ∀ k, span.start = k + 1 → text[k]? ≠ some '\\'

/-- No stretch has begun before an offset and lasts beyond it. -/
def IsOutside (spans : List Span) (offset : Nat) : Prop :=
  ∀ span ∈ spans, offset < span.stop → offset ≤ span.start

theorem IsOutside.isCovered {k : Nat} (outside : IsOutside chosen k)
    (none_ : ∀ span ∈ chosen, span.start ≠ k) : isCovered chosen k = false := by
  refine Bool.eq_false_iff.mpr fun covered => ?_
  obtain ⟨span, member, lower, upper⟩ := isCovered_iff.mp covered
  exact none_ span member (Nat.le_antisymm lower (outside span member upper))

theorem IsOutside.succ {k : Nat} (outside : IsOutside chosen k)
    (none_ : ∀ span ∈ chosen, span.start ≠ k) : IsOutside chosen (k + 1) := by
  intro span member inside
  have starts := outside span member (by omega)
  have other := none_ span member
  omega

theorem AreComments.isOutside {text : List Char} (known : AreComments text chosen) {span : Span}
    (member : span ∈ chosen) : IsOutside chosen span.stop := by
  intro other isOther inside
  obtain ⟨_, _, place, found, stop⟩ := known.isComment span member
  obtain ⟨_, _, place', found', stop'⟩ := known.isComment other isOther
  rcases Nat.lt_trichotomy span.start other.start with before | same | behind
  · exact known.apart span member other isOther before
  · rw [same, place'] at place
    cases place
    cases found.symm.trans found'
    omega
  · have apart := known.apart other isOther span member behind
    omega

/-- In a class of characters blanks change nothing, and a line feed ends the expression. -/
theorem regexBody_blanks {blanks behind : List Char} (blank : ∀ c ∈ blanks, c = ' ' ∨ c = '\n')
    (division : '\n' ∉ blanks → regexBody true behind = none) :
    regexBody true (blanks ++ behind) = none := by
  induction blanks with
  | nil => exact division (by simp)
  | cons c blanks ih =>
    rw [List.cons_append, regexBody_cons (by rcases blank c (by simp) with rfl | rfl <;> decide)]
    rcases blank c (by simp) with rfl | rfl
    · have inner := ih (fun d inside => blank d (List.mem_cons_of_mem _ inside))
        fun none_ => division (by simpa using none_)
      simp [inner]
    · rfl

/-- When no slash closes an expression that a block comment stands in, then the slash of its end mark
is in a class of characters. -/
theorem regexBody_of_block {inClass : Bool} {body behind : List Char} (noFeed : '\n' ∉ body)
    (division : regexBody inClass (body ++ '*' :: '/' :: behind) = none) :
    regexBody true behind = none := by
  fun_induction regexBody inClass body with
  | case1 inClass =>
    rw [List.nil_append, regexBody_cons (by decide), regexBody_cons (by decide),
      regexBody_cons (by decide)] at division
    cases inClass with
    | true => simpa using division
    | false => simp at division
  | case2 inClass =>
    rw [List.cons_append, List.nil_append, regexBody, Option.map_eq_none_iff,
      regexBody_cons (by decide)] at division
    cases inClass with
    | true => simpa using division
    | false => simp at division
  | case3 inClass d r ih =>
    rw [List.cons_append, List.cons_append, regexBody, Option.map_eq_none_iff] at division
    exact ih (fun inside => noFeed (by simp [inside])) division
  | case4 inClass c r one two isFeed => exact absurd (by simp_all) noFeed
  | case5 c r one two notFeed ih =>
    rw [List.cons_append, regexBody_cons (ne_backslash one two), if_neg notFeed, if_pos rfl,
      Option.map_eq_none_iff] at division
    exact ih (fun inside => noFeed (List.mem_cons_of_mem _ inside)) division
  | case6 inClass c r one two notFeed notClass isSlash =>
    rw [List.cons_append, regexBody_cons (ne_backslash one two), if_neg notFeed, if_neg notClass,
      if_pos isSlash] at division
    cases division
  | case7 inClass c r one two notFeed notClass notSlash ih =>
    rw [List.cons_append, regexBody_cons (ne_backslash one two), if_neg notFeed, if_neg notClass,
      if_neg notSlash, Option.map_eq_none_iff] at division
    exact ih (fun inside => noFeed (List.mem_cons_of_mem _ inside)) division

/-- The same for any comment: it stands in a class, and so does what follows it on its line. -/
theorem regexBody_of_comment {inClass : Bool} {after : List Char} {n : Nat}
    (found : commentRest '/' after = some n) (division : regexBody inClass ('/' :: after) = none) :
    inClass = true ∧ ('\n' ∉ after.take n → regexBody true (after.drop n) = none) := by
  obtain ⟨_, _, shape⟩ := isComment_of_commentRest found
  have whole := List.take_append_drop n after
  rw [regexBody_cons (by decide)] at division
  cases inClass with
  | false => simp at division
  | true =>
    have inner : regexBody true after = none := by simpa using division
    refine ⟨rfl, fun noFeed => ?_⟩
    generalize after.take n = body at *
    generalize after.drop n = behind at *
    subst whole
    cases shape with
    | @line _ _ inLine ends =>
      cases behind with
      | nil => rfl
      | cons c behind => rw [ends c rfl, regexBody_cons (by decide)]; rfl
    | block body _ =>
      have same : ('*' :: body ++ ['*', '/']) ++ behind = ('*' :: body) ++ '*' :: '/' :: behind := by
        simp
      rw [same] at inner
      exact regexBody_of_block (fun inside => noFeed (List.mem_append_left _ inside)) inner
    | unclosed => rfl

theorem blank_of_mem_blankOut {k : Nat} {front : List Char}
    (covered : ∀ j < front.length, isCovered chosen (k + j) = true) :
    ∀ c ∈ blankOut chosen k front, c = ' ' ∨ c = '\n' := by
  intro c member
  obtain ⟨j, place⟩ := List.mem_iff_getElem?.mp member
  rw [getElem?_blankOut] at place
  obtain ⟨d, isAt, rfl⟩ := Option.map_eq_some_iff.mp place
  rw [covered j (List.getElem?_eq_some_iff.mp isAt).1]
  by_cases feed : d = '\n'
  · simp [feed]
  · simp [feed]

theorem feed_mem_blankOut {k : Nat} {front : List Char} (member : '\n' ∈ front) :
    '\n' ∈ blankOut chosen k front := by
  obtain ⟨j, place⟩ := List.mem_iff_getElem?.mp member
  refine List.mem_iff_getElem?.mpr ⟨j, ?_⟩
  rw [getElem?_blankOut, place]
  simp

/-- A comment in a division stands in a class of characters, where blanks can take its place. -/
theorem regexBody_blankOut_comment {span : Span} (member : span ∈ chosen) {after : List Char}
    {n : Nat} (found : commentRest '/' after = some n) (stop : span.stop = span.start + 1 + n)
    {inClass : Bool} (division : regexBody inClass ('/' :: after) = none)
    (onward : regexBody true (after.drop n) = none →
      regexBody true (blankOut chosen span.stop (after.drop n)) = none) :
    regexBody inClass (blankOut chosen span.start ('/' :: after)) = none := by
  obtain ⟨_, fits, _⟩ := isComment_of_commentRest found
  obtain ⟨rfl, behind⟩ := regexBody_of_comment found division
  have split_ : '/' :: after = ('/' :: after.take n) ++ after.drop n := by simp
  have length : ('/' :: after.take n).length = n + 1 := by simp [fits]
  rw [split_, blankOut_append]
  refine regexBody_blanks (blank_of_mem_blankOut fun j inside => ?_) fun noFeed => ?_
  · exact isCovered_iff.mpr ⟨span, member, by omega, by omega⟩
  · have ends : span.start + ('/' :: after.take n).length = span.stop := by omega
    rw [ends]
    exact onward <| behind fun inside =>
      noFeed (feed_mem_blankOut (List.mem_cons_of_mem _ inside))

/-- Without a backslash in front, only what follows decides whether an expression is closed. -/
theorem regexBody_cons_none {c : Char} (other : c ≠ '\\') {inClass : Bool}
    (onward : ∀ {inClass}, regexBody inClass rest = none → regexBody inClass rest' = none)
    (division : regexBody inClass (c :: rest) = none) : regexBody inClass (c :: rest') = none := by
  rw [regexBody_cons other] at division ⊢
  split
  · rfl
  rename_i notFeed
  rw [if_neg notFeed] at division
  split
  · rename_i isClass
    rw [if_pos isClass, Option.map_eq_none_iff] at division
    rw [onward division, Option.map_none]
  rename_i notClass
  rw [if_neg notClass] at division
  split
  · rename_i isSlash
    rw [if_pos isSlash] at division
    cases division
  · rename_i notSlash
    rw [if_neg notSlash, Option.map_eq_none_iff] at division
    rw [onward division, Option.map_none]

/-- A slash that no other slash of its line completes to a regular expression stays one when
comments are blanked out. -/
theorem regexBody_blankOut {text : List Char} (known : AreComments text chosen) {k : Nat}
    (here : text.drop k = rest) (outside : IsOutside chosen k) {inClass : Bool}
    (division : regexBody inClass rest = none) :
    regexBody inClass (blankOut chosen k rest) = none := by
  induction size : rest.length using Nat.strongRecOn generalizing rest k inClass with
  | ind size ih =>
  subst size
  cases rest with
  | nil => rfl
  | cons c rest =>
    have further : text.drop (k + 1) = rest := drop_succ_of_drop here
    by_cases starts : ∃ span ∈ chosen, span.start = k
    · obtain ⟨span, member, rfl⟩ := starts
      obtain ⟨n, after, place, found, stop⟩ := known.isComment span member
      cases here.symm.trans place
      refine regexBody_blankOut_comment member found stop division fun division => ?_
      refine ih (rest.drop n).length ?_ ?_ (known.isOutside member) division rfl
      · simp only [List.length_drop, List.length_cons]
        omega
      · rw [stop, ← List.drop_drop, further]
    have none_ : ∀ span ∈ chosen, span.start ≠ k := fun span member same =>
      starts ⟨span, member, same⟩
    rw [blankOut_kept (outside.isCovered none_)]
    have outside := outside.succ none_
    by_cases escapes : c = '\\'
    · subst escapes
      cases rest with
      | nil => rfl
      | cons d rest =>
        have here' : text[k]? = some '\\' := getElem?_of_drop here
        have none_ : ∀ span ∈ chosen, span.start ≠ k + 1 := fun span member same =>
          known.unescaped span member k same here'
        rw [regexBody, Option.map_eq_none_iff] at division
        rw [blankOut_kept (outside.isCovered none_), regexBody, Option.map_eq_none_iff]
        exact ih rest.length (by simp only [List.length_cons]; omega) (drop_succ_of_drop further)
          (outside.succ none_) division rfl
    · exact regexBody_cons_none escapes
        (fun division => ih rest.length (by simp) further outside division rfl) division

theorem regexRest_blankOut {text : List Char} (known : AreComments text chosen) {k : Nat}
    (here : text.drop k = rest) (outside : IsOutside chosen k) (notSlash : rest.head? ≠ some '/')
    (division : regexRest rest = none) : regexRest (blankOut chosen k rest) = none := by
  have masks : Masks 0 rest (blankOut chosen k rest) := masks_blankOut (fun _ inside => absurd inside (Nat.not_lt_zero _)) rest
  rw [regexRest_of_ne notSlash, Option.map_eq_none_iff] at division
  rw [regexRest_of_ne fun slash => notSlash (masks.head?_eq (by decide) slash),
    regexBody_blankOut known here outside division, Option.map_none]

/-! ### Tokens of code -/

/-- A token that keeps its characters is the same token, and a slash divides still. -/
theorem IsToken.masked {regex : Bool} {c : Char} {next : Code → Code} {n : Nat}
    (token : IsToken regex c rest next n) (masks : Masks n rest rest')
    (divides : rest.head? ≠ some '/' → regexRest rest = none → regexRest rest' = none) :
    IsToken regex c rest' next n := by
  have other {d : Char} (notBlank : d ≠ ' ') (notHead : rest.head? ≠ some d) :
      rest'.head? ≠ some d := fun first => notHead (masks.head?_eq notBlank first)
  cases token with
  | gap blank => exact .gap blank
  | line starts =>
    obtain ⟨r, rfl⟩ := List.head?_eq_some_iff.mp starts
    obtain ⟨r', rfl, _⟩ := (masks.mono (m := 1) (by simp [lineRest])).cons
    rw [← masks.lineRest_eq]
    exact .line rfl
  | unclosed starts endless =>
    rw [masks.eq]
    exact .unclosed starts endless
  | block starts closes =>
    obtain ⟨inner, rfl⟩ := List.head?_eq_some_iff.mp starts
    obtain ⟨inner', rfl, tail⟩ := masks.cons
    exact .block rfl (tail.commentBody_eq closes)
  | string quotes =>
    rw [← masks.stringRest_eq]
    exact .string quotes
  | regex notLine notBlock expected closes =>
    exact .regex (other (by decide) notLine) (other (by decide) notBlock) expected
      (masks.regexRest_eq closes)
  | division notLine notBlock none_ =>
    exact .division (other (by decide) notLine) (other (by decide) notBlock) fun expected =>
      divides notLine (none_ expected)
  | word ident =>
    rw [← masks.takeWhile_eq (by decide)]
    exact .word ident
  | mark notGap notSlash notQuote notIdent => exact .mark notGap notSlash notQuote notIdent

/-- A token of code that keeps its characters is read as before. -/
theorem codeToken_masked {state : Code} {c : Char} (masks : Masks (codeToken state c rest).2 rest rest')
    (divides : rest.head? ≠ some '/' → regexRest rest = none → regexRest rest' = none) :
    codeToken state c rest' = codeToken state c rest := by
  obtain ⟨next, n, token⟩ := exists_isToken state.last.beforeRegex c rest
  rw [token.codeToken_eq] at masks ⊢
  exact (token.masked masks divides).codeToken_eq

end InlineQuery.Template
