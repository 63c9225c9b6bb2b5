import InlineQuery.Proofs.Template.Seam
import Mathlib.Data.List.TakeWhile

/-!
Templates behind a dotted chain of names. The reader comes to them from the front and looks the
chain up from behind. Both agree on where the chain and the template are, so that the last names of
the chain alone decide whether the template is reported.
-/

namespace InlineQuery.Template

open Literal (isIdent isGap)

variable {names : List (List Char)} {front approach body behind : List Char} {c : Char}

/-! ### Chains of names -/

def IsName (name : List Char) : Prop := name ≠ [] ∧ ∀ c ∈ name, isIdent c = true

/-- Names with a dot between them. -/
def dotted (names : List (List Char)) : List Char := ['.'].intercalate names

/-- The chains that tag a template as GraphQL end with one of two names or with a pair of names. -/
def TagsGraphql (names : List (List Char)) : Prop :=
  names.getLast? = some "gql".toList ∨ names.getLast? = some "graphql".toList ∨
    ["graphql".toList, "experimental".toList] <:+ names

instance (names : List (List Char)) : Decidable (TagsGraphql names) :=
  inferInstanceAs (Decidable (_ ∨ _ ∨ _))

def chainTag (names : List (List Char)) : Option String :=
  if TagsGraphql names then some (String.ofList (dotted names)) else none

/-- What may stand between a chain and its template: a gap, in which a parenthesis may be opened. -/
inductive IsApproach : List Char → Prop
  | gap {before : List Char} (blank : ∀ c ∈ before, isGap c = true) : IsApproach before
  | call {before after : List Char} (blank : ∀ c ∈ before, isGap c = true)
      (blankAfter : ∀ c ∈ after, isGap c = true) : IsApproach (before ++ '(' :: after)

def isChainChar (c : Char) : Bool := isIdent c || c == '.'

theorem isGap_of_isChainChar (isChain : isChainChar c = true) : isGap c = false := by
  rw [isChainChar, Bool.or_eq_true, beq_iff_eq] at isChain
  rcases isChain with ident | rfl
  · exact isGap_of_isIdent ident
  · decide

theorem notMem_of_isName {name : List Char} (isName : IsName name) : '.' ∉ name := fun member =>
  absurd (isName.2 '.' member) (by decide)

theorem dotted_cons_cons (name next : List Char) (names : List (List Char)) :
    dotted (name :: next :: names) = name ++ '.' :: dotted (next :: names) := by
  rw [dotted, List.intercalate_cons_cons, List.append_assoc]
  rfl

theorem dotted_ne_nil (isChain : ∀ name ∈ names, IsName name) (some_ : names ≠ []) :
    dotted names ≠ [] := by
  match names with
  | [] => exact absurd rfl some_
  | [name] =>
    have single : dotted [name] = name := by simp [dotted]
    rw [single]
    exact (isChain name List.mem_cons_self).1
  | name :: next :: names =>
    rw [dotted_cons_cons]
    exact List.append_ne_nil_of_right_ne_nil _ (List.cons_ne_nil _ _)

theorem isChainChar_of_mem_dotted (isChain : ∀ name ∈ names, IsName name) :
    ∀ c ∈ dotted names, isChainChar c = true := by
  induction names with
  | nil => nofun
  | cons name names ih =>
    obtain ⟨isName, rest⟩ := List.forall_mem_cons.mp isChain
    have chars : ∀ c ∈ name, isChainChar c = true := fun c member => by
      simp [isChainChar, isName.2 c member]
    cases names with
    | nil => simpa [dotted] using chars
    | cons next names =>
      intro c member
      rw [dotted_cons_cons] at member
      rcases List.mem_append.mp member with inName | behindName
      · exact chars c inName
      · rcases List.mem_cons.mp behindName with rfl | inRest
        · decide
        · exact ih rest c inRest

/-- A chain starts with a name. -/
theorem head?_dotted (isChain : ∀ name ∈ names, IsName name) : (dotted names).head? ≠ some '.' := by
  match names with
  | [] => nofun
  | name :: names =>
    have isName := isChain name List.mem_cons_self
    obtain ⟨d, more, rfl⟩ := List.exists_cons_of_ne_nil isName.1
    have starts : (dotted ((d :: more) :: names)).head? = some d := by
      cases names with
      | nil => simp [dotted]
      | cons next names => rw [dotted_cons_cons]; rfl
    rw [starts]
    rintro same
    cases same
    exact notMem_of_isName isName List.mem_cons_self

/-- A chain ends with a name. -/
theorem getLast?_dotted (isChain : ∀ name ∈ names, IsName name) :
    (dotted names).getLast? ≠ some '.' := by
  induction names with
  | nil => nofun
  | cons name names ih =>
    obtain ⟨isName, rest⟩ := List.forall_mem_cons.mp isChain
    cases names with
    | nil =>
      have single : dotted [name] = name := by simp [dotted]
      rw [single]
      exact fun same => notMem_of_isName isName (List.mem_of_getLast? same)
    | cons next names =>
      have some_ := dotted_ne_nil rest (List.cons_ne_nil _ _)
      obtain ⟨last, isLast⟩ := Option.isSome_iff_exists.mp (List.getLast?_isSome.mpr some_)
      have ends : (dotted (name :: next :: names)).getLast? = some last := by
        rw [dotted_cons_cons, List.getLast?_append, List.getLast?_cons_of_ne_nil some_, isLast]
        rfl
      rw [ends, ← isLast]
      exact ih rest

/-- The components of a chain are its names again. -/
theorem components_dotted (isChain : ∀ name ∈ names, IsName name) (some_ : names ≠ []) :
    components (dotted names) = names := by
  refine List.splitOn_intercalate '.' (fun name member dot => ?_) some_
  exact absurd ((isChain name member).2 '.' dot) (by decide)

theorem isTag_dotted (isChain : ∀ name ∈ names, IsName name) (some_ : names ≠ []) :
    isTag (dotted names) = true ↔ TagsGraphql names := by
  have text (last : List Char) (tag : String) : String.ofList last = tag ↔ last = tag.toList := by
    rw [← String.ofList_toList (s := tag), String.ofList_inj, String.toList_ofList]
  rw [isTag, components_dotted isChain some_]
  cases last : names.getLast? with
  | none => exact absurd (List.getLast?_eq_none_iff.mp last) some_
  | some name =>
    simp [TagsGraphql, last, tags, experimentalTag, text, or_assoc]

/-- The tag in front of a template is the chain that stands there, if it is one. -/
theorem tagBefore_dotted (isChain : ∀ name ∈ names, IsName name) (isApproach : IsApproach approach) :
    tagBefore (dotted names ++ approach).reverse = chainTag names := by
  have charsBack : ∀ c ∈ (dotted names).reverse, isChainChar c = true := fun c member =>
    isChainChar_of_mem_dotted isChain c (List.mem_reverse.mp member)
  have noGap : (dotted names).reverse.dropWhile isGap = (dotted names).reverse := by
    cases isBack : (dotted names).reverse with
    | nil => rfl
    | cons d rest =>
      have chainChar := charsBack d (isBack ▸ List.mem_cons_self)
      rw [List.dropWhile_cons_of_neg (by simp [isGap_of_isChainChar chainChar])]
  have noParen : beforeParen (dotted names).reverse = (dotted names).reverse := by
    cases isBack : (dotted names).reverse with
    | nil => rfl
    | cons d rest =>
      have chainChar := charsBack d (isBack ▸ List.mem_cons_self)
      exact beforeParen_cons (fun same => absurd (same ▸ chainChar) (by decide)) rest
  have skipped (gap : List Char) (blank : ∀ c ∈ gap, isGap c = true) (rest : List Char) :
      (gap.reverse ++ rest).dropWhile isGap = rest.dropWhile isGap :=
    List.dropWhile_append_of_pos fun c member => blank c (List.mem_reverse.mp member)
  -- Read backwards, the gap and the parenthesis end where the chain does.
  have reached : beforeParen ((dotted names ++ approach).reverse.dropWhile isGap) =
      (dotted names).reverse := by
    cases isApproach with
    | gap blank => rw [List.reverse_append, skipped _ blank, noGap, noParen]
    | @call before after blank blankAfter =>
      have back : (dotted names ++ (before ++ '(' :: after)).reverse =
          after.reverse ++ '(' :: (before.reverse ++ (dotted names).reverse) := by simp
      have paren : ('(' :: (before.reverse ++ (dotted names).reverse)).dropWhile isGap =
          '(' :: (before.reverse ++ (dotted names).reverse) :=
        List.dropWhile_cons_of_neg (by decide)
      rw [back, skipped _ blankAfter, paren, beforeParen, skipped _ blank, noGap]
  have whole : namesBefore (dotted names).reverse = (dotted names).reverse :=
    List.takeWhile_eq_self_iff.mpr charsBack
  have noDot (text : List Char) (head : text.head? ≠ some '.') :
      text.dropWhile (· == '.') = text := by
    cases text with
    | nil => rfl
    | cons d rest => exact List.dropWhile_cons_of_neg (by simpa using head)
  have last : (dotted names).reverse.head? ≠ some '.' := by
    rw [List.head?_reverse]
    exact getLast?_dotted isChain
  rw [tagBefore_eq, reached, whole, tagOf, chainTag, List.reverse_reverse,
    noDot _ (head?_dotted isChain), noDot _ last, List.reverse_reverse]
  by_cases empty : names = []
  · subst empty
    rfl
  · simp only [ne_eq, dotted_ne_nil isChain empty, not_false_eq_true, true_and,
      isTag_dotted isChain empty]

/-! ### Reading up to a template -/

/-- The characters that may stand between the start of a chain and its template. -/
def isLead (c : Char) : Bool := isChainChar c || isGap c || c == '('

theorem isLead_of_mem (isChain : ∀ name ∈ names, IsName name) (isApproach : IsApproach approach) :
    ∀ c ∈ dotted names ++ approach, isLead c = true := by
  have ofGap {c : Char} (gap : isGap c = true) : isLead c = true := by simp [isLead, gap]
  intro c member
  rcases List.mem_append.mp member with inChain | behindChain
  · simp [isLead, isChainChar_of_mem_dotted isChain c inChain]
  · cases isApproach with
    | gap blank => exact ofGap (blank c behindChain)
    | call blank blankAfter =>
      rcases List.mem_append.mp behindChain with before | after
      · exact ofGap (blank c before)
      · rcases List.mem_cons.mp after with rfl | after
        · rfl
        · exact ofGap (blankAfter c after)

/-- What may stand in front of a template neither quotes, comments nor marks. -/
theorem codeToken_lead (lead : isLead c = true) {state : Code} (unmarked : state.marked = false)
    (rest : List Char) : (codeToken state c rest).1.marked = false ∧
      (codeToken state c rest).2 ≤ (rest.takeWhile isIdent).length := by
  obtain ⟨next, n, token⟩ := exists_isToken state.last.beforeRegex c rest
  rw [token.codeToken_eq]
  cases token with
  | gap => exact ⟨unmarked, Nat.zero_le _⟩
  | line => exact absurd lead (by decide)
  | unclosed => exact absurd lead (by decide)
  | block => exact absurd lead (by decide)
  | string quotes => rcases quotes with rfl | rfl <;> exact absurd lead (by decide)
  | regex => exact absurd lead (by decide)
  | division => exact ⟨rfl, Nat.zero_le _⟩
  | word => exact ⟨rfl, Nat.le_refl _⟩
  | mark => exact ⟨rfl, Nat.zero_le _⟩

/-- Content that neither ends its template nor escapes or interpolates anything. -/
structure IsPlain (body : List Char) : Prop where
  noDelimiter : delimiter ∉ body
  noEscape : '\\' ∉ body
  noHole : ¬ ['$', '\x7b'] <:+: body

theorem IsPlain.tail (plain : IsPlain (c :: body)) : IsPlain body where
  noDelimiter member := plain.noDelimiter (List.mem_cons_of_mem _ member)
  noEscape member := plain.noEscape (List.mem_cons_of_mem _ member)
  noHole holds := plain.noHole (List.infix_cons holds)

namespace Reading

/-- Code outside all templates in which no comment marks the next one. The last token ends within
so many characters, and `done` are the templates so far. -/
structure IsUnmarked (s : Reading) (room : Nat) (done : List Template) : Prop where
  skip : s.skip ≤ room
  opened : s.opened = []
  code : ∃ state, s.mode = .code state ∧ state.marked = false
  done : s.done = done

variable {s : Reading} {room : Nat} {done : List Template}

theorem IsUnmarked.step (unmarked : s.IsUnmarked (room + 1) done) (lead : isLead c = true)
    {rest : List Char} (fits : (rest.takeWhile isIdent).length ≤ room) :
    (s.step c rest).IsUnmarked room done := by
  obtain ⟨offset, before, skip, mode, opened, found⟩ := s
  obtain ⟨inside, isTop, ⟨state, isCode, noMark⟩, isDone⟩ := unmarked
  cases isTop
  cases isCode
  cases isDone
  cases skip with
  | succ skip => exact ⟨Nat.le_of_succ_le_succ inside, rfl, ⟨state, rfl, noMark⟩, rfl⟩
  | zero =>
    have notDelimiter : (c == delimiter) = false := by
      refine beq_false_of_ne fun same => ?_
      rw [same] at lead
      exact absurd lead (by decide)
    obtain ⟨marked, le⟩ := codeToken_lead lead noMark rest
    have stepped : (Reading.mk offset before 0 (.code state) [] found).step c rest =
        ⟨offset + 1, c :: before, (codeToken state c rest).2, .code (codeToken state c rest).1, [],
          found⟩ := by
      simp [Reading.step, inCode, notDelimiter]
    rw [stepped]
    exact ⟨Nat.le_trans le fits, rfl, ⟨_, rfl, marked⟩, rfl⟩

/-- A template is reached outside of all tokens and unmarked behind what may stand in front of it. -/
theorem IsUnmarked.readTo {text : List Char} (unmarked : s.IsUnmarked text.length done)
    (lead : ∀ c ∈ text, isLead c = true) (behind : List Char) :
    (s.readTo text (delimiter :: behind)).IsUnmarked 0 done := by
  induction text generalizing s with
  | nil => exact unmarked
  | cons c rest ih =>
    obtain ⟨first, others⟩ := List.forall_mem_cons.mp lead
    have fits : ((rest ++ delimiter :: behind).takeWhile isIdent).length ≤ rest.length := by
      rw [takeWhile_stop (by decide)]
      exact (List.takeWhile_prefix _).length_le
    exact ih (unmarked.step first fits) others

theorem inContent_plain (plain : IsPlain (c :: body)) (s : Reading) (behind : List Char) :
    s.inContent c (body ++ delimiter :: behind) = s := by
  have notEscape : (c == '\\') = false :=
    beq_false_of_ne fun same => plain.noEscape (same ▸ List.mem_cons_self)
  have notDelimiter : (c == delimiter) = false :=
    beq_false_of_ne fun same => plain.noDelimiter (same ▸ List.mem_cons_self)
  have notHole : (c == '$' && (body ++ delimiter :: behind).head? == some '\x7b') = false := by
    by_contra opens
    rw [Bool.not_eq_false, Bool.and_eq_true, beq_iff_eq, beq_iff_eq] at opens
    obtain ⟨rfl, isBrace⟩ := opens
    cases body with
    | nil => exact absurd (Option.some.inj isBrace) (by decide)
    | cons d rest =>
      cases isBrace
      exact plain.noHole ⟨[], rest, rfl⟩
  rw [inContent, notEscape, notDelimiter, notHole]
  rfl

theorem readTo_content (plain : IsPlain body) (offset : Nat) (before : List Char)
    (opened : List Opened) (found : List Template) (behind : List Char) :
    (Reading.mk offset before 0 .content opened found).readTo body (delimiter :: behind) =
      ⟨offset + body.length, body.reverse ++ before, 0, .content, opened, found⟩ := by
  induction body generalizing offset before with
  | nil => rfl
  | cons c body ih =>
    have read := inContent_plain plain (Reading.mk offset before 0 .content opened found) behind
    have stepped : (Reading.mk offset before 0 .content opened found).step c
        (body ++ delimiter :: behind) = ⟨offset + 1, c :: before, 0, .content, opened, found⟩ := by
      simp only [Reading.step, Nat.lt_irrefl, if_false, read]
    have place : offset + 1 + body.length = offset + (c :: body).length := by
      rw [List.length_cons]
      omega
    rw [Reading.readTo, stepped, ih plain.tail, place, List.reverse_cons, List.append_assoc]
    rfl

/-- What is done stays done. -/
theorem done_step (s : Reading) (c : Char) (rest : List Char) :
    ∃ more, (s.step c rest).done = s.done ++ more := by
  obtain ⟨offset, before, skip, mode, opened, found⟩ := s
  have same (next : Reading) (kept : next.done = found) : ∃ more, next.done = found ++ more :=
    ⟨[], by rw [kept, List.append_nil]⟩
  cases skip with
  | succ skip => exact same _ rfl
  | zero =>
    cases mode with
    | code state =>
      refine same _ ?_
      simp only [Reading.step, inCode, Nat.lt_irrefl, if_false]
      split
      · rfl
      · cases opened with
        | nil => rfl
        | cons o os => dsimp only; split <;> rfl
    | content =>
      simp only [Reading.step, inContent, Nat.lt_irrefl, if_false]
      split
      · exact same _ rfl
      split
      · cases opened with
        | nil => exact same _ rfl
        | cons o os =>
          cases os with
          | nil => exact ⟨_, rfl⟩
          | cons outer os => exact same _ rfl
      split <;> exact same _ rfl

theorem templates_run (s : Reading) (text : List Char) :
    ∃ more, (s.run text).templates = s.done ++ more := by
  induction text generalizing s with
  | nil => exact ⟨_, rfl⟩
  | cons c rest ih =>
    obtain ⟨first, done⟩ := done_step s c rest
    obtain ⟨more, templates⟩ := ih (s.step c rest)
    exact ⟨first ++ more, by rw [Reading.run, templates, done, List.append_assoc]⟩

/-- A template with plain content is done when its closing delimiter is read. -/
theorem IsUnmarked.run_template (unmarked : s.IsUnmarked 0 done) (plain : IsPlain body)
    (behind : List Char) : ∃ more,
      (s.run (delimiter :: (body ++ delimiter :: behind))).templates = done ++
        ⟨s.offset, some (s.offset + 1 + body.length), tagBefore s.before, false, []⟩ :: more := by
  obtain ⟨offset, before, skip, mode, opened, found⟩ := s
  obtain ⟨isFree, isTop, ⟨state, isCode, noMark⟩, isDone⟩ := unmarked
  cases Nat.le_zero.mp isFree
  cases isTop
  cases isCode
  cases isDone
  let o : Opened := ⟨offset, tagBefore before, state.marked, [], 0, [], state.depth⟩
  let inside : Reading := ⟨offset + 1, delimiter :: before, 0, .content, [o], found⟩
  have opens : (Reading.mk offset before 0 (.code state) [] found).step delimiter
      (body ++ delimiter :: behind) = inside := rfl
  have content : inside.readTo body (delimiter :: behind) = _ := readTo_content plain ..
  have closes : ((inside.readTo body (delimiter :: behind)).step delimiter behind).done = found ++
      [⟨offset, some (offset + 1 + body.length), tagBefore before, state.marked, []⟩] := by
    rw [content]
    rfl
  obtain ⟨more, templates⟩ := templates_run
    ((inside.readTo body (delimiter :: behind)).step delimiter behind) behind
  refine ⟨more, ?_⟩
  rw [Reading.run, opens, Reading.run_append, Reading.run, templates, closes, List.append_assoc,
    noMark]
  rfl

end Reading

/-! ### What is reported -/

/-- Behind a script that ends with a statement and its line, or at the start of a text, no template
is open and none is marked, and no chain reaches further back. -/
theorem isUnmarked_readTo (ends : front = [] ∨ EndsStatement front) :
    (∀ behind, (Reading.start.readTo front behind).IsUnmarked 0 (all front)) ∧
      ∀ before, tagBefore (before ++ front.reverse) = tagBefore before := by
  rcases ends with rfl | ends
  · refine ⟨fun behind => ⟨Nat.le_refl _, rfl, ⟨_, rfl, rfl⟩, rfl⟩, fun before => ?_⟩
    rw [List.reverse_nil, List.append_nil]
  · obtain ⟨c, depth, done, ⟨line, isFront⟩, isEnd, after⟩ := ends.exists_isAfter
    have alone : all front = done := (after []).all_eq
    refine ⟨fun behind => ?_, fun before => ?_⟩
    · have behindFront := after behind
      exact ⟨Nat.le_of_eq behindFront.skip, behindFront.opened, ⟨_, behindFront.code, rfl⟩,
        behindFront.done.trans alone.symm⟩
    · rw [isFront, List.reverse_append]
      exact (isBar_statement isEnd line.reverse).tagBefore_append before

/-- A script in which a template with some content stands behind a chain and what leads from there to
the template. -/
def scriptAround (front chain body behind : List Char) : List Char :=
  front ++ (chain ++ delimiter :: (body ++ delimiter :: behind))

theorem slice_scriptAround (front chain body behind : List Char) :
    (Span.mk (front.length + chain.length + 1)
      (front.length + chain.length + 1 + body.length)).slice (scriptAround front chain body behind) =
        body := by
  have parts : scriptAround front chain body behind =
      (front ++ chain ++ [delimiter]) ++ (body ++ delimiter :: behind) := by simp [scriptAround]
  have length : (front ++ chain ++ [delimiter]).length = front.length + chain.length + 1 := by
    rw [List.length_append, List.length_append, List.length_singleton]
  rw [Span.slice, Nat.add_sub_cancel_left, parts, ← length, List.drop_left, List.take_left]

theorem all_tagged (ends : front = [] ∨ EndsStatement front)
    (isChain : ∀ name ∈ names, IsName name) (isApproach : IsApproach approach)
    (plain : IsPlain body) (behind : List Char) : ∃ more,
      all (scriptAround front (dotted names ++ approach) body behind) =
        all front ++ ⟨front.length + (dotted names ++ approach).length,
          some (front.length + (dotted names ++ approach).length + 1 + body.length),
          chainTag names, false, []⟩ :: more := by
  obtain ⟨unmarked, seam⟩ := isUnmarked_readTo ends
  have lead := isLead_of_mem isChain isApproach
  have tag := tagBefore_dotted isChain isApproach
  generalize dotted names ++ approach = chain at lead tag ⊢
  let rest := body ++ delimiter :: behind
  let s := Reading.start.readTo front (chain ++ delimiter :: rest)
  have atStart : s.IsUnmarked chain.length (all front) :=
    { unmarked (chain ++ delimiter :: rest) with skip := Nat.le_trans (unmarked _).skip (by simp) }
  have reached : (s.readTo chain (delimiter :: rest)).IsUnmarked 0 (all front) :=
    atStart.readTo lead rest
  have place : (s.readTo chain (delimiter :: rest)).offset = front.length + chain.length := by
    rw [Reading.offset_readTo, Reading.offset_readTo]
    exact congrArg (· + chain.length) (Nat.zero_add _)
  have before : (s.readTo chain (delimiter :: rest)).before = chain.reverse ++ front.reverse := by
    rw [Reading.before_readTo, Reading.before_readTo]
    exact congrArg (chain.reverse ++ ·) (List.append_nil _)
  obtain ⟨more, templates⟩ := reached.run_template plain behind
  refine ⟨more, ?_⟩
  rw [place, before, seam, tag] at templates
  rw [all, scriptAround, Reading.run_append, Reading.run_append]
  exact templates

/-- Behind a statement, a template with plain content that stands behind a dotted chain of names is
reported next, and with the chain as its tag, if the last names of the chain say that it is GraphQL.
Otherwise nothing is reported at its place. -/
theorem scan_javascript_tagged (ends : front = [] ∨ EndsStatement front)
    (isChain : ∀ name ∈ names, IsName name) (isApproach : IsApproach approach)
    (plain : IsPlain body) (visible : Text.isBlank body = false) (behind : List Char) :
    let text := scriptAround front (dotted names ++ approach) body behind
    let place := front.length + (dotted names ++ approach).length
    (TagsGraphql names → ∃ literal more,
      scan text .javascript = scan front .javascript ++ .found literal :: more ∧
        literal.raw = body ∧ literal.tag = some (String.ofList (dotted names)) ∧
        literal.start = place + 1 ∧ literal.stop = place + 1 + body.length ∧
        literal.interpolations = []) ∧
      (¬ TagsGraphql names → ∀ e ∈ scan text .javascript, e.opening ≠ place) := by
  intro text place
  obtain ⟨more, templates⟩ := all_tagged ends isChain isApproach plain behind
  obtain ⟨_, nestedFront⟩ := exists_areNested_all front
  obtain ⟨_, nested⟩ := exists_areNested_all text
  have ordered := nested.ordered
  have raw := slice_scriptAround front (dotted names ++ approach) body behind
  have reported : scan text .javascript = scan front .javascript ++
      (⟨place, some (place + 1 + body.length), chainTag names, false, []⟩ :: more).filterMap
        (extraction? text (.ofText text)) := by
    rw [scan, scan, templates, List.filterMap_append]
    refine congrArg (· ++ _) (List.filterMap_congr fun t member => ?_)
    exact extraction?_before (nestedFront.closed t member) _
  refine ⟨fun isTag => ?_, fun noTag e member => ?_⟩
  · rw [chainTag, if_pos isTag] at reported
    have found : extraction? text (.ofText text) ⟨place, some (place + 1 + body.length),
        some (String.ofList (dotted names)), false, []⟩ = some (.found (.ofSpan text (.ofText text)
          ⟨place + 1, place + 1 + body.length⟩ (some (String.ofList (dotted names))) [])) := by
      simp only [extraction?, text, place, raw, visible]
      rfl
    rw [List.filterMap_cons, found] at reported
    exact ⟨_, _, reported, raw, rfl, rfl, rfl, rfl⟩
  · obtain ⟨t, isTemplate, isReported⟩ := List.mem_filterMap.mp member
    rw [opening_of_extraction? isReported]
    rw [templates, List.pairwise_append, List.pairwise_cons] at ordered
    rw [templates, List.mem_append, List.mem_cons] at isTemplate
    rcases isTemplate with before | rfl | after
    · exact Nat.ne_of_lt (ordered.2.2 t before _ List.mem_cons_self).1
    · simp [extraction?, chainTag, noTag] at isReported
    · exact Nat.ne_of_gt (ordered.2.1.1 t after).1

/-- A call with the longer tag on a line of its own, whose content has a dollar in it. -/
theorem scan_javascript_tagged_call :
    let front := "a;\n".toList
    let names := ["Relay".toList, "graphql".toList, "experimental".toList]
    let approach := " (\n".toList
    let body := "query Q($n: Int) \x7b a \x7d".toList
    let text := scriptAround front (dotted names ++ approach) body ") \x60".toList
    EndsStatement front ∧ (∀ name ∈ names, IsName name) ∧ IsApproach approach ∧ IsPlain body ∧
      Text.isBlank body = false ∧ TagsGraphql names ∧
      ∃ literal more, scan text .javascript = scan front .javascript ++ .found literal :: more ∧
        literal.raw = body ∧ literal.tag = some "Relay.graphql.experimental" ∧
        literal.start = 33 ∧ literal.stop = 55 ∧ literal.interpolations = [] := by
  intro front names approach body text
  have ends : EndsStatement front :=
    ⟨"a".toList, ';', rfl, rfl, by decide +kernel, by decide +kernel,
      ⟨0, .word "a".toList, false⟩, by decide +kernel⟩
  have isChain : ∀ name ∈ names, IsName name := by
    intro name member
    simp only [names, List.mem_cons, List.not_mem_nil, or_false] at member
    rcases member with rfl | rfl | rfl <;> exact ⟨by decide, List.all_eq_true.mp (by decide)⟩
  have isApproach : IsApproach approach := @IsApproach.call [' '] ['\n']
    (List.forall_mem_singleton.mpr rfl) (List.forall_mem_singleton.mpr rfl)
  have plain : IsPlain body := ⟨by decide +kernel, by decide +kernel, by decide +kernel⟩
  have visible : Text.isBlank body = false := by decide +kernel
  have isTag : TagsGraphql names := by decide +kernel
  obtain ⟨tagged, -⟩ := scan_javascript_tagged (.inr ends) isChain isApproach plain visible
    ") \x60".toList
  exact ⟨ends, isChain, isApproach, plain, visible, isTag, tagged isTag⟩

end InlineQuery.Template
