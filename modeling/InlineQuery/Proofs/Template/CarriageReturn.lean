import InlineQuery.Proofs.Template.Masking
import InlineQuery.Proofs.Template.Seam
import InlineQuery.Proofs.Text.CarriageReturn

/-!
A script whose lines end with a carriage return and a line feed. Both readings go through the same
states as long as no string and no regular expression holds a line feed. Only a backslash in front
lets it do so, and behind the backslash a carriage return takes the place of the line feed, which
then ends the token.
-/

namespace InlineQuery

open Text (crlf crlfPlace)

/-- The span of a text with carriage returns that belongs to a span of it without them. -/
def Span.crlf (text : List Char) (span : Span) : Span :=
  ⟨crlfPlace text span.start, crlfPlace text span.stop⟩

/-- The literal of a text with carriage returns that belongs to a literal of it without them. -/
def Literal.crlf (text : List Char) (literal : Literal) : Literal :=
  { literal with
    raw := Text.crlf literal.raw
    start := crlfPlace text literal.start
    stop := crlfPlace text literal.stop
    interpolations := literal.interpolations.map (.crlf literal.raw) }

/-- The finding in a text with carriage returns that belongs to a finding in it without them. -/
def Extraction.crlf (text : List Char) : Extraction → Extraction
  | found literal => found (literal.crlf text)
  | skipped reason offset => skipped reason (crlfPlace text offset)

namespace Template

open Literal (isIdent isGap lineRest)

/-- The template of a text with carriage returns that belongs to a template of it without them. -/
def crlf (text : List Char) (t : Template) : Template :=
  { t with
    opened := crlfPlace text t.opened
    closed := t.closed.map (crlfPlace text)
    spans := t.spans.map (.crlf (text.drop (t.opened + 1))) }

/-! ### What a line feed stands in -/

/-- How many characters follow the first one of a string or of a regular expression. -/
def quotedRest (state : Code) (c : Char) (rest : List Char) : Option Nat :=
  if c == '\'' || c == '"' then some (stringRest c rest)
  else if c == '/' && rest.head? != some '*' && state.last.beforeRegex then regexRest rest
  else none

/-- They are read as one token. -/
theorem codeToken_quoted {state : Code} {c : Char} {rest : List Char} {n : Nat}
    (quoted : quotedRest state c rest = some n) : (codeToken state c rest).2 = n := by
  unfold quotedRest at quoted
  split at quoted
  · rename_i quotes
    cases quoted
    rw [Bool.or_eq_true, beq_iff_eq, beq_iff_eq] at quotes
    rw [(IsToken.string quotes).codeToken_eq]
  · split at quoted
    · rename_i slash
      simp only [Bool.and_eq_true, beq_iff_eq, bne_iff_ne] at slash
      obtain ⟨⟨rfl, notBlock⟩, expected⟩ := slash
      have notLine : rest.head? ≠ some '/' := by
        intro line
        obtain ⟨r, rfl⟩ := List.head?_eq_some_iff.mp line
        cases quoted
      rw [(IsToken.regex notLine notBlock expected quoted).codeToken_eq]
    · cases quoted

/-- The string or the regular expression that starts with a character of code. -/
def Reading.quotedAt? (s : Reading) (c : Char) (rest : List Char) : Option Span :=
  match s.skip, s.mode with
  | 0, .code state => (quotedRest state c rest).map fun n => ⟨s.offset, s.offset + 1 + n⟩
  | _, _ => none

/-- The strings and regular expressions that are read from a state on. -/
def Reading.quoted (s : Reading) : List Char → List Span
  | [] => []
  | c :: rest => (s.quotedAt? c rest).toList ++ (s.step c rest).quoted rest

/-- The strings and regular expressions of a script, in source order. -/
def quoted (text : List Char) : List Span := Reading.start.quoted text

/-! ### How far a token reaches -/

/-- So many characters of a text ahead belong to a token, and so many of the text with carriage
returns. A token that ends before a line feed may hold the carriage return, and one that ends behind
it may end with the carriage return. -/
inductive Reaches : List Char → Nat → Nat → Prop
  | nothing (n n' : Nat) : Reaches [] n n'
  | done (rest : List Char) : Reaches rest 0 0
  | before (rest : List Char) : Reaches ('\n' :: rest) 0 1
  | behind (rest : List Char) : Reaches ('\n' :: rest) 1 1
  | char {c : Char} {rest : List Char} {n n' : Nat} (other : c ≠ '\n') (later : Reaches rest n n') :
    Reaches (c :: rest) (n + 1) (n' + 1)
  | feed {rest : List Char} {n n' : Nat} (later : Reaches rest n n') :
    Reaches ('\n' :: rest) (n + 1) (n' + 2)

namespace Reaches

variable {c : Char} {rest : List Char} {n n' : Nat}

theorem pred (reaches : Reaches (c :: rest) n n') (other : c ≠ '\n') :
    (n = 0 ↔ n' = 0) ∧ Reaches rest (n - 1) (n' - 1) := by
  cases reaches with
  | done => exact ⟨Iff.rfl, .done rest⟩
  | before => exact absurd rfl other
  | behind => exact absurd rfl other
  | char _ later => exact ⟨by omega, later⟩
  | feed => exact absurd rfl other

theorem pred_feed (reaches : Reaches ('\n' :: rest) n n') : Reaches rest (n - 1) (n' - 1 - 1) := by
  cases reaches with
  | done => exact .done rest
  | before => exact .done rest
  | behind => exact .done rest
  | char other => exact absurd rfl other
  | feed later => exact later

theorem front (front after : List Char) :
    Reaches (front ++ after) front.length (Text.crlf front).length := by
  induction front with
  | nil => exact .done after
  | cons c front ih =>
    by_cases feed : c = '\n'
    · subst feed
      exact .feed ih
    · rw [Text.crlf_cons feed]
      exact .char feed ih

theorem all (rest : List Char) : Reaches rest rest.length (Text.crlf rest).length := by
  have whole := front rest []
  rwa [List.append_nil] at whole

theorem plain (noFeed : '\n' ∉ rest.take n) : Reaches rest n n := by
  induction rest generalizing n with
  | nil => exact .nothing n n
  | cons c rest ih =>
    cases n with
    | zero => exact .done _
    | succ n =>
      rw [List.take_succ_cons] at noFeed
      exact .char (List.ne_of_not_mem_cons noFeed).symm (ih (List.not_mem_of_not_mem_cons noFeed))

/-- An escape holds one character, whichever it is. -/
theorem escape (rest : List Char) : Reaches rest 1 1 := by
  cases rest with
  | nil => exact .nothing 1 1
  | cons c rest =>
    by_cases feed : c = '\n'
    · subst feed
      exact .behind rest
    · exact .char feed (.done rest)

end Reaches

/-! ### Tokens -/

section
variable {rest : List Char} {n : Nat}

theorem reaches_lineRest (rest : List Char) :
    Reaches rest (lineRest rest) (lineRest (Text.crlf rest)) := by
  induction rest with
  | nil => exact .done []
  | cons c rest ih =>
    by_cases feed : c = '\n'
    · subst feed
      exact .before rest
    · have longer (rest : List Char) : lineRest (c :: rest) = lineRest rest + 1 := by
        rw [lineRest, List.takeWhile_cons_of_pos (by simp [feed])]
        rfl
      rw [Text.crlf_cons feed, longer, longer]
      exact .char feed ih

/-- A string that holds no line feed ends where it did, or it is not closed and now holds the
carriage return at the end of its line. -/
theorem reaches_stringRest {quote : Char} (notFeed : quote ≠ '\n') (notReturn : quote ≠ '\r')
    (oneLine : '\n' ∉ rest.take (stringRest quote rest)) :
    Reaches rest (stringRest quote rest) (stringRest quote (Text.crlf rest)) := by
  fun_induction stringRest quote rest with
  | case1 => exact .done []
  | case2 => exact .plain oneLine
  | case3 d r ih =>
    rw [List.take_succ_cons, List.take_succ_cons] at oneLine
    have later := List.not_mem_of_not_mem_cons oneLine
    have other : d ≠ '\n' := (List.ne_of_not_mem_cons later).symm
    rw [Text.crlf_cons (by decide), Text.crlf_cons other, stringRest]
    exact .char (by decide) (.char other (ih (List.not_mem_of_not_mem_cons later)))
  | case4 c r one two isQuote =>
    have same : c = quote := beq_iff_eq.mp isQuote
    have other : c ≠ '\n' := same ▸ notFeed
    rw [Text.crlf_cons other, stringRest_cons (ne_backslash one two), if_pos isQuote]
    exact .char other (.done r)
  | case5 c r one two notQuote isFeed =>
    have same : c = '\n' := beq_iff_eq.mp isFeed
    subst same
    have return_ : ('\r' == quote) = false := beq_false_of_ne notReturn.symm
    have feed : ('\n' == quote) = false := beq_false_of_ne notFeed.symm
    rw [Text.crlf_feed, stringRest_cons (by decide), return_, stringRest_cons (by decide), feed]
    exact .before r
  | case6 c r one two notQuote notEnd ih =>
    have other : c ≠ '\n' := fun same => notEnd (beq_iff_eq.mpr same)
    rw [List.take_succ_cons] at oneLine
    rw [Text.crlf_cons other, stringRest_cons (ne_backslash one two), if_neg notQuote,
      if_neg notEnd]
    exact .char other (ih (List.not_mem_of_not_mem_cons oneLine))

/-- What holds no line feed holds none behind its first character. -/
theorem oneLine_tail {c : Char} {found : Option Nat}
    (oneLine : ∀ n, found.map (· + 1) = some n → '\n' ∉ (c :: rest).take n) :
    ∀ n, found = some n → '\n' ∉ rest.take n := by
  rintro n rfl inside
  exact oneLine (n + 1) rfl (List.mem_cons_of_mem c inside)

theorem regexBody_crlf {inClass : Bool}
    (oneLine : ∀ n, regexBody inClass rest = some n → '\n' ∉ rest.take n) :
    regexBody inClass (Text.crlf rest) = regexBody inClass rest := by
  fun_induction regexBody inClass rest with
  | case1 => rfl
  | case2 => rfl
  | case3 inClass d r ih =>
    by_cases feed : d = '\n'
    · -- An escaped line feed can only stand in what turns out to be a division.
      subst feed
      cases closes : regexBody inClass r with
      | none =>
        rw [Text.crlf_cons (by decide), Text.crlf_feed, regexBody, regexBody_cons (by decide)]
        rfl
      | some n =>
        rw [closes] at oneLine
        exact absurd (List.mem_cons_of_mem _ (List.mem_cons_self ..)) (oneLine (n + 2) rfl)
    · have later : ∀ n, regexBody inClass r = some n → '\n' ∉ r.take n := by
        refine oneLine_tail (c := d) (oneLine_tail (c := '\\') ?_)
        rwa [Option.map_map]
      rw [Text.crlf_cons (by decide), Text.crlf_cons feed, regexBody, ih later]
  | case4 inClass c r one two isFeed =>
    have same : c = '\n' := beq_iff_eq.mp isFeed
    subst same
    rw [Text.crlf_feed, regexBody_cons (by decide), regexBody_cons (by decide),
      regexBody_cons (by decide)]
    cases inClass <;> rfl
  | case5 c r one two notFeed ih =>
    have other : c ≠ '\n' := fun same => notFeed (beq_iff_eq.mpr same)
    rw [Text.crlf_cons other, regexBody_cons (ne_backslash one two), if_neg notFeed, if_pos rfl,
      ih (oneLine_tail oneLine)]
  | case6 inClass c r one two notFeed notClass isSlash =>
    have other : c ≠ '\n' := fun same => notFeed (beq_iff_eq.mpr same)
    rw [Text.crlf_cons other, regexBody_cons (ne_backslash one two), if_neg notFeed,
      if_neg notClass, if_pos isSlash]
  | case7 inClass c r one two notFeed notClass notSlash ih =>
    have other : c ≠ '\n' := fun same => notFeed (beq_iff_eq.mpr same)
    rw [Text.crlf_cons other, regexBody_cons (ne_backslash one two), if_neg notFeed,
      if_neg notClass, if_neg notSlash, ih (oneLine_tail oneLine)]

theorem regexRest_crlf (notSlash : rest.head? ≠ some '/')
    (oneLine : ∀ n, regexRest rest = some n → '\n' ∉ rest.take n) :
    regexRest (Text.crlf rest) = regexRest rest := by
  have notSlash' : (Text.crlf rest).head? ≠ some '/' := by
    have same := Text.head?_crlf (c := '/') (by decide) (by decide) rest
    rw [beq_false_of_ne notSlash] at same
    exact beq_eq_false_iff_ne.mp same
  rw [regexRest_of_ne notSlash] at oneLine ⊢
  rw [regexRest_of_ne notSlash']
  have body : ∀ n, regexBody false rest = some n → '\n' ∉ rest.take n := by
    intro n closes inside
    rw [closes] at oneLine
    have shorter := List.take_prefix_take_left (l := rest) (Nat.le_add_right n
      ((rest.drop n).takeWhile isIdent).length)
    exact oneLine _ rfl (shorter.subset inside)
  rw [regexBody_crlf body]
  refine Option.map_congr fun n closes => ?_
  have bound := regexBody_le_length closes
  rw [Text.crlf_eq_take_append (body n closes), List.drop_left' (List.length_take_of_le bound),
    Text.takeWhile_crlf (by decide) (by decide)]

theorem commentBody_crlf (rest : List Char) :
    commentBody (Text.crlf rest) = (commentBody rest).map Text.crlf := by
  fun_induction commentBody rest with
  | case1 => rfl
  | case2 r => rfl
  | case3 c r notEnd ih =>
    have onward {d : Char} {r : List Char} (open_ : d ≠ '*' ∨ r.head? ≠ some '/') :
        commentBody (d :: r) = (commentBody r).map (d :: ·) := by
      rw [commentBody]
      rintro r' rfl rfl
      rcases open_ with other | other <;> exact absurd rfl other
    by_cases feed : c = '\n'
    · subst feed
      rw [Text.crlf_feed, onward (.inl (by decide)), onward (.inl (by decide)), ih, Option.map_map,
        Option.map_map, Option.map_map]
      refine Option.map_congr fun body _ => ?_
      rfl
    · have open_ : c ≠ '*' ∨ (Text.crlf r).head? ≠ some '/' := by
        by_cases star : c = '*'
        · right
          intro slash
          have same := Text.head?_crlf (c := '/') (by decide) (by decide) r
          rw [slash, beq_self_eq_true] at same
          obtain ⟨r', rfl⟩ := List.head?_eq_some_iff.mp (beq_iff_eq.mp same.symm)
          exact notEnd r' star rfl
        · exact .inl star
      rw [Text.crlf_cons feed, onward open_, ih, Option.map_map, Option.map_map]
      refine Option.map_congr fun body _ => ?_
      exact (Text.crlf_cons feed body).symm

theorem reaches_block (body after : List Char) :
    Reaches ('*' :: (body ++ '*' :: '/' :: after)) (body.length + 3)
      ((Text.crlf body).length + 3) := by
  have reaches := Reaches.front ('*' :: body ++ ['*', '/']) after
  have length (body : List Char) : ('*' :: body ++ ['*', '/']).length = body.length + 3 := by simp
  have front : Text.crlf ('*' :: body ++ ['*', '/']) = '*' :: Text.crlf body ++ ['*', '/'] := by
    rw [Text.crlf_append, Text.crlf_cons (by decide)]
    rfl
  rw [front, length, length, List.append_assoc] at reaches
  exact reaches

theorem isMarker_crlf (body : List Char) : isMarker (Text.crlf body) = isMarker body := by
  rw [isMarker, isMarker, Text.trim_crlf]
  by_cases feed : '\n' ∈ Text.trim body
  · -- The word that marks a template holds no line feed.
    have other {word : List Char} (inside : '\n' ∈ word) :
        (word.map Char.toLower == "graphql".toList) = false := by
      refine beq_false_of_ne fun same => ?_
      have lower := List.mem_map_of_mem (f := Char.toLower) inside
      rw [same] at lower
      exact absurd lower (by decide)
    rw [other feed, other (Text.mem_crlf feed)]
  · rw [Text.crlf_eq_self feed]

/-- A token that starts with no line feed, and that is no string or regular expression with one in
it, is the same token. -/
theorem IsToken.crlf {state : Code} {c : Char} {next : Code → Code}
    (token : IsToken state.last.beforeRegex c rest next n) (other : c ≠ '\n')
    (oneLine : ∀ n, quotedRest state c rest = some n → '\n' ∉ rest.take n) :
    ∃ n', IsToken state.last.beforeRegex c (Text.crlf rest) next n' ∧ Reaches rest n n' := by
  have head {d : Char} (notFeed : d ≠ '\n') (notReturn : d ≠ '\r') :
      (Text.crlf rest).head? = some d ↔ rest.head? = some d := by
    rw [← beq_iff_eq, Text.head?_crlf notFeed notReturn, beq_iff_eq]
  cases token with
  | gap blank => exact ⟨0, .gap blank, .done rest⟩
  | line starts => exact ⟨_, .line ((head (by decide) (by decide)).mpr starts), reaches_lineRest rest⟩
  | unclosed starts endless =>
    refine ⟨_, .unclosed ((head (by decide) (by decide)).mpr starts) ?_, .all rest⟩
    obtain ⟨inner, rfl⟩ := List.head?_eq_some_iff.mp starts
    have endless' : commentBody inner = none := endless
    rw [Text.crlf_cons (by decide), List.drop_one, List.tail_cons, commentBody_crlf, endless']
    rfl
  | @block _ body starts closes =>
    obtain ⟨inner, rfl⟩ := List.head?_eq_some_iff.mp starts
    have closes' : commentBody ((Text.crlf ('*' :: inner)).drop 1) = some (Text.crlf body) := by
      rw [Text.crlf_cons (by decide), List.drop_one, List.tail_cons, commentBody_crlf]
      exact congrArg (Option.map Text.crlf) closes
    refine ⟨(Text.crlf body).length + 3, ?_, ?_⟩
    · rw [← isMarker_crlf]
      exact .block ((head (by decide) (by decide)).mpr starts) closes'
    · obtain ⟨after, rfl⟩ := exists_of_commentBody closes
      exact reaches_block body after
  | string quotes =>
    have notReturn : c ≠ '\r' := by rintro rfl; simp at quotes
    have quoted : quotedRest state c rest = some (stringRest c rest) :=
      if_pos (by simpa using quotes)
    exact ⟨_, .string quotes, reaches_stringRest other notReturn (oneLine _ quoted)⟩
  | regex notLine notBlock expected closes =>
    have quoted : quotedRest state '/' rest = regexRest rest := by
      simp [quotedRest, notBlock, expected]
    rw [quoted] at oneLine
    have closes' : regexRest (Text.crlf rest) = some n := by
      rw [regexRest_crlf notLine oneLine, closes]
    exact ⟨n, .regex (mt (head (by decide) (by decide)).mp notLine)
      (mt (head (by decide) (by decide)).mp notBlock) expected closes', .plain (oneLine n closes)⟩
  | division notLine notBlock divides =>
    refine ⟨0, .division (mt (head (by decide) (by decide)).mp notLine)
      (mt (head (by decide) (by decide)).mp notBlock) fun expected => ?_, .done rest⟩
    rw [regexRest_crlf notLine fun n closes => ?_, divides expected]
    rw [divides expected] at closes
    cases closes
  | word ident =>
    have noFeed : '\n' ∉ rest.take (rest.takeWhile isIdent).length := by
      rw [← List.prefix_iff_eq_take.mp (List.takeWhile_prefix isIdent)]
      intro inside
      exact absurd (List.all_eq_true.mp List.all_takeWhile _ inside) (by decide)
    refine ⟨_, ?_, .plain noFeed⟩
    rw [← Text.takeWhile_crlf (by decide) (by decide)]
    exact .word ident
  | mark notGap notSlash notQuote notIdent =>
    exact ⟨0, .mark notGap notSlash notQuote notIdent, .done rest⟩

theorem codeToken_crlf (state : Code) {c : Char} (other : c ≠ '\n')
    (oneLine : ∀ n, quotedRest state c rest = some n → '\n' ∉ rest.take n) :
    ∃ n', codeToken state c (Text.crlf rest) = ((codeToken state c rest).1, n') ∧
      Reaches rest (codeToken state c rest).2 n' := by
  obtain ⟨next, n, token⟩ := exists_isToken state.last.beforeRegex c rest
  obtain ⟨n', token', reaches⟩ := token.crlf other oneLine
  rw [token.codeToken_eq, token'.codeToken_eq]
  exact ⟨n', rfl, reaches⟩

end

/-! ### The tag in front of a template -/

/-- A text that is read backwards, with a carriage return in front of every line feed. -/
def crlfBack (before : List Char) : List Char := (Text.crlf before.reverse).reverse

section
variable {c : Char}

theorem crlfBack_cons (other : c ≠ '\n') (before : List Char) :
    crlfBack (c :: before) = c :: crlfBack before := by
  rw [crlfBack, List.reverse_cons, Text.crlf_append, Text.crlf_cons other, List.reverse_append]
  rfl

theorem crlfBack_feed (before : List Char) :
    crlfBack ('\n' :: before) = '\n' :: '\r' :: crlfBack before := by
  rw [crlfBack, List.reverse_cons, Text.crlf_append, List.reverse_append]
  rfl

theorem dropWhile_crlfBack (before : List Char) :
    (crlfBack before).dropWhile isGap = crlfBack (before.dropWhile isGap) := by
  induction before with
  | nil => rfl
  | cons c before ih =>
    by_cases feed : c = '\n'
    · subst feed
      rw [crlfBack_feed]
      exact ih
    · rw [crlfBack_cons feed, List.dropWhile_cons, List.dropWhile_cons, ih]
      split
      · rfl
      · exact (crlfBack_cons feed before).symm

theorem beforeParen_crlfBack (before : List Char) :
    beforeParen (crlfBack before) = crlfBack (beforeParen before) := by
  cases before with
  | nil => rfl
  | cons c before =>
    by_cases feed : c = '\n'
    · subst feed
      rw [beforeParen_cons (by decide), crlfBack_feed, beforeParen_cons (by decide)]
    · rw [crlfBack_cons feed]
      by_cases paren : c = '('
      · subst paren
        exact dropWhile_crlfBack before
      · rw [beforeParen_cons paren, beforeParen_cons paren, crlfBack_cons feed]

theorem namesBefore_crlfBack (before : List Char) :
    namesBefore (crlfBack before) = namesBefore before := by
  have none_ {d : Char} (other : (isIdent d || d == '.') = false) (rest : List Char) :
      namesBefore (d :: rest) = [] := List.takeWhile_cons_of_neg (by simp [other])
  induction before with
  | nil => rfl
  | cons c before ih =>
    by_cases feed : c = '\n'
    · subst feed
      rw [crlfBack_feed, none_ (by decide), none_ (by decide)]
    · rw [crlfBack_cons feed, namesBefore, namesBefore, List.takeWhile_cons, List.takeWhile_cons]
      split
      · exact congrArg (c :: ·) ih
      · rfl

theorem tagBefore_crlfBack (before : List Char) :
    tagBefore (crlfBack before) = tagBefore before := by
  rw [tagBefore_eq, tagBefore_eq, dropWhile_crlfBack, beforeParen_crlfBack, namesBefore_crlfBack]

end

/-! ### Two readings -/

def Opened.crlf (text : List Char) (o : Opened) : Opened :=
  { o with
    start := crlfPlace text o.start
    hole := crlfPlace text o.hole
    spans := o.spans.map (.crlf (text.drop (o.start + 1)))
    inner := o.inner.map (.crlf text) }

/-- A reading of a text, and the one of the text with carriage returns, with the same text ahead. -/
structure Reading.IsCrlf (text rest : List Char) (s t : Reading) : Prop where
  offset : t.offset = crlfPlace text s.offset
  before : t.before = crlfBack s.before
  skip : Reaches rest s.skip t.skip
  mode : t.mode = s.mode
  opened : t.opened = s.opened.map (.crlf text)
  done : t.done = s.done.map (.crlf text)

/-- Between tokens, and in the content of a template, a line end is passed over. -/
theorem Reading.step_gap (s : Reading) {c : Char} (gap : c = '\n' ∨ c = '\r') (rest : List Char) :
    s.step c rest = { s with
      offset := s.offset + 1, before := c :: s.before, skip := s.skip - 1 } := by
  obtain ⟨offset, before, skip, mode, opened, done⟩ := s
  cases skip with
  | succ skip => rfl
  | zero =>
    cases mode with
    | content => rcases gap with rfl | rfl <;> rfl
    | code state =>
      cases opened with
      | nil => rcases gap with rfl | rfl <;> rfl
      | cons o os => rcases gap with rfl | rfl <;> rfl

namespace Reading.IsCrlf

variable {text rest : List Char} {s t : Reading} {state : Code} {c : Char}

/-- A line feed, or the carriage return and the line feed in its place, are read. -/
theorem step_feed (same : s.IsCrlf text ('\n' :: rest) t)
    (ahead : text.drop s.offset = '\n' :: rest) :
    (s.step '\n' rest).IsCrlf text rest
      ((t.step '\r' ('\n' :: Text.crlf rest)).step '\n' (Text.crlf rest)) := by
  have atOffset : text[s.offset]? = some '\n' := getElem?_of_drop ahead
  rw [step_gap s (.inl rfl), step_gap t (.inr rfl), step_gap _ (.inl rfl)]
  refine ⟨?_, ?_, same.skip.pred_feed, same.mode, same.opened, same.done⟩
  · rw [Text.crlfPlace_feed atOffset, ← same.offset]
  · rw [crlfBack_feed, ← same.before]

/-- What is read of a character that is no line feed, moved to the place behind it. -/
theorem advance (same : s.IsCrlf text (c :: rest) t) (atOffset : text[s.offset]? = some c)
    (other : c ≠ '\n') {next next' : Reading} (after : next.IsCrlf text rest next') :
    ({ next with offset := s.offset + 1, before := c :: s.before } : Reading).IsCrlf text rest
      { next' with offset := t.offset + 1, before := c :: t.before } where
  offset := by rw [Text.crlfPlace_succ atOffset other, ← same.offset]
  before := by rw [crlfBack_cons other, ← same.before]
  skip := after.skip
  mode := after.mode
  opened := after.opened
  done := after.done

theorem inCode (same : s.IsCrlf text rest t) (sound : s.IsSound text) (free : s.skip = 0)
    (isCode : s.mode = .code state) (atOffset : text[s.offset]? = some c) (other : c ≠ '\n')
    (oneLine : ∀ n, quotedRest state c rest = some n → '\n' ∉ rest.take n) :
    (s.inCode state c rest).IsCrlf text rest (t.inCode state c (Text.crlf rest)) := by
  obtain ⟨n', token, reaches⟩ := codeToken_crlf state other oneLine
  obtain ⟨offset, before, skip, mode, opened, done⟩ := s
  obtain ⟨offset', before', skip', mode', opened', done'⟩ := t
  cases free
  cases isCode
  have isOpened : opened' = opened.map (.crlf text) := same.opened
  have isOffset : offset' = crlfPlace text offset := same.offset
  unfold Reading.inCode
  rw [token, isOpened]
  split
  · have tag : tagBefore before' = tagBefore before := by
      rw [show before' = crlfBack before from same.before, tagBefore_crlfBack]
    refine { same with mode := rfl, opened := ?_ }
    simp only [tag, isOffset]
    rfl
  · cases opened with
    | nil => exact { same with skip := reaches, mode := rfl, opened := rfl }
    | cons o os =>
      dsimp only [List.map_cons]
      split
      · have known : o.IsSuspended text (offset + 0) := sound.suspended o (List.mem_cons_self ..)
        have reached := known.reached
        have behind : o.start < o.hole := known.ordered
        have inside : o.start < offset + 1 := by omega
        have stop : offset' + 1 - (crlfPlace text o.start + 1) =
            crlfPlace (text.drop (o.start + 1)) (offset + 1 - (o.start + 1)) := by
          rw [isOffset, ← Text.crlfPlace_succ atOffset other]
          exact Text.crlfPlace_sub known.opens (by decide) inside
        have hole : crlfPlace text o.hole - (crlfPlace text o.start + 1) =
            crlfPlace (text.drop (o.start + 1)) (o.hole - (o.start + 1)) :=
          Text.crlfPlace_sub known.opens (by decide) behind
        refine { same with mode := rfl, opened := ?_ }
        simp only [Opened.crlf, stop, hole, List.map_cons, List.map_append, List.map_nil]
        rfl
      · exact { same with skip := reaches, mode := rfl, opened := rfl }

/-- Templates that end inside another one, or at top level. -/
theorem add (same : s.IsCrlf text rest t) (finished : List Template) :
    (s.add finished).IsCrlf text rest (t.add (finished.map (.crlf text))) := by
  obtain ⟨offset, before, skip, mode, opened, done⟩ := s
  obtain ⟨offset', before', skip', mode', opened', done'⟩ := t
  have isOpened : opened' = opened.map (.crlf text) := same.opened
  have isDone : done' = done.map (.crlf text) := same.done
  subst isOpened
  subst isDone
  cases opened with
  | nil => exact { same with done := (List.map_append ..).symm }
  | cons o os =>
    refine { same with opened := ?_ }
    simp only [Reading.add, List.map_cons, Opened.crlf, List.map_append]

theorem inContent (same : s.IsCrlf text rest t) (c : Char) :
    (s.inContent c rest).IsCrlf text rest (t.inContent c (Text.crlf rest)) := by
  obtain ⟨offset, before, skip, mode, opened, done⟩ := s
  obtain ⟨offset', before', skip', mode', opened', done'⟩ := t
  have isOpened : opened' = opened.map (.crlf text) := same.opened
  have isOffset : offset' = crlfPlace text offset := same.offset
  subst isOpened
  subst isOffset
  unfold Reading.inContent
  rw [Text.head?_crlf (by decide) (by decide)]
  split
  · exact { same with skip := .escape rest }
  split
  · cases opened with
    | nil => exact same
    | cons o os =>
      have popped : (Reading.mk offset before skip (.code ⟨o.outer, .mark delimiter, false⟩) os
          done).IsCrlf text rest (Reading.mk (crlfPlace text offset) before' skip'
            (.code ⟨o.outer, .mark delimiter, false⟩) (os.map (.crlf text)) done') :=
        { same with mode := rfl, opened := rfl }
      exact popped.add (o.close (some offset))
  split
  · refine { same with skip := .escape rest, mode := rfl, opened := ?_ }
    cases opened <;> rfl
  · exact same

theorem step (same : s.IsCrlf text (c :: rest) t) (sound : s.IsSound text)
    (ahead : text.drop s.offset = c :: rest) (other : c ≠ '\n')
    (oneLine : ∀ span ∈ s.quotedAt? c rest, '\n' ∉ span.slice text) :
    (s.step c rest).IsCrlf text rest (t.step c (Text.crlf rest)) := by
  have atOffset : text[s.offset]? = some c := getElem?_of_drop ahead
  obtain ⟨free, later⟩ := same.skip.pred other
  refine same.advance atOffset other ?_
  by_cases skips : s.skip > 0
  · have skips' : t.skip > 0 := by omega
    rw [if_pos skips, if_pos skips']
    exact { same with skip := later }
  · have isFree : s.skip = 0 := by omega
    have isFree' : t.skip = 0 := free.mp isFree
    have here : s.IsCrlf text rest t := { same with skip := isFree ▸ isFree' ▸ .done rest }
    rw [if_neg skips, if_neg (by omega), same.mode]
    cases isMode : s.mode with
    | content => exact here.inContent c
    | code state =>
      refine here.inCode sound isFree isMode atOffset other fun n quotes inside => ?_
      have span : (Span.mk s.offset (s.offset + 1 + n)).slice text = c :: rest.take n := by
        rw [Span.slice, ahead, Nat.add_assoc, Nat.add_sub_cancel_left, Nat.add_comm,
          List.take_succ_cons]
      have starts : s.quotedAt? c rest = some ⟨s.offset, s.offset + 1 + n⟩ := by
        rw [Reading.quotedAt?, isFree, isMode]
        exact congrArg (Option.map _) quotes
      refine oneLine _ starts ?_
      rw [span]
      exact List.mem_cons_of_mem c inside

theorem run (same : s.IsCrlf text rest t) (sound : s.IsSound text)
    (ahead : text.drop s.offset = rest) (oneLine : ∀ span ∈ s.quoted rest, '\n' ∉ span.slice text) :
    (s.run rest).IsCrlf text [] (t.run (Text.crlf rest)) := by
  induction rest generalizing s t with
  | nil => exact same
  | cons c rest ih =>
    have sound' := sound.step ahead
    have ahead' : text.drop (s.step c rest).offset = rest := drop_step ahead
    have oneLine' : ∀ span ∈ (s.step c rest).quoted rest, '\n' ∉ span.slice text :=
      fun span later => oneLine span (List.mem_append_right _ later)
    by_cases feed : c = '\n'
    · subst feed
      exact ih (same.step_feed ahead) sound' ahead' oneLine'
    · rw [Text.crlf_cons feed]
      refine ih (same.step sound ahead feed fun span here => ?_) sound' ahead' oneLine'
      exact oneLine span (List.mem_append_left _ (Option.mem_toList.mpr here))

theorem templates (same : s.IsCrlf text rest t) :
    t.templates = s.templates.map (.crlf text) := by
  rw [Reading.templates, Reading.templates, same.done, same.opened, List.map_append,
    List.map_flatten, ← List.map_reverse, List.map_map, List.map_map]
  rfl

end Reading.IsCrlf

/-! ### What is reported -/

variable {text : List Char} {t : Template}

theorem all_crlf (oneLine : ∀ span ∈ quoted text, '\n' ∉ span.slice text) :
    all (Text.crlf text) = (all text).map (.crlf text) := by
  have same : Reading.start.IsCrlf text text .start := ⟨rfl, rfl, .done text, rfl, rfl, rfl⟩
  exact (same.run (Reading.isSound_start text) rfl oneLine).templates

theorem extraction?_crlf (closed : ∀ stop, t.closed = some stop → t.IsClosedAt text stop) :
    extraction? (Text.crlf text) (.ofText (Text.crlf text)) (t.crlf text) =
      (extraction? text (.ofText text) t).map (.crlf text) := by
  refine extraction?_map (crlfPlace text) _ rfl rfl rfl (fun _ => rfl) fun stop isClosed => ?_
  have known := closed stop isClosed
  have bound : stop ≤ text.length := Nat.le_of_lt (List.getElem?_eq_some_iff.mp known.closes).1
  have start : (t.crlf text).opened + 1 = crlfPlace text (t.opened + 1) :=
    (Text.crlfPlace_succ known.opens (by decide)).symm
  have slice := Text.slice_crlf (show t.opened + 1 ≤ stop from known.ordered) text
  have spans : (t.crlf text).spans =
      t.spans.map (.crlf ((Span.mk (t.opened + 1) stop).slice text)) := by
    refine List.map_congr_left fun span member => ?_
    have inside := known.content.bounded span member
    rw [Span.length_slice bound] at inside
    rw [Span.crlf, Span.crlf, Span.slice, Text.crlfPlace_take inside.2,
      Text.crlfPlace_take (by omega)]
  rw [start, slice, Text.isBlank_crlf]
  refine ⟨rfl, congrArg Extraction.found ?_⟩
  have ordered : t.opened + 1 ≤ text.length := Nat.le_trans known.ordered bound
  rw [Literal.ofSpan, Literal.ofSpan, slice, Text.position_crlf bound, Text.position_crlf ordered,
    spans]
  rfl

end Template

/-- A script in which no string and no regular expression holds a line feed is scanned alike when
its lines end with a carriage return and a line feed. -/
theorem scan_javascript_crlf {text : List Char}
    (oneLine : ∀ span ∈ Template.quoted text, '\n' ∉ span.slice text) :
    scan (crlf text) .javascript = (scan text .javascript).map (.crlf text) := by
  obtain ⟨_, nested⟩ := Template.exists_areNested_all text
  rw [scan, scan, Template.all_crlf oneLine, List.filterMap_map, List.map_filterMap]
  exact List.filterMap_congr fun t member => Template.extraction?_crlf (nested.closed t member)

/-- Comments, a division and a template that spans lines are read alike. -/
theorem scan_javascript_crlf_lines :
    let text := "a /\nb // \x60\n/* graphql\n */ \x60\nx\\\n$\x7b'y'\n\x7d\x60".toList
    (∀ span ∈ Template.quoted text, '\n' ∉ span.slice text) ∧
      scan (crlf text) .javascript = (scan text .javascript).map (.crlf text) ∧
      (scan text .javascript).length = 1 := by
  intro text
  have oneLine : ∀ span ∈ Template.quoted text, '\n' ∉ span.slice text := by decide
  exact ⟨oneLine, scan_javascript_crlf oneLine, by decide⟩

/-- A backslash in front of a line end lets a string go on in the next line. In front of a carriage
return it does not, and what follows is read as code. -/
theorem scan_javascript_crlf_continued :
    let text := "'\\\ngql\x60\x7b b \x7d\x60'".toList
    '\r' ∉ text ∧ scan text .javascript = [] ∧ (scan (crlf text) .javascript).length = 1 := by
  decide

end InlineQuery
