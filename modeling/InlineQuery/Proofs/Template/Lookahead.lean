import InlineQuery.Literal.Template
import InlineQuery.Proofs.Text.Lines

/-!
How far reading a script looks ahead. Up to a line feed that no backslash stands before, only a
block comment can take anything in from behind it, and then the reading is still inside that comment
where the line ends.
-/

namespace InlineQuery.Template

open Literal (isIdent isGap lineRest)

/-! ### Kinds of tokens -/

/-- The state behind a comment. -/
def Code.comment (marked : Bool) (state : Code) : Code := { state with marked }

/-- The state behind any other token, given what it does to the depth of open braces. -/
def Code.token (last : Last) (depth : Nat → Nat) (state : Code) : Code :=
  ⟨depth state.depth, last, false⟩

/-- What a character does to the depth of open braces. -/
def bracing (c : Char) : Nat → Nat :=
  if c == '{' then (· + 1) else if c == '}' then (· - 1) else id

/-- A token of code: its first character, the text behind it, what becomes of the state and how
many characters of the text belong to it. Where a regular expression may stand, a slash that
another one completes starts it. -/
inductive IsToken (regex : Bool) : Char → List Char → (Code → Code) → Nat → Prop
  | gap {c : Char} {rest : List Char} (blank : isGap c = true) : IsToken regex c rest id 0
  | line {rest : List Char} (starts : rest.head? = some '/') :
    IsToken regex '/' rest id (lineRest rest)
  | unclosed {rest : List Char} (starts : rest.head? = some '*')
    (endless : commentBody (rest.drop 1) = none) : IsToken regex '/' rest id rest.length
  | block {rest body : List Char} (starts : rest.head? = some '*')
    (closes : commentBody (rest.drop 1) = some body) :
    IsToken regex '/' rest (.comment (isMarker body)) (body.length + 3)
  | string {c : Char} {rest : List Char} (quotes : c = '\'' ∨ c = '"') :
    IsToken regex c rest (.token (.mark c) id) (stringRest c rest)
  | regex {rest : List Char} {n : Nat} (notLine : rest.head? ≠ some '/')
    (notBlock : rest.head? ≠ some '*') (expected : regex = true)
    (closes : regexRest rest = some n) : IsToken regex '/' rest (.token (.word []) id) n
  | division {rest : List Char} (notLine : rest.head? ≠ some '/')
    (notBlock : rest.head? ≠ some '*') (divides : regex = true → regexRest rest = none) :
    IsToken regex '/' rest (.token (.mark '/') id) 0
  | word {c : Char} {rest : List Char} (ident : isIdent c = true) :
    IsToken regex c rest (.token (.word (c :: rest.takeWhile isIdent)) id)
      (rest.takeWhile isIdent).length
  | mark {c : Char} {rest : List Char} (notGap : isGap c = false) (notSlash : c ≠ '/')
    (notQuote : ¬ (c = '\'' ∨ c = '"')) (notIdent : isIdent c = false) :
    IsToken regex c rest (.token (.mark c) (bracing c)) 0

section
variable {state : Code} {c : Char} {rest : List Char} {next : Code → Code} {n : Nat}

theorem isGap_of_isIdent (ident : isIdent c = true) : isGap c = false := by
  cases gap : isGap c with
  | false => rfl
  | true =>
    simp only [isGap, Bool.or_eq_true, beq_iff_eq] at gap
    rcases gap with ((((((rfl | rfl) | rfl) | rfl) | rfl) | rfl) | rfl) <;>
      exact absurd ident (by decide)

theorem codeToken_slash (state : Code) (notLine : rest.head? ≠ some '/')
    (notBlock : rest.head? ≠ some '*') : codeToken state '/' rest =
      match if state.last.beforeRegex then regexRest rest else none with
      | some n => ({ state with last := .word [], marked := false }, n)
      | none => ({ state with last := .mark '/', marked := false }, 0) := by
  rw [codeToken, beq_false_of_ne notLine, beq_false_of_ne notBlock]
  rfl

/-- Reading a token depends on the state only through what a slash may start. -/
theorem IsToken.codeToken_eq (token : IsToken state.last.beforeRegex c rest next n) :
    codeToken state c rest = (next state, n) := by
  have other {d : Char} (ident : isIdent c = true) (notIdent : isIdent d = false) :
      (c == d) = false := by
    refine beq_false_of_ne fun same => ?_
    rw [same, notIdent] at ident
    cases ident
  cases token with
  | gap blank => rw [codeToken, if_pos blank]; rfl
  | line starts => rw [codeToken, starts]; rfl
  | unclosed starts endless => rw [codeToken, starts, endless]; rfl
  | block starts closes => rw [codeToken, starts, closes]; rfl
  | string quotes => rcases quotes with rfl | rfl <;> rfl
  | regex notLine notBlock expected closes =>
    rw [codeToken_slash state notLine notBlock, if_pos expected, closes]
    rfl
  | division notLine notBlock divides =>
    have none_ : (if state.last.beforeRegex then regexRest rest else none) = none :=
      ite_eq_right_iff.mpr divides
    rw [codeToken_slash state notLine notBlock, none_]
    rfl
  | word ident =>
    rw [codeToken, isGap_of_isIdent ident, other ident (d := '/') (by decide),
      other ident (d := '\'') (by decide), other ident (d := '"') (by decide), ident]
    rfl
  | mark notGap notSlash notQuote notIdent =>
    have slash : (c == '/') = false := beq_false_of_ne notSlash
    have quote : (c == '\'' || c == '"') = false := by simpa using notQuote
    rw [codeToken, notGap, slash, quote, notIdent, Code.token, bracing]
    cases c == '{' with
    | true => rfl
    | false => cases c == '}' <;> rfl

theorem exists_isToken (regex : Bool) (c : Char) (rest : List Char) :
    ∃ next n, IsToken regex c rest next n := by
  by_cases slash : c = '/'
  · subst slash
    by_cases line : rest.head? = some '/'
    · exact ⟨_, _, .line line⟩
    by_cases block : rest.head? = some '*'
    · cases closes : commentBody (rest.drop 1) with
      | none => exact ⟨_, _, .unclosed block closes⟩
      | some body => exact ⟨_, _, .block block closes⟩
    cases regex with
    | false => exact ⟨_, _, .division line block nofun⟩
    | true =>
      cases closes : regexRest rest with
      | none => exact ⟨_, _, .division line block fun _ => closes⟩
      | some n => exact ⟨_, _, .regex line block rfl closes⟩
  by_cases quote : c = '\'' ∨ c = '"'
  · exact ⟨_, _, .string quote⟩
  cases gap : isGap c with
  | true => exact ⟨_, _, .gap gap⟩
  | false =>
    cases ident : isIdent c with
    | true => exact ⟨_, _, .word ident⟩
    | false => exact ⟨_, _, .mark gap slash quote ident⟩

end

/-! ### Tokens on one line -/

section
variable {front after after' : List Char}

theorem getLast?_tail_ne {c d : Char} (plain : (d :: front).getLast? ≠ some c) :
    front.getLast? ≠ some c := by
  cases front with
  | nil => nofun
  | cons => rwa [List.getLast?_cons_cons] at plain

theorem ne_backslash {c : Char} {rest : List Char}
    (notLast : c = '\\' → rest = [] → False)
    (notEscape : ∀ d r, c = '\\' → rest = d :: r → False) : c ≠ '\\' := by
  rintro rfl
  cases rest with
  | nil => exact notLast rfl rfl
  | cons d r => exact notEscape d r rfl rfl

theorem stringRest_cons {quote c : Char} (other : c ≠ '\\') (rest : List Char) :
    stringRest quote (c :: rest) =
      if c == quote then 1 else if c == '\n' then 0 else stringRest quote rest + 1 := by
  rw [stringRest]
  · exact fun same => absurd same other
  · exact fun _ _ same => absurd same other

theorem stringRest_line {quote : Char} (notFeed : quote ≠ '\n')
    (plain : front.getLast? ≠ some '\\')
    (after : List Char) : stringRest quote (front ++ '\n' :: after) = stringRest quote front := by
  fun_induction stringRest quote front with
  | case1 =>
    have other : ('\n' == quote) = false := beq_false_of_ne (Ne.symm notFeed)
    rw [List.nil_append, stringRest_cons (by decide), other]
    rfl
  | case2 => exact absurd rfl plain
  | case3 d r ih =>
    rw [List.cons_append, List.cons_append, stringRest,
      ih (getLast?_tail_ne (getLast?_tail_ne plain))]
  | case4 c r one two isQuote =>
    rw [List.cons_append, stringRest_cons (ne_backslash one two), if_pos isQuote]
  | case5 c r one two notQuote isFeed =>
    rw [List.cons_append, stringRest_cons (ne_backslash one two), if_neg notQuote, if_pos isFeed]
  | case6 c r one two notQuote notEnd ih =>
    rw [List.cons_append, stringRest_cons (ne_backslash one two), if_neg notQuote, if_neg notEnd,
      ih (getLast?_tail_ne plain)]

theorem regexBody_cons {c : Char} (other : c ≠ '\\') (inClass : Bool) (rest : List Char) :
    regexBody inClass (c :: rest) =
      if c == '\n' then none
      else if inClass then (regexBody (c != ']') rest).map (· + 1)
      else if c == '/' then some 1
      else (regexBody (c == '[') rest).map (· + 1) := by
  rw [regexBody]
  · exact fun same => absurd same other
  · exact fun _ _ same => absurd same other

theorem regexBody_line (inClass : Bool) (plain : front.getLast? ≠ some '\\') (after : List Char) :
    regexBody inClass (front ++ '\n' :: after) = regexBody inClass front := by
  fun_induction regexBody inClass front with
  | case1 =>
    rw [List.nil_append, regexBody_cons (by decide)]
    rfl
  | case2 => exact absurd rfl plain
  | case3 inClass d r ih =>
    rw [List.cons_append, List.cons_append, regexBody,
      ih (getLast?_tail_ne (getLast?_tail_ne plain))]
  | case4 inClass c r one two isFeed =>
    rw [List.cons_append, regexBody_cons (ne_backslash one two), if_pos isFeed]
  | case5 c r one two notFeed ih =>
    rw [List.cons_append, regexBody_cons (ne_backslash one two), if_neg notFeed, if_pos rfl,
      ih (getLast?_tail_ne plain)]
  | case6 inClass c r one two notFeed notClass isSlash =>
    rw [List.cons_append, regexBody_cons (ne_backslash one two), if_neg notFeed, if_neg notClass,
      if_pos isSlash]
  | case7 inClass c r one two notFeed notClass notSlash ih =>
    rw [List.cons_append, regexBody_cons (ne_backslash one two), if_neg notFeed, if_neg notClass,
      if_neg notSlash, ih (getLast?_tail_ne plain)]

theorem regexBody_le_length {inClass : Bool} {text : List Char} {n : Nat}
    (closes : regexBody inClass text = some n) : n ≤ text.length := by
  fun_induction regexBody inClass text generalizing n with
  | case1 => cases closes
  | case2 => cases closes
  | case3 _ _ r ih =>
    obtain ⟨m, inner, rfl⟩ := Option.map_eq_some_iff.mp closes
    have le := ih inner
    simp only [List.length_cons]
    omega
  | case4 => cases closes
  | case5 _ r _ _ _ ih =>
    obtain ⟨m, inner, rfl⟩ := Option.map_eq_some_iff.mp closes
    exact Nat.succ_le_succ (ih inner)
  | case6 => cases closes; simp
  | case7 inClass c r one two notFeed notClass notSlash ih =>
    obtain ⟨m, inner, rfl⟩ := Option.map_eq_some_iff.mp closes
    exact Nat.succ_le_succ (ih inner)

theorem regexRest_of_ne {text : List Char} (notSlash : text.head? ≠ some '/') :
    regexRest text = (regexBody false text).map fun n =>
      n + ((text.drop n).takeWhile isIdent).length := by
  unfold regexRest
  split
  · exact absurd rfl notSlash
  · rfl

theorem regexRest_line (plain : front.getLast? ≠ some '\\') (after : List Char) :
    regexRest (front ++ '\n' :: after) = regexRest front := by
  have body := regexBody_line false plain after
  by_cases isSlash : front.head? = some '/'
  · obtain ⟨r, rfl⟩ := List.head?_eq_some_iff.mp isSlash
    rfl
  · have longer : (front ++ '\n' :: after).head? ≠ some '/' := by
      cases front with
      | nil => exact fun same => absurd (Option.some.inj same) (by decide)
      | cons => exact isSlash
    rw [regexRest_of_ne longer, regexRest_of_ne isSlash, body]
    refine Option.map_congr fun n closes => ?_
    rw [List.drop_append_of_le_length (regexBody_le_length closes), takeWhile_stop (by decide)]

/-- A comment that is closed within a text has the same body whatever follows. -/
theorem commentBody_append {body : List Char} (closes : commentBody (front ++ after) = some body)
    (fits : body.length + 2 ≤ front.length) : commentBody (front ++ after') = some body := by
  fun_induction commentBody front generalizing body with
  | case1 => simp at fits
  | case2 r => exact closes
  | case3 c r notEnd ih =>
    match r with
    | [] => simp at fits
    | d :: r =>
      have stillNot (rest : List Char) : ∀ r', c = '*' → d :: rest = '/' :: r' → False := by
        rintro _ isStar isSlash
        cases isSlash
        exact notEnd r isStar rfl
      rw [List.cons_append, List.cons_append, commentBody] at closes ⊢
      · obtain ⟨inner, same, rfl⟩ := Option.map_eq_some_iff.mp closes
        rw [← List.cons_append, ih same (Nat.le_of_succ_le_succ fits)]
        rfl
      · exact stillNot _
      · exact stillNot _

/-- A token that ends on its line is the same whatever follows the line. -/
theorem IsToken.on_line {regex : Bool} {c : Char} {next : Code → Code} {n : Nat}
    (plain : front.getLast? ≠ some '\\') (token : IsToken regex c (front ++ '\n' :: after) next n)
    (fits : n ≤ front.length) : IsToken regex c (front ++ '\n' :: after') next n := by
  have head : (front ++ '\n' :: after').head? = (front ++ '\n' :: after).head? := by
    cases front <;> rfl
  cases token with
  | gap blank => exact .gap blank
  | line starts =>
    have line (after : List Char) : lineRest (front ++ '\n' :: after) = lineRest front := by
      rw [lineRest, takeWhile_stop (by decide)]
      rfl
    rw [line, ← line after']
    exact .line (head.trans starts)
  | unclosed =>
    simp only [List.length_append, List.length_cons] at fits
    omega
  | @block _ body starts closes =>
    cases front with
    | nil => simp at starts
    | cons d r =>
      have inside : body.length + 2 ≤ r.length := Nat.le_of_succ_le_succ fits
      exact .block starts (commentBody_append closes inside)
  | string quotes =>
    have notFeed : c ≠ '\n' := by rintro rfl; simp at quotes
    rw [stringRest_line notFeed plain, ← stringRest_line notFeed plain after']
    exact .string quotes
  | regex notLine notBlock expected closes =>
    rw [← head] at notLine notBlock
    rw [regexRest_line plain, ← regexRest_line plain after'] at closes
    exact .regex notLine notBlock expected closes
  | division notLine notBlock divides =>
    rw [← head] at notLine notBlock
    rw [regexRest_line plain, ← regexRest_line plain after'] at divides
    exact .division notLine notBlock divides
  | word ident =>
    have word (after : List Char) :
        (front ++ '\n' :: after).takeWhile isIdent = front.takeWhile isIdent :=
      takeWhile_stop (by decide) front after
    rw [word, ← word after']
    exact .word ident
  | mark notGap notSlash notQuote notIdent => exact .mark notGap notSlash notQuote notIdent

theorem codeToken_line {state : Code} {c : Char} (plain : front.getLast? ≠ some '\\')
    (fits : (codeToken state c (front ++ '\n' :: after)).2 ≤ front.length) :
    codeToken state c (front ++ '\n' :: after') = codeToken state c (front ++ '\n' :: after) := by
  obtain ⟨next, n, token⟩ := exists_isToken state.last.beforeRegex c (front ++ '\n' :: after)
  rw [token.codeToken_eq] at fits ⊢
  exact (token.on_line plain fits).codeToken_eq

end

namespace Reading

variable {front after after' : List Char}

/-- The state after the first part of a text, given what follows it. -/
def readTo (s : Reading) : List Char → List Char → Reading
  | [], _ => s
  | c :: front, behind => (s.step c (front ++ behind)).readTo front behind

theorem run_append (s : Reading) (front behind : List Char) :
    s.run (front ++ behind) = (s.readTo front behind).run behind := by
  induction front generalizing s with
  | nil => rfl
  | cons c front ih => exact ih _

theorem readTo_append (s : Reading) (front middle behind : List Char) :
    s.readTo (front ++ middle) behind = (s.readTo front (middle ++ behind)).readTo middle behind := by
  induction front generalizing s with
  | nil => rfl
  | cons c front ih =>
    rw [List.cons_append, readTo, readTo, List.append_assoc]
    exact ih _

theorem offset_readTo (s : Reading) (front behind : List Char) :
    (s.readTo front behind).offset = s.offset + front.length := by
  induction front generalizing s with
  | nil => rfl
  | cons c front ih =>
    rw [readTo, ih, List.length_cons, Nat.add_comm front.length, ← Nat.add_assoc]
    rfl

theorem before_readTo (s : Reading) (front behind : List Char) :
    (s.readTo front behind).before = front.reverse ++ s.before := by
  induction front generalizing s with
  | nil => rfl
  | cons c front ih =>
    rw [readTo, ih, List.reverse_cons, List.append_assoc]
    rfl

/-- What a token takes of the text is read one by one. -/
theorem skip_le_step (s : Reading) (c : Char) (rest : List Char) :
    s.skip ≤ (s.step c rest).skip + 1 := by
  unfold step
  dsimp only
  split
  · simp only
    omega
  · omega

theorem skip_le_of_readTo {s : Reading} {behind : List Char}
    (isRead : (s.readTo front behind).skip = 0) : s.skip ≤ front.length := by
  induction front generalizing s with
  | nil => exact Nat.le_of_eq isRead
  | cons c front ih => exact Nat.le_trans (skip_le_step ..) (Nat.succ_le_succ (ih isRead))

theorem inCode_line {s : Reading} {state : Code} {c : Char} (plain : front.getLast? ≠ some '\\')
    (fits : (s.inCode state c (front ++ '\n' :: after)).skip ≤ front.length) :
    s.inCode state c (front ++ '\n' :: after') = s.inCode state c (front ++ '\n' :: after) := by
  unfold inCode at fits ⊢
  split
  · rfl
  · rename_i notOpened
    rw [if_neg notOpened] at fits
    split
    · rename_i isOpened
      rw [isOpened] at fits
      split
      · rfl
      · rename_i notClosed
        dsimp only at fits
        rw [if_neg notClosed] at fits
        rw [codeToken_line plain fits]
    · rename_i isTop
      rw [isTop] at fits
      rw [codeToken_line plain fits]

theorem inContent_line (s : Reading) (c : Char) :
    s.inContent c (front ++ '\n' :: after') = s.inContent c (front ++ '\n' :: after) := by
  have head : (front ++ '\n' :: after').head? = (front ++ '\n' :: after).head? := by
    cases front <;> rfl
  rw [inContent, inContent, head]

/-- A step that takes in nothing from behind the line does not depend on what follows. -/
theorem step_line {s : Reading} {c : Char} (plain : front.getLast? ≠ some '\\')
    (fits : (s.step c (front ++ '\n' :: after)).skip ≤ front.length) :
    s.step c (front ++ '\n' :: after') = s.step c (front ++ '\n' :: after) := by
  unfold step at fits ⊢
  split
  · rfl
  · rename_i free
    rw [if_neg free] at fits
    split
    · rename_i isCode
      rw [isCode] at fits
      rw [inCode_line plain fits]
    · rw [inContent_line]

/-- Where a line ends outside of all tokens, nothing of it depends on what follows. -/
theorem readTo_line {s : Reading} (plain : front.getLast? ≠ some '\\')
    (isRead : (s.readTo front ('\n' :: after)).skip = 0) :
    s.readTo front ('\n' :: after') = s.readTo front ('\n' :: after) := by
  induction front generalizing s with
  | nil => rfl
  | cons c front ih =>
    have plainRest := getLast?_tail_ne plain
    have fits : (s.step c (front ++ '\n' :: after)).skip ≤ front.length := skip_le_of_readTo isRead
    rw [readTo, step_line plainRest fits]
    exact ih plainRest isRead

end Reading
end InlineQuery.Template
