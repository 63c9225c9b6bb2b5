import InlineQuery.Proofs.Definitions.Strings
import InlineQuery.Proofs.Query.Lexing
import InlineQuery.Proofs.Query.Shape

/-!
The tokens of the splitter are not those of GraphQL. Outside brackets they agree but for the sign of
a directive, which is one word with a name right behind it. Inside brackets, variables, numbers and
dots are cut otherwise, which moves no bracket.
-/

namespace InlineQuery

open Query (Lexeme Punctuator IsLexeme IsNumeral lexFrom isNamePart isNameStart)
open Literal (isIdent isGap lineRest openBracket closeBracket)

namespace Definitions

def Kind.isBracket : Kind → Bool
  | mark c => openBracket c || closeBracket c
  | _ => false

/-- A token that opens and closes nothing and does not stop the splitter. -/
def Token.IsPlain (t : Token) : Prop := t.kind.isBracket = false ∧ t.kind ≠ .unterminated

/-- What the splitter sees of the tokens of a text. -/
inductive Sees : List Query.Token → List Token → Prop
  | nil : Sees [] []
  | name {text : String} {start stop : Nat} {ts : List Query.Token} {us : List Token}
      (rest : Sees ts us) :
      Sees (⟨.name text, start, stop⟩ :: ts) (⟨.word text.toList, start, stop⟩ :: us)
  | directive {text : String} {start stop : Nat} {ts : List Query.Token} {us : List Token}
      (rest : Sees ts us) :
      Sees (⟨.mark .at, start, start + 1⟩ :: ⟨.name text, start + 1, stop⟩ :: ts)
        (⟨.word ('@' :: text.toList), start, stop⟩ :: us)
  | at {start : Nat} {ts : List Query.Token} {us : List Token}
      (apart : ∀ text stop, ts.head? ≠ some ⟨.name text, start + 1, stop⟩) (rest : Sees ts us) :
      Sees (⟨.mark .at, start, start + 1⟩ :: ts) (⟨.word ['@'], start, start + 1⟩ :: us)
  | mark {c : Char} {p : Punctuator} {start : Nat} {ts : List Query.Token} {us : List Token}
      (isMark : Punctuator.ofChar? c = some p) (notAt : p ≠ .at) (notDollar : p ≠ .dollar)
      (rest : Sees ts us) :
      Sees (⟨.mark p, start, start + 1⟩ :: ts) (⟨.mark c, start, start + 1⟩ :: us)
  | string {lexeme : Lexeme} {start stop : Nat} {ts : List Query.Token} {us : List Token}
      (isString : lexeme.isString = true) (rest : Sees ts us) :
      Sees (⟨lexeme, start, stop⟩ :: ts) (⟨.description, start, stop⟩ :: us)
  | inner {run ts all : List Query.Token} {seen us : List Token} (isAll : all = run ++ ts)
      (plain : ∀ t ∈ run, t.lexeme.isBracket = false) (isInner : ∃ t ∈ run, t.lexeme.isInner = true)
      (plainSeen : ∀ u ∈ seen, u.IsPlain) (rest : Sees ts us) : Sees all (seen ++ us)

/-! ### Skipping -/

theorem drop_length_takeWhile {α : Type} (p : α → Bool) (l : List α) :
    l.drop (l.takeWhile p).length = l.dropWhile p := by
  have parts : l.takeWhile p ++ l.dropWhile p = l := List.takeWhile_append_dropWhile
  calc
    l.drop (l.takeWhile p).length
    _ = (l.takeWhile p ++ l.dropWhile p).drop (l.takeWhile p).length := by rw [parts]
    _ = l.dropWhile p := List.drop_left

theorem tokensFrom_skip (offset skip : Nat) (text : List Char) :
    tokensFrom offset skip text = tokensFrom (offset + skip) 0 (text.drop skip) := by
  induction text generalizing offset skip with
  | nil => simp [tokensFrom]
  | cons c rest ih =>
    cases skip with
    | zero => rfl
    | succ skip =>
      rw [List.drop_succ_cons, show offset + (skip + 1) = offset + 1 + skip by omega, ← ih]
      rfl

theorem tokensFrom_append (offset skip : Nat) (before after : List Char) :
    tokensFrom offset (before.length + skip) (before ++ after) =
      tokensFrom (offset + before.length) skip after := by
  rw [tokensFrom_skip, tokensFrom_skip (offset + before.length), Nat.add_assoc,
    ← List.drop_drop, List.drop_left]

/-! ### Characters -/

/-- A character that starts a token for the splitter. -/
structure IsVisible (c : Char) : Prop where
  notGap : (isGap c || c == ',') = false
  notHash : (c == '#') = false

theorem tokensFrom_cons {c : Char} (visible : IsVisible c) (offset : Nat) (rest : List Char) :
    tokensFrom offset 0 (c :: rest) =
      ⟨(token c rest).1, offset, offset + 1 + (token c rest).2⟩ ::
        tokensFrom (offset + 1) (token c rest).2 rest := by
  rw [tokensFrom, visible.notGap, visible.notHash]
  rfl

/-- Characters of words are visible and no quotes. -/
theorem isVisible_of_isIdent {c : Char} (ident : isIdent c = true) :
    IsVisible c ∧ (c == '"') = false := by
  have other {d : Char} (notIdent : isIdent d = false) : (c == d) = false := by
    refine beq_false_of_ne fun same => ?_
    rw [same, notIdent] at ident
    cases ident
  refine ⟨⟨?_, other (by decide)⟩, other (by decide)⟩
  simp only [isGap, Bool.or_eq_false_iff]
  exact ⟨⟨⟨⟨⟨⟨⟨other (by decide), other (by decide)⟩, other (by decide)⟩, other (by decide)⟩,
    other (by decide)⟩, other (by decide)⟩, other (by decide)⟩, other (by decide)⟩

/-- The characters that continue a word which ends before a text. -/
def overhang (text : List Char) : List Char := text.takeWhile isIdent

/-- A word, which may start with the sign of a directive. -/
theorem tokensFrom_word {c : Char} (starts : isIdent c = true ∨ c = '@') (offset : Nat)
    (rest : List Char) : tokensFrom offset 0 (c :: rest) =
      ⟨.word (c :: overhang rest), offset, offset + 1 + (overhang rest).length⟩ ::
        tokensFrom (offset + 1) (overhang rest).length rest := by
  rcases starts with ident | rfl
  · have isWord : token c rest = (.word (c :: overhang rest), (overhang rest).length) := by
      rw [token, (isVisible_of_isIdent ident).2, ident]
      rfl
    rw [tokensFrom_cons (isVisible_of_isIdent ident).1, isWord]
  · rw [tokensFrom_cons ⟨by decide, by decide⟩]
    rfl

/-- Words are plain, whatever they say. -/
theorem isPlain_word (chars : List Char) (start stop : Nat) :
    Token.IsPlain ⟨.word chars, start, stop⟩ := ⟨rfl, nofun⟩

theorem isVisible_of_ofChar {c : Char} {p : Punctuator} (isMark : Punctuator.ofChar? c = some p) :
    IsVisible c := by
  unfold Punctuator.ofChar? at isMark
  split at isMark <;> cases isMark <;> exact ⟨by decide, by decide⟩

theorem token_of_ofChar {c : Char} {p : Punctuator} (isMark : Punctuator.ofChar? c = some p)
    (notAt : p ≠ .at) (notDollar : p ≠ .dollar) (rest : List Char) :
    token c rest = (.mark c, 0) := by
  unfold Punctuator.ofChar? at isMark
  split at isMark <;> cases isMark <;> first | rfl | contradiction

/-- A word ends where no character of words follows. -/
theorem isIdent_of_isNamePart {c : Char} (part : isNamePart c = true) : isIdent c = true := by
  unfold isNamePart at part
  unfold isIdent
  rw [part, Bool.true_or]

theorem isNamePart_of_isNameStart {c : Char} (start : isNameStart c = true) :
    isNamePart c = true := by
  unfold isNameStart at start
  simp only [isNamePart, Char.isAlphanum, Bool.or_eq_true] at start ⊢
  rcases start with alpha | score
  · exact .inl (.inl alpha)
  · exact .inr score

theorem isVisible_of_isNumeric {c : Char} (numeric : Query.isNumeric c = true) :
    isIdent c = true ∨ (IsVisible c ∧ isIdent c = false ∧
      ∀ rest, token c rest = (.mark c, 0) ∧ (Kind.mark c).isBracket = false) := by
  simp only [Query.isNumeric, Bool.or_eq_true, beq_iff_eq] at numeric
  rcases numeric with ((((digit | rfl) | rfl) | rfl) | rfl) | rfl
  · exact .inl (by simp [isIdent, Char.isAlphanum, digit])
  · exact .inr ⟨⟨by decide, by decide⟩, by decide, fun _ => ⟨rfl, by decide⟩⟩
  · exact .inr ⟨⟨by decide, by decide⟩, by decide, fun _ => ⟨rfl, by decide⟩⟩
  · exact .inr ⟨⟨by decide, by decide⟩, by decide, fun _ => ⟨rfl, by decide⟩⟩
  · exact .inl (by decide)
  · exact .inl (by decide)

/-! ### Words -/

theorem overhang_append {before : List Char} (all : ∀ c ∈ before, isIdent c = true)
    (after : List Char) : overhang (before ++ after) = before ++ overhang after :=
  List.takeWhile_append_of_pos all

theorem overhang_cons {c : Char} (ident : isIdent c = true) (rest : List Char) :
    overhang (c :: rest) = c :: overhang rest := List.takeWhile_cons_of_pos ident

theorem overhang_cons_of_not {c : Char} (other : isIdent c = false) (rest : List Char) :
    overhang (c :: rest) = [] := List.takeWhile_cons_of_neg (by simp [other])

theorem head?_of_overhang {text : List Char} {c : Char} (begins : (overhang text).head? = some c) :
    text.head? = some c := by
  cases text with
  | nil => cases begins
  | cons d rest =>
    cases ident : isIdent d with
    | true => rwa [overhang_cons ident] at begins
    | false => rw [overhang_cons_of_not ident] at begins; cases begins

/-- Numbers give the splitter words and signs. It reads on in the last word. -/
theorem exists_seen_numeral {digits after : List Char}
    (numeric : ∀ c ∈ digits, Query.isNumeric c = true)
    (ends : ∃ d, digits.getLast? = some d ∧ d.isDigit = true) (offset skip : Nat)
    (begins : skip = 0 ∨ skip = (overhang (digits ++ after)).length) :
    ∃ seen : List Token, tokensFrom offset skip (digits ++ after) =
        seen ++ tokensFrom (offset + digits.length) (overhang after).length after ∧
      ∀ u ∈ seen, u.IsPlain := by
  induction digits generalizing offset skip with
  | nil =>
    obtain ⟨d, isLast, -⟩ := ends
    cases isLast
  | cons c digits ih =>
    obtain ⟨first, rest⟩ := List.forall_mem_cons.mp numeric
    -- Behind the first character the rest goes on, inside a word or not.
    have continues (skip : Nat) (pre : List Token) (plain : ∀ u ∈ pre, u.IsPlain)
        (goesOn : skip = 0 ∧ digits ≠ [] ∨ skip = (overhang (digits ++ after)).length) :
        ∃ seen : List Token, pre ++ tokensFrom (offset + 1) skip (digits ++ after) =
            seen ++ tokensFrom (offset + (c :: digits).length) (overhang after).length after ∧
          ∀ u ∈ seen, u.IsPlain := by
      by_cases isLast : digits = []
      · subst isLast
        rcases goesOn with ⟨-, more⟩ | rfl
        · exact absurd rfl more
        · exact ⟨pre, rfl, plain⟩
      · obtain ⟨d, same, isDigit⟩ := ends
        rw [List.getLast?_cons_of_ne_nil isLast] at same
        obtain ⟨seen, tokens, plainSeen⟩ := ih rest ⟨d, same, isDigit⟩ (offset + 1) skip
          (goesOn.imp And.left id)
        refine ⟨pre ++ seen, ?_, fun u member => (List.mem_append.mp member).elim (plain u)
          (plainSeen u)⟩
        rw [tokens, List.append_assoc, List.length_cons, Nat.add_right_comm, Nat.add_assoc]
    rcases isVisible_of_isNumeric first with ident | ⟨visible, notIdent, sign⟩
    · rcases begins with rfl | rfl
      · rw [List.cons_append, tokensFrom_word (.inl ident)]
        exact continues _ [_] (by simpa using isPlain_word _ _ _) (.inr rfl)
      · rw [List.cons_append, overhang_cons ident]
        exact continues _ [] nofun (.inr rfl)
    · have isStart : skip = 0 := begins.elim id fun same => by
        rw [same, List.cons_append, overhang_cons_of_not notIdent]
        rfl
      subst isStart
      rw [List.cons_append, tokensFrom_cons visible, (sign _).1]
      refine continues 0 [_] (by simp [Token.IsPlain, (sign []).2]) (.inl ⟨rfl, ?_⟩)
      rintro rfl
      obtain ⟨d, isLast, isDigit⟩ := ends
      obtain rfl : c = d := Option.some.inj isLast
      simp [isIdent, Char.isAlphanum, isDigit] at notIdent

/-! ### Lengths -/

theorem stringRest_le_length (text : List Char) : stringRest text ≤ text.length := by
  fun_induction stringRest text with
  | case1 => exact Nat.le_refl _
  | case2 => exact Nat.le_refl _
  | case3 _ r ih => simp only [List.length_cons]; omega
  | case4 c r => simp
  | case5 c r _ _ _ ih => simp only [List.length_cons]; omega

theorem blockStringRest_le_length {previous : Char} {text : List Char} {n : Nat}
    (closes : blockStringRest previous text = some n) : n ≤ text.length := by
  fun_induction blockStringRest previous text generalizing n with
  | case1 r ih =>
    obtain ⟨m, inner, rfl⟩ := Option.map_eq_some_iff.mp closes
    have le := ih inner
    simp only [List.length_cons]
    omega
  | case2 => cases closes; simp
  | case3 _ c r _ ih =>
    obtain ⟨m, inner, rfl⟩ := Option.map_eq_some_iff.mp closes
    have le := ih inner
    simp only [List.length_cons]
    omega
  | case4 => cases closes

/-- What the splitter sees of a string. -/
theorem token_of_string {rest : List Char} {read : Lexeme} {n : Nat}
    (isLexeme : IsLexeme '"' rest read n) (isString : read.isString = true) :
    token '"' rest = (.description, n) ∧ n ≤ rest.length := by
  cases isLexeme with
  | mark isMark => cases isMark
  | spread isDot => cases isDot
  | number isNumber => cases read <;> cases isNumber <;> cases isString
  | name isStart => cases isString
  | @blockString value n isQuote opens closes =>
    have inner : blockStringRest '"' (rest.drop 2) = some n := by
      rw [blockStringRest_eq, if_neg (fun both => absurd both.1 (by decide))]
      exact closes
    have le := blockStringRest_le_length inner
    have two := congrArg List.length opens
    simp only [List.length_take, List.length_cons, List.length_nil, List.length_drop] at two le
    refine ⟨?_, by omega⟩
    simp [token, opens, inner]
  | string isQuote single closes =>
    have same := stringRest_eq closes
    obtain rfl : n = stringRest rest := by omega
    refine ⟨?_, stringRest_le_length rest⟩
    simp [token, single]

/-! ### Comments -/

/-- Whether a text ends or goes on with a line feed, perhaps behind a carriage return. -/
def startsWithLineFeed : List Char → Bool
  | [] | '\n' :: _ | '\r' :: '\n' :: _ => true
  | _ => false

/-- Whether no comment of a text ends with a carriage return alone. As in reading the tokens, `skip`
characters ahead belong to the last token or comment. -/
def hasPlainComments (skip : Nat) : List Char → Bool
  | [] => true
  | c :: r =>
    match skip with
    | skip + 1 => hasPlainComments skip r
    | 0 =>
      if Query.isIgnored c then hasPlainComments 0 r
      else if c == '#' then
        let comment := (r.takeWhile fun c => !Query.isLineEnd c).length
        startsWithLineFeed (r.drop comment) && hasPlainComments comment r
      else match Query.lexeme c r with
        | .error _ => true
        | .ok (_, n) => hasPlainComments n r

theorem hasPlainComments_skip (skip : Nat) (text : List Char) :
    hasPlainComments skip text = hasPlainComments 0 (text.drop skip) := by
  induction text generalizing skip with
  | nil => simp [hasPlainComments]
  | cons c rest ih =>
    cases skip with
    | zero => rfl
    | succ skip => rw [List.drop_succ_cons, ← ih]; rfl

/-- Behind such a comment both go on at the same place. -/
theorem tokensFrom_comment (offset : Nat) (rest : List Char)
    (plain : startsWithLineFeed
      (rest.drop (rest.takeWhile fun c => !Query.isLineEnd c).length) = true) :
    tokensFrom offset (lineRest rest) rest =
      tokensFrom (offset + (rest.takeWhile fun c => !Query.isLineEnd c).length) 0
        (rest.drop (rest.takeWhile fun c => !Query.isLineEnd c).length) := by
  induction rest generalizing offset with
  | nil => rfl
  | cons c r ih =>
    by_cases isEnd : Query.isLineEnd c = true
    · rw [List.takeWhile_cons_of_neg (by simp [isEnd])] at plain ⊢
      simp only [List.length_nil, List.drop_zero, Nat.add_zero] at plain ⊢
      simp only [Query.isLineEnd, Bool.or_eq_true, beq_iff_eq] at isEnd
      rcases isEnd with rfl | rfl
      · rfl
      · unfold startsWithLineFeed at plain
        split at plain
        · rename_i same; cases same
        · rename_i same; cases same
        · rename_i same; cases same; rfl
        · cases plain
    · rw [List.takeWhile_cons_of_pos (by simp [isEnd])] at plain ⊢
      have notFeed : c ≠ '\n' := by rintro rfl; exact isEnd rfl
      have longer : lineRest (c :: r) = lineRest r + 1 := by simp [lineRest, notFeed]
      rw [List.length_cons, List.drop_succ_cons] at plain ⊢
      rw [longer, tokensFrom, ih _ plain]
      congr 1
      omega

/-! ### Agreement -/

/-- Tokens of which some are cut otherwise come first. -/
def Begins (ts : List Query.Token) (us : List Token) : Prop :=
  ∃ run rest seen after, ts = run ++ rest ∧ us = seen ++ after ∧
    (∀ t ∈ run, t.lexeme.isBracket = false) ∧ (∃ t ∈ run, t.lexeme.isInner = true) ∧
    (∀ u ∈ seen, u.IsPlain) ∧ Sees rest after

theorem Begins.sees {ts : List Query.Token} {us : List Token} (begins : Begins ts us) :
    Sees ts us := by
  obtain ⟨run, rest, seen, after, isAll, rfl, plain, isInner, plainSeen, sees⟩ := begins
  exact .inner isAll plain isInner plainSeen sees

theorem Begins.cons {t : Query.Token} {ts : List Query.Token} {p us : List Token}
    (begins : Begins ts us) (plain : t.lexeme.isBracket = false) (plainHere : ∀ u ∈ p, u.IsPlain) :
    Begins (t :: ts) (p ++ us) := by
  obtain ⟨run, rest, seen, after, rfl, rfl, plainRun, ⟨u, member, isInner⟩, plainSeen, sees⟩ := begins
  exact ⟨t :: run, rest, p ++ seen, after, rfl, by rw [List.append_assoc],
    List.forall_mem_cons.mpr ⟨plain, plainRun⟩, ⟨u, .tail _ member, isInner⟩,
    fun v inEither => (List.mem_append.mp inEither).elim (plainHere v) (plainSeen v), sees⟩

/-- What follows a word of the splitter that reads on over `word`: nothing that belongs to it, one
name, or tokens of which some are cut otherwise. -/
inductive Continues (start : Nat) (word : List Char) : List Query.Token → List Token → Prop
  | fresh {ts : List Query.Token} {us : List Token} (isNil : word = [])
      (apart : ∀ text stop, ts.head? ≠ some ⟨.name text, start, stop⟩) (sees : Sees ts us) :
      Continues start word ts us
  | name {text : String} {c : Char} {ts : List Query.Token} {us : List Token}
      (isWord : text.toList = word) (begins : word.head? = some c) (part : isNamePart c = true)
      (sees : Sees ts us) : Continues start word (⟨.name text, start, start + word.length⟩ :: ts) us
  | inner {ts : List Query.Token} {us : List Token} (begins : Begins ts us) :
      Continues start word ts us

/-- A token that is cut otherwise may be followed by anything that continues its last word. -/
theorem Continues.begins {start : Nat} {word : List Char} {t : Query.Token}
    {ts : List Query.Token} {p us : List Token} (continues : Continues start word ts us)
    (plain : t.lexeme.isBracket = false) (isInner : t.lexeme.isInner = true)
    (plainHere : ∀ u ∈ p, u.IsPlain) : Begins (t :: ts) (p ++ us) := by
  cases continues with
  | fresh _ _ sees =>
    exact ⟨[t], ts, p, us, rfl, rfl, by simpa using plain, ⟨t, by simp, isInner⟩, plainHere, sees⟩
  | @name text c ts us isWord _ _ sees =>
    refine ⟨[t, _], ts, p, us, rfl, rfl, ?_, ⟨t, by simp, isInner⟩, plainHere, sees⟩
    intro u member
    rcases List.mem_cons.mp member with rfl | isName
    · exact plain
    · cases List.mem_singleton.mp isName
      rfl
  | inner begins => exact begins.cons plain plainHere

theorem isIdent_of_ofChar {c : Char} {p : Punctuator} (isMark : Punctuator.ofChar? c = some p)
    (notDollar : p ≠ .dollar) : isIdent c = false := by
  unfold Punctuator.ofChar? at isMark
  split at isMark <;> cases isMark <;> first | rfl | contradiction

/-- The tokens that two positions of a text give, where `ts` are those of GraphQL: the splitter sees
them if it starts there, and continues with them if it is in a word. -/
structure Agrees (offset : Nat) (text : List Char) (ts : List Query.Token) : Prop where
  sees : Sees ts (tokensFrom offset 0 text)
  continues : Continues offset (overhang text) ts (tokensFrom offset (overhang text).length text)

theorem char_of_at {c : Char} (isMark : Punctuator.ofChar? c = some .at) : c = '@' := by
  unfold Punctuator.ofChar? at isMark
  split at isMark <;> cases isMark
  rfl

theorem char_of_dollar {c : Char} (isMark : Punctuator.ofChar? c = some .dollar) : c = '$' := by
  unfold Punctuator.ofChar? at isMark
  split at isMark <;> cases isMark
  rfl

namespace Agrees

variable {offset : Nat} {c : Char} {rest : List Char} {ts : List Query.Token} {t : Query.Token}

/-- Before a character that is in no word there is nothing to continue. -/
theorem of_sees (notIdent : isIdent c = false)
    (apart : ∀ text stop, ts.head? ≠ some ⟨.name text, offset, stop⟩)
    (sees : Sees ts (tokensFrom offset 0 (c :: rest))) : Agrees offset (c :: rest) ts := by
  refine ⟨sees, ?_⟩
  rw [overhang_cons_of_not notIdent]
  exact .fresh rfl apart sees

theorem of_begins (begins : ∀ skip, skip = 0 ∨ skip = (overhang rest).length →
    Begins ts (tokensFrom offset skip rest)) : Agrees offset rest ts :=
  ⟨(begins 0 (.inl rfl)).sees, .inner (begins _ (.inr rfl))⟩

theorem mark {p : Punctuator} (isMark : Punctuator.ofChar? c = some p)
    (later : Agrees (offset + 1) rest ts) :
    Agrees offset (c :: rest) (⟨.mark p, offset, offset + 1⟩ :: ts) := by
  by_cases isAt : p = .at
  · subst isAt
    cases char_of_at isMark
    refine of_sees rfl nofun ?_
    rw [tokensFrom_word (.inr rfl)]
    cases later.continues with
    | fresh isNil apart sees =>
      rw [isNil] at sees ⊢
      exact .at apart sees
    | name isWord _ _ sees =>
      rw [← isWord] at sees ⊢
      exact .directive sees
    | inner begins =>
      have longer := begins.cons (t := ⟨.mark .at, offset, offset + 1⟩) rfl
        (List.forall_mem_singleton.mpr (isPlain_word ('@' :: overhang rest) offset
          (offset + 1 + (overhang rest).length)))
      exact longer.sees
  · by_cases isDollar : p = .dollar
    · subst isDollar
      cases char_of_dollar isMark
      refine of_begins fun skip begins => ?_
      have ident : isIdent '$' = true := rfl
      rcases begins with rfl | rfl
      · rw [tokensFrom_word (.inl ident)]
        exact later.continues.begins (p := [_]) rfl rfl
          (List.forall_mem_singleton.mpr (isPlain_word _ _ _))
      · rw [overhang_cons ident]
        exact later.continues.begins (p := []) rfl rfl nofun
    · refine of_sees (isIdent_of_ofChar isMark isDollar) nofun ?_
      rw [tokensFrom_cons (isVisible_of_ofChar isMark), token_of_ofChar isMark isAt isDollar]
      exact .mark isMark isAt isDollar later.sees

theorem spread (later : Agrees (offset + 3) rest ts) :
    Agrees offset ('.' :: '.' :: '.' :: rest) (⟨.mark .spread, offset, offset + 3⟩ :: ts) := by
  refine of_sees rfl nofun ?_
  have dots : Sees ([⟨.mark .spread, offset, offset + 3⟩] ++ ts) ([⟨.mark '.', offset, offset + 1⟩,
      ⟨.mark '.', offset + 1, offset + 2⟩, ⟨.mark '.', offset + 2, offset + 3⟩] ++
        tokensFrom (offset + 3) 0 rest) :=
    .inner rfl (by simp; rfl) ⟨_, .head _, rfl⟩ (by simp [Token.IsPlain]; decide) later.sees
  exact dots

theorem string {read : Lexeme} {n : Nat} (isLexeme : IsLexeme '"' rest read n)
    (isString : read.isString = true) (later : Agrees (offset + 1 + n) (rest.drop n) ts) :
    Agrees offset ('"' :: rest) (⟨read, offset, offset + 1 + n⟩ :: ts) := by
  refine of_sees rfl (fun text stop same => ?_) ?_
  · cases same
    cases isString
  · rw [tokensFrom_cons ⟨by decide, by decide⟩, (token_of_string isLexeme isString).1,
      tokensFrom_skip]
    exact .string isString later.sees

theorem number {read : Lexeme} {n : Nat} (isNumber : read.isNumber = true)
    (isNumeral : IsNumeral (c :: rest) (n + 1)) (later : Agrees (offset + 1 + n) (rest.drop n) ts) :
    Agrees offset (c :: rest) (⟨read, offset, offset + 1 + n⟩ :: ts) := by
  refine of_begins fun skip begins => ?_
  have parts : (c :: rest).take (n + 1) ++ rest.drop n = c :: rest :=
    List.take_append_drop (n + 1) (c :: rest)
  have length : ((c :: rest).take (n + 1)).length = n + 1 :=
    List.length_take_of_le isNumeral.le_length
  obtain ⟨seen, tokens, plainSeen⟩ := exists_seen_numeral isNumeral.numeric isNumeral.digit offset
    skip (by rwa [parts])
  rw [parts, length, Nat.add_comm n 1, ← Nat.add_assoc] at tokens
  rw [tokens]
  exact later.continues.begins (by cases read <;> cases isNumber <;> rfl)
    (by cases read <;> cases isNumber <;> rfl) plainSeen

theorem name {more after : List Char} (isStart : isNameStart c = true)
    (parts : ∀ d ∈ more, isNamePart d = true)
    (ends : ∀ d, after.head? = some d → isNamePart d = false)
    (later : Agrees (offset + 1 + more.length) after ts) :
    Agrees offset (c :: (more ++ after))
      (⟨.name (String.ofList (c :: more)), offset, offset + 1 + more.length⟩ :: ts) := by
  have part := isNamePart_of_isNameStart isStart
  have ident := isIdent_of_isNamePart part
  have hangs : overhang (more ++ after) = more ++ overhang after :=
    overhang_append (fun d member => isIdent_of_isNamePart (parts d member)) after
  have inWord : tokensFrom (offset + 1) (overhang (more ++ after)).length (more ++ after) =
      tokensFrom (offset + 1 + more.length) (overhang after).length after := by
    rw [hangs, List.length_append, tokensFrom_append]
  cases later.continues with
  | fresh isNil apart sees =>
    rw [isNil, List.append_nil] at hangs
    rw [isNil] at inWord sees
    constructor
    · rw [tokensFrom_word (.inl ident), inWord, hangs]
      have named : Sees (⟨.name (String.ofList (c :: more)), offset, offset + 1 + more.length⟩ :: ts)
        (⟨.word (String.ofList (c :: more)).toList, _, _⟩ :: _) := .name sees
      rwa [String.toList_ofList] at named
    · have whole : overhang (c :: (more ++ after)) = c :: more := by rw [overhang_cons ident, hangs]
      have continued : Continues offset (c :: more) (⟨.name (String.ofList (c :: more)), offset,
          offset + (c :: more).length⟩ :: ts) _ := .name String.toList_ofList rfl part sees
      rw [whole]
      rw [List.length_cons, Nat.add_comm more.length, ← Nat.add_assoc] at continued
      rw [hangs] at inWord
      rw [List.length_cons, tokensFrom, inWord]
      exact continued
  | name isWord begins isPart sees =>
    -- What follows the longest name does not go on with a character of names.
    rw [ends _ (head?_of_overhang begins)] at isPart
    cases isPart
  | inner begins =>
    refine of_begins fun skip either => ?_
    rcases either with rfl | rfl
    · rw [tokensFrom_word (.inl ident), inWord]
      exact begins.cons (p := [_]) rfl (List.forall_mem_singleton.mpr (isPlain_word _ _ _))
    · rw [overhang_cons ident]
      exact inWord ▸ begins.cons (p := []) rfl nofun

/-- Whatever the next token is. -/
theorem lexeme {read : Lexeme} {n : Nat} (isLexeme : IsLexeme c rest read n)
    (later : Agrees (offset + 1 + n) (rest.drop n) ts) :
    Agrees offset (c :: rest) (⟨read, offset, offset + 1 + n⟩ :: ts) := by
  cases id isLexeme with
  | mark isMark => exact .mark isMark later
  | spread isDot isSpread =>
    cases isDot
    match rest, isSpread with
    | _ :: _ :: rest, rfl => exact .spread later
  | blockString isQuote opens closes =>
    cases isQuote
    exact .string isLexeme rfl later
  | string isQuote single closes =>
    cases isQuote
    exact .string isLexeme rfl later
  | number isNumber isNumeral => exact .number isNumber isNumeral later
  | name isStart =>
    rw [drop_length_takeWhile] at later
    have ends (d : Char) (isNext : (rest.dropWhile isNamePart).head? = some d) :
        isNamePart d = false := by
      have next := List.head?_dropWhile_not isNamePart rest
      rwa [isNext] at next
    have named := Agrees.name isStart (fun d => List.all_eq_true.mp List.all_takeWhile d) ends later
    rwa [List.takeWhile_append_dropWhile] at named

end Agrees

theorem le_length_of_isLexeme {c : Char} {rest : List Char} {read : Lexeme} {n : Nat}
    (isLexeme : IsLexeme c rest read n) : n ≤ rest.length := by
  cases id isLexeme with
  | mark => exact Nat.zero_le _
  | spread _ isSpread =>
    have two := congrArg List.length isSpread
    simp only [List.length_take, List.length_cons, List.length_nil] at two
    omega
  | blockString isQuote =>
    cases isQuote
    exact (token_of_string isLexeme rfl).2
  | string isQuote =>
    cases isQuote
    exact (token_of_string isLexeme rfl).2
  | number _ isNumeral => exact Nat.le_of_succ_le_succ isNumeral.le_length
  | name => exact (List.takeWhile_prefix _).length_le

theorem isIdent_of_isIgnored {c : Char} (ignored : Query.isIgnored c = true) :
    isIdent c = false ∧ (isGap c || c == ',') = true := by
  simp only [Query.isIgnored, Bool.or_eq_true, beq_iff_eq] at ignored
  rcases ignored with ((((rfl | rfl) | rfl) | rfl) | rfl) | rfl <;> exact ⟨by decide, by decide⟩

/-- Tokens that start later are not continued. -/
theorem head?_lexFrom_ne {offset start skip : Nat} {text : List Char} (lt : start < offset + skip)
    (name : String) (stop : Nat) :
    (lexFrom offset skip text).tokens.head? ≠ some ⟨.name name, start, stop⟩ := by
  intro same
  have le := (Query.areOrdered_lexFrom offset skip text).le_start _ (List.mem_of_mem_head? same)
  exact absurd lt (Nat.not_lt.mpr le)

/-- Of a text that can be read to its end and has plain comments, the splitter sees the tokens. -/
theorem agrees_tokens {text : List Char} {offset : Nat} {eof : Query.Token}
    (ends : (lexFrom offset 0 text).ending = .ok eof) (plain : hasPlainComments 0 text = true) :
    Agrees offset text (lexFrom offset 0 text).tokens := by
  induction length : text.length using Nat.strongRecOn generalizing text offset with
  | ind size ih =>
    subst length
    cases text with
    | nil => exact ⟨.nil, .fresh rfl nofun .nil⟩
    | cons c rest =>
      have later {n : Nat} (le : n ≤ rest.length)
          (ends : (lexFrom (offset + 1) n rest).ending = .ok eof)
          (plain : hasPlainComments n rest = true) :
          Agrees (offset + 1 + n) (rest.drop n) (lexFrom (offset + 1) n rest).tokens := by
        rw [Query.lexFrom_skip le] at ends ⊢
        rw [hasPlainComments_skip] at plain
        refine ih _ ?_ ends plain rfl
        simp only [List.length_cons, List.length_drop]
        omega
      rw [hasPlainComments] at plain
      unfold lexFrom at ends ⊢
      dsimp only at ends plain ⊢
      split at plain
      · rename_i ignored
        obtain ⟨notIdent, isGap⟩ := isIdent_of_isIgnored ignored
        simp only [ignored, if_true] at ends ⊢
        refine .of_sees notIdent (head?_lexFrom_ne (by omega)) ?_
        rw [tokensFrom, isGap]
        exact (later (Nat.zero_le _) ends plain).sees
      · rename_i visible
        split at plain
        · rename_i isHash
          cases eq_of_beq isHash
          simp only [Bool.and_eq_true] at plain
          simp only [visible, isHash, if_true] at ends ⊢
          refine .of_sees rfl (head?_lexFrom_ne (by omega)) ?_
          have isComment : tokensFrom offset 0 ('#' :: rest) =
            tokensFrom (offset + 1) (lineRest rest) rest := rfl
          rw [isComment, tokensFrom_comment _ _ plain.1]
          exact (later (List.takeWhile_prefix _).length_le ends plain.2).sees
        · rename_i notHash
          simp only [visible, notHash] at ends ⊢
          split at plain
          · rename_i failed
            rw [failed] at ends
            cases ends
          · rename_i read n isLexeme
            rw [isLexeme] at ends ⊢
            have found := Query.isLexeme_of_lexeme isLexeme
            exact .lexeme found (later (le_length_of_isLexeme found) ends plain)

end Definitions
end InlineQuery
