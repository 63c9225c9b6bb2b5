import InlineQuery.Proofs.Definitions.Tokens
import InlineQuery.Proofs.Query.Outline

/-!
How the splitter moves over the parts of definitions: over brackets, over what stands in the open,
and over whole definitions.
-/

namespace InlineQuery

open Query (Lexeme Punctuator IsNested IsGroup IsHeader IsBody IsDefinition lastStop)
open Literal (openBracket closeBracket)

namespace Definitions

/-! ### Seeing one token -/

namespace Sees

variable {t : Query.Token} {ts : List Query.Token} {us : List Token}

theorem of_nil (sees : Sees [] us) : us = [] := by
  generalize same : ([] : List Query.Token) = all at sees
  cases sees with
  | nil => rfl
  | inner isAll _ isInner =>
    subst same
    obtain ⟨t, member, -⟩ := isInner
    rw [(List.append_eq_nil_iff.mp isAll.symm).1] at member
    cases member
  | _ => cases same

/-- Where every token is one that the splitter sees, none is cut otherwise. -/
theorem absurd_inner {run : List Query.Token} (starts : Query.StartsPlain (run ++ ts))
    (plain : ∀ t ∈ run, t.lexeme.isBracket = false)
    (isInner : ∃ t ∈ run, t.lexeme.isInner = true) : False := by
  obtain ⟨t, member, isInner⟩ := isInner
  rw [Query.not_isInner_of_startsPlain starts plain t member] at isInner
  cases isInner

theorem of_name {text : String} (sees : Sees (t :: ts) us) (starts : Query.StartsPlain (t :: ts))
    (isName : t.lexeme = .name text) :
    ∃ later, us = ⟨.word text.toList, t.start, t.stop⟩ :: later ∧ Sees ts later := by
  generalize same : t :: ts = all at sees
  cases sees with
  | nil => cases same
  | name rest => cases same; cases isName; exact ⟨_, rfl, rest⟩
  | directive => cases same; cases isName
  | «at» => cases same; cases isName
  | mark => cases same; cases isName
  | string isString => cases same; cases isName; cases isString
  | inner isAll plain isInner => exact (absurd_inner (isAll ▸ same ▸ starts) plain isInner).elim

theorem of_string (sees : Sees (t :: ts) us) (starts : Query.StartsPlain (t :: ts))
    (isString : t.lexeme.isString = true) :
    ∃ later, us = ⟨.description, t.start, t.stop⟩ :: later ∧ Sees ts later := by
  generalize same : t :: ts = all at sees
  cases sees with
  | nil => cases same
  | name => cases same; cases isString
  | directive => cases same; cases isString
  | «at» => cases same; cases isString
  | mark => cases same; cases isString
  | string _ rest => cases same; exact ⟨_, rfl, rest⟩
  | inner isAll plain isInner => exact (absurd_inner (isAll ▸ same ▸ starts) plain isInner).elim

theorem of_mark {p : Punctuator} (sees : Sees (t :: ts) us) (starts : Query.StartsPlain (t :: ts))
    (isMark : t.lexeme = .mark p) (notAt : p ≠ .at) :
    ∃ c later, us = ⟨.mark c, t.start, t.stop⟩ :: later ∧ Punctuator.ofChar? c = some p ∧
      Sees ts later := by
  generalize same : t :: ts = all at sees
  cases sees with
  | nil => cases same
  | name => cases same; cases isMark
  | directive => cases same; cases isMark; exact absurd rfl notAt
  | «at» => cases same; cases isMark; exact absurd rfl notAt
  | mark isChar _ _ rest => cases same; cases isMark; exact ⟨_, _, rfl, isChar, rest⟩
  | string isString => cases same; cases isMark; cases isString
  | inner isAll plain isInner => exact (absurd_inner (isAll ▸ same ▸ starts) plain isInner).elim

/-- The sign of a directive and its name are one word or two. -/
theorem of_directive {u : Query.Token} {text : String} (sees : Sees (t :: u :: ts) us)
    (starts : Query.StartsPlain (t :: u :: ts)) (isSign : t.lexeme = .mark .at)
    (isName : u.lexeme = .name text) :
    ∃ later, Sees ts later ∧
      (t.stop = u.start ∧ us = ⟨.word ('@' :: text.toList), t.start, u.stop⟩ :: later ∨
        t.stop ≠ u.start ∧ us = ⟨.word ['@'], t.start, t.stop⟩ ::
          ⟨.word text.toList, u.start, u.stop⟩ :: later) := by
  have later : Query.StartsPlain (u :: ts) := starts.tail (by rw [isSign]; rfl)
  generalize same : t :: u :: ts = all at sees
  cases sees with
  | nil => cases same
  | name => cases same; cases isSign
  | directive rest => cases same; cases isName; exact ⟨_, rest, .inl ⟨rfl, rfl⟩⟩
  | «at» apart rest =>
    cases same
    obtain ⟨us, rfl, sees⟩ := rest.of_name later isName
    refine ⟨us, sees, .inr ⟨fun touches => apart text u.stop ?_, rfl⟩⟩
    obtain ⟨lexeme, start, stop⟩ := u
    cases isName
    cases touches
    rfl
  | mark _ notAt => cases same; cases isSign; exact absurd rfl notAt
  | string isString => cases same; cases isSign; cases isString
  | inner isAll plain isInner => exact (absurd_inner (isAll ▸ same ▸ starts) plain isInner).elim

end Sees

/-! ### One step -/

/-- The definition that a token joins, if there is one. -/
def Split.joined (s : Split) (kind : Kind) : Option Current :=
  if (s.ended kind).isSome then none else s.current

/-- What a token reports that ends a definition or does nothing to it. -/
def Split.reported (s : Split) (kind : Kind) : List Piece :=
  ((s.ended kind).map fun d => Piece.definition d.span).toList

theorem run_plain {s : Split} {u : Token} (plain : u.IsPlain) (us : List Token) :
    s.run (u :: us) = s.reported u.kind ++ Split.run ⟨s.depth,
      some (extended (s.joined u.kind) false u), u.kind == .word "extend".toList⟩ us := by
  obtain ⟨noBracket, readable⟩ := plain
  rw [Split.run, if_neg readable, Split.step]
  dsimp only
  split
  · rename_i c isMark
    rw [isMark] at noBracket
    obtain ⟨notOpen, notClose⟩ := Bool.or_eq_false_iff.mp noBracket
    rw [if_neg (by simp [notOpen]), if_neg (by simp [notClose])]
    rfl
  · rfl

theorem run_open {s : Split} {c : Char} {start stop : Nat} (opens : openBracket c = true)
    (us : List Token) :
    s.run (⟨.mark c, start, stop⟩ :: us) = s.reported (.mark c) ++ Split.run ⟨s.depth + 1,
      some (extended (s.joined (.mark c)) false ⟨.mark c, start, stop⟩), false⟩ us := by
  rw [Split.run, if_neg nofun, Split.step]
  dsimp only
  rw [if_pos opens]
  rfl

/-- The state in which the definition being read has a body. -/
def within (depth start stop : Nat) (closed extending : Bool) : Split :=
  ⟨depth, some ⟨start, stop, closed, true⟩, extending⟩

theorem run_close {depth first last start stop : Nat} {closed extending : Bool} {c : Char}
    (opens : openBracket c = false) (closes : closeBracket c = true) (us : List Token) :
    (within (depth + 1) first last closed extending).run (⟨.mark c, start, stop⟩ :: us) =
      (within depth first stop (closed || depth == 0 && c == '}') false).run us := by
  rw [Split.run, if_neg nofun, Split.step]
  dsimp only
  have inside : (within (depth + 1) first last closed extending).depth ≠ 0 := Nat.succ_ne_zero depth
  rw [if_neg (by simp [opens]), if_pos closes, if_neg inside]
  cases depth <;> rfl

/-! ### Inside brackets -/

theorem extended_body (start stop : Nat) (closed : Bool) (u : Token) :
    extended (some ⟨start, stop, closed, true⟩) false u = ⟨start, u.stop, closed, true⟩ := by
  simp [extended]

/-- Inside brackets no token ends a definition. -/
theorem joined_inside (depth start stop : Nat) (closed extending : Bool) (kind : Kind) :
    (within (depth + 1) start stop closed extending).joined kind =
      some ⟨start, stop, closed, true⟩ := rfl

theorem run_plain_inside {depth start stop : Nat} {closed extending : Bool} {u : Token}
    (plain : u.IsPlain) (us : List Token) :
    (within (depth + 1) start stop closed extending).run (u :: us) =
      (within (depth + 1) start u.stop closed (u.kind == .word "extend".toList)).run us := by
  rw [run_plain plain, joined_inside, extended_body]
  rfl

theorem run_open_inside {depth first last start stop : Nat} {closed extending : Bool} {c : Char}
    (opens : openBracket c = true) (us : List Token) :
    (within (depth + 1) first last closed extending).run (⟨.mark c, start, stop⟩ :: us) =
      (within (depth + 2) first stop closed false).run us := by
  rw [run_open opens, joined_inside, extended_body]
  rfl

theorem exists_run_all_plain {depth start : Nat} {closed : Bool} {seen : List Token}
    (plain : ∀ u ∈ seen, u.IsPlain) (us : List Token) (stop : Nat) (extending : Bool) :
    ∃ stop' extending', (within (depth + 1) start stop closed extending).run (seen ++ us) =
      (within (depth + 1) start stop' closed extending').run us := by
  induction seen generalizing stop extending with
  | nil => exact ⟨stop, extending, rfl⟩
  | cons u seen ih =>
    obtain ⟨first, rest⟩ := List.forall_mem_cons.mp plain
    rw [List.cons_append, run_plain_inside first]
    exact ih rest _ _

/-- The bracket that closes the one which `depth` others inside it leave open, and what follows. -/
def closingOf (depth : Nat) : List Query.Token → Option (Query.Token × List Query.Token)
  | [] => none
  | t :: ts =>
    if t.lexeme.opens then closingOf (depth + 1) ts
    else if t.lexeme.closes then
      if depth = 0 then some (t, ts) else closingOf (depth - 1) ts
    else closingOf depth ts

theorem closingOf_plain {depth : Nat} {t : Query.Token} {ts : List Query.Token}
    (plain : t.lexeme.isBracket = false) : closingOf depth (t :: ts) = closingOf depth ts := by
  obtain ⟨opens, closes⟩ := Bool.or_eq_false_iff.mp plain
  rw [closingOf, opens, closes]
  rfl

theorem closingOf_append {run : List Query.Token} (plain : ∀ t ∈ run, t.lexeme.isBracket = false)
    (depth : Nat) (ts : List Query.Token) : closingOf depth (run ++ ts) = closingOf depth ts := by
  induction run with
  | nil => rfl
  | cons t run ih =>
    obtain ⟨first, rest⟩ := List.forall_mem_cons.mp plain
    rw [List.cons_append, closingOf_plain first, ih rest]

theorem closingOf_nested {inner : List Query.Token} (nested : IsNested inner) (depth : Nat)
    (ts : List Query.Token) : closingOf depth (inner ++ ts) = closingOf depth ts := by
  induction nested generalizing depth ts with
  | nil => rfl
  | cons opens closes _ ih =>
    rw [List.cons_append, closingOf_plain (by rw [Lexeme.isBracket, opens, closes]; rfl), ih]
  | @group first last inner rest opens _ closes _ inside after =>
    rw [List.cons_append, closingOf, opens, List.append_assoc, if_pos rfl, inside, List.cons_append,
      closingOf, Lexeme.opens_of_closes closes, closes, if_neg Bool.false_ne_true, if_pos rfl,
      if_neg (Nat.succ_ne_zero depth)]
    exact after depth ts

theorem isPlain_mark {c : Char} (other : (Kind.mark c).isBracket = false) (start stop : Nat) :
    Token.IsPlain ⟨.mark c, start, stop⟩ := ⟨other, nofun⟩

theorem isPlain_description (start stop : Nat) : Token.IsPlain ⟨.description, start, stop⟩ :=
  ⟨rfl, nofun⟩

/-- Both read the same brackets. -/
theorem brackets_of_ofChar {c : Char} {p : Punctuator} (isMark : Punctuator.ofChar? c = some p) :
    openBracket c = (Lexeme.mark p).opens ∧ closeBracket c = (Lexeme.mark p).closes ∧
      (c == '\x7d') = (Lexeme.mark p == .mark .braceR) := by
  unfold Punctuator.ofChar? at isMark
  split at isMark <;> cases isMark <;> exact ⟨rfl, rfl, rfl⟩

/-- The splitter finds the end of a pair of brackets. -/
theorem run_inside {ts : List Query.Token} {us : List Token} (sees : Sees ts us) {depth : Nat}
    {last : Query.Token} {rest : List Query.Token}
    (closing : closingOf depth ts = some (last, rest)) (start stop : Nat) (closed extending : Bool) :
    ∃ later, Sees rest later ∧ (within (depth + 1) start stop closed extending).run us =
      (within 0 start last.stop (closed || last.lexeme == .mark .braceR) false).run later := by
  induction sees generalizing depth stop extending with
  | nil => cases closing
  | name _ ih =>
    rw [closingOf_plain rfl] at closing
    rw [run_plain_inside (isPlain_word _ _ _)]
    exact ih closing _ _
  | directive _ ih =>
    rw [closingOf_plain rfl, closingOf_plain rfl] at closing
    rw [run_plain_inside (isPlain_word _ _ _)]
    exact ih closing _ _
  | «at» _ _ ih =>
    rw [closingOf_plain rfl] at closing
    rw [run_plain_inside (isPlain_word _ _ _)]
    exact ih closing _ _
  | @mark c p place _ _ isMark _ _ sees ih =>
    obtain ⟨opening, closing_, isBrace⟩ := brackets_of_ofChar isMark
    rw [closingOf] at closing
    dsimp only at closing
    cases opens : (Lexeme.mark p).opens with
    | true =>
      rw [opens, if_pos rfl] at closing
      rw [run_open_inside (opening.trans opens)]
      exact ih closing _ _
    | false =>
      cases closes : (Lexeme.mark p).closes with
      | true =>
        rw [opens, closes, if_neg Bool.false_ne_true, if_pos rfl] at closing
        rw [run_close (opening.trans opens) (closing_.trans closes)]
        cases depth with
        | zero =>
          cases closing
          exact ⟨_, sees, by rw [isBrace]; rfl⟩
        | succ depth =>
          rw [if_neg (Nat.succ_ne_zero depth)] at closing
          simpa using ih closing _ _
      | false =>
        rw [opens, closes, if_neg Bool.false_ne_true, if_neg Bool.false_ne_true] at closing
        have plain : Token.IsPlain ⟨.mark c, place, place + 1⟩ :=
          isPlain_mark (by rw [Kind.isBracket, opening, closing_, opens, closes]; rfl) _ _
        rw [run_plain_inside plain]
        exact ih closing _ _
  | string isString _ ih =>
    rw [closingOf_plain (Lexeme.isBracket_of_isString isString)] at closing
    rw [run_plain_inside (isPlain_description _ _)]
    exact ih closing _ _
  | inner isAll plain _ plainSeen _ ih =>
    rw [isAll, closingOf_append plain] at closing
    obtain ⟨stop', extending', went⟩ := exists_run_all_plain plainSeen _ stop extending
    rw [went]
    exact ih closing _ _

/-! ### In the open -/

section
variable {start stop : Nat} {closed extending : Bool} {u : Token}

theorem ended_open (start stop : Nat) (closed extending : Bool) (kind : Kind) :
    (within 0 start stop closed extending).ended kind =
      if startsDefinition extending ⟨start, stop, closed, true⟩ kind then
        some ⟨start, stop, closed, true⟩ else none := by
  simp [Split.ended, within, Option.filter]

/-- A token that starts the next definition. -/
theorem run_starting {chars : List Char} (isWord : u.kind = .word chars)
    (starts : startsDefinition extending ⟨start, stop, closed, true⟩ u.kind = true)
    (us : List Token) : (within 0 start stop closed extending).run (u :: us) =
      .definition ⟨start, stop⟩ ::
        (within 0 u.start u.stop false (u.kind == .word "extend".toList)).run us := by
  rw [run_plain ⟨by rw [isWord]; rfl, by rw [isWord]; nofun⟩, Split.reported, Split.joined,
    ended_open, if_pos starts, isWord]
  have fresh : extended none false u = ⟨u.start, u.stop, false, true⟩ := by
    simp [extended, isWord]
  simp only [Option.isSome_some, if_true, fresh]
  rfl

/-- A token that belongs to the definition being read. -/
theorem run_joining (plain : u.IsPlain)
    (joins : startsDefinition extending ⟨start, stop, closed, true⟩ u.kind = false)
    (us : List Token) : (within 0 start stop closed extending).run (u :: us) =
      (within 0 start u.stop closed (u.kind == .word "extend".toList)).run us := by
  rw [run_plain plain, Split.reported, Split.joined, ended_open, if_neg (by simp [joins])]
  simp only [Option.isSome_none, Bool.false_eq_true, if_false, within, extended_body]
  rfl

theorem run_open_joining {c : Char} {first last : Nat} (opens : openBracket c = true)
    (joins : c ≠ '\x7b' ∨ closed = false) (us : List Token) :
    (within 0 start stop closed extending).run (⟨.mark c, first, last⟩ :: us) =
      (within 1 start last closed false).run us := by
  have notStart : startsDefinition extending ⟨start, stop, closed, true⟩ (.mark c) = false := by
    rcases joins with other | rfl
    · simp [startsDefinition, other]
    · simp [startsDefinition]
  rw [run_open opens, Split.reported, Split.joined, ended_open, if_neg (by simp [notStart])]
  simp only [Option.isSome_none, Bool.false_eq_true, if_false, within, extended_body]
  rfl

/-- The selections of a query without a name, behind a definition that has a block. -/
theorem run_open_starting {first last : Nat} (us : List Token) :
    (within 0 start stop true extending).run (⟨.mark '\x7b', first, last⟩ :: us) =
      .definition ⟨start, stop⟩ :: (within 1 first last false false).run us := by
  rw [run_open rfl]
  rfl

end

/-! ### Headers and bodies -/

/-- What comes of reading some tokens of a definition. Up to a loose keyword it is cut off; without
one, it extends to the last of them, and its block is closed if that is one of them. -/
def IsRead (start stop : Nat) (ts rest : List Query.Token) (us : List Token) (closed : Bool) :
    (loose : Bool) → Prop
  | true => ∃ before t after, ts = before ++ t :: after ∧
      ((within 0 start stop false false).run us).head? =
        some (.definition ⟨start, lastStop stop before⟩)
  | false => ∃ later, Sees rest later ∧ (within 0 start stop false false).run us =
      (within 0 start (lastStop stop ts) closed false).run later

/-- Tokens that join the definition come before others. -/
theorem IsRead.after {start stop : Nat} (first : List Query.Token) {ts rest : List Query.Token}
    {us later : List Token} {closed loose : Bool}
    (joins : (within 0 start stop false false).run us = (within 0 start (lastStop stop first) false false).run later)
    (isRead : IsRead start (lastStop stop first) ts rest later closed loose) :
    IsRead start stop (first ++ ts) rest us closed loose := by
  cases loose with
  | true =>
    obtain ⟨before, t, after, rfl, cut⟩ := isRead
    exact ⟨first ++ before, t, after, by rw [List.append_assoc], by
      rw [joins, cut, Query.lastStop_append]⟩
  | false =>
    obtain ⟨end_, sees, went⟩ := isRead
    exact ⟨end_, sees, by rw [joins, went, Query.lastStop_append]⟩

theorem ne_extend {chars : List Char} (other : keywords.contains chars = false) :
    (Kind.word chars == .word "extend".toList) = false := by
  refine beq_false_of_ne fun same => ?_
  cases same
  cases other

/-- A name in the open is cut off if it is a keyword. -/
theorem isRead_name {start stop : Nat} {t : Query.Token} {text : String}
    {ts rest : List Query.Token} {later : List Token} {closed loose : Bool}
    (isName : t.lexeme = .name text)
    (isRead : IsRead start t.stop ts rest later closed loose) :
    IsRead start stop (t :: ts) rest (⟨.word text.toList, t.start, t.stop⟩ :: later) closed
      (t.lexeme.isKeyword || loose) := by
  cases isKeyword : t.lexeme.isKeyword with
  | true =>
    rw [isName] at isKeyword
    have starts : startsDefinition false ⟨start, stop, false, true⟩ (.word text.toList) = true := by
      simpa [startsDefinition, Lexeme.isKeyword] using isKeyword
    exact ⟨[], t, ts, rfl, by rw [run_starting rfl starts]; rfl⟩
  | false =>
    rw [isName] at isKeyword
    refine .after [t] ?_ isRead
    have joins : startsDefinition false ⟨start, stop, false, true⟩ (.word text.toList) = false :=
      Bool.and_eq_false_iff.mpr (.inl isKeyword)
    rw [run_joining (isPlain_word _ _ _) joins, ne_extend isKeyword]
    rfl

/-- No keyword starts with the sign of a directive. -/
theorem keywords_at (chars : List Char) : keywords.contains ('@' :: chars) = false := by
  simp [keywords]

theorem run_word_joining {start stop first last : Nat} {chars : List Char}
    (other : keywords.contains chars = false) (us : List Token) :
    (within 0 start stop false false).run (⟨.word chars, first, last⟩ :: us) =
      (within 0 start last false false).run us := by
  have joins : startsDefinition false ⟨start, stop, false, true⟩ (.word chars) = false :=
    Bool.and_eq_false_iff.mpr (.inl other)
  rw [run_joining (isPlain_word _ _ _) joins, ne_extend other]

/-- A pair of brackets in the open. -/
theorem exists_run_group {opening closing : Punctuator} {group rest : List Query.Token}
    (isGroup : IsGroup opening closing group) (opens : (Lexeme.mark opening).opens = true)
    (closes : (Lexeme.mark closing).closes = true) {us : List Token}
    (sees : Sees (group ++ rest) us) :
    ∃ c start stop inner, group.head?.map (·.start) = some start ∧
      us = ⟨.mark c, start, stop⟩ :: inner ∧ Punctuator.ofChar? c = some opening ∧
      ∀ first last closed before, ∃ later, Sees rest later ∧
        (within 1 first last closed false).run inner = (within 0 first (lastStop before group)
          (closed || Lexeme.mark closing == .mark .braceR) false).run later := by
  have notAt : opening ≠ .at := by rintro rfl; cases opens
  have plain := isGroup.startsPlain rest opens
  obtain ⟨first, inner, last, rfl, isFirst, nested, isLast⟩ := isGroup
  obtain ⟨c, us, rfl, isChar, seesInner⟩ := sees.of_mark plain isFirst notAt
  have closingLast : closingOf 0 (inner ++ [last] ++ rest) = some (last, rest) := by
    rw [← isLast] at closes
    rw [List.append_assoc, closingOf_nested nested, List.singleton_append, closingOf,
      Lexeme.opens_of_closes closes, closes]
    rfl
  refine ⟨c, first.start, first.stop, us, rfl, rfl, isChar, fun start stop closed before => ?_⟩
  obtain ⟨later, seesLater, went⟩ := run_inside seesInner closingLast start stop closed false
  have ends : lastStop before (first :: (inner ++ [last])) = last.stop := by
    rw [← List.cons_append, Query.lastStop_append]
    rfl
  exact ⟨later, seesLater, by rw [ends, ← isLast, went]⟩

theorem isRead_header {header : List Query.Token} (isHeader : IsHeader header)
    {before : Query.Token} (notAt : before.lexeme ≠ .mark .at) {rest : List Query.Token}
    (starts : Query.StartsPlain rest) {us : List Token} (sees : Sees (header ++ rest) us)
    (start stop : Nat) : IsRead start stop header rest us false
      (Query.hasLooseKeyword (before :: Query.outside 0 header)) := by
  have plain := isHeader.startsPlain starts
  induction isHeader generalizing before us stop with
  | nil => exact ⟨us, sees, rfl⟩
  | @name t text ts isName isHeader ih =>
    obtain ⟨later, rfl, seesLater⟩ := sees.of_name plain isName
    rw [Query.outside_plain (by rw [isName]; rfl), Query.hasLooseKeyword, Query.isLoose_of_ne notAt]
    exact isRead_name isName (ih (Lexeme.ne_at_of_name isName) seesLater t.stop
      (isHeader.startsPlain starts))
  | @sign t ts isSign isHeader ih =>
    obtain ⟨p, isMark, notSignAt, opens, closes⟩ : ∃ p, t.lexeme = .mark p ∧ p ≠ .at ∧
        (Lexeme.mark p).opens = false ∧ (Lexeme.mark p).closes = false := by
      simp only [List.mem_cons, List.not_mem_nil, or_false] at isSign
      rcases isSign with same | same | same <;> exact ⟨_, same, by decide, rfl, rfl⟩
    have notLoose : Query.isLoose before t = false := by rw [Query.isLoose, isMark]; rfl
    obtain ⟨c, us, rfl, isChar, seesLater⟩ := sees.of_mark plain isMark notSignAt
    obtain ⟨opening, closing, -⟩ := brackets_of_ofChar isChar
    have noBracket : (Kind.mark c).isBracket = false := by
      rw [Kind.isBracket, opening, closing, opens, closes]
      rfl
    rw [Query.outside_plain (by rw [isMark, Lexeme.isBracket, opens, closes]; rfl),
      Query.hasLooseKeyword, notLoose, Bool.false_or]
    refine .after [t] ?_ (ih (by rw [isMark]; simpa using notSignAt) seesLater t.stop
      (isHeader.startsPlain starts))
    have joins : startsDefinition false ⟨start, stop, false, true⟩ (.mark c) = false :=
      Bool.and_false _
    exact run_joining (isPlain_mark noBracket _ _) joins _
  | @directive sign t text ts isSign isName isHeader ih =>
    have isBracket : t.lexeme.isBracket = false := by rw [isName]; rfl
    have notLoose : Query.isLoose before sign = false := by rw [Query.isLoose, isSign]; rfl
    have notSign := Lexeme.ne_at_of_name isName
    have later {us : List Token} (sees : Sees (ts ++ rest) us) :=
      ih notSign sees t.stop (isHeader.startsPlain starts)
    rw [Query.outside_plain (by rw [isSign]; rfl), Query.outside_plain isBracket,
      Query.hasLooseKeyword, notLoose, Bool.false_or, Query.hasLooseKeyword]
    obtain ⟨us, seesLater, ⟨touches, rfl⟩ | ⟨apart, rfl⟩⟩ := sees.of_directive plain isSign isName
    · have glued : Query.isLoose sign t = false := by
        rw [Query.isLoose, isSign, touches]
        simp
      rw [glued, Bool.false_or]
      exact .after [sign, t] (run_word_joining (keywords_at _) _) (later seesLater)
    · have loose : Query.isLoose sign t = t.lexeme.isKeyword := by
        rw [Query.isLoose, beq_false_of_ne apart, Bool.and_false, Bool.not_false, Bool.and_true]
      rw [loose]
      exact .after [sign] (run_word_joining rfl _) (isRead_name isName (later seesLater))
  | @arguments group ts isGroup isHeader ih =>
    rw [List.append_assoc] at sees
    obtain ⟨c, first, last, inner, -, rfl, isChar, went⟩ := exists_run_group isGroup rfl rfl sees
    obtain ⟨later, seesLater, went⟩ := went start last false stop
    rw [Query.outside_group isGroup rfl rfl]
    refine .after group ?_ (ih notAt seesLater _ (isHeader.startsPlain starts))
    rw [run_open_joining (brackets_of_ofChar isChar).1 (.inr rfl), went]
    rfl

theorem isRead_body {body : List Query.Token} (isBody : IsBody body) {before : Query.Token}
    (notAt : before.lexeme ≠ .mark .at) {rest : List Query.Token}
    (starts : Query.StartsPlain rest) {us : List Token} (sees : Sees (body ++ rest) us)
    (start stop : Nat) : IsRead start stop body rest us (Query.endsInBlock body)
      (Query.hasLooseKeyword (before :: Query.outside 0 body)) := by
  obtain ⟨header, block, rfl, isHeader, rfl | isGroup⟩ := isBody
  · rw [List.append_nil] at sees ⊢
    rw [isHeader.endsInBlock]
    exact isRead_header isHeader notAt starts sees start stop
  · rw [List.append_assoc] at sees
    have isRead := isRead_header isHeader notAt (isGroup.startsPlain rest rfl) sees start stop
    have outside : Query.outside 0 (header ++ block) = Query.outside 0 header := by
      rw [isHeader.outside_append, ← List.append_nil block, Query.outside_group isGroup rfl rfl]
      exact List.append_nil _
    have more : block ≠ [] := by
      obtain ⟨first, inner, last, rfl, -⟩ := isGroup
      exact List.cons_ne_nil _ _
    rw [outside, Query.endsInBlock_append more, isGroup.endsInBlock]
    cases loose : Query.hasLooseKeyword (before :: Query.outside 0 header) with
    | true =>
      rw [loose] at isRead
      obtain ⟨earlier, t, after, rfl, cut⟩ := isRead
      exact ⟨earlier, t, after ++ block, by rw [List.append_assoc, List.cons_append], cut⟩
    | false =>
      rw [loose] at isRead
      obtain ⟨later, seesBlock, joined⟩ := isRead
      obtain ⟨c, first, last, inner, -, rfl, isChar, went⟩ :=
        exists_run_group isGroup rfl rfl seesBlock
      obtain ⟨later, seesLater, went⟩ := went start last false (lastStop stop header)
      refine ⟨later, seesLater, ?_⟩
      rw [joined, run_open_joining (brackets_of_ofChar isChar).1 (.inr rfl), went,
        Query.lastStop_append]
      rfl

end Definitions
end InlineQuery
