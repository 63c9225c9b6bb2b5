import InlineQuery.Literal.Scan
import InlineQuery.Proofs.Definitions.Splitting
import InlineQuery.Proofs.Query.Document
import InlineQuery.Proofs.Text.Utf8
import Mathlib.Data.List.Chain

/-!
Where the splitter sees one definition end and the next one begin, and which documents it cuts into
exactly their definitions.
-/

namespace InlineQuery

open Query (Lexeme Punctuator IsGroup IsBody IsDefinition lastStop startOf spanOf)

namespace Definitions

/-! ### Between two definitions -/

/-- The state behind the tokens of a definition, or at the start of a document. -/
def between : Option (List Query.Token) → Split
  | none => .start
  | some part => within 0 (startOf part) (lastStop 0 part) (Query.endsInBlock part) false

def whole (parts : List (List Query.Token)) : List Piece :=
  parts.map fun part => .definition (spanOf part)

theorem whole_append (ps qs : List (List Query.Token)) : whole (ps ++ qs) = whole ps ++ whole qs :=
  List.map_append

theorem run_keyword (before : Option (List Query.Token)) {chars : List Char}
    (isKeyword : keywords.contains chars = true) (start stop : Nat) (us : List Token) :
    (between before).run (⟨.word chars, start, stop⟩ :: us) = whole before.toList ++
      (within 0 start stop false (Kind.word chars == .word "extend".toList)).run us := by
  cases before with
  | none => rw [run_plain (isPlain_word _ _ _)]; rfl
  | some part =>
    exact run_starting rfl (by simpa [startsDefinition] using isKeyword) us

/-- The keyword behind the word that introduces an extension. -/
theorem run_extended {start stop first last : Nat} (chars : List Char) (us : List Token) :
    (within 0 start stop false true).run (⟨.word chars, first, last⟩ :: us) =
      (within 0 start last false (Kind.word chars == .word "extend".toList)).run us :=
  run_joining (isPlain_word _ _ _) (Bool.and_eq_false_iff.mpr (.inr rfl)) us

/-- A description at the start of a document belongs to the definition behind it. -/
theorem run_described {start stop first last : Nat} (chars : List Char) (us : List Token) :
    Split.start.run (⟨.description, start, stop⟩ :: ⟨.word chars, first, last⟩ :: us) =
      (within 0 start last false (Kind.word chars == .word "extend".toList)).run us := by
  rw [run_plain (isPlain_description _ _), run_plain (isPlain_word _ _ _)]
  rfl

/-- A description further on goes to the definition before it. -/
theorem run_misattached {start stop first last first' last' : Nat} {closed : Bool}
    {chars : List Char} (isKeyword : keywords.contains chars = true) (us : List Token) :
    ((within 0 start stop closed false).run
      (⟨.description, first, last⟩ :: ⟨.word chars, first', last'⟩ :: us)).head? =
      some (.definition ⟨start, last⟩) := by
  rw [run_joining (isPlain_description _ _) rfl,
    run_starting rfl (by simpa [startsDefinition] using isKeyword)]
  rfl

theorem char_of_braceL {c : Char} (isMark : Punctuator.ofChar? c = some .braceL) : c = '\x7b' := by
  unfold Punctuator.ofChar? at isMark
  split at isMark <;> first | rfl | cases isMark

/-- Selections without a keyword behind a block. -/
theorem run_selections {before : Option (List Query.Token)}
    (blocked : ∀ earlier ∈ before, Query.endsInBlock earlier = true) (first last : Nat)
    (us : List Token) : (between before).run (⟨.mark '\x7b', first, last⟩ :: us) =
      whole before.toList ++ (within 1 first last false false).run us := by
  cases before with
  | none => rw [between, run_open rfl]; rfl
  | some earlier => rw [between, blocked earlier rfl, run_open_starting]; rfl

/-- The keyword of a definition. -/
theorem Sees.of_keyword {key : Query.Token} {ts : List Query.Token} {us : List Token}
    (sees : Sees (key :: ts) us) (starts : Query.StartsPlain (key :: ts))
    (isKeyword : key.lexeme.isKeyword = true) (introduces : key.lexeme ≠ .name "extend") :
    ∃ chars later, us = ⟨.word chars, key.start, key.stop⟩ :: later ∧ Sees ts later ∧
      keywords.contains chars = true ∧ (Kind.word chars == .word "extend".toList) = false := by
  obtain ⟨text, isName⟩ := Lexeme.name_of_isKeyword isKeyword
  obtain ⟨later, rfl, seesLater⟩ := sees.of_name starts isName
  rw [isName] at isKeyword introduces
  refine ⟨text.toList, later, rfl, seesLater, isKeyword, beq_false_of_ne fun same => ?_⟩
  exact introduces (congrArg Lexeme.name (String.toList_injective (Kind.word.inj same)))

/-! ### One definition -/

/-- What is reported from the start of a definition on. If nothing in it reads like the start of
another one, it is left behind whole; otherwise it is cut off before its end. -/
def IsCut (part rest : List Query.Token) (reported : List Piece) : (loose : Bool) → Prop
  | true => ∃ before t after, part = before ++ t :: after ∧
      reported.head? = some (.definition ⟨startOf part, lastStop 0 before⟩)
  | false => ∃ later, Sees rest later ∧ reported = (between (some part)).run later

/-- A definition that is cut off is not found whole. -/
theorem IsCut.ne_whole {part rest : List Query.Token} {reported : List Piece}
    (cut : IsCut part rest reported true) (ordered : Query.AreOrdered 0 part)
    (parts : List (List Query.Token)) : reported ≠ whole (part :: parts) := by
  rintro rfl
  obtain ⟨before, t, after, same, cut⟩ := cut
  have short : lastStop 0 part = lastStop 0 before :=
    congrArg Span.stop (Piece.definition.inj (Option.some.inj cut))
  rw [same] at ordered short
  have long := ordered.append_right.lt_lastStop (List.cons_ne_nil t after)
  rw [← Query.lastStop_append, short] at long
  exact absurd long (Nat.lt_irrefl _)

theorem startOf_append {opening : List Query.Token} (nonempty : opening ≠ [])
    (ts : List Query.Token) : startOf (opening ++ ts) = startOf opening := by
  cases opening with
  | nil => exact absurd rfl nonempty
  | cons => rfl

/-- The first tokens up to the keyword are followed by a body. -/
theorem isCut_of_body (opening : List Query.Token) {key : Query.Token}
    {body rest : List Query.Token} (isKeyword : key.lexeme.isKeyword = true) (isBody : IsBody body)
    (starts : Query.StartsPlain rest) {us : List Token} (sees : Sees (body ++ rest) us) :
    IsCut (opening ++ key :: body) rest
      ((within 0 (startOf (opening ++ [key])) key.stop false false).run us)
      (Query.hasLooseKeyword (key :: Query.outside 0 body)) := by
  obtain ⟨text, isName⟩ := Lexeme.name_of_isKeyword isKeyword
  have notAt := Lexeme.ne_at_of_name isName
  have isRead := isRead_body isBody notAt starts sees (startOf (opening ++ [key])) key.stop
  have split : opening ++ key :: body = (opening ++ [key]) ++ body := by simp
  have begins : startOf (opening ++ key :: body) = startOf (opening ++ [key]) := by
    rw [split, startOf_append (by simp)]
  have ends (ts : List Query.Token) : lastStop key.stop ts = lastStop 0 (opening ++ key :: ts) := by
    rw [Query.lastStop_append, ← List.singleton_append, Query.lastStop_append]
    rfl
  cases loose : Query.hasLooseKeyword (key :: Query.outside 0 body) with
  | true =>
    rw [loose] at isRead
    obtain ⟨before, t, after, rfl, cut⟩ := isRead
    refine ⟨opening ++ key :: before, t, after, by simp, ?_⟩
    rw [cut, begins, ends]
  | false =>
    rw [loose] at isRead
    obtain ⟨later, seesLater, went⟩ := isRead
    refine ⟨later, seesLater, ?_⟩
    rw [went, between, begins, ends, Query.endsInBlock_append (List.cons_ne_nil _ _),
      Query.endsInBlock_key isKeyword]

theorem exists_run_shorthand {part rest : List Query.Token}
    (isGroup : IsGroup .braceL .braceR part) {us : List Token} (sees : Sees (part ++ rest) us)
    {before : Option (List Query.Token)}
    (blocked : ∀ earlier ∈ before, Query.endsInBlock earlier = true) :
    ∃ reported, (between before).run us = whole before.toList ++ reported ∧
      IsCut part rest reported false := by
  obtain ⟨c, first, last, inner, begins, rfl, isChar, went⟩ := exists_run_group isGroup rfl rfl sees
  cases char_of_braceL isChar
  obtain ⟨later, seesLater, went⟩ := went first last false 0
  have begins : startOf part = first := by rw [startOf, begins]; rfl
  refine ⟨_, run_selections blocked _ _ _, later, seesLater, ?_⟩
  rw [went, between, begins, isGroup.endsInBlock]
  rfl

/-- A definition whose start can be told from the one before it ends that one. -/
theorem exists_run_definition {part rest : List Query.Token} (isDefinition : IsDefinition part)
    (starts : Query.StartsPlain rest) {us : List Token} (sees : Sees (part ++ rest) us)
    {before : Option (List Query.Token)}
    (separate : ∀ earlier ∈ before, Query.isSeparate earlier part = true) :
    ∃ reported, (between before).run us = whole before.toList ++ reported ∧
      IsCut part rest reported (Query.hasLooseKeyword (Query.fromKeyword part)) := by
  have plain := isDefinition.startsPlain starts
  cases isDefinition with
  | shorthand isGroup =>
    have noKeyword : Query.hasLooseKeyword (Query.fromKeyword part) = false := by
      rw [Query.fromKeyword, ← List.append_nil part, Query.outside_group isGroup rfl rfl]
      rfl
    rw [noKeyword]
    refine exists_run_shorthand isGroup sees fun earlier isBefore => ?_
    have separate := separate earlier isBefore
    rw [Query.isSeparate, isGroup.isShorthand] at separate
    simpa using (Bool.and_eq_true_iff.mp separate).2
  | @plain key body isKeyword introduces isBody =>
    obtain ⟨chars, us, rfl, seesBody, known, other⟩ := sees.of_keyword plain isKeyword introduces
    refine ⟨_, run_keyword before known _ _ _, ?_⟩
    rw [other, Query.fromKeyword_key isKeyword introduces]
    exact isCut_of_body [] isKeyword isBody starts seesBody
  | @described description key body isString isKeyword introduces isBody =>
    obtain ⟨us, rfl, seesKey⟩ := sees.of_string plain isString
    have plainKey := plain.tail (Lexeme.isBracket_of_isString isString)
    obtain ⟨chars, us, rfl, seesBody, -, other⟩ :=
      seesKey.of_keyword plainKey isKeyword introduces
    cases before with
    | none =>
      refine ⟨_, run_described _ _, ?_⟩
      rw [other, Query.fromKeyword_cons (.inl isString), Query.fromKeyword_key isKeyword introduces]
      exact isCut_of_body [description] isKeyword isBody starts seesBody
    | some earlier =>
      have separate := separate earlier rfl
      rw [Query.isSeparate, Query.isDescribed, List.head?_cons, Option.any_some, isString]
        at separate
      cases separate
  | @extension extend key body isExtend isKeyword introduces isBody =>
    obtain ⟨us, rfl, seesKey⟩ := sees.of_name plain isExtend
    have plainKey := plain.tail (by rw [isExtend]; rfl)
    obtain ⟨chars, us, rfl, seesBody, -, other⟩ :=
      seesKey.of_keyword plainKey isKeyword introduces
    refine ⟨_, run_keyword before rfl _ _ _, ?_⟩
    rw [beq_self_eq_true, run_extended, other, Query.fromKeyword_cons (.inr isExtend),
      Query.fromKeyword_key isKeyword introduces]
    exact isCut_of_body [extend] isKeyword isBody starts seesBody

/-! ### All definitions -/

theorem head?_run_keyword {start stop : Nat} {closed : Bool} {chars : List Char}
    (isKeyword : keywords.contains chars = true) (first last : Nat) (us : List Token) :
    ((within 0 start stop closed false).run (⟨.word chars, first, last⟩ :: us)).head? =
      some (.definition ⟨start, stop⟩) := by
  rw [run_starting rfl (by simpa [startsDefinition] using isKeyword)]
  rfl

theorem not_opening_of_name {t : Query.Token} {ts : List Query.Token} {text : String}
    {unclosed : Prop} (isName : t.lexeme = .name text) :
    ¬(Query.isDescribed (t :: ts) = true ∨ Query.isShorthand (t :: ts) = true ∧ unclosed) := by
  rw [Query.isDescribed, Query.isShorthand, List.head?_cons, Option.any_some, Option.any_some,
    isName]
  rintro (seen | ⟨seen, -⟩) <;> cases seen

/-- A definition that is being read ends where it ends so far or later. It goes beyond that if a
description follows, or if selections follow and it has no block. -/
theorem exists_head_run {parts : List (List Query.Token)} (all : ∀ p ∈ parts, IsDefinition p)
    {us : List Token} (sees : Sees parts.flatten us) (start : Nat) {stop : Nat}
    (ordered : Query.AreOrdered stop parts.flatten) (closed : Bool) :
    ∃ last, ((within 0 start stop closed false).run us).head? = some (.definition ⟨start, last⟩) ∧
      stop ≤ last ∧ ∀ p ∈ parts.head?,
        Query.isDescribed p = true ∨ Query.isShorthand p = true ∧ closed = false → stop < last := by
  induction parts generalizing us stop closed with
  | nil => cases sees.of_nil; exact ⟨stop, rfl, Nat.le_refl stop, nofun⟩
  | cons part parts ih =>
    obtain ⟨isDefinition, rest⟩ := List.forall_mem_cons.mp all
    have starts := Query.startsPlain_flatten rest
    have plain := isDefinition.startsPlain starts
    simp only [List.flatten_cons, List.head?_cons, Option.mem_some_iff, forall_eq'] at *
    cases isDefinition with
    | shorthand isGroup =>
      obtain ⟨c, first, last, inner, -, rfl, isChar, went⟩ := exists_run_group isGroup rfl rfl sees
      cases char_of_braceL isChar
      cases closed with
      | true =>
        refine ⟨stop, by rw [run_open_starting]; rfl, Nat.le_refl stop, ?_⟩
        rw [isGroup.isDescribed]
        nofun
      | false =>
        -- The selections become the block of the definition that is being read.
        obtain ⟨later, seesLater, went⟩ := went start last false stop
        obtain ⟨last, head, le, -⟩ := ih rest seesLater ordered.append_right true
        have lt : stop < lastStop stop part :=
          ordered.append_left.lt_lastStop (IsDefinition.shorthand isGroup).ne_nil
        rw [run_open_joining rfl (.inr rfl), went]
        exact ⟨last, head, by omega, fun _ => by omega⟩
    | @plain key body isKeyword introduces isBody =>
      obtain ⟨chars, us, rfl, -, known, -⟩ := sees.of_keyword plain isKeyword introduces
      obtain ⟨text, isName⟩ := Lexeme.name_of_isKeyword isKeyword
      exact ⟨stop, head?_run_keyword known _ _ _, Nat.le_refl stop,
        fun seen => (not_opening_of_name isName seen).elim⟩
    | @described description key body isString isKeyword introduces isBody =>
      obtain ⟨us, rfl, seesKey⟩ := sees.of_string plain isString
      have plainKey := plain.tail (Lexeme.isBracket_of_isString isString)
      obtain ⟨chars, us, rfl, -, known, -⟩ := seesKey.of_keyword plainKey isKeyword introduces
      have le := ordered.le_start description (by simp)
      have lt := ordered.start_lt description (by simp)
      exact ⟨description.stop, run_misattached known us, by omega, fun _ => by omega⟩
    | @extension extend key body isExtend isKeyword introduces isBody =>
      obtain ⟨us, rfl, -⟩ := sees.of_name plain isExtend
      exact ⟨stop, head?_run_keyword rfl _ _ _, Nat.le_refl stop,
        fun seen => (not_opening_of_name isExtend seen).elim⟩

/-- A definition is not found whole if it goes on with the start of the next one. -/
theorem run_ne_whole {earlier part : List Query.Token} {parts : List (List Query.Token)}
    (all : ∀ p ∈ part :: parts, IsDefinition p) {us : List Token}
    (sees : Sees (part :: parts).flatten us)
    (ordered : Query.AreOrdered (lastStop 0 earlier) (part :: parts).flatten)
    (joins : Query.isSeparate earlier part = false) :
    (between (some earlier)).run us ≠ whole (earlier :: part :: parts) := by
  intro isWhole
  obtain ⟨last, reported, -, beyond⟩ := exists_head_run all sees (startOf earlier) ordered
    (Query.endsInBlock earlier)
  have later : lastStop 0 earlier < last :=
    beyond part rfl (by simpa [Query.isSeparate, or_iff_not_imp_left] using joins)
  have same := (congrArg List.head? isWhole).symm.trans reported
  have short : lastStop 0 earlier = last :=
    congrArg Span.stop (Piece.definition.inj (Option.some.inj same))
  omega

/-- A document is cut into exactly its definitions if nothing inside a definition reads like the
start of another one and each start can be told from the definition before it. -/
theorem run_between_iff {parts : List (List Query.Token)} (all : ∀ p ∈ parts, IsDefinition p)
    {us : List Token} (sees : Sees parts.flatten us) (before : Option (List Query.Token))
    (ordered : Query.AreOrdered (before.elim 0 (lastStop 0)) parts.flatten) :
    (between before).run us = whole (before.toList ++ parts) ↔
      (∀ p ∈ parts, Query.hasLooseKeyword (Query.fromKeyword p) = false) ∧
        (before.toList ++ parts).IsChain fun p q => Query.isSeparate p q = true := by
  -- The definition before goes along, since it is reported only when the next one starts.
  induction parts generalizing us before with
  | nil =>
    cases sees.of_nil
    cases before <;> simp [between, whole, within, Split.run, Split.finish, Split.start, spanOf,
      Current.span]
  | cons part parts ih =>
    obtain ⟨isDefinition, rest⟩ := List.forall_mem_cons.mp all
    have starts := Query.startsPlain_flatten rest
    rw [List.flatten_cons] at sees ordered
    by_cases separate : ∀ earlier ∈ before, Query.isSeparate earlier part = true
    · obtain ⟨reported, went, cut⟩ := exists_run_definition isDefinition starts sees separate
      have chain :
          (before.toList ++ part :: parts).IsChain (fun p q => Query.isSeparate p q = true) ↔
            (part :: parts).IsChain fun p q => Query.isSeparate p q = true := by
        cases before with
        | none => rfl
        | some earlier => simp [separate]
      rw [went, chain, whole_append, List.append_right_inj, List.forall_mem_cons]
      cases loose : Query.hasLooseKeyword (Query.fromKeyword part) with
      | true =>
        rw [loose] at cut
        have notWhole := cut.ne_whole (ordered.append_left.mono (Nat.zero_le _)) parts
        exact ⟨fun isWhole => absurd isWhole notWhole, fun told => Bool.noConfusion told.1.1⟩
      | false =>
        rw [loose] at cut
        obtain ⟨later, seesLater, rfl⟩ := cut
        have apart := (ordered.mono (Nat.zero_le _)).append_right
        rw [← List.singleton_append, and_iff_right rfl]
        exact ih rest seesLater (some part) apart
    · obtain ⟨earlier, rfl, joins⟩ : ∃ earlier, before = some earlier ∧
          Query.isSeparate earlier part = false := by
        cases before with
        | none => exact absurd (fun _ isBefore => by cases isBefore) separate
        | some earlier => exact ⟨earlier, rfl, by simpa using separate⟩
      refine ⟨fun isWhole => absurd isWhole (run_ne_whole all sees ordered joins), ?_⟩
      rintro ⟨-, chain⟩
      have separate := (List.isChain_cons_cons.mp chain).1
      rw [joins] at separate
      cases separate

/-- Where the definitions of an accepted text lie. -/
theorem spanOf_tokens {text : List Char} {d : Query.Located}
    (spelled : Query.Parser.IsSpelled d (d.tokens text)) :
    spanOf (d.tokens text) = ⟨d.start, d.stop⟩ := by
  rw [spanOf, startOf, lastStop, spelled.start, spelled.stop]
  rfl

theorem extraction_injective (text : List Char) (lines : LineIndex) :
    Function.Injective (Piece.extraction text lines) := by
  intro p q same
  cases p with
  | definition a =>
    cases q with
    | definition b =>
      have same := Extraction.found.inj same
      have starts : a.start = b.start := congrArg Literal.start same
      have stops : a.stop = b.stop := congrArg Literal.stop same
      cases a
      cases b
      cases starts
      cases stops
      rfl
    | skipped => cases same
  | skipped =>
    cases q with
    | definition => cases same
    | skipped => cases same; rfl

/-- What is reported of definitions that are found whole. -/
theorem extractions_whole {text : List Char} {ds : List Query.Located} {lines : LineIndex}
    (spelled : ∀ d ∈ ds, Query.Parser.IsSpelled d (d.tokens text)) :
    (whole (ds.map (·.tokens text))).map (Piece.extraction text lines) =
      ds.map fun d => .found (.ofSpan text lines ⟨d.start, d.stop⟩ none []) := by
  rw [whole, List.map_map, List.map_map]
  refine List.map_congr_left fun d member => ?_
  rw [Function.comp_apply, Function.comp_apply, spanOf_tokens (spelled d member)]
  rfl

end Definitions

/-- A document without comments that end in a lone carriage return is cut into exactly the
definitions that its parser finds, each with its description, if and only if no name outside the
brackets of a definition reads like the start of another one, only the first definition has a
description, and selections without a keyword follow a block. -/
theorem scan_graphql_eq_definitions_iff {text : List Char} {document : Query.Document}
    (accepted : Query.parse text = .ok document)
    (plainComments : Definitions.hasPlainComments 0 text = true) :
    scan text .graphql = document.definitions.map (fun d =>
        .found (.ofSpan text (.ofText text) ⟨d.start, d.stop⟩ none [])) ↔
      (∀ d ∈ document.definitions,
        Query.hasLooseKeyword (Query.fromKeyword (d.tokens text)) = false) ∧
      document.definitions.IsChain fun d e =>
        Query.isSeparate (d.tokens text) (e.tokens text) = true := by
  obtain ⟨tokens, ⟨eof, ends⟩, spelled⟩ := Query.tokens_of_parse accepted
  have areDefinitions : ∀ p ∈ document.definitions.map (·.tokens text), Query.IsDefinition p :=
    List.forall_mem_map.mpr fun d member => (spelled d member).isDefinition
  have sees : Definitions.Sees (Query.lex text).tokens (Definitions.tokens text) :=
    (Definitions.agrees_tokens ends plainComments).sees
  have ordered : Query.AreOrdered 0 (Query.lex text).tokens := Query.areOrdered_lexFrom 0 0 text
  rw [tokens] at sees ordered
  have cut := Definitions.run_between_iff areDefinitions sees none ordered
  rw [← Definitions.extractions_whole spelled, scan,
    (List.map_injective_iff.mpr (Definitions.extraction_injective _ _)).eq_iff]
  exact cut.trans (and_congr List.forall_mem_map (List.isChain_map _))

theorem scan_graphql_eq_definitions_iff_schema :
    let text := ("\"type\" type Query \x7b type: [T!] \x7d\n" ++
      "extend type Query @b \x7b query: Int \x7d\n" ++
      "directive @a(on: String = \"\x7d\") on OBJECT\n" ++
      "scalar Date # \x7b\nunion U @type = A | B\nquery Q \x7b a \x7d\n\x7b b \x7d").toList
    ∃ document, Query.parse text = .ok document ∧ Definitions.hasPlainComments 0 text = true ∧
      document.definitions.length = 7 ∧
      scan text .graphql = document.definitions.map fun d =>
        .found (.ofSpan text (.ofText text) ⟨d.start, d.stop⟩ none []) := by
  intro text
  have spelled : text = _ :=
    Text.toList_append_of (Text.toList_append_of (Text.toList_append_of String.toList_ofList
      String.toList_ofList) String.toList_ofList) String.toList_ofList
  have told : (Query.parse text).toOption.any (fun document =>
      document.definitions.length = 7 ∧
      (∀ d ∈ document.definitions,
        Query.hasLooseKeyword (Query.fromKeyword (d.tokens text)) = false) ∧
      document.definitions.IsChain fun d e =>
        Query.isSeparate (d.tokens text) (e.tokens text) = true) = true := by
    rw [spelled]
    decide +kernel
  have plainComments : Definitions.hasPlainComments 0 text = true := by
    rw [spelled]
    decide +kernel
  cases accepted : Query.parse text with
  | error e => rw [accepted] at told; cases told
  | ok document =>
    rw [accepted] at told
    obtain ⟨seven, conditions⟩ := of_decide_eq_true told
    exact ⟨document, rfl, plainComments, seven,
      (scan_graphql_eq_definitions_iff accepted plainComments).mpr conditions⟩

/-- The description of a definition further on is given to the definition before it. -/
theorem scan_graphql_misattaches_description :
    let text := "type A \x7b a: Int \x7d\n\"B\"\ntype B \x7b b: Int \x7d".toList
    ∃ document, Query.parse text = .ok document ∧
      document.definitions.map (fun d => (d.start, d.stop)) = [(0, 17), (18, 39)] ∧
      scan text .graphql ≠ document.definitions.map fun d =>
        .found (.ofSpan text (.ofText text) ⟨d.start, d.stop⟩ none []) := by
  intro text
  have differs : (Query.parse text).toOption.any (fun document =>
      document.definitions.map (fun d => (d.start, d.stop)) = [(0, 17), (18, 39)] ∧
      scan text .graphql ≠ document.definitions.map fun d =>
        .found (.ofSpan text (.ofText text) ⟨d.start, d.stop⟩ none [])) = true := by decide +kernel
  cases accepted : Query.parse text with
  | error e => rw [accepted] at differs; cases differs
  | ok document =>
    rw [accepted] at differs
    exact ⟨document, rfl, of_decide_eq_true differs⟩

end InlineQuery
