import InlineQuery.Proofs.Query.FramedGrammar
import InlineQuery.Proofs.Query.Scanning

/-!
A text with fragments of other texts behind it is parsed to its own definitions and then those of the
fragments, as each was parsed where it stood.
-/

namespace InlineQuery.Query

/-- Whether a token may be the first of a fragment. -/
def Lexeme.startsFragment (l : Lexeme) : Bool := l.isString || l == .name "fragment"

theorem Lexeme.of_startsFragment {l : Lexeme} (starts : l.startsFragment = true) :
    l.continues = false ∧ l ≠ .eof := by
  simp only [startsFragment, Bool.or_eq_true, beq_iff_eq] at starts
  rcases starts with isString | rfl
  · cases l with
    | string text => exact ⟨rfl, nofun⟩
    | blockString text => exact ⟨rfl, nofun⟩
    | _ => cases isString
  · exact ⟨rfl, nofun⟩

namespace Parser

variable {size m fuel : Nat} {s t next : Cursor}

/-! ### Fragments among the definitions -/

theorem definition_of_located {d : Located} (ran : located size s = .ok (d, next)) :
    definition size s = .ok (d.definition, next) := by
  obtain ⟨first, middle, peeked, ran⟩ := bind_ok ran
  cases peek_ok peeked
  obtain ⟨read, after, ranDefinition, ran⟩ := bind_ok ran
  cases ran
  exact ranDefinition

theorem exists_located {read : Definition} (readable : s.IsReadable)
    (ran : definition size s = .ok (read, next)) :
    ∃ d : Located, d.definition = read ∧ located size s = .ok (d, next) := by
  obtain ⟨t, peeked⟩ := exists_peek readable
  refine ⟨⟨read, t.start, next.last⟩, rfl, ?_⟩
  rw [located, bind_of_ok peeked, bind_of_ok ran]
  rfl

/-- A parser that returns a fragment only if there is one to read. -/
def FindsFragment (size : Nat) (p : Parser Definition) : Prop :=
  ∀ ⦃s f next⦄, p s = .ok (.fragment f, next) → fragment size s = .ok (f, next)

namespace FindsFragment

theorem other {α : Type} {p : Parser α} {make : α → Definition}
    (differs : ∀ a f, make a ≠ .fragment f) : FindsFragment size (p >>= fun a => pure (make a)) := by
  intro s f next ran
  obtain ⟨a, _, -, ran⟩ := bind_ok ran
  exact absurd (Prod.mk.inj (Except.ok.inj ran)).1 (differs a f)

theorem fail {position : Nat} {fault : Fault} : FindsFragment size (fail position fault) := by
  intro s f next ran
  cases ran

theorem look {p : Parser Token} {g : Token → Parser Definition}
    (looks : ∀ s t next, p s = .ok (t, next) → next = s) (behind : ∀ t, FindsFragment size (g t)) :
    FindsFragment size (p >>= g) := by
  intro s f next ran
  obtain ⟨t, middle, ranFirst, ran⟩ := bind_ok ran
  cases looks _ _ _ ranFirst
  exact behind t ran

end FindsFragment

theorem findsFragment_definition : FindsFragment size (definition size) := by
  unfold definition
  refine .look (fun _ _ _ => peek_ok) fun first => ?_
  split
  · exact .other nofun
  · extract_lets described told
    have rest (t : Token) : FindsFragment size (told t) := by
      dsimp only [told]
      split
      · exact .other nofun
      · exact .other nofun
      · exact .other nofun
      · exact .other nofun
      · exact .other nofun
      · intro s f next ran
        obtain ⟨a, _, ranFragment, ran⟩ := bind_ok ran
        cases ran
        exact ranFragment
      · split
        · exact .other nofun
        · split
          · exact .fail
          · split
            · refine .look (fun _ _ _ => peekSecond_ok) fun u => ?_
              split
              · exact .other nofun
              · exact .other nofun
              · split
                · exact .other nofun
                · exact .fail
              · exact .fail
            · exact .fail
      · exact .fail
      · exact .fail
    split
    · exact .look (fun _ _ _ => peekSecond_ok) rest
    · exact .look (fun _ _ _ => peek_ok) rest

theorem description_ok {d : Option String} {x : Token} (readable : s.IsReadable)
    (peeked : peek s = .ok (x, s)) (ran : description s = .ok (d, next)) :
    (x.lexeme.isString = false ∧ next = s) ∨
      x.lexeme.isString = true ∧ ∃ ts, s.tokens = x :: ts ∧ next = ⟨ts, s.ending, x.stop⟩ := by
  have took {text : String} (notEnd : x.lexeme ≠ .eof)
      (ran : (advance >>= fun _ => pure (some text)) s = .ok (d, next)) :
      ∃ ts, s.tokens = x :: ts ∧ next = ⟨ts, s.ending, x.stop⟩ := by
    obtain ⟨_, middle, ranAdvance, ran⟩ := bind_ok ran
    cases ran
    exact advance_ok readable peeked notEnd ranAdvance
  unfold description at ran
  rw [bind_of_ok peeked] at ran
  obtain ⟨lexeme, start, stop⟩ := x
  cases lexeme with
  | string text => exact .inr ⟨rfl, took nofun ran⟩
  | blockString text => exact .inr ⟨rfl, took nofun ran⟩
  | _ =>
    cases ran
    exact .inl ⟨rfl, rfl⟩

/-- The word that introduces a fragment comes first, or second behind a description. -/
theorem definition_eq_fragment {x y : Token} (peeked : peek s = .ok (x, s))
    (isKeyword : y.lexeme = .name "fragment")
    (place : x = y ∨ x.lexeme.isString = true ∧ peekSecond s = .ok (y, s)) :
    definition size s = (fragment size >>= fun f => pure (.fragment f)) s := by
  unfold definition
  rw [bind_of_ok peeked]
  obtain ⟨lexeme', start', stop'⟩ := y
  cases isKeyword
  rcases place with rfl | ⟨isString, peeked'⟩
  · exact bind_of_ok peeked
  · obtain ⟨lexeme, start, stop⟩ := x
    cases lexeme with
    | string text => exact bind_of_ok peeked'
    | blockString text => exact bind_of_ok peeked'
    | _ => cases isString

/-- Where a fragment can be read, it is the definition. -/
theorem definition_of_fragment {f : FragmentDefinition} (readable : s.IsReadable)
    (ran : fragment size s = .ok (f, next)) :
    definition size s = .ok (.fragment f, next) ∧
      ∀ t ∈ s.tokens.head?, t.lexeme.startsFragment = true := by
  obtain ⟨x, peeked⟩ := exists_peek readable
  obtain ⟨d, middle, ranDescription, more⟩ := bind_ok ran
  obtain ⟨_, after, ranKeyword, -⟩ := bind_ok more
  obtain ⟨y, _, peeked', ranKeyword⟩ := bind_ok ranKeyword
  cases peek_ok peeked'
  have isKeyword : y.lexeme = .name "fragment" := by
    by_contra other
    rw [if_neg other] at ranKeyword
    cases ranKeyword
  have whole : (fragment size >>= fun f => pure (Definition.fragment f)) s =
      .ok (.fragment f, next) := bind_of_ok ran
  have isHead {t : Token} (member : t ∈ s.tokens.head?) : t = x := by
    obtain ⟨ts, isCons⟩ := List.head?_eq_some_iff.mp member
    exact (eq_of_peek isCons peeked).symm
  rcases description_ok readable peeked ranDescription with
    ⟨-, rfl⟩ | ⟨isString, ts, isCons, rfl⟩
  · cases peeked.symm.trans peeked'
    refine ⟨(definition_eq_fragment peeked isKeyword (.inl rfl)).trans whole, fun t member => ?_⟩
    rw [isHead member, Lexeme.startsFragment, isKeyword]
    rfl
  · have second : peekSecond s = .ok (y, s) := by
      cases ts with
      | cons u ts =>
        cases eq_of_peek rfl peeked'
        exact peekSecond_of_tokens isCons
      | nil =>
        unfold peekSecond
        rw [isCons]
        dsimp only
        cases ends : s.ending with
        | error e =>
          rw [peek, ends] at peeked'
          cases peeked'
        | ok u =>
          rw [peek, ends] at peeked'
          cases peeked'
          rfl
    refine ⟨(definition_eq_fragment peeked isKeyword (.inr ⟨isString, second⟩)).trans whole,
      fun t member => ?_⟩
    rw [isHead member, Lexeme.startsFragment, isString, Bool.true_or]

/-- Tokens that are read as a fragment in some text, whatever is behind them there. -/
def IsFragment (f : FragmentDefinition) (part : List Lexeme) : Prop :=
  ∃ size s used next, s.IsReadable ∧ s.Takes used next ∧ used.map (·.lexeme) = part ∧
    fragment size s = .ok (f, next)

theorem IsFragment.head {f : FragmentDefinition} {part : List Lexeme}
    (isFragment : IsFragment f part) : ∃ l ls, part = l :: ls ∧ l.startsFragment = true := by
  obtain ⟨size, s, used, next, readable, takes, rfl, ran⟩ := isFragment
  have firm : Firm ⟨[], [], size⟩ true (fragment size) (fragment size) := firm_fragment
  have consumes := firm.consumes readable ran
  rw [takes.tokens, List.length_append] at consumes
  obtain ⟨t, ts, rfl⟩ := List.exists_cons_of_length_pos (l := used) (by omega)
  have starts := (definition_of_fragment readable ran).2 t (by rw [takes.tokens]; rfl)
  exact ⟨t.lexeme, ts.map (·.lexeme), rfl, starts⟩

theorem exists_head_fragments {fs : List FragmentDefinition} {parts : List (List Lexeme)}
    {vs : List Token} (areFragments : List.Forall₂ IsFragment fs parts) (nonempty : fs ≠ [])
    (same : vs.map (·.lexeme) = parts.flatten) :
    ∃ u ∈ vs.head?, u.lexeme.startsFragment = true := by
  cases areFragments with
  | nil => exact absurd rfl nonempty
  | cons isFragment _ =>
    obtain ⟨l, ls, rfl, starts⟩ := isFragment.head
    obtain ⟨u, us, rfl, rfl, -⟩ := List.map_eq_cons_iff.mp same
    exact ⟨u, rfl, starts⟩

/-- A fragment is read again wherever its tokens stand. -/
theorem IsFragment.exists_located {f : FragmentDefinition} {part : List Lexeme}
    (isFragment : IsFragment f part) {us vs : List Token} (readable : t.IsReadable)
    (tokens : t.tokens = us ++ vs) (same : us.map (·.lexeme) = part) (fits : t.tokens.length < m) :
    ∃ d next, located m t = .ok (d, next) ∧ d.definition = .fragment f ∧ next.IsReadable ∧
      next.tokens = vs := by
  obtain ⟨size, s, used, next, readableSource, takes, rfl, ran⟩ := isFragment
  have agrees : Seam.Agrees ⟨next.tokens, vs, m⟩ s t :=
    ⟨⟨used, us, takes.tokens, tokens, same.symm⟩, readableSource, readable, fits⟩
  have firm : Firm ⟨next.tokens, vs, m⟩ true (fragment size) (fragment m) := firm_fragment
  rcases firm.frame.goes agrees ran with ⟨next', ran', after⟩ | lost
  · obtain ⟨left, left', isNext, isNext', alike⟩ := after.shared
    obtain rfl : left = [] := List.append_left_eq_self.mp isNext.symm
    obtain rfl : left' = [] := List.map_eq_nil_iff.mp alike.symm
    obtain ⟨d, isFragment, found⟩ := Parser.exists_located readable (definition_of_fragment readable ran').1
    exact ⟨d, next', found, isFragment, after.readable', isNext'⟩
  · exact absurd lost (Nat.lt_irrefl _)

/-! ### Definitions one behind the other -/

theorem definitionsFrom_last {d : Located} (found : located m t = .ok (d, next))
    (readable : next.IsReadable) (done : next.tokens = []) :
    definitionsFrom m (fuel + 1) t = .ok ([d], next) := by
  obtain ⟨x, peeked⟩ := exists_peek readable
  obtain ⟨-, -, isEnd⟩ := (tokens_of_peek readable.isSound peeked).resolve_left
    fun ⟨ts, isCons⟩ => by rw [done] at isCons; cases isCons
  unfold definitionsFrom
  rw [bind_of_ok found, bind_of_ok peeked, if_pos isEnd]
  rfl

theorem definitionsFrom_cons {d : Located} {ds : List Located} {final : Cursor}
    (found : located m t = .ok (d, next)) {u : Token} (isHead : u ∈ next.tokens.head?)
    (noEnd : u.lexeme ≠ .eof) (more : definitionsFrom m fuel next = .ok (ds, final)) :
    definitionsFrom m (fuel + 1) t = .ok (d :: ds, final) := by
  obtain ⟨us, isCons⟩ := List.head?_eq_some_iff.mp isHead
  have peeked : peek next = .ok (u, next) := by
    unfold peek
    rw [isCons]
  unfold definitionsFrom
  rw [bind_of_ok found, bind_of_ok peeked, if_neg noEnd, bind_of_ok more]
  rfl

/-- Fragments are read one after the other. -/
theorem definitionsFrom_fragments {fs : List FragmentDefinition} {parts : List (List Lexeme)}
    (areFragments : List.Forall₂ IsFragment fs parts) (nonempty : fs ≠ []) (readable : t.IsReadable)
    (tokens : t.tokens.map (·.lexeme) = parts.flatten) (fits : t.tokens.length < m)
    (le : t.tokens.length ≤ fuel) :
    ∃ ds final, definitionsFrom m fuel t = .ok (ds, final) ∧
      ds.map (·.definition) = fs.map .fragment := by
  induction areFragments generalizing t fuel with
  | nil => exact absurd rfl nonempty
  | @cons f part fs parts isFragment areFragments ih =>
    rw [List.flatten_cons] at tokens
    obtain ⟨us, vs, isTokens, same, behind⟩ := List.map_eq_append_iff.mp tokens
    obtain ⟨d, next, found, isDefinition, readableNext, isNext⟩ :=
      isFragment.exists_located readable isTokens same fits
    have fewer : next.tokens.length < t.tokens.length := by
      obtain ⟨l, ls, isCons, -⟩ := isFragment.head
      have positive := congrArg List.length (same.trans isCons)
      rw [List.length_map, List.length_cons] at positive
      rw [isNext, isTokens, List.length_append]
      omega
    obtain ⟨fuel, rfl⟩ := Nat.exists_eq_add_one.mpr (Nat.lt_of_le_of_lt (Nat.zero_le _)
      (Nat.lt_of_lt_of_le fewer le))
    cases areFragments with
    | nil =>
      have done : next.tokens = [] := isNext.trans (List.map_eq_nil_iff.mp behind)
      exact ⟨[d], next, definitionsFrom_last found readableNext done, by rw [List.map, isDefinition]; rfl⟩
    | @cons g part' fs parts isFragment' areFragments =>
      rw [← isNext] at behind
      have le' : next.tokens.length ≤ fuel := by omega
      obtain ⟨ds, final, more, definitions⟩ :=
        ih (List.cons_ne_nil _ _) readableNext behind (Nat.lt_trans fewer fits) le'
      obtain ⟨u, isHead, starts⟩ :=
        exists_head_fragments (.cons isFragment' areFragments) (List.cons_ne_nil _ _) behind
      refine ⟨d :: ds, final,
        definitionsFrom_cons found isHead (Lexeme.of_startsFragment starts).2 more, ?_⟩
      rw [List.map_cons, isDefinition, definitions]
      rfl

/-- A definition is read again in front of other tokens. -/
theorem located_append {k : Seam} (quiet : k.IsQuiet) (alone : k.rest = [])
    (agrees : k.Agrees s t) {first : Located} (found : located size s = .ok (first, next)) :
    ∃ d next', located k.size t = .ok (d, next') ∧ d.definition = first.definition ∧
      k.Agrees next next' ∧ next'.tokens.length < t.tokens.length := by
  have firm : Firm k true (definition size) (definition k.size) := firm_definition fun _ => quiet
  have ran := definition_of_located found
  -- With nothing behind the seam, no reader can have gone beyond it.
  obtain ⟨next', ran', agrees'⟩ := (firm.frame.goes agrees ran).resolve_right fun lost => by
    rw [Seam.IsLost, alone] at lost
    exact Nat.not_lt_zero _ lost
  obtain ⟨d, isDefinition, found'⟩ := Parser.exists_located agrees.readable' ran'
  refine ⟨d, next', found', isDefinition, agrees', ?_⟩
  have lt := firm.consumes agrees.readable ran
  have before := agrees.length
  have behind := agrees'.length
  omega

/-- The definitions of a text are read again in front of other ones, and then the others. -/
theorem definitionsFrom_append {k : Seam} (quiet : k.IsQuiet) (alone : k.rest = [])
    (behind : ∃ u ∈ k.rest'.head?, u.lexeme ≠ .eof) {fuel' : Nat} {ds : List Located}
    (agrees : k.Agrees s t) (noEnd : ∀ u ∈ s.tokens, u.lexeme ≠ .eof)
    (ran : definitionsFrom size fuel s = .ok (ds, next)) (le : t.tokens.length ≤ fuel') :
    ∃ ds' fuel'' t', t'.IsReadable ∧ t'.tokens = k.rest' ∧ k.rest'.length ≤ fuel'' ∧
      ds'.map (·.definition) = ds.map (·.definition) ∧
      ∀ more final, definitionsFrom k.size fuel'' t' = .ok (more, final) →
        definitionsFrom k.size fuel' t = .ok (ds' ++ more, final) := by
  induction fuel generalizing s t ds fuel' with
  | zero =>
    obtain ⟨_, _, -, ran⟩ := bind_ok ran
    cases ran
  | succ fuel ih =>
    obtain ⟨first, middle, found, ran⟩ := bind_ok ran
    obtain ⟨x, _, peeked, ran⟩ := bind_ok ran
    cases peek_ok peeked
    obtain ⟨d, middle', found', isDefinition, agrees', fewer⟩ :=
      located_append quiet alone agrees found
    obtain ⟨fuel', rfl⟩ := Nat.exists_eq_add_one.mpr (Nat.lt_of_le_of_lt (Nat.zero_le _)
      (Nat.lt_of_lt_of_le fewer le))
    have le' : middle'.tokens.length ≤ fuel' := by omega
    have noEndMiddle : ∀ u ∈ middle.tokens, u.lexeme ≠ .eof := by
      obtain ⟨used, takes, -⟩ := reads_located agrees.readable.isSound found
      exact fun u member => noEnd u (by rw [takes.tokens]; exact List.mem_append_right _ member)
    obtain ⟨us, us', tokens, tokens', alike⟩ := agrees'.shared
    rw [alone, List.append_nil] at tokens
    have ahead := tokens_of_peek agrees'.readable.isSound peeked
    split at ran
    · rename_i isEnd
      cases ran
      have done : us = [] := by
        rcases ahead with ⟨ts, isCons⟩ | ⟨isNil, -, -⟩
        · exact absurd isEnd (noEndMiddle x (by rw [isCons]; exact .head _))
        · exact tokens.symm.trans isNil
      subst done
      obtain rfl : us' = [] := List.map_eq_nil_iff.mp alike.symm
      rw [List.nil_append] at tokens'
      obtain ⟨u, isHead, notEnd⟩ := behind
      refine ⟨[d], fuel', middle', agrees'.readable', tokens', tokens' ▸ le', ?_, ?_⟩
      · rw [List.map, List.map, isDefinition]
        rfl
      · intro more final ran'
        exact definitionsFrom_cons found' (tokens' ▸ isHead) notEnd ran'
    · rename_i notEnd
      obtain ⟨others, _, ranOthers, ran⟩ := bind_ok ran
      cases ran
      obtain ⟨ds', fuel'', t', readable, isRest, room, same, goesOn⟩ :=
        ih agrees' noEndMiddle ranOthers le'
      obtain ⟨ts, isCons⟩ := ahead.resolve_right fun atEnd => notEnd atEnd.2.2
      rw [tokens.symm.trans isCons] at alike
      obtain ⟨u', ts', rfl, isLexeme, -⟩ := List.map_eq_cons_iff.mp alike.symm
      refine ⟨d :: ds', fuel'', t', readable, isRest, room, ?_, fun more final ran' => ?_⟩
      · rw [List.map_cons, List.map_cons, isDefinition, same]
      · exact definitionsFrom_cons found' (by rw [tokens']; rfl) (fun isEnd => notEnd (isLexeme.symm.trans isEnd))
          (goesOn more final ran')

end Parser

/-! ### Texts -/

/-- A fragment of a parsed text is read from the tokens that lie in it. -/
theorem isFragment_of_mem {text : List Char} {document : Document} {f : FragmentDefinition}
    (parsed : parse text = .ok document) {d : Located} (member : d ∈ document.definitions)
    (isFragment : d.definition = .fragment f) :
    Parser.IsFragment f ((d.tokens text).map (·.lexeme)) := by
  obtain ⟨-, ⟨t, ends⟩, areRead⟩ := isReadAs_of_parse parsed
  obtain ⟨size, s, next, ending, takes, found⟩ := (areRead d member).ran
  have readable : s.IsReadable := ⟨t, ending.trans ends, eof_of_ending_lexFrom ends⟩
  have ran := Parser.definition_of_located found
  rw [isFragment] at ran
  exact ⟨size, s, d.tokens text, next, readable, takes, rfl, Parser.findsFragment_definition ran⟩

/-- What lies between the ends of a definition says what its tokens say. -/
theorem isText_slice {text : List Char} {document : Document} (parsed : parse text = .ok document)
    {d : Located} (member : d ∈ document.definitions) :
    IsText ((Span.mk d.start d.stop).slice text) ((d.tokens text).map (·.lexeme)) := by
  obtain ⟨tokens, ⟨t, ends⟩, areRead⟩ := isReadAs_of_parse parsed
  obtain ⟨-, starts, stops⟩ := (areRead d member).spelled
  obtain ⟨first, more, isCons⟩ : ∃ first more, d.tokens text = first :: more := by
    obtain ⟨first, isHead, -⟩ := Option.map_eq_some_iff.mp starts
    exact ⟨first, List.head?_eq_some_iff.mp isHead⟩
  obtain ⟨before, after, parts⟩ := List.append_of_mem member
  have whole := lexes_lexFrom ends
  rw [show (lexFrom 0 0 text).tokens = _ from tokens, parts, List.map_append, List.map_cons,
    List.flatten_append, List.flatten_cons, isCons, List.cons_append] at whole
  obtain ⟨used, behind, isText, -, reads, -⟩ := whole.split
  obtain ⟨gap, inner, rfl, isStart, reads⟩ := reads.skipGap
  rw [← List.cons_append, ← isCons] at reads
  obtain ⟨own, rest, rfl, reads, -, isStop⟩ := reads.split
  have start : first.start = d.start := by
    rw [isCons] at starts
    exact Option.some.inj starts
  have stop : lastStop first.start (d.tokens text) = d.stop := by
    rw [lastStop, stops]
    rfl
  have isSlice : (Span.mk d.start d.stop).slice text = own := by
    have parts : text = (used ++ gap) ++ (own ++ rest) := by rw [isText, List.append_assoc]
    rw [Span.slice, parts, List.drop_left' (by rw [List.length_append]; dsimp only; omega),
      List.take_left' (by dsimp only; omega)]
  rw [isSlice]
  exact reads.isText

theorem isText_trim {text : List Char} {document : Document} (parsed : parse text = .ok document) :
    IsText (Text.trim text) ((lex text).tokens.map (·.lexeme)) := by
  obtain ⟨-, ⟨t, ends⟩, -⟩ := isReadAs_of_parse parsed
  have whole : Lexes [] 0 text (lex text).tokens := lexes_lexFrom ends
  obtain ⟨offset, trimmed⟩ := whole.trim
  exact trimmed.isText

/-- A text that says what another text and some fragments say is parsed to the definitions of the
text and then the fragments. -/
theorem parse_of_isText {text source : List Char} {document : Document}
    {fs : List FragmentDefinition} {parts : List (List Lexeme)} (parsed : parse text = .ok document)
    (areFragments : List.Forall₂ Parser.IsFragment fs parts) (nonempty : fs ≠ [])
    (isText : IsText source ((lex text).tokens.map (·.lexeme) ++ parts.flatten)) :
    ∃ joined, parse source = .ok joined ∧
      joined.definitions.map (·.definition) =
        document.definitions.map (·.definition) ++ fs.map .fragment := by
  obtain ⟨ts, stop, isLex, lexemes⟩ := isText.exists_lex
  obtain ⟨us, vs, rfl, same, behind⟩ := List.map_eq_append_iff.mp lexemes
  obtain ⟨-, ⟨t, ends⟩, -⟩ := isReadAs_of_parse parsed
  unfold parse at parsed
  dsimp only at parsed
  cases ran : Parser.definitionsFrom ((lex text).tokens.length + 1) ((lex text).tokens.length + 1)
      ⟨(lex text).tokens, (lex text).ending, 0⟩ with
  | error e => rw [ran] at parsed; cases parsed
  | ok result =>
    rw [ran] at parsed
    cases parsed
    let k : Seam := ⟨[], vs, (us ++ vs).length + 1⟩
    have agrees : k.Agrees ⟨(lex text).tokens, (lex text).ending, 0⟩
        ⟨us ++ vs, .ok ⟨.eof, stop, stop⟩, 0⟩ :=
      { shared := ⟨(lex text).tokens, us, (List.append_nil _).symm, rfl, same.symm⟩
        readable := ⟨t, ends, eof_of_ending_lexFrom ends⟩
        readable' := ⟨_, rfl, rfl⟩
        fits := Nat.lt_succ_self _ }
    obtain ⟨u, isHead, starts⟩ := Parser.exists_head_fragments areFragments nonempty behind
    obtain ⟨quiet, notEnd⟩ := Lexeme.of_startsFragment starts
    have isQuiet : k.IsQuiet := by
      rintro v (member | member)
      · cases member
      · cases isHead.symm.trans member
        exact quiet
    obtain ⟨ds, fuel, t', readable, tokens, room, definitions, goesOn⟩ :=
      Parser.definitionsFrom_append isQuiet rfl ⟨u, isHead, notEnd⟩ agrees
        (fun v member => ne_eof_of_mem_lexFrom member) ran (Nat.le_succ _)
    have fits : t'.tokens.length < k.size := by
      change _ < (us ++ vs).length + 1
      rw [show t'.tokens = vs from tokens, List.length_append]
      omega
    obtain ⟨more, final, ranMore, fragments⟩ := Parser.definitionsFrom_fragments areFragments nonempty
      readable (tokens ▸ behind) fits (tokens ▸ room)
    refine ⟨⟨ds ++ more⟩, ?_, by rw [List.map_append, definitions, fragments]⟩
    unfold parse
    rw [isLex]
    dsimp only
    rw [goesOn more final ranMore]
    rfl

end InlineQuery.Query
