import InlineQuery.Literal.Scan
import InlineQuery.Proofs.Definitions.Order
import InlineQuery.Proofs.Definitions.Splitting
import InlineQuery.Proofs.Literal.Shift

/-!
Two GraphQL documents one behind the other, the first of which ends with a block: the tokens of each
are cut as if it stood alone, and at the seam the splitter is as it is at the start of a document.
-/

namespace InlineQuery

open Literal (isIdent isGap lineRest)

namespace Definitions

/-! ### The end of the text -/

theorem token_le_length (c : Char) (rest : List Char) :
    (token c rest).2 ≤ rest.length ∧
      ((token c rest).1 = .unterminated → (token c rest).2 = rest.length) := by
  unfold token
  split
  · split
    · rename_i opens
      have two := congrArg List.length (eq_of_beq opens)
      simp only [List.length_take, List.length_cons, List.length_nil] at two
      cases closes : blockStringRest '"' (rest.drop 2) with
      | none => exact ⟨Nat.le_refl _, fun _ => rfl⟩
      | some n =>
        have le := blockStringRest_le_length closes
        rw [List.length_drop] at le
        exact ⟨by dsimp only; omega, nofun⟩
    · exact ⟨stringRest_le_length rest, nofun⟩
  · split
    · exact ⟨(List.takeWhile_prefix _).length_le, nofun⟩
    · exact ⟨Nat.zero_le _, nofun⟩

/-- Tokens lie in the text, and nothing follows a block string without an end. -/
theorem stop_of_mem_tokensFrom {offset skip : Nat} {text : List Char} {t : Token}
    (member : t ∈ tokensFrom offset skip text) :
    t.stop ≤ offset + text.length ∧ (t.kind = .unterminated → t.stop = offset + text.length) := by
  induction text generalizing offset skip with
  | nil => cases member
  | cons c rest ih =>
    have later {skip : Nat} (member : t ∈ tokensFrom (offset + 1) skip rest) :
        t.stop ≤ offset + (c :: rest).length ∧
          (t.kind = .unterminated → t.stop = offset + (c :: rest).length) := by
      rw [List.length_cons, Nat.add_comm rest.length, ← Nat.add_assoc]
      exact ih member
    cases skip with
    | succ skip => exact later member
    | zero =>
      unfold tokensFrom at member
      dsimp only at member
      split at member
      · exact later member
      · split at member
        · exact later member
        · rcases List.mem_cons.mp member with rfl | inRest
          · obtain ⟨le, whole⟩ := token_le_length c rest
            rw [List.length_cons]
            exact ⟨by dsimp only; omega, fun isUnterminated => by
              have same := whole isUnterminated
              dsimp only
              omega⟩
          · exact later inRest

theorem run_bounded {bound : Nat} {ts : List Token} (inside : ∀ t ∈ ts, t.stop ≤ bound)
    {s : Split} (current : ∀ d, s.current = some d → d.stop ≤ bound) :
    ∀ span ∈ (s.run ts).filterMap Piece.span?, span.stop ≤ bound := by
  induction ts generalizing s with
  | nil =>
    intro span member
    unfold Split.run Split.finish at member
    split at member
    · cases member
    · rename_i d atCurrent
      split at member
      · cases member
      · obtain rfl := List.mem_singleton.mp member
        exact current d atCurrent
  | cons t ts ih =>
    obtain ⟨first, rest⟩ := List.forall_mem_cons.mp inside
    unfold Split.run
    split
    · intro span member
      cases member
    rw [List.filterMap_append]
    have joins (old : Option Current) (closes : Bool) : (extended old closes t).stop ≤ bound := first
    have next : ∀ d, (s.step t).1.current = some d → d.stop ≤ bound := by
      intro d atNext
      rcases s.step_cases t with ⟨-, isNone | ⟨closes, isNext⟩⟩ | ⟨-, -, -, isNone | ⟨closes, isNext⟩⟩
      · cases isNone.symm.trans atNext
      · cases isNext.symm.trans atNext
        exact joins _ _
      · cases isNone.symm.trans atNext
      · cases isNext.symm.trans atNext
        exact joins _ _
    intro span member
    rcases List.mem_append.mp member with reported | later
    · rcases s.step_cases t with ⟨nothing, -⟩ | ⟨d, atCurrent, one, -⟩
      · rw [nothing] at reported
        cases reported
      · rw [one] at reported
        cases List.mem_singleton.mp reported
        exact current d atCurrent
    · exact ih rest next span later

/-- The definitions of a document lie in it. -/
theorem pieces_bounded (text : List Char) :
    ∀ span ∈ (pieces text).filterMap Piece.span?, span.stop ≤ text.length := by
  refine run_bounded (fun t member => ?_) nofun
  have le := (stop_of_mem_tokensFrom member).1
  omega

/-! ### Tokens of two texts -/

theorem stringRest_append_of_lt {text : List Char} (closes : stringRest text < text.length)
    (more : List Char) : stringRest (text ++ more) = stringRest text := by
  fun_induction stringRest text with
  | case1 => exact absurd closes (Nat.lt_irrefl 0)
  | case2 => exact absurd closes (Nat.lt_irrefl 1)
  | case3 d r ih =>
    simp only [List.length_cons] at closes
    simp only [List.cons_append, stringRest, ih (by omega)]
  | case4 c r one two ends =>
    rw [List.cons_append, stringRest, if_pos ends]
    · rintro rfl
      cases ends
    · rintro _ _ rfl
      cases ends
  | case5 c r one two ends ih =>
    simp only [List.length_cons] at closes
    rw [List.cons_append, stringRest, if_neg ends, ih (by omega)]
    · rintro rfl
      exact fun isNil => one rfl (List.append_eq_nil_iff.mp isNil).1
    · rintro d rest rfl
      cases r with
      | nil => exact fun _ => one rfl rfl
      | cons e r => exact fun _ => two e r rfl rfl

theorem blockStringRest_append {previous : Char} {text : List Char} {n : Nat}
    (closes : blockStringRest previous text = some n) (more : List Char) :
    blockStringRest previous (text ++ more) = some n := by
  fun_induction blockStringRest previous text generalizing n with
  | case1 r ih =>
    obtain ⟨m, inner, rfl⟩ := Option.map_eq_some_iff.mp closes
    simp [blockStringRest, ih inner]
  | case2 previous r free => simpa [blockStringRest, free] using closes
  | case3 previous c r notQuotes ih =>
    obtain ⟨m, inner, rfl⟩ := Option.map_eq_some_iff.mp closes
    -- Too little is left here for what is appended to complete three quotes.
    have stillNot (r' : List Char) (isQuote : c = '"') : r ++ more ≠ '"' :: '"' :: r' := by
      intro quotes
      match r with
      | [] => cases inner
      | [d] => simp [blockStringRest] at inner
      | d :: e :: r =>
        rw [List.cons_append, List.cons_append, List.cons.injEq, List.cons.injEq] at quotes
        obtain ⟨rfl, rfl, -⟩ := quotes
        exact notQuotes r isQuote rfl
    rw [List.cons_append, blockStringRest, ih inner]
    · rfl
    · exact stillNot
  | case4 => cases closes

/-- A token that does not reach the end of a text is not longer when the text goes on. -/
theorem token_append {c : Char} {rest : List Char}
    (settled : (∃ d, (token c rest).1 = .mark d) ∨ (token c rest).2 < rest.length)
    (after : List Char) : token c (rest ++ '\n' :: after) = token c rest := by
  unfold token at settled ⊢
  cases isQuote : c == '"' with
  | false =>
    have word : (rest ++ '\n' :: after).takeWhile isIdent = rest.takeWhile isIdent :=
      takeWhile_stop (by decide) rest after
    simp only [Bool.false_eq_true, if_false, word]
  | true =>
    rw [isQuote] at settled
    simp only [if_true] at settled ⊢
    cases opens : rest.take 2 == ['"', '"'] with
    | true =>
      match rest, eq_of_beq opens with
      | _ :: _ :: rest, rfl =>
        cases closes : blockStringRest '"' rest with
        | none => simp [closes] at settled
        | some n =>
          have longer := blockStringRest_append closes ('\n' :: after)
          simp [closes, longer]
    | false =>
      rw [opens] at settled
      have notOpens : ((rest ++ '\n' :: after).take 2 == ['"', '"']) = false := by
        match rest with
        | [] => simp
        | [d] => simp
        | d :: e :: rest => simpa using opens
      have short : stringRest rest < rest.length := by simpa using settled
      simp only [notOpens, Bool.false_eq_true, if_false, stringRest_append_of_lt short]

theorem lineRest_append (rest after : List Char) :
    lineRest (rest ++ '\n' :: after) = lineRest rest := by
  rw [lineRest, lineRest, takeWhile_stop (by simp)]

/-- No string that runs to the end of the text, where what follows could be taken into it. -/
def IsSettled (bound : Nat) (ts : List Token) : Prop :=
  ∀ t ∈ ts, (∃ c, t.kind = .mark c) ∨ t.stop < bound

theorem tokensFrom_join {offset skip : Nat} {before : List Char} (fits : skip ≤ before.length)
    (settled : IsSettled (offset + before.length) (tokensFrom offset skip before))
    (after : List Char) :
    tokensFrom offset skip (before ++ '\n' :: after) =
      tokensFrom offset skip before ++ tokensFrom (offset + before.length + 1) 0 after := by
  induction before generalizing offset skip with
  | nil =>
    obtain rfl := Nat.le_zero.mp fits
    rfl
  | cons c rest ih =>
    have place : offset + (c :: rest).length = offset + 1 + rest.length := by
      rw [List.length_cons]
      omega
    rw [place] at settled ⊢
    cases skip with
    | succ skip => exact ih (Nat.le_of_succ_le_succ fits) settled
    | zero =>
      rw [List.cons_append]
      cases gap : isGap c || c == ',' with
      | true =>
        simp only [tokensFrom, gap, if_true] at settled ⊢
        exact ih (Nat.zero_le _) settled
      | false =>
        cases hash : c == '#' with
        | true =>
          simp only [tokensFrom, gap, hash, Bool.false_eq_true, if_false, if_true,
            lineRest_append] at settled ⊢
          exact ih (List.takeWhile_prefix _).length_le settled
        | false =>
          rw [tokensFrom_cons ⟨gap, hash⟩] at settled ⊢
          obtain ⟨first, later⟩ := List.forall_mem_cons.mp settled
          have short : (token c rest).2 < rest.length ∨ ∃ d, (token c rest).1 = .mark d :=
            first.symm.imp_left fun lt => by
              dsimp only at lt
              omega
          rw [token_append short.symm, tokensFrom_cons ⟨gap, hash⟩, List.cons_append,
            ih (token_le_length c rest).1 later]

/-! ### Tokens further on -/

def Token.shift (n : Nat) (t : Token) : Token := ⟨t.kind, n + t.start, n + t.stop⟩

theorem tokensFrom_shift (n offset skip : Nat) (text : List Char) :
    tokensFrom (n + offset) skip text = (tokensFrom offset skip text).map (.shift n) := by
  induction text generalizing offset skip with
  | nil => rfl
  | cons c rest ih =>
    cases skip with
    | succ skip => exact ih (offset + 1) skip
    | zero =>
      unfold tokensFrom
      dsimp only
      split
      · exact ih (offset + 1) 0
      · split
        · exact ih (offset + 1) _
        · rw [List.map_cons, ← ih (offset + 1), Nat.add_assoc n]
          simp only [Token.shift, Nat.add_assoc]

def Current.shift (n : Nat) (d : Current) : Current :=
  { d with start := n + d.start, stop := n + d.stop }

def Split.shift (n : Nat) (s : Split) : Split := { s with current := s.current.map (.shift n) }

def Piece.shift (n : Nat) : Piece → Piece
  | definition span => definition (span.shift n)
  | skipped reason offset => skipped reason (n + offset)

theorem extended_shift (n : Nat) (current : Option Current) (closes : Bool) (t : Token) :
    extended (current.map (.shift n)) closes (t.shift n) = (extended current closes t).shift n := by
  cases current <;> rfl

theorem Split.ended_shift (s : Split) (n : Nat) (kind : Kind) :
    (s.shift n).ended kind = (s.ended kind).map (.shift n) := Option.filter_map ..

theorem Split.joined_shift (s : Split) (n : Nat) (kind : Kind) :
    (s.shift n).joined kind = (s.joined kind).map (.shift n) := by
  rw [joined, joined, ended_shift, Option.isSome_map]
  split <;> rfl

theorem Split.reported_shift (s : Split) (n : Nat) (kind : Kind) :
    (s.shift n).reported kind = (s.reported kind).map (.shift n) := by
  rw [reported, reported, ended_shift]
  cases s.ended kind <;> rfl

theorem Split.step_shift (s : Split) (n : Nat) (t : Token) :
    (s.shift n).step (t.shift n) = ((s.step t).1.shift n, (s.step t).2.map (.shift n)) := by
  have reported := s.reported_shift n t.kind
  have joins (depth : Nat) (closes extending : Bool) :
      (⟨depth, some (extended ((s.shift n).joined t.kind) closes (t.shift n)), extending⟩ : Split) =
        Split.shift n ⟨depth, some (extended (s.joined t.kind) closes t), extending⟩ := by
    rw [joined_shift, extended_shift]
    rfl
  obtain ⟨kind, first, last⟩ := t
  cases kind with
  | mark c =>
    unfold step
    dsimp only [Token.shift]
    split
    · exact Prod.ext (joins _ false _) reported
    · split
      · have depth : (s.shift n).depth = s.depth := rfl
        rw [depth]
        split
        · have cut (d : Option Current) : (((d.map (Current.shift n)).filter (·.hasBody)).map
              fun d => Piece.definition d.span).toList =
                ((d.filter (·.hasBody)).map fun d => Piece.definition d.span).toList.map
                  (.shift n) := by
            rw [Option.filter_map, Option.map_map, ← Option.toList_map, Option.map_map]
            rfl
          refine Prod.ext rfl ?_
          have joined := s.joined_shift n (.mark c)
          unfold Split.joined at joined
          unfold Split.reported at reported
          dsimp only at reported ⊢
          rw [reported, joined, cut, List.map_append, List.map_append]
          rfl
        · exact Prod.ext (joins _ _ _) reported
      · exact Prod.ext (joins _ false _) reported
  | _ => exact Prod.ext (joins _ false _) reported

theorem Split.finish_shift (s : Split) (n : Nat) :
    (s.shift n).finish = s.finish.map (.shift n) := by
  obtain ⟨depth, current, extending⟩ := s
  cases current with
  | none => rfl
  | some d => cases depth <;> rfl

theorem Split.run_shift (s : Split) (n : Nat) (ts : List Token) :
    (s.shift n).run (ts.map (.shift n)) = (s.run ts).map (.shift n) := by
  induction ts generalizing s with
  | nil => exact s.finish_shift n
  | cons t ts ih =>
    have sameKind : (t.shift n).kind = t.kind := rfl
    rw [List.map_cons, run, run, sameKind]
    split
    · obtain ⟨depth, current, extending⟩ := s
      cases current <;> rfl
    · rw [step_shift]
      dsimp only
      rw [ih, List.map_append]

/-! ### The seam -/

/-- The state behind some tokens that can all be read. -/
def Split.after (s : Split) (ts : List Token) : Split := ts.foldl (fun s t => (s.step t).1) s

/-- What is reported up to then. -/
def Split.found (s : Split) : List Token → List Piece
  | [] => []
  | t :: ts => (s.step t).2 ++ (s.step t).1.found ts

theorem Split.run_append {ts : List Token} (readable : ∀ t ∈ ts, t.kind ≠ .unterminated)
    (s : Split) (us : List Token) : s.run (ts ++ us) = s.found ts ++ (s.after ts).run us := by
  induction ts generalizing s with
  | nil => rfl
  | cons t ts ih =>
    obtain ⟨first, rest⟩ := List.forall_mem_cons.mp readable
    rw [List.cons_append, run, if_neg first]
    dsimp only
    rw [ih rest, found, List.append_assoc]
    rfl

/-- The last token of a document closes a pair of braces outside all other brackets. -/
def ClosesBlock (text : List Char) : Prop :=
  ∃ ts t, tokens text = ts ++ [t] ∧ t.kind = .mark '\x7d' ∧ (Split.start.after ts).depth = 1

/-- A word that starts a definition, or the brace before the selections of a query without one. -/
def Kind.begins : Kind → Bool
  | word chars => keywords.contains chars
  | mark c => c == '\x7b'
  | _ => false

def BeginsDefinition (text : List Char) : Prop :=
  ∃ t ts, tokens text = t :: ts ∧ t.kind.begins = true

theorem exists_step_closing {s : Split} {t : Token} (isMark : t.kind = .mark '\x7d')
    (inside : s.depth = 1) : ∃ first, s.step t = (within 0 first t.stop true false, []) := by
  obtain ⟨depth, current, extending⟩ := s
  obtain ⟨kind, start, stop⟩ := t
  cases isMark
  cases inside
  have notEnded : Split.ended ⟨1, current, extending⟩ (.mark '\x7d') = none :=
    Option.filter_eq_none_iff.mpr fun d _ => by simp
  refine ⟨(current.getD ⟨start, stop, false, false⟩).start, ?_⟩
  simp [Split.step, notEnded, Literal.openBracket, Literal.closeBracket, extended, within]

/-- Behind a block a definition is read as at the start of a document. -/
theorem run_beginning {first last : Nat} {t : Token} (begins : t.kind.begins = true)
    (ts : List Token) : (within 0 first last true false).run (t :: ts) =
      .definition ⟨first, last⟩ :: Split.start.run (t :: ts) := by
  obtain ⟨kind, start, stop⟩ := t
  cases kind with
  | word chars =>
    have starts : startsDefinition false ⟨first, last, true, true⟩ (.word chars) = true := by
      rw [startsDefinition, Bool.not_false, Bool.and_true]
      exact begins
    rw [run_starting rfl starts, run_plain (isPlain_word _ _ _)]
    rfl
  | mark c =>
    obtain rfl : c = '\x7b' := eq_of_beq begins
    rw [run_open_starting, run_open rfl]
    rfl
  | _ => cases begins

/-- Only the last token of a text can reach its end, and only one that reaches it is unterminated. -/
theorem stop_lt_of_mem {before : List Char} {ts : List Token} {t : Token}
    (isTokens : tokens before = ts ++ [t]) :
    ∀ u ∈ ts, u.stop < before.length ∧ u.kind ≠ .unterminated := by
  have ordered := areOrdered_tokensFrom 0 0 before
  rw [← tokens, isTokens] at ordered
  have bounded (u : Token) (member : u ∈ ts ++ [t]) : u.stop ≤ 0 + before.length ∧
      (u.kind = .unterminated → u.stop = 0 + before.length) :=
    stop_of_mem_tokensFrom (by rwa [← tokens, isTokens])
  intro u member
  have apart := (List.pairwise_append.mp ordered.apart).2.2 u member t (List.mem_singleton_self t)
  have isLast := List.mem_append_right ts (List.mem_singleton_self t)
  have width := ordered.start_lt t isLast
  have bound := (bounded t isLast).1
  refine ⟨by omega, fun isUnterminated => ?_⟩
  have whole := (bounded u (List.mem_append_left _ member)).2 isUnterminated
  omega

/-- Behind a mark at the end of a line the tokens of the next lines are those that they have alone. -/
theorem tokens_append {before : List Char} {ts : List Token} {t : Token} {c : Char}
    (isTokens : tokens before = ts ++ [t]) (isMark : t.kind = .mark c) (after : List Char) :
    tokens (before ++ '\n' :: after) =
      ts ++ t :: (tokens after).map (.shift (before.length + 1)) := by
  have settled : IsSettled (0 + before.length) (tokensFrom 0 0 before) := by
    rw [← tokens, isTokens]
    intro u member
    rcases List.mem_append.mp member with early | isLast
    · exact .inr (by rw [Nat.zero_add]; exact (stop_lt_of_mem isTokens u early).1)
    · exact .inl ⟨_, List.mem_singleton.mp isLast ▸ isMark⟩
  rw [tokens, tokensFrom_join (Nat.zero_le _) settled, ← tokens, isTokens, List.append_assoc,
    Nat.zero_add, ← Nat.add_zero (before.length + 1), tokensFrom_shift]
  rfl

theorem pieces_append {before after : List Char} (closes : ClosesBlock before)
    (begins : BeginsDefinition after) :
    pieces (before ++ '\n' :: after) =
      pieces before ++ (pieces after).map (.shift (before.length + 1)) := by
  obtain ⟨ts, t, isTokens, isMark, inside⟩ := closes
  have readable (u : Token) (member : u ∈ ts) : u.kind ≠ .unterminated :=
    (stop_lt_of_mem isTokens u member).2
  have readableMark : t.kind ≠ .unterminated := by
    rw [isMark]
    nofun
  obtain ⟨first, closed⟩ := exists_step_closing isMark inside
  obtain ⟨u, us, isAfter, begins⟩ := begins
  have moved : Split.start.run ((u :: us).map (.shift (before.length + 1))) =
      (Split.start.run (u :: us)).map (.shift (before.length + 1)) :=
    Split.run_shift .start (before.length + 1) (u :: us)
  have begun : (within 0 first t.stop true false).run
      ((u :: us).map (.shift (before.length + 1))) = .definition ⟨first, t.stop⟩ ::
        Split.start.run ((u :: us).map (.shift (before.length + 1))) :=
    run_beginning (t := u.shift (before.length + 1)) begins _
  rw [pieces, tokens_append isTokens isMark, pieces, pieces, isTokens, Split.run_append readable,
    Split.run_append readable, Split.run, if_neg readableMark, Split.run, if_neg readableMark,
    closed, isAfter]
  dsimp only
  rw [begun, moved, List.append_assoc]
  rfl

/-- Every piece of a document is found in it as it is in a longer one. -/
theorem extraction_before {text : List Char} {piece : Piece} (member : piece ∈ pieces text)
    (after : List Char) : piece.extraction (text ++ after) (.ofText (text ++ after)) =
      piece.extraction text (.ofText text) := by
  cases piece with
  | skipped => rfl
  | definition span =>
    have isSpan : span ∈ (pieces text).filterMap Piece.span? :=
      List.mem_filterMap.mpr ⟨_, member, rfl⟩
    have ordered := (pieces_ordered text).1 span isSpan
    exact congrArg Extraction.found (Literal.ofSpan_before (Nat.le_of_lt ordered)
      (pieces_bounded text span isSpan) after)

theorem extraction_behind {before : List Char} (feeds : before.getLast? = some '\n')
    (after : List Char) (piece : Piece) :
    (piece.shift before.length).extraction (before ++ after) (.ofText (before ++ after)) =
      (piece.extraction after (.ofText after)).shift before.length (before.count '\n') := by
  cases piece with
  | skipped => rfl
  | definition span => exact congrArg Extraction.found (Literal.ofSpan_behind feeds after span)

/-- A document that ends with a block and one that begins with a definition are scanned as if each
stood alone. -/
theorem scan_graphql_append {before after : List Char} (closes : ClosesBlock before)
    (begins : BeginsDefinition after) :
    scan (before ++ '\n' :: after) .graphql = scan before .graphql ++
      (scan after .graphql).map (.shift (before.length + 1) (before.count '\n' + 1)) := by
  have feeds : (before ++ ['\n']).getLast? = some '\n' := List.getLast?_concat
  have length : (before ++ ['\n']).length = before.length + 1 := List.length_append
  have lines : (before ++ ['\n']).count '\n' = before.count '\n' + 1 := List.count_append
  have text : before ++ '\n' :: after = before ++ ['\n'] ++ after := by simp
  have behind := extraction_behind feeds after
  rw [length, lines, ← text] at behind
  rw [scan, scan, scan, pieces_append closes begins, List.map_append, List.map_map, List.map_map]
  rw [List.map_congr_left fun piece member => extraction_before member ('\n' :: after)]
  exact congrArg _ (List.map_congr_left fun piece _ => behind piece)

theorem scan_graphql_append_selections :
    ClosesBlock "query A \x7ba\x7d".toList ∧ BeginsDefinition "# B\n\x7bb\x7d".toList ∧
      scan ("query A \x7ba\x7d".toList ++ '\n' :: "# B\n\x7bb\x7d".toList) .graphql =
        scan "query A \x7ba\x7d".toList .graphql ++
          (scan "# B\n\x7bb\x7d".toList .graphql).map (.shift 12 1) := by
  have closes : ClosesBlock "query A \x7ba\x7d".toList :=
    ⟨[⟨.word "query".toList, 0, 5⟩, ⟨.word "A".toList, 6, 7⟩, ⟨.mark '\x7b', 8, 9⟩,
      ⟨.word "a".toList, 9, 10⟩], ⟨.mark '\x7d', 10, 11⟩, by decide, rfl, by decide⟩
  have begins : BeginsDefinition "# B\n\x7bb\x7d".toList :=
    ⟨⟨.mark '\x7b', 4, 5⟩, [⟨.word "b".toList, 5, 6⟩, ⟨.mark '\x7d', 6, 7⟩], by decide,
      rfl⟩
  exact ⟨closes, begins, scan_graphql_append closes begins⟩

end Definitions
end InlineQuery
