import InlineQuery.Proofs.Definitions.Tokens
import InlineQuery.Proofs.Query.Document
import InlineQuery.Proofs.Query.Locality
import InlineQuery.Text.Space

/-!
Reading a piece of a text before the rest of it. The rest stands in the judgement, since a token is
only read in front of what is behind it. So pieces can be joined, cut between tokens and moved.
-/

namespace InlineQuery.Query

open Text (isSpace)

/-! ### Characters -/

/-- The characters that tokens start or end with but for those of names. -/
def signs : List Char :=
  ['!', '$', '&', '(', ')', '+', '-', '.', ':', '=', '@', '[', '{', '|', '}', ']', '"']

/-- The characters that a token may start or end with. -/
def isSolid (c : Char) : Bool := isNamePart c || signs.contains c

/-- Names are made of ASCII letters, digits and underscores. -/
theorem bounds_of_isNamePart {c : Char} (part : isNamePart c = true) :
    ((65 ≤ c.toNat ∧ c.toNat ≤ 90) ∨ (97 ≤ c.toNat ∧ c.toNat ≤ 122) ∨
      (48 ≤ c.toNat ∧ c.toNat ≤ 57)) ∨ c = '_' := by
  change (((decide ((65 : UInt32) ≤ c.val ∧ c.val ≤ 90) ||
    (decide ((97 : UInt32) ≤ c.val) && decide (c.val ≤ 122))) ||
    (decide ((48 : UInt32) ≤ c.val) && decide (c.val ≤ 57))) || c == '_') = true at part
  simp only [Bool.or_eq_true, Bool.and_eq_true, decide_eq_true_eq, beq_iff_eq,
    UInt32.le_iff_toNat_le] at part
  rcases part with ((upper | lower) | digit) | score
  · exact .inl (.inl upper)
  · exact .inl (.inr (.inl lower))
  · exact .inl (.inr (.inr digit))
  · exact .inr score

theorem isSpace_of_isSolid {c : Char} (solid : isSolid c = true) : isSpace c = false := by
  simp only [isSolid, Bool.or_eq_true, List.contains_iff_mem] at solid
  rcases solid with part | sign
  · rcases bounds_of_isNamePart part with part | rfl
    · simp only [isSpace, Bool.or_eq_false_iff, Bool.and_eq_false_iff, decide_eq_false_iff_not,
        beq_eq_false_iff_ne]
      omega
    · decide
  · have none : (signs.all fun c => !isSpace c) = true := by decide
    simpa using List.all_eq_true.mp none c sign

theorem isSolid_of_isIgnored {c : Char} (ignored : isIgnored c = true) : isSolid c = false := by
  simp only [isIgnored, Bool.or_eq_true, beq_iff_eq] at ignored
  rcases ignored with ((((rfl | rfl) | rfl) | rfl) | rfl) | rfl <;> decide

theorem isSolid_of_isDigit {c : Char} (digit : c.isDigit = true) : isSolid c = true := by
  simp [isSolid, isNamePart, Char.isAlphanum, digit]

theorem isSolid_of_isNamePart {c : Char} (part : isNamePart c = true) : isSolid c = true := by
  rw [isSolid, part, Bool.true_or]

theorem isSolid_of_isNumeric {c : Char} (numeric : isNumeric c = true) : isSolid c = true := by
  simp only [isNumeric, Bool.or_eq_true, beq_iff_eq] at numeric
  rcases numeric with ((((digit | rfl) | rfl) | rfl) | rfl) | rfl
  · exact isSolid_of_isDigit digit
  all_goals decide

theorem isSolid_of_ofChar {c : Char} {p : Punctuator} (isMark : Punctuator.ofChar? c = some p) :
    isSolid c = true := by
  unfold Punctuator.ofChar? at isMark
  split at isMark <;> first | rfl | cases isMark

/-! ### The ends of a token -/

theorem exists_of_take_two {text : List Char} {a b : Char} (two : text.take 2 = [a, b]) :
    ∃ rest, text = a :: b :: rest := by
  match text, two with
  | _ :: _ :: rest, rfl => exact ⟨rest, rfl⟩

theorem quote_of_blockBody {skip n : Nat} {text : List Char} {lines : List (List Char)}
    (closes : blockBody skip text = some (lines, n)) : text[n - 1]? = some '"' := by
  induction text generalizing skip lines n with
  | nil => cases closes
  | cons c rest ih =>
    rcases blockBody_cases closes with ⟨-, -, isQuotes, rfl⟩ | ⟨ahead, more, m, ran, rfl, -⟩
    · obtain ⟨rest, rfl⟩ := exists_of_take_two isQuotes
      rfl
    · have least := le_of_blockBody ran
      rw [show m + 1 - 1 = (m - 1) + 1 by omega, List.getElem?_cons_succ]
      exact ih ran

theorem quote_of_stringBody {distance skip stop : Nat} {text cs : List Char}
    (closes : stringBody distance skip text = .ok (cs, stop)) :
    text[stop - distance]? = some '"' := by
  induction text generalizing distance skip cs with
  | nil => cases closes
  | cons c rest ih =>
    rcases stringBody_cases closes with ⟨-, rfl, rfl⟩ | ⟨ahead, more, ran, -⟩
    · rw [Nat.sub_self]
      rfl
    · have least := le_of_stringBody ran
      rw [show stop - distance = (stop - (distance + 1)) + 1 by omega, List.getElem?_cons_succ]
      exact ih ran

/-- Tokens start and end with solid characters. -/
theorem IsLexeme.isSolid {c : Char} {rest : List Char} {read : Lexeme} {n : Nat}
    (isLexeme : IsLexeme c rest read n) :
    Query.isSolid c = true ∧ ∃ d, (c :: rest)[n]? = some d ∧ Query.isSolid d = true := by
  have isQuoteEnd {m : Nat} (isQuote : c = '"') (ends : (c :: rest)[m]? = some '"') :
      Query.isSolid c = true ∧ ∃ d, (c :: rest)[m]? = some d ∧ Query.isSolid d = true :=
    ⟨by rw [isQuote]; decide, '"', ends, by decide⟩
  cases isLexeme with
  | mark isMark =>
    have solid := isSolid_of_ofChar isMark
    exact ⟨solid, c, rfl, solid⟩
  | spread isDot isSpread =>
    obtain ⟨rest, rfl⟩ := exists_of_take_two isSpread
    exact ⟨by rw [isDot]; decide, '.', rfl, by decide⟩
  | @blockString _ n isQuote opens closes =>
    obtain ⟨x, ran, rfl⟩ := Option.map_eq_some_iff.mp closes
    have least := le_of_blockBody ran
    have isLast := quote_of_blockBody ran
    rw [List.getElem?_drop] at isLast
    refine isQuoteEnd isQuote ?_
    rwa [List.getElem?_cons_succ, show x.2 + 1 = 2 + (x.2 - 1) by omega]
  | string isQuote single closes =>
    cases ran : stringBody 1 0 rest with
    | error e => rw [ran] at closes; cases closes
    | ok x =>
      rw [ran] at closes
      cases closes
      have least := le_of_stringBody ran
      have isLast := quote_of_stringBody ran
      refine isQuoteEnd isQuote ?_
      dsimp only
      rwa [show x.2 = (x.2 - 1) + 1 by omega, List.getElem?_cons_succ]
  | number isNumber isNumeral =>
    obtain ⟨numeric, ⟨d, isLast, isDigit⟩, le⟩ := isNumeral
    refine ⟨isSolid_of_isNumeric (numeric c (by simp)), d, ?_, isSolid_of_isDigit isDigit⟩
    rw [List.getLast?_eq_getElem?, List.length_take, Nat.min_eq_left le] at isLast
    rwa [List.getElem?_take_of_lt (by omega)] at isLast
  | name isStart =>
    have first := Definitions.isNamePart_of_isNameStart isStart
    have word : c :: rest = (c :: rest.takeWhile isNamePart) ++ rest.dropWhile isNamePart := by
      rw [List.cons_append, List.takeWhile_append_dropWhile]
    have parts : ∀ d ∈ c :: rest.takeWhile isNamePart, isNamePart d = true :=
      List.forall_mem_cons.mpr ⟨first, List.all_eq_true.mp List.all_takeWhile⟩
    have within : (rest.takeWhile isNamePart).length < (c :: rest.takeWhile isNamePart).length :=
      Nat.lt_succ_self _
    refine ⟨isSolid_of_isNamePart first, _, ?_, isSolid_of_isNamePart
      (parts _ (List.getElem_mem within))⟩
    conv_lhs => rw [word]
    rw [List.getElem?_append_left within, List.getElem?_eq_getElem within]

theorem isSolid_of_lexeme {c : Char} {own after : List Char} {read : Lexeme}
    (isLexeme : lexeme c (own ++ after) = .ok (read, own.length)) : isSolid c = true :=
  (isLexeme_of_lexeme isLexeme).isSolid.1

theorem isSolid_getLast {c : Char} {own after : List Char} {read : Lexeme}
    (isLexeme : lexeme c (own ++ after) = .ok (read, own.length)) :
    ∀ d ∈ (c :: own).getLast?, isSolid d = true := by
  obtain ⟨-, d, isLast, solid⟩ := (isLexeme_of_lexeme isLexeme).isSolid
  intro e isLast'
  rw [← List.cons_append, List.getElem?_append_left (by simp)] at isLast
  rw [List.getLast?_eq_getElem?, List.length_cons, Nat.add_sub_cancel] at isLast'
  cases isLast.symm.trans isLast'
  exact solid

/-! ### Pieces of a text -/

/-- Reading `used` in front of `rest`, from an offset on, gives the tokens and ends behind `used`. -/
inductive Lexes (rest : List Char) : Nat → List Char → List Token → Prop
  | nil {offset : Nat} : Lexes rest offset [] []
  | ignored {offset : Nat} {c : Char} {used : List Char} {tokens : List Token}
      (isIgnored : isIgnored c = true) (more : Lexes rest (offset + 1) used tokens) :
      Lexes rest offset (c :: used) tokens
  | comment {offset : Nat} {body used : List Char} {tokens : List Token}
      (inside : ∀ c ∈ body, isLineEnd c = false)
      (ends : (used ++ rest).head?.any (fun c => !isLineEnd c) = false)
      (more : Lexes rest (offset + 1 + body.length) used tokens) :
      Lexes rest offset ('#' :: (body ++ used)) tokens
  | token {offset : Nat} {c : Char} {own used : List Char} {read : Lexeme} {tokens : List Token}
      (isLexeme : lexeme c (own ++ (used ++ rest)) = .ok (read, own.length))
      (more : Lexes rest (offset + 1 + own.length) used tokens) :
      Lexes rest offset (c :: (own ++ used)) (⟨read, offset, offset + 1 + own.length⟩ :: tokens)

/-- What a comment holds behind its sign. -/
def commentOf (text : List Char) : List Char := text.takeWhile fun c => !isLineEnd c

theorem isLineEnd_of_mem_commentOf {text : List Char} : ∀ c ∈ commentOf text, isLineEnd c = false :=
  fun c member => by simpa using List.all_eq_true.mp (List.all_takeWhile (l := text)) c member

theorem commentOf_append {body after : List Char} (inside : ∀ c ∈ body, isLineEnd c = false)
    (ends : after.head?.any (fun c => !isLineEnd c) = false) : commentOf (body ++ after) = body := by
  rw [commentOf, List.takeWhile_append_of_pos (by simpa using inside)]
  cases after with
  | nil => simp
  | cons c after =>
    have nothing : (c :: after).takeWhile (fun c => !isLineEnd c) = [] :=
      List.takeWhile_cons_of_neg (Bool.eq_false_iff.mp ends)
    rw [nothing, List.append_nil]

theorem any_head?_dropWhile (p : Char → Bool) (text : List Char) :
    (text.dropWhile p).head?.any p = false := by
  have stops := List.head?_dropWhile_not p text
  split at stops
  · rename_i isHead
    rw [isHead]
    exact stops
  · rename_i isHead
    rw [isHead]
    rfl

/-- A text without a fault is read to its end. -/
theorem lexes_lexFrom {offset : Nat} {text : List Char} {t : Token}
    (ends : (lexFrom offset 0 text).ending = .ok t) :
    Lexes [] offset text (lexFrom offset 0 text).tokens := by
  induction length : text.length using Nat.strongRecOn generalizing offset text with
  | ind size ih =>
    subst length
    cases text with
    | nil => exact .nil
    | cons c text =>
      -- A token or a comment takes several characters, so that induction on the text itself is of
      -- no use behind it.
      have later {skip : Nat} (le : skip ≤ text.length)
          (ends : (lexFrom (offset + 1) skip text).ending = .ok t) :
          Lexes [] (offset + 1 + skip) (text.drop skip) (lexFrom (offset + 1) skip text).tokens := by
        rw [lexFrom_skip le] at ends ⊢
        exact ih _ (by rw [List.length_drop, List.length_cons]; omega) ends rfl
      rw [lexFrom] at ends ⊢
      split at ends
      · rename_i ignored
        rw [if_pos ignored]
        exact .ignored ignored (ih _ (Nat.lt_succ_self _) ends rfl)
      · rename_i notIgnored
        rw [if_neg notIgnored]
        split at ends
        · rename_i isHash
          rw [if_pos isHash, eq_of_beq isHash]
          have more := later (List.takeWhile_prefix _).length_le ends
          rw [Definitions.drop_length_takeWhile] at more
          have whole : Lexes [] offset ('#' :: (commentOf text ++ text.dropWhile _)) _ :=
            .comment isLineEnd_of_mem_commentOf
              (by rw [List.append_nil]; exact any_head?_dropWhile _ text) more
          rwa [commentOf, List.takeWhile_append_dropWhile] at whole
        · rename_i notHash
          rw [if_neg notHash]
          split at ends
          · cases ends
          · rename_i read n isLexeme
            have le := Definitions.le_length_of_isLexeme (isLexeme_of_lexeme isLexeme)
            have more := later le ends
            obtain ⟨own, used, rfl, rfl⟩ : ∃ own used, text = own ++ used ∧ own.length = n :=
              ⟨text.take n, text.drop n, (List.take_append_drop _ _).symm, List.length_take_of_le le⟩
            rw [List.drop_left] at more
            exact .token (by rwa [List.append_nil]) more

namespace Lexes

variable {rest rest' first second used : List Char} {offset : Nat} {ts us : List Token}

theorem lexFrom_eq (lexes : Lexes [] offset used ts) :
    ∃ stop, lexFrom offset 0 used = ⟨ts, .ok ⟨.eof, stop, stop⟩⟩ := by
  induction lexes with
  | nil => exact ⟨_, rfl⟩
  | ignored isIgnored _ ih =>
    obtain ⟨stop, reads⟩ := ih
    exact ⟨stop, by rw [lexFrom, if_pos isIgnored, reads]⟩
  | @comment offset body used ts inside ends _ ih =>
    obtain ⟨stop, reads⟩ := ih
    rw [List.append_nil] at ends
    have isBody : (body ++ used).takeWhile (fun c => !isLineEnd c) = body :=
      commentOf_append inside ends
    refine ⟨stop, ?_⟩
    rw [lexFrom, if_neg (by decide), if_pos (by rfl), isBody, lexFrom_skip (by simp),
      List.drop_left, reads]
  | @token offset c own used read ts isLexeme _ ih =>
    obtain ⟨stop, reads⟩ := ih
    have solid := isSolid_of_lexeme isLexeme
    have notIgnored : ¬ isIgnored c = true := fun ignored => by
      rw [isSolid_of_isIgnored ignored] at solid
      cases solid
    have notHash : ¬ (c == '#') = true := fun isHash => by
      rw [eq_of_beq isHash] at solid
      cases solid
    rw [List.append_nil] at isLexeme
    refine ⟨stop, ?_⟩
    rw [lexFrom, if_neg notIgnored, if_neg notHash, isLexeme]
    dsimp only
    rw [lexFrom_skip (by simp), List.drop_left, reads]

theorem append (reads : Lexes (second ++ rest) offset first ts)
    (more : Lexes rest (offset + first.length) second us) :
    Lexes rest offset (first ++ second) (ts ++ us) := by
  induction reads with
  | nil => exact more
  | @ignored offset c first ts isIgnored _ ih =>
    refine .ignored isIgnored (ih ?_)
    rwa [List.length_cons, Nat.add_comm first.length, ← Nat.add_assoc] at more
  | @comment offset body first ts inside ends _ ih =>
    rw [List.cons_append, List.append_assoc]
    refine .comment inside (by rwa [List.append_assoc]) (ih ?_)
    rwa [List.length_cons, List.length_append, Nat.add_comm _ 1, ← Nat.add_assoc,
      ← Nat.add_assoc] at more
  | @token offset c own first read ts isLexeme _ ih =>
    rw [List.cons_append, List.append_assoc]
    refine .token (by rwa [List.append_assoc]) (ih ?_)
    rwa [List.length_cons, List.length_append, Nat.add_comm _ 1, ← Nat.add_assoc,
      ← Nat.add_assoc] at more

/-- Other text may stand behind a piece. -/
theorem follows (reads : Lexes rest offset used ts) (follows : Follows rest rest') :
    Lexes rest' offset used ts := by
  induction reads with
  | nil => exact .nil
  | ignored isIgnored _ ih => exact .ignored isIgnored ih
  | comment inside ends _ ih =>
    exact .comment inside ((follows.append _).any_head? (by decide) ends) ih
  | token isLexeme _ ih => exact .token (lexeme_append isLexeme (follows.append _)) ih

/-- From another offset, a piece gives the same tokens elsewhere. -/
theorem exists_shift (reads : Lexes rest offset used ts) (offset' : Nat) :
    ∃ ts', Lexes rest offset' used ts' ∧ ts'.map (·.lexeme) = ts.map (·.lexeme) := by
  induction reads generalizing offset' with
  | nil => exact ⟨[], .nil, rfl⟩
  | ignored isIgnored _ ih =>
    obtain ⟨ts', more, same⟩ := ih (offset' + 1)
    exact ⟨ts', .ignored isIgnored more, same⟩
  | @comment _ body _ _ inside ends _ ih =>
    obtain ⟨ts', more, same⟩ := ih (offset' + 1 + body.length)
    exact ⟨ts', .comment inside ends more, same⟩
  | @token _ _ own _ read _ isLexeme _ ih =>
    obtain ⟨ts', more, same⟩ := ih (offset' + 1 + own.length)
    exact ⟨_, .token isLexeme more, congrArg (read :: ·) same⟩

theorem lastStop_cons (before before' : Nat) (t : Token) (ts : List Token) :
    lastStop before (t :: ts) = lastStop before' (t :: ts) := by
  rw [lastStop, lastStop, List.getLast?_cons]
  rfl

/-- A piece can be cut behind any of its tokens. -/
theorem split (reads : Lexes rest offset used (ts ++ us)) :
    ∃ first second, used = first ++ second ∧ Lexes (second ++ rest) offset first ts ∧
      Lexes rest (offset + first.length) second us ∧ offset + first.length = lastStop offset ts := by
  cases ts with
  | nil => exact ⟨[], used, rfl, .nil, reads, rfl⟩
  | cons t ts =>
    generalize all : t :: ts ++ us = tokens at reads
    induction reads generalizing t ts with
    | nil => cases all
    | @ignored offset c used _ isIgnored _ ih =>
      obtain ⟨first, second, rfl, reads, more, stop⟩ := ih t ts all
      rw [Nat.add_assoc, Nat.add_comm 1] at more stop
      exact ⟨c :: first, second, rfl, .ignored isIgnored reads, more, stop.trans (lastStop_cons ..)⟩
    | @comment offset body used _ inside ends _ ih =>
      obtain ⟨first, second, rfl, reads, more, stop⟩ := ih t ts all
      have length : offset + ('#' :: (body ++ first)).length =
          offset + 1 + body.length + first.length := by
        rw [List.length_cons, List.length_append]
        omega
      refine ⟨'#' :: (body ++ first), second, by simp, ?_, length ▸ more,
        length.trans (stop.trans (lastStop_cons ..))⟩
      exact .comment inside (by rwa [List.append_assoc] at ends) reads
    | @token offset c own used read _ isLexeme more ih =>
      have step (first : List Char) : offset + (c :: (own ++ first)).length =
          offset + 1 + own.length + first.length := by
        rw [List.length_cons, List.length_append]
        omega
      cases ts with
      | nil =>
        cases all
        have stop := step []
        exact ⟨c :: (own ++ []), used, by simp, .token isLexeme .nil, stop ▸ more, stop⟩
      | cons u ts =>
        obtain ⟨rfl, others⟩ := List.cons.inj all
        obtain ⟨first, second, rfl, reads, more, stop⟩ := ih u ts others
        refine ⟨c :: (own ++ first), second, by simp, ?_, step first ▸ more,
          (step first).trans (stop.trans ?_)⟩
        · exact .token (by rwa [List.append_assoc] at isLexeme) reads
        · rw [show ∀ t : Token, t :: u :: ts = [t] ++ (u :: ts) from fun _ => rfl, lastStop_append]
          exact lastStop_cons ..

/-- In front of its first token, a piece holds nothing. -/
theorem skipGap {t : Token} (reads : Lexes rest offset used (t :: ts)) :
    ∃ gap body, used = gap ++ body ∧ offset + gap.length = t.start ∧
      Lexes rest t.start body (t :: ts) := by
  generalize all : t :: ts = tokens at reads
  induction reads with
  | nil => cases all
  | @ignored offset c used _ _ _ ih =>
    obtain ⟨gap, body, rfl, starts, more⟩ := ih all
    exact ⟨c :: gap, body, rfl, by rw [List.length_cons]; omega, more⟩
  | @comment offset body used _ _ _ _ ih =>
    obtain ⟨gap, behind, rfl, starts, more⟩ := ih all
    refine ⟨'#' :: (body ++ gap), behind, by simp, ?_, more⟩
    rw [List.length_cons, List.length_append]
    omega
  | token isLexeme more _ =>
    cases all
    exact ⟨[], _, rfl, rfl, .token isLexeme more⟩

/-- White space in front of a piece belongs to no token. -/
theorem dropWhile_isSpace (reads : Lexes rest offset used ts) :
    ∃ offset', Lexes rest offset' (used.dropWhile isSpace) ts := by
  induction reads with
  | @nil offset => exact ⟨offset, .nil⟩
  | @ignored _ c _ _ isIgnored more ih =>
    cases space : isSpace c with
    | true => simpa [space] using ih
    | false => exact ⟨_, by simpa [space] using .ignored isIgnored more⟩
  | comment inside ends more _ =>
    have notSpace : isSpace '#' = false := by decide
    exact ⟨_, by simpa [notSpace] using .comment inside ends more⟩
  | token isLexeme more _ =>
    have notSpace := isSpace_of_isSolid (isSolid_of_lexeme isLexeme)
    exact ⟨_, by simpa [notSpace] using .token isLexeme more⟩

/-- A piece of white space has no tokens. -/
theorem eq_nil_of_isSpace (reads : Lexes rest offset used ts)
    (blank : ∀ c ∈ used, isSpace c = true) : ts = [] := by
  induction reads with
  | nil => rfl
  | ignored _ _ ih => exact ih (List.forall_mem_cons.mp blank).2
  | comment => exact absurd (blank '#' (.head _)) (by decide)
  | token isLexeme =>
    have space := blank _ (.head _)
    rw [isSpace_of_isSolid (isSolid_of_lexeme isLexeme)] at space
    cases space

theorem follows_of_append (kept spaces : List Char) : Follows (kept ++ spaces ++ []) (kept ++ []) := by
  rw [List.append_assoc]
  exact (Follows.empty _).append kept

/-- No white space ends a token. -/
theorem eq_nil_of_ends_token {c : Char} {own spaces after : List Char} {read : Lexeme}
    (isLexeme : lexeme c ((own ++ spaces) ++ after) = .ok (read, (own ++ spaces).length))
    (blank : ∀ c ∈ spaces, isSpace c = true) : spaces = [] := by
  by_contra some
  have isLast := List.getLast?_eq_some_getLast some
  have solid := isSolid_getLast isLexeme (spaces.getLast some) (by
    rw [← List.cons_append, List.getLast?_append, isLast]
    rfl)
  have space := blank _ (List.getLast_mem some)
  rw [isSpace_of_isSolid solid] at space
  cases space

/-- White space behind a piece belongs to no token either. -/
theorem cut_isSpace {kept spaces : List Char} (reads : Lexes [] offset (kept ++ spaces) ts)
    (blank : ∀ c ∈ spaces, isSpace c = true) : Lexes [] offset kept ts := by
  generalize all : kept ++ spaces = used at reads
  induction reads generalizing kept with
  | nil =>
    cases (List.append_eq_nil_iff.mp all).1
    exact .nil
  | @ignored offset c used ts isIgnored more ih =>
    cases kept with
    | nil =>
      obtain rfl : spaces = c :: used := all
      cases more.eq_nil_of_isSpace (List.forall_mem_cons.mp blank).2
      exact .nil
    | cons d kept =>
      obtain ⟨rfl, others⟩ := List.cons.inj all
      exact .ignored isIgnored (ih others)
  | @comment offset body used ts inside ends more ih =>
    cases kept with
    | nil =>
      obtain rfl : spaces = '#' :: (body ++ used) := all
      exact absurd (blank '#' (.head _)) (by decide)
    | cons d kept =>
      obtain ⟨rfl, others⟩ := List.cons.inj all
      rcases List.append_eq_append_iff.mp others with ⟨cut, rfl, rfl⟩ | ⟨between, rfl, rfl⟩
      · cases more.eq_nil_of_isSpace fun c member => blank c (List.mem_append_right _ member)
        have comment : Lexes [] offset ('#' :: (kept ++ [])) [] :=
          .comment (fun c member => inside c (List.mem_append_left _ member)) rfl .nil
        rwa [List.append_nil] at comment
      · exact .comment inside ((follows_of_append ..).any_head? (by decide) ends) (ih rfl)
  | @token offset c own used read ts isLexeme more ih =>
    cases kept with
    | nil =>
      obtain rfl : spaces = c :: (own ++ used) := all
      have space := blank c (.head _)
      rw [isSpace_of_isSolid (isSolid_of_lexeme isLexeme)] at space
      cases space
    | cons d kept =>
      obtain ⟨rfl, others⟩ := List.cons.inj all
      rcases List.append_eq_append_iff.mp others with ⟨cut, rfl, rfl⟩ | ⟨between, rfl, rfl⟩
      · cases more.eq_nil_of_isSpace fun c member => blank c (List.mem_append_right _ member)
        cases eq_nil_of_ends_token isLexeme fun c member => blank c (List.mem_append_left _ member)
        rw [List.append_nil] at isLexeme
        have token : Lexes [] offset (d :: (kept ++ [])) [_] :=
          .token (lexeme_append isLexeme (follows_of_append [] _)) .nil
        simpa using token
      · exact .token (lexeme_append isLexeme (follows_of_append ..)) (ih rfl)

/-- Trimming a text keeps its tokens. -/
theorem trim (reads : Lexes [] offset used ts) : ∃ offset', Lexes [] offset' (Text.trim used) ts := by
  obtain ⟨offset', inner⟩ := reads.dropWhile_isSpace
  change Lexes [] offset' (Text.trimStart used) ts at inner
  have parts : Text.trim used ++ ((Text.trimStart used).reverse.takeWhile isSpace).reverse =
      Text.trimStart used := by
    rw [Text.trim, Text.trimEnd, ← List.reverse_append, List.takeWhile_append_dropWhile,
      List.reverse_reverse]
  rw [← parts] at inner
  exact ⟨offset', inner.cut_isSpace fun c member =>
    List.all_eq_true.mp List.all_takeWhile c (List.mem_reverse.mp member)⟩

end Lexes

/-- A text without faults and what its tokens say. -/
def IsText (text : List Char) (lexemes : List Lexeme) : Prop :=
  ∃ ts, Lexes [] 0 text ts ∧ ts.map (·.lexeme) = lexemes

theorem Lexes.isText {rest used : List Char} {offset : Nat} {ts : List Token}
    (reads : Lexes rest offset used ts) : IsText used (ts.map (·.lexeme)) :=
  (reads.follows (.empty rest)).exists_shift 0

namespace IsText

variable {text first second : List Char} {lexemes us vs : List Lexeme}

theorem exists_lex (isText : IsText text lexemes) :
    ∃ ts stop, lex text = ⟨ts, .ok ⟨.eof, stop, stop⟩⟩ ∧ ts.map (·.lexeme) = lexemes := by
  obtain ⟨ts, reads, same⟩ := isText
  obtain ⟨stop, isLex⟩ := reads.lexFrom_eq
  exact ⟨ts, stop, isLex, same⟩

/-- Texts with an empty line between them. -/
theorem join (before : IsText first us) (behind : IsText second vs) :
    IsText (first ++ '\n' :: '\n' :: second) (us ++ vs) := by
  obtain ⟨ts, reads, rfl⟩ := before
  obtain ⟨ts', reads', rfl⟩ := behind
  obtain ⟨moved, reads', same⟩ := reads'.exists_shift (0 + first.length + 1 + 1)
  have gap : isIgnored '\n' = true := by decide
  refine ⟨ts ++ moved, .append ?_ (.ignored gap (.ignored gap reads')), ?_⟩
  · exact reads.follows (.feed [] _)
  · rw [List.map_append, same]

end IsText

end InlineQuery.Query
