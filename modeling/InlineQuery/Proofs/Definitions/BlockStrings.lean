import InlineQuery.Literal.Definitions
import Mathlib.Data.Nat.Find
import Mathlib.Data.Nat.Init

/-!
Where a block string ends. The splitter goes from three quotes to the next and looks at the one
character in front of them. The lexical rule reads the content from its start, three quotes behind a
backslash as one piece of it. Both come to the same end, whatever backslashes and quotes stand in a
row.
-/

namespace InlineQuery.Definitions

variable {text : List Char} {i k m : Nat}

/-- Three quotes stand at an offset. -/
def QuotesAt (text : List Char) (i : Nat) : Prop := (text.drop i).take 3 = ['"', '"', '"']

instance (text : List Char) (i : Nat) : Decidable (QuotesAt text i) :=
  inferInstanceAs (Decidable (_ = _))

/-- A backslash stands at an offset, and three quotes behind it. -/
def EscapeAt (text : List Char) (i : Nat) : Prop := text[i]? = some '\\' ∧ QuotesAt text (i + 1)

/-- What stands between two offsets is content of a block string: a backslash with the three quotes
behind it is one piece of it, and so is every other character that three quotes do not start with. -/
inductive IsBlockContent (text : List Char) (i : Nat) : Nat → Prop
  | start : IsBlockContent text i i
  | escape {k : Nat} (content : IsBlockContent text i k) (escapes : EscapeAt text k) :
    IsBlockContent text i (k + 4)
  | character {k : Nat} (content : IsBlockContent text i k) (inText : k < text.length)
    (plain : ¬ EscapeAt text k) (open_ : ¬ QuotesAt text k) : IsBlockContent text i (k + 1)

/-- The end of the block string whose content starts at an offset. -/
def blockStringEnd (text : List Char) (i : Nat) : Option Nat :=
  (blockStringRest (text.getD (i - 1) '"') (text.drop i)).map (i + ·)

/-- The next three quotes from an offset on stand at another one. -/
structure AreNextQuotes (text : List Char) (i k : Nat) : Prop where
  ordered : i ≤ k
  quotes : QuotesAt text k
  first : ∀ m, i ≤ m → m < k → ¬ QuotesAt text m

/-- A search from an offset for three quotes that no backslash stands in front of. It goes on behind
those that it passes over. -/
inductive Searches (text : List Char) : Nat → Option Nat → Prop
  | nowhere {i : Nat} (none_ : ∀ m, i ≤ m → ¬ QuotesAt text m) : Searches text i none
  | found {i k : Nat} (next : AreNextQuotes text i k) (bare : text[k - 1]? ≠ some '\\') :
    Searches text i (some (k + 3))
  | further {i k : Nat} {result : Option Nat} (next : AreNextQuotes text i k)
    (escaped : text[k - 1]? = some '\\') (rest : Searches text (k + 3) result) :
    Searches text i result

/-! ### Steps -/

theorem QuotesAt.getElem? (quotes : QuotesAt text i) (within : m < 3) :
    text[i + m]? = some '"' := by
  have same : ((text.drop i).take 3)[m]? = text[i + m]? := by
    rw [List.getElem?_take_of_lt within, List.getElem?_drop]
  rw [← same, quotes]
  match m, within with
  | 0, _ | 1, _ | 2, _ => rfl

theorem QuotesAt.getElem?_last (quotes : QuotesAt text i) : text[i + 3 - 1]? = some '"' :=
  quotes.getElem? (m := 2) (by decide)

theorem QuotesAt.le_length (quotes : QuotesAt text i) : i + 3 ≤ text.length :=
  (List.getElem?_eq_some_iff.mp quotes.getElem?_last).1

theorem QuotesAt.drop_eq (quotes : QuotesAt text i) :
    text.drop i = '"' :: '"' :: '"' :: text.drop (i + 3) := by
  rw [← List.take_append_drop 3 (text.drop i), quotes, List.drop_drop]
  rfl

theorem EscapeAt.not_quotesAt (escapes : EscapeAt text i) : ¬ QuotesAt text i := by
  intro quotes
  have isQuote := quotes.getElem? (m := 0) (by decide)
  rw [Nat.add_zero, escapes.1] at isQuote
  cases isQuote

theorem blockStringEnd_of_length_le (beyond : text.length ≤ i) : blockStringEnd text i = none := by
  rw [blockStringEnd, List.drop_eq_nil_of_le beyond]
  rfl

/-- Where no three quotes stand, the search moves to the next character. -/
theorem blockStringEnd_succ (inText : i < text.length) (open_ : ¬ QuotesAt text i) :
    blockStringEnd text i = blockStringEnd text (i + 1) := by
  have previous : text.getD (i + 1 - 1) '"' = text[i] := by
    rw [Nat.add_sub_cancel, List.getD_eq_getElem?_getD, List.getElem?_eq_getElem inText,
      Option.getD_some]
  rw [QuotesAt, List.drop_eq_getElem_cons inText] at open_
  rw [blockStringEnd, blockStringEnd, List.drop_eq_getElem_cons inText, previous, blockStringRest,
    Option.map_map]
  · exact Option.map_congr fun n _ => by simp only [Function.comp_apply]; omega
  · rintro r isQuote more
    rw [isQuote, more] at open_
    exact open_ rfl

/-- Three quotes that no backslash stands in front of are the end. -/
theorem blockStringEnd_of_quotesAt (quotes : QuotesAt text i) (bare : text[i - 1]? ≠ some '\\') :
    blockStringEnd text i = some (i + 3) := by
  have previous : text.getD (i - 1) '"' ≠ '\\' := by
    rw [List.getD_eq_getElem?_getD]
    cases before : text[i - 1]? with
    | none => decide
    | some c => exact fun same => bare (before.trans (congrArg some same))
  rw [blockStringEnd, quotes.drop_eq, blockStringRest, if_neg previous]
  rfl

/-- Three quotes behind a backslash are passed over. -/
theorem blockStringEnd_of_escaped (quotes : QuotesAt text i) (escaped : text[i - 1]? = some '\\') :
    blockStringEnd text i = blockStringEnd text (i + 3) := by
  have previous : text.getD (i - 1) '"' = '\\' := by
    rw [List.getD_eq_getElem?_getD, escaped, Option.getD_some]
  have last : text.getD (i + 3 - 1) '"' = '"' := by
    rw [List.getD_eq_getElem?_getD, quotes.getElem?_last, Option.getD_some]
  rw [blockStringEnd, blockStringEnd, quotes.drop_eq, blockStringRest, if_pos previous, last,
    Option.map_map]
  exact Option.map_congr fun n _ => by simp only [Function.comp_apply]; omega

/-! ### The search -/

theorem exists_areNextQuotes (i : Nat) (quotes : QuotesAt text m) (ordered : i ≤ m) :
    ∃ k, AreNextQuotes text i k := by
  have some_ : ∃ k, i ≤ k ∧ QuotesAt text k := ⟨m, ordered, quotes⟩
  refine ⟨Nat.find some_, (Nat.find_spec some_).1, (Nat.find_spec some_).2, ?_⟩
  exact fun m le lt standing => Nat.find_min some_ lt ⟨le, standing⟩

theorem AreNextQuotes.blockStringEnd_eq (next : AreNextQuotes text i k) :
    blockStringEnd text i = blockStringEnd text k := by
  have inText : k < text.length := by
    have long := next.quotes.le_length
    omega
  refine Nat.decreasingInduction' (P := fun j => blockStringEnd text j = blockStringEnd text k)
    (fun j lt le same => ?_) next.ordered rfl
  rw [blockStringEnd_succ (by omega) (next.first j le lt), same]

theorem blockStringEnd_eq_none (none_ : ∀ m, i ≤ m → ¬ QuotesAt text m) :
    blockStringEnd text i = none := by
  by_cases beyond : text.length ≤ i
  · exact blockStringEnd_of_length_le beyond
  · refine Nat.decreasingInduction' (P := fun j => blockStringEnd text j = none)
      (fun j lt le same => ?_) (Nat.le_of_not_le beyond) (blockStringEnd_of_length_le (Nat.le_refl _))
    rw [blockStringEnd_succ lt (none_ j le), same]

theorem exists_searches (text : List Char) (i : Nat) : ∃ result, Searches text i result := by
  induction left : text.length - i using Nat.strongRecOn generalizing i with
  | ind left' ih =>
    subst left
    by_cases some_ : ∃ m, i ≤ m ∧ QuotesAt text m
    · obtain ⟨m, ordered, quotes⟩ := some_
      obtain ⟨k, next⟩ := exists_areNextQuotes i quotes ordered
      by_cases escaped : text[k - 1]? = some '\\'
      · have long := next.quotes.le_length
        have behind := next.ordered
        obtain ⟨result, rest⟩ := ih _ (by omega) (k + 3) rfl
        exact ⟨result, .further next escaped rest⟩
      · exact ⟨_, .found next escaped⟩
    · exact ⟨none, .nowhere fun m ordered quotes => some_ ⟨m, ordered, quotes⟩⟩

/-- The end is what the search comes to. -/
theorem Searches.blockStringEnd_eq {result : Option Nat} (search : Searches text i result) :
    blockStringEnd text i = result := by
  induction search with
  | nowhere none_ => exact blockStringEnd_eq_none none_
  | found next bare => rw [next.blockStringEnd_eq, blockStringEnd_of_quotesAt next.quotes bare]
  | further next escaped _ ih =>
    rw [next.blockStringEnd_eq, blockStringEnd_of_escaped next.quotes escaped, ih]

theorem searches_iff {result : Option Nat} :
    Searches text i result ↔ blockStringEnd text i = result := by
  refine ⟨Searches.blockStringEnd_eq, fun same => ?_⟩
  obtain ⟨other, search⟩ := exists_searches text i
  rwa [← same, search.blockStringEnd_eq]

/-! ### The rule -/

namespace IsBlockContent

/-- Behind content no three quotes stand that a backslash escapes. -/
theorem not_escaped (content : IsBlockContent text i k) (bare : text[i - 1]? ≠ some '\\')
    (quotes : QuotesAt text k) : text[k - 1]? ≠ some '\\' := by
  cases content with
  | start => exact bare
  | @escape k _ escapes =>
    -- The last character of an escape is a quote.
    rw [show k + 4 - 1 = k + 1 + 3 - 1 from rfl, escapes.2.getElem?_last]
    decide
  | character _ _ plain _ => exact fun backslash => plain ⟨backslash, quotes⟩

/-- The search comes to the same end from behind the content as from its start. -/
theorem blockStringEnd_eq (content : IsBlockContent text i k) :
    blockStringEnd text i = blockStringEnd text k := by
  induction content with
  | start => rfl
  | @escape k _ escapes ih =>
    have inText := (List.getElem?_eq_some_iff.mp escapes.1).1
    rw [ih, blockStringEnd_succ inText escapes.not_quotesAt,
      blockStringEnd_of_escaped escapes.2 escapes.1]
  | character _ inText _ open_ ih => rw [ih, blockStringEnd_succ inText open_]

/-- The rule reads on until three quotes end the string or the text ends. -/
theorem exists_ending (content : IsBlockContent text i k) (bound : k ≤ text.length) :
    (∃ m, IsBlockContent text i m ∧ QuotesAt text m) ∨ IsBlockContent text i text.length := by
  induction left : text.length - k using Nat.strongRecOn generalizing k with
  | ind left' ih =>
    subst left
    rcases Nat.lt_or_eq_of_le bound with inText | rfl
    · by_cases quotes : QuotesAt text k
      · exact .inl ⟨k, content, quotes⟩
      by_cases escapes : EscapeAt text k
      · exact ih _ (by omega) (content.escape escapes) escapes.2.le_length rfl
      · exact ih _ (by omega) (content.character inText escapes quotes) inText rfl
    · exact .inr content

end IsBlockContent

/-- The token that starts with three quotes goes up to the end of the block string. Without an end it
stops the splitter. -/
theorem token_of_quotesAt (opens : QuotesAt text i) :
    token '"' (text.drop (i + 1)) =
      (blockStringEnd text (i + 3)).elim (.unterminated, text.length - (i + 1))
        fun j => (.description, j - (i + 1)) := by
  have rest : text.drop (i + 1) = '"' :: '"' :: text.drop (i + 3) := by
    rw [← List.drop_drop, opens.drop_eq]
    rfl
  have last : text.getD (i + 3 - 1) '"' = '"' := by
    rw [List.getD_eq_getElem?_getD, opens.getElem?_last, Option.getD_some]
  have long := congrArg List.length rest
  rw [List.length_drop] at long
  rw [blockStringEnd, last, long, rest]
  simp only [token, beq_self_eq_true, if_true, List.take_succ_cons, List.take_zero,
    List.drop_succ_cons, List.drop_zero]
  cases closes : blockStringRest '"' (text.drop (i + 3)) with
  | none => rfl
  | some n =>
    simp only [Option.map_some, Option.elim_some, Prod.mk.injEq, true_and]
    omega

/-- Behind three quotes the splitter's search and the lexical rule come to the same end: that of the
first three quotes behind content, and to none if all that follows is content. The token goes up to
that end. -/
theorem blockStringEnd_eq_rule {o : Nat} (opens : QuotesAt text o) :
    token '"' (text.drop (o + 1)) =
        ((blockStringEnd text (o + 3)).elim (.unterminated, text.length - (o + 1))
          fun j => (.description, j - (o + 1))) ∧
      (∀ result, Searches text (o + 3) result ↔ blockStringEnd text (o + 3) = result) ∧
      (∀ j, blockStringEnd text (o + 3) = some j ↔
        ∃ k, IsBlockContent text (o + 3) k ∧ QuotesAt text k ∧ j = k + 3) ∧
      (blockStringEnd text (o + 3) = none ↔ IsBlockContent text (o + 3) text.length) := by
  have bare : text[o + 3 - 1]? ≠ some '\\' := by
    rw [opens.getElem?_last]
    decide
  have ends {k : Nat} (content : IsBlockContent text (o + 3) k) (quotes : QuotesAt text k) :
      blockStringEnd text (o + 3) = some (k + 3) := by
    rw [content.blockStringEnd_eq,
      blockStringEnd_of_quotesAt quotes (content.not_escaped bare quotes)]
  have runsOut (content : IsBlockContent text (o + 3) text.length) :
      blockStringEnd text (o + 3) = none := by
    rw [content.blockStringEnd_eq, blockStringEnd_of_length_le (Nat.le_refl _)]
  have ending := IsBlockContent.exists_ending (.start (i := o + 3)) opens.le_length
  refine ⟨token_of_quotesAt opens, fun _ => searches_iff, fun j => ⟨fun found => ?_, ?_⟩,
    fun none_ => ?_, runsOut⟩
  · rcases ending with ⟨k, content, quotes⟩ | content
    · rw [ends content quotes] at found
      exact ⟨k, content, quotes, (Option.some.inj found).symm⟩
    · rw [runsOut content] at found
      cases found
  · rintro ⟨k, content, quotes, rfl⟩
    exact ends content quotes
  · rcases ending with ⟨k, content, quotes⟩ | content
    · rw [ends content quotes] at none_
      cases none_
    · exact content

/-- Two backslashes stand in front of six quotes. The second one escapes three of them. -/
theorem blockStringEnd_eq_rule_backslashes :
    let text := "\"\"\"\\\\\"\"\"\"\"\" a".toList
    QuotesAt text 0 ∧ token '"' (text.drop 1) = (.description, 10) ∧
      blockStringEnd text 3 = some 11 ∧
      ∃ k, IsBlockContent text 3 k ∧ QuotesAt text k ∧ 11 = k + 3 := by
  intro text
  have opens : QuotesAt text 0 := by decide
  obtain ⟨whole, -, found, -⟩ := blockStringEnd_eq_rule opens
  have stops : blockStringEnd text 3 = some 11 := by decide
  rw [stops] at whole
  exact ⟨opens, whole, stops, (found 11).mp stops⟩

end InlineQuery.Definitions
