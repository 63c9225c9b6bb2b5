import InlineQuery.Proofs.Query.Grammar
import InlineQuery.Proofs.Query.Lexing
import Mathlib.Data.List.Forall2

/-!
The tokens of a text lie one behind the other, and those of an accepted text are the tokens of its
definitions.
-/

namespace InlineQuery.Query

namespace AreOrdered

variable {bound : Nat} {ts us : List Token}

theorem append_left (ordered : AreOrdered bound (ts ++ us)) : AreOrdered bound ts where
  le_start t member := ordered.le_start t (List.mem_append_left us member)
  start_lt t member := ordered.start_lt t (List.mem_append_left us member)
  apart := (List.pairwise_append.mp ordered.apart).1

/-- What follows some tokens begins where the last of them ends or later. -/
theorem append_right (ordered : AreOrdered bound (ts ++ us)) :
    AreOrdered (lastStop bound ts) us := by
  induction ts generalizing bound with
  | nil => exact ordered
  | cons t ts ih =>
    obtain ⟨-, width, apart⟩ := ordered
    obtain ⟨behind, apart⟩ := List.pairwise_cons.mp apart
    rw [← List.singleton_append, lastStop_append]
    exact ih ⟨behind, fun u member => width u (List.mem_cons_of_mem _ member), apart⟩

theorem lt_lastStop (ordered : AreOrdered bound ts) (more : ts ≠ []) :
    bound < lastStop bound ts := by
  have last := List.getLast_mem more
  have le := ordered.le_start _ last
  have lt := ordered.start_lt _ last
  rw [lastStop, List.getLast?_eq_some_getLast more]
  exact Nat.lt_of_le_of_lt le lt

end AreOrdered

namespace Parser

/-- Tokens that are read as a definition in a text that ends in some way. -/
structure IsReadAs (ending : Except SyntaxError Token) (d : Located) (part : List Token) :
    Prop where
  spelled : IsSpelled d part
  ran : ∃ size s next, s.ending = ending ∧ s.Takes part next ∧ located size s = .ok (d, next)

/-- Definitions are read one after the other until the text ends. -/
theorem reads_definitionsFrom {size fuel : Nat} {s next : Cursor} {ds : List Located}
    (sound : s.IsSound) (ran : definitionsFrom size fuel s = .ok (ds, next)) :
    ∃ parts, s.Takes parts.flatten next ∧ List.Forall₂ (IsReadAs s.ending) ds parts ∧
      ∃ t, peek next = .ok (t, next) ∧ t.lexeme = .eof := by
  induction fuel generalizing s ds with
  | zero =>
    obtain ⟨_, _, never⟩ := Reads.unexpected (P := fun _ _ => False) sound ran
    exact never.elim
  | succ fuel ih =>
    obtain ⟨first, middle, ranFirst, ran⟩ := bind_ok ran
    obtain ⟨part, takes, spelled⟩ := reads_located sound ranFirst
    have isRead : IsReadAs s.ending first part :=
      ⟨spelled, size, s, middle, rfl, takes, ranFirst⟩
    obtain ⟨t, _, peeked, ran⟩ := bind_ok ran
    cases peek_ok peeked
    split at ran
    · cases ran
      exact ⟨[part], by simpa using takes, .cons isRead .nil, t, peeked, ‹_›⟩
    · obtain ⟨more, _, ranMore, ran⟩ := bind_ok ran
      cases ran
      obtain ⟨parts, takesMore, areRead, ends⟩ := ih (takes.isSound sound) ranMore
      rw [takes.ending] at areRead
      exact ⟨part :: parts, takes.trans takesMore, .cons isRead areRead, ends⟩

end Parser

/-- The tokens of an accepted text are those of its definitions. -/
theorem exists_parts_of_parse {text : List Char} {document : Document}
    (parsed : parse text = .ok document) :
    ∃ parts, (lex text).tokens = parts.flatten ∧ (∃ t, (lex text).ending = .ok t) ∧
      List.Forall₂ (Parser.IsReadAs (lex text).ending) document.definitions parts := by
  unfold parse at parsed
  dsimp only at parsed
  cases ran : Parser.definitionsFrom ((lex text).tokens.length + 1) ((lex text).tokens.length + 1)
      ⟨(lex text).tokens, (lex text).ending, 0⟩ with
  | error e => rw [ran] at parsed; cases parsed
  | ok result =>
    rw [ran] at parsed
    cases parsed
    have sound : Cursor.IsSound ⟨(lex text).tokens, (lex text).ending, 0⟩ :=
      fun t ends => eof_of_ending_lexFrom ends
    obtain ⟨parts, takes, areRead, t, peeked, isEnd⟩ := Parser.reads_definitionsFrom sound ran
    rcases Parser.tokens_of_peek (takes.isSound sound) peeked with ⟨ts, isCons⟩ | ⟨isNil, ends, _⟩
    · have member : t ∈ (lex text).tokens := by
        rw [show (lex text).tokens = parts.flatten ++ _ from takes.tokens, isCons]
        simp
      cases ne_eof_of_mem_lexFrom member isEnd
    · refine ⟨parts, ?_, ⟨t, takes.ending.symm.trans ends⟩, areRead⟩
      have tokens : (lex text).tokens = parts.flatten ++ _ := takes.tokens
      rw [tokens, isNil, List.append_nil]

/-- Whether a token lies in a definition. -/
def Located.spans (d : Located) (t : Token) : Bool := d.start ≤ t.start && t.stop ≤ d.stop

/-- The tokens of a text that lie in a definition. -/
def Located.tokens (d : Located) (text : List Char) : List Token :=
  (lex text).tokens.filter d.spans

theorem filter_spans {before part after : List Token} {d : Located}
    (ordered : AreOrdered 0 (before ++ (part ++ after))) (spelled : Parser.IsSpelled d part) :
    (before ++ (part ++ after)).filter d.spans = part := by
  obtain ⟨-, starts, stops⟩ := spelled
  obtain ⟨first, isFirst, start⟩ := Option.map_eq_some_iff.mp starts
  obtain ⟨last, isLast, stop⟩ := Option.map_eq_some_iff.mp stops
  obtain ⟨rest, rfl⟩ := List.head?_eq_some_iff.mp isFirst
  obtain ⟨init, ends⟩ := List.getLast?_eq_some_iff.mp isLast
  obtain ⟨-, width, apart⟩ := ordered
  obtain ⟨-, inner, outer⟩ := List.pairwise_append.mp apart
  obtain ⟨within, -, behind⟩ := List.pairwise_append.mp inner
  have none_before : before.filter d.spans = [] := by
    refine List.filter_eq_nil_iff.mpr fun t member => ?_
    have lt := width t (by simp [member])
    have le := outer t member first (by simp)
    simp only [Located.spans, Bool.and_eq_true, decide_eq_true_eq]
    omega
  have all_within : (first :: rest).filter d.spans = first :: rest := by
    refine List.filter_eq_self.mpr fun t member => ?_
    have fromStart : d.start ≤ t.start := by
      rcases List.mem_cons.mp member with rfl | later
      · omega
      · have le := (List.pairwise_cons.mp within).1 t later
        have lt := width first (by simp)
        omega
    have toStop : t.stop ≤ d.stop := by
      rw [ends] at member within
      rcases List.mem_append.mp member with earlier | isOnly
      · have le := (List.pairwise_append.mp within).2.2 t earlier last (by simp)
        have lt := width last (by simp [ends])
        omega
      · cases List.mem_singleton.mp isOnly
        omega
    simp [Located.spans, fromStart, toStop]
  have none_after : after.filter d.spans = [] := by
    refine List.filter_eq_nil_iff.mpr fun t member => ?_
    have lt := width t (by simp [member])
    have le := behind last (by rw [ends]; simp) t member
    simp only [Located.spans, Bool.and_eq_true, decide_eq_true_eq]
    omega
  rw [List.filter_append, List.filter_append, none_before, all_within, none_after, List.nil_append,
    List.append_nil]

/-- The tokens of an accepted text are those of its definitions, which are read one after the
other. -/
theorem isReadAs_of_parse {text : List Char} {document : Document}
    (parsed : parse text = .ok document) :
    (lex text).tokens = (document.definitions.map (·.tokens text)).flatten ∧
      (∃ t, (lex text).ending = .ok t) ∧
      ∀ d ∈ document.definitions, Parser.IsReadAs (lex text).ending d (d.tokens text) := by
  obtain ⟨parts, tokens, ends, areRead⟩ := exists_parts_of_parse parsed
  have ordered : AreOrdered 0 (lex text).tokens := areOrdered_lexFrom 0 0 text
  have each {ds : List Located} {after : List (List Token)} (before : List Token)
      (areRead : List.Forall₂ (Parser.IsReadAs (lex text).ending) ds after)
      (all : (lex text).tokens = before ++ after.flatten) :
      ds.map (·.tokens text) = after ∧
        ∀ d ∈ ds, Parser.IsReadAs (lex text).ending d (d.tokens text) := by
    induction areRead generalizing before with
    | nil => exact ⟨rfl, nofun⟩
    | @cons d part ds after first _ ih =>
      rw [List.flatten_cons] at all
      have own : d.tokens text = part := by
        rw [Located.tokens, all]
        exact filter_spans (all ▸ ordered) first.spelled
      obtain ⟨rest, more⟩ := ih (before ++ part) (by rw [all, List.append_assoc])
      exact ⟨by rw [List.map_cons, own, rest],
        List.forall_mem_cons.mpr ⟨own.symm ▸ first, more⟩⟩
  obtain ⟨same, each⟩ := each [] areRead tokens
  exact ⟨by rw [same, tokens], ends, each⟩

theorem tokens_of_parse {text : List Char} {document : Document}
    (parsed : parse text = .ok document) :
    (lex text).tokens = (document.definitions.map (·.tokens text)).flatten ∧
      (∃ t, (lex text).ending = .ok t) ∧
      ∀ d ∈ document.definitions, Parser.IsSpelled d (d.tokens text) := by
  obtain ⟨tokens, ends, areRead⟩ := isReadAs_of_parse parsed
  exact ⟨tokens, ends, fun d member => (areRead d member).spelled⟩

end InlineQuery.Query
