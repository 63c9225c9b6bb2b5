import InlineQuery.Proofs.Lens.Lookup
import InlineQuery.Proofs.Query.Names
import InlineQuery.Proofs.Text.Lines

/-!
The lenses of a line. The first literal on a line that holds operations gives the lens of the line,
and a name is looked up at its start only.
-/

namespace InlineQuery

namespace Literal

variable {text : List Char} {language : Language} {a b : Literal} {line : Int}

/-- A literal has a part on a line. Lines count from zero. -/
def Spans (literal : Literal) (line : Int) : Prop :=
  (literal.startPos.1 : Int) ≤ line ∧ line ≤ literal.stopPos.1

instance (literal : Literal) (line : Int) : Decidable (literal.Spans line) :=
  inferInstanceAs (Decidable (_ ∧ _))

theorem exists_ofSpan_of_mem (member : a ∈ literals text language) :
    ∃ span tag interpolations, a = ofSpan text (.ofText text) span tag interpolations := by
  cases language with
  | javascript =>
    obtain ⟨e, found, isLiteral⟩ := List.mem_filterMap.mp member
    obtain ⟨t, -, reported⟩ := List.mem_filterMap.mp found
    cases e with
    | skipped _ _ => cases isLiteral
    | found _ =>
      cases isLiteral
      obtain ⟨stop, -, rfl, -⟩ := Template.eq_ofSpan_of_extraction? reported
      exact ⟨_, _, _, rfl⟩
  | graphql =>
    rw [literals_graphql] at member
    obtain ⟨span, -, rfl⟩ := List.mem_map.mp member
    exact ⟨_, _, _, rfl⟩
  | unknown => cases member

/-- A literal that holds another spans all of its lines. -/
theorem Spans.of_isWithin (outer : a ∈ literals text language) (inner : b ∈ literals text language)
    (within : b.IsWithin a) (spans : b.Spans line) : a.Spans line := by
  have starts := within.start_lt
  have ends : b.stop ≤ a.stop := by
    cases language with
    | javascript => exact Nat.le_of_lt ((isTemplateOf_of_mem outer).stop_lt_of_isWithin within)
    | graphql =>
      rw [literals_graphql] at outer
      obtain ⟨span, -, rfl⟩ := List.mem_map.mp outer
      obtain ⟨_, none_, _⟩ := within
      cases none_
    | unknown => cases outer
  obtain ⟨_, _, _, rfl⟩ := exists_ofSpan_of_mem outer
  obtain ⟨_, _, _, rfl⟩ := exists_ofSpan_of_mem inner
  obtain ⟨low, high⟩ := spans
  have earlier := LineIndex.position_le (.ofText text) (Nat.le_of_lt starts)
  have later := LineIndex.position_le (.ofText text) ends
  simp only [Spans, ofSpan] at *
  omega

end Literal

namespace OperationIndex

variable {index : OperationIndex} {entry : IndexEntry} {line : Int}

/-- The first entry on a line that holds operations. -/
def entryOnLine? (index : OperationIndex) (line : Int) : Option IndexEntry :=
  index.entries.find? fun e => decide (e.literal.Spans line) && !e.operations.isEmpty

/-- Some entry on a line holds an operation of a name. -/
def HoldsOnLine (index : OperationIndex) (line : Int) (name : String) : Prop :=
  ∃ e ∈ index.entries, e.literal.Spans line ∧ ∃ op ∈ e.operations, op.name = some name

instance (index : OperationIndex) (line : Int) (name : String) :
    Decidable (index.HoldsOnLine line name) :=
  inferInstanceAs (Decidable (∃ e ∈ index.entries, _))

/-- The first entry on a line that holds operations holds one of a name, and none of that name belongs
to a literal that ends where the entry starts. -/
def ReachesOnLine (index : OperationIndex) (line : Int) (name : String) : Prop :=
  ∃ entry ∈ index.entryOnLine? line, (∃ op ∈ entry.operations, op.name = some name) ∧
    ∀ e ∈ index.entries, e.literal.start < entry.literal.start →
      e.literal.stop = entry.literal.start → ∀ op ∈ e.operations, op.name ≠ some name

instance (index : OperationIndex) (line : Int) (name : String) :
    Decidable (index.ReachesOnLine line name) :=
  inferInstanceAs (Decidable (∃ entry ∈ index.entryOnLine? line, _))

/-- No other entry on the line that holds operations starts so early. -/
theorem entryOnLine?_some (ordered : index.entries.Pairwise fun a b => a.literal.Precedes b.literal)
    (first : index.entryOnLine? line = some entry) :
    entry ∈ index.entries ∧ entry.literal.Spans line ∧ entry.operations ≠ [] ∧
      ∀ e ∈ index.entries, e.literal.start ≤ entry.literal.start → e.literal.Spans line →
        e.operations ≠ [] → e = entry := by
  obtain ⟨holds, before, after, split, none_⟩ := List.find?_eq_some_iff_append.mp first
  rw [split] at ordered ⊢
  simp only [Bool.and_eq_true, decide_eq_true_eq, Bool.not_eq_true', List.isEmpty_eq_false_iff] at holds
  refine ⟨by simp, holds.1, holds.2, ?_⟩
  intro e within starts spans more
  rcases List.mem_append.mp within with earlier | itself | later
  · have other := none_ e earlier
    simp [spans, more] at other
  · rfl
  · have behind := (List.pairwise_cons.mp (List.pairwise_append.mp ordered).2.1).1 e ‹_›
    have lt := behind.start_lt
    omega

end OperationIndex

namespace LensSet

variable {document : SourceDocument} {set : LensSet} {entry : IndexEntry} {line : Int}

/-- The index of a set is made from the literals of the document, and linked or not. -/
theorem exists_ofLiterals (made : ofDocument document = .ok set) : ∃ plain,
    OperationIndex.ofLiterals (literals document.text document.language) = .ok plain ∧
      (set.index = plain ∨ set.index = plain.link) := by
  unfold ofDocument indexOf at made
  cases each : OperationIndex.ofLiterals (literals document.text document.language) with
  | error e => rw [each] at made; cases made
  | ok plain =>
    rw [each] at made
    cases made
    refine ⟨plain, rfl, ?_⟩
    dsimp only
    split
    · exact .inr rfl
    · exact .inl rfl

theorem literal_mem_of_ofDocument (made : ofDocument document = .ok set)
    (within : entry ∈ set.index.entries) :
    entry.literal ∈ literals document.text document.language := by
  obtain ⟨plain, each, isPlain⟩ := exists_ofLiterals made
  have same : set.index.entries.map (·.literal) = plain.entries.map (·.literal) := by
    rcases isPlain with isPlain | isPlain
    · rw [isPlain]
    · rw [isPlain, plain.literals_entries_link]
  refine (OperationIndex.literals_entries_sublist each).1.subset ?_
  rw [← same]
  exact List.mem_map_of_mem within

theorem hasNames_ofDocument (made : ofDocument document = .ok set) : set.index.HasNames := by
  obtain ⟨plain, each, isPlain | isPlain⟩ := exists_ofLiterals made
  · rw [isPlain]
    exact OperationIndex.hasNames_ofLiterals each
  · rw [isPlain]
    exact (OperationIndex.hasNames_ofLiterals each).link

/-- The lens of a line is that of the first operation of its first entry. -/
theorem lensAtLine_of_entry (made : ofDocument document = .ok set)
    (first : set.index.entryOnLine? line = some entry) : ∃ op ∈ entry.operations,
      set.lensAtLine line = some (.ofOperation document.uri (1 < entry.operations.length) op) := by
  obtain ⟨indexed, lenses⟩ := isIndexed_ofDocument made
  obtain ⟨holds, before, after, split, none_⟩ := List.find?_eq_some_iff_append.mp first
  simp only [Bool.and_eq_true, decide_eq_true_eq, Bool.not_eq_true', List.isEmpty_eq_false_iff] at holds
  obtain ⟨op, ops, isCons⟩ := List.exists_cons_of_ne_nil holds.2
  have isFirst : op ∈ entry.operations := by simp [isCons]
  have literal : op.literal = entry.literal :=
    (indexed.counted entry (split ▸ by simp)).literal_eq isFirst
  have earlier : (before.flatMap (ofEntry document.uri)).find? (fun a =>
      (a.operation.literal.startPos.1 : Int) ≤ line && line ≤ a.operation.literal.stopPos.1) = none := by
    refine List.find?_eq_none.mpr fun lens offered spans => ?_
    obtain ⟨e, isEarlier, offered⟩ := List.mem_flatMap.mp offered
    obtain ⟨other, member, rfl⟩ := List.mem_map.mp offered
    have own := (indexed.counted e (split ▸ List.mem_append_left _ isEarlier)).literal_eq member
    have rejected := none_ e isEarlier
    have onLine : e.literal.Spans line := by
      simpa [Lens.ofOperation, own, Literal.Spans] using spans
    simp [onLine, List.ne_nil_of_mem member] at rejected
  refine ⟨op, isFirst, ?_⟩
  have onLine : ((op.literal.startPos.1 : Int) ≤ line && line ≤ op.literal.stopPos.1) = true := by
    rw [literal]
    simpa [Literal.Spans] using holds.1
  unfold lensAtLine
  rw [lenses, split, List.flatMap_append, List.find?_append, earlier, Option.none_or, List.flatMap_cons,
    ofEntry, isCons, List.map_cons, List.cons_append]
  exact List.find?_cons_of_pos onLine

/-- A name is found at the start of the first entry on a line, in a literal on that line, exactly if the
line reaches it. -/
theorem operationAt_line_iff (made : ofDocument document = .ok set)
    (first : set.index.entryOnLine? line = some entry) (name : String) :
    (∃ op, set.operationAt entry.literal.start (some name) = some op ∧ op.literal.Spans line) ↔
      set.index.ReachesOnLine line name := by
  obtain ⟨indexed, -⟩ := isIndexed_ofDocument made
  obtain ⟨within, spans, -, alone⟩ := OperationIndex.entryOnLine?_some indexed.ordered first
  have nonempty := indexed.nonempty entry within
  have finds {op : Operation} (member : op ∈ entry.operations) (named : op.name = some name) :=
    OperationIndex.operationAt_start_iff indexed.ordered indexed.counted within nonempty member
      (Or.inr named : op.Answers (some name))
  constructor
  · rintro ⟨op, found, onLine⟩
    have lookup := found
    rw [operationAt, OperationIndex.operationAt_natCast] at lookup
    obtain ⟨e, isAround, picked⟩ := List.exists_of_findSome?_eq_some lookup
    obtain ⟨inIndex, holds⟩ := List.mem_filter.mp isAround
    have member := OperationIndex.pick_mem picked
    have named : op.name = some name :=
      (OperationIndex.pick_answers picked).resolve_left (by simp)
    obtain rfl : e = entry := by
      refine alone e inIndex (Literal.contains_eq_true_iff.mp holds).1 ?_ (List.ne_nil_of_mem member)
      rwa [← (indexed.counted e inIndex).literal_eq member]
    refine ⟨e, first, ⟨op, member, named⟩, fun f inIndex' starts stops other isOther same => ?_⟩
    exact ((finds member named).mp found).2 f inIndex' (.inr ⟨starts, stops⟩) other isOther (.inr same)
  · rintro ⟨other, isFirst, ⟨op, member, named⟩, apart⟩
    cases first.symm.trans isFirst
    obtain ⟨own, picked⟩ : ∃ own, OperationIndex.pick entry.operations (some name) = some own := by
      refine Option.ne_none_iff_exists'.mp fun absent => ?_
      exact OperationIndex.pick_eq_none_iff.mp absent op member (.inr named)
    have isOwn := OperationIndex.pick_mem picked
    have ownName : own.name = some name :=
      (OperationIndex.pick_answers picked).resolve_left (by simp)
    refine ⟨own, (finds isOwn ownName).mpr ⟨picked, ?_⟩, ?_⟩
    · rintro e inIndex (inner | ⟨starts, stops⟩) other isOther answers
      · -- What holds the entry is on the line as well, and would come first.
        have alsoSpans : e.literal.Spans line :=
          spans.of_isWithin (literal_mem_of_ofDocument made inIndex)
            (literal_mem_of_ofDocument made within) inner
        have starts := inner.start_lt
        obtain rfl := alone e inIndex (Nat.le_of_lt starts) alsoSpans (List.ne_nil_of_mem isOther)
        omega
      · exact apart e inIndex starts stops other isOther (answers.resolve_left (by simp))
    · rwa [(indexed.counted entry within).literal_eq isOwn]

end LensSet

end InlineQuery
