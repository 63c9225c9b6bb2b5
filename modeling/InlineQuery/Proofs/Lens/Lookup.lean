import InlineQuery.Proofs.Literal.Order
import InlineQuery.Proofs.Operation.Index
import InlineQuery.Session
import Mathlib.Data.List.Nodup

namespace InlineQuery

/-- A name that may be left out asks for an operation: any operation answers when it is left out. -/
def Operation.Answers (op : Operation) (name : Option String) : Prop := name = none ∨ op.name = name

instance (op : Operation) (name : Option String) : Decidable (op.Answers name) :=
  inferInstanceAs (Decidable (_ ∨ _))

namespace OperationIndex

theorem pick_mem {ops : List Operation} {name : Option String} {op : Operation}
    (picked : pick ops name = some op) : op ∈ ops := by
  cases name with
  | none => exact List.mem_of_head? picked
  | some name => exact List.mem_of_find?_eq_some picked

theorem pick_eq_none_iff {ops : List Operation} {name : Option String} :
    pick ops name = none ↔ ∀ op ∈ ops, ¬ op.Answers name := by
  cases name with
  | none => simp [pick, Operation.Answers, List.eq_nil_iff_forall_not_mem]
  | some name => simp [pick, Operation.Answers]

/-- An operation is picked by its own name unless it has none and is not the first of its literal. -/
theorem pick_name_iff {entry : IndexEntry} (counted : entry.IsCounted)
    (distinct : (entry.operations.map (·.name)).Nodup) {op : Operation}
    (member : op ∈ entry.operations) :
    pick entry.operations op.name = some op ↔ (op.name = none → op.ordinal = 0) := by
  cases named : op.name with
  | none =>
    simp only [pick, List.head?_eq_getElem?, true_implies]
    constructor
    · exact fun first => (counted 0 op first).2
    · intro isFirst
      obtain ⟨i, atIndex⟩ := List.mem_iff_getElem?.mp member
      have place := (counted i op atIndex).2
      rw [isFirst] at place
      rw [place]
      exact atIndex
  | some name =>
    simp only [pick, reduceCtorEq, false_implies, iff_true]
    cases found : entry.operations.find? (fun other => other.name == some name) with
    | none =>
      have absent := List.find?_eq_none.mp found op member
      simp [named] at absent
    | some other =>
      have sameName : other.name = op.name := by
        rw [named]
        simpa using List.find?_some found
      have found := List.mem_of_find?_eq_some found
      exact congrArg some (List.inj_on_of_nodup_map distinct found member sameName)

theorem pick_answers {ops : List Operation} {name : Option String} {op : Operation}
    (picked : pick ops name = some op) : op.Answers name := by
  cases name with
  | none => exact Or.inl rfl
  | some name => exact Or.inr (by simpa using List.find?_some picked)

variable {index : OperationIndex} {entry : IndexEntry} {name : Option String} {op : Operation}

/-- The entries whose literals hold an offset. -/
def around (entries : List IndexEntry) (offset : Nat) : List IndexEntry :=
  entries.filter fun e => e.literal.contains offset

theorem operationAt_natCast (index : OperationIndex) (offset : Nat) (name : Option String) :
    index.operationAt offset name =
      (around index.entries offset).findSome? fun e => pick e.operations name := by
  simp [operationAt, around]

/-- An operation that answers is found at the start of its literal, or another one is. -/
theorem exists_operationAt_start (within : entry ∈ index.entries)
    (ordered : entry.literal.start ≤ entry.literal.stop) (member : op ∈ entry.operations)
    (answers : op.Answers name) :
    ∃ found, index.operationAt entry.literal.start name = some found := by
  rw [operationAt_natCast]
  cases lookup : (around index.entries entry.literal.start).findSome? fun e =>
      pick e.operations name with
  | some found => exact ⟨found, rfl⟩
  | none =>
    have itself : entry ∈ around index.entries entry.literal.start := by
      refine List.mem_filter.mpr ⟨within, ?_⟩
      exact Literal.contains_eq_true_iff.mpr ⟨Nat.le_refl _, ordered⟩
    have absent := List.findSome?_eq_none_iff.mp lookup entry itself
    exact absurd answers (pick_eq_none_iff.mp absent op member)

/-- Of the entries that hold the start of a literal, those in front of its own are the ones whose
literals cover it. -/
theorem exists_around_start
    (ordered : index.entries.Pairwise fun a b => a.literal.Precedes b.literal)
    (within : entry ∈ index.entries) (nonempty : entry.literal.start ≤ entry.literal.stop) :
    ∃ covering behind,
      around index.entries entry.literal.start = covering ++ entry :: behind ∧
        ∀ e, e ∈ covering ↔ e ∈ index.entries ∧ e.literal.Covers entry.literal := by
  obtain ⟨before, after, split⟩ := List.append_of_mem within
  have parts := List.pairwise_append.mp (split ▸ ordered)
  have behind := (List.pairwise_cons.mp parts.2.1).1
  have earlier {e : IndexEntry} (old : e ∈ before) : e.literal.Precedes entry.literal :=
    parts.2.2 e old entry (List.mem_cons_self ..)
  have itself : entry.literal.contains entry.literal.start = true :=
    Literal.contains_eq_true_iff.mpr ⟨Nat.le_refl _, nonempty⟩
  refine ⟨around before entry.literal.start, around after entry.literal.start, ?_, ?_⟩
  · simp [split, around, itself]
  · intro e
    constructor
    · intro member
      obtain ⟨old, holds⟩ := List.mem_filter.mp member
      refine ⟨?_, (earlier old).contains_iff.mp holds⟩
      rw [split]
      exact List.mem_append_left _ old
    · rintro ⟨inIndex, covers⟩
      rw [split, List.mem_append, List.mem_cons] at inIndex
      rcases inIndex with old | rfl | later
      · exact List.mem_filter.mpr ⟨old, (earlier old).contains_iff.mpr covers⟩
      · exact absurd covers.start_lt (Nat.lt_irrefl _)
      · have starts := covers.start_lt
        have opposite := (behind e later).start_lt
        omega

/-- Looking an operation up at the start of its literal finds it unless an operation answers that
belongs to a literal covering the start. -/
theorem operationAt_start_iff
    (ordered : index.entries.Pairwise fun a b => a.literal.Precedes b.literal)
    (counted : ∀ e ∈ index.entries, e.IsCounted) (within : entry ∈ index.entries)
    (nonempty : entry.literal.start ≤ entry.literal.stop) (member : op ∈ entry.operations)
    (answers : op.Answers name) :
    index.operationAt entry.literal.start name = some op ↔
      pick entry.operations name = some op ∧
        ∀ e ∈ index.entries, e.literal.Covers entry.literal →
          ∀ other ∈ e.operations, ¬ other.Answers name := by
  obtain ⟨covering, behind, split, isCovering⟩ := exists_around_start ordered within nonempty
  rw [operationAt_natCast, split, List.findSome?_append]
  cases lookup : covering.findSome? fun e => pick e.operations name with
  | some other =>
    obtain ⟨e, inCovering, picked⟩ := List.exists_of_findSome?_eq_some lookup
    obtain ⟨inIndex, covers⟩ := (isCovering e).mp inCovering
    have otherLiteral := (counted e inIndex).literal_eq (pick_mem picked)
    have ownLiteral := (counted entry within).literal_eq member
    rw [Option.some_or, Option.some.injEq]
    constructor
    · rintro rfl
      have starts := covers.start_lt
      rw [← otherLiteral, ← ownLiteral] at starts
      exact absurd starts (Nat.lt_irrefl _)
    · rintro ⟨_, silent⟩
      exact absurd (pick_answers picked) (silent e inIndex covers other (pick_mem picked))
  | none =>
    have picks : ∃ own, pick entry.operations name = some own := by
      refine Option.ne_none_iff_exists'.mp fun absent => ?_
      exact pick_eq_none_iff.mp absent op member answers
    obtain ⟨own, picked⟩ := picks
    rw [Option.none_or, List.findSome?_cons, picked]
    refine ⟨fun found => ⟨found, ?_⟩, And.left⟩
    intro e inIndex covers
    have inCovering := (isCovering e).mpr ⟨inIndex, covers⟩
    exact pick_eq_none_iff.mp (List.findSome?_eq_none_iff.mp lookup e inCovering)

end OperationIndex

namespace LensSet

/-- The index of a document: its entries are in the order of their literals, and their operations
are counted. -/
structure IsIndexed (index : OperationIndex) : Prop where
  ordered : index.entries.Pairwise fun a b => a.literal.Precedes b.literal
  nonempty : ∀ e ∈ index.entries, e.literal.start ≤ e.literal.stop
  counted : ∀ e ∈ index.entries, e.IsCounted

theorem isIndexed_indexOf {document : SourceDocument} {index : OperationIndex}
    (made : indexOf document = .ok index) : IsIndexed index := by
  unfold indexOf at made
  cases each : OperationIndex.ofLiterals (literals document.text document.language) with
  | error e => rw [each] at made; cases made
  | ok plain =>
    rw [each] at made
    cases made
    obtain ⟨sublist, counted⟩ := OperationIndex.literals_entries_sublist each
    have indexed : IsIndexed plain := by
      refine ⟨?_, ?_, counted⟩
      · exact List.pairwise_map.mp ((Literal.pairwise_precedes ..).sublist sublist)
      · intro e member
        exact Literal.start_le_stop (sublist.subset (List.mem_map_of_mem member))
    split
    · refine ⟨?_, ?_, ?_⟩
      · refine List.pairwise_map.mp ?_
        rw [plain.literals_entries_link]
        exact List.pairwise_map.mpr indexed.ordered
      · intro e member
        obtain ⟨old, atOld, rfl⟩ := List.mem_map.mp member
        rw [plain.literal_linkEntry]
        exact indexed.nonempty old atOld
      · intro e member
        obtain ⟨old, atOld, rfl⟩ := List.mem_map.mp member
        exact plain.isCounted_linkEntry (indexed.counted old atOld)
    · exact indexed

theorem isIndexed_ofDocument {document : SourceDocument} {set : LensSet}
    (made : ofDocument document = .ok set) :
    IsIndexed set.index ∧ set.lenses = set.index.entries.flatMap (ofEntry document.uri) := by
  unfold ofDocument at made
  cases index : indexOf document with
  | error e => rw [index] at made; cases made
  | ok plain =>
    rw [index] at made
    cases made
    exact ⟨isIndexed_indexOf index, rfl⟩

end LensSet

/-- The arguments of a lens find its operation again unless that has no name and follows another of
its literal, or an operation answers to the name whose literal holds the lens's literal in an
interpolation or ends where it starts. -/
theorem findOperation_requestOf_lens_iff {document : SourceDocument} {set : LensSet} {lens : Lens}
    (made : LensSet.ofDocument document = .ok set)
    (distinct : ∀ e ∈ set.index.entries, (e.operations.map (·.name)).Nodup)
    (offered : lens ∈ set.lenses) :
    Session.findOperation set (Session.requestOf lens.arguments) = .ok lens.operation ↔
      (lens.operation.name = none → lens.operation.ordinal = 0) ∧
        ∀ e ∈ set.index.entries, e.literal.Covers lens.operation.literal →
          ∀ op ∈ e.operations, ¬ op.Answers lens.operation.name := by
  obtain ⟨indexed, lenses⟩ := LensSet.isIndexed_ofDocument made
  rw [lenses] at offered
  obtain ⟨entry, within, offered⟩ := List.mem_flatMap.mp offered
  obtain ⟨op, member, rfl⟩ := List.mem_map.mp offered
  have counted := indexed.counted entry within
  have nonempty := indexed.nonempty entry within
  have literal := counted.literal_eq member
  have answers : op.Answers op.name := Or.inr rfl
  obtain ⟨found, lookup⟩ := OperationIndex.exists_operationAt_start within nonempty member answers
  have finds := OperationIndex.operationAt_start_iff indexed.ordered indexed.counted within nonempty
    member answers
  rw [OperationIndex.pick_name_iff counted (distinct entry within) member, lookup] at finds
  have step : Session.findOperation set (Session.requestOf (Lens.ofOperation document.uri
      (1 < entry.operations.length) op).arguments) = .ok found := by
    simp only [Session.findOperation, Session.requestOf, Lens.ofOperation, LensSet.operationAt,
      literal, lookup]
    rfl
  rw [step, Except.ok.injEq]
  simp only [Lens.ofOperation, literal]
  rw [← finds, Option.some.injEq]

/-- The second of two named operations, whose literal stands in an interpolation of the first. -/
theorem findOperation_requestOf_lens_nested :
    ∃ set, LensSet.ofDocument ⟨"file:///a.ts",
        "gql\x60query A { a } $\x7bgql\x60query B { b }\x60\x7d\x60".toList, .javascript, 0⟩ = .ok set ∧
      (∀ e ∈ set.index.entries, (e.operations.map (·.name)).Nodup) ∧
      ∃ lens ∈ set.lenses, lens.operation.name = some "B" ∧
        Session.findOperation set (Session.requestOf lens.arguments) = .ok lens.operation := by
  obtain ⟨set, made, distinct, lens, offered, named, apart⟩ : ∃ set ∈ (LensSet.ofDocument
      ⟨"file:///a.ts", "gql\x60query A { a } $\x7bgql\x60query B { b }\x60\x7d\x60".toList,
        .javascript, 0⟩).toOption,
      (∀ e ∈ set.index.entries, (e.operations.map (·.name)).Nodup) ∧
      ∃ lens ∈ set.lenses, lens.operation.name = some "B" ∧
        (lens.operation.name = none → lens.operation.ordinal = 0) ∧
          ∀ e ∈ set.index.entries, e.literal.Covers lens.operation.literal →
            ∀ op ∈ e.operations, ¬ op.Answers lens.operation.name := by
    decide +kernel
  have made := eq_ok_of_mem_toOption made
  exact ⟨set, made, distinct, lens, offered, named,
    (findOperation_requestOf_lens_iff made distinct offered).mpr apart⟩

/-- An operation without a name in an interpolation: the arguments of its lens find the operation
around it. -/
theorem findOperation_requestOf_lens_shadowed :
    ∃ set, LensSet.ofDocument ⟨"file:///a.ts",
        "gql\x60query A { a } $\x7bgql\x60{ b }\x60\x7d\x60".toList, .javascript, 0⟩ = .ok set ∧
      (∀ e ∈ set.index.entries, (e.operations.map (·.name)).Nodup) ∧
      ∃ lens ∈ set.lenses,
        Session.findOperation set (Session.requestOf lens.arguments) ≠ .ok lens.operation := by
  obtain ⟨set, made, distinct, lens, offered, other⟩ : ∃ set ∈ (LensSet.ofDocument
      ⟨"file:///a.ts", "gql\x60query A { a } $\x7bgql\x60{ b }\x60\x7d\x60".toList, .javascript,
        0⟩).toOption,
      (∀ e ∈ set.index.entries, (e.operations.map (·.name)).Nodup) ∧
      ∃ lens ∈ set.lenses,
        (Session.findOperation set (Session.requestOf lens.arguments)).toOption.map (·.name) ≠
          some lens.operation.name := by
    decide +kernel
  refine ⟨set, eq_ok_of_mem_toOption made, distinct, lens, offered, fun same => other ?_⟩
  rw [same]
  rfl

end InlineQuery
