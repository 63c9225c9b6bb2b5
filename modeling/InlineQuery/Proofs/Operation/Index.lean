import InlineQuery.Operation.Fragments
import Mathlib.Data.List.Forall2

namespace InlineQuery

/-- What a step that can fail makes of the elements of a list when it fails for none of them. -/
theorem forall₂_of_mapM_ok {α β ε : Type} {f : α → Except ε β} {xs : List α} {ys : List β}
    (made : xs.mapM f = .ok ys) : List.Forall₂ (fun x y => f x = .ok y) xs ys := by
  induction xs generalizing ys with
  | nil =>
    cases made
    exact .nil
  | cons x xs ih =>
    rw [List.mapM_cons] at made
    cases first : f x with
    | error e => rw [first] at made; cases made
    | ok y =>
      cases rest : xs.mapM f with
      | error e => rw [first, rest] at made; cases made
      | ok zs =>
        rw [first, rest] at made
        cases made
        exact .cons first (ih rest)

/-- A step that can fail succeeds on a list exactly when it does on each of its elements. -/
theorem exists_mapM_ok_iff {α β ε : Type} {f : α → Except ε β} {xs : List α} :
    (∃ ys, xs.mapM f = .ok ys) ↔ ∀ x ∈ xs, ∃ y, f x = .ok y := by
  induction xs with
  | nil => exact ⟨fun _ => nofun, fun _ => ⟨[], rfl⟩⟩
  | cons x xs ih =>
    rw [List.forall_mem_cons, ← ih, List.mapM_cons]
    constructor
    · rintro ⟨ys, made⟩
      cases first : f x with
      | error e => rw [first] at made; cases made
      | ok y =>
        cases rest : xs.mapM f with
        | error e => rw [first, rest] at made; cases made
        | ok zs => exact ⟨⟨y, rfl⟩, zs, rfl⟩
    · rintro ⟨⟨y, first⟩, zs, rest⟩
      exact ⟨y :: zs, by rw [first, rest]; rfl⟩

theorem exists_map_ok_iff {α β ε : Type} {f : α → β} {x : Except ε α} :
    (∃ b, x.map f = .ok b) ↔ ∃ a, x = .ok a := by
  cases x with
  | error e => exact ⟨nofun, nofun⟩
  | ok a => exact ⟨fun _ => ⟨a, rfl⟩, fun _ => ⟨f a, rfl⟩⟩

theorem exists_mem_of_mapM_ok {α β ε : Type} {f : α → Except ε β} {xs : List α} {ys : List β}
    (made : xs.mapM f = .ok ys) {y : β} (member : y ∈ ys) : ∃ x ∈ xs, f x = .ok y := by
  obtain ⟨length, steps⟩ := List.forall₂_iff_get.mp (forall₂_of_mapM_ok made)
  obtain ⟨i, bound, rfl⟩ := List.mem_iff_getElem.mp member
  exact ⟨xs[i], List.getElem_mem _, steps i (by omega) bound⟩

theorem exists_mem_of_mapM_error {α β ε : Type} {f : α → Except ε β} {xs : List α} {e : ε}
    (failed : xs.mapM f = .error e) : ∃ x ∈ xs, f x = .error e := by
  induction xs with
  | nil => cases failed
  | cons x xs ih =>
    rw [List.mapM_cons] at failed
    cases first : f x with
    | error e' =>
      rw [first] at failed
      cases failed
      exact ⟨x, List.mem_cons_self, first⟩
    | ok y =>
      cases rest : xs.mapM f with
      | error e' =>
        rw [first, rest] at failed
        cases failed
        obtain ⟨x', member, failed⟩ := ih rest
        exact ⟨x', List.mem_cons_of_mem x member, failed⟩
      | ok ys => rw [first, rest] at failed; cases failed

theorem eq_ok_of_mem_toOption {α ε : Type} {x : Except ε α} {a : α} (made : a ∈ x.toOption) :
    x = .ok a := by
  cases x <;> cases made
  rfl

namespace Literal

variable {literal : Literal} {document : Query.Document}

theorem operation_ok {ordinal : Nat} {definition : Query.OperationDefinition} {op : Operation}
    (made : literal.operation document ordinal definition = .ok op) :
    op.literal = literal ∧ op.ordinal = ordinal ∧ op.source = literal.graphqlText := by
  unfold operation at made
  cases declared : definition.declarations.mapM (·.variable) with
  | error e => rw [declared] at made; cases made
  | ok declarations =>
    rw [declared] at made
    cases made
    exact ⟨rfl, rfl, rfl⟩

/-- The operations of a literal carry the literal and their place in it. -/
theorem getElem?_operationsOf {ops : List Operation} (made : literal.operationsOf document = .ok ops)
    {i : Nat} {op : Operation} (atIndex : ops[i]? = some op) :
    op.literal = literal ∧ op.ordinal = i := by
  unfold operationsOf at made
  split at made
  · rename_i same each
    cases made
    obtain ⟨length, steps⟩ := List.forall₂_iff_get.mp (forall₂_of_mapM_ok each)
    obtain ⟨bound, value⟩ := List.getElem?_eq_some_iff.mp atIndex
    have source : i < document.operations.zipIdx.length := by omega
    have step := steps i source bound
    simp only [List.get_eq_getElem, List.getElem_zipIdx, value] at step
    obtain ⟨sameLiteral, place, _⟩ := operation_ok step
    exact ⟨sameLiteral, by simpa using place⟩
  · cases made

end Literal

/-- The operations of an entry belong to its literal and are counted in order. -/
def IndexEntry.IsCounted (entry : IndexEntry) : Prop :=
  ∀ (i : Nat) (op : Operation), entry.operations[i]? = some op →
    op.literal = entry.literal ∧ op.ordinal = i

theorem IndexEntry.IsCounted.literal_eq {entry : IndexEntry} (counted : entry.IsCounted)
    {op : Operation} (member : op ∈ entry.operations) : op.literal = entry.literal := by
  obtain ⟨i, atIndex⟩ := List.mem_iff_getElem?.mp member
  exact (counted i op atIndex).1

namespace OperationIndex

theorem outcome_entry {literal : Literal} {entry : IndexEntry}
    (made : outcome literal = .ok (.entry entry)) : entry.literal = literal ∧ entry.IsCounted := by
  unfold outcome at made
  split at made
  · cases made
  · rename_i document _
    cases each : literal.operationsOf document with
    | error e => rw [each] at made; cases made
    | ok ops =>
      rw [each] at made
      cases made
      exact ⟨rfl, fun i op atIndex => Literal.getElem?_operationsOf each atIndex⟩

theorem outcome_failure {literal : Literal} {failure : ParseFailure}
    (made : outcome literal = .ok (.failure failure)) : literal.document = .error failure := by
  unfold outcome at made
  split at made
  · rename_i failed
    cases made
    exact failed
  · rename_i document _
    cases each : literal.operationsOf document <;> rw [each] at made <;> cases made

section
variable {literals : List Literal} {index : OperationIndex} (made : ofLiterals literals = .ok index)
include made

/-- An index is made of what each literal adds. -/
theorem exists_outcomes :
    ∃ outcomes, literals.mapM outcome = .ok outcomes ∧ ofOutcomes outcomes = index := by
  unfold ofLiterals at made
  cases each : literals.mapM outcome with
  | error e => rw [each] at made; cases made
  | ok outcomes =>
    rw [each] at made
    cases made
    exact ⟨outcomes, rfl, rfl⟩

/-- Every entry is what one of the literals adds. -/
theorem exists_outcome_of_mem {entry : IndexEntry} (member : entry ∈ index.entries) :
    ∃ literal ∈ literals, outcome literal = .ok (.entry entry) := by
  obtain ⟨outcomes, each, rfl⟩ := exists_outcomes made
  obtain ⟨result, isResult, given⟩ := List.mem_filterMap.mp member
  obtain ⟨literal, isLiteral, step⟩ := exists_mem_of_mapM_ok each isResult
  cases result with
  | failure failure => cases given
  | entry found =>
    cases given
    exact ⟨literal, isLiteral, step⟩

theorem exists_document_of_mem_failures {failure : ParseFailure}
    (member : failure ∈ index.failures) :
    ∃ literal ∈ literals, literal.document = .error failure := by
  obtain ⟨outcomes, each, rfl⟩ := exists_outcomes made
  obtain ⟨result, isResult, given⟩ := List.mem_filterMap.mp member
  obtain ⟨literal, isLiteral, step⟩ := exists_mem_of_mapM_ok each isResult
  cases result with
  | entry entry => cases given
  | failure found =>
    cases given
    exact ⟨literal, isLiteral, outcome_failure step⟩

/-- Entries stand in the order of their literals. -/
theorem literals_entries_sublist :
    (index.entries.map (·.literal)).Sublist literals ∧ ∀ entry ∈ index.entries, entry.IsCounted := by
  obtain ⟨outcomes, each, rfl⟩ := exists_outcomes made
  have steps := forall₂_of_mapM_ok each
  clear made each
  induction steps with
  | nil => exact ⟨.slnil, by simp [ofOutcomes]⟩
  | @cons literal result literals outcomes first _ ih =>
    cases result with
    | failure failure => exact ⟨.cons _ ih.1, ih.2⟩
    | entry entry =>
      obtain ⟨same, counted⟩ := outcome_entry first
      subst same
      exact ⟨.cons_cons _ ih.1, List.forall_mem_cons.mpr ⟨counted, ih.2⟩⟩

end

theorem literal_linkEntry (index : OperationIndex) (entry : IndexEntry) :
    (index.linkEntry entry).literal = entry.literal := by
  unfold linkEntry
  split <;> rfl

/-- Linking changes the text of operations, not where they are. -/
theorem isCounted_linkEntry (index : OperationIndex) {entry : IndexEntry}
    (counted : entry.IsCounted) : (index.linkEntry entry).IsCounted := by
  unfold linkEntry
  split
  · exact counted
  · exact counted
  · dsimp only
    intro i op atIndex
    simp only [List.getElem?_map, Option.map_eq_some_iff] at atIndex
    obtain ⟨old, atOld, rfl⟩ := atIndex
    exact counted i old atOld

theorem literals_entries_link (index : OperationIndex) :
    index.link.entries.map (·.literal) = index.entries.map (·.literal) := by
  simp [link, literal_linkEntry, Function.comp_def]

end OperationIndex
end InlineQuery
