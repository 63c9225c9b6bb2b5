import InlineQuery.Data.Yaml.Node
import InlineQuery.Proofs.Data.Assoc

/-!
Aliases that stand inside of what they name. A document without them is read as it is written. In any
other one each collection around a part is written out once at most, so the anchors bound how often
that is done.
-/

namespace InlineQuery.Yaml

/-- Whether a node is another one or lies within it. -/
inductive Node.IsPart (part : Node) : Node → Prop
  | self : IsPart part part
  | item {tag : Tag} {items : List Node} {n : Node} :
      n ∈ items → part.IsPart n → IsPart part (.sequence tag items)
  | key {tag : Tag} {entries : List (Node × Node)} {k v : Node} :
      (k, v) ∈ entries → part.IsPart k → IsPart part (.mapping tag entries)
  | value {tag : Tag} {entries : List (Node × Node)} {k v : Node} :
      (k, v) ∈ entries → part.IsPart v → IsPart part (.mapping tag entries)

/-- Whether no collection of a document lies within itself. -/
def Node.IsFinite (n : Node) : Prop := ∀ anchor tag, ¬ (Node.again anchor tag).IsPart n

section Parts

variable {n k v : Node} {items : List Node} {entries : List (Node × Node)} {tag : Tag}

theorem Node.IsFinite.item (finite : (Node.sequence tag items).IsFinite) (member : n ∈ items) :
    n.IsFinite := fun anchor tag inside => finite anchor tag (.item member inside)

/-- Whether no collection among the parts of some entries lies within itself. -/
def EntriesAreFinite (entries : List (Node × Node)) : Prop :=
  ∀ e ∈ entries, e.1.IsFinite ∧ e.2.IsFinite

theorem entriesAreFinite (finite : (Node.mapping tag entries).IsFinite) :
    EntriesAreFinite entries := fun _ member =>
  ⟨fun anchor tag inside => finite anchor tag (.key member inside),
    fun anchor tag inside => finite anchor tag (.value member inside)⟩

theorem EntriesAreFinite.head (finite : EntriesAreFinite ((k, v) :: entries)) :
    k.IsFinite ∧ v.IsFinite :=
  finite (k, v) (List.mem_cons_self ..)

theorem EntriesAreFinite.tail {entry : Node × Node} (finite : EntriesAreFinite (entry :: entries)) :
    EntriesAreFinite entries := fun e member => finite e (List.mem_cons_of_mem _ member)

end Parts

section Completing

variable {replaced : Node.Place → List Node → String → Tag → Node}

mutual

theorem completed_eq {n : Node} (finite : n.IsFinite) : n.completed replaced = n := by
  cases n with
  | scalar tag text => rfl
  | again anchor tag => rfl
  | sequence tag items =>
    have each (n : Node) (member : n ∈ items) := finite.item member
    rw [Node.completed, pairsCompleted_eq each, itemsCompleted_eq each, ite_self]
  | mapping tag entries => rw [Node.completed, entriesCompleted_eq (entriesAreFinite finite)]

theorem itemsCompleted_eq {items : List Node} (finite : ∀ n ∈ items, n.IsFinite) :
    Node.itemsCompleted replaced items = items := by
  cases items with
  | nil => rfl
  | cons n rest =>
    rw [List.forall_mem_cons] at finite
    rw [Node.itemsCompleted, completed_eq finite.1, itemsCompleted_eq finite.2]

theorem pairsCompleted_eq {items : List Node} (finite : ∀ n ∈ items, n.IsFinite) :
    Node.pairsCompleted replaced items = items := by
  cases items with
  | nil => rfl
  | cons n rest =>
    rw [List.forall_mem_cons] at finite
    rw [Node.pairsCompleted, completed_eq finite.1, pairsCompleted_eq finite.2]
    rintro anchor tag rfl
    exact finite.1 anchor tag .self

theorem entriesCompleted_eq {isText : Bool} {within : List Node} {entries : List (Node × Node)}
    (finite : EntriesAreFinite entries) :
    Node.entriesCompleted replaced isText within entries = entries := by
  match entries with
  | [] => rfl
  | (k, v) :: rest =>
    obtain ⟨ofKey, ofValue⟩ := finite.head
    rw [Node.entriesCompleted, completed_eq ofKey, completed_eq ofValue, completedAt_eq ofValue,
      completedAt_eq ofValue, entriesCompleted_eq finite.tail, ite_self, ite_self]

theorem completedAt_eq {place : Node.Place} {within : List Node} {n : Node} (finite : n.IsFinite) :
    n.completedAt replaced place within = n := by
  cases n with
  | scalar tag text => rfl
  | again anchor tag => exact absurd .self (finite anchor tag)
  | sequence tag items =>
    rw [Node.completedAt, itemsCompletedAt_eq fun n member => finite.item member]
  | mapping tag entries => rw [Node.completedAt, entriesCompleted_eq (entriesAreFinite finite)]

theorem itemsCompletedAt_eq {place : Node.Place} {within items : List Node}
    (finite : ∀ n ∈ items, n.IsFinite) :
    Node.itemsCompletedAt replaced place within items = items := by
  cases items with
  | nil => rfl
  | cons n rest =>
    rw [List.forall_mem_cons] at finite
    rw [Node.itemsCompletedAt, completedAt_eq finite.1, itemsCompletedAt_eq finite.2]

end

/-- A document none of whose collections lies within itself is read as it is written. -/
theorem complete_eq {anchors : Anchors} {root : Node} (finite : root.IsFinite) :
    root.complete anchors = root := by
  rw [Node.complete, completed_eq finite, ite_self]

end Completing

/-- The anchors that are not known yet. -/
def Anchors.unknown (anchors : Anchors) (known : List String) : Anchors :=
  anchors.filter fun e => !known.contains e.1

theorem Anchors.length_unknown_cons {anchors : Anchors} {anchor : String} {n : Node}
    {known : List String} (found : Assoc.get? anchors anchor = some n)
    (new : known.contains anchor = false) :
    (anchors.unknown (anchor :: known)).length < (anchors.unknown known).length := by
  have fewer : anchors.unknown (anchor :: known) =
      (anchors.unknown known).filter fun e => e.1 != anchor := by
    rw [unknown, unknown, List.filter_filter]
    refine List.filter_congr fun e _ => ?_
    rw [List.contains_cons, Bool.not_or]
    rfl
  have isUnknown : (anchor, n) ∈ anchors.unknown known :=
    List.mem_filter.mpr ⟨Assoc.mem_of_get? found, by rw [new]; rfl⟩
  rw [fewer]
  exact List.length_filter_lt_length_iff_exists.mpr ⟨_, isUnknown, by simp⟩

/-- There is fuel enough for replacements if there is more of it than unknown anchors. -/
theorem replacement_succ {anchors : Anchors} {fuel : Nat} {known : List String}
    (enough : (anchors.unknown known).length < fuel) :
    Node.replacement anchors (fuel + 1) known = Node.replacement anchors fuel known := by
  induction fuel generalizing known with
  | zero => omega
  | succ fuel ih =>
    funext place within anchor tag
    rw [Node.replacement, Node.replacement]
    cases found : Assoc.get? anchors anchor with
    | none => rfl
    | some n =>
      cases isKnown : known.contains anchor with
      | true => rfl
      | false =>
        have fewer := Anchors.length_unknown_cons found isKnown
        have inner : (anchors.unknown (anchor :: known)).length < fuel := by omega
        rw [ih inner]

/-- Fuel for all anchors is enough for a document. -/
theorem complete_of_lt {anchors : Anchors} {fuel : Nat} (enough : anchors.length < fuel)
    (root : Node) : root.complete anchors =
      if anchors.isEmpty then root else root.completed (Node.replacement anchors fuel []) := by
  have same : Node.replacement anchors fuel [] =
      Node.replacement anchors (anchors.length + 1) [] := by
    induction enough with
    | refl => rfl
    | step enough ih =>
      rw [replacement_succ (Nat.lt_of_le_of_lt (List.length_filter_le ..) enough), ih]
  rw [same, Node.complete]

end InlineQuery.Yaml
