import InlineQuery.Proofs.Data.Except
import InlineQuery.Proofs.Yaml.Aliases
import InlineQuery.Proofs.Yaml.Scalars

/-!
The faults of a document that is a tree already. A value that does not exist is always that of a part
of the tree, and no value holds itself unless a part of the tree stands for a collection that it lies
in. In a tree of lists, mappings and scalars with nothing else about them there is no other fault.
-/

namespace InlineQuery

namespace Datum

variable {d : Datum} {items : List Datum} {entries : List (Datum × Datum)}

/-- Whether a value is no collection. -/
def isSimple : Datum → Bool
  | list _ | map _ | tuple _ | set _ => false
  | _ => true

theorem isEndless_of_isSimple (simple : d.isSimple = true) : d.isEndless = false := by
  cases d <;> first | rfl | cases simple

theorem itemsAreEndless_of_forall (finite : ∀ d ∈ items, d.isEndless = false) :
    itemsAreEndless items = false := by
  induction items with
  | nil => rfl
  | cons d items ih =>
    rw [itemsAreEndless, finite d (List.mem_cons_self ..),
      ih fun later member => finite later (List.mem_cons_of_mem _ member)]
    rfl

theorem entriesAreEndless_of_forall (finite : ∀ e ∈ entries, e.2.isEndless = false) :
    entriesAreEndless entries = false := by
  induction entries with
  | nil => rfl
  | cons e entries ih =>
    rw [entriesAreEndless, finite e (List.mem_cons_self ..),
      ih fun later member => finite later (List.mem_cons_of_mem _ member)]
    rfl

theorem isEndless_set (simple : ∀ d ∈ items, d.isSimple = true) : (set items).isEndless = false := by
  unfold isEndless
  split
  · rename_i same
    cases same
  · rename_i same
    cases same
  · rename_i same
    cases same
    cases simple _ (List.mem_singleton_self _)
  · rename_i same
    cases same
    cases simple _ (List.mem_singleton_self _)
  · rfl

end Datum

namespace Yaml

theorem Timestamp.isSimple_datum {t : Timestamp} {d : Datum} (built : t.datum = .ok d) :
    d.isSimple = true := by
  unfold Timestamp.datum at built
  dsimp only at built
  split at built
  · obtain ⟨_, -, made⟩ := bind_eq_ok built
    cases made
    rfl
  · obtain ⟨_, -, rest⟩ := bind_eq_ok built
    obtain ⟨_, -, rest⟩ := bind_eq_ok rest
    obtain ⟨_, -, made⟩ := bind_eq_ok rest
    cases made
    rfl

section Values

variable {tag : Tag} {text : String} {entries : List (Node × Node)} {d : Datum}

theorem isSimple_of_scalarDatum (built : scalarDatum tag text = .ok d) : d.isSimple = true := by
  unfold scalarDatum at built
  split at built
  · cases built
    rfl
  · split at built <;> cases built
    rfl
  · obtain ⟨_, -, rfl⟩ := map_eq_ok built
    rfl
  · obtain ⟨_, -, rfl⟩ := map_eq_ok built
    rfl
  · split at built
    · split at built <;> cases built
      rfl
    · cases built
  · split at built
    · exact Timestamp.isSimple_datum (mapError_eq_ok_iff.mp built)
    · cases built
  · cases built
    rfl
  · cases built

theorem isSimple_of_namedDatum (built : namedDatum tag entries = .ok d) : d.isSimple = true := by
  unfold namedDatum at built
  split at built
  · cases built
  · cases built
  · cases built
  · obtain ⟨text, -, rest⟩ := bind_eq_ok built
    split at rest
    · cases rest
    · exact isSimple_of_scalarDatum rest

end Values

/-! ### Parts -/

/-- Whether a node by itself names a value that does not exist: as a scalar, as a mapping that stands
for one, or as a mark for a value, whose text is looked for. -/
inductive Node.Misnames (failure : Failure) : Node → Prop
  | scalar {tag : Tag} {text : String} :
      scalarDatum tag text = .error (.value failure) → Misnames failure (.scalar tag text)
  | mapping {tag : Tag} {entries : List (Node × Node)} : tag.isCollection = false →
      namedDatum tag entries = .error (.value failure) → Misnames failure (.mapping tag entries)
  | mark {n : Node} : n.tag = .value → n.text = .error (.value failure) → Misnames failure n

/-- Whether a part of a node names a value that does not exist. -/
def Node.NamesNothing (n : Node) (failure : Failure) : Prop :=
  ∃ part : Node, part.IsPart n ∧ part.Misnames failure

/-- Whether a node is a scalar of a kind of values, even if it names none of them. -/
def Node.IsWord (n : Node) : Prop :=
  ∃ tag text, n = .scalar tag text ∧ scalarDatum tag text ≠ .error .malformed

/-- Whether a node consists of lists, of mappings with scalars as keys, and of scalars. -/
inductive Node.IsOrdinary : Node → Prop
  | word {n : Node} : n.IsWord → IsOrdinary n
  | sequence {items : List Node} : (∀ n ∈ items, n.IsOrdinary) → IsOrdinary (.sequence .seq items)
  | mapping {entries : List (Node × Node)} : (∀ e ∈ entries, e.1.IsWord) →
      (∀ e ∈ entries, e.2.IsOrdinary) → IsOrdinary (.mapping .map entries)

theorem Node.Misnames.isConfiguration {n : Node} {failure : Failure} (names : n.Misnames failure) :
    failure.kind.isConfiguration = false := by
  cases names with
  | scalar failed => exact (failsApart_scalarDatum ..).apart failure failed
  | mapping _ failed => exact (failsApart_namedDatum ..).apart failure failed
  | mark _ failed => exact (failsApart_text n).apart failure failed

section Parts

variable {n k v : Node} {items : List Node} {entries : List (Node × Node)} {tag : Tag}
  {failure : Failure}

theorem Node.NamesNothing.item (member : n ∈ items) (names : n.NamesNothing failure) :
    (Node.sequence tag items).NamesNothing failure := by
  obtain ⟨part, isPart, misnames⟩ := names
  exact ⟨part, .item member isPart, misnames⟩

/-- Whether a part of some entries names a value that does not exist. -/
def EntriesNameNothing (entries : List (Node × Node)) (failure : Failure) : Prop :=
  ∃ k v, (k, v) ∈ entries ∧ (k.NamesNothing failure ∨ v.NamesNothing failure)

theorem EntriesNameNothing.mapping (names : EntriesNameNothing entries failure) :
    (Node.mapping tag entries).NamesNothing failure := by
  obtain ⟨k, v, member, ⟨part, isPart, misnames⟩ | ⟨part, isPart, misnames⟩⟩ := names
  · exact ⟨part, .key member isPart, misnames⟩
  · exact ⟨part, .value member isPart, misnames⟩

theorem EntriesNameNothing.cons (entry : Node × Node) (names : EntriesNameNothing entries failure) :
    EntriesNameNothing (entry :: entries) failure := by
  obtain ⟨k, v, member, parts⟩ := names
  exact ⟨k, v, List.mem_cons_of_mem _ member, parts⟩

/-- A scalar of a kind of values is none of the marks for what is no value. -/
theorem Node.IsWord.tag_ne (isWord : k.IsWord) :
    k.tag ≠ .value ∧ k.tag ≠ .merge ∧ k.tag.isCollection = false := by
  obtain ⟨tag, text, rfl, wellFormed⟩ := isWord
  rw [Node.tag]
  cases tag <;> first
    | exact ⟨by decide, by decide, rfl⟩
    | exact absurd rfl wellFormed

theorem failed_of_namesNothing {text : String} (isWord : (Node.scalar tag text).IsWord)
    (names : (Node.scalar tag text).NamesNothing failure) :
    scalarDatum tag text = .error (.value failure) := by
  obtain ⟨part, isPart, misnames⟩ := names
  cases isPart
  cases misnames with
  | scalar failed => exact failed
  | mark isMark _ => exact absurd isMark isWord.tag_ne.1

theorem not_misnames_sequence : ¬ (Node.sequence .seq items).Misnames failure := by
  rintro ⟨⟩
  rename_i isMark _
  cases isMark

theorem not_misnames_mapping : ¬ (Node.mapping .map entries).Misnames failure := by
  intro misnames
  cases misnames with
  | mapping isScalar _ => cases isScalar
  | mark isMark _ => cases isMark

theorem exists_item_of_namesNothing (names : (Node.sequence .seq items).NamesNothing failure) :
    ∃ n ∈ items, n.NamesNothing failure := by
  obtain ⟨part, isPart, misnames⟩ := names
  cases isPart with
  | self => exact absurd misnames not_misnames_sequence
  | item member inside => exact ⟨_, member, part, inside, misnames⟩

theorem entriesNameNothing_of_mapping (names : (Node.mapping .map entries).NamesNothing failure) :
    EntriesNameNothing entries failure := by
  obtain ⟨part, isPart, misnames⟩ := names
  cases isPart with
  | self => exact absurd misnames not_misnames_mapping
  | key member inside => exact ⟨_, _, member, .inl ⟨part, inside, misnames⟩⟩
  | value member inside => exact ⟨_, _, member, .inr ⟨part, inside, misnames⟩⟩

/-- Whether the keys among some entries are scalars, and their values are ordinary. -/
def EntriesAreOrdinary (entries : List (Node × Node)) : Prop :=
  ∀ e ∈ entries, e.1.IsWord ∧ e.2.IsOrdinary

theorem EntriesAreOrdinary.tail {entry : Node × Node}
    (ordinary : EntriesAreOrdinary (entry :: entries)) : EntriesAreOrdinary entries :=
  fun e member => ordinary e (List.mem_cons_of_mem _ member)

theorem entriesAreOrdinary (ordinary : (Node.mapping tag entries).IsOrdinary) :
    tag = .map ∧ EntriesAreOrdinary entries := by
  cases ordinary with
  | word isWord =>
    obtain ⟨_, _, same, -⟩ := isWord
    cases same
  | mapping keys values => exact ⟨rfl, fun e member => ⟨keys e member, values e member⟩⟩

theorem itemsAreOrdinary (ordinary : (Node.sequence tag items).IsOrdinary) :
    tag = .seq ∧ ∀ n ∈ items, n.IsOrdinary := by
  cases ordinary with
  | word isWord =>
    obtain ⟨_, _, same, -⟩ := isWord
    cases same
  | sequence each => exact ⟨rfl, each⟩

theorem areMergeable_of_ordinary (ordinary : EntriesAreOrdinary entries) :
    Node.areMergeable entries = true := by
  induction entries with
  | nil => rfl
  | cons e entries ih =>
    have notMerge := (ordinary e (List.mem_cons_self ..)).1.tag_ne.2.1
    rw [Node.areMergeable, ih ordinary.tail]
    simp [notMerge]

end Parts

/-! ### Values -/

namespace Built

/-- What is known of a value that is built: that it is a good one, or else that a value is named that
does not exist, or that there is a flaw of form. -/
structure Meets {α : Type} (good : α → Prop) (names : Failure → Prop) (flawed : Prop)
    (x : Built α) : Prop where
  made : ∀ a, x = .ok a → good a
  misnamed : ∀ place failure, x = .error ⟨place, .value failure⟩ → names failure
  malformed : ∀ place, x = .error ⟨place, .malformed⟩ → flawed

namespace Meets

variable {α β : Type} {x : Built α} {y : Built β} {good : α → Prop} {further : β → Prop}
  {names wider : Failure → Prop} {flawed looser : Prop}

theorem ok {a : α} (isGood : good a) : Meets good names flawed (.ok a) where
  made _ same := Except.ok.inj same ▸ isGood
  misnamed := nofun
  malformed := nofun

theorem error_malformed (depth : Nat) (isFlawed : flawed) :
    Meets good names flawed (Built.malformed depth) where
  made := nofun
  misnamed := nofun
  malformed _ _ := isFlawed

theorem imp {better : α → Prop} (meets : Meets good names flawed x)
    (value : ∀ a, good a → better a) (name : ∀ failure, names failure → wider failure)
    (flaw : flawed → looser) : Meets better wider looser x where
  made a made := value a (meets.made a made)
  misnamed place failure failed := name failure (meets.misnamed place failure failed)
  malformed place failed := flaw (meets.malformed place failed)

theorem map (f : α → β) (meets : Meets (fun a => further (f a)) names flawed x) :
    Meets further names flawed (x.map f) := by
  cases x with
  | ok a => exact .ok (meets.made a rfl)
  | error e =>
    exact ⟨nofun, fun place failure failed => meets.misnamed place failure (by cases failed; rfl),
      fun place failed => meets.malformed place (by cases failed; rfl)⟩

theorem both (one : Meets good names flawed x) (other : Meets further names flawed y) :
    Meets (fun parts => good parts.1 ∧ further parts.2) names flawed (x.both y) := by
  cases x with
  | ok a =>
    cases y with
    | ok b => exact .ok ⟨one.made a rfl, other.made b rfl⟩
    | error f =>
      exact ⟨nofun, fun place failure failed => other.misnamed place failure (by cases failed; rfl),
        fun place failed => other.malformed place (by cases failed; rfl)⟩
  | error e =>
    -- Of two faults the less deep one counts, and both are accounted for.
    have first : Meets (fun parts : α × β => good parts.1 ∧ further parts.2) names flawed
        (.error e) :=
      ⟨nofun, fun place failure failed => one.misnamed place failure (by cases failed; rfl),
        fun place failed => one.malformed place (by cases failed; rfl)⟩
    cases y with
    | ok b => exact first
    | error f =>
      rw [Built.both]
      split
      · exact ⟨nofun, fun place failure failed => other.misnamed place failure (by cases failed; rfl),
          fun place failed => other.malformed place (by cases failed; rfl)⟩
      · exact first

variable {front back all : Pairs → Prop} {isKey isValue : Datum → Prop} {key value : Built Datum}
  {before rest : Built Pairs}

theorem append (one : Meets front names flawed before) (other : Meets back names flawed rest)
    (whole : ∀ ps qs, front ps → back qs → all (ps ++ qs)) :
    Meets all names flawed (before.append rest) :=
  .map _ ((one.both other).imp (fun parts good => whole parts.1 parts.2 good.1 good.2)
    (fun _ named => named) id)

theorem cons (isNamed : Meets isKey names flawed key) (isGiven : Meets isValue names flawed value)
    (others : Meets back names flawed rest)
    (whole : ∀ k v ps, isKey k → isValue v → back ps → all ((k, v) :: ps)) :
    Meets all names flawed (Built.cons key value rest) :=
  .map _ (((isNamed.both isGiven).both others).imp
    (fun parts good => whole parts.1.1 parts.1.2 parts.2 good.1.1 good.1.2 good.2)
    (fun _ named => named) id)

end Meets

end Built

/-- Whether a value that is built of a node is one that the node has. -/
structure Node.HasValue (n : Node) (d : Datum) : Prop where
  finite : n.IsFinite → d.isEndless = false
  named : n.IsOrdinary → ∀ failure, ¬ n.NamesNothing failure

/-- Whether keys are simple values and no value is endless. -/
def PairsAreFinite (ps : Pairs) : Prop := ∀ p ∈ ps, p.1.isSimple = true ∧ p.2.isEndless = false

theorem PairsAreFinite.append {ps qs : Pairs} (front : PairsAreFinite ps) (back : PairsAreFinite qs) :
    PairsAreFinite (ps ++ qs) := fun p member =>
  (List.mem_append.mp member).elim (front p) (back p)

theorem PairsAreFinite.cons {k v : Datum} {ps : Pairs} (simple : k.isSimple = true)
    (finite : v.isEndless = false) (rest : PairsAreFinite ps) : PairsAreFinite ((k, v) :: ps) :=
  List.forall_mem_cons.mpr ⟨⟨simple, finite⟩, rest⟩

theorem PairsAreFinite.ofList {ps : Pairs} (finite : PairsAreFinite ps) :
    PairsAreFinite (Assoc.ofList ps) :=
  Assoc.forall_mem_ofList (fun k : Datum => k.isSimple = true)
    (fun v : Datum => v.isEndless = false) finite

theorem PairsAreFinite.map {ps : Pairs} (finite : PairsAreFinite ps) :
    (Datum.map (Assoc.ofList ps)).isEndless = false := by
  rw [Datum.isEndless]
  exact Datum.entriesAreEndless_of_forall fun e member => (finite.ofList e member).2

theorem PairsAreFinite.set {ps : Pairs} (finite : PairsAreFinite ps) :
    (Datum.set ((Assoc.ofList ps).map (·.1))).isEndless = false := by
  refine Datum.isEndless_set fun d member => ?_
  obtain ⟨e, isEntry, rfl⟩ := List.mem_map.mp member
  exact (finite.ofList e isEntry).1

section Meets

variable {k : Node} {tag : Tag} {depth : Nat} {value : Except Fault Datum} {good : Datum → Prop}
  {names : Failure → Prop} {flawed : Prop}

theorem meets_builtAt (made : ∀ d, value = .ok d → good d)
    (misnamed : ∀ failure, value = .error (.value failure) → names failure)
    (malformed : value = .error .malformed → flawed) :
    Built.Meets good names flawed (builtAt depth tag value) := by
  cases value with
  | ok d => exact .ok (made d rfl)
  | error fault =>
    cases fault with
    | malformed => exact .error_malformed _ (malformed rfl)
    | value failure =>
      refine ⟨nofun, fun place other failed => misnamed other ?_, nofun⟩
      cases failed
      rfl

theorem build_mapping {entries : List (Node × Node)} (simple : tag.isCollection = false) :
    build depth (.mapping tag entries) = builtAt depth tag (namedDatum tag entries) := by
  cases tag <;> first
    | rfl
    | cases (show true = false from simple)

theorem isSimple_of_build (simple : k.tag.isCollection = false) (finite : k.IsFinite) {d : Datum}
    (built : build depth k = .ok d) : d.isSimple = true := by
  cases k with
  | scalar tag text =>
    rw [build] at built
    exact isSimple_of_scalarDatum (mapError_eq_ok_iff.mp built)
  | sequence tag items =>
    cases tag <;> first
      | cases (show true = false from simple)
      | cases built
  | mapping tag entries =>
    rw [Node.tag] at simple
    rw [build_mapping simple] at built
    exact isSimple_of_namedDatum (mapError_eq_ok_iff.mp built)
  | again anchor tag => exact absurd .self (finite anchor tag)

theorem meets_keyOf (built : Built.Meets k.HasValue k.NamesNothing (¬ k.IsOrdinary) (build depth k)) :
    Built.Meets (fun d => (k.IsFinite → d.isSimple = true) ∧
        (k.IsWord → ∀ failure, ¬ k.NamesNothing failure))
      k.NamesNothing (¬ k.IsWord) (keyOf depth k (build depth k)) := by
  unfold keyOf
  split
  · rename_i isMark
    have noWord : ¬ k.IsWord := fun isWord => isWord.tag_ne.1 isMark
    cases text : k.text with
    | ok text => exact .ok ⟨fun _ => rfl, fun isWord => absurd isWord noWord⟩
    | error fault =>
      refine ⟨nofun, fun place failure failed => ?_, fun _ _ => noWord⟩
      cases failed
      exact ⟨k, .self, .mark isMark text⟩
  · split
    · rename_i isCollection
      refine .error_malformed depth fun isWord => ?_
      rw [isWord.tag_ne.2.2] at isCollection
      cases isCollection
    · rename_i isSimple
      have given := built.made
      refine ⟨fun d made => ⟨fun finite => ?_, fun isWord => (given d made).named (.word isWord)⟩,
        built.misnamed, fun place failed isWord => built.malformed place failed (.word isWord)⟩
      exact isSimple_of_build (by simpa using isSimple) finite made

end Meets

/-- Whether values that are built of some nodes are ones that these have. -/
structure HaveValues (items : List Node) (ds : List Datum) : Prop where
  finite : (∀ n ∈ items, n.IsFinite) → ∀ d ∈ ds, d.isEndless = false
  named : (∀ n ∈ items, n.IsOrdinary) → ∀ n ∈ items, ∀ failure, ¬ n.NamesNothing failure

/-- Whether what is built of a mapping's own entries is what these are. -/
structure HaveEntries (entries : List (Node × Node)) (ps : Pairs) : Prop where
  finite : EntriesAreFinite entries → PairsAreFinite ps
  named : EntriesAreOrdinary entries → ∀ failure, ¬ EntriesNameNothing entries failure

theorem meets_merged {tag : Tag} {entries : List (Node × Node)} {merged own : Built Pairs}
    (first : Built.Meets (fun ps => EntriesAreFinite entries → PairsAreFinite ps)
      (EntriesNameNothing entries) (¬ EntriesAreOrdinary entries) merged)
    (others : Built.Meets (HaveEntries entries) (EntriesNameNothing entries)
      (¬ EntriesAreOrdinary entries) own) :
    Built.Meets (fun ps => (Node.mapping tag entries).IsFinite → PairsAreFinite ps)
      (Node.mapping tag entries).NamesNothing True (merged.append own) :=
  .append (first.imp (fun _ good => good) (fun _ names => names.mapping) fun _ => trivial)
    (others.imp (fun _ good => good) (fun _ names => names.mapping) fun _ => trivial)
    fun _ _ front back finite =>
      (front (entriesAreFinite finite)).append (back.finite (entriesAreFinite finite))

section Nodes

variable {tag : Tag} {items : List Node} {entries : List (Node × Node)} {depth : Nat}

theorem meets_scalar (depth : Nat) (tag : Tag) (text : String) :
    Built.Meets (Node.scalar tag text).HasValue (Node.scalar tag text).NamesNothing
      (¬ (Node.scalar tag text).IsOrdinary) (build depth (.scalar tag text)) := by
  have isWord (ordinary : (Node.scalar tag text).IsOrdinary) : (Node.scalar tag text).IsWord := by
    cases ordinary with
    | word isWord => exact isWord
  rw [build]
  refine meets_builtAt (fun d made => ⟨fun _ => ?_, fun ordinary failure names => ?_⟩)
    (fun failure failed => ⟨_, .self, .scalar failed⟩) fun failed ordinary => ?_
  · exact Datum.isEndless_of_isSimple (isSimple_of_scalarDatum made)
  · rw [failed_of_namesNothing (isWord ordinary) names] at made
    cases made
  · obtain ⟨_, _, same, wellFormed⟩ := isWord ordinary
    cases same
    exact wellFormed failed

theorem meets_sequence
    (each : Built.Meets (HaveValues items) (fun failure => ∃ n ∈ items, n.NamesNothing failure)
      (¬ ∀ n ∈ items, n.IsOrdinary) (buildItems (depth + 1) items))
    (paired : Built.Meets (fun _ => True) (fun failure => ∃ n ∈ items, n.NamesNothing failure) True
      (buildPairs (depth + 1) items)) :
    Built.Meets (Node.sequence tag items).HasValue (Node.sequence tag items).NamesNothing
      (¬ (Node.sequence tag items).IsOrdinary) (build depth (.sequence tag items)) := by
  have noList (other : tag ≠ .seq) : ¬ (Node.sequence tag items).IsOrdinary := fun ordinary =>
    other (itemsAreOrdinary ordinary).1
  have pairs (other : tag ≠ .seq) {pair : Datum × Datum → Datum}
      (finite : ∀ p, (pair p).isEndless = false) : Built.Meets (Node.sequence tag items).HasValue
      (Node.sequence tag items).NamesNothing (¬ (Node.sequence tag items).IsOrdinary)
      ((buildPairs (depth + 1) items).map fun ps => .list (ps.map pair)) := by
    refine .map _ (paired.imp (fun ps _ => ⟨fun _ => ?_,
      fun ordinary => absurd ordinary (noList other)⟩)
      (fun failure ⟨n, member, names⟩ => names.item member) fun _ => noList other)
    rw [Datum.isEndless]
    refine Datum.itemsAreEndless_of_forall fun d member => ?_
    obtain ⟨p, _, rfl⟩ := List.mem_map.mp member
    exact finite p
  cases tag with
  | seq =>
    rw [build]
    refine .map _ (each.imp (fun ds values => ⟨fun finite => ?_, fun ordinary failure names => ?_⟩)
      (fun failure ⟨n, member, names⟩ => names.item member)
      fun flawed ordinary => flawed (itemsAreOrdinary ordinary).2)
    · rw [Datum.isEndless]
      exact Datum.itemsAreEndless_of_forall (values.finite fun n member => finite.item member)
    · obtain ⟨n, member, names⟩ := exists_item_of_namesNothing names
      exact values.named (itemsAreOrdinary ordinary).2 n member failure names
  | omap => exact pairs (by decide) fun _ => rfl
  | pairs => exact pairs (by decide) fun _ => rfl
  | _ => exact .error_malformed _ (noList (by decide))

theorem meets_mapping
    (merged : Built.Meets (fun ps => EntriesAreFinite entries → PairsAreFinite ps)
      (EntriesNameNothing entries) (¬ EntriesAreOrdinary entries)
      (buildEntries (depth + 1) entries).1)
    (own : Built.Meets (HaveEntries entries) (EntriesNameNothing entries)
      (¬ EntriesAreOrdinary entries) (buildEntries (depth + 1) entries).2) :
    Built.Meets (Node.mapping tag entries).HasValue (Node.mapping tag entries).NamesNothing
      (¬ (Node.mapping tag entries).IsOrdinary) (build depth (.mapping tag entries)) := by
  have noMap (other : tag ≠ .map) : ¬ (Node.mapping tag entries).IsOrdinary := fun ordinary =>
    other (entriesAreOrdinary ordinary).1
  have all : Built.Meets (HaveEntries entries) (EntriesNameNothing entries)
      (¬ EntriesAreOrdinary entries)
      (if Node.areMergeable entries then
        (buildEntries (depth + 1) entries).1.append (buildEntries (depth + 1) entries).2
      else Built.malformed (depth + 1)) := by
    split
    · exact merged.append own fun ps qs front back =>
        ⟨fun finite => (front finite).append (back.finite finite), back.named⟩
    · rename_i unmergeable
      exact .error_malformed _ fun ordinary => unmergeable (areMergeable_of_ordinary ordinary)
  by_cases isCollection : tag.isCollection = true
  · cases tag with
    | map =>
      rw [build]
      exact .map _ (all.imp
        (fun ps good => ⟨fun finite => (good.finite (entriesAreFinite finite)).map,
          fun ordinary failure names => good.named (entriesAreOrdinary ordinary).2 failure
            (entriesNameNothing_of_mapping names)⟩)
        (fun _ names => names.mapping)
        fun flawed ordinary => flawed (entriesAreOrdinary ordinary).2)
    | set =>
      rw [build]
      exact .map _ (all.imp
        (fun ps good => ⟨fun finite => (good.finite (entriesAreFinite finite)).set,
          fun ordinary => absurd ordinary (noMap (by decide))⟩)
        (fun _ names => names.mapping) fun _ => noMap (by decide))
    | seq | omap | pairs => exact .error_malformed _ (noMap (by decide))
    | _ => cases (show false = true from isCollection)
  · -- A mapping of another kind stands for the scalar that it names its value.
    have simple : tag.isCollection = false := by simpa using isCollection
    have other : tag ≠ .map := by
      rintro rfl
      cases simple
    rw [build_mapping simple]
    exact meets_builtAt
      (fun d made => ⟨fun _ => Datum.isEndless_of_isSimple (isSimple_of_namedDatum made),
        fun ordinary => absurd ordinary (noMap other)⟩)
      (fun failure failed => ⟨_, .self, .mapping simple failed⟩) fun _ => noMap other

end Nodes

mutual

/-- A node has the value that is built of it. Where none is built, a part of the node names a value
that does not exist, or the node is more than lists, mappings and scalars. -/
theorem meets_build (depth : Nat) (n : Node) :
    Built.Meets n.HasValue n.NamesNothing (¬ n.IsOrdinary) (build depth n) := by
  cases n with
  | again anchor tag =>
    refine .ok ⟨fun finite => absurd .self (finite anchor tag), fun ordinary => ?_⟩
    cases ordinary with
    | word isWord =>
      obtain ⟨_, _, same, -⟩ := isWord
      cases same
  | scalar tag text => exact meets_scalar depth tag text
  | sequence tag items =>
    exact meets_sequence (meets_buildItems (depth + 1) items) (meets_buildPairs (depth + 1) items)
  | mapping tag entries =>
    obtain ⟨merged, own⟩ := meets_buildEntries (depth + 1) entries
    exact meets_mapping merged own

theorem meets_buildItems (depth : Nat) (items : List Node) :
    Built.Meets (HaveValues items) (fun failure => ∃ n ∈ items, n.NamesNothing failure)
      (¬ ∀ n ∈ items, n.IsOrdinary) (buildItems depth items) := by
  cases items with
  | nil => exact .ok ⟨fun _ => nofun, fun _ => nofun⟩
  | cons n rest =>
    rw [buildItems]
    have first := (meets_build depth n).imp (fun _ good => good)
      (fun failure names => (⟨n, List.mem_cons_self .., names⟩ :
        ∃ other ∈ n :: rest, other.NamesNothing failure))
      fun flawed (ordinary : ∀ other ∈ n :: rest, other.IsOrdinary) =>
        flawed (ordinary n (List.mem_cons_self ..))
    have others := (meets_buildItems depth rest).imp (fun _ good => good)
      (fun failure ⟨other, member, names⟩ => (⟨other, List.mem_cons_of_mem _ member, names⟩ :
        ∃ other ∈ n :: rest, other.NamesNothing failure))
      fun flawed (ordinary : ∀ other ∈ n :: rest, other.IsOrdinary) =>
        flawed fun other member => ordinary other (List.mem_cons_of_mem _ member)
    refine .map _ ((first.both others).imp (fun parts good => ⟨fun finite => ?_,
      fun ordinary => ?_⟩) (fun _ names => names) id)
    · rw [List.forall_mem_cons] at finite ⊢
      exact ⟨good.1.finite finite.1, good.2.finite finite.2⟩
    · rw [List.forall_mem_cons] at ordinary ⊢
      exact ⟨good.1.named ordinary.1, good.2.named ordinary.2⟩

theorem meets_buildPairs (depth : Nat) (items : List Node) :
    Built.Meets (fun _ => True) (fun failure => ∃ n ∈ items, n.NamesNothing failure) True
      (buildPairs depth items) := by
  match items with
  | [] => exact .ok trivial
  | .mapping tag [(k, v)] :: rest =>
    have entry {failure : Failure} (names : k.NamesNothing failure ∨ v.NamesNothing failure) :
        ∃ n ∈ Node.mapping tag [(k, v)] :: rest, n.NamesNothing failure :=
      ⟨_, List.mem_cons_self .., EntriesNameNothing.mapping
        ⟨k, v, List.mem_singleton_self _, names⟩⟩
    rw [buildPairs]
    exact .cons
      ((meets_build depth k).imp (fun _ _ => trivial) (fun _ names => entry (.inl names))
        fun _ => trivial)
      ((meets_build depth v).imp (fun _ _ => trivial) (fun _ names => entry (.inr names))
        fun _ => trivial)
      ((meets_buildPairs depth rest).imp (fun _ _ => trivial)
        (fun _ ⟨n, member, names⟩ => ⟨n, List.mem_cons_of_mem _ member, names⟩) fun _ => trivial)
      fun _ _ _ _ _ _ => trivial
  | .mapping _ [] :: rest | .mapping _ (_ :: _ :: _) :: rest | .scalar .. :: rest
  | .sequence .. :: rest | .again .. :: rest => exact .error_malformed _ trivial

theorem meets_buildEntries (depth : Nat) (entries : List (Node × Node)) :
    Built.Meets (fun ps => EntriesAreFinite entries → PairsAreFinite ps)
        (EntriesNameNothing entries) (¬ EntriesAreOrdinary entries) (buildEntries depth entries).1 ∧
      Built.Meets (HaveEntries entries) (EntriesNameNothing entries)
        (¬ EntriesAreOrdinary entries) (buildEntries depth entries).2 := by
  match entries with
  | [] =>
    refine ⟨.ok fun _ => nofun, .ok ⟨fun _ => nofun, fun _ failure names => ?_⟩⟩
    obtain ⟨_, _, member, -⟩ := names
    cases member
  | (k, v) :: rest =>
    obtain ⟨merged, own⟩ := meets_buildEntries depth rest
    have entry {failure : Failure} (names : k.NamesNothing failure ∨ v.NamesNothing failure) :
        EntriesNameNothing ((k, v) :: rest) failure := ⟨k, v, List.mem_cons_self .., names⟩
    rw [buildEntries]
    by_cases isMerge : k.tag = .merge
    · have flawed : ¬ EntriesAreOrdinary ((k, v) :: rest) := fun ordinary =>
        (ordinary (k, v) (List.mem_cons_self ..)).1.tag_ne.2.1 isMerge
      simp only [if_pos isMerge]
      constructor
      · exact ((meets_mergedBy depth v).imp (fun _ good => good) (fun _ names => entry (.inr names))
            fun _ => flawed).append
          (merged.imp (fun _ good => good) (fun _ names => names.cons _) fun _ => flawed)
          fun ps qs front back finite =>
            (front finite.head.2).append (back finite.tail)
      · exact own.imp (fun ps good => ⟨fun finite => good.finite finite.tail,
          fun ordinary => absurd ordinary flawed⟩) (fun _ names => names.cons _) fun _ => flawed
    · simp only [if_neg isMerge]
      constructor
      · exact merged.imp (fun ps good finite => good finite.tail) (fun _ names => names.cons _)
          fun flawed ordinary => flawed ordinary.tail
      · refine .cons
          ((meets_keyOf (meets_build depth k)).imp (fun _ good => good)
            (fun _ names => entry (.inl names)) fun flawed ordinary =>
              flawed (ordinary (k, v) (List.mem_cons_self ..)).1)
          ((meets_build depth v).imp (fun _ good => good) (fun _ names => entry (.inr names))
            fun flawed ordinary => flawed (ordinary (k, v) (List.mem_cons_self ..)).2)
          (own.imp (fun _ good => good) (fun _ names => names.cons _)
            fun flawed ordinary => flawed ordinary.tail)
          fun key value ps isKey isValue others => ⟨fun finite => ?_,
            fun ordinary failure names => ?_⟩
        · obtain ⟨ofKey, ofValue⟩ := finite.head
          exact .cons (isKey.1 ofKey) (isValue.finite ofValue) (others.finite finite.tail)
        · obtain ⟨isWord, isOrdinary⟩ := ordinary (k, v) (List.mem_cons_self ..)
          obtain ⟨k', v', member, names⟩ := names
          rcases List.mem_cons.mp member with same | later
          · cases same
            exact names.elim (isKey.2 isWord failure) (isValue.named isOrdinary failure)
          · exact others.named ordinary.tail failure ⟨k', v', later, names⟩

theorem meets_mergedBy (depth : Nat) (n : Node) :
    Built.Meets (fun ps => n.IsFinite → PairsAreFinite ps) n.NamesNothing True
      (mergedBy depth n) := by
  cases n with
  | scalar tag text => exact .error_malformed _ trivial
  | again anchor tag => exact .error_malformed _ trivial
  | mapping tag entries =>
    obtain ⟨merged, own⟩ := meets_buildEntries depth entries
    rw [mergedBy]
    exact meets_merged merged own
  | sequence tag items =>
    rw [mergedBy]
    exact (meets_mergedItems depth items).imp
      (fun ps good finite => good fun n member => finite.item member)
      (fun _ ⟨n, member, names⟩ => names.item member) id

theorem meets_mergedItems (depth : Nat) (items : List Node) :
    Built.Meets (fun ps => (∀ n ∈ items, n.IsFinite) → PairsAreFinite ps)
      (fun failure => ∃ n ∈ items, n.NamesNothing failure) True (mergedItems depth items) := by
  match items with
  | [] => exact .ok fun _ => nofun
  | .mapping tag entries :: rest =>
    obtain ⟨merged, own⟩ := meets_buildEntries depth entries
    have others := meets_mergedItems depth rest
    rw [mergedItems]
    have first : Built.Meets (fun ps => (Node.mapping tag entries).IsFinite → PairsAreFinite ps)
        (Node.mapping tag entries).NamesNothing True _ := meets_merged merged own
    refine .append
      (others.imp (fun _ good => good) (fun _ ⟨n, member, names⟩ =>
        ⟨n, List.mem_cons_of_mem _ member, names⟩) id)
      (first.imp (fun _ good => good) (fun _ names => ⟨_, List.mem_cons_self .., names⟩) id)
      fun ps qs front back finite => ?_
    rw [List.forall_mem_cons] at finite
    exact (front finite.2).append (back finite.1)
  | .scalar .. :: rest | .sequence .. :: rest | .again .. :: rest =>
    exact .error_malformed _ trivial

end

end Yaml
end InlineQuery
