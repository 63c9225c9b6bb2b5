import InlineQuery.Literal.Scan
import InlineQuery.Proofs.Operation.Index
import InlineQuery.Proofs.Text.Utf8

namespace InlineQuery

namespace Fragment

/-- The first fragment of a name. -/
def named (fragments : List Fragment) (name : String) : Option Fragment :=
  fragments.find? (·.name == name)

/-- The fragments that names lead to: those that they stand for, and those that the spreads of a
fragment they lead to stand for. -/
inductive IsReached (lookup : String → Option Fragment) (names : List String) : Fragment → Prop
  | spread {name : String} {fragment : Fragment} (member : name ∈ names)
      (found : lookup name = some fragment) : IsReached lookup names fragment
  | next {before fragment : Fragment} {name : String} (reached : IsReached lookup names before)
      (member : name ∈ before.spreads) (found : lookup name = some fragment) :
      IsReached lookup names fragment

/-- Other names lead as far if they lead to what the names stand for. -/
theorem IsReached.trans {lookup lookup' : String → Option Fragment} {names names' : List String}
    {fragment : Fragment} (reached : IsReached lookup names fragment)
    (starts : ∀ name ∈ names, ∀ f, lookup name = some f → IsReached lookup' names' f)
    (extended : ∀ name f, lookup name = some f → lookup' name = some f) :
    IsReached lookup' names' fragment := by
  induction reached with
  | spread member found => exact starts _ member _ found
  | next _ member found before => exact .next before member (extended _ _ found)

variable {available fragments : List Fragment} {fragment : Fragment} {name : String}
  {pending : List String}

theorem name_of_named (found : named fragments name = some fragment) : fragment.name = name := by
  simpa using List.find?_some found

theorem named_without_self (name : String) (fragments : List Fragment) :
    named (without name fragments) name = none := by
  simp [named, without]

theorem named_filter {p : Fragment → Bool} {own : Bool} (name : String)
    (same : ∀ f : Fragment, f.name = name → p f = own) (fragments : List Fragment) :
    named (fragments.filter p) name = if own then named fragments name else none := by
  induction fragments with
  | nil => simp [named]
  | cons f fragments ih =>
    simp only [named] at ih
    by_cases isName : f.name = name
    · have kept := same f isName
      cases own <;> simp [named, kept, isName, ih]
    · cases kept : p f <;> simp [named, kept, isName, ih]

theorem named_without {other : String} (differs : other ≠ name) (fragments : List Fragment) :
    named (without name fragments) other = named fragments other := by
  have kept (f : Fragment) (isOther : f.name = other) : (f.name != name) = true := by
    simpa [isOther] using differs
  exact named_filter other kept fragments

/-- Keeping the first fragment of each name keeps what names stand for. -/
theorem named_firsts (fragments : List Fragment) (name : String) :
    named (firsts fragments) name = named fragments name := by
  have folded (found : List Fragment) :
      named (fragments.foldl (fun found f =>
        if found.any (·.name == f.name) then found else found ++ [f]) found) name =
        named (found ++ fragments) name := by
    induction fragments generalizing found with
    | nil => simp
    | cons f fragments ih =>
      rw [List.foldl_cons, ih]
      split
      · rename_i known
        unfold named
        rw [List.find?_append, List.find?_append, List.find?_cons]
        by_cases isName : f.name = name
        · have present : (found.find? (·.name == name)).isSome = true := by
            rw [List.find?_isSome, ← isName]
            exact List.any_eq_true.mp known
          obtain ⟨g, first⟩ := Option.isSome_iff_exists.mp present
          simp [first]
        · simp only [beq_false_of_ne isName]
      · simp
  exact folded []

/-- Once a fragment is taken, what other names stand for is what is not that fragment. -/
theorem named_without_eq_filter (found : named available name = some fragment) (other : String) :
    named (without name available) other =
      (named available other).filter fun f => !f == fragment := by
  by_cases same : other = name
  · subst same
    rw [named_without_self, found, Option.filter_some, beq_self_eq_true]
    rfl
  · rw [named_without same]
    cases stands : named available other with
    | none => rfl
    | some f =>
      have differs : f ≠ fragment := by
        rintro rfl
        exact same ((name_of_named stands).symm.trans (name_of_named found))
      rw [Option.filter_some, beq_false_of_ne differs]
      rfl

/-- What is reached are the first encounters of what the pending names, and then the spreads of
what is reached, in order, stand for. -/
theorem reach_eq_eraseDups (available : List Fragment) (pending : List String) :
    reach available pending =
      ((pending ++ (reach available pending).flatMap (·.spreads)).filterMap
        (named available)).eraseDups := by
  fun_induction reach available pending with
  | case1 => simp
  | case2 available name pending absent ih =>
    have skipped (names : List String) : (name :: names).filterMap (named available) =
        names.filterMap (named available) := List.filterMap_cons_none absent
    rw [List.cons_append, skipped]
    exact ih
  | case3 available name pending fragment found ih =>
    have rest (names : List String) : (names.filterMap (named available)).filter
        (fun f => !f == fragment) = names.filterMap (named (without name available)) := by
      rw [List.filter_filterMap]
      congr 1
      funext other
      exact (named_without_eq_filter found other).symm
    have taken : named available name = some fragment := found
    rw [List.cons_append, List.filterMap_cons_some taken, List.eraseDups_cons, rest,
      List.flatMap_cons, ← List.append_assoc, ← ih]

theorem mem_reach (available : List Fragment) (pending : List String) :
    fragment ∈ reach available pending ↔
      ∃ name, (name ∈ pending ∨ ∃ before ∈ reach available pending, name ∈ before.spreads) ∧
        named available name = some fragment := by
  conv_lhs => rw [reach_eq_eraseDups]
  simp only [List.mem_eraseDups, List.mem_filterMap, List.mem_append, List.mem_flatMap]

/-- Nothing is reached but through pending names and spreads. -/
theorem isReached_of_mem_reach (member : fragment ∈ reach available pending) :
    IsReached (named available) pending fragment := by
  fun_induction reach available pending with
  | case1 => cases member
  | case2 available name pending absent ih =>
    exact (ih member).trans (fun _ isPending _ => .spread (.tail _ isPending)) fun _ _ => id
  | case3 available name pending first found ih =>
    have start : IsReached (named available) (name :: pending) first := .spread (.head _) found
    have extended (other : String) (f : Fragment)
        (stands : named (without name available) other = some f) :
        named available other = some f := by
      rw [named_without_eq_filter found, Option.filter_eq_some_iff] at stands
      exact stands.1
    rcases List.mem_cons.mp member with rfl | later
    · exact start
    · refine (ih later).trans (fun other isNext f stands => ?_) extended
      rcases List.mem_append.mp isNext with isPending | isSpread
      · exact .spread (.tail _ isPending) (extended other f stands)
      · exact .next start isSpread (extended other f stands)

theorem mem_reach_iff (available : List Fragment) (pending : List String) (fragment : Fragment) :
    fragment ∈ reach available pending ↔ IsReached (named available) pending fragment := by
  refine ⟨isReached_of_mem_reach, fun reached => ?_⟩
  induction reached with
  | spread isPending found => exact (mem_reach ..).mpr ⟨_, .inl isPending, found⟩
  | next _ spread found before => exact (mem_reach ..).mpr ⟨_, .inr ⟨_, before, spread⟩, found⟩

theorem nodup_names_reach (available : List Fragment) (pending : List String) :
    ((reach available pending).map (·.name)).Nodup := by
  fun_induction reach available pending with
  | case1 => exact .nil
  | case2 _ _ _ _ ih => exact ih
  | case3 available name pending fragment found ih =>
    refine List.nodup_cons.mpr ⟨fun again => ?_, ih⟩
    obtain ⟨f, member, same⟩ := List.mem_map.mp again
    obtain ⟨other, _, stands⟩ := (mem_reach ..).mp member
    -- A fragment of the name that was taken is not available any more.
    have isOther := List.mem_of_find?_eq_some stands
    simp only [without, List.mem_filter, bne_iff_ne] at isOther
    exact isOther.2 (same.trans (name_of_named found))

end Fragment

namespace Operation

/-- An operation with the texts of fragments behind its own. -/
def appending (operation : Operation) : List Fragment → Operation
  | [] => operation
  | fragments => { operation with
      source := OperationIndex.joinTexts (Text.trim operation.source :: fragments.map (·.text)) }

theorem literal_appending (operation : Operation) (fragments : List Fragment) :
    (operation.appending fragments).literal = operation.literal := by
  cases fragments <;> rfl

theorem source_appending (operation : Operation) {fragments : List Fragment}
    (nonempty : fragments ≠ []) : (operation.appending fragments).source =
      OperationIndex.joinTexts (Text.trim operation.source :: fragments.map (·.text)) := by
  cases fragments with
  | nil => exact absurd rfl nonempty
  | cons => rfl

end Operation

namespace OperationIndex

variable {index : OperationIndex} {entry : IndexEntry}

/-- All operations of an entry are sent with the text of its literal. -/
theorem source_of_mem_operations {literals : List Literal} (made : ofLiterals literals = .ok index)
    (isEntry : entry ∈ index.entries) {op : Operation} (member : op ∈ entry.operations) :
    op.source = entry.literal.graphqlText := by
  obtain ⟨literal, -, step⟩ := exists_outcome_of_mem made isEntry
  unfold outcome at step
  split at step
  · cases step
  · rename_i document _
    cases all : literal.operationsOf document with
    | error e => rw [all] at step; cases step
    | ok ops =>
      rw [all] at step
      cases step
      unfold Literal.operationsOf at all
      split at all
      · rename_i every
        cases all
        obtain ⟨⟨definition, ordinal⟩, -, one⟩ := exists_mem_of_mapM_ok every member
        exact (Literal.operation_ok one).2.2
      · cases all

/-- What a name that an entry spreads stands for outside of it: the first definition of the index,
unless the entry defines the name itself. -/
def elsewhere (index : OperationIndex) (entry : IndexEntry) (name : String) : Option Fragment :=
  if entry.document.fragmentNames.contains name then none
  else Fragment.named (index.entries.flatMap (·.fragments)) name

/-- The fragments that an entry needs from other entries: all that its spreads lead to, each once,
in the order in which a search in breadth meets them first, where what is met are the spreads of
the entry and then those of each fragment that was found. -/
structure Lacks (index : OperationIndex) (entry : IndexEntry) (fragments : List Fragment) :
    Prop where
  reached : ∀ f, f ∈ fragments ↔
    Fragment.IsReached (index.elsewhere entry) entry.document.spreads f
  once : (fragments.map (·.name)).Nodup
  inBreadth : fragments =
    ((entry.document.spreads ++ fragments.flatMap (·.spreads)).filterMap
      (index.elsewhere entry)).eraseDups

theorem named_available (index : OperationIndex) (entry : IndexEntry) :
    Fragment.named (index.fragments.filter fun f =>
      !entry.document.fragmentNames.contains f.name) = index.elsewhere entry := by
  funext name
  have same (f : Fragment) (isNamed : f.name = name) :
      (!entry.document.fragmentNames.contains f.name) =
        !entry.document.fragmentNames.contains name := by rw [isNamed]
  rw [Fragment.named_filter name same, OperationIndex.fragments, Fragment.named_firsts, elsewhere]
  cases entry.document.fragmentNames.contains name <;> rfl

theorem lacks_lacking (index : OperationIndex) (entry : IndexEntry) :
    index.Lacks entry (index.lacking entry) where
  reached f := by rw [lacking, Fragment.mem_reach_iff, named_available]
  once := Fragment.nodup_names_reach ..
  inBreadth := by
    have met := Fragment.reach_eq_eraseDups (index.fragments.filter fun f =>
      !entry.document.fragmentNames.contains f.name) entry.document.spreads
    rwa [named_available] at met

theorem linkEntry_eq (same : ∀ op ∈ entry.operations, op.source = entry.literal.graphqlText) :
    index.linkEntry entry =
      { entry with operations := entry.operations.map (·.appending (index.lacking entry)) } := by
  obtain ⟨literal, document, operations⟩ := entry
  cases operations with
  | nil => rfl
  | cons first rest =>
    unfold linkEntry
    cases index.lacking ⟨literal, document, first :: rest⟩ with
    | nil => exact congrArg (IndexEntry.mk literal document) (List.map_id' _).symm
    | cons f fs =>
      refine congrArg (IndexEntry.mk literal document) (List.map_congr_left fun op isOp => ?_)
      rw [Operation.appending, same op isOp, same first (.head _)]
      exact List.cons_ne_nil f fs

/-- Linking appends to each operation the fragments that its literal needs from other literals, and
changes nothing else. -/
theorem link_appends {literals : List Literal} (made : ofLiterals literals = .ok index) :
    index.link.failures = index.failures ∧
      List.Forall₂ (fun entry linked => ∃ fragments, index.Lacks entry fragments ∧
        linked = { entry with operations := entry.operations.map (·.appending fragments) })
        index.entries index.link.entries := by
  refine ⟨rfl, List.forall₂_map_right_iff.mpr (List.forall₂_same.mpr fun entry member => ?_)⟩
  exact ⟨index.lacking entry, lacks_lacking index entry,
    linkEntry_eq fun op isOp => source_of_mem_operations made member isOp⟩

/-- A query and two fragments that spread each other; one of them is defined twice and also spreads
a name that has no definition. -/
def cyclicFragments : List Literal :=
  literals ("query Q \x7b ...A \x7d fragment A on T \x7b ...B ...None \x7d " ++
    "fragment B on T \x7b ...A ...B \x7d fragment A on T \x7b a \x7d").toList .graphql

theorem link_appends_cyclic :
    ∃ index, ofLiterals cyclicFragments = .ok index ∧ index.entries.length = 4 ∧
      List.Forall₂ (fun entry linked => ∃ fragments, index.Lacks entry fragments ∧
        linked = { entry with operations := entry.operations.map (·.appending fragments) })
        index.entries index.link.entries := by
  obtain ⟨index, made, four⟩ : ∃ index ∈ (ofLiterals cyclicFragments).toOption,
      index.entries.length = 4 := by
    have spelled : cyclicFragments = literals _ .graphql := congrArg (literals · .graphql)
      (Text.toList_append_of String.toList_ofList String.toList_ofList)
    rw [spelled]
    decide +kernel
  have made := eq_ok_of_mem_toOption made
  exact ⟨index, made, four, (link_appends made).2⟩

end OperationIndex
end InlineQuery
