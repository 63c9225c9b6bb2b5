import InlineQuery.Data.Assoc

/-!
Entries that are written over others. What is found under a key is the last value that was written
to it.
-/

namespace InlineQuery.Assoc

variable {α β : Type} [BEq α] {entries more : List (α × β)} {key : α} {value : β}

theorem get?_append (front back : List (α × β)) (key : α) :
    get? (front ++ back) key = (get? front key).or (get? back key) := by
  rw [get?, List.find?_append, Option.map_or]
  rfl

theorem exists_mem_of_get? (found : get? entries key = some value) :
    ∃ e ∈ entries, e.2 = value := by
  obtain ⟨e, first, rfl⟩ := Option.map_eq_some_iff.mp found
  exact ⟨e, List.mem_of_find?_eq_some first, rfl⟩

section Kept

variable {isKey : α → Prop} {isValue : β → Prop}

theorem forall_mem_put (held : ∀ e ∈ entries, isKey e.1 ∧ isValue e.2) (isNew : isKey key)
    (given : isValue value) : ∀ e ∈ put entries key value, isKey e.1 ∧ isValue e.2 := by
  intro e member
  unfold put at member
  split at member
  · obtain ⟨old, isOld, rfl⟩ := List.mem_map.mp member
    split
    · exact ⟨(held old isOld).1, given⟩
    · exact held old isOld
  · rcases List.mem_append.mp member with isOld | last
    · exact held e isOld
    · rw [List.mem_singleton.mp last]
      exact ⟨isNew, given⟩

theorem forall_mem_merge (held : ∀ e ∈ entries, isKey e.1 ∧ isValue e.2)
    (given : ∀ e ∈ more, isKey e.1 ∧ isValue e.2) :
    ∀ e ∈ merge entries more, isKey e.1 ∧ isValue e.2 := by
  induction more generalizing entries with
  | nil => exact held
  | cons e more ih =>
    obtain ⟨isNew, isGiven⟩ := given e (List.mem_cons_self ..)
    exact ih (forall_mem_put held isNew isGiven) fun later member =>
      given later (List.mem_cons_of_mem _ member)

/-- What is true of the keys and of the values that are written is true of those that stand there in
the end. Two of them may stand together that were not written together. -/
theorem forall_mem_ofList (isKey : α → Prop) (isValue : β → Prop) {pairs : List (α × β)}
    (given : ∀ e ∈ pairs, isKey e.1 ∧ isValue e.2) : ∀ e ∈ ofList pairs, isKey e.1 ∧ isValue e.2 :=
  forall_mem_merge nofun given

end Kept

variable [LawfulBEq α]

theorem contains_eq_false_iff : contains entries key = false ↔ key ∉ entries.map (·.1) := by
  rw [contains, List.any_eq_false]
  simp only [beq_iff_eq, List.mem_map, not_exists, not_and]

theorem mem_of_get? (found : get? entries key = some value) : (key, value) ∈ entries := by
  obtain ⟨e, first, rfl⟩ := Option.map_eq_some_iff.mp found
  have isKey : e.1 = key := by simpa using List.find?_some first
  exact isKey ▸ List.mem_of_find?_eq_some first

theorem get?_eq_none_iff : get? entries key = none ↔ key ∉ entries.map (·.1) := by
  rw [← contains_eq_false_iff, contains_eq_isSome, Option.isSome_eq_false_iff,
    Option.isNone_iff_eq_none]

/-- Of the values that are written to a key the last one counts. -/
theorem get?_merge (entries more : List (α × β)) (key : α) :
    get? (merge entries more) key = (get? more.reverse key).or (get? entries key) := by
  induction more generalizing entries with
  | nil => rfl
  | cons e more ih =>
    have later : merge entries (e :: more) = merge (put entries e.1 e.2) more := rfl
    rw [later, ih, List.reverse_cons, get?_append, Option.or_assoc, get?_put]
    congr 1
    by_cases same : e.1 = key <;> simp [get?, same]

theorem nodup_keys_merge (distinct : (entries.map (·.1)).Nodup) (more : List (α × β)) :
    ((merge entries more).map (·.1)).Nodup := by
  induction more generalizing entries with
  | nil => exact distinct
  | cons e more ih => exact ih (nodup_keys_put distinct e.1 e.2)

/-- Entries with new keys are appended. -/
theorem merge_of_nodup (distinct : ((entries ++ more).map (·.1)).Nodup) :
    merge entries more = entries ++ more := by
  induction more generalizing entries with
  | nil => exact (List.append_nil entries).symm
  | cons e more ih =>
    rw [List.append_cons] at distinct ⊢
    have absent : contains entries e.1 = false := by
      rw [contains_eq_false_iff]
      rw [List.map_append, List.map_append] at distinct
      have apart := (List.nodup_append.mp (List.nodup_append.mp distinct).1).2.2
      exact fun member => apart e.1 member e.1 (by simp) rfl
    have isPut : put entries e.1 e.2 = entries ++ [e] := by simp [put, absent]
    have later : merge entries (e :: more) = merge (put entries e.1 e.2) more := rfl
    rw [later, isPut]
    exact ih distinct

theorem ofList_of_nodup (distinct : (entries.map (·.1)).Nodup) : ofList entries = entries :=
  merge_of_nodup distinct

theorem mem_of_mem_ofList {pairs : List (α × β)} (member : (key, value) ∈ ofList pairs) :
    (key, value) ∈ pairs := by
  have found := get?_of_mem (nodup_keys_ofList pairs) member
  rw [ofList, get?_merge] at found
  exact List.mem_reverse.mp (mem_of_get? (by simpa [get?] using found))

/-- Keys that are apart stand in the place of the values that were there or behind them. -/
theorem mem_merge_iff (distinct : (entries.map (·.1)).Nodup) (apart : (more.map (·.1)).Nodup) :
    (key, value) ∈ merge entries more ↔
      (key, value) ∈ more ∨ (key, value) ∈ entries ∧ key ∉ more.map (·.1) := by
  have found {pairs : List (α × β)} (nodup : (pairs.map (·.1)).Nodup) :
      (key, value) ∈ pairs ↔ get? pairs key = some value :=
    ⟨get?_of_mem nodup, mem_of_get?⟩
  have turned : ((more.reverse).map (·.1)).Nodup := by
    rw [List.map_reverse]
    exact List.pairwise_reverse.mpr (apart.imp Ne.symm)
  have keys : key ∉ more.map (·.1) ↔ get? more.reverse key = none := by
    rw [get?_eq_none_iff, List.map_reverse, List.mem_reverse]
  rw [found (nodup_keys_merge distinct more), get?_merge, ← List.mem_reverse, found turned,
    found distinct, keys]
  cases get? more.reverse key <;> simp

end InlineQuery.Assoc
