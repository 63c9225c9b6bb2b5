namespace InlineQuery.Assoc

/-! Pairs in insertion order. Writing to a key that is present keeps its place. -/

variable {α β : Type}

def get? [BEq α] (entries : List (α × β)) (key : α) : Option β :=
  (entries.find? fun e => e.1 == key).map (·.2)

def contains [BEq α] (entries : List (α × β)) (key : α) : Bool :=
  entries.any fun e => e.1 == key

def put [BEq α] (entries : List (α × β)) (key : α) (value : β) : List (α × β) :=
  if contains entries key then entries.map fun e => if e.1 == key then (e.1, value) else e
  else entries ++ [(key, value)]

def erase [BEq α] (entries : List (α × β)) (key : α) : List (α × β) :=
  entries.filter fun e => !(e.1 == key)

/-- Writes the entries of the second list over the first, in order. -/
def merge [BEq α] (entries more : List (α × β)) : List (α × β) :=
  more.foldl (fun es e => put es e.1 e.2) entries

/-- The pairs as if written one after the other to nothing. -/
def ofList [BEq α] (pairs : List (α × β)) : List (α × β) := merge [] pairs

variable [BEq α]

theorem contains_eq_isSome (entries : List (α × β)) (key : α) :
    contains entries key = (get? entries key).isSome := by
  simp [contains, get?, List.isSome_find?]

theorem keys_put (entries : List (α × β)) (key : α) (value : β) :
    (put entries key value).map (·.1) =
      if contains entries key then entries.map (·.1) else entries.map (·.1) ++ [key] := by
  unfold put
  split
  · rw [List.map_map]
    refine List.map_congr_left fun e _ => ?_
    simp only [Function.comp_apply]
    split <;> rfl
  · simp

variable [LawfulBEq α] {entries : List (α × β)}

theorem get?_put (entries : List (α × β)) (key other : α) (value : β) :
    get? (put entries key value) other =
      if key == other then some value else get? entries other := by
  by_cases present : contains entries key = true
  · have keys : ((fun e : α × β => e.1 == other) ∘
        fun e => if e.1 == key then (e.1, value) else e) = fun e => e.1 == other := by
      funext e
      simp only [Function.comp_apply]
      split <;> rfl
    rw [put, if_pos present, get?, List.find?_map, keys]
    cases first : entries.find? (fun e => e.1 == other) with
    | none =>
      by_cases same : key = other
      · subst same
        rw [contains_eq_isSome, get?, first] at present
        cases present
      · simp [get?, first, same]
    | some e =>
      have atOther : e.1 = other := by simpa using List.find?_some first
      by_cases same : key = other
      · simp [atOther, same]
      · have differs : ¬ other = key := fun h => same h.symm
        simp [get?, first, atOther, same, differs]
  · rw [put, if_neg present, get?, List.find?_append, List.find?_singleton]
    by_cases same : key = other
    · subst same
      rw [contains_eq_isSome, get?, Option.isSome_map, Bool.not_eq_true,
        Option.isSome_eq_false_iff, Option.isNone_iff_eq_none] at present
      simp [present]
    · simp [get?, same]

theorem get?_erase (entries : List (α × β)) (key other : α) :
    get? (erase entries key) other = if key == other then none else get? entries other := by
  unfold get? erase
  rw [List.find?_filter]
  by_cases same : key = other
  · simp [same]
  · have differs (e : α × β) : (!(e.1 == key) && e.1 == other) = (e.1 == other) := by
      by_cases atOther : e.1 = other
      · have apart : ¬ other = key := fun h => same h.symm
        simp [atOther, apart]
      · simp [atOther]
    simp [differs, same]

theorem nodup_keys_put (distinct : (entries.map (·.1)).Nodup) (key : α) (value : β) :
    ((put entries key value).map (·.1)).Nodup := by
  rw [keys_put]
  split
  · exact distinct
  · rename_i absent
    refine List.nodup_append.mpr ⟨distinct, by simp, ?_⟩
    intro k member other single same
    refine absent (List.any_eq_true.mpr ?_)
    obtain ⟨e, held, rfl⟩ := List.mem_map.mp member
    rw [List.mem_singleton] at single
    exact ⟨e, held, by simp [same, single]⟩

theorem nodup_keys_ofList (pairs : List (α × β)) : ((ofList pairs).map (·.1)).Nodup := by
  have merged (entries : List (α × β)) (distinct : (entries.map (·.1)).Nodup) :
      ((merge entries pairs).map (·.1)).Nodup := by
    unfold merge
    induction pairs generalizing entries with
    | nil => exact distinct
    | cons e pairs ih => exact ih _ (nodup_keys_put distinct e.1 e.2)
  exact merged [] .nil

/-- Where keys are distinct an entry is found by its key. -/
theorem get?_of_mem (distinct : (entries.map (·.1)).Nodup) {key : α} {value : β}
    (member : (key, value) ∈ entries) : get? entries key = some value := by
  induction entries with
  | nil => cases member
  | cons e entries ih =>
    rw [List.map_cons, List.nodup_cons] at distinct
    rcases List.mem_cons.mp member with rfl | later
    · simp [get?]
    · have differs : ¬ e.1 = key := by
        rintro rfl
        exact distinct.1 (List.mem_map.mpr ⟨_, later, rfl⟩)
      have found := ih distinct.2 later
      simpa [get?, differs] using found

end InlineQuery.Assoc
