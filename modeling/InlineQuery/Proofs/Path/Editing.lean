import InlineQuery.Proofs.Path.Resolving

/-!
Files that are written and removed. Directories stay, so a path that leads somewhere keeps leading
there.
-/

namespace InlineQuery
namespace Files

variable {fs other : Files} {path : Path} {parts place from_ reached : List String}
  {entry : FileEntry}

/-- Whether every directory is still there, and relative paths start where they did. -/
structure KeepsDirectories (fs other : Files) : Prop where
  current : other.current = fs.current
  directories : ∀ parts, fs.hasDirectory parts = true → other.hasDirectory parts = true

namespace KeepsDirectories

theorem refl (fs : Files) : fs.KeepsDirectories fs := ⟨rfl, fun _ dir => dir⟩

theorem trans {last : Files} (first : fs.KeepsDirectories other)
    (second : other.KeepsDirectories last) : fs.KeepsDirectories last :=
  ⟨second.current.trans first.current, fun parts dir => second.directories parts
    (first.directories parts dir)⟩

theorem follow (kept : fs.KeepsDirectories other) (found : fs.follow from_ parts = .ok reached) :
    other.follow from_ parts = .ok reached := by
  induction parts generalizing from_ with
  | nil => exact found
  | cons part parts ih =>
    rw [Files.follow] at found ⊢
    split at found
    · rename_i dir
      rw [if_pos (kept.directories from_ dir)]
      exact ih found
    · split at found <;> cases found

theorem locate (kept : fs.KeepsDirectories other) (found : fs.locate path = .ok parts) :
    other.locate path = .ok parts := by
  unfold Files.locate at found ⊢
  rw [kept.current]
  exact kept.follow found

end KeepsDirectories

/-- A directory is one by itself, or because of a file inside. -/
theorem hasDirectory_iff : fs.hasDirectory parts = true ↔
    parts.isEmpty = true ∨ parts <+: fs.current.parts ∨ (∃ dir ∈ fs.directories, parts <+: dir) ∨
      ∃ e ∈ fs.files, parts <+: e.1 ∧ parts.length < e.1.length := by
  simp only [hasDirectory, Bool.or_eq_true, List.isPrefixOf_iff_prefix, List.any_eq_true,
    Bool.and_eq_true, decide_eq_true_eq, or_assoc]

theorem keepsDirectories_write (fs : Files) (path : Path) (entry : FileEntry) :
    fs.KeepsDirectories (fs.write path entry) := by
  refine ⟨rfl, fun parts dir => ?_⟩
  rw [hasDirectory_iff] at dir ⊢
  rcases dir with empty | current | listed | ⟨e, member, within, shorter⟩
  · exact .inl empty
  · exact .inr (.inl current)
  · exact .inr (.inr (.inl listed))
  · refine .inr (.inr (.inr ?_))
    by_cases replaced : e.1 = (fs.resolve path).parts
    · exact ⟨_, List.mem_append_right _ (List.mem_singleton_self _), replaced ▸ within,
        replaced ▸ shorter⟩
    · exact ⟨e, List.mem_append_left _ (List.mem_filter.mpr ⟨member, by simpa using replaced⟩),
        within, shorter⟩

theorem keepsDirectories_remove (fs : Files) (path : Path) :
    fs.KeepsDirectories (fs.remove path) := by
  refine ⟨rfl, fun parts dir => ?_⟩
  rw [hasDirectory_iff] at dir ⊢
  rcases dir with empty | current | ⟨listed, member, within⟩ | ⟨e, member, within, shorter⟩
  · exact .inl empty
  · exact .inr (.inl current)
  · exact .inr (.inr (.inl ⟨listed, List.mem_cons_of_mem _ member, within⟩))
  · by_cases removed : e.1 = (fs.resolve path).parts
    -- The directory of the file is listed from now on.
    · refine .inr (.inr (.inl ⟨_, List.mem_cons_self .., ?_⟩))
      rw [← removed]
      refine List.prefix_of_prefix_length_le within (List.dropLast_prefix _) ?_
      rw [List.length_dropLast]
      omega
    · exact .inr (.inr (.inr
        ⟨e, List.mem_filter.mpr ⟨member, by simpa using removed⟩, within, shorter⟩))

theorem exists_locate_of_lookup? (found : fs.lookup? path = some entry) :
    ∃ parts, fs.locate path = .ok parts := by
  unfold lookup? at found
  cases place : fs.locate path with
  | error e => rw [place] at found; cases found
  | ok parts => exact ⟨parts, rfl⟩

/-- Where the other entries of a directory are, if one is known. -/
theorem locate_sibling {folder : Path} {name : String}
    (found : fs.locate (folder.join ⟨"", [name]⟩) = .ok parts) :
    ∃ base, ∀ sibling, sibling ≠ ".." →
      fs.locate (folder.join ⟨"", [sibling]⟩) = .ok (base ++ [sibling]) := by
  have joined (name : String) : fs.locate (folder.join ⟨"", [name]⟩) =
      (fs.follow (fs.origin folder) folder.parts).bind (fs.follow · [name]) :=
    follow_append ..
  rw [joined] at found
  cases reached : fs.follow (fs.origin folder) folder.parts with
  | error e => rw [reached] at found; cases found
  | ok base =>
    refine ⟨base, fun sibling direct => ?_⟩
    rw [reached, Except.bind, follow] at found
    rw [joined, reached, Except.bind, follow]
    by_cases dir : fs.hasDirectory base = true
    · rw [if_pos dir, if_neg direct]
      rfl
    · rw [if_neg dir] at found
      split at found <;> cases found

/-- What stays of the files that are elsewhere. -/
theorem find?_filter_place (files : List (List String × FileEntry)) (parts place : List String) :
    (files.filter fun e => e.1 != parts).find? (fun e => e.1 == place) =
      if place = parts then none else files.find? fun e => e.1 == place := by
  rw [List.find?_filter]
  by_cases same : place = parts
  · rw [if_pos same, List.find?_eq_none]
    intro e _
    simp [same]
  · rw [if_neg same]
    congr 1
    funext e
    by_cases atPlace : e.1 = place
    · simp [atPlace, same]
    · simp [atPlace]

theorem file?_write (fs : Files) (path : Path) (entry : FileEntry) (place : List String) :
    (fs.write path entry).file? place =
      if place = (fs.resolve path).parts then some entry else fs.file? place := by
  unfold file? write
  dsimp only
  rw [List.find?_append, find?_filter_place]
  by_cases same : place = (fs.resolve path).parts
  · rw [if_pos same, if_pos same]
    simp [same]
  · have apart : ¬ (fs.resolve path).parts = place := fun h => same h.symm
    rw [if_neg same, if_neg same]
    simp [apart]

theorem file?_remove (fs : Files) (path : Path) (place : List String) :
    (fs.remove path).file? place =
      if place = (fs.resolve path).parts then none else fs.file? place := by
  unfold file? remove
  dsimp only
  rw [find?_filter_place]
  split <;> rfl

theorem keepsDirectories_removeAll (fs : Files) (paths : List Path) :
    fs.KeepsDirectories (paths.foldl remove fs) := by
  induction paths generalizing fs with
  | nil => exact .refl fs
  | cons path paths ih => exact (keepsDirectories_remove fs path).trans (ih (fs.remove path))

theorem file?_removeAll (fs : Files) (paths : List Path) (place : List String) :
    (paths.foldl remove fs).file? place =
      if place ∈ paths.map (fun path => (fs.resolve path).parts) then none else fs.file? place := by
  induction paths generalizing fs with
  | nil => rfl
  | cons path paths ih =>
    have resolve : (fs.remove path).resolve = fs.resolve := rfl
    rw [List.foldl_cons, ih, file?_remove, resolve, List.map_cons]
    by_cases first : place = (fs.resolve path).parts
    · simp [first]
    · simp [first]

end Files
end InlineQuery
