import InlineQuery.Proofs.Resolver.Folders

/-!
The folder that a file belongs to is the innermost one that holds it. Folders that hold one file lie
in one another, so that the one with the most components lies in all the others.
-/

namespace InlineQuery

namespace Files

variable {fs : Files} {file folder other : Path}

/-- How many components a folder has without parent references. -/
def depth (fs : Files) (folder : Path) : Nat := (fs.resolve folder).parts.length

/-- A file lies in a folder, or is that folder: without parent references, its components start with
those of the folder. -/
def LiesIn (fs : Files) (file folder : Path) : Prop :=
  (fs.resolve folder).parts <+: (fs.resolve file).parts

instance (fs : Files) (file folder : Path) : Decidable (fs.LiesIn file folder) :=
  inferInstanceAs (Decidable (_ <+: _))

theorem isRelativeTo_resolve_iff :
    (fs.resolve file).isRelativeTo (fs.resolve folder) = true ↔ fs.LiesIn file folder := by
  have root (path : Path) : (fs.resolve path).root = "/" := by rw [resolve_eq]
  unfold Path.isRelativeTo Path.relativeTo? LiesIn
  rw [root, root, ← List.isPrefixOf_iff_prefix]
  split <;> simp_all

theorem LiesIn.congr (same : fs.resolve other = fs.resolve folder) (inside : fs.LiesIn file folder) :
    fs.LiesIn file other := by
  rwa [LiesIn, same]

/-- Of two folders that hold a file, the deeper one lies in the other. -/
theorem LiesIn.of_depth_le (inner : fs.LiesIn file folder) (outer : fs.LiesIn file other)
    (depth : fs.depth other ≤ fs.depth folder) : fs.LiesIn folder other :=
  List.prefix_of_prefix_length_le outer inner depth

end Files

namespace Resolver

variable {fs : Files} {folders : List Path} {owner best folder : Path}

/-- No folder is deeper than this one, and each folder before it is less deep. -/
def IsFirstDeepest (fs : Files) (folders : List Path) (owner : Path) : Prop :=
  ∃ before after, folders = before ++ owner :: after ∧
    (∀ folder ∈ before, fs.depth folder < fs.depth owner) ∧
    ∀ folder ∈ after, fs.depth folder ≤ fs.depth owner

namespace IsFirstDeepest

theorem depth_le (deepest : IsFirstDeepest fs folders owner) (member : folder ∈ folders) :
    fs.depth folder ≤ fs.depth owner := by
  obtain ⟨before, after, rfl, less, most⟩ := deepest
  rcases List.mem_append.mp member with earlier | later
  · exact Nat.le_of_lt (less folder earlier)
  · rcases List.mem_cons.mp later with rfl | behind
    · exact Nat.le_refl _
    · exact most folder behind

theorem cons (deepest : IsFirstDeepest fs folders owner) (less : fs.depth best < fs.depth owner) :
    IsFirstDeepest fs (best :: folders) owner := by
  obtain ⟨before, after, rfl, earlier, later⟩ := deepest
  refine ⟨best :: before, after, rfl, ?_, later⟩
  intro folder member
  rcases List.mem_cons.mp member with rfl | inside
  · exact less
  · exact earlier folder inside

/-- A folder that is no deeper than one before it changes nothing. -/
theorem insert (deepest : IsFirstDeepest fs (best :: folders) owner)
    (most : fs.depth folder ≤ fs.depth best) :
    IsFirstDeepest fs (best :: folder :: folders) owner := by
  obtain ⟨before, after, split, earlier, later⟩ := deepest
  cases before with
  | nil =>
    cases split
    refine ⟨[], folder :: folders, rfl, by simp, ?_⟩
    intro other member
    rcases List.mem_cons.mp member with rfl | inside
    · exact most
    · exact later other inside
  | cons first before =>
    cases split
    have atBest := earlier best (List.mem_cons_self ..)
    refine ⟨best :: folder :: before, after, rfl, ?_, later⟩
    intro other member
    rcases List.mem_cons.mp member with rfl | member
    · exact atBest
    · rcases List.mem_cons.mp member with rfl | inside
      · exact Nat.lt_of_le_of_lt most atBest
      · exact earlier other (List.mem_cons_of_mem _ inside)

/-- The first of the deepest among some of the folders, seen among all of them. -/
theorem of_filter {keep : Path → Bool} (deepest : IsFirstDeepest fs (folders.filter keep) owner) :
    ∃ before after, folders = before ++ owner :: after ∧ keep owner = true ∧
      ∀ folder ∈ before, keep folder = true → fs.depth folder < fs.depth owner := by
  obtain ⟨kept, after, split, less, -⟩ := deepest
  obtain ⟨front, back, rfl, isKept, split⟩ := List.filter_eq_append_iff.mp split
  obtain ⟨dropped, after, rfl, none_, here, -⟩ := List.filter_eq_cons_iff.mp split
  refine ⟨front ++ dropped, after, by simp, here, ?_⟩
  intro folder member isIn
  rcases List.mem_append.mp member with earlier | later
  · exact less folder (isKept ▸ List.mem_filter.mpr ⟨earlier, isIn⟩)
  · exact absurd isIn (none_ folder later)

end IsFirstDeepest

/-- Going through the folders keeps the first of the deepest ones. -/
theorem foldl_deeper (fs : Files) (best : Path) (folders : List Path) :
    ∃ owner, folders.foldl (deeper fs) (some best) = some owner ∧
      IsFirstDeepest fs (best :: folders) owner := by
  induction folders generalizing best with
  | nil => exact ⟨best, rfl, [], [], rfl, by simp, by simp⟩
  | cons folder folders ih =>
    by_cases further : fs.depth best < fs.depth folder
    · have step : deeper fs (some best) folder = some folder := if_pos further
      obtain ⟨owner, found, deepest⟩ := ih folder
      have atFolder := deepest.depth_le (List.mem_cons_self ..)
      exact ⟨owner, by rw [List.foldl_cons, step, found], deepest.cons (by omega)⟩
    · have step : deeper fs (some best) folder = some best := if_neg further
      obtain ⟨owner, found, deepest⟩ := ih best
      exact ⟨owner, by rw [List.foldl_cons, step, found], deepest.insert (by omega)⟩

/-- A file belongs to one of the folders. If any of them holds the file, then so does this one; it
lies in every folder that holds the file, and no folder before it leads to the same directory.
Otherwise the file belongs to the first one. -/
theorem rootFor_innermost {r : Resolver} (some_ : r.folders ≠ []) (fs : Files) (file : Path) :
    ∃ before owner after, r.folders = before ++ owner :: after ∧
      r.rootFor fs (some file) = .ok owner ∧
      ((∃ folder ∈ r.folders, fs.LiesIn file folder) →
        fs.LiesIn file owner ∧
        (∀ folder ∈ r.folders, fs.LiesIn file folder → fs.LiesIn owner folder) ∧
        ∀ earlier ∈ before, fs.resolve earlier ≠ fs.resolve owner) ∧
      ((∀ folder ∈ r.folders, ¬ fs.LiesIn file folder) → before = []) := by
  obtain ⟨first, rest, folders⟩ := List.exists_cons_of_ne_nil some_
  have chosen : r.rootFor fs (some file) = .ok ((deepest? fs (r.folders.filter fun folder =>
      (fs.resolve file).isRelativeTo (fs.resolve folder))).getD first) := by
    unfold rootFor
    rw [folders]
  rw [chosen]
  cases holding : r.folders.filter fun folder =>
      (fs.resolve file).isRelativeTo (fs.resolve folder) with
  | nil =>
    have none_ := List.filter_eq_nil_iff.mp holding
    refine ⟨[], first, rest, folders, rfl, ?_, fun _ => rfl⟩
    rintro ⟨folder, member, inside⟩
    exact absurd (Files.isRelativeTo_resolve_iff.mpr inside) (none_ folder member)
  | cons head tail =>
    obtain ⟨owner, found, deepest⟩ := foldl_deeper fs head tail
    have isOwner : deepest? fs (head :: tail) = some owner := found
    rw [← holding] at deepest
    obtain ⟨before, after, split, inOwner, less⟩ := deepest.of_filter
    have inOwner := Files.isRelativeTo_resolve_iff.mp inOwner
    refine ⟨before, owner, after, split, by rw [isOwner]; rfl, ?_, ?_⟩
    · refine fun _ => ⟨inOwner, ?_, ?_⟩
      · intro folder member inside
        have isHolding := Files.isRelativeTo_resolve_iff.mpr inside
        exact inOwner.of_depth_le inside
          (deepest.depth_le (List.mem_filter.mpr ⟨member, isHolding⟩))
      · intro earlier member same
        -- It would hold the file too, and yet be less deep.
        have inEarlier := Files.isRelativeTo_resolve_iff.mpr (inOwner.congr same)
        have shallower := less earlier member inEarlier
        rw [Files.depth, Files.depth, same] at shallower
        exact Nat.lt_irrefl _ shallower
    · intro none_
      have member : owner ∈ r.folders := by simp [split]
      exact absurd inOwner (none_ owner member)

/-- Of two folders that lead to the same directory the first counts, and the one around them does
not. -/
theorem rootFor_innermost_repeated :
    let fs : Files := ⟨⟨"/", ["w"]⟩, [], []⟩
    let r := ofFolders
      [⟨"/", ["w"]⟩, ⟨"", ["lib", "..", "app"]⟩, ⟨"/", ["w", "app"]⟩, ⟨"", ["app", "test"]⟩] [] []
    let owner : Path := ⟨"", ["lib", "..", "app"]⟩
    r.folders ≠ [] ∧ (∃ folder ∈ r.folders, fs.LiesIn ⟨"", ["app", "x.ts"]⟩ folder) ∧
      r.rootFor fs (some ⟨"", ["app", "x.ts"]⟩) = .ok owner ∧
      fs.LiesIn ⟨"", ["app", "x.ts"]⟩ owner ∧ fs.LiesIn owner ⟨"/", ["w"]⟩ := by
  intro fs r owner
  have some_ : r.folders ≠ [] := by decide
  have outer : fs.LiesIn ⟨"", ["app", "x.ts"]⟩ ⟨"/", ["w"]⟩ := by decide
  have held : ∃ folder ∈ r.folders, fs.LiesIn ⟨"", ["app", "x.ts"]⟩ folder :=
    ⟨_, List.mem_cons_self .., outer⟩
  have isOwner : r.rootFor fs (some ⟨"", ["app", "x.ts"]⟩) = .ok owner := rfl
  obtain ⟨_, _, _, _, chosen, innermost, -⟩ :=
    rootFor_innermost some_ fs ⟨"", ["app", "x.ts"]⟩
  obtain rfl := Except.ok.inj (isOwner.symm.trans chosen)
  obtain ⟨inside, inner, -⟩ := innermost held
  exact ⟨some_, held, isOwner, inside, inner _ (List.mem_cons_self ..) outer⟩

end Resolver
end InlineQuery
