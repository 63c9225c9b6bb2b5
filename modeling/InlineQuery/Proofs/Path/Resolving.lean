import InlineQuery.Files
import InlineQuery.Proofs.Path.Address

/-!
Paths that lead somewhere. Such a path and its absolute form without parent references lead to the
same place, and so do the paths of the files in a directory.
-/

namespace InlineQuery

namespace Path

/-- One more component behind others, which are listed in reverse. -/
def climb (above : List String) (part : String) : List String :=
  if part = ".." then above.drop 1 else part :: above

variable {parts above : List String} {part : String}

theorem collapse_eq (parts : List String) : collapse parts = (parts.foldl climb []).reverse := rfl

theorem mem_of_mem_climb (member : part ∈ parts.foldl climb above) : part ∈ above ∨ part ∈ parts := by
  induction parts generalizing above with
  | nil => exact .inl member
  | cons first parts ih =>
    rcases ih member with before | later
    · unfold climb at before
      split at before
      · exact .inl (List.mem_of_mem_drop before)
      · rcases List.mem_cons.mp before with rfl | old
        · exact .inr (List.mem_cons_self ..)
        · exact .inl old
    · exact .inr (List.mem_cons_of_mem _ later)

theorem notMem_climb (none_ : ".." ∉ above) : ".." ∉ parts.foldl climb above := by
  induction parts generalizing above with
  | nil => exact none_
  | cons first parts ih =>
    refine ih ?_
    unfold climb
    split
    · exact fun inside => none_ (List.mem_of_mem_drop inside)
    · rename_i other
      exact fun inside => (List.mem_cons.mp inside).elim (fun same => other same.symm) none_

theorem foldl_climb (none_ : ".." ∉ parts) : parts.foldl climb above = parts.reverse ++ above := by
  induction parts generalizing above with
  | nil => rfl
  | cons first parts ih =>
    have other : first ≠ ".." := fun same => none_ (by simp [same])
    rw [List.foldl_cons, climb, if_neg other, ih fun inside => none_ (List.mem_cons_of_mem _ inside),
      List.reverse_cons, List.append_assoc, List.singleton_append]

theorem collapse_of_notMem (none_ : ".." ∉ parts) : collapse parts = parts := by
  rw [collapse_eq, foldl_climb none_, List.append_nil, List.reverse_reverse]

theorem notMem_collapse (parts : List String) : ".." ∉ collapse parts := by
  rw [collapse_eq, List.mem_reverse]
  exact notMem_climb (by simp)

theorem mem_of_mem_collapse (member : part ∈ collapse parts) : part ∈ parts := by
  rw [collapse_eq, List.mem_reverse] at member
  exact (mem_of_mem_climb member).resolve_left (by simp)

end Path

namespace Files

variable {fs : Files} {path folder : Path} {parts from_ reached front : List String}

/-- Where looking up a path begins. -/
def origin (fs : Files) (path : Path) : List String :=
  if path.isAbsolute then [] else fs.current.parts

theorem resolve_eq (fs : Files) (path : Path) :
    fs.resolve path = ⟨"/", Path.collapse (fs.origin path ++ path.parts)⟩ := by
  unfold resolve Path.resolve Path.join origin
  split <;> rfl

/-- An absolute path without parent references is in resolved form. -/
theorem resolve_of_direct (absolute : path.root = "/") (direct : ".." ∉ path.parts) :
    fs.resolve path = path := by
  obtain ⟨root, parts⟩ := path
  subst absolute
  rw [resolve_eq]
  exact congrArg (Path.mk "/") (Path.collapse_of_notMem direct)

/-- Resolving twice is resolving once. -/
theorem resolve_resolve (fs : Files) (path : Path) : fs.resolve (fs.resolve path) = fs.resolve path :=
  resolve_of_direct rfl (Path.notMem_collapse _)

theorem isPlain_resolve (current : fs.current.IsPlain) (plain : path.IsPlain) :
    (fs.resolve path).IsPlain := by
  intro part member
  rw [resolve_eq] at member
  rcases List.mem_append.mp (Path.mem_of_mem_collapse member) with before | own
  · unfold origin at before
    split at before
    · cases before
    · exact current part before
  · exact plain part own

/-- A place that a path can lead to: no component is a parent reference, and those before the last
lead to a directory. -/
structure IsPlace (fs : Files) (parts : List String) : Prop where
  direct : ".." ∉ parts
  above : ∀ front, front <+: parts → front.length < parts.length → fs.hasDirectory front = true

theorem hasDirectory_of_prefix (within : front <+: parts) (dir : fs.hasDirectory parts = true) :
    fs.hasDirectory front = true := by
  have further {place : List String} (inside : parts.isPrefixOf place = true) :
      front.isPrefixOf place = true :=
    List.isPrefixOf_iff_prefix.mpr (within.trans (List.isPrefixOf_iff_prefix.mp inside))
  unfold hasDirectory at dir ⊢
  simp only [Bool.or_eq_true, List.any_eq_true, Bool.and_eq_true, decide_eq_true_eq] at dir ⊢
  rcases dir with ((empty | current) | ⟨place, listed, inside⟩) | ⟨e, listed, inside, shorter⟩
  · rw [List.isEmpty_iff.mp empty] at within
    rw [List.prefix_nil.mp within]
    simp
  · exact .inl (.inl (.inr (further current)))
  · exact .inl (.inr ⟨place, listed, further inside⟩)
  · exact .inr ⟨e, listed, further inside, Nat.lt_of_le_of_lt within.length_le shorter⟩

theorem IsPlace.nil : fs.IsPlace [] := ⟨by simp, fun _ _ shorter => absurd shorter (Nat.not_lt_zero _)⟩

theorem IsPlace.current (direct : ".." ∉ fs.current.parts) : fs.IsPlace fs.current.parts := by
  refine ⟨direct, fun front within _ => ?_⟩
  simp [hasDirectory, List.isPrefixOf_iff_prefix, within]

theorem IsPlace.origin (direct : ".." ∉ fs.current.parts) (path : Path) :
    fs.IsPlace (fs.origin path) := by
  unfold Files.origin
  split
  · exact .nil
  · exact .current direct

theorem IsPlace.dropLast (place : fs.IsPlace parts) : fs.IsPlace parts.dropLast :=
  ⟨fun inside => place.direct (List.dropLast_subset _ inside), fun front within shorter =>
    place.above front (within.trans (List.dropLast_prefix _)) (by
      have := (List.dropLast_prefix parts).length_le
      omega)⟩

theorem IsPlace.child (place : fs.IsPlace parts) (dir : fs.hasDirectory parts = true) {part : String}
    (other : part ≠ "..") : fs.IsPlace (parts ++ [part]) := by
  refine ⟨?_, fun front within shorter => hasDirectory_of_prefix ?_ dir⟩
  · rw [List.mem_append, List.mem_singleton]
    exact fun inside => inside.elim place.direct fun same => other same.symm
  · rw [List.length_append, List.length_singleton] at shorter
    exact List.prefix_of_prefix_length_le within (List.prefix_append ..) (by omega)

theorem follow_append (fs : Files) (from_ a b : List String) :
    fs.follow from_ (a ++ b) = (fs.follow from_ a).bind (fs.follow · b) := by
  induction a generalizing from_ with
  | nil => rfl
  | cons part a ih =>
    rw [List.cons_append, follow, follow, ih]
    split
    · rfl
    · split <;> rfl

/-- Following a path leads from a place to a place, which is where its components lead without
regard to what there is. -/
theorem IsPlace.follow (place : fs.IsPlace from_) (found : fs.follow from_ parts = .ok reached) :
    fs.IsPlace reached ∧ reached = (parts.foldl Path.climb from_.reverse).reverse := by
  induction parts generalizing from_ with
  | nil =>
    cases found
    exact ⟨place, (List.reverse_reverse _).symm⟩
  | cons part parts ih =>
    rw [Files.follow] at found
    split at found
    · rename_i dir
      rw [List.foldl_cons, Path.climb]
      by_cases leaves : part = ".."
      · rw [if_pos leaves] at found ⊢
        rw [List.drop_one, List.tail_reverse]
        exact ih place.dropLast found
      · rw [if_neg leaves] at found ⊢
        have further := ih (place.child dir leaves) found
        rwa [List.reverse_append, List.reverse_singleton, List.singleton_append] at further
    · split at found <;> cases found

/-- A place is where its own components lead from the root. -/
theorem IsPlace.follow_self (place : fs.IsPlace parts) : fs.follow [] parts = .ok parts := by
  have run {front rest : List String} (split_ : front ++ rest = parts) :
      fs.follow front rest = .ok parts := by
    induction rest generalizing front with
    | nil => rw [← split_, List.append_nil]; rfl
    | cons part rest ih =>
      have dir := place.above front ⟨part :: rest, split_⟩ (by simp [← split_])
      have other : part ≠ ".." := fun same => place.direct (by simp [← split_, same])
      rw [Files.follow, if_pos dir, if_neg other]
      exact ih (by simp [← split_])
  exact run (List.nil_append parts)

variable (direct : ".." ∉ fs.current.parts)
include direct

/-- A path that leads somewhere and its resolved form lead to the same place. -/
theorem resolve_of_locate (found : fs.locate path = .ok parts) :
    fs.IsPlace parts ∧ fs.resolve path = ⟨"/", parts⟩ := by
  have place := IsPlace.origin direct path
  obtain ⟨isPlace, rfl⟩ := place.follow found
  refine ⟨isPlace, ?_⟩
  rw [resolve_eq, Path.collapse_eq, List.foldl_append, Path.foldl_climb place.direct,
    List.append_nil]

theorem locate_resolve (found : fs.locate path = .ok parts) :
    fs.locate (fs.resolve path) = .ok parts := by
  obtain ⟨place, resolved⟩ := resolve_of_locate direct found
  rw [resolved]
  exact place.follow_self

theorem lookup?_resolve (found : fs.locate path = .ok parts) :
    fs.lookup? (fs.resolve path) = fs.lookup? path := by
  rw [lookup?, lookup?, found, locate_resolve direct found]

/-- Where the entries of a directory are. -/
theorem locate_child (dir : fs.isDirectory folder = true) {name : String} (other : name ≠ "..") :
    fs.locate (folder.join ⟨"", [name]⟩) = .ok ((fs.resolve folder).parts ++ [name]) ∧
      fs.locate ((fs.resolve folder).join ⟨"", [name]⟩) =
        .ok ((fs.resolve folder).parts ++ [name]) := by
  unfold isDirectory at dir
  cases found : fs.locate folder with
  | error e => simp [found] at dir
  | ok parts =>
    simp only [found, Bool.and_eq_true] at dir
    obtain ⟨place, resolved⟩ := resolve_of_locate direct found
    have step : fs.follow parts [name] = .ok (parts ++ [name]) := by
      rw [Files.follow, if_pos dir.2, if_neg other]
      rfl
    rw [resolved]
    refine ⟨?_, (place.child dir.2 other).follow_self⟩
    have joined : fs.locate (folder.join ⟨"", [name]⟩) =
        fs.follow (fs.origin folder) (folder.parts ++ [name]) := rfl
    have first : fs.follow (fs.origin folder) folder.parts = .ok parts := found
    rw [joined, follow_append, first]
    exact step

theorem lookup?_child (dir : fs.isDirectory folder = true) {name : String} (other : name ≠ "..") :
    fs.lookup? ((fs.resolve folder).join ⟨"", [name]⟩) = fs.lookup? (folder.join ⟨"", [name]⟩) := by
  obtain ⟨here, there⟩ := locate_child direct dir other
  rw [lookup?, lookup?, here, there]

end Files
end InlineQuery
