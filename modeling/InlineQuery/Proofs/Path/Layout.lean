import InlineQuery.Files

/-!
What of the files does not depend on what is in them: where paths lead, and whether there is a file
or a directory.
-/

namespace InlineQuery
namespace Files

variable {fs other : Files} {path : Path} {parts place : List String} {bytes : List UInt8}

/-- Whether other files lie at the same places, in the same directories. -/
structure SharesLayout (fs other : Files) : Prop where
  current : other.current = fs.current
  directories : other.directories = fs.directories
  places : other.files.map (·.1) = fs.files.map (·.1)

namespace SharesLayout

variable (shared : fs.SharesLayout other)
include shared

theorem resolve_eq (path : Path) : other.resolve path = fs.resolve path := by
  rw [resolve, resolve, shared.current]

theorem hasDirectory_eq (parts : List String) : other.hasDirectory parts = fs.hasDirectory parts := by
  have above {fs : Files} : (fs.files.any fun e => parts.isPrefixOf e.1 && parts.length < e.1.length) =
      (fs.files.map (·.1)).any fun place => parts.isPrefixOf place && parts.length < place.length := by
    rw [List.any_map]
    rfl
  rw [hasDirectory, hasDirectory, shared.current, shared.directories, above, above, shared.places]

theorem isSome_file? (parts : List String) : (other.file? parts).isSome = (fs.file? parts).isSome := by
  have listed {fs : Files} : (fs.file? parts).isSome = (fs.files.map (·.1)).any (· == parts) := by
    rw [file?, Option.isSome_map, List.isSome_find?, List.any_map]
    rfl
  rw [listed, listed, shared.places]

theorem follow_eq (from_ parts : List String) : other.follow from_ parts = fs.follow from_ parts := by
  induction parts generalizing from_ with
  | nil => rfl
  | cons part parts ih =>
    rw [follow, follow, shared.hasDirectory_eq, shared.isSome_file?, ih]

theorem locate_eq (path : Path) : other.locate path = fs.locate path := by
  rw [locate, locate, shared.current, shared.follow_eq]

theorem isFile_eq (path : Path) : other.isFile path = fs.isFile path := by
  rw [isFile, isFile, lookup?, lookup?, shared.locate_eq]
  cases fs.locate path with
  | error e => rfl
  | ok parts => exact shared.isSome_file? parts

theorem isDirectory_eq (path : Path) : other.isDirectory path = fs.isDirectory path := by
  rw [isDirectory, isDirectory, shared.locate_eq]
  cases fs.locate path with
  | error e => rfl
  | ok parts =>
    dsimp only
    rw [← Option.not_isSome, ← Option.not_isSome, shared.isSome_file?, shared.hasDirectory_eq]

end SharesLayout

/-- The same files, all of them empty but for the one at a place. -/
def holding (fs : Files) (place : List String) (bytes : List UInt8) : Files :=
  { fs with
    files := fs.files.map fun e => (e.1, { e.2 with bytes := if e.1 = place then bytes else [] }) }

theorem sharesLayout_holding (fs : Files) (place : List String) (bytes : List UInt8) :
    fs.SharesLayout (fs.holding place bytes) :=
  ⟨rfl, rfl, List.map_map ..⟩

/-- What is found in the file at a path. -/
theorem bytes_of_lookup?_holding {entry : FileEntry} (located : fs.locate path = .ok parts)
    (found : (fs.holding place bytes).lookup? path = some entry) :
    entry.bytes = if parts = place then bytes else [] := by
  rw [lookup?, (fs.sharesLayout_holding place bytes).locate_eq, located] at found
  obtain ⟨⟨listed, held⟩, first, rfl⟩ := Option.map_eq_some_iff.mp found
  obtain ⟨⟨old, entry⟩, _, same⟩ := List.mem_map.mp (List.mem_of_find?_eq_some first)
  have isPlace : (listed == parts) = true :=
    List.find?_some (p := fun e : List String × FileEntry => e.1 == parts) first
  cases same
  rw [← beq_iff_eq.mp isPlace]

end Files
end InlineQuery
