import InlineQuery.Proofs.Path.Resolving
import InlineQuery.Proofs.Resolver.Memory
import Mathlib.Data.List.Find

/-!
What a resolver answers for folders as they are given, and for the same folders by their absolute
paths without parent references.
-/

namespace InlineQuery

/-- What of an endpoint an operation is sent with: all but the note where it comes from. -/
def Endpoint.target (e : Endpoint) : Endpoint := { e with source := "" }

namespace Path

theorem join_child (folder : Path) (name : String) :
    folder.join ⟨"", [name]⟩ = ⟨folder.root, folder.parts ++ [name]⟩ := rfl

theorem parent_child (folder : Path) (name : String) :
    (folder.join ⟨"", [name]⟩).parent = folder := by
  rw [join_child, parent, List.dropLast_concat]

theorem name_child (folder : Path) (name : String) : (folder.join ⟨"", [name]⟩).name = name := by
  rw [join_child, Path.name, List.getLastD_concat]

end Path

namespace Configuration

variable {fs : Files} {folder : Path} {name : String}

/-- The name of the first configuration file of a folder. -/
def nameIn? (fs : Files) (folder : Path) : Option String :=
  fileNames.find? fun name => fs.isFile (folder.join ⟨"", [name]⟩)

theorem find?_eq (fs : Files) (folder : Path) :
    find? fs folder = (nameIn? fs folder).map fun name => folder.join ⟨"", [name]⟩ :=
  List.find?_map ..

theorem ne_parent_of_mem_fileNames (known : name ∈ fileNames) : name ≠ ".." := by
  rintro rfl
  exact absurd known (by decide)

theorem nameIn?_resolve (direct : ".." ∉ fs.current.parts) (dir : fs.isDirectory folder = true) :
    nameIn? fs (fs.resolve folder) = nameIn? fs folder :=
  List.find?_congr fun name known => by
    rw [Files.isFile, Files.isFile,
      Files.lookup?_child direct dir (ne_parent_of_mem_fileNames known)]

theorem isFile_of_nameIn? (found : nameIn? fs folder = some name) :
    fs.isFile (folder.join ⟨"", [name]⟩) = true :=
  List.find?_some (p := fun name => fs.isFile (folder.join ⟨"", [name]⟩)) found

/-- A configuration file is read alike in a folder and in its resolved form. -/
theorem load_resolve (direct : ".." ∉ fs.current.parts) (dir : fs.isDirectory folder = true)
    (found : nameIn? fs folder = some name) :
    load fs (folder.join ⟨"", [name]⟩) = load fs ((fs.resolve folder).join ⟨"", [name]⟩) := by
  obtain ⟨entry, here⟩ := Option.isSome_iff_exists.mp (isFile_of_nameIn? found)
  have there := Files.lookup?_child direct dir
    (ne_parent_of_mem_fileNames (List.mem_of_find?_eq_some found))
  refine load_congr here (there.trans here) ?_ rfl
  rw [Path.name_child, Path.name_child]

end Configuration

namespace Environment

theorem merged_resolve {fs : Files} {folders : List Path} (direct : ".." ∉ fs.current.parts)
    (dirs : ∀ folder ∈ folders, fs.isDirectory folder = true) (process explicit : Environment) :
    merged fs process folders explicit = merged fs process (folders.map fs.resolve) explicit :=
  merged_map process explicit fun folder member => by
    have same : fs.lookup? (fileIn (fs.resolve folder)) = fs.lookup? (fileIn folder) :=
      Files.lookup?_child direct (dirs folder member) (by decide)
    rw [same]

end Environment

namespace Resolver

variable {fs : Files} {folders : List Path} {process explicit : Environment}

/-- The deepest folder so far. -/
def deeper (fs : Files) (best : Option Path) (folder : Path) : Option Path :=
  match best with
  | none => some folder
  | some best =>
    if (fs.resolve best).parts.length < (fs.resolve folder).parts.length then some folder
    else some best

theorem foldl_deeper_map_resolve (best : Option Path) :
    (folders.map fs.resolve).foldl (deeper fs) (best.map fs.resolve) =
      (folders.foldl (deeper fs) best).map fs.resolve := by
  induction folders generalizing best with
  | nil => rfl
  | cons folder folders ih =>
    have step : deeper fs (best.map fs.resolve) (fs.resolve folder) =
        (deeper fs best folder).map fs.resolve := by
      cases best with
      | none => rfl
      | some best =>
        rw [Option.map_some, deeper, deeper, Files.resolve_resolve, Files.resolve_resolve]
        split <;> rfl
    rw [List.map_cons, List.foldl_cons, List.foldl_cons, step, ih]

theorem mem_foldl_deeper {best : Option Path} {folder : Path}
    (deepest : folders.foldl (deeper fs) best = some folder) :
    best = some folder ∨ folder ∈ folders := by
  induction folders generalizing best with
  | nil => exact .inl deepest
  | cons first rest ih =>
    rcases ih deepest with now | later
    · unfold deeper at now
      split at now
      · exact .inr (Option.some.inj now ▸ List.mem_cons_self ..)
      · split at now
        · exact .inr (Option.some.inj now ▸ List.mem_cons_self ..)
        · exact .inl now
    · exact .inr (List.mem_cons_of_mem _ later)

theorem rootFor_cons (first : Path) (rest : List Path) (file : Path) :
    (ofFolders (first :: rest) process explicit).rootFor fs (some file) =
      .ok ((deepest? fs ((first :: rest).filter fun f =>
        (fs.resolve file).isRelativeTo (fs.resolve f))).getD first) := rfl

/-- A file belongs to one of the folders. -/
theorem exists_rootFor (some_ : folders ≠ []) (fs : Files) (file : Path) :
    ∃ owner ∈ folders, (ofFolders folders process explicit).rootFor fs (some file) = .ok owner := by
  obtain ⟨first, rest, rfl⟩ := List.exists_cons_of_ne_nil some_
  refine ⟨_, ?_, rootFor_cons first rest file⟩
  cases deepest : deepest? fs _ with
  | none => exact List.mem_cons_self ..
  | some folder => exact (List.mem_filter.mp ((mem_foldl_deeper deepest).resolve_left (by simp))).1

/-- The resolved folders give a resolved file the same folder, in its resolved form. -/
theorem rootFor_resolve (some_ : folders ≠ []) (file : Path) :
    (ofFolders (folders.map fs.resolve) process explicit).rootFor fs (some (fs.resolve file)) =
      ((ofFolders folders process explicit).rootFor fs (some file)).map fs.resolve := by
  obtain ⟨first, rest, rfl⟩ := List.exists_cons_of_ne_nil some_
  have holding : ((first :: rest).map fs.resolve).filter
        (fun f => (fs.resolve (fs.resolve file)).isRelativeTo (fs.resolve f)) =
      ((first :: rest).filter fun f => (fs.resolve file).isRelativeTo (fs.resolve f)).map
        fs.resolve := by
    rw [List.filter_map]
    simp only [Function.comp_def, Files.resolve_resolve]
  have deepest (within : List Path) : deepest? fs (within.map fs.resolve) =
      (deepest? fs within).map fs.resolve := foldl_deeper_map_resolve none
  rw [List.map_cons, rootFor_cons, rootFor_cons, ← List.map_cons, holding, deepest]
  cases deepest? fs _ <;> rfl

section Located

variable {r : Resolver} {q : Query} {root : Path}

theorem located_of_some {name : String} (chosen : r.folderFor fs q = .ok root)
    (found : Configuration.nameIn? fs root = some name) :
    r.located fs q = .ok (root, root.join ⟨"", [name]⟩) := by
  unfold located
  rw [chosen]
  dsimp only [bind, Except.bind]
  rw [Configuration.find?_eq, found]
  rfl

theorem located_of_none (chosen : r.folderFor fs q = .ok root)
    (none_ : Configuration.nameIn? fs root = none) :
    r.located fs q = .error Configuration.missing := by
  unfold located
  rw [chosen]
  dsimp only [bind, Except.bind]
  rw [Configuration.find?_eq, none_]
  rfl

theorem answer_of_located {path : Path} (located : r.located fs q = .ok (root, path)) :
    r.answer fs q = (r.reading fs path).bind fun read => endpointIn fs read.1 read.2 path root q := by
  rw [answer, located]
  rfl

end Located

/-- The resolved folders are read like those that were given. -/
theorem reading_resolve {root : Path} {name : String} (direct : ".." ∉ fs.current.parts)
    (dirs : ∀ folder ∈ folders, fs.isDirectory folder = true) (member : root ∈ folders)
    (found : Configuration.nameIn? fs root = some name) :
    (ofFolders folders process explicit).reading fs (root.join ⟨"", [name]⟩) =
      (ofFolders (folders.map fs.resolve) process explicit).reading fs
        ((fs.resolve root).join ⟨"", [name]⟩) := by
  unfold reading ofFolders
  dsimp only
  rw [Configuration.load_resolve direct (dirs root member) found,
    Environment.merged_resolve direct dirs]

/-- What patterns see of a file in resolved form, if it lies in the folder or was given in that
form. -/
theorem patternPath_resolve {file root : Path}
    (given : (fs.resolve file).isRelativeTo (fs.resolve root) = true ∨ fs.resolve file = file) :
    patternPath fs (fs.resolve file) (fs.resolve root) = patternPath fs file root := by
  unfold patternPath
  rw [Files.resolve_resolve, Files.resolve_resolve]
  cases inside : (fs.resolve file).relativeTo? (fs.resolve root) with
  | some path => rfl
  | none =>
    rw [Path.isRelativeTo, inside] at given
    dsimp only
    rw [given.resolve_left (by simp)]

/-- A resolver that has read nothing answers from the files as they are. -/
theorem outcome_ofFolders (folders : List Path) (process explicit : Environment) (fs : Files)
    (q : Query) : (ofFolders folders process explicit).outcome fs q =
      (ofFolders folders process explicit).answer fs q := by
  have stamped : IsStamped folders [fs] := by
    constructor
    · intro here now there then_ path _ entry entry' found found' differs
      rw [List.mem_singleton.mp now] at found
      rw [List.mem_singleton.mp then_, found] at found'
      cases found'
      exact absurd rfl differs
    · intro here now there then_ folder _
      rw [List.mem_singleton.mp now, List.mem_singleton.mp then_]
  exact ((isSound_ofFolders folders process explicit [fs]).resolve stamped
    (List.mem_singleton_self fs) q).1

section Target

variable {config : Configuration} {env : Environment} {path path' root root' : Path} {q q' : Query}

theorem selectProject_congr {project : Option String} {file file' : Option Path}
    (pattern : file.map (patternPath fs · root) = file'.map (patternPath fs · root')) :
    selectProject fs config project file root = selectProject fs config project file' root' := by
  unfold selectProject
  cases project with
  | some name => rfl
  | none =>
    cases file <;> cases file' <;> simp at pattern ⊢
    rw [pattern]

theorem build_target (env : Environment) (path path' : Path) (key : Option String × String)
    (entry : EndpointEntry) : (build env path key entry).map (·.target) =
      (build env path' key entry).map (·.target) := by
  unfold build
  dsimp only
  by_cases blank : Text.strip (EnvTemplate.expand env entry.url) = ""
  · rw [if_pos blank, if_pos blank]
    rfl
  · rw [if_neg blank, if_neg blank]
    dsimp only [bind, Except.bind]
    split <;> rfl

/-- What an operation is sent with depends on the name of the configuration file, and on neither its
folder nor the file of the operation but for what patterns see. -/
theorem endpointIn_target (name : path.name = path'.name) (project : q.project = q'.project)
    (endpoint : q.endpoint = q'.endpoint)
    (pattern : q.file.map (patternPath fs · root) = q'.file.map (patternPath fs · root')) :
    (endpointIn fs config env path root q).map (·.target) =
      (endpointIn fs config env path' root' q').map (·.target) := by
  have selected : selectEntry fs config path root q.project q.endpoint q.file =
      selectEntry fs config path' root' q'.project q'.endpoint q'.file := by
    unfold selectEntry noEndpoints
    rw [name, project, endpoint, selectProject_congr pattern]
  unfold endpointIn
  rw [selected]
  dsimp only [bind, Except.bind]
  cases selectEntry fs config path' root' q'.project q'.endpoint q'.file with
  | error e => rfl
  | ok found => exact build_target ..

end Target

end Resolver
end InlineQuery
