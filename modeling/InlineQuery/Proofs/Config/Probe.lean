import InlineQuery.Proofs.Path.Layout
import InlineQuery.Proofs.Path.Pattern
import InlineQuery.Proofs.Resolver.Folders

/-!
Contents of configuration files with which it shows where an endpoint was looked up, and for which
path.
-/

namespace InlineQuery

namespace Configuration

variable {fs : Files} {path : Path} {c : Configuration}

/-- The configuration that some bytes are. -/
def parse? (bytes : List UInt8) : Option Configuration := do
  let text ← (Text.decodeUtf8 bytes).toOption
  let document ← (Yaml.read (Text.unifyLineEnds text)).toOption
  (ofDatum ⟨"", []⟩ document).toOption

theorem ofDatum_congr {path' : Path} {d : Datum} (valid : ofDatum path d = .ok c) :
    ofDatum path' d = .ok c := by
  unfold ofDatum at valid ⊢
  dsimp only at valid ⊢
  split at valid
  · exact mapError_eq_ok_iff.mpr (mapError_eq_ok_iff.mp valid)
  · cases valid

theorem load_of_parse? {entry : FileEntry} (found : fs.lookup? path = some entry)
    (parsed : parse? entry.bytes = some c) : load fs path = .ok c := by
  unfold parse? at parsed
  have readable : (fs.read path).mapError (fun _ => unreadable path) = .ok entry :=
    mapError_eq_ok_iff.mpr (Files.read_of_lookup? found)
  rw [load, readable]
  dsimp only [bind, Except.bind]
  cases decoded : Text.decodeUtf8 entry.bytes with
  | error e => rw [decoded] at parsed; cases parsed
  | ok text =>
    rw [decoded] at parsed
    dsimp only [bind, Except.mapError, Except.toOption, Option.bind] at parsed ⊢
    cases read : Yaml.read (Text.unifyLineEnds text) with
    | error e => rw [read] at parsed; cases parsed
    | ok document =>
      rw [read] at parsed
      dsimp only at parsed ⊢
      cases valid : ofDatum ⟨"", []⟩ document with
      | error e => rw [valid] at parsed; cases parsed
      | ok found =>
        rw [valid] at parsed
        cases parsed
        exact ofDatum_congr valid

/-- The URL of an endpoint, and whether it has a target for subscriptions. -/
def endpointOutline (e : EndpointEntry) : String × Bool := (e.url, e.subscription.isSome)

/-- What of a project decides where an operation is sent, but for headers and parameters. -/
structure ProjectOutline where
  includes : List String
  excludes : List String
  endpoints : List (String × String × Bool)
  deriving DecidableEq

def projectOutline (p : Project) : ProjectOutline :=
  ⟨p.includes, p.excludes, p.endpoints.map fun e => (e.1, endpointOutline e.2)⟩

/-- What of a configuration decides where an operation is sent, but for headers and parameters. -/
structure Outline where
  endpoints : List (String × String × Bool)
  projects : List (String × ProjectOutline)
  deriving DecidableEq

def outline (c : Configuration) : Outline :=
  ⟨c.endpoints.map fun e => (e.1, endpointOutline e.2),
    c.projects.map fun p => (p.1, projectOutline p.2)⟩

/-- A configuration with one endpoint. -/
def loneText : String := "extensions:\n endpoints:\n  e: u"

/-- A configuration whose only endpoint is that of a project for paths that are not in resolved
form. -/
def apartText : String :=
  "projects:\n p:\n  includes: ['[!/]*', '//*', '*/../*', '*/..']\n" ++
    "  extensions:\n   endpoints:\n    e: u"

theorem outline_empty : (parse? []).map outline = some ⟨[], []⟩ := by decide

theorem outline_lone : (parse? (Text.encodeUtf8 loneText)).map outline = some ⟨[("e", "u", false)], []⟩ := by
  rw [loneText, Text.encodeUtf8_ofList]
  decide +kernel

theorem outline_apart : (parse? (Text.encodeUtf8 apartText)).map outline =
    some ⟨[], [("p", ⟨Path.unresolvedPatterns, [], [("e", "u", false)]⟩)]⟩ := by
  have spelled : apartText.toList = _ :=
    Text.toList_append_of String.toList_ofList String.toList_ofList
  rw [Text.encodeUtf8_eq, spelled]
  decide +kernel

end Configuration

namespace Environment

/-- Where no environment file holds anything, nothing is bound. -/
theorem merged_of_empty {fs : Files} {folders : List Path}
    (empty : ∀ folder ∈ folders, ∀ entry, fs.lookup? (fileIn folder) = some entry → entry.bytes = []) :
    merged fs [] folders [] = .ok [] := by
  have each : ∀ folder ∈ folders, ofFolder fs [] folder = .ok [] := by
    intro folder member
    unfold ofFolder
    cases found : fs.lookup? (fileIn folder) with
    | none => rfl
    | some entry =>
      dsimp only
      rw [empty folder member entry found]
      rfl
  have all : ∃ files, folders.mapM (ofFolder fs []) = .ok files ∧ files.foldl Assoc.merge [] = [] := by
    induction folders with
    | nil => exact ⟨[], rfl, rfl⟩
    | cons folder folders ih =>
      obtain ⟨files, rest, bare⟩ := ih (fun other member => empty other (List.mem_cons_of_mem _ member))
        fun other member => each other (List.mem_cons_of_mem _ member)
      refine ⟨[] :: files, ?_, bare⟩
      rw [List.mapM_cons, each folder (List.mem_cons_self ..), rest]
      rfl
  obtain ⟨files, read, bare⟩ := all
  rw [merged, read]
  dsimp only [bind, Except.bind]
  rw [bare]
  rfl

end Environment

namespace Resolver

variable {fs : Files} {c : Configuration} {path root : Path} {q : Query}

section Endpoint

variable {name : Option String} {p : Project}
  (selected : selectProject fs c q.project q.file root = .ok (name, p))
include selected

theorem exists_endpointIn (asked : q.endpoint = none)
    (single : (if p.endpoints.isEmpty then c.endpoints else p.endpoints).map
      (fun e => (e.1, Configuration.endpointOutline e.2)) = [("e", "u", false)]) : ∃ e, endpointIn fs c [] path root q = .ok e := by
  obtain ⟨⟨key, entry⟩, listed, named⟩ := List.map_eq_singleton_iff.mp single
  obtain ⟨rfl, outlined⟩ := Prod.mk.inj named
  obtain ⟨url, noTarget⟩ : entry.url = "u" ∧ entry.subscription.isSome = false :=
    Prod.mk.inj outlined
  have bare : entry.subscription = none := by simpa using noTarget
  have chosen : selectEntry fs c path root q.project q.endpoint q.file = .ok ((name, "e"), entry) := by
    unfold selectEntry
    rw [selected]
    dsimp only [bind, Except.bind]
    rw [listed, asked]
    rfl
  have full : ¬Text.strip (EnvTemplate.expand [] "u") = "" := by decide
  unfold endpointIn
  rw [chosen]
  dsimp only [bind, Except.bind, build]
  rw [url, if_neg full, bare]
  exact ⟨_, rfl⟩

theorem endpointIn_of_none (own : p.endpoints = []) (shared : c.endpoints = []) :
    ∃ e, endpointIn fs c [] path root q = .error e := by
  have failed : ∃ e, selectEntry fs c path root q.project q.endpoint q.file = .error e := by
    unfold selectEntry
    rw [selected]
    dsimp only [bind, Except.bind]
    rw [own, shared]
    exact ⟨_, rfl⟩
  obtain ⟨e, failed⟩ := failed
  unfold endpointIn
  rw [failed]
  exact ⟨e, rfl⟩

end Endpoint

theorem selectProject_of_nil (none_ : c.projects = []) (file : Option Path) :
    selectProject fs c none file root = .ok (none, c.toProject) := by
  unfold selectProject
  cases file with
  | none => rfl
  | some file =>
    dsimp only
    rw [none_]
    rfl

theorem exists_endpointIn_lone (known : c.outline = ⟨[("e", "u", false)], []⟩) (project : q.project = none)
    (endpoint : q.endpoint = none) : ∃ e, endpointIn fs c [] path root q = .ok e := by
  obtain ⟨single, none_⟩ := Configuration.Outline.mk.inj known
  have selected : selectProject fs c q.project q.file root = .ok (none, c.toProject) := by
    rw [project]
    exact selectProject_of_nil (List.map_eq_nil_iff.mp none_) q.file
  refine exists_endpointIn selected endpoint ?_
  rw [ite_self]
  exact single

theorem endpointIn_empty (known : c.outline = ⟨[], []⟩) (project : q.project = none) :
    ∃ e, endpointIn fs c [] path root q = .error e := by
  obtain ⟨bare, none_⟩ := Configuration.Outline.mk.inj known
  have selected : selectProject fs c q.project q.file root = .ok (none, c.toProject) := by
    rw [project]
    exact selectProject_of_nil (List.map_eq_nil_iff.mp none_) q.file
  exact endpointIn_of_none selected (List.map_eq_nil_iff.mp bare) (List.map_eq_nil_iff.mp bare)

/-- Whether there is an endpoint tells whether patterns see a path in resolved form. -/
theorem endpointIn_apart {file : Path}
    (known : c.outline = ⟨[], [("p", ⟨Path.unresolvedPatterns, [], [("e", "u", false)]⟩)]⟩)
    (project : q.project = none) (endpoint : q.endpoint = none) (asked : q.file = some file) :
    ((∃ pattern ∈ Path.unresolvedPatterns, Glob.covers pattern (patternPath fs file root) = true) →
        ∃ e, endpointIn fs c [] path root q = .ok e) ∧
      ((∀ pattern ∈ Path.unresolvedPatterns, ¬Glob.covers pattern (patternPath fs file root) = true) →
        ∃ e, endpointIn fs c [] path root q = .error e) := by
  obtain ⟨bare, single⟩ := Configuration.Outline.mk.inj known
  obtain ⟨⟨name, p⟩, listed, named⟩ := List.map_eq_singleton_iff.mp single
  obtain ⟨includes, excludes, own⟩ := Configuration.ProjectOutline.mk.inj (Prod.mk.inj named).2
  have covers (text : String) :
      p.covers text = Path.unresolvedPatterns.any fun pattern => Glob.covers pattern text := by
    rw [Project.covers, includes, excludes]
    simp [Path.unresolvedPatterns]
  have selected : selectProject fs c q.project q.file root =
      if p.covers (patternPath fs file root) then .ok (some name, p) else .ok (none, c.toProject) := by
    rw [project, asked]
    unfold selectProject
    dsimp only
    rw [listed, List.find?_singleton]
    cases p.covers (patternPath fs file root) <;> rfl
  rw [covers] at selected
  constructor
  · rintro ⟨pattern, isPattern, covered⟩
    rw [if_pos (List.any_eq_true.mpr ⟨pattern, isPattern, covered⟩)] at selected
    refine exists_endpointIn selected endpoint ?_
    have some_ : p.endpoints.isEmpty = false := by
      cases held : p.endpoints with
      | nil => simp [held] at own
      | cons => rfl
    rw [some_]
    exact own
  · intro none_
    have uncovered : ¬(Path.unresolvedPatterns.any fun pattern =>
        Glob.covers pattern (patternPath fs file root)) = true := by
      intro covered
      obtain ⟨pattern, isPattern, matches_⟩ := List.any_eq_true.mp covered
      exact none_ pattern isPattern matches_
    rw [if_neg uncovered] at selected
    exact endpointIn_of_none selected (List.map_eq_nil_iff.mp bare) (List.map_eq_nil_iff.mp bare)

/-- Only one configuration file holds anything, so each of them is read as some bytes or none. -/
theorem reading_holding {folders : List Path} {folder : Path} {name last : String}
    {front : List String} {bytes : List UInt8} (direct : ".." ∉ fs.current.parts)
    (dirs : ∀ folder ∈ folders, fs.isDirectory folder = true) (member : folder ∈ folders)
    (found : Configuration.nameIn? fs folder = some name) (known : last ∈ Configuration.fileNames)
    (parsed : Configuration.parse? (if (fs.resolve folder).parts ++ [name] = front ++ [last]
      then bytes else []) = some c) :
    (ofFolders folders [] []).reading (fs.holding (front ++ [last]) bytes)
      (folder.join ⟨"", [name]⟩) = .ok (c, []) := by
  have shared := fs.sharesLayout_holding (front ++ [last]) bytes
  have isFile : (fs.holding (front ++ [last]) bytes).isFile (folder.join ⟨"", [name]⟩) = true := by
    rw [shared.isFile_eq]
    exact Configuration.isFile_of_nameIn? found
  obtain ⟨entry, isEntry⟩ := Option.isSome_iff_exists.mp isFile
  have located := (Files.locate_child direct (dirs folder member)
    (Configuration.ne_parent_of_mem_fileNames (List.mem_of_find?_eq_some found))).1
  have held := Files.bytes_of_lookup?_holding located isEntry
  have bare : Environment.merged (fs.holding (front ++ [last]) bytes) [] folders [] = .ok [] := by
    refine Environment.merged_of_empty fun folder member entry isEnv => ?_
    have at_ := (Files.locate_child direct (dirs folder member)
      (show Environment.fileName ≠ ".." by decide)).1
    rw [Files.bytes_of_lookup?_holding at_ isEnv, if_neg]
    intro same
    have name : Environment.fileName = last := List.singleton_inj.mp (List.append_inj_right' same rfl)
    rw [← name] at known
    exact absurd known (by decide)
  unfold reading ofFolders
  rw [Configuration.load_of_parse? isEntry (held ▸ parsed)]
  dsimp only [bind, Except.bind]
  rw [bare]
  rfl

end Resolver

end InlineQuery
