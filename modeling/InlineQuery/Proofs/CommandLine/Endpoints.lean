import InlineQuery.CommandLine.Check
import InlineQuery.Proofs.CommandLine.Execution
import InlineQuery.Proofs.Config.Probe

/-!
The endpoint that the check of a configuration shows for a file, and the one that an operation of
that file is sent to.
-/

namespace InlineQuery

namespace Configuration

variable {fs : Files} {folders : List Path} {root : Path} {name : String}

/-- The first of some folders that has a configuration file. -/
def root? (fs : Files) (folders : List Path) : Option Path :=
  folders.find? fun folder => (find? fs folder).isSome

theorem require_of_none (none_ : root? fs folders = none) : require fs folders = .error missing := by
  have nowhere : folders.findSome? (find? fs) = none :=
    List.findSome?_eq_none_iff.mpr fun folder member => by
      simpa using List.find?_eq_none.mp none_ folder member
  rw [require, nowhere]

theorem require_of_some (first : root? fs folders = some root) (found : nameIn? fs root = some name) :
    require fs folders = .ok (root.join ⟨"", [name]⟩) := by
  have somewhere : folders.findSome? (find? fs) = some (root.join ⟨"", [name]⟩) := by
    have isFirst := List.find?_eq_some_iff_append.mp first
    obtain ⟨_, before, after, rfl, none_⟩ := isFirst
    refine List.findSome?_eq_some_iff.mpr ⟨before, root, after, rfl, ?_, ?_⟩
    · rw [find?_eq, found, Option.map_some]
    · intro folder member
      simpa using none_ folder member
  rw [require, somewhere]

/-- The first folder with a configuration file has one of a name. -/
theorem exists_nameIn? (first : root? fs folders = some root) :
    root ∈ folders ∧ ∃ name, nameIn? fs root = some name := by
  have isSome : (find? fs root).isSome = true :=
    List.find?_some (p := fun folder => (find? fs folder).isSome) first
  rw [find?_eq, Option.isSome_map] at isSome
  exact ⟨List.mem_of_find?_eq_some first, Option.isSome_iff_exists.mp isSome⟩

end Configuration

namespace CommandLine

open Resolver (ofFolders patternPath endpointIn)

variable {fs : Files} {folders : List Path} {process : Environment}

/-- Folders and a file that are there, seen from a directory in resolved form. -/
structure HasWorkspace (fs : Files) (folders : List Path) (file : String) : Prop where
  plain : fs.current.IsPlain
  direct : ".." ∉ fs.current.parts
  folders : ∀ folder ∈ folders, fs.isDirectory folder = true
  file : fs.isFile (Path.ofString file) = true

/-- The endpoint that the check shows is that of a new resolver for the first folder with a
configuration. -/
theorem checkedEndpoint_eq (o : CheckOptions) :
    (checkedEndpoint o fs process).map (·.2) = (Configuration.require fs o.folders).bind fun path =>
      (ofFolders o.folders process process).answer fs
        { root := some path.parent, project := o.project, endpoint := o.endpoint, file := o.file } := by
  unfold checkedEndpoint
  cases Configuration.require fs o.folders with
  | error e => rfl
  | ok path =>
    dsimp only [bind, Except.bind]
    rw [← Resolver.outcome_ofFolders, Resolver.outcome]
    generalize Resolver.resolve _ fs _ = resolved
    obtain ⟨resolved | resolved, _⟩ := resolved <;> rfl

theorem path?_ofFile {file : String} (workspace : HasWorkspace fs folders file) :
    ∃ document, SourceDocument.ofFile fs (Path.ofString file) = .ok document ∧
      document.path? = .ok (some (fs.resolve (Path.ofString file))) := by
  obtain ⟨entry, found⟩ := Option.isSome_iff_exists.mp workspace.file
  have located : ∃ parts, fs.locate (Path.ofString file) = .ok parts := by
    unfold Files.lookup? at found
    cases at_ : fs.locate (Path.ofString file) with
    | error e => rw [at_] at found; cases found
    | ok parts => exact ⟨parts, rfl⟩
  obtain ⟨parts, located⟩ := located
  have read := Files.read_of_lookup? ((Files.lookup?_resolve workspace.direct located).trans found)
  refine ⟨_, by rw [SourceDocument.ofFile, read]; rfl, ?_⟩
  rw [SourceDocument.path?, Path.ofUri?_fileUri
    (Files.isPlain_resolve workspace.plain (Path.isPlain_ofString file)) rfl]
  rfl

theorem executedEndpoint_eq (o : ExecuteOptions) (workspace : HasWorkspace fs o.folders o.path) :
    executedEndpoint o fs process = (Configuration.require fs o.folders).bind fun _ =>
      (ofFolders (o.folders.map fs.resolve) process process).answer fs
        { project := o.project, endpoint := o.endpoint
          file := some (fs.resolve (Path.ofString o.path)) } := by
  obtain ⟨document, read, path⟩ := path?_ofFile workspace
  unfold executedEndpoint Session.start
  cases Configuration.require fs o.folders with
  | error e => rfl
  | ok _ =>
    rw [read]
    dsimp only [bind, Except.bind, pure, Except.pure, Functor.map, Except.map, if_true]
    rw [path]
    exact Resolver.outcome_ofFolders ..

/-- The check that asks for the same endpoint. -/
def ExecuteOptions.check (o : ExecuteOptions) : CheckOptions :=
  ⟨o.folders, some (Path.ofString o.path), o.project, o.endpoint⟩

section Roots

variable {o : ExecuteOptions} {root owner path : Path} {name : String}

theorem folderFor_of_owner (member : owner ∈ o.folders)
    (owned : (ofFolders o.folders [] []).rootFor fs (some (Path.ofString o.path)) = .ok owner) :
    (ofFolders (o.folders.map fs.resolve) process process).folderFor fs
      { project := o.project, endpoint := o.endpoint
        file := some (fs.resolve (Path.ofString o.path)) } = .ok (fs.resolve owner) := by
  refine (Resolver.rootFor_resolve (List.ne_nil_of_mem member) _).trans ?_
  exact congrArg (Except.map fs.resolve) owned

/-- The check reads the configuration of the first folder that has one. -/
theorem checked_of_root (first : Configuration.root? fs o.folders = some root)
    (found : Configuration.nameIn? fs root = some name) :
    (checkedEndpoint o.check fs process).map (·.2) =
      ((ofFolders o.folders process process).reading fs (root.join ⟨"", [name]⟩)).bind fun read =>
        endpointIn fs read.1 read.2 (root.join ⟨"", [name]⟩) root
          { root := some root, project := o.project, endpoint := o.endpoint
            file := some (Path.ofString o.path) } := by
  rw [checkedEndpoint_eq, ExecuteOptions.check, Configuration.require_of_some first found]
  dsimp only [Except.bind]
  rw [Path.parent_child]
  exact Resolver.answer_of_located (Resolver.located_of_some rfl found)

variable (workspace : HasWorkspace fs o.folders o.path)
  (required : Configuration.require fs o.folders = .ok path) (member : owner ∈ o.folders)
  (owned : (ofFolders o.folders [] []).rootFor fs (some (Path.ofString o.path)) = .ok owner)
include workspace required member owned

/-- An execution reads the configuration of the folder that the file belongs to. -/
theorem executed_of_owner (found : Configuration.nameIn? fs owner = some name) :
    executedEndpoint o fs process =
      ((ofFolders o.folders process process).reading fs (owner.join ⟨"", [name]⟩)).bind fun read =>
        endpointIn fs read.1 read.2 ((fs.resolve owner).join ⟨"", [name]⟩) (fs.resolve owner)
          { project := o.project, endpoint := o.endpoint
            file := some (fs.resolve (Path.ofString o.path)) } := by
  have resolved := (Configuration.nameIn?_resolve workspace.direct
    (workspace.folders owner member)).trans found
  rw [executedEndpoint_eq o workspace, required,
    Resolver.reading_resolve workspace.direct workspace.folders member found]
  exact Resolver.answer_of_located
    (Resolver.located_of_some (folderFor_of_owner member owned) resolved)

theorem executed_of_none (none_ : Configuration.nameIn? fs owner = none) :
    executedEndpoint o fs process = .error Configuration.missing := by
  have resolved := (Configuration.nameIn?_resolve workspace.direct
    (workspace.folders owner member)).trans none_
  rw [executedEndpoint_eq o workspace, required]
  dsimp only [Except.bind]
  rw [Resolver.answer,
    Resolver.located_of_none (folderFor_of_owner member owned) resolved]
  rfl

end Roots

/-- The first folder with a configuration file, if there is one, is the folder that a file belongs
to, and the file lies in it or is given in resolved form. -/
def HasOneRoot (fs : Files) (folders : List Path) (file : Path) : Prop :=
  ∀ root ∈ Configuration.root? fs folders,
    ((ofFolders folders [] []).rootFor fs (some file)).map fs.resolve = .ok (fs.resolve root) ∧
      ((fs.resolve file).isRelativeTo (fs.resolve root) = true ∨ fs.resolve file = file)

instance (fs : Files) (folders : List Path) (file : Path) : Decidable (HasOneRoot fs folders file) :=
  inferInstanceAs (Decidable (∀ root ∈ Configuration.root? fs folders,
    ((ofFolders folders [] []).rootFor fs (some file)).map fs.resolve = .ok (fs.resolve root) ∧
      ((fs.resolve file).isRelativeTo (fs.resolve root) = true ∨ fs.resolve file = file)))

/-- The check and the execution find the same root, read the same there, and so find the same
endpoint or fail alike. -/
theorem checked_eq_executed {o : ExecuteOptions} (workspace : HasWorkspace fs o.folders o.path)
    (one : HasOneRoot fs o.folders (Path.ofString o.path)) :
    (checkedEndpoint o.check fs process).map (·.2.target) =
      (executedEndpoint o fs process).map (·.target) := by
  have shown : (checkedEndpoint o.check fs process).map (·.2.target) =
      ((checkedEndpoint o.check fs process).map (·.2)).map (·.target) := by
    cases checkedEndpoint o.check fs process <;> rfl
  rw [shown]
  cases first : Configuration.root? fs o.folders with
  | none =>
    have missing := Configuration.require_of_none first
    rw [checkedEndpoint_eq, executedEndpoint_eq o workspace, ExecuteOptions.check, missing]
    rfl
  | some root =>
    obtain ⟨member, name, found⟩ := Configuration.exists_nameIn? first
    obtain ⟨owned, given⟩ := one root first
    obtain ⟨owner, isFolder, isOwner⟩ :=
      Resolver.exists_rootFor (List.ne_nil_of_mem member) fs (Path.ofString o.path)
    rw [isOwner] at owned
    have same : fs.resolve owner = fs.resolve root := Except.ok.inj owned
    have foundThere : Configuration.nameIn? fs owner = some name := by
      rw [← found, ← Configuration.nameIn?_resolve workspace.direct (workspace.folders root member),
        ← same, Configuration.nameIn?_resolve workspace.direct (workspace.folders owner isFolder)]
    rw [checked_of_root first found, executed_of_owner workspace
      (Configuration.require_of_some first found) isFolder isOwner foundThere,
      Resolver.reading_resolve workspace.direct workspace.folders member found,
      Resolver.reading_resolve workspace.direct workspace.folders isFolder foundThere, same]
    cases (ofFolders (o.folders.map fs.resolve) process process).reading fs _ with
    | error e => rfl
    | ok read =>
      refine Resolver.endpointIn_target ?_ rfl rfl ?_
      · rw [Path.name_child, Path.name_child]
      · exact congrArg some (Resolver.patternPath_resolve given).symm

section Layout

variable {other : Files} (shared : fs.SharesLayout other)
include shared

theorem nameIn?_eq (folder : Path) :
    Configuration.nameIn? other folder = Configuration.nameIn? fs folder := by
  unfold Configuration.nameIn?
  simp only [shared.isFile_eq]

theorem root?_eq (folders : List Path) :
    Configuration.root? other folders = Configuration.root? fs folders := by
  unfold Configuration.root?
  simp only [Configuration.find?_eq, nameIn?_eq shared]

theorem rootFor_eq (folders : List Path) (file : Path) :
    (ofFolders folders [] []).rootFor other (some file) =
      (ofFolders folders [] []).rootFor fs (some file) := by
  unfold Resolver.rootFor Resolver.deepest?
  simp only [shared.resolve_eq]

theorem HasWorkspace.congr {file : String} (workspace : HasWorkspace fs folders file) :
    HasWorkspace other folders file where
  plain := shared.current ▸ workspace.plain
  direct := shared.current ▸ workspace.direct
  folders folder member := (shared.isDirectory_eq folder).trans (workspace.folders folder member)
  file := (shared.isFile_eq _).trans workspace.file

theorem HasOneRoot.congr {file : Path} (one : HasOneRoot fs folders file) :
    HasOneRoot other folders file := by
  unfold HasOneRoot
  simp only [root?_eq shared, rootFor_eq shared, shared.resolve_eq]
  have resolved : other.resolve = fs.resolve := funext shared.resolve_eq
  rw [resolved]
  exact one

end Layout

theorem exists_ok_iff {x : Except Failure (Path × Endpoint)} {y : Except Failure Endpoint}
    (same : x.map (·.2.target) = y.map (·.target)) :
    (∃ e, x.map (·.2) = .ok e) ↔ ∃ e, y = .ok e := by
  cases x <;> cases y <;> simp [Except.map] at same ⊢

section Holding

variable {o : ExecuteOptions} {root owner : Path} {name nameThere : String} {bytes : List UInt8}
  {c : Configuration}
  (workspace : HasWorkspace fs o.folders o.path)
  (first : Configuration.root? fs o.folders = some root)
  (found : Configuration.nameIn? fs root = some name)
include workspace first found

/-- What the check finds when only the configuration of the first folder holds anything. -/
theorem checked_holding (parsed : Configuration.parse? bytes = some c) :
    (checkedEndpoint o.check (fs.holding ((fs.resolve root).parts ++ [name]) bytes) []).map (·.2) =
      endpointIn (fs.holding ((fs.resolve root).parts ++ [name]) bytes) c []
        (root.join ⟨"", [name]⟩) root
        { root := some root, project := o.project, endpoint := o.endpoint
          file := some (Path.ofString o.path) } := by
  have shared := fs.sharesLayout_holding ((fs.resolve root).parts ++ [name]) bytes
  rw [checked_of_root ((root?_eq shared o.folders).trans first)
    ((nameIn?_eq shared root).trans found), Resolver.reading_holding workspace.direct
    workspace.folders (Configuration.exists_nameIn? first).1 found
    (List.mem_of_find?_eq_some found) (by rw [if_pos rfl]; exact parsed)]
  rfl

variable (isFolder : owner ∈ o.folders)
  (isOwner : (ofFolders o.folders [] []).rootFor fs (some (Path.ofString o.path)) = .ok owner)
include isFolder isOwner

/-- What an execution finds then. -/
theorem executed_holding (foundThere : Configuration.nameIn? fs owner = some nameThere)
    (parsed : Configuration.parse? (if (fs.resolve owner).parts ++ [nameThere] =
      (fs.resolve root).parts ++ [name] then bytes else []) = some c) :
    executedEndpoint o (fs.holding ((fs.resolve root).parts ++ [name]) bytes) [] =
      endpointIn (fs.holding ((fs.resolve root).parts ++ [name]) bytes) c []
        ((fs.resolve owner).join ⟨"", [nameThere]⟩) (fs.resolve owner)
        { project := o.project, endpoint := o.endpoint
          file := some (fs.resolve (Path.ofString o.path)) } := by
  have shared := fs.sharesLayout_holding ((fs.resolve root).parts ++ [name]) bytes
  rw [executed_of_owner (workspace.congr shared)
    (Configuration.require_of_some ((root?_eq shared o.folders).trans first)
      ((nameIn?_eq shared root).trans found)) isFolder ((rootFor_eq shared o.folders _).trans isOwner)
    ((nameIn?_eq shared owner).trans foundThere), Resolver.reading_holding workspace.direct
    workspace.folders isFolder foundThere (List.mem_of_find?_eq_some found) parsed]
  rfl

theorem executed_missing (none_ : Configuration.nameIn? fs owner = none) :
    executedEndpoint o (fs.holding ((fs.resolve root).parts ++ [name]) bytes) [] =
      .error Configuration.missing := by
  have shared := fs.sharesLayout_holding ((fs.resolve root).parts ++ [name]) bytes
  exact executed_of_none (workspace.congr shared)
    (Configuration.require_of_some ((root?_eq shared o.folders).trans first)
      ((nameIn?_eq shared root).trans found)) isFolder ((rootFor_eq shared o.folders _).trans isOwner)
    ((nameIn?_eq shared owner).trans none_)

variable (project : o.project = none) (endpoint : o.endpoint = none)
  (agree : ∀ other, fs.SharesLayout other → (checkedEndpoint o.check other []).map (·.2.target) =
    (executedEndpoint o other []).map (·.target))
include project endpoint agree

/-- With an endpoint in no configuration but that of the first folder, an execution finds one for the
files of that folder only. -/
theorem resolve_eq_of_agree : fs.resolve owner = fs.resolve root := by
  obtain ⟨c, parsed, outlined⟩ := Option.map_eq_some_iff.mp Configuration.outline_lone
  obtain ⟨bare, parsedBare, outlinedBare⟩ := Option.map_eq_some_iff.mp Configuration.outline_empty
  have shared := fs.sharesLayout_holding ((fs.resolve root).parts ++ [name])
    (Text.encodeUtf8 Configuration.loneText)
  obtain ⟨e, executed⟩ := (exists_ok_iff (agree _ shared)).mp (by
    rw [checked_holding workspace first found parsed]
    exact Resolver.exists_endpointIn_lone outlined project endpoint)
  cases foundThere : Configuration.nameIn? fs owner with
  | none =>
    rw [executed_missing workspace first found isFolder isOwner foundThere] at executed
    cases executed
  | some nameThere =>
    by_contra apart
    have elsewhere : (fs.resolve owner).parts ++ [nameThere] ≠ (fs.resolve root).parts ++ [name] :=
      fun same => apart (congrArg (Path.mk "/") (List.append_inj_left' same rfl))
    have fails : ∃ e, executedEndpoint o (fs.holding ((fs.resolve root).parts ++ [name])
        (Text.encodeUtf8 Configuration.loneText)) [] = .error e := by
      rw [executed_holding workspace first found isFolder isOwner foundThere
        (by rw [if_neg elsewhere]; exact parsedBare)]
      exact Resolver.endpointIn_empty outlinedBare project
    obtain ⟨e, failed⟩ := fails
    rw [failed] at executed
    cases executed

/-- With an endpoint only for paths that are not in resolved form, an execution finds none. -/
theorem given_of_agree (same : fs.resolve owner = fs.resolve root) :
    (fs.resolve (Path.ofString o.path)).isRelativeTo (fs.resolve root) = true ∨
      fs.resolve (Path.ofString o.path) = Path.ofString o.path := by
  have foundThere : Configuration.nameIn? fs owner = some name := by
    rw [← found, ← Configuration.nameIn?_resolve workspace.direct
      (workspace.folders root (Configuration.exists_nameIn? first).1), ← same,
      Configuration.nameIn?_resolve workspace.direct (workspace.folders owner isFolder)]
  obtain ⟨c, parsed, outlined⟩ := Option.map_eq_some_iff.mp Configuration.outline_apart
  by_contra neither
  rw [not_or, Path.isRelativeTo, Option.not_isSome_iff_eq_none] at neither
  obtain ⟨outside, unresolved⟩ := neither
  have shared := fs.sharesLayout_holding ((fs.resolve root).parts ++ [name])
    (Text.encodeUtf8 Configuration.apartText)
  obtain ⟨e, executed⟩ := (exists_ok_iff (agree _ shared)).mp (by
    rw [checked_holding workspace first found parsed]
    refine (Resolver.endpointIn_apart outlined project endpoint rfl).1 ?_
    rw [patternPath, shared.resolve_eq, shared.resolve_eq, outside]
    refine Path.covers_unresolved (Path.isPlain_ofString _) (Path.rootOf_cases _) ?_
    by_contra direct
    rw [not_or, not_not] at direct
    exact unresolved (Files.resolve_of_direct direct.1 direct.2))
  have fails : ∃ e, executedEndpoint o (fs.holding ((fs.resolve root).parts ++ [name])
      (Text.encodeUtf8 Configuration.apartText)) [] = .error e := by
    rw [executed_holding workspace first found isFolder isOwner foundThere
      (by rw [same, if_pos rfl]; exact parsed)]
    refine (Resolver.endpointIn_apart outlined project endpoint rfl).2 ?_
    rw [patternPath, shared.resolve_eq, shared.resolve_eq, Files.resolve_resolve,
      Files.resolve_resolve, same, outside]
    exact Path.not_covers_resolved
      (Files.isPlain_resolve workspace.plain (Path.isPlain_ofString _)) rfl (Path.notMem_collapse _)
  obtain ⟨e, failed⟩ := fails
  rw [failed] at executed
  cases executed

end Holding

/-- With every content of the files, and for every project and endpoint that is asked for, the check
shows the endpoint that an operation of the file is sent to, or fails as the execution does, if and only
if the first folder with a configuration file, where there is one, is the folder that the file belongs
to, and the file lies in it or is given in resolved form. -/
theorem checkedEndpoint_eq_executed_iff {o : ExecuteOptions}
    (workspace : HasWorkspace fs o.folders o.path) :
    (∀ other, fs.SharesLayout other → ∀ process project endpoint,
      (checkedEndpoint { o with project, endpoint }.check other process).map (·.2.target) =
        (executedEndpoint { o with project, endpoint } other process).map (·.target)) ↔
      HasOneRoot fs o.folders (Path.ofString o.path) := by
  constructor
  · intro agree root first
    have agreed (other : Files) (shared : fs.SharesLayout other) := agree other shared [] none none
    obtain ⟨member, name, found⟩ := Configuration.exists_nameIn? first
    obtain ⟨owner, isFolder, isOwner⟩ :=
      Resolver.exists_rootFor (List.ne_nil_of_mem member) fs (Path.ofString o.path)
    have same : fs.resolve owner = fs.resolve root :=
      resolve_eq_of_agree (o := { o with project := none, endpoint := none }) workspace first found
        isFolder isOwner rfl rfl agreed
    refine ⟨?_, ?_⟩
    · rw [isOwner]
      exact congrArg Except.ok same
    · exact given_of_agree (o := { o with project := none, endpoint := none }) workspace first found
        isFolder isOwner rfl rfl agreed same
  · intro one other shared process project endpoint
    exact checked_eq_executed (o := { o with project, endpoint }) (workspace.congr shared)
      (one.congr shared)

/-- Where the folder of the file comes first, the two agree whatever the files hold. -/
theorem checkedEndpoint_eq_executed_first :
    let fs : Files := ⟨⟨"/", ["w"]⟩, [(["w", "b", ".graphqlconfig"], ⟨[], 0⟩),
      (["w", "a", ".graphqlconfig"], ⟨[], 0⟩), (["w", "b", "x.graphql"], ⟨[], 0⟩)], []⟩
    let o : ExecuteOptions :=
      ⟨"b/x.graphql", none, none, none, [], none, none, none, [⟨"", ["b"]⟩, ⟨"", ["a"]⟩]⟩
    HasWorkspace fs o.folders o.path ∧
      ∀ other, fs.SharesLayout other → ∀ process project endpoint,
        (checkedEndpoint { o with project, endpoint }.check other process).map (·.2.target) =
          (executedEndpoint { o with project, endpoint } other process).map (·.target) := by
  intro fs o
  have workspace : HasWorkspace fs o.folders o.path :=
    ⟨by decide, by decide, by decide, by decide⟩
  exact ⟨workspace, (checkedEndpoint_eq_executed_iff workspace).mpr (by decide)⟩

/-- Of two folders with a configuration, the check looks into the first, and an operation of a file
in the second is sent to the endpoint of the second. -/
theorem checkedEndpoint_ne_executed_second :
    let fs : Files := ⟨⟨"/", ["w"]⟩, [
      (["w", "a", ".graphqlconfig.yml"], ⟨Text.encodeUtf8
        "extensions:\n  endpoints:\n    default: http://a.test/graphql\n", 0⟩),
      (["w", "b", ".graphqlconfig.yml"], ⟨Text.encodeUtf8
        "extensions:\n  endpoints:\n    default: http://b.test/graphql\n", 0⟩),
      (["w", "b", "x.graphql"], ⟨Text.encodeUtf8 "query Q \x7b q \x7d", 0⟩)], []⟩
    let o : ExecuteOptions :=
      ⟨"b/x.graphql", none, none, none, [], none, none, none, [⟨"", ["a"]⟩, ⟨"", ["b"]⟩]⟩
    HasWorkspace fs o.folders o.path ∧
      (checkedEndpoint o.check fs []).map (·.2.target.url) = .ok "http://a.test/graphql" ∧
      (executedEndpoint o fs []).map (·.target.url) = .ok "http://b.test/graphql" := by
  rw [Text.encodeUtf8_ofList, Text.encodeUtf8_ofList, Text.encodeUtf8_ofList]
  refine ⟨⟨?_, ?_, ?_, ?_⟩, ?_⟩ <;> decide +kernel

end CommandLine
end InlineQuery
