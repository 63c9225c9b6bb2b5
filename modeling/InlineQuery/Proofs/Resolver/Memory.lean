import InlineQuery.Config.Resolver
import InlineQuery.Proofs.Config.Reading
import InlineQuery.Proofs.Data.Assoc
import InlineQuery.Proofs.Data.Except

namespace InlineQuery

namespace Configuration

/-- The project of a name, or the configuration itself where none is named. -/
def project? (config : Configuration) : Option String → Option Project
  | some name => Assoc.get? config.projects name
  | none => some config.toProject

/-- The entry of an endpoint of a project. A project without endpoints has those of the
configuration. -/
def entry? (config : Configuration) (key : Option String × String) : Option EndpointEntry :=
  (config.project? key.1).bind fun p =>
    Assoc.get? (if p.endpoints.isEmpty then config.endpoints else p.endpoints) key.2

end Configuration

namespace Resolver

/-- A project that is selected is the one of its name, also when a file selected it. -/
theorem project?_of_selectProject {fs : Files} {config : Configuration} {project : Option String}
    {file : Option Path} {root : Path} {name : Option String} {p : Project}
    (distinct : (config.projects.map (·.1)).Nodup)
    (selected : selectProject fs config project file root = .ok (name, p)) :
    config.project? name = some p := by
  unfold selectProject at selected
  cases project with
  | some asked =>
    dsimp only at selected
    cases held : Assoc.get? config.projects asked with
    | none => rw [held] at selected; cases selected
    | some found =>
      rw [held] at selected
      cases selected
      exact held
  | none =>
    cases file with
    | none => cases selected; rfl
    | some file =>
      dsimp only at selected
      split at selected
      · rename_i found
        cases selected
        exact Assoc.get?_of_mem distinct (List.mem_of_find?_eq_some found)
      · cases selected
        rfl

theorem mem_of_selectProject {fs : Files} {config : Configuration} {project : Option String}
    {file : Option Path} {root : Path} {name : Option String} {p : Project}
    (selected : selectProject fs config project file root = .ok (name, p)) :
    p = config.toProject ∨ ∃ known, (known, p) ∈ config.projects := by
  unfold selectProject at selected
  split at selected
  · split at selected <;> cases selected
    rename_i held
    exact .inr ⟨_, Assoc.mem_of_get? held⟩
  · split at selected <;> cases selected
    · rename_i found
      exact .inr ⟨_, List.mem_of_find?_eq_some found⟩
    · exact .inl rfl
  · cases selected
    exact .inl rfl

section Selection

variable {fs : Files} {config : Configuration} {path root : Path} {project endpoint : Option String}
  {file : Option Path} {key : Option String × String} {entry : EndpointEntry} {e : Failure}

/-- An entry that is selected is the one of its name among the endpoints of its project, or of the
configuration where the project has none. -/
theorem selectEntry_ok
    (selected : selectEntry fs config path root project endpoint file = .ok (key, entry)) :
    ∃ p, selectProject fs config project file root = .ok (key.1, p) ∧
      Assoc.get? (if p.endpoints.isEmpty then config.endpoints else p.endpoints) key.2 =
        some entry := by
  obtain ⟨⟨name, p⟩, found, rest⟩ := bind_eq_ok selected
  dsimp only at rest
  generalize isShared : (if p.endpoints.isEmpty then config.endpoints else p.endpoints) = endpoints
    at rest
  split at rest
  · cases rest
  · split at rest
    · rename_i held
      cases rest
      exact ⟨p, found, isShared ▸ held⟩
    · cases rest

/-- The project and the name of an entry that is selected determine it. -/
theorem entry?_of_selectEntry (distinct : (config.projects.map (·.1)).Nodup)
    (selected : selectEntry fs config path root project endpoint file = .ok (key, entry)) :
    config.entry? key = some entry := by
  obtain ⟨p, found, held⟩ := selectEntry_ok selected
  rw [Configuration.entry?, project?_of_selectProject distinct found]
  exact held

theorem selectProject_error (failed : selectProject fs config project file root = .error e) :
    ∃ name names, e = unknown "project" name names := by
  unfold selectProject at failed
  split at failed
  · split at failed <;> cases failed
    exact ⟨_, _, rfl⟩
  · split at failed <;> cases failed
  · cases failed

/-- An entry is not selected because there are no endpoints, or because a name is not known. -/
theorem selectEntry_error
    (failed : selectEntry fs config path root project endpoint file = .error e) :
    (∃ name, e = noEndpoints path name) ∨ ∃ what name names, e = unknown what name names := by
  rcases bind_eq_error failed with failed | ⟨⟨name, p⟩, -, failed⟩
  · obtain ⟨name, names, rfl⟩ := selectProject_error failed
    exact .inr ⟨_, name, names, rfl⟩
  · dsimp only at failed
    generalize (if p.endpoints.isEmpty then config.endpoints else p.endpoints) = endpoints at failed
    split at failed
    · cases failed
      exact .inl ⟨name, rfl⟩
    · split at failed <;> cases failed
      exact .inr ⟨_, _, _, rfl⟩

/-- The entry that is selected of a finite configuration has no endless parameter. -/
theorem not_isEndless_of_selectEntry (finite : config.IsFinite)
    (selected : selectEntry fs config path root project endpoint file = .ok (key, entry)) :
    ¬ entry.IsEndless := by
  obtain ⟨p, found, held⟩ := selectEntry_ok selected
  have isFinite : p.IsFinite := by
    rcases mem_of_selectProject found with rfl | ⟨name, member⟩
    · exact finite.1
    · exact finite.2 (name, p) member
  split at held
  · exact finite.1 (key.2, entry) (Assoc.mem_of_get? held)
  · exact isFinite (key.2, entry) (Assoc.mem_of_get? held)

/-- An endpoint is not built where its URL is empty, or where a parameter holds itself. -/
theorem build_error {env : Environment} (failed : build env path key entry = .error e) :
    e = Configuration.invalid ("Endpoint '" ++ key.2 ++ "' has an empty URL") [] ∨
      e = .endless ∧ entry.IsEndless := by
  unfold build at failed
  dsimp only [bind, Except.bind] at failed
  split at failed
  · cases failed
    exact .inl rfl
  · split at failed <;> cases failed
    rename_i endless
    obtain ⟨param, member, isEndless⟩ := List.any_eq_true.mp endless
    cases target : entry.subscription with
    | none =>
      rw [target] at member
      cases member
    | some target' =>
      rw [target] at member
      exact .inr ⟨rfl, target', target, param, member, isEndless⟩

end Selection

variable {r next : Resolver} {fs other : Files} {path : Path} {past : List Files}

/-- The folder that a question is about. -/
def folderFor (r : Resolver) (fs : Files) (q : Query) : Except Failure Path :=
  match q.root with
  | some root => .ok root
  | none => r.rootFor fs q.file

/-- The folder and the configuration file that a question is about. -/
def located (r : Resolver) (fs : Files) (q : Query) : Except Failure (Path × Path) := do
  let root ← r.folderFor fs q
  match Configuration.find? fs root with
  | some path => return (root, path)
  | none => throw Configuration.missing

/-- What a configuration file says now, with the environment as it is now. -/
def reading (r : Resolver) (fs : Files) (path : Path) :
    Except Failure (Configuration × Environment) := do
  let configuration ← Configuration.load fs path
  let env ← Environment.merged fs r.process r.folders r.explicit
  return (configuration, env)

/-- The endpoint of a configuration that is asked for. -/
def endpointIn (fs : Files) (configuration : Configuration) (env : Environment) (path root : Path)
    (q : Query) : Except Failure Endpoint := do
  let (key, entry) ← selectEntry fs configuration path root q.project q.endpoint q.file
  build env path key entry

/-- The endpoint that is asked for, read from the files as they are. -/
def answer (r : Resolver) (fs : Files) (q : Query) : Except Failure Endpoint := do
  let (root, path) ← r.located fs q
  let (configuration, env) ← r.reading fs path
  endpointIn fs configuration env path root q

/-- What a question is answered with: an endpoint or a failure. -/
def outcome (r : Resolver) (fs : Files) (q : Query) : Except Failure Endpoint :=
  (r.resolve fs q).1.map (·.endpoint)

/-- Whether two resolvers have the same folders and environment. They may remember different
things. -/
structure SharesSources (r next : Resolver) : Prop where
  folders : next.folders = r.folders
  process : next.process = r.process
  explicit : next.explicit = r.explicit

namespace SharesSources

theorem reading_eq (shared : r.SharesSources next) (fs : Files) (path : Path) :
    next.reading fs path = r.reading fs path := by
  rw [reading, reading, shared.folders, shared.process, shared.explicit]

theorem answer_eq (shared : r.SharesSources next) (fs : Files) (q : Query) :
    next.answer fs q = r.answer fs q := by
  simp only [answer, located, folderFor, rootFor, shared.folders, shared.reading_eq]

theorem refl (r : Resolver) : r.SharesSources r := ⟨rfl, rfl, rfl⟩

theorem trans {last : Resolver} (first : r.SharesSources next)
    (second : next.SharesSources last) : r.SharesSources last :=
  ⟨second.folders.trans first.folders, second.process.trans first.process,
    second.explicit.trans first.explicit⟩

end SharesSources

/-- A remembered configuration is what the files said: it was read from the file at a path with its
modification time, and its endpoints were built from their entries. -/
structure IsReadFrom (r : Resolver) (fs : Files) (path : Path) (loaded : LoadedConfiguration) :
    Prop where
  isPath : Configuration.IsPath path
  stamp : ∃ entry, fs.lookup? path = some entry ∧ entry.modified = loaded.modified
  read : r.reading fs path = .ok (loaded.configuration, loaded.env)
  built : ∀ key resolved, Assoc.get? loaded.endpoints key = some resolved →
    ∃ entry, loaded.configuration.entry? key = some entry ∧
      build loaded.env path key entry = .ok resolved.endpoint

/-- Everything that is remembered was true at some time in the past. -/
def IsSound (r : Resolver) (past : List Files) : Prop :=
  ∀ path loaded, Assoc.get? r.loaded path = some loaded → ∃ fs ∈ past, r.IsReadFrom fs path loaded

/-- A time over which modification times tell the contents of each configuration file apart and the
environment files do not change. -/
structure IsStamped (folders : List Path) (past : List Files) : Prop where
  stamped : ∀ fs ∈ past, ∀ other ∈ past, ∀ path, Configuration.IsPath path →
    ∀ entry entry', fs.lookup? path = some entry → other.lookup? path = some entry' →
      entry.bytes ≠ entry'.bytes → entry.modified ≠ entry'.modified
  kept : ∀ fs ∈ past, ∀ other ∈ past, ∀ folder ∈ folders,
    (fs.lookup? (Environment.fileIn folder)).map (·.bytes) =
      (other.lookup? (Environment.fileIn folder)).map (·.bytes)

theorem IsStamped.mono {folders : List Path} {part : List Files} (stamped : IsStamped folders past)
    (within : ∀ fs ∈ part, fs ∈ past) : IsStamped folders part where
  stamped fs now other before := stamped.stamped fs (within fs now) other (within other before)
  kept fs now other before := stamped.kept fs (within fs now) other (within other before)

theorem nodup_projects_of_reading {config : Configuration} {env : Environment}
    (read : r.reading fs path = .ok (config, env)) : (config.projects.map (·.1)).Nodup := by
  obtain ⟨configuration, loaded, rest⟩ := bind_eq_ok read
  obtain ⟨merged, -, same⟩ := bind_eq_ok rest
  cases same
  exact Configuration.nodup_projects_of_load loaded

/-- What was read of a file is still right while the file has its modification time. -/
theorem IsReadFrom.current {loaded : LoadedConfiguration} (was : r.IsReadFrom other path loaded)
    (stamped : IsStamped r.folders past) (before : other ∈ past) (now : fs ∈ past)
    {entry : FileEntry} (found : fs.lookup? path = some entry)
    (same : loaded.modified = entry.modified) : r.IsReadFrom fs path loaded := by
  obtain ⟨isPath, ⟨old, atOld, stamp⟩, read, built⟩ := was
  have contents : entry.bytes = old.bytes := Decidable.byContradiction fun differs =>
    stamped.stamped fs now other before path isPath entry old found atOld differs
      (same.symm.trans stamp.symm)
  refine ⟨isPath, ⟨entry, found, same.symm⟩, ?_, built⟩
  rw [← read, reading, reading, Configuration.load_congr found atOld rfl contents,
    Environment.merged_congr _ _ (stamped.kept fs now other before)]

/-- Remembering what was just read keeps the memory sound. -/
theorem IsSound.put (sound : r.IsSound past) {loaded : LoadedConfiguration}
    (now : fs ∈ past) (isRead : r.IsReadFrom fs path loaded) (built : Nat) :
    IsSound { r with loaded := Assoc.put r.loaded path loaded, built } past := by
  intro place memory held
  rw [Assoc.get?_put] at held
  split at held
  · rename_i same
    cases held
    rw [beq_iff_eq] at same
    subst same
    exact ⟨fs, now, ⟨isRead.isPath, isRead.stamp, isRead.read, isRead.built⟩⟩
  · obtain ⟨old, before, ⟨isPath, stamp, read, built⟩⟩ := sound place memory held
    exact ⟨old, before, ⟨isPath, stamp, read, built⟩⟩

/-- A configuration that is not remembered, or of another time, is read. -/
theorem load_stale (stale : ∀ loaded, Assoc.get? r.loaded path = some loaded →
      loaded.modified ≠ modified fs path) :
    r.load fs path = (r.reading fs path).map fun (configuration, env) =>
      (⟨modified fs path, configuration, env, []⟩,
        { r with loaded := Assoc.put r.loaded path ⟨modified fs path, configuration, env, []⟩ }) := by
  have readAnew : r.load fs path = (do
      let configuration ← Configuration.load fs path
      let env ← Environment.merged fs r.process r.folders r.explicit
      let loaded := ⟨modified fs path, configuration, env, []⟩
      return (loaded, { r with loaded := Assoc.put r.loaded path loaded })) := by
    unfold load
    cases held : Assoc.get? r.loaded path with
    | none => rfl
    | some loaded => exact if_neg (stale loaded held)
  rw [readAnew, reading]
  cases Configuration.load fs path with
  | error e => rfl
  | ok configuration => cases Environment.merged fs r.process r.folders r.explicit <;> rfl

/-- Loading a configuration gives what reading it now gives. -/
theorem IsSound.load_cases (sound : r.IsSound past) (stamped : IsStamped r.folders past)
    (now : fs ∈ past) (isPath : Configuration.IsPath path) {entry : FileEntry}
    (found : fs.lookup? path = some entry) :
    (∃ e, r.load fs path = .error e ∧ r.reading fs path = .error e) ∨
      ∃ loaded next, r.load fs path = .ok (loaded, next) ∧ r.IsReadFrom fs path loaded ∧
        r.SharesSources next ∧ next.IsSound past := by
  have isNow : modified fs path = entry.modified := by simp [modified, found]
  by_cases stale : ∀ loaded, Assoc.get? r.loaded path = some loaded →
      loaded.modified ≠ modified fs path
  · have step := load_stale stale
    cases read : r.reading fs path with
    | error e => exact .inl ⟨e, by rw [step, read]; rfl, rfl⟩
    | ok parts =>
      obtain ⟨configuration, env⟩ := parts
      have isRead : r.IsReadFrom fs path ⟨modified fs path, configuration, env, []⟩ :=
        ⟨isPath, ⟨entry, found, isNow.symm⟩, read, nofun⟩
      refine .inr ⟨_, _, by rw [step, read]; rfl, isRead, ?_, sound.put now isRead r.built⟩
      exact ⟨rfl, rfl, rfl⟩
  · simp only [Classical.not_forall, Classical.not_not] at stale
    obtain ⟨loaded, held, same⟩ := stale
    obtain ⟨old, before, was⟩ := sound path loaded held
    right
    exact ⟨loaded, r, by simp [load, held, same],
      was.current stamped before now found (same.trans isNow), .refl r, sound⟩

/-- The endpoint of a configuration that was read is the one that its entry gives now. -/
theorem IsSound.resolveIn_cases (sound : r.IsSound past) (now : fs ∈ past) (root : Path)
    {loaded : LoadedConfiguration} (isRead : r.IsReadFrom fs path loaded) (q : Query) :
    (∃ e, r.resolveIn fs path root loaded q = .error e ∧
      endpointIn fs loaded.configuration loaded.env path root q = .error e) ∨
      ∃ resolved next, r.resolveIn fs path root loaded q = .ok (resolved, next) ∧
        endpointIn fs loaded.configuration loaded.env path root q = .ok resolved.endpoint ∧
        r.SharesSources next ∧ next.IsSound past := by
  unfold resolveIn endpointIn
  cases selected : selectEntry fs loaded.configuration path root q.project q.endpoint q.file with
  | error e => exact .inl ⟨e, rfl, rfl⟩
  | ok found =>
    obtain ⟨key, entry⟩ := found
    have isEntry := entry?_of_selectEntry (nodup_projects_of_reading isRead.read) selected
    dsimp only [bind, Except.bind]
    cases held : Assoc.get? loaded.endpoints key with
    | some resolved =>
      obtain ⟨other, isOther, built⟩ := isRead.built key resolved held
      cases isEntry.symm.trans isOther
      exact .inr ⟨resolved, r, rfl, built, .refl r, sound⟩
    | none =>
      cases built : build loaded.env path key entry with
      | error e => exact .inl ⟨e, rfl, rfl⟩
      | ok endpoint =>
        refine .inr ⟨_, _, rfl, rfl, ⟨rfl, rfl, rfl⟩, sound.put now ?_ (r.built + 1)⟩
        refine ⟨isRead.isPath, isRead.stamp, isRead.read, ?_⟩
        intro other resolved known
        rw [Assoc.get?_put] at known
        split at known
        · rename_i same
          cases known
          rw [beq_iff_eq] at same
          subst same
          exact ⟨entry, isEntry, built⟩
        · exact isRead.built other resolved known

theorem resolve_eq (r : Resolver) (fs : Files) (q : Query) :
    r.resolve fs q =
      match r.located fs q with
      | .error e => (.error e, r)
      | .ok (root, path) =>
        match r.load fs path with
        | .error e => (.error e, r)
        | .ok (loaded, r) =>
          match r.resolveIn fs path root loaded q with
          | .error e => (.error e, r)
          | .ok (resolved, r) => (.ok resolved, r) := by
  unfold Resolver.resolve located folderFor
  cases q.root <;> rfl

section Steps

variable {q : Query} {root : Path} {e : Failure}

/-- A question is about the configuration file that is found in its folder. -/
theorem located_ok (isAt : r.located fs q = .ok (root, path)) :
    r.folderFor fs q = .ok root ∧ Configuration.find? fs root = some path := by
  obtain ⟨folder, chosen, rest⟩ := bind_eq_ok isAt
  split at rest
  · rename_i found
    cases rest
    exact ⟨chosen, found⟩
  · cases rest

/-- A question about no configuration file says that there is none. -/
theorem located_error (failed : r.located fs q = .error e) : e = Configuration.missing := by
  rcases bind_eq_error failed with failed | ⟨folder, -, failed⟩
  · unfold folderFor rootFor at failed
    split at failed
    · cases failed
    · split at failed <;> cases failed
      rfl
  · split at failed <;> cases failed
    rfl

variable {loaded : LoadedConfiguration}

/-- A resolver that answers from a configuration is as it was, or remembers one more endpoint. -/
theorem resolveIn_ok {resolved : Resolved}
    (made : r.resolveIn fs path root loaded q = .ok (resolved, next)) :
    next = r ∨ ∃ endpoints, next = { r with
      loaded := Assoc.put r.loaded path { loaded with endpoints }
      built := r.built + 1 } := by
  obtain ⟨⟨key, entry⟩, -, rest⟩ := bind_eq_ok made
  dsimp only at rest
  split at rest
  · cases rest
    exact .inl rfl
  · obtain ⟨endpoint, -, same⟩ := bind_eq_ok rest
    cases same
    exact .inr ⟨_, rfl⟩

/-- Remembered endpoints do not make an answer fail. -/
theorem endpointIn_of_resolveIn_error (failed : r.resolveIn fs path root loaded q = .error e) :
    endpointIn fs loaded.configuration loaded.env path root q = .error e := by
  unfold endpointIn
  rcases bind_eq_error failed with failed | ⟨⟨key, entry⟩, selected, failed⟩
  · rw [failed]
    rfl
  · rw [selected]
    dsimp only [bind, Except.bind]
    dsimp only at failed
    split at failed
    · cases failed
    · rcases bind_eq_error failed with failed | ⟨endpoint, -, made⟩
      · exact failed
      · cases made

/-- There is no endpoint in a configuration that has none, that does not know a name, or whose
endpoint has an empty URL or a parameter that holds itself. -/
theorem endpointIn_error {config : Configuration} {env : Environment}
    (failed : endpointIn fs config env path root q = .error e) :
    (∃ name, e = noEndpoints path name) ∨ (∃ what name names, e = unknown what name names) ∨
      (∃ name, e = Configuration.invalid ("Endpoint '" ++ name ++ "' has an empty URL") []) ∨
      e = .endless ∧ ¬ config.IsFinite := by
  rcases bind_eq_error failed with failed | ⟨⟨key, entry⟩, selected, failed⟩
  · rcases selectEntry_error failed with none_ | other
    · exact .inl none_
    · exact .inr (.inl other)
  · rcases build_error failed with empty | ⟨same, endless⟩
    · exact .inr (.inr (.inl ⟨key.2, empty⟩))
    · exact .inr (.inr (.inr ⟨same, fun finite =>
        not_isEndless_of_selectEntry finite selected endless⟩))

end Steps

/-- A resolver with a sound memory answers as if it had none, and its memory stays sound. -/
theorem IsSound.resolve (sound : r.IsSound past) (stamped : IsStamped r.folders past)
    (now : fs ∈ past) (q : Query) :
    r.outcome fs q = r.answer fs q ∧ r.SharesSources (r.resolve fs q).2 ∧
      (r.resolve fs q).2.IsSound past := by
  rw [outcome, resolve_eq, answer]
  cases isAt : r.located fs q with
  | error e => exact ⟨rfl, .refl r, sound⟩
  | ok place =>
    obtain ⟨root, path⟩ := place
    obtain ⟨isPath, entry, found⟩ := Configuration.find?_some (located_ok isAt).2
    dsimp only [bind, Except.bind]
    rcases sound.load_cases stamped now isPath found with
      ⟨e, load, read⟩ | ⟨loaded, next, load, isRead, shared, kept⟩
    · rw [load, read]
      exact ⟨rfl, .refl r, sound⟩
    · have isReadNext : next.IsReadFrom fs path loaded :=
        ⟨isRead.isPath, isRead.stamp, by rw [shared.reading_eq, isRead.read], isRead.built⟩
      rw [load, isRead.read]
      dsimp only
      rcases kept.resolveIn_cases now root isReadNext q with
        ⟨e, resolved, built⟩ | ⟨resolved, last, resolve, built, sharedLast, keptLast⟩
      · rw [resolved, built]
        exact ⟨rfl, shared, kept⟩
      · rw [resolve, built]
        exact ⟨rfl, shared.trans sharedLast, keptLast⟩

theorem IsSound.invalidate (sound : r.IsSound past) (fs : Files) (root : Option Path) :
    r.SharesSources (r.invalidate fs root) ∧ (r.invalidate fs root).IsSound past := by
  unfold Resolver.invalidate
  cases root with
  | none => exact ⟨⟨rfl, rfl, rfl⟩, nofun⟩
  | some folder =>
    dsimp only
    cases Configuration.find? fs folder with
    | none => exact ⟨.refl r, sound⟩
    | some path =>
      refine ⟨⟨rfl, rfl, rfl⟩, ?_⟩
      intro place loaded held
      rw [Assoc.get?_erase] at held
      split at held
      · cases held
      · obtain ⟨old, before, ⟨isPath, stamp, read, built⟩⟩ := sound place loaded held
        exact ⟨old, before, ⟨isPath, stamp, read, built⟩⟩

theorem isSound_ofFolders (folders : List Path) (process explicit : Environment)
    (past : List Files) : (ofFolders folders process explicit).IsSound past := nofun

end Resolver
end InlineQuery
