import InlineQuery.Proofs.Path.Editing
import InlineQuery.Proofs.Resolver.Folders
import InlineQuery.Proofs.Resolver.Run

/-!
What is remembered of a folder behind its invalidation. Only the configuration file that is found
there at that time is forgotten; another one that was read earlier is remembered until it is found
again.
-/

namespace InlineQuery

namespace Configuration

/-- The places of the configuration files of a folder. -/
def pathsIn (folder : Path) : List Path := fileNames.map fun name => folder.join ⟨"", [name]⟩

theorem mem_pathsIn_of_find? {fs : Files} {folder path : Path}
    (found : find? fs folder = some path) : path ∈ pathsIn folder :=
  List.mem_of_find?_eq_some found

/-- The place of a configuration file tells its folder. -/
theorem parent_of_mem_pathsIn {folder path : Path} (member : path ∈ pathsIn folder) :
    path.parent = folder := by
  obtain ⟨name, _, rfl⟩ := List.mem_map.mp member
  exact Path.parent_child folder name

end Configuration

namespace Resolver

variable {r next : Resolver} {fs other : Files} {path root : Path} {loaded : LoadedConfiguration}
  {q : Query}

/-- Whether one step of a resolver leaves all as it is but what it remembers of one path. -/
structure ChangesAt (path : Path) (r next : Resolver) : Prop where
  shared : r.SharesSources next
  apart : ∀ other ≠ path, Assoc.get? next.loaded other = Assoc.get? r.loaded other

namespace ChangesAt

theorem refl (path : Path) (r : Resolver) : r.ChangesAt path r := ⟨.refl r, fun _ _ => rfl⟩

theorem trans {last : Resolver} (first : r.ChangesAt path next) (second : next.ChangesAt path last) :
    r.ChangesAt path last :=
  ⟨first.shared.trans second.shared, fun other differs =>
    (second.apart other differs).trans (first.apart other differs)⟩

theorem put (path : Path) (r : Resolver) (loaded : LoadedConfiguration) (built : Nat) :
    r.ChangesAt path { r with loaded := Assoc.put r.loaded path loaded, built } := by
  refine ⟨⟨rfl, rfl, rfl⟩, fun other differs => ?_⟩
  rw [Assoc.get?_put, if_neg]
  simpa using fun same : path = other => differs same.symm

end ChangesAt

theorem changesAt_load (load : r.load fs path = .ok (loaded, next)) : r.ChangesAt path next := by
  have fresh (stale : ∀ loaded, Assoc.get? r.loaded path = some loaded →
      loaded.modified ≠ modified fs path) : r.ChangesAt path next := by
    rw [load_stale stale] at load
    cases read : r.reading fs path with
    | error e => rw [read] at load; cases load
    | ok parts =>
      rw [read] at load
      cases load
      exact .put path r _ r.built
  unfold Resolver.load at load
  cases held : Assoc.get? r.loaded path with
  | none => exact fresh (by simp [held])
  | some memory =>
    by_cases same : memory.modified = modified fs path
    · rw [held] at load
      dsimp only at load
      rw [if_pos same] at load
      cases load
      exact .refl path r
    · exact fresh (by simpa [held] using same)

theorem changesAt_resolveIn {resolved : Resolved}
    (resolve : r.resolveIn fs path root loaded q = .ok (resolved, next)) : r.ChangesAt path next := by
  rcases resolveIn_ok resolve with rfl | ⟨endpoints, rfl⟩
  · exact .refl path _
  · exact .put path r _ (r.built + 1)

/-- A question changes what is remembered of the configuration file that it is answered from. -/
theorem changesAt_resolve (r : Resolver) (fs : Files) (q : Query) :
    (r.resolve fs q).2 = r ∨
      ∃ root path, r.located fs q = .ok (root, path) ∧ r.ChangesAt path (r.resolve fs q).2 := by
  rw [resolve_eq]
  cases isAt : r.located fs q with
  | error e => exact .inl rfl
  | ok place =>
    obtain ⟨root, path⟩ := place
    dsimp only
    cases load : r.load fs path with
    | error e => exact .inl rfl
    | ok found =>
      obtain ⟨loaded, next⟩ := found
      have first := changesAt_load load
      refine .inr ⟨root, path, rfl, ?_⟩
      dsimp only
      cases resolve : next.resolveIn fs path root loaded q with
      | error e => exact first
      | ok answered => exact first.trans (changesAt_resolveIn resolve)

theorem changesAt_invalidate (r : Resolver) (fs : Files) (root : Path) :
    r.SharesSources (r.invalidate fs (some root)) ∧
      ∀ path, Assoc.get? (r.invalidate fs (some root)).loaded path =
        if Configuration.find? fs root = some path then none else Assoc.get? r.loaded path := by
  unfold Resolver.invalidate
  dsimp only
  cases found : Configuration.find? fs root with
  | none => exact ⟨.refl r, fun path => by simp⟩
  | some first =>
    refine ⟨⟨rfl, rfl, rfl⟩, fun path => ?_⟩
    rw [Assoc.get?_erase]
    simp

/-- Of the configuration files of a folder, those that are remembered. -/
def remembered (r : Resolver) (root : Path) : List Path :=
  (Configuration.pathsIn root).filter fun path => (Assoc.get? r.loaded path).isSome

theorem remembered_eq_nil_iff : r.remembered root = [] ↔
    ∀ path ∈ Configuration.pathsIn root, Assoc.get? r.loaded path = none := by
  rw [remembered, List.filter_eq_nil_iff]
  simp

/-- An invalidation forgets the configuration files of a folder if no other one than that which is
found there is remembered. -/
theorem remembered_invalidate_eq_nil_iff (r : Resolver) (fs : Files) (root : Path) :
    (r.invalidate fs (some root)).remembered root = [] ↔
      ∀ path ∈ r.remembered root, Configuration.find? fs root = some path := by
  rw [remembered_eq_nil_iff]
  simp only [(r.changesAt_invalidate fs root).2, remembered, List.mem_filter, and_imp]
  refine forall₂_congr fun path _ => ⟨fun forgotten held => ?_, fun found => ?_⟩
  · refine Decidable.byContradiction fun other => ?_
    rw [if_neg other] at forgotten
    rw [forgotten] at held
    cases held
  · split
    · rfl
    · rename_i other
      exact Option.not_isSome_iff_eq_none.mp fun held => other (found held)

/-- The folder that a question is about does not depend on what there is in the files. -/
theorem folderFor_congr (shared : r.SharesSources next) (current : other.current = fs.current)
    (q : Query) : next.folderFor other q = r.folderFor fs q := by
  have resolve : other.resolve = fs.resolve := by
    funext path
    rw [Files.resolve, Files.resolve, current]
  unfold folderFor rootFor deepest?
  rw [shared.folders, resolve]

/-- A question about a folder of which nothing is remembered is answered from the files. -/
theorem outcome_of_forgotten (asks : r.folderFor fs q = .ok root)
    (forgotten : r.remembered root = []) : r.outcome fs q = r.answer fs q := by
  rw [outcome, resolve_eq, answer]
  cases isAt : r.located fs q with
  | error e => rfl
  | ok place =>
    obtain ⟨folder, path⟩ := place
    cases asks.symm.trans (located_ok isAt).1
    have member := Configuration.mem_pathsIn_of_find? (located_ok isAt).2
    have nothing := remembered_eq_nil_iff.mp forgotten path member
    dsimp only [bind, Except.bind]
    rw [load_stale (by simp [nothing])]
    cases r.reading fs path with
    | error e => rfl
    | ok read =>
      obtain ⟨configuration, env⟩ := read
      dsimp only [Except.map, resolveIn, endpointIn, bind, Except.bind]
      cases selectEntry fs configuration path root q.project q.endpoint q.file with
      | error e => rfl
      | ok selected =>
        obtain ⟨key, entry⟩ := selected
        dsimp only
        have unbuilt : Assoc.get? ([] : List ((Option String × String) × Resolved)) key = none := rfl
        rw [unbuilt]
        dsimp only
        cases build env path key entry <;> rfl

/-- A failure to find an endpoint in a configuration that was read does not say that the file cannot
be read. -/
theorem head?_of_endpointIn_error {configuration : Configuration} {env : Environment} {e : Failure}
    (failed : endpointIn fs configuration env path root q = .error e) :
    e.message.toList.head? ≠ some 'C' := by
  rcases endpointIn_error failed with
    ⟨name, rfl⟩ | ⟨what, name, names, rfl⟩ | ⟨name, rfl⟩ | ⟨rfl, -⟩
  · simp [noEndpoints, Configuration.invalid, String.toList_append]
  · simp [unknown, Configuration.invalid, String.toList_append]
  · simp [Configuration.invalid, String.toList_append]
  · simp [Failure.endless]

/-- What any steps keep of a new resolver and the files it starts with. Whatever is remembered is of
a path that leads somewhere. -/
structure IsReached (folders : List Path) (process explicit : Environment) (fs : Files)
    (x : Resolver × Files) : Prop where
  shared : (ofFolders folders process explicit).SharesSources x.1
  kept : fs.KeepsDirectories x.2
  located : ∀ path, (Assoc.get? x.1.loaded path).isSome → ∃ parts, x.2.locate path = .ok parts

variable {folders : List Path} {process explicit : Environment} {x : Resolver × Files}

theorem IsReached.step (reached : IsReached folders process explicit fs x) (a : Step) :
    IsReached folders process explicit fs (Resolver.step x a) := by
  obtain ⟨shared, kept, located⟩ := reached
  cases a with
  | resolve q =>
    rcases changesAt_resolve x.1 x.2 q with same | ⟨root, path, isAt, changed⟩
    · rw [Resolver.step, same]
      exact ⟨shared, kept, located⟩
    · refine ⟨shared.trans changed.shared, kept, fun other held => ?_⟩
      by_cases own : other = path
      · obtain ⟨_, entry, found⟩ := Configuration.find?_some (located_ok isAt).2
        rw [own]
        exact Files.exists_locate_of_lookup? found
      · rw [Resolver.step, changed.apart other own] at held
        exact located other held
  | invalidate root =>
    cases root with
    | none => exact ⟨⟨shared.folders, shared.process, shared.explicit⟩, kept, nofun⟩
    | some root =>
      obtain ⟨same, forgets⟩ := x.1.changesAt_invalidate x.2 root
      refine ⟨shared.trans same, kept, fun path held => ?_⟩
      rw [Resolver.step, forgets path] at held
      split at held
      · cases held
      · exact located path held
  | write path entry =>
    have keeps := Files.keepsDirectories_write x.2 path entry
    exact ⟨shared, kept.trans keeps, fun place held =>
      (located place held).imp fun _ => keeps.locate⟩
  | remove path =>
    have keeps := Files.keepsDirectories_remove x.2 path
    exact ⟨shared, kept.trans keeps, fun place held =>
      (located place held).imp fun _ => keeps.locate⟩

theorem IsReached.run (reached : IsReached folders process explicit fs x) (steps : List Step) :
    IsReached folders process explicit fs (steps.foldl Resolver.step x) := by
  induction steps generalizing x with
  | nil => exact reached
  | cons a steps ih => exact ih (reached.step a)

theorem isReached_runFrom (folders : List Path) (process explicit : Environment) (fs : Files)
    (steps : List Step) :
    IsReached folders process explicit fs (runFrom folders process explicit fs steps) :=
  IsReached.run ⟨.refl _, .refl fs, fun _ held => by cases held⟩ steps

/-- Whether a step asks for an endpoint of a folder. -/
def Step.AsksFor (r : Resolver) (fs : Files) (root : Path) : Step → Prop
  | resolve q => r.folderFor fs q = .ok root
  | invalidate _ | write _ _ | remove _ => False

/-- Steps that do not ask for an endpoint of a folder let it stay forgotten. -/
theorem remembered_step {a : Step} (forgotten : x.1.remembered root = [])
    (other : ¬ a.AsksFor x.1 x.2 root) : (Resolver.step x a).1.remembered root = [] := by
  rw [remembered_eq_nil_iff] at forgotten ⊢
  intro path member
  cases a with
  | resolve q =>
    rcases changesAt_resolve x.1 x.2 q with same | ⟨folder, place, isAt, changed⟩
    · rw [Resolver.step, same]
      exact forgotten path member
    · refine (changed.apart path fun own => other ?_).trans (forgotten path member)
      -- A place tells its folder, which would be the one that is asked for.
      have inside := Configuration.mem_pathsIn_of_find? (located_ok isAt).2
      rw [← Configuration.parent_of_mem_pathsIn member, own,
        Configuration.parent_of_mem_pathsIn inside]
      exact (located_ok isAt).1
  | invalidate given =>
    cases given with
    | none => rfl
    | some given =>
      refine ((x.1.changesAt_invalidate x.2 given).2 path).trans ?_
      split
      · rfl
      · exact forgotten path member
  | write place entry => exact forgotten path member
  | remove place => exact forgotten path member

theorem remembered_run {steps : List Step}
    (reached : IsReached folders process explicit fs x) (forgotten : x.1.remembered root = [])
    (others : ∀ a ∈ steps, ¬ a.AsksFor (ofFolders folders process explicit) fs root) :
    (steps.foldl Resolver.step x).1.remembered root = [] := by
  induction steps generalizing x with
  | nil => exact forgotten
  | cons a steps ih =>
    refine ih (reached.step a) (remembered_step forgotten fun asks => ?_)
      fun later member => others later (List.mem_cons_of_mem _ member)
    refine others a (List.mem_cons_self ..) ?_
    cases a with
    | resolve q =>
      exact (folderFor_congr reached.shared reached.kept.current q).symm.trans asks
    | invalidate _ | write _ _ | remove _ => exact asks

/-- Whether, after some steps and then the invalidation of a folder, the first question about that
folder is answered as by a new resolver, whatever happens in between. -/
def IsRenewed (folders : List Path) (process explicit : Environment) (fs : Files)
    (before : List Step) (root : Path) : Prop :=
  ∀ between q,
    (∀ a ∈ between, ¬ a.AsksFor (ofFolders folders process explicit) fs root) →
    q.root = some root →
      outcomeAfter folders process explicit fs (before ++ .invalidate (some root) :: between) q =
        (ofFolders folders process explicit).outcome
          (runFrom folders process explicit fs
            (before ++ .invalidate (some root) :: between)).2 q

theorem runFrom_invalidate (folders : List Path) (process explicit : Environment) (fs : Files)
    (before between : List Step) (root : Path) :
    runFrom folders process explicit fs (before ++ .invalidate (some root) :: between) =
      between.foldl step
        (Resolver.step (runFrom folders process explicit fs before) (.invalidate (some root))) := by
  rw [runFrom, List.foldl_append, List.foldl_cons, runFrom]

/-- A folder of which nothing is remembered is asked about as with a new resolver. -/
theorem outcome_of_reached (reached : IsReached folders process explicit fs x)
    (forgotten : x.1.remembered root = []) (asked : q.root = some root) :
    x.1.outcome x.2 q = (ofFolders folders process explicit).outcome x.2 q := by
  have asks : x.1.folderFor x.2 q = .ok root := by rw [folderFor, asked]
  rw [outcome_of_forgotten asks forgotten, reached.shared.answer_eq, outcome_ofFolders]

theorem isRenewed_of_forgotten {before : List Step}
    (forgotten : ((runFrom folders process explicit fs before).1.invalidate
      (runFrom folders process explicit fs before).2 (some root)).remembered root = []) :
    IsRenewed folders process explicit fs before root := by
  intro between q others asked
  have reached := (isReached_runFrom folders process explicit fs before).step
    (.invalidate (some root))
  rw [outcomeAfter, runFrom_invalidate]
  exact outcome_of_reached (reached.run between) (remembered_run reached forgotten others) asked

/-- Removes all configuration files of a folder and leaves one that cannot be read. -/
def spoiling (root path : Path) (time : Int) : List Step :=
  (Configuration.pathsIn root).map .remove ++ [.write path ⟨[0xff], time⟩]

theorem not_asksFor_of_mem_spoiling {time : Int} (a : Step) (member : a ∈ spoiling root path time) :
    ¬ a.AsksFor r fs root := by
  rcases List.mem_append.mp member with removes | writes
  · obtain ⟨place, _, rfl⟩ := List.mem_map.mp removes
    exact id
  · rw [List.mem_singleton.mp writes]
    exact id

theorem foldl_step_remove (x : Resolver × Files) (paths : List Path) :
    (paths.map Step.remove).foldl step x = (x.1, paths.foldl Files.remove x.2) := by
  induction paths generalizing x with
  | nil => rfl
  | cons path paths ih => exact ih (x.1, x.2.remove path)

theorem foldl_step_spoiling (x : Resolver × Files) (root path : Path) (time : Int) :
    (spoiling root path time).foldl step x =
      (x.1, ((Configuration.pathsIn root).foldl Files.remove x.2).write path ⟨[0xff], time⟩) := by
  rw [spoiling, List.foldl_append, foldl_step_remove]
  rfl


/-- The only configuration file of a folder after it was spoiled. -/
theorem find?_spoiled {parts : List String} (direct : ".." ∉ fs.current.parts) (time : Int)
    (member : path ∈ Configuration.pathsIn root) (located : fs.locate path = .ok parts) :
    let spoiled := ((Configuration.pathsIn root).foldl Files.remove fs).write path ⟨[0xff], time⟩
    Configuration.find? spoiled root = some path ∧
      spoiled.lookup? path = some ⟨[0xff], time⟩ := by
  intro spoiled
  obtain ⟨name, isName, rfl⟩ := List.mem_map.mp member
  obtain ⟨base, siblings⟩ := Files.locate_sibling located
  have removed := Files.keepsDirectories_removeAll fs (Configuration.pathsIn root)
  have kept : fs.KeepsDirectories spoiled := removed.trans (Files.keepsDirectories_write ..)
  have resolved (sibling : String) (known : sibling ∈ Configuration.fileNames) :
      (fs.resolve (root.join ⟨"", [sibling]⟩)).parts = base ++ [sibling] := by
    rw [(Files.resolve_of_locate direct
      (siblings sibling (Configuration.ne_parent_of_mem_fileNames known))).2]
  have resolve : ((Configuration.pathsIn root).foldl Files.remove fs).resolve = fs.resolve := by
    funext path
    rw [Files.resolve, Files.resolve, removed.current]
  have lookup (sibling : String) (known : sibling ∈ Configuration.fileNames) :
      spoiled.lookup? (root.join ⟨"", [sibling]⟩) =
        if sibling = name then some ⟨[0xff], time⟩ else none := by
    rw [Files.lookup?, kept.locate (siblings sibling
      (Configuration.ne_parent_of_mem_fileNames known))]
    dsimp only
    rw [Files.file?_write, resolve, resolved name isName, Files.file?_removeAll]
    by_cases own : sibling = name
    · simp [own]
    · have listed : base ++ [sibling] ∈ (Configuration.pathsIn root).map
          fun path => (fs.resolve path).parts :=
        List.mem_map.mpr ⟨_, List.mem_map.mpr ⟨sibling, known, rfl⟩, resolved sibling known⟩
      rw [if_pos listed]
      simp [own]
  refine ⟨?_, by rw [lookup name isName, if_pos rfl]⟩
  have first : Configuration.nameIn? spoiled root = some name := by
    have same : Configuration.nameIn? spoiled root =
        Configuration.fileNames.find? fun sibling => sibling == name :=
      List.find?_congr fun sibling known => by
        rw [Files.isFile, lookup sibling known]
        by_cases own : sibling = name <;> simp [own]
    cases found : Configuration.nameIn? spoiled root with
    | none => simpa using List.find?_eq_none.mp (same.symm.trans found) name isName
    | some other =>
      have isOwn := List.find?_some (same.symm.trans found)
      rw [beq_iff_eq.mp isOwn]
  rw [Configuration.find?_eq, first]
  rfl

/-- A file that cannot be decoded is answered with a failure by a new resolver, and not by one that
remembers it. -/
theorem outcome_ne_of_spoiled {loaded : LoadedConfiguration}
    (found : Configuration.find? fs root = some path)
    (spoiled : fs.lookup? path = some ⟨[0xff], loaded.modified⟩)
    (held : Assoc.get? r.loaded path = some loaded) :
    r.outcome fs { root := some root } ≠
      (ofFolders folders process explicit).outcome fs { root := some root } := by
  have isAt (any : Resolver) : any.located fs { root := some root } = .ok (root, path) := by
    unfold located folderFor
    dsimp only [bind, Except.bind]
    rw [found]
    rfl
  have fresh : (ofFolders folders process explicit).outcome fs { root := some root } =
      .error (Configuration.unreadable path) := by
    have unreadable : Configuration.load fs path = .error (Configuration.unreadable path) := by
      rw [Configuration.load, Files.read_of_lookup? spoiled]
      rfl
    rw [outcome_ofFolders, answer, isAt]
    dsimp only [bind, Except.bind]
    rw [reading, unreadable]
    rfl
  have known : r.load fs path = .ok (loaded, r) := by
    unfold load
    rw [held]
    dsimp only
    rw [if_pos (by simp [modified, spoiled])]
  rw [fresh, outcome, resolve_eq, isAt]
  dsimp only
  rw [known]
  dsimp only
  cases resolve : r.resolveIn fs path root loaded { root := some root } with
  | ok answered =>
    intro same
    cases same
  | error e =>
    intro same
    refine head?_of_endpointIn_error (endpointIn_of_resolveIn_error resolve) ?_
    rw [Except.error.inj same]
    simp [Configuration.unreadable, Configuration.invalid, String.toList_append]

/-- The first question about a folder behind its invalidation is answered as by a new resolver,
whatever was written, removed and asked before and whatever happens in between, just in case the
configuration file that is found in the folder when it is invalidated is the only one that is
remembered of it. No other case leaves nothing of the folder remembered. -/
theorem isRenewed_iff (folders : List Path) (process explicit : Environment) (fs : Files)
    (direct : ".." ∉ fs.current.parts) (before : List Step) (root : Path) :
    let now := runFrom folders process explicit fs before
    (IsRenewed folders process explicit fs before root ↔
      ∀ path ∈ now.1.remembered root, Configuration.find? now.2 root = some path) ∧
    ((now.1.invalidate now.2 (some root)).remembered root = [] ↔
      ∀ path ∈ now.1.remembered root, Configuration.find? now.2 root = some path) := by
  intro now
  have forgets := remembered_invalidate_eq_nil_iff now.1 now.2 root
  refine ⟨⟨fun renewed path kept => ?_, fun only => isRenewed_of_forgotten (forgets.mpr only)⟩,
    forgets⟩
  refine Decidable.byContradiction fun other => ?_
  obtain ⟨member, held⟩ := List.mem_filter.mp kept
  obtain ⟨loaded, held⟩ := Option.isSome_iff_exists.mp held
  have reached : IsReached folders process explicit fs now :=
    isReached_runFrom folders process explicit fs before
  obtain ⟨parts, located⟩ := reached.located path (by rw [held]; rfl)
  obtain ⟨found, spoiled⟩ := find?_spoiled (by rw [reached.kept.current]; exact direct)
    loaded.modified member located
  have survives : Assoc.get? (now.1.invalidate now.2 (some root)).loaded path = some loaded := by
    rw [(now.1.changesAt_invalidate now.2 root).2, if_neg other, held]
  have answered := renewed (spoiling root path loaded.modified) { root := some root }
    not_asksFor_of_mem_spoiling rfl
  rw [outcomeAfter, runFrom_invalidate, foldl_step_spoiling] at answered
  exact outcome_ne_of_spoiled found spoiled survives answered

/-- A configuration file is read and written anew, with another environment file, before its folder is
invalidated. -/
theorem isRenewed_iff_rewritten :
    let root : Path := ⟨"/", ["w"]⟩
    let file : Path := ⟨"/", ["w", ".graphqlconfig.yml"]⟩
    let fs : Files := ⟨root, [(file.parts, ⟨Text.encodeUtf8 "schemaPath: a", 1000⟩)], []⟩
    let before : List Step := [.resolve { root := some root },
      .write file ⟨Text.encodeUtf8 "schemaPath: b", 1000⟩,
      .write ⟨"/", ["w", ".env"]⟩ ⟨Text.encodeUtf8 "A=b", 2000⟩]
    ".." ∉ fs.current.parts ∧
      (runFrom [root] [] [] fs before).1.remembered root = [file] ∧
      IsRenewed [root] [] [] fs before root := by
  intro root file fs before
  have direct : ".." ∉ fs.current.parts := by decide
  have kept : (runFrom [root] [] [] fs before).1.remembered root = [file] := by decide +kernel
  have found : Configuration.find? (runFrom [root] [] [] fs before).2 root = some file := by
    decide
  refine ⟨direct, kept, (isRenewed_iff [root] [] [] fs direct before root).1.mpr fun path held => ?_⟩
  rw [kept, List.mem_singleton] at held
  rw [held, found]

/-- A configuration file is read and another one, which is found ahead of it, is written. What was
read of the first one survives the invalidation, and is wrong when the second one is gone again and
the environment has changed. -/
theorem not_isRenewed_hidden :
    let root : Path := ⟨"/", ["w"]⟩
    let ahead : Path := ⟨"/", ["w", ".graphqlconfig"]⟩
    let env : Path := ⟨"/", ["w", ".env"]⟩
    let text := "extensions: \x7bendpoints: \x7bd: \"http://$\x7benv:A\x7d\"\x7d\x7d"
    let fs : Files := ⟨root, [(env.parts, ⟨Text.encodeUtf8 "A=a", 1000⟩),
      (["w", ".graphqlconfig.yml"], ⟨Text.encodeUtf8 text, 1000⟩)], []⟩
    let q : Query := { root := some root }
    let before : List Step := [.resolve q, .write ahead ⟨Text.encodeUtf8 "extensions:", 1000⟩,
      .write env ⟨Text.encodeUtf8 "A=b", 2000⟩]
    let steps := before ++ [.invalidate (some root), .remove ahead]
    (outcomeAfter [root] [] [] fs steps q).toOption.map (·.url) = some "http://a" ∧
      ((ofFolders [root] [] []).outcome (runFrom [root] [] [] fs steps).2 q).toOption.map (·.url) =
        some "http://b" ∧
      ¬ IsRenewed [root] [] [] fs before root := by
  intro root ahead env text fs q before steps
  have stale : (outcomeAfter [root] [] [] fs steps q).toOption.map (·.url) = some "http://a" := by
    decide +kernel
  have fresh : ((ofFolders [root] [] []).outcome
      (runFrom [root] [] [] fs steps).2 q).toOption.map (·.url) = some "http://b" := by
    decide +kernel
  refine ⟨stale, fresh, fun renewed => ?_⟩
  have same := renewed [.remove ahead] q (by simp [Step.AsksFor]) rfl
  rw [← same, stale] at fresh
  exact absurd fresh (by decide)

end Resolver
end InlineQuery
