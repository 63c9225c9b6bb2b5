import InlineQuery.Proofs.Operation.Index
import InlineQuery.Proofs.Resolver.Memory
import InlineQuery.Proofs.Yaml.Faults
import InlineQuery.Proofs.Yaml.Scalars
import InlineQuery.Proofs.Yaml.Streams

/-!
Configuration files that are no configuration. Whatever a file holds, reading it is refused as a
matter of the configuration, unless the text names a value that does not exist. The failure of that
value is then passed on as it is.
-/

namespace InlineQuery

namespace Yaml

/-- Whether whatever a text names exists: the characters and the version that it writes, and the values
of its document. -/
def NamesValues (text : List Char) : Prop :=
  ¬ NamesBeyond text ∧ ∀ root failure, compose text = .ok (some root) → ¬ root.NamesNothing failure

/-- Whether no collection of the document of a text lies within itself. -/
def IsFinite (text : List Char) : Prop := ∀ root, compose text = .ok (some root) → root.IsFinite

section Reading

variable {text : List Char} {root : Node} {failure : Failure} {d : Datum}

theorem read_of_compose (composed : compose text = .ok (some root)) :
    read text = (build 0 root).mapError (·.fault) := by
  rw [read, composed]
  rfl

theorem namesNothing_of_read (composed : compose text = .ok (some root))
    (failed : read text = .error (.value failure)) : root.NamesNothing failure := by
  rw [read_of_compose composed] at failed
  cases built : build 0 root with
  | ok d =>
    rw [built] at failed
    cases failed
  | error e =>
    rw [built] at failed
    obtain ⟨place, fault⟩ := e
    cases failed
    exact (meets_build 0 root).misnamed place failure built

/-- A text fails for a value that does not exist if it writes such a character or version, or a part of
the document names such a value. -/
theorem read_value (failed : read text = .error (.value failure)) :
    failure.kind.isConfiguration = false ∧
      (NamesBeyond text ∨ ∃ root, compose text = .ok (some root) ∧ root.NamesNothing failure) := by
  cases composed : compose text with
  | error fault =>
    rw [read, composed] at failed
    cases failed
    obtain ⟨beyond, kind⟩ := compose_value composed
    exact ⟨kind, .inl beyond⟩
  | ok found =>
    cases found with
    | none =>
      rw [read, composed] at failed
      cases failed
    | some root =>
      obtain ⟨part, isPart, misnames⟩ := namesNothing_of_read composed failed
      exact ⟨misnames.isConfiguration, .inr ⟨root, rfl, part, isPart, misnames⟩⟩

/-- An ordinary document that names a value that does not exist is wrong in no other way. -/
theorem exists_value_of_isOrdinary (composed : compose text = .ok (some root))
    (ordinary : root.IsOrdinary) (names : root.NamesNothing failure) :
    ∃ other, read text = .error (.value other) := by
  have meets := meets_build 0 root
  rw [read_of_compose composed]
  cases built : build 0 root with
  | ok d => exact absurd names ((meets.made d built).named ordinary failure)
  | error e =>
    obtain ⟨place, fault⟩ := e
    cases fault with
    | malformed => exact absurd ordinary (meets.malformed place built)
    | value other => exact ⟨other, rfl⟩

theorem isEndless_of_read (finite : IsFinite text) (made : read text = .ok d) :
    d.isEndless = false := by
  cases composed : compose text with
  | error fault =>
    rw [read, composed] at made
    cases made
  | ok found =>
    cases found with
    | none =>
      rw [read, composed] at made
      cases made
      rfl
    | some root =>
      rw [read_of_compose composed] at made
      exact ((meets_build 0 root).made d (mapError_eq_ok_iff.mp made)).finite (finite root composed)

end Reading

end Yaml

theorem Files.lookup?_of_read {fs : Files} {path : Path} {entry : FileEntry}
    (found : fs.read path = .ok entry) : fs.lookup? path = some entry := by
  unfold read at found
  unfold lookup?
  cases located : fs.locate path with
  | error e => rw [located] at found; cases found
  | ok parts =>
    rw [located] at found
    dsimp only [bind, Except.bind] at found ⊢
    cases held : fs.file? parts with
    | some entry => rw [held] at found; cases found; rfl
    | none =>
      rw [held] at found
      dsimp only at found
      split at found <;> cases found

namespace Configuration

variable {fs : Files} {path : Path}

/-- Whether a file at a path holds a text. -/
def HoldsText (fs : Files) (path : Path) (text : List Char) : Prop :=
  ∃ entry, fs.lookup? path = some entry ∧ Text.decodeUtf8 entry.bytes = .ok text

/-- Whether reading a configuration file gives a configuration or says that there is none. -/
def Settles (fs : Files) (path : Path) : Prop :=
  ∀ e, load fs path = .error e → e.kind = .configurationInvalid

theorem kind_of_ofDatum_error {d : Datum} {e : Failure} (failed : ofDatum path d = .error e) :
    e.kind = .configurationInvalid := by
  unfold ofDatum at failed
  dsimp only at failed
  split at failed
  · cases checked : Validation.configuration (if d.isNull = true then Datum.map [] else d) with
    | ok config => rw [checked] at failed; cases failed
    | error problems => rw [checked] at failed; cases failed; rfl
  · cases failed
    rfl

theorem load_eq_ofDatum {text : List Char} (holds : HoldsText fs path text) :
    load fs path = ((Yaml.read (Text.unifyLineEnds text)).mapError fun
      | .malformed => unreadable path
      | .value failure => failure).bind (ofDatum path) := by
  obtain ⟨entry, found, decoded⟩ := holds
  have read : fs.read path = .ok entry := Files.read_of_lookup? found
  unfold load
  rw [read]
  change ((Text.decodeUtf8 entry.bytes).mapError _).bind _ = _
  exact decoded ▸ rfl

theorem load_of_not_holdsText (none_ : ∀ text, ¬ HoldsText fs path text) :
    load fs path = .error (unreadable path) := by
  unfold load
  cases read : fs.read path with
  | error e => rfl
  | ok entry =>
    dsimp only [bind, Except.bind, Except.mapError]
    cases decoded : Text.decodeUtf8 entry.bytes with
    | error e => rfl
    | ok text => exact absurd ⟨entry, Files.lookup?_of_read read, decoded⟩ (none_ text)

/-- Reading a text fails for a value that does not exist, or for what the file is otherwise. -/
theorem load_error_of_holdsText {text : List Char} {e : Failure} (holds : HoldsText fs path text)
    (failed : load fs path = .error e) :
    e.kind = .configurationInvalid ∨ Yaml.read (Text.unifyLineEnds text) = .error (.value e) := by
  rw [load_eq_ofDatum holds] at failed
  cases read : Yaml.read (Text.unifyLineEnds text) with
  | ok d =>
    rw [read] at failed
    exact .inl (kind_of_ofDatum_error failed)
  | error fault =>
    rw [read] at failed
    cases fault with
    | malformed =>
      cases failed
      exact .inl rfl
    | value failure =>
      cases failed
      exact .inr rfl

theorem load_error_cases {e : Failure} (failed : load fs path = .error e) :
    e.kind = .configurationInvalid ∨
      ∃ text, HoldsText fs path text ∧ Yaml.read (Text.unifyLineEnds text) = .error (.value e) := by
  by_cases holds : ∃ text, HoldsText fs path text
  · obtain ⟨text, holds⟩ := holds
    exact (load_error_of_holdsText holds failed).imp_right fun value => ⟨text, holds, value⟩
  · rw [load_of_not_holdsText fun text held => holds ⟨text, held⟩] at failed
    cases failed
    exact .inl rfl

theorem kind_of_load_error {e : Failure} (failed : load fs path = .error e) :
    e.kind = .configurationInvalid ∨ e.kind.isConfiguration = false :=
  (load_error_cases failed).imp_right fun ⟨_, _, value⟩ => (Yaml.read_value value).1

/-- Reading a file settles if whatever its text names exists. -/
theorem settles_of_namesValues
    (exist : ∀ text, HoldsText fs path text → Yaml.NamesValues (Text.unifyLineEnds text)) :
    Settles fs path := by
  intro e failed
  refine (load_error_cases failed).resolve_right fun ⟨text, holds, value⟩ => ?_
  obtain ⟨notBeyond, named⟩ := exist text holds
  rcases (Yaml.read_value value).2 with beyond | ⟨root, composed, names⟩
  · exact notBeyond beyond
  · exact named root e composed names

/-- Reading a file with an ordinary document settles just in case no part of it names a value that
does not exist. -/
theorem settles_iff_of_isOrdinary {text : List Char} {root : Yaml.Node}
    (holds : HoldsText fs path text)
    (composed : Yaml.compose (Text.unifyLineEnds text) = .ok (some root))
    (ordinary : root.IsOrdinary) : Settles fs path ↔ ∀ failure, ¬ root.NamesNothing failure := by
  constructor
  · intro settles failure names
    obtain ⟨other, failed⟩ := Yaml.exists_value_of_isOrdinary composed ordinary names
    have passed : load fs path = .error other := by
      rw [load_eq_ofDatum holds, failed]
      rfl
    have apart := (Yaml.read_value failed).1
    rw [settles other passed] at apart
    cases apart
  · intro exist e failed
    exact (load_error_of_holdsText holds failed).resolve_right fun value =>
      exist e (Yaml.namesNothing_of_read composed value)

/-- A configuration is finite if the document of its file is. -/
theorem isFinite_of_load {config : Configuration}
    (finite : ∀ text, HoldsText fs path text → Yaml.IsFinite (Text.unifyLineEnds text))
    (loaded : load fs path = .ok config) : config.IsFinite := by
  by_cases holds : ∃ text, HoldsText fs path text
  · obtain ⟨text, holds⟩ := holds
    rw [load_eq_ofDatum holds] at loaded
    obtain ⟨d, read, valid⟩ := bind_eq_ok loaded
    have isFinite := Yaml.isEndless_of_read (finite text holds) (mapError_eq_ok_iff.mp read)
    unfold ofDatum at valid
    dsimp only at valid
    split at valid
    · refine Validation.keeps_configuration _ _ (mapError_eq_ok_iff.mp valid) ?_
      split
      · rfl
      · exact isFinite
    · cases valid
  · rw [load_of_not_holdsText fun text held => holds ⟨text, held⟩] at loaded
    cases loaded

end Configuration

namespace Environment

/-- Whether the environment file of a folder, if there is one, is text. -/
def IsText (fs : Files) (folder : Path) : Prop :=
  ∀ entry, fs.lookup? (fileIn folder) = some entry → ∃ text, Text.decodeUtf8 entry.bytes = .ok text

theorem ofFolder_error {fs : Files} {process : Environment} {folder : Path} {e : Failure}
    (failed : ofFolder fs process folder = .error e) :
    e.kind = .decoding ∧ ¬ IsText fs folder := by
  unfold ofFolder at failed
  split at failed
  · cases failed
  · rename_i entry found
    unfold EnvFile.ofBytes at failed
    cases decoded : Text.decodeUtf8 entry.bytes with
    | ok text => rw [decoded] at failed; cases failed
    | error flaw =>
      rw [decoded] at failed
      cases failed
      refine ⟨rfl, fun isText => ?_⟩
      obtain ⟨text, same⟩ := isText entry found
      rw [decoded] at same
      cases same

theorem isText_of_ofFolder {fs : Files} {process : Environment} {folder : Path}
    {bound : Environment} (read : ofFolder fs process folder = .ok bound) : IsText fs folder := by
  intro entry found
  unfold ofFolder EnvFile.ofBytes at read
  rw [found] at read
  dsimp only at read
  cases decoded : Text.decodeUtf8 entry.bytes with
  | ok text => exact ⟨text, rfl⟩
  | error flaw => rw [decoded] at read; cases read

/-- The environment can be read just in case the files of all folders are text. -/
theorem merged_cases (fs : Files) (process : Environment) (folders : List Path)
    (explicit : Environment) :
    (∃ env, merged fs process folders explicit = .ok env ∧ ∀ folder ∈ folders, IsText fs folder) ∨
      ∃ e, merged fs process folders explicit = .error e ∧ e.kind = .decoding ∧
        ∃ folder ∈ folders, ¬ IsText fs folder := by
  unfold merged
  cases read : folders.mapM (ofFolder fs process) with
  | ok files =>
    refine .inl ⟨_, rfl, fun folder member => ?_⟩
    obtain ⟨bound, each⟩ := exists_mapM_ok_iff.mp ⟨files, read⟩ folder member
    exact isText_of_ofFolder each
  | error e =>
    obtain ⟨folder, member, failed⟩ := exists_mem_of_mapM_error read
    obtain ⟨kind, noText⟩ := ofFolder_error failed
    exact .inr ⟨e, rfl, kind, folder, member, noText⟩

end Environment

namespace Resolver

variable {r next : Resolver} {fs : Files} {q : Query} {root path : Path}

theorem kind_of_resolveIn_error {loaded : LoadedConfiguration} {e : Failure}
    (finite : loaded.configuration.IsFinite)
    (failed : r.resolveIn fs path root loaded q = .error e) : e.kind = .configurationInvalid := by
  rcases endpointIn_error (endpointIn_of_resolveIn_error failed) with
    ⟨name, rfl⟩ | ⟨what, name, names, rfl⟩ | ⟨name, rfl⟩ | ⟨_, endless⟩
  · rfl
  · rfl
  · rfl
  · exact absurd finite endless

/-- Whether a question is answered with an endpoint or with a failure of the configuration. -/
def Settles (r : Resolver) (fs : Files) (q : Query) : Prop :=
  ∀ e, r.outcome fs q = .error e → e.kind.isConfiguration = true

/-- Whether a configuration file is remembered that was not modified since. -/
def Remembers (r : Resolver) (fs : Files) (path : Path) : Prop :=
  ∃ loaded, Assoc.get? r.loaded path = some loaded ∧ loaded.modified = modified fs path

/-- A question about a file that is not remembered fails as reading the file does. -/
theorem outcome_of_reading_error {e : Failure} (isAt : r.located fs q = .ok (root, path))
    (unknown : ¬ r.Remembers fs path) (failed : r.reading fs path = .error e) :
    r.outcome fs q = .error e := by
  rw [outcome, resolve_eq, isAt]
  dsimp only
  rw [load_stale fun loaded held same => unknown ⟨loaded, held, same⟩, failed]
  rfl

/-- Whether no parameter of the configuration of a file holds itself, and the file can be read, with the
environment, unless it is remembered. -/
structure Provides (r : Resolver) (fs : Files) (path : Path) : Prop where
  known : ∀ loaded, Assoc.get? r.loaded path = some loaded → loaded.modified = modified fs path →
    loaded.configuration.IsFinite
  read : ¬ r.Remembers fs path → Configuration.Settles fs path ∧
    ∀ config, Configuration.load fs path = .ok config →
      config.IsFinite ∧ ∀ folder ∈ r.folders, Environment.IsText fs folder

theorem load_of_provides (provides : r.Provides fs path) :
    (∃ loaded next, r.load fs path = .ok (loaded, next) ∧ loaded.configuration.IsFinite) ∨
      ∃ e, r.load fs path = .error e ∧ e.kind = .configurationInvalid := by
  by_cases known : r.Remembers fs path
  · obtain ⟨loaded, held, same⟩ := known
    exact .inl ⟨loaded, r, by simp [Resolver.load, held, same], provides.known loaded held same⟩
  obtain ⟨settles, reads⟩ := provides.read known
  rw [load_stale fun loaded held same => known ⟨loaded, held, same⟩]
  cases load : Configuration.load fs path with
  | error e =>
    have unread : r.reading fs path = .error e := by rw [reading, load]; rfl
    exact .inr ⟨e, by rw [unread]; rfl, settles e load⟩
  | ok config =>
    obtain ⟨finite, areText⟩ := reads config load
    rcases Environment.merged_cases fs r.process r.folders r.explicit with
      ⟨env, merged, _⟩ | ⟨_, _, _, folder, member, noText⟩
    · have read : r.reading fs path = .ok (config, env) := by rw [reading, load, merged]; rfl
      exact .inl ⟨_, _, by rw [read]; rfl, finite⟩
    · exact absurd (areText folder member) noText

/-- An endpoint is found, or is said not to be there, if what is asked for is provided. -/
theorem settles_of_provides
    (provides : ∀ root path, r.located fs q = .ok (root, path) → r.Provides fs path) :
    r.Settles fs q := by
  intro e failed
  rw [outcome, resolve_eq] at failed
  cases isAt : r.located fs q with
  | error other =>
    rw [isAt] at failed
    cases failed
    rw [located_error isAt]
    rfl
  | ok place =>
    obtain ⟨root, path⟩ := place
    rw [isAt] at failed
    dsimp only at failed
    rcases load_of_provides (provides root path isAt) with
      ⟨loaded, next, load, finite⟩ | ⟨other, load, kind⟩
    · rw [load] at failed
      dsimp only at failed
      cases resolve : next.resolveIn fs path root loaded q with
      | ok answered => rw [resolve] at failed; cases failed
      | error other =>
        rw [resolve] at failed
        cases failed
        rw [kind_of_resolveIn_error finite resolve]
        rfl
    · rw [load] at failed
      cases failed
      rw [kind]
      rfl

/-- If an endpoint is found or said not to be there, a file that is not remembered is read with its
environment. -/
theorem reads_of_settles (settles : r.Settles fs q) (isAt : r.located fs q = .ok (root, path)) :
    r.Remembers fs path ∨ Configuration.Settles fs path ∧
      ((∃ config, Configuration.load fs path = .ok config) →
        ∀ folder ∈ r.folders, Environment.IsText fs folder) := by
  by_cases known : r.Remembers fs path
  · exact .inl known
  refine .inr ⟨fun e failed => ?_, fun ⟨config, read⟩ => ?_⟩
  · have unread : r.reading fs path = .error e := by rw [reading, failed]; rfl
    have kind := settles e (outcome_of_reading_error isAt known unread)
    refine (Configuration.kind_of_load_error failed).resolve_right fun apart => ?_
    rw [kind] at apart
    cases apart
  · rcases Environment.merged_cases fs r.process r.folders r.explicit with
      ⟨_, _, areText⟩ | ⟨e, failed, isDecoding, _⟩
    · exact areText
    · have unread : r.reading fs path = .error e := by rw [reading, read, failed]; rfl
      have kind := settles e (outcome_of_reading_error isAt known unread)
      rw [isDecoding] at kind
      cases kind

end Resolver

/-- Reading a configuration file gives a configuration or says that there is none, if whatever its text
names exists. For an ordinary document this is so just in case each of its parts names a value that
exists. An endpoint is found or said not to be there, if the file is remembered, or reading it settles
and the environment files are text, unless a parameter holds itself. None does where no collection
of the document lies within itself. If an endpoint is found or said not to be there, the file is
remembered, or reading it settles and the environment files are text. -/
theorem settles_of_values_exist (fs : Files) (path : Path) (r : Resolver) (q : Resolver.Query) :
    ((∀ text, Configuration.HoldsText fs path text →
        Yaml.NamesValues (Text.unifyLineEnds text)) → Configuration.Settles fs path) ∧
    (∀ text root, Configuration.HoldsText fs path text →
      Yaml.compose (Text.unifyLineEnds text) = .ok (some root) → root.IsOrdinary →
      (Configuration.Settles fs path ↔ ∀ failure, ¬ root.NamesNothing failure)) ∧
    ((∀ root path, r.located fs q = .ok (root, path) → r.Provides fs path) → r.Settles fs q) ∧
    ((∀ text, Configuration.HoldsText fs path text → Yaml.IsFinite (Text.unifyLineEnds text)) →
      ∀ config, Configuration.load fs path = .ok config → config.IsFinite) ∧
    (r.Settles fs q → ∀ root path, r.located fs q = .ok (root, path) → r.Remembers fs path ∨
      Configuration.Settles fs path ∧ ((∃ config, Configuration.load fs path = .ok config) →
        ∀ folder ∈ r.folders, Environment.IsText fs folder)) :=
  ⟨Configuration.settles_of_namesValues,
    fun _ _ holds composed ordinary =>
      Configuration.settles_iff_of_isOrdinary holds composed ordinary,
    Resolver.settles_of_provides, fun finite _ loaded => Configuration.isFinite_of_load finite loaded,
    fun settles _ _ isAt => Resolver.reads_of_settles settles isAt⟩

/-- A month that does not exist is not said to be a fault of the configuration. -/
theorem not_settles_impossible :
    let path : Path := ⟨"/", ["w", ".graphqlconfig.yml"]⟩
    let fs : Files := ⟨⟨"/", ["w"]⟩, [(path.parts, ⟨Text.encodeUtf8 "a: 2020-13-45", 1000⟩)], []⟩
    Configuration.load fs path = .error (.value "month must be in 1..12") ∧
      ¬ Configuration.Settles fs path := by
  intro path fs
  have failed : (match Configuration.load fs path with
      | .error e => some e
      | .ok _ => none) = some (.value "month must be in 1..12") := by decide +kernel
  have load : Configuration.load fs path = .error (.value "month must be in 1..12") := by
    cases read : Configuration.load fs path with
    | error e => rw [read] at failed; rw [Option.some.inj failed]
    | ok config => rw [read] at failed; cases failed
  refine ⟨load, fun settles => ?_⟩
  cases settles _ load

end InlineQuery
