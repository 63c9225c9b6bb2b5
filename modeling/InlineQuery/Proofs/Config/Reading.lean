import InlineQuery.Config.Environment
import InlineQuery.Config.File
import InlineQuery.Proofs.Data.Assoc
import InlineQuery.Proofs.Data.Except

namespace InlineQuery

/-- Whether a parameter of an entry holds itself. -/
def EndpointEntry.IsEndless (entry : EndpointEntry) : Prop :=
  ∃ target, entry.subscription = some target ∧
    ∃ param ∈ target.connectionParams, param.2.isEndless = true

/-- Whether no parameter of an endpoint of a project holds itself. -/
def Project.IsFinite (p : Project) : Prop := ∀ e ∈ p.endpoints, ¬ e.2.IsEndless

/-- Whether no parameter of an endpoint of a configuration or of its projects holds itself. -/
def Configuration.IsFinite (config : Configuration) : Prop :=
  config.toProject.IsFinite ∧ ∀ p ∈ config.projects, p.2.IsFinite

theorem Datum.isEndless_of_mem {entries : List (Datum × Datum)}
    (finite : (Datum.map entries).isEndless = false) : ∀ e ∈ entries, e.2.isEndless = false := by
  rw [isEndless] at finite
  induction entries with
  | nil => exact nofun
  | cons e entries ih =>
    rw [entriesAreEndless, Bool.or_eq_false_iff] at finite
    exact List.forall_mem_cons.mpr ⟨finite.1, ih finite.2⟩

namespace Checked

variable {α β : Type} {x : Checked α} {y : Checked β} {a : α} {b : β}

theorem both_ok (checked : x.both y = .ok (a, b)) : x = .ok a ∧ y = .ok b := by
  cases x <;> cases y <;> cases checked
  exact ⟨rfl, rfl⟩

theorem under_ok {key : String} (checked : x.under key = .ok a) : x = .ok a :=
  mapError_eq_ok_iff.mp checked

theorem all_ok {xs : List (Checked α)} {as : List α} (checked : all xs = .ok as) :
    ∀ a ∈ as, Except.ok a ∈ xs := by
  induction xs generalizing as with
  | nil =>
    cases checked
    exact nofun
  | cons x xs ih =>
    obtain ⟨⟨b, bs⟩, parts, rfl⟩ := map_eq_ok checked
    obtain ⟨first, rest⟩ := both_ok parts
    exact List.forall_mem_cons.mpr ⟨first ▸ List.mem_cons_self ..,
      fun a member => List.mem_cons_of_mem _ (ih rest a member)⟩

end Checked

namespace Validation

/-- A field has its default value, or one that the document gives it. -/
theorem field_ok {α : Type} {names : List String} {default : Checked α}
    {value : Datum → Checked α} {entries : List (Datum × Datum)} {a : α}
    (checked : field names default value entries = .ok a) :
    default = .ok a ∨ ∃ e ∈ entries, value e.2 = .ok a := by
  unfold field at checked
  split at checked
  · rename_i name _
    have given := Checked.under_ok checked
    cases held : Assoc.get? entries (.text name) with
    | none => exact .inl (by simpa [held] using given)
    | some d =>
      obtain ⟨e, member, rfl⟩ := Assoc.exists_mem_of_get? held
      exact .inr ⟨e, member, by simpa [held] using given⟩
  · exact .inl checked

theorem nodup_mapping {α : Type} {value : Datum → Checked α} {d : Datum}
    {entries : List (String × α)} (checked : mapping value d = .ok entries) :
    (entries.map (·.1)).Nodup := by
  unfold mapping at checked
  split at checked
  · dsimp only at checked
    generalize Checked.all _ = all at checked
    cases all with
    | error problems => cases checked
    | ok pairs =>
      cases checked
      exact Assoc.nodup_keys_ofList pairs
  · cases checked

/-- Whether what is checked of finite data is as it should be. -/
def Keeps {α : Type} (value : Datum → Checked α) (good : α → Prop) : Prop :=
  ∀ d a, value d = .ok a → d.isEndless = false → good a

section Keeps

variable {α : Type} {value : Datum → Checked α} {good : α → Prop}

theorem Keeps.field {names : List String} {default : Checked α} {entries : List (Datum × Datum)}
    {a : α} (keeps : Keeps value good) (finite : ∀ e ∈ entries, e.2.isEndless = false)
    (bare : ∀ a, default = .ok a → good a) (checked : field names default value entries = .ok a) :
    good a := by
  rcases field_ok checked with none_ | ⟨e, member, given⟩
  · exact bare a none_
  · exact keeps e.2 a given (finite e member)

theorem Keeps.mapping (keeps : Keeps value good) :
    Keeps (mapping value) fun entries => ∀ e ∈ entries, good e.2 := by
  intro d entries checked finite e member
  unfold Validation.mapping at checked
  split at checked
  · obtain ⟨pairs, each, rfl⟩ := map_eq_ok checked
    obtain ⟨source, isSource, same⟩ :=
      List.mem_map.mp (Checked.all_ok each e (Assoc.mem_of_mem_ofList member))
    exact keeps _ _ (Checked.both_ok (Checked.under_ok same)).2
      (Datum.isEndless_of_mem finite source isSource)
  · cases checked

theorem isEndless_withUrl {d : Datum} (finite : d.isEndless = false) :
    (withUrl d).isEndless = false := by
  unfold withUrl
  split
  · rfl
  · exact finite

theorem isEndless_of_record {d : Datum} {entries : List (Datum × Datum)}
    (checked : record d = .ok entries) (finite : d.isEndless = false) :
    ∀ e ∈ entries, e.2.isEndless = false := by
  unfold record at checked
  split at checked
  · cases checked
    exact Datum.isEndless_of_mem finite
  · cases checked

theorem keeps_subscription :
    Keeps subscription fun target => ∀ p ∈ target.connectionParams, p.2.isEndless = false := by
  intro d target checked finite
  obtain ⟨entries, given, rest⟩ := bind_eq_ok checked
  obtain ⟨⟨url, params⟩, parts, same⟩ := bind_eq_ok rest
  cases same
  have keeps : Keeps anyValue fun d => d.isEndless = false := fun d a same finite => by
    cases same
    exact finite
  refine keeps.mapping.field (isEndless_of_record given (isEndless_withUrl finite)) (fun a bare => ?_)
    (Checked.both_ok parts).2
  cases bare
  exact nofun

theorem keeps_endpoint : Keeps endpoint fun entry => ¬ entry.IsEndless := by
  intro d entry checked finite
  obtain ⟨entries, given, rest⟩ := bind_eq_ok checked
  obtain ⟨⟨url, headers, subscription⟩, parts, same⟩ := bind_eq_ok rest
  cases same
  have keeps : Keeps optionalSubscription fun s => ∀ target, s = some target →
      ∀ p ∈ target.connectionParams, p.2.isEndless = false := by
    intro d s checked finite target isTarget
    unfold optionalSubscription at checked
    split at checked
    · cases checked
      cases isTarget
    · obtain ⟨found, valid, rfl⟩ := map_eq_ok checked
      cases isTarget
      exact keeps_subscription d target valid finite
  have each := keeps.field (isEndless_of_record given (isEndless_withUrl finite)) (fun a bare => by cases bare; nofun)
    (Checked.both_ok (Checked.both_ok parts).2).2
  rintro ⟨target, isTarget, p, member, endless⟩
  rw [each target isTarget p member] at endless
  cases endless

theorem keeps_extensions : Keeps extensions fun endpoints => ∀ e ∈ endpoints, ¬ e.2.IsEndless := by
  intro d endpoints checked finite
  obtain ⟨entries, given, rest⟩ := bind_eq_ok checked
  obtain ⟨⟨found, _⟩, parts, same⟩ := bind_eq_ok rest
  cases same
  refine keeps_endpoint.mapping.field (isEndless_of_record given finite) (fun a bare => ?_)
    (Checked.both_ok parts).1
  cases bare
  exact nofun

theorem isFinite_projectFields {entries : List (Datum × Datum)} {p : Project}
    (finite : ∀ e ∈ entries, e.2.isEndless = false) (checked : projectFields entries = .ok p) :
    p.IsFinite := by
  obtain ⟨⟨schemaPath, includes, excludes, endpoints, _⟩, parts, same⟩ := bind_eq_ok checked
  cases same
  obtain ⟨_, parts⟩ := Checked.both_ok parts
  obtain ⟨_, parts⟩ := Checked.both_ok parts
  obtain ⟨_, parts⟩ := Checked.both_ok parts
  refine keeps_extensions.field finite (fun a bare => ?_) (Checked.both_ok parts).1
  cases bare
  exact nofun

theorem keeps_project : Keeps project Project.IsFinite := by
  intro d p checked finite
  obtain ⟨entries, given, rest⟩ := bind_eq_ok checked
  exact isFinite_projectFields (isEndless_of_record given finite) rest

/-- The configuration of finite data is finite. -/
theorem keeps_configuration : Keeps configuration Configuration.IsFinite := by
  intro d config checked finite
  obtain ⟨entries, given, rest⟩ := bind_eq_ok checked
  obtain ⟨⟨base, projects⟩, parts, same⟩ := bind_eq_ok rest
  cases same
  have isFinite := isEndless_of_record given finite
  obtain ⟨own, others⟩ := Checked.both_ok parts
  refine ⟨isFinite_projectFields isFinite own, keeps_project.mapping.field isFinite
    (fun a bare => ?_) others⟩
  cases bare
  exact nofun

end Keeps

/-- The projects of a configuration have different names. -/
theorem nodup_projects {d : Datum} {config : Configuration}
    (checked : configuration d = .ok config) : (config.projects.map (·.1)).Nodup := by
  unfold configuration at checked
  cases entries : record d with
  | error problems => rw [entries] at checked; cases checked
  | ok entries' =>
    rw [entries] at checked
    dsimp only [bind, Except.bind] at checked
    split at checked
    · cases checked
    · rename_i parts both
      cases checked
      rcases field_ok (Checked.both_ok both).2 with none | ⟨mapped, _, projects⟩
      · rw [← Except.ok.inj none]
        exact .nil
      · exact nodup_mapping projects

end Validation

theorem Files.mem_of_lookup? {fs : Files} {path : Path} {entry : FileEntry}
    (found : fs.lookup? path = some entry) : ∃ parts, (parts, entry) ∈ fs.files := by
  unfold lookup? at found
  split at found
  · rename_i parts _
    obtain ⟨⟨place, held⟩, first, rfl⟩ := Option.map_eq_some_iff.mp found
    exact ⟨place, List.mem_of_find?_eq_some first⟩
  · cases found

theorem Files.read_of_lookup? {fs : Files} {path : Path} {entry : FileEntry}
    (found : fs.lookup? path = some entry) : fs.read path = .ok entry := by
  unfold lookup? at found
  cases located : fs.locate path with
  | error e => rw [located] at found; cases found
  | ok parts =>
    simp only [located] at found
    simp only [read, located, bind, Except.bind, found]
    rfl

namespace Configuration

variable {fs other : Files} {path path' : Path} {config : Configuration}

/-- The place of a configuration file in a folder. -/
def IsPath (path : Path) : Prop :=
  ∃ folder : Path, ∃ name ∈ fileNames, path = folder.join ⟨"", [name]⟩

theorem find?_some {folder : Path} (found : find? fs folder = some path) :
    IsPath path ∧ ∃ entry, fs.lookup? path = some entry := by
  have isFile := List.find?_some found
  obtain ⟨name, known, rfl⟩ := List.mem_map.mp (List.mem_of_find?_eq_some found)
  exact ⟨⟨folder, name, known, rfl⟩, Option.isSome_iff_exists.mp isFile⟩

/-- What is read depends on nothing but the name of the file and its contents. -/
theorem load_congr {entry entry' : FileEntry} (here : fs.lookup? path = some entry)
    (there : other.lookup? path' = some entry') (name : path.name = path'.name)
    (same : entry.bytes = entry'.bytes) : load fs path = load other path' := by
  have readable {fs : Files} {path : Path} {entry : FileEntry}
      (found : fs.lookup? path = some entry) :
      (fs.read path).mapError (fun _ => unreadable path) = .ok entry :=
    mapError_eq_ok_iff.mpr (Files.read_of_lookup? found)
  rw [load, load, readable here, readable there]
  simp only [bind, Except.bind, same, unreadable, ofDatum, name]

theorem nodup_projects_of_load (read : load fs path = .ok config) :
    (config.projects.map (·.1)).Nodup := by
  have checked {d : Datum} (valid : ofDatum path d = .ok config) :
      (config.projects.map (·.1)).Nodup := by
    unfold ofDatum at valid
    dsimp only at valid
    split at valid
    · exact Validation.nodup_projects (mapError_eq_ok_iff.mp valid)
    · cases valid
  unfold load at read
  simp only [bind, Except.bind] at read
  split at read
  · cases read
  · split at read
    · cases read
    · split at read
      · cases read
      · exact checked read

end Configuration

namespace Environment

/-- What the file of a folder binds depends on nothing but its contents. -/
theorem ofFolder_congr {fs other : Files} {folder folder' : Path} (process : Environment)
    (same : (fs.lookup? (fileIn folder)).map (·.bytes) =
      (other.lookup? (fileIn folder')).map (·.bytes)) :
    ofFolder fs process folder = ofFolder other process folder' := by
  unfold ofFolder
  cases here : fs.lookup? (fileIn folder) <;> cases there : other.lookup? (fileIn folder') <;>
    simp [here, there] at same ⊢
  rw [same]

/-- What the files of some folders bind depends on nothing but their contents. The folders may be
called otherwise. -/
theorem merged_map {fs other : Files} {folders : List Path} (process explicit : Environment)
    {place : Path → Path} (same : ∀ folder ∈ folders, (fs.lookup? (fileIn folder)).map (·.bytes) =
      (other.lookup? (fileIn (place folder))).map (·.bytes)) :
    merged fs process folders explicit = merged other process (folders.map place) explicit := by
  have each : folders.mapM (ofFolder fs process) =
      (folders.map place).mapM (ofFolder other process) := by
    induction folders with
    | nil => rfl
    | cons folder folders ih =>
      rw [List.map_cons, List.mapM_cons, List.mapM_cons,
        ofFolder_congr process (same folder (List.mem_cons_self ..)),
        ih fun folder member => same folder (List.mem_cons_of_mem _ member)]
  rw [merged, merged, each]

theorem merged_congr {fs other : Files} {folders : List Path} (process explicit : Environment)
    (same : ∀ folder ∈ folders, (fs.lookup? (fileIn folder)).map (·.bytes) =
      (other.lookup? (fileIn folder)).map (·.bytes)) :
    merged fs process folders explicit = merged other process folders explicit := by
  have mapped : merged fs process folders explicit =
      merged other process (folders.map id) explicit := merged_map process explicit same
  rwa [List.map_id] at mapped

end Environment

end InlineQuery
