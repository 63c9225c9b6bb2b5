import InlineQuery.Config.Environment
import InlineQuery.Config.File
import InlineQuery.Endpoint

/-!
The endpoint for a file. A configuration is read again when its file was modified, and an endpoint
of a configuration that was read is built once.
-/

namespace InlineQuery

/-- An endpoint and the number of its construction. -/
structure Resolved where
  serial : Nat
  endpoint : Endpoint
  deriving Repr, Inhabited

/-- A configuration with the environment at the time it was read and the endpoints built from it,
by project and name. -/
structure LoadedConfiguration where
  modified : Int
  configuration : Configuration
  env : Environment
  endpoints : List ((Option String × String) × Resolved)
  deriving Repr, Inhabited

/-- The folders of a workspace and what was read of their configuration files. -/
structure Resolver where
  folders : List Path
  process : Environment
  explicit : Environment
  loaded : List (Path × LoadedConfiguration)
  built : Nat
  deriving Repr, Inhabited

namespace Resolver

/-- A resolver that has read nothing. References in environment files look at `process`; the values
of `explicit` count more than those files. -/
def ofFolders (folders : List Path) (process explicit : Environment) : Resolver :=
  ⟨folders, process, explicit, [], 0⟩

/-- The first of the folders that are deepest. -/
def deepest? (fs : Files) (folders : List Path) : Option Path :=
  folders.foldl (fun best f =>
    match best with
    | none => some f
    | some b =>
      if (fs.resolve b).parts.length < (fs.resolve f).parts.length then some f else some b) none

/-- The folder that a file belongs to: the deepest one that holds it, else the first one. -/
def rootFor (r : Resolver) (fs : Files) (file : Option Path) : Except Failure Path :=
  match r.folders, file with
  | [], none => .error Configuration.missing
  | [], some file => .ok (fs.resolve file).parent
  | first :: _, none => .ok first
  | first :: _, some file =>
    let holding := r.folders.filter fun f => (fs.resolve file).isRelativeTo (fs.resolve f)
    .ok ((deepest? fs holding).getD first)

/-- The path of a file as patterns see it: relative to the folder that holds it. -/
def patternPath (fs : Files) (file root : Path) : String :=
  match (fs.resolve file).relativeTo? (fs.resolve root) with
  | some path => path.toString
  | none => file.toString

/-- Names in a message. -/
def listed (names : List String) : String :=
  let sorted := names.mergeSort fun a b => !(b < a)
  "[" ++ ", ".intercalate (sorted.map Text.quoted) ++ "]"

def unknown (what name : String) (names : List String) : Failure :=
  Configuration.invalid
    ("Unknown " ++ what ++ " '" ++ name ++ "'. Available: " ++ listed names) []

/-- The project that is asked for, or the first one that covers the file, or none. -/
def selectProject (fs : Files) (config : Configuration) (project : Option String)
    (file : Option Path) (root : Path) : Except Failure (Option String × Project) :=
  match project, file with
  | some name, _ =>
    match Assoc.get? config.projects name with
    | some p => .ok (some name, p)
    | none => .error (unknown "project" name (config.projects.map (·.1)))
  | none, some file =>
    match config.projects.find? fun (_, p) => p.covers (patternPath fs file root) with
    | some (name, p) => .ok (some name, p)
    | none => .ok (none, config.toProject)
  | none, none => .ok (none, config.toProject)

def noEndpoints (path : Path) (project : Option String) : Failure :=
  let suffix := match project with
    | some name => if name = "" then "" else " for project '" ++ name ++ "'"
    | none => ""
  Configuration.invalid ("No endpoints configured in " ++ path.name ++ suffix) []

/-- The name of the endpoint to use: the one asked for, or the default one, or the first one. -/
def endpointName (endpoints : List (String × EndpointEntry)) (asked : Option String) : String :=
  match asked with
  | some name => name
  | none =>
    if Assoc.contains endpoints Endpoint.defaultName then Endpoint.defaultName
    else (endpoints.head?.map (·.1)).getD ""

/-- The project's entry for an endpoint, with the names of both. A project without endpoints has
those of the configuration. -/
def selectEntry (fs : Files) (config : Configuration) (path root : Path)
    (project endpoint : Option String) (file : Option Path) :
    Except Failure ((Option String × String) × EndpointEntry) := do
  let (projectName, p) ← selectProject fs config project file root
  let endpoints := if p.endpoints.isEmpty then config.endpoints else p.endpoints
  if endpoints.isEmpty then throw (noEndpoints path projectName)
  let name := endpointName endpoints endpoint
  match Assoc.get? endpoints name with
  | some entry => return ((projectName, name), entry)
  | none => throw (unknown "endpoint" name (endpoints.map (·.1)))

/-- Builds the endpoint of an entry. Its texts refer to the environment. Those inside of parameters
that hold themselves cannot all be reached. -/
def build (env : Environment) (path : Path) (key : Option String × String)
    (entry : EndpointEntry) : Except Failure Endpoint := do
  let expanded (s : String) : String := EnvTemplate.expand env s
  let url := Text.strip (expanded entry.url)
  if url = "" then
    throw (Configuration.invalid ("Endpoint '" ++ key.2 ++ "' has an empty URL") [])
  let subscriptionUrl := (entry.subscription.map fun s => Text.strip (expanded s.url)).filter (· ≠ "")
  let params := (entry.subscription.map (·.connectionParams)).getD []
  if params.any fun (_, v) => v.isEndless then throw .endless
  return {
    url, subscriptionUrl
    headers := entry.headers.map fun (k, v) => (k, expanded v)
    source := path.toString ++ "#" ++ key.1.getD "" ++ "/" ++ key.2
    name := key.2
    connectionParams := params.map fun (k, v) => (k, EnvTemplate.expandDatum env v) }

/-- When a file was modified. -/
def modified (fs : Files) (path : Path) : Int := ((fs.lookup? path).map (·.modified)).getD 0

/-- The configuration at a path: what was read of it, unless the file was modified since. -/
def load (r : Resolver) (fs : Files) (path : Path) :
    Except Failure (LoadedConfiguration × Resolver) :=
  let read : Except Failure (LoadedConfiguration × Resolver) := do
    let configuration ← Configuration.load fs path
    let env ← Environment.merged fs r.process r.folders r.explicit
    let loaded := ⟨modified fs path, configuration, env, []⟩
    return (loaded, { r with loaded := Assoc.put r.loaded path loaded })
  match Assoc.get? r.loaded path with
  | some loaded => if loaded.modified = modified fs path then .ok (loaded, r) else read
  | none => read

/-- Which endpoint is asked for. -/
structure Query where
  root : Option Path := none
  project : Option String := none
  endpoint : Option String := none
  file : Option Path := none
  deriving DecidableEq, Repr, Inhabited

/-- The endpoint of a configuration that was read. -/
def resolveIn (r : Resolver) (fs : Files) (path root : Path) (loaded : LoadedConfiguration)
    (q : Query) : Except Failure (Resolved × Resolver) := do
  let (key, entry) ←
    selectEntry fs loaded.configuration path root q.project q.endpoint q.file
  match Assoc.get? loaded.endpoints key with
  | some resolved => return (resolved, r)
  | none =>
    let resolved := ⟨r.built, ← build loaded.env path key entry⟩
    let loaded := { loaded with endpoints := Assoc.put loaded.endpoints key resolved }
    return (resolved, { r with
      loaded := Assoc.put r.loaded path loaded
      built := r.built + 1 })

/-- The endpoint that is asked for, or why there is none, and what was read by the way. -/
def resolve (r : Resolver) (fs : Files) (q : Query) : Except Failure Resolved × Resolver :=
  let located : Except Failure (Path × Path) := do
    let root ← match q.root with
      | some root => pure root
      | none => r.rootFor fs q.file
    match Configuration.find? fs root with
    | some path => return (root, path)
    | none => throw Configuration.missing
  match located with
  | .error e => (.error e, r)
  | .ok (root, path) =>
    match r.load fs path with
    | .error e => (.error e, r)
    | .ok (loaded, r) =>
      match r.resolveIn fs path root loaded q with
      | .error e => (.error e, r)
      | .ok (resolved, r) => (.ok resolved, r)

/-- Forgets what was read for a folder, or everything. -/
def invalidate (r : Resolver) (fs : Files) (root : Option Path) : Resolver :=
  match root with
  | none => { r with loaded := [] }
  | some root =>
    match Configuration.find? fs root with
    | some path => { r with loaded := Assoc.erase r.loaded path }
    | none => r

end Resolver
end InlineQuery
