import InlineQuery.CommandLine.Screen
import InlineQuery.Config.Resolver

/-!
The command that shows the endpoint of a configuration.
-/

namespace InlineQuery.CommandLine

structure CheckOptions where
  folders : List Path
  file : Option Path
  project : Option String
  endpoint : Option String
  deriving Repr, Inhabited

/-- The configuration of the folders, and the endpoint that is asked for. -/
def checkedEndpoint (o : CheckOptions) (fs : Files) (process : Environment) :
    Except Failure (Path × Endpoint) := do
  let path ← Configuration.require fs o.folders
  let resolver := Resolver.ofFolders o.folders process process
  let (resolved, _) := resolver.resolve fs
    { root := some path.parent, project := o.project, endpoint := o.endpoint, file := o.file }
  return (path, (← resolved).endpoint)

/-- The address of subscriptions, with a note if it is not their own. -/
def subscriptionText (e : Endpoint) : Except Failure String :=
  match e.subscriptionUrl with
  | some url => if url = "" then noted else .ok url
  | none => noted
where
  noted := e.socketUrl.map (· ++ " (derived)")

/-- A header. Its value may be a secret. -/
def headerRow (header : String × String) : List String :=
  ["Header " ++ header.1, if header.2 = "" then "(empty)" else "***"]

def endpointTable (e : Endpoint) : Except Failure (List ScreenLine) := do
  Screen.table ("Endpoint '" ++ e.name ++ "'") ["Setting", "Value"]
    ([["HTTP URL", e.url], ["Subscription URL", ← subscriptionText e]] ++ e.headers.map headerRow)

/-- Shows the endpoint, or why there is none. -/
def check (o : CheckOptions) (fs : Files) (process : Environment) : Except Failure Outcome :=
  match checkedEndpoint o fs process with
  | .error e =>
    if e.kind.isConfiguration then do
      let lines ← Screen.print ("[red]Error: " ++ Text.Markup.escape e.message ++ "[/red]")
      return ⟨1, lines⟩
    else .error e
  | .ok (path, endpoint) => do
    let line ← Screen.print ("[bold]Config:[/bold] " ++ path.toString)
    return ⟨0, line ++ (← endpointTable endpoint)⟩

end InlineQuery.CommandLine
