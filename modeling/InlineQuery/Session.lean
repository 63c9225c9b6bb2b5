import InlineQuery.Config.Resolver
import InlineQuery.Lens
import InlineQuery.ResultView
import InlineQuery.Workspace

/-!
What an editor drives: open documents, their lenses, and the executions that were started from
them with the views of their results.
-/

namespace InlineQuery

/-- An execution with its view, the document that it was started from, and the endpoint that is
asked for. -/
structure ShownExecution where
  uri : String
  query : Resolver.Query
  handle : Handle
  view : ResultView
  deriving Inhabited

/-- Which operation is executed: the one at an offset, or else at the offset behind it, with values
for its variables and the endpoint that is asked for. -/
structure ExecuteRequest where
  uri : String
  start : Int
  stop : Option Int := none
  name : Option String := none
  values : List (String × Datum) := []
  project : Option String := none
  endpoint : Option String := none
  deriving Repr, Inhabited

/-- A session. `shown` holds all executions in the order of their start, and `open_` for each
document the numbers of those whose views are neither disposed nor finished. -/
structure Session where
  configuration : Option Path
  workspace : Workspace
  resolver : Resolver
  lenses : LensCache
  isDebugging : Bool
  messages : List String
  shown : List ShownExecution
  open_ : List (String × List Nat)
  deriving Inhabited

namespace Session

def debugCommand : String := "gqlens.isDebugging"

/-- Starts a session for folders. Unless the check is left out, one of them has to hold a
configuration. -/
def start (fs : Files) (process explicit : Environment) (folders : List Path)
    (isDebugging checksConfiguration : Bool) : Except Failure Session := do
  let configuration ←
    if checksConfiguration then some <$> Configuration.require fs folders else pure none
  let workspace := Workspace.ofFolders fs folders
  return {
    configuration, workspace, isDebugging
    resolver := .ofFolders workspace.folders process explicit
    lenses := .empty
    messages := []
    shown := []
    open_ := [] }

/-- Takes over a document that the workspace has opened or changed, and computes its lenses. It stays
open when they cannot be computed. -/
def adopt (s : Session) (x : Except Failure (SourceDocument × Workspace)) :
    Except Failure (SourceDocument × LensSet) × Session :=
  match x with
  | .error e => (.error e, s)
  | .ok (document, workspace) =>
    let s := { s with workspace }
    match s.lenses.changed document with
    | .error e => (.error e, s)
    | .ok (set, lenses) => (.ok (document, set), { s with lenses })

def openFile (s : Session) (fs : Files) (path : Path) :
    Except Failure (SourceDocument × LensSet) × Session :=
  s.adopt (s.workspace.openFile fs path)

def openText (s : Session) (uri : String) (text : List Char) (languageId : Option String) :
    Except Failure (SourceDocument × LensSet) × Session :=
  s.adopt (s.workspace.openText uri text languageId)

def change (s : Session) (uri : String) (text : List Char) :
    Except Failure (SourceDocument × LensSet) × Session :=
  s.adopt (s.workspace.change uri text)

/-- An open document with its lenses. -/
def lensesFor (s : Session) (uri : String) :
    Except Failure (SourceDocument × LensSet) × Session :=
  match s.workspace.get uri with
  | .error e => (.error e, s)
  | .ok document =>
    match s.lenses.provide document with
    | .error e => (.error e, s)
    | .ok (set, lenses) => (.ok (document, set), { s with lenses })

/-- The numbers of the views of a document that are neither disposed nor finished. -/
def views (s : Session) (uri : String) : List Nat := (Assoc.get? s.open_ uri).getD []

/-- Takes a view off the list of its document. -/
def forget (s : Session) (uri : String) (i : Nat) : Session :=
  match (s.views uri).erase i with
  | [] => { s with open_ := Assoc.erase s.open_ uri }
  | rest => { s with open_ := Assoc.put s.open_ uri rest }

def notFound (r : ExecuteRequest) : Failure where
  kind := .operationNotFound
  message := "No executable GraphQL operation at offset " ++ toString r.start ++ " of " ++ r.uri

def findOperation (set : LensSet) (r : ExecuteRequest) : Except Failure Operation :=
  match set.operationAt r.start r.name <|> r.stop.bind (set.operationAt · r.name) with
  | some operation => .ok operation
  | none => .error (notFound r)

/-- The operation that a request names, and which endpoint it is sent to. -/
def prepare (document : SourceDocument) (set : LensSet) (r : ExecuteRequest) :
    Except Failure (Operation × Resolver.Query) := do
  let operation ← findOperation set r
  let file ← document.path?
  return (operation, { project := r.project, endpoint := r.endpoint, file })

/-- Starts an execution that is called `id`, and gives its number. -/
def execute (s : Session) (id : String) (isWatched : Bool) (r : ExecuteRequest) :
    Except Failure Nat × Session :=
  let (found, s) := s.lensesFor r.uri
  match found.bind fun (document, set) => prepare document set r with
  | .error e => (.error e, s)
  | .ok (operation, query) =>
    let i := s.shown.length
    let started : ShownExecution := {
      uri := r.uri, query
      handle := .start id operation r.values
      view := .new ResultView.defaultUri isWatched }
    (.ok i, { s with
      shown := s.shown ++ [started]
      open_ := Assoc.put s.open_ r.uri (s.views r.uri ++ [i]) })

def put (s : Session) (i : Nat) (x : ShownExecution) : Session :=
  { s with shown := s.shown.set i x }

/-- Lets a view take events. -/
def run (s : Session) (i : Nat) : Session :=
  match s.shown[i]? with
  | some x => s.put i { x with view := x.view.run }
  | none => s

/-- Disposes a view with its execution. -/
def disposeView (s : Session) (net : Network) (i : Nat) : Session × Network :=
  match s.shown[i]? with
  | none => (s, net)
  | some x =>
    if x.view.isDisposed then (s, net)
    else
      let (view, handle, net) := x.view.dispose x.handle net
      ((s.put i { x with view, handle }).forget x.uri i, net)

def disposeViews (s : Session) (net : Network) (numbers : List Nat) : Session × Network :=
  numbers.foldl (fun (s, net) i => s.disposeView net i) (s, net)

/-- Closes a document and disposes the views that were started from it. -/
def close (s : Session) (net : Network) (uri : String) : Session × Network :=
  let (s, net) := s.disposeViews net (s.views uri)
  ({ s with
    open_ := Assoc.erase s.open_ uri
    lenses := s.lenses.closed uri
    workspace := s.workspace.close uri }, net)

/-- Disposes all views that are neither disposed nor finished. -/
def dispose (s : Session) (net : Network) : Session × Network :=
  let (s, net) := s.disposeViews net (s.open_.flatMap (·.2))
  ({ s with open_ := [] }, net)

def debugMessage (s : Session) : String :=
  "is in debug mode: " ++ if s.isDebugging then "True" else "False"

/-- Tells whether the session is in debug mode. -/
def reportDebug (s : Session) : String × Session :=
  (s.debugMessage, { s with messages := s.messages ++ [s.debugMessage] })

def unknownCommand (command : String) : Failure := .value ("Unknown command '" ++ command ++ "'")

/-- The request that the arguments of a lens stand for. -/
def requestOf (arguments : ExecuteArguments) : ExecuteRequest where
  uri := arguments.uri
  start := arguments.start
  stop := arguments.stop
  name := arguments.name

/-- The first step of the execution with a number, if it is still to come. -/
def launch (s : Session) (fs : Files) (net : Network) (i : Nat) : Session × Network :=
  match s.shown[i]? with
  | none => (s, net)
  | some x =>
    match x.handle.task with
    | .created =>
      let (resolved, resolver) := s.resolver.resolve fs x.query
      let (handle, net) := x.handle.launch net (resolved.map fun r => some r.endpoint)
      ({ s with resolver }.put i { x with handle }, net)
    | _ => (s, net)

/-- Lets the execution with a number and its view do all they can. `disposes` says at which versions
the owner disposes the view. -/
def settleOne (s : Session) (fs : Files) (net : Network) (disposes : Nat → Bool) (i : Nat) :
    Session × Network :=
  let (s, net) := s.launch fs net i
  match s.shown[i]? with
  | none => (s, net)
  | some x =>
    let (handle, net) := x.handle.settle net
    let (view, handle, net) := x.view.settle disposes handle net
    let s := s.put i { x with handle, view }
    (if view.isDisposed || view.notes.contains .finished then s.forget x.uri i else s, net)

/-- Lets all executions and views do all they can. -/
def settle (s : Session) (fs : Files) (net : Network) : Session × Network :=
  (List.range s.shown.length).foldl (fun (s, net) i => s.settleOne fs net (fun _ => false) i)
    (s, net)

end Session
end InlineQuery
