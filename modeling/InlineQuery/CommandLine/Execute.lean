import InlineQuery.CommandLine.Screen
import InlineQuery.CommandLine.Variables
import InlineQuery.Session

/-!
The command that executes an operation of a source file and shows its result.
-/

namespace InlineQuery.CommandLine

/-- What is executed: the operation at an offset, or on a line, or the first one of the file. Lines
count from one. -/
structure ExecuteOptions where
  path : String
  line : Option Int
  offset : Option Int
  name : Option String
  items : List String
  values : Option String
  project : Option String
  endpoint : Option String
  folders : List Path
  deriving Repr, Inhabited

namespace ExecuteOptions

/-- The lens that the options choose. -/
def lens? (o : ExecuteOptions) (set : LensSet) : Option Lens :=
  match o.offset, o.line with
  | some offset, _ => set.lensAtOffset offset o.name
  | none, some line => set.lensAtLine (line - 1)
  | none, none => set.lenses.head?

/-- The place in a message. -/
def place (o : ExecuteOptions) : String :=
  match o.offset, o.line with
  | some offset, _ => " at offset " ++ toString offset
  | none, some line => " at line " ++ toString line
  | none, none => ""

/-- The name of the operation: the one that is asked for, or that of the lens. -/
def operationName (o : ExecuteOptions) (lens : Lens) : Option String :=
  match o.name with
  | some name => if name = "" then lens.arguments.name else some name
  | none => lens.arguments.name

def request (o : ExecuteOptions) (lens : Lens) (values : List (String × Datum)) :
    ExecuteRequest where
  uri := lens.arguments.uri
  start := lens.arguments.start
  name := o.operationName lens
  values := values
  project := o.project
  endpoint := o.endpoint

end ExecuteOptions

def redError (message : String) : Except Failure (List ScreenLine) :=
  Screen.print ("[red]Error: " ++ Text.Markup.escape message ++ "[/red]")

def heading (path : String) (lens : Lens) : Except Failure (List ScreenLine) :=
  Screen.print
    ("[bold]" ++ lens.title ++ "[/bold] (" ++ Text.Markup.escape path ++ ":"
      ++ toString (lens.line + 1) ++ ")")

/-- The outcome of a command that was stopped by a failure. -/
def stopped (lines : Except Failure (List ScreenLine)) : Except Failure Outcome :=
  lines.map fun ls => ⟨1, ls⟩

/-- What is left when an execution is over. An interruption is no failure. -/
def conclusion (before : List ScreenLine) (x : ShownExecution) : Except Failure Outcome := do
  let shown := before ++ Screen.plain x.view.content
  match x.handle.task with
  | .interrupted => return ⟨0, shown ++ (← Screen.print "[yellow]Disposed.[/yellow]")⟩
  | _ => return ⟨if x.handle.state = .failed then 1 else 0, shown⟩

/-- Executes an operation to its end in a session with its document open. -/
def executeIn (s : Session) (fs : Files) (net : Network) (id : String) (r : ExecuteRequest)
    (before : List ScreenLine) : Except Failure Outcome × Network :=
  match s.execute id true r with
  | (.error e, _) =>
    if e.kind = .operationNotFound then
      let lines := (redError e.message).map
        ((before ++ Screen.plain ResultView.pendingText) ++ ·)
      (stopped lines, net)
    else (.error e, net)
  | (.ok i, s) =>
    let (s, net) := (s.run i).settle fs net
    let (s, net) := s.disposeView net i
    (match s.shown[i]? with
      | some x => conclusion before x
      | none => .ok ⟨0, before⟩, net)

/-- Chooses the operation of an open document and executes it. -/
def executeLens (o : ExecuteOptions) (s : Session) (fs : Files) (net : Network) (id : String)
    (set : LensSet) (values : List (String × Datum)) : Except Failure Outcome × Network :=
  match o.lens? set with
  | none =>
    (stopped (Screen.print
      ("[red]No executable GraphQL operation" ++ o.place ++ " in " ++ Text.Markup.escape o.path
        ++ "[/red]")), net)
  | some lens =>
    match heading o.path lens with
    | .error e => (.error e, net)
    | .ok before => executeIn s fs net id (o.request lens values) before

/-- Executes an operation of a file. -/
def execute (o : ExecuteOptions) (fs : Files) (process : Environment) (net : Network)
    (id : String) : Except Failure Outcome × Network :=
  match variableValues o.values o.items with
  | .error e => (stopped (Screen.print ("[red]" ++ Text.Markup.escape e.message ++ "[/red]")), net)
  | .ok values =>
    match Session.start fs process process o.folders false true with
    | .error e => (stopped (redError e.message), net)
    | .ok s =>
      match s.openFile fs (Path.ofString o.path) with
      | (.error e, _) => (.error e, net)
      | (.ok (_, set), s) => executeLens o s fs net id set values

end InlineQuery.CommandLine
