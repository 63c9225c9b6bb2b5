import InlineQuery.CommandLine.Check
import InlineQuery.CommandLine.Execute
import InlineQuery.CommandLine.Lenses
import InlineQuery.CommandLine.Options

/-!
The commands of the program and how their arguments are read.
-/

namespace InlineQuery.CommandLine

inductive Command where
  | lenses (path : String)
  | execute (o : ExecuteOptions)
  | check (o : CheckOptions)
  | debug (isDebugging : Bool)
  | version
  | help
  deriving Inhabited

namespace Command

def helpForm : OptionForm := { key := "help", short := none, long := "--help", isFlag := true }

def programForms : List OptionForm :=
  [helpForm, { key := "version", short := none, long := "--version", isFlag := true },
    { key := "debug", short := none, long := "--debug", isFlag := true }]

def workspaceForm : OptionForm := { key := "workspace", short := some 'w', long := "--workspace" }

def endpointForms : List OptionForm :=
  [helpForm, workspaceForm, { key := "project", short := some 'p', long := "--project" },
    { key := "endpoint", short := some 'e', long := "--endpoint" }]

def executeForms : List OptionForm :=
  endpointForms ++
    [{ key := "line", short := some 'l', long := "--line" },
      { key := "offset", short := some 'o', long := "--offset" },
      { key := "name", short := some 'n', long := "--operation-name" },
      { key := "item", short := some 'v', long := "--var" },
      { key := "variables", short := none, long := "--variables" }]

def checkForms : List OptionForm :=
  endpointForms ++ [{ key := "file", short := some 'f', long := "--file" }]

/-- Whether a path can only be that of a directory. -/
def endsInSlash (path : String) : Bool := path.toList.getLast? == some '/'

def isFile (fs : Files) (path : String) : Bool :=
  !endsInSlash path && fs.isFile (Path.ofString path)

def isDirectory (fs : Files) (path : String) : Bool :=
  path ≠ "" && fs.isDirectory (Path.ofString path)

/-- Digits, with single lines between them at most. -/
def digits? (cs : List Char) : Option (List Char) :=
  if cs.isEmpty then none
  else
    let groups := Text.cut '_' cs
    if groups.all fun g => !g.isEmpty && g.all Char.isDigit then some groups.flatten else none

/-- The integer that an argument denotes. -/
def integer? (s : String) : Option Int := do
  let (sign, digits) := match Text.trim s.toList with
    | '-' :: r => (['-'], r)
    | '+' :: r => ([], r)
    | r => ([], r)
  (integerOf (sign ++ (← digits? digits))).toOption

/-- The integer that an option gives; `none` says that it gives another text. -/
def integerOption? (a : Arguments) (key : String) : Option (Option Int) :=
  match a.value? key with
  | none => some none
  | some s => (integer? s).map some

/-- The folders of the workspace: the current directory unless others are given. -/
def folders? (fs : Files) (a : Arguments) : Option (List Path) :=
  match a.values "workspace" with
  | [] => some [fs.current]
  | paths =>
    if paths.all (isDirectory fs) then some (paths.map Path.ofString) else none

def readLenses (fs : Files) (args : List String) : Option Command := do
  let a ← readArguments [helpForm] true none args
  if a.hasFlag "help" then return help
  match a.rest with
  | [path] => if isFile fs path then some (lenses path) else none
  | _ => none

def readExecute (fs : Files) (args : List String) : Option Command := do
  let a ← readArguments executeForms true none args
  if a.hasFlag "help" then return help
  let line ← integerOption? a "line"
  let offset ← integerOption? a "offset"
  let folders ← folders? fs a
  match a.rest with
  | [path] =>
    if isFile fs path then
      some (execute {
        path, line, offset, folders
        name := a.value? "name"
        items := a.values "item"
        values := a.value? "variables"
        project := a.value? "project"
        endpoint := a.value? "endpoint" })
    else none
  | _ => none

def readCheck (fs : Files) (args : List String) : Option Command := do
  let a ← readArguments checkForms true none args
  if a.hasFlag "help" then return help
  let folders ← folders? fs a
  let file := a.value? "file"
  if a.rest.isEmpty && !(file.map (isDirectory fs)).getD false then
    some (check {
      folders
      file := file.map Path.ofString
      project := a.value? "project"
      endpoint := a.value? "endpoint" })
  else none

def readConfig (fs : Files) (args : List String) : Option Command := do
  let a ← readArguments [helpForm] false none args
  if a.hasFlag "help" then return help
  match a.rest with
  | "check" :: rest => readCheck fs rest
  | _ => none

def readDebug (isDebugging : Bool) (args : List String) : Option Command := do
  let a ← readArguments [helpForm] true none args
  if a.hasFlag "help" then return help
  if a.rest.isEmpty then some (debug isDebugging) else none

/-- The first of the options that end the program. -/
def ending? (a : Arguments) : Option Command :=
  a.options.findSome? fun (key, _) =>
    if key = "help" then some help else if key = "version" then some version else none

/-- The command that arguments give, if they are right. -/
def read (fs : Files) (args : List String) : Option Command := do
  let a ← readArguments programForms false none args
  match ending? a, a.rest with
  | some command, _ => return command
  | none, "lenses" :: rest => readLenses fs rest
  | none, "execute" :: rest => readExecute fs rest
  | none, "config" :: rest => readConfig fs rest
  | none, "debug" :: rest => readDebug (a.hasFlag "debug") rest
  | none, _ => none

def versionText : String := "gqlens, version 0.1.0"

/-- How the commands are called. -/
def usage : List String :=
  ["gqlens [--debug] lenses PATH",
    "gqlens [--debug] execute PATH [-l LINE] [-o OFFSET] [-n NAME] [-v NAME=VALUE]...",
    "    [--variables JSON] [-p PROJECT] [-e ENDPOINT] [-w FOLDER]...",
    "gqlens [--debug] config check [-w FOLDER]... [-f FILE] [-p PROJECT] [-e ENDPOINT]",
    "gqlens [--debug] debug",
    "gqlens --version"]

def runDebug (fs : Files) (process : Environment) (isDebugging : Bool) : Except Failure Outcome := do
  let s ← Session.start fs process process [fs.current] isDebugging false
  return ⟨0, Screen.plain s.reportDebug.1⟩

/-- Runs a command. `id` is the name of an execution. -/
def run (command : Command) (fs : Files) (process : Environment) (net : Network) (id : String) :
    Except Failure Outcome × Network :=
  match command with
  | lenses path => (listLenses fs path, net)
  | execute o => CommandLine.execute o fs process net id
  | check o => (CommandLine.check o fs process, net)
  | debug isDebugging => (runDebug fs process isDebugging, net)
  | version => (.ok ⟨0, Screen.plain versionText⟩, net)
  | help => (.ok ⟨0, usage.map .text⟩, net)

end Command

/-- Runs the program. Arguments that are not right show nothing and leave exit code 2. -/
def run (args : List String) (fs : Files) (process : Environment) (net : Network) (id : String) :
    Except Failure Outcome × Network :=
  match Command.read fs args with
  | some command => command.run fs process net id
  | none => (.ok ⟨2, []⟩, net)

end InlineQuery.CommandLine
