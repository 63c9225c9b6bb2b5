import InlineQuery.CommandLine.Program

/-!
The program. It reads the files that its arguments name, runs the command on them and prints what
the command shows. It has no network: every request fails.
-/

open InlineQuery

/-- What is at a place: a file with its content, a directory, or nothing. -/
inductive Found where
  | file (bytes : List UInt8)
  | directory
  | nothing

def look (place : String) : IO Found := do
  try
    return .file (← IO.FS.readBinFile place).toList
  catch e =>
    match e with
    | .noFileOrDirectory .. => return .nothing
    | _ => return .directory

/-- The files that may count below a folder: its configuration and its environment. -/
def namesIn (folder : String) : List String :=
  (Environment.fileName :: Configuration.fileNames).map fun name => folder ++ "/" ++ name

/-- Adds what is at a place to the files, and the files that count below a folder. -/
def addFound (fs : Files) (place : String) : IO Files := do
  match ← look place with
  | .file bytes => return fs.write (Path.ofString place) ⟨bytes, 0⟩
  | .directory =>
    let fs := fs.addDirectory (Path.ofString place)
    (namesIn place).foldlM (fun fs name => do
      match ← look name with
      | .file bytes => return fs.write (Path.ofString name) ⟨bytes, 0⟩
      | _ => return fs) fs
  | .nothing => return fs

/-- The environment of the process. -/
def environment : IO Environment := do
  match ← look "/proc/self/environ" with
  | .file bytes =>
    let entries := Text.cut '\x00' (Text.replaceUtf8 bytes)
    return (entries.filterMap CommandLine.splitItem).map fun (name, value) =>
      (String.ofList name, String.ofList value)
  | _ => return []

def noNetwork : Failure := { kind := .clientConnection, message := "no network" }

def network : Network := ⟨[], [], .failure noNetwork, .refused noNetwork, [], [], []⟩

def lineText (l : CommandLine.ScreenLine) : String :=
  match l with
  | .text s => s
  | .row cells => " | ".intercalate cells

def main (args : List String) : IO UInt32 := do
  let process ← environment
  let current := Path.ofString ((Assoc.get? process "PWD").getD "/")
  let fs ← ("." :: args).foldlM addFound ⟨current, [], []⟩
  match (CommandLine.run args fs process network "1").1 with
  | .ok outcome =>
    for line in outcome.lines do
      IO.println (lineText line)
    return outcome.exitCode.toUInt32
  | .error e =>
    IO.eprintln (e.kind.name ++ ": " ++ e.message)
    return 1
