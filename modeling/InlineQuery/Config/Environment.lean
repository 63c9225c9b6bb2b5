import InlineQuery.Config.EnvFile
import InlineQuery.Files

namespace InlineQuery

namespace Environment

def fileName : String := ".env"

def fileIn (folder : Path) : Path := { folder with parts := folder.parts ++ [fileName] }

/-- The bindings of one folder's environment file, or none when it has no such file. -/
def ofFolder (fs : Files) (process : Environment) (folder : Path) : Except Failure Environment :=
  match fs.lookup? (fileIn folder) with
  | none => .ok []
  | some entry =>
    (EnvFile.ofBytes process entry.bytes).mapError fun e =>
      { kind := .decoding, message := e.message }

/-- The environment of a workspace: the files of its folders, a later one over an earlier, and the
explicit values over all files. References in files look at the process environment. -/
def merged (fs : Files) (process : Environment) (folders : List Path) (explicit : Environment) :
    Except Failure Environment := do
  let files ← folders.mapM (ofFolder fs process)
  return Assoc.merge (files.foldl Assoc.merge []) explicit

end Environment
end InlineQuery
