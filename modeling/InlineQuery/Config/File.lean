import InlineQuery.Config.Validation
import InlineQuery.Data.Yaml.Document
import InlineQuery.Files

/-!
Configuration files: their names, and how one is read.
-/

namespace InlineQuery

namespace Configuration

/-- The names of configuration files in the order in which they are looked for. -/
def fileNames : List String :=
  [".graphqlconfig", ".graphqlconfig.json", ".graphqlconfig.yml", ".graphqlconfig.yaml"]

/-- The first configuration file of a folder. -/
def find? (fs : Files) (folder : Path) : Option Path :=
  (fileNames.map fun name => folder.join ⟨"", [name]⟩).find? fs.isFile

def missing : Failure where
  kind := .configurationMissing
  message := "gqlens requires a valid .graphqlconfig or .graphqlconfig.yml file in the " ++
    "project root. You can read more about that in " ++
    "https://github.com/prisma-labs/graphql-config."

/-- The configuration file of the first folder that has one. -/
def require (fs : Files) (folders : List Path) : Except Failure Path :=
  match folders.findSome? (find? fs) with
  | some path => .ok path
  | none => .error missing

def invalid (message : String) (problems : List (String × String)) : Failure :=
  { kind := .configurationInvalid, message, problems }

def unreadable (path : Path) : Failure := invalid ("Cannot read " ++ path.name) []

/-- The configuration of a document. -/
def ofDatum (path : Path) (d : Datum) : Except Failure Configuration :=
  let d := if d.isNull then .map [] else d
  match d with
  | .map _ =>
    (Validation.configuration d).mapError fun problems =>
      invalid ("Invalid " ++ path.name) (problems.map fun p => (".".intercalate p.place, p.kind.name))
  | _ => .error (invalid (path.name ++ " must contain a mapping at the top level") [])

/-- Reads a configuration file. -/
def load (fs : Files) (path : Path) : Except Failure Configuration := do
  let entry ← (fs.read path).mapError fun _ => unreadable path
  let text ← (Text.decodeUtf8 entry.bytes).mapError fun _ => unreadable path
  let document ← (Yaml.read (Text.unifyLineEnds text)).mapError fun
    | .malformed => unreadable path
    | .value failure => failure
  ofDatum path document

end Configuration
end InlineQuery
