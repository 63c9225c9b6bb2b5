import InlineQuery.Failure
import InlineQuery.Path

/-!
The files that the program can see, as one value. There are no links, so a path leads to at most
one file.
-/

namespace InlineQuery

structure FileEntry where
  bytes : List UInt8
  modified : Int
  deriving DecidableEq, Repr, Inhabited

/-- Files by their absolute components, directories that hold none, and the directory where
relative paths start. -/
structure Files where
  current : Path
  files : List (List String × FileEntry)
  directories : List (List String)
  deriving DecidableEq, Repr, Inhabited

namespace Files

def file? (fs : Files) (parts : List String) : Option FileEntry :=
  (fs.files.find? fun e => e.1 == parts).map (·.2)

/-- Whether components lead to a directory: a listed one, or one above another entry. -/
def hasDirectory (fs : Files) (parts : List String) : Bool :=
  parts.isEmpty || parts.isPrefixOf fs.current.parts ||
    fs.directories.any parts.isPrefixOf ||
    fs.files.any fun e => parts.isPrefixOf e.1 && parts.length < e.1.length

/-- Why a path leads nowhere. -/
def missing : Failure := { kind := .fileNotFound, message := "No such file or directory" }

def blocked : Failure := { kind := .notDirectory, message := "Not a directory" }

/-- Follows components from a directory; a parent reference leads out of a directory only. -/
def follow (fs : Files) (from_ : List String) : List String → Except Failure (List String)
  | [] => .ok from_
  | part :: rest =>
    if fs.hasDirectory from_ then
      fs.follow (if part = ".." then from_.dropLast else from_ ++ [part]) rest
    else if (fs.file? from_).isSome then .error blocked
    else .error missing

/-- The absolute components that a path leads to. -/
def locate (fs : Files) (path : Path) : Except Failure (List String) :=
  fs.follow (if path.isAbsolute then [] else fs.current.parts) path.parts

def lookup? (fs : Files) (path : Path) : Option FileEntry :=
  match fs.locate path with
  | .ok parts => fs.file? parts
  | .error _ => none

def isFile (fs : Files) (path : Path) : Bool := (fs.lookup? path).isSome

def isDirectory (fs : Files) (path : Path) : Bool :=
  match fs.locate path with
  | .ok parts => (fs.file? parts).isNone && fs.hasDirectory parts
  | .error _ => false

/-- The file at a path, or why there is none to read. -/
def read (fs : Files) (path : Path) : Except Failure FileEntry := do
  let parts ← fs.locate path
  match fs.file? parts with
  | some entry => return entry
  | none =>
    if fs.hasDirectory parts then throw { kind := .isDirectory, message := "Is a directory" }
    else throw missing

def resolve (fs : Files) (path : Path) : Path := fs.current.resolve path

def write (fs : Files) (path : Path) (entry : FileEntry) : Files :=
  let parts := (fs.resolve path).parts
  { fs with files := (fs.files.filter fun e => e.1 != parts) ++ [(parts, entry)] }

/-- Removes a file; its directory stays. -/
def remove (fs : Files) (path : Path) : Files :=
  let parts := (fs.resolve path).parts
  { fs with
    files := fs.files.filter fun e => e.1 != parts
    directories := parts.dropLast :: fs.directories }

def addDirectory (fs : Files) (path : Path) : Files :=
  { fs with directories := (fs.resolve path).parts :: fs.directories }

end Files
end InlineQuery
