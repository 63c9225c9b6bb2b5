import InlineQuery.Text.Cut

namespace InlineQuery

/-- A file path: the slashes it starts with and its components. No component is empty or a single
dot. -/
structure Path where
  root : String
  parts : List String
  deriving DecidableEq, Repr, Inhabited

namespace Path

/-- The leading slashes of a path that count: exactly two stay two, any other number is one. -/
def rootOf (cs : List Char) : String :=
  match (cs.takeWhile (· == '/')).length with
  | 0 => ""
  | 2 => "//"
  | _ => "/"

def components (cs : List Char) : List String :=
  ((Text.cut '/' cs).filter fun p => p ≠ [] ∧ p ≠ ['.']).map String.ofList

def ofString (s : String) : Path := ⟨rootOf s.toList, components s.toList⟩

def isAbsolute (p : Path) : Bool := p.root ≠ ""

/-- The path as text; the empty relative path is a single dot. -/
def toString (p : Path) : String :=
  if p.root = "" && p.parts.isEmpty then "."
  else p.root ++ "/".intercalate p.parts

/-- The last component. -/
def name (p : Path) : String := p.parts.getLastD ""

/-- The part of the last component from its last dot on, unless that dot starts or ends it. -/
def suffix (p : Path) : String :=
  let cs := p.name.toList
  let ending := (cs.reverse.takeWhile (· ≠ '.')).reverse
  if ending.length + 1 < cs.length && ending ≠ [] then String.ofList ('.' :: ending) else ""

/-- The path that `p` names when it is looked up from `base`. -/
def join (base p : Path) : Path :=
  if p.isAbsolute then p else { base with parts := base.parts ++ p.parts }

/-- Removes the last component. -/
def parent (p : Path) : Path := { p with parts := p.parts.dropLast }

/-- Removes parent references, which lead from the root back to the root. -/
def collapse (parts : List String) : List String :=
  (parts.foldl (fun above p => if p = ".." then above.drop 1 else p :: above) []).reverse

/-- The absolute path without parent references, looked up from the directory `base`. -/
def resolve (base p : Path) : Path :=
  let p := base.join p
  { root := "/", parts := collapse p.parts }

/-- The components that lead from `base` to `p`, when `p` lies in it. -/
def relativeTo? (p base : Path) : Option Path :=
  if p.root = base.root && base.parts.isPrefixOf p.parts then
    some ⟨"", p.parts.drop base.parts.length⟩
  else none

def isRelativeTo (p base : Path) : Bool := (p.relativeTo? base).isSome

end Path
end InlineQuery
