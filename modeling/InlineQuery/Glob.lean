/-!
Patterns for file names. A star stands for any text, slashes included; a question mark for any
character; brackets for one character of a set.
-/

namespace InlineQuery

namespace Glob

/-- One element of a pattern. -/
inductive Item where
  | star
  | any
  | one (c : Char)
  | oneOf (negated : Bool) (ranges : List (Char × Char))
  deriving DecidableEq, Repr, Inhabited

def Item.accepts (item : Item) (c : Char) : Bool :=
  match item with
  | .star => false
  | .any => true
  | .one d => c == d
  | .oneOf negated ranges => (ranges.any fun (low, high) => low ≤ c && c ≤ high) != negated

/-- The inside of a set and how many characters it takes with its closing bracket. A bracket at its
start, after the negation if there is one, belongs to it. -/
def setBody? (cs : List Char) : Option (List Char) :=
  let start := if cs.head? = some '!' then 1 else 0
  let start := if (cs.drop start).head? = some ']' then start + 1 else start
  let more := (cs.drop start).takeWhile (· ≠ ']')
  if start + more.length < cs.length then some (cs.take (start + more.length)) else none

/-- Cuts the inside of a set at the hyphens that make ranges. Such a hyphen has a character before
it that no earlier range uses. `chunk` holds the characters since the last cut, in reverse, and
`held` counts those that come before the next hyphen can cut. -/
def chunksFrom (chunk : List Char) (held : Nat) : List Char → List (List Char)
  | [] => [chunk.reverse]
  | c :: r =>
    if held = 0 ∧ c = '-' then chunk.reverse :: chunksFrom [] 2 r
    else chunksFrom (c :: chunk) (held - 1) r

/-- A hyphen at the end of a set stands for itself. -/
def closeChunks (chunks : List (List Char)) : List (List Char) :=
  match chunks.reverse with
  | [] :: last :: more => ((last ++ ['-']) :: more).reverse
  | _ => chunks

/-- Joins two chunks whose range would be empty, and so drops both of its ends. -/
def joinEmpty (chunk : List Char) (later : List (List Char)) : List (List Char) :=
  match later with
  | [] => [chunk]
  | next :: more =>
    match chunk.getLast?, next.head? with
    | some low, some high =>
      if high < low then (chunk.dropLast ++ next.drop 1) :: more else chunk :: next :: more
    | _, _ => chunk :: next :: more

/-- The single characters and the ranges of chunks. `fromRange` tells that the first character of
the next chunk ends a range. -/
def rangesOf (fromRange : Bool) : List (List Char) → List (Char × Char)
  | [] => []
  | [chunk] => (if fromRange then chunk.drop 1 else chunk).map fun c => (c, c)
  | chunk :: next :: more =>
    let singles := (if fromRange then chunk.drop 1 else chunk).dropLast.map fun c => (c, c)
    let range := match chunk.getLast?, next.head? with
      | some low, some high => [(low, high)]
      | _, _ => []
    singles ++ range ++ rangesOf true (next :: more)

/-- The element that the inside of a set denotes. Whether an exclamation mark negates it is decided
when the empty ranges are gone. A hyphen right behind that mark stands for itself. -/
def setItem (body : List Char) : Item :=
  let held := if body.head? == some '!' then 2 else 1
  match (closeChunks (chunksFrom [] held body)).foldr joinEmpty [] with
  | ['!'] :: [] => .any
  | ['!'] :: next :: more => .oneOf true (rangesOf false (('-' :: next) :: more))
  | ('!' :: first) :: more => .oneOf true (rangesOf false (first :: more))
  | chunks => .oneOf false (rangesOf false chunks)

/-- Reads a pattern; `skip` characters ahead belong to the last set. -/
def itemsFrom (skip : Nat) : List Char → List Item
  | [] => []
  | c :: r =>
    match skip with
    | skip + 1 => itemsFrom skip r
    | 0 =>
      if c == '*' then .star :: itemsFrom 0 r
      else if c == '?' then .any :: itemsFrom 0 r
      else if c == '[' then
        match setBody? r with
        | some body => setItem body :: itemsFrom (body.length + 1) r
        | none => .one c :: itemsFrom 0 r
      else .one c :: itemsFrom 0 r

/-- A text and all that is left of it from some character on. -/
def suffixes : List Char → List (List Char)
  | [] => [[]]
  | c :: r => (c :: r) :: suffixes r

def matchItems : List Item → List Char → Bool
  | [], cs => cs.isEmpty
  | .star :: items, cs => (suffixes cs).any (matchItems items)
  | item :: items, c :: cs => item.accepts c && matchItems items cs
  | _ :: _, [] => false

/-- Stars that follow each other are one. -/
def mergeStars : List Item → List Item
  | .star :: .star :: items => mergeStars (.star :: items)
  | item :: items => item :: mergeStars items
  | [] => []

/-- Whether a whole path matches a pattern. -/
def isMatch (pattern path : List Char) : Bool := matchItems (mergeStars (itemsFrom 0 pattern)) path

/-- Removes every mark for any number of directories. -/
def dropDirectories : List Char → List Char
  | '*' :: '*' :: '/' :: r => dropDirectories r
  | c :: r => c :: dropDirectories r
  | [] => []

/-- Removes the mark for the current directory. -/
def dropCurrent : List Char → List Char
  | '.' :: '/' :: r => r
  | cs => cs

/-- Whether a path matches a pattern whose marks for any number of directories may also stand for
none at all. -/
def covers (pattern path : String) : Bool :=
  let pattern := dropCurrent pattern.toList
  isMatch pattern path.toList || isMatch (dropDirectories pattern) path.toList

end Glob
end InlineQuery
