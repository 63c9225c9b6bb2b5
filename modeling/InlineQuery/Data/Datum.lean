import InlineQuery.Data.Assoc
import InlineQuery.Number.Shortest

namespace InlineQuery

structure Date where
  year : Nat
  month : Nat
  day : Nat
  deriving DecidableEq, Repr, Inhabited

/-- A point of time; `zone` is its distance from universal time in seconds. -/
structure Moment where
  date : Date
  hour : Nat
  minute : Nat
  second : Nat
  microsecond : Nat
  zone : Option Int
  deriving DecidableEq, Repr, Inhabited

/-- A value of a data document. JSON knows texts as keys only, and neither dates, bytes, tuples nor
sets. -/
inductive Datum where
  | null
  | bool (value : Bool)
  | int (value : Int)
  | float (value : Double)
  | text (value : String)
  | list (items : List Datum)
  | map (entries : List (Datum × Datum))
  | date (value : Date)
  | moment (value : Moment)
  | bytes (value : List UInt8)
  | tuple (items : List Datum)
  | set (items : List Datum)
  deriving Repr, Inhabited

namespace Datum

/-- The number that a number or truth value equals. -/
def integer? : Datum → Option Int
  | int n => some n
  | bool b => some (if b then 1 else 0)
  | float d => d.toInt?
  | _ => none

mutual

/-- Whether two keys are the same: a truth value is the number it stands for. -/
def sameKey : Datum → Datum → Bool
  | null, null => true
  | text a, text b => a == b
  | bytes a, bytes b => a == b
  | date a, date b => a == b
  | moment a, moment b => a == b
  | tuple a, tuple b => sameKeys a b
  | float a, float b =>
    match a.toInt?, b.toInt? with
    | some m, some n => m == n
    | none, none => a == b && a != .nan
    | _, _ => false
  | a, b =>
    match a.integer?, b.integer? with
    | some m, some n => m == n
    | _, _ => false

def sameKeys : List Datum → List Datum → Bool
  | [], [] => true
  | a :: as, b :: bs => sameKey a b && sameKeys as bs
  | _, _ => false

end

instance : BEq Datum := ⟨sameKey⟩

/-- A mapping whose keys are texts. -/
def object (entries : List (String × Datum)) : Datum :=
  map (entries.map fun (k, v) => (text k, v))

/-- The entries of a mapping with texts as keys; other entries are left out. -/
def textEntries (entries : List (Datum × Datum)) : List (String × Datum) :=
  entries.filterMap fun
    | (text k, v) => some (k, v)
    | _ => none

/-- What a mapping holds under a text. -/
def field? : Datum → String → Option Datum
  | map entries, key => Assoc.get? (textEntries entries) key
  | _, _ => none

/-- A list, or else a mapping, where it stands inside of itself. No value is a set that holds a
collection, so this stands for nothing else. -/
def endless (isList : Bool) : Datum := set [if isList then list [] else map []]

mutual

/-- Whether going through a value along lists and mappings does not end. -/
def isEndless : Datum → Bool
  | list items => itemsAreEndless items
  | map entries => entriesAreEndless entries
  | set [list []] | set [map []] => true
  | _ => false

def itemsAreEndless : List Datum → Bool
  | [] => false
  | x :: xs => isEndless x || itemsAreEndless xs

def entriesAreEndless : List (Datum × Datum) → Bool
  | [] => false
  | (_, v) :: rest => isEndless v || entriesAreEndless rest

end

def isNull : Datum → Bool
  | null => true
  | _ => false

/-- Whether a value counts as something: neither null nor false nor zero nor empty. -/
def isTruthy : Datum → Bool
  | null => false
  | bool b => b
  | int n => n != 0
  | float d => !d.isZero
  | text s => s != ""
  | list xs | tuple xs | set xs => !xs.isEmpty
  | map es => !es.isEmpty
  | bytes bs => !bs.isEmpty
  | date _ | moment _ => true

end Datum
end InlineQuery
