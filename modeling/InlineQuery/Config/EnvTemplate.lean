import InlineQuery.Data.Datum
import InlineQuery.Text.Space

/-!
References to the environment inside texts: a name in braces after a dollar sign, with an optional
scope before the name.
-/

namespace InlineQuery

/-- Names with their values. -/
abbrev Environment := List (String × String)

namespace EnvTemplate

def isNameStart (c : Char) : Bool := c.isAlpha || c == '_'

def isNamePart (c : Char) : Bool := c.isAlphanum || c == '_'

/-- The word before the name that says where it is looked up. -/
def scope : List Char := "env:".toList

/-- Removes white space and the scope from the start of a reference's inside. -/
def afterScope (cs : List Char) : List Char :=
  let cs := Text.trimStart cs
  if scope.isPrefixOf cs then Text.trimStart (cs.drop scope.length) else cs

/-- The name of a reference that a text starts with, and the text after it. -/
def reference? : List Char → Option (List Char × List Char)
  | '$' :: '{' :: inside =>
    let cs := afterScope inside
    match cs with
    | c :: _ =>
      if isNameStart c then
        match Text.trimStart (cs.dropWhile isNamePart) with
        | '}' :: rest => some (cs.takeWhile isNamePart, rest)
        | _ => none
      else none
    | [] => none
  | _ => none

/-- The value of a name; unknown names are empty. -/
def lookup (env : Environment) (name : List Char) : List Char :=
  ((Assoc.get? env (String.ofList name)).getD "").toList

/-- Replaces the references of a text; `skip` characters ahead belong to the last one. -/
def expandFrom (env : Environment) (skip : Nat) : List Char → List Char
  | [] => []
  | c :: r =>
    match skip with
    | skip + 1 => expandFrom env skip r
    | 0 =>
      match reference? (c :: r) with
      | some (name, rest) => lookup env name ++ expandFrom env (r.length - rest.length) r
      | none => c :: expandFrom env 0 r

/-- Replaces every reference by its value. Values are inserted as they are. -/
def expand (env : Environment) (template : String) : String :=
  String.ofList (expandFrom env 0 template.toList)

mutual

/-- Expands every text inside a value; keys stay. -/
def expandDatum (env : Environment) : Datum → Datum
  | .text s => .text (expand env s)
  | .list items => .list (expandItems env items)
  | .map entries => .map (expandEntries env entries)
  | value => value

def expandItems (env : Environment) : List Datum → List Datum
  | [] => []
  | x :: xs => expandDatum env x :: expandItems env xs

def expandEntries (env : Environment) : List (Datum × Datum) → List (Datum × Datum)
  | [] => []
  | (k, v) :: rest => (k, expandDatum env v) :: expandEntries env rest

end

end EnvTemplate
end InlineQuery
