import InlineQuery.Config.Project
import InlineQuery.Data.Display
import InlineQuery.Text.Utf8

/-!
Configurations from data. All problems of a document are collected, each with its place.
-/

namespace InlineQuery

inductive ProblemKind where
  | missing
  | notText
  | notMapping
  | notList
  | notRecord
  | invalidKey
  | invalidText
  | invalidValue
  deriving DecidableEq, Repr, Inhabited

def ProblemKind.name : ProblemKind → String
  | missing => "missing"
  | notText => "string_type"
  | notMapping => "dict_type"
  | notList => "list_type"
  | notRecord => "model_type"
  | invalidKey => "invalid_key"
  | invalidText => "string_unicode"
  | invalidValue => "value_error"

/-- What is wrong with a document, and the keys and indices that lead there. -/
structure Problem where
  place : List String
  kind : ProblemKind
  deriving DecidableEq, Repr, Inhabited

/-- The outcome of checking a part of a document. -/
abbrev Checked := Except (List Problem)

namespace Checked

def problem {α : Type} (kind : ProblemKind) : Checked α := .error [⟨[], kind⟩]

/-- A part that lies under a key or an index. -/
def under {α : Type} (key : String) (x : Checked α) : Checked α :=
  x.mapError fun ps => ps.map fun p => { p with place := key :: p.place }

/-- Two parts, or the problems of both. -/
def both {α β : Type} : Checked α → Checked β → Checked (α × β)
  | .ok a, .ok b => .ok (a, b)
  | .ok _, .error q => .error q
  | .error p, .ok _ => .error p
  | .error p, .error q => .error (p ++ q)

/-- All of some parts. -/
def all {α : Type} (xs : List (Checked α)) : Checked (List α) :=
  xs.foldr (fun x rest => (both x rest).map fun (y, ys) => y :: ys) (.ok [])

end Checked

namespace Validation

/-- A text, or bytes that are one. -/
def text : Datum → Checked String
  | .text s => .ok s
  | .bytes bs =>
    match Text.decodeUtf8 bs with
    | .ok cs => .ok (String.ofList cs)
    | .error _ => .problem .invalidText
  | _ => .problem .notText

def optionalText : Datum → Checked (Option String)
  | .null => .ok none
  | d => (text d).map some

/-- A list of texts. -/
def texts : Datum → Checked (List String)
  | .list items | .tuple items | .set items =>
    .all (items.zipIdx.map fun (d, i) => (text d).under (toString i))
  | _ => .problem .notList

/-- How the place of a problem shows a key. -/
def keyText : Datum → String
  | .text s => s
  | .bool b => if b then "1" else "0"
  | d => d.quoted

/-- A mapping from texts to values of a kind. -/
def mapping {α : Type} (value : Datum → Checked α) : Datum → Checked (List (String × α))
  | .map entries =>
    let checked := entries.map fun (k, v) =>
      (((text k).under "[key]").both (value v)).under (keyText k)
    (Checked.all checked).map Assoc.ofList
  | _ => .problem .notMapping

/-- The entries of a record. -/
def record : Datum → Checked (List (Datum × Datum))
  | .map entries => .ok entries
  | _ => .problem .notRecord

/-- The keys of a record that allows any others; each must be a text. -/
def openKeys (entries : List (Datum × Datum)) : Checked Unit :=
  (Checked.all (entries.map fun (k, _) =>
    (text k).mapError fun _ => [⟨[keyText k], .invalidKey⟩])).map fun _ => ()

/-- A field of a record under the first of some names that it has. -/
def field {α : Type} (names : List String) (default : Checked α) (value : Datum → Checked α)
    (entries : List (Datum × Datum)) : Checked α :=
  match names.find? fun n => Assoc.contains entries (.text n) with
  | some n => (((Assoc.get? entries (.text n)).map value).getD default).under n
  | none => default

def required {α : Type} (name : String) (value : Datum → Checked α)
    (entries : List (Datum × Datum)) : Checked α :=
  field [name] ((Checked.problem .missing).under name) value entries

def anyValue (d : Datum) : Checked Datum := .ok d

/-- Header values as texts; null is the empty one. -/
def headers : Datum → Checked (List (String × String))
  | .map entries =>
    if Datum.entriesAreHuge entries then .problem .invalidValue
    else .ok (Assoc.ofList (entries.map fun (k, v) =>
      (k.display, if v.isNull then "" else v.display)))
  | _ => .problem .notMapping

/-- A bare address stands for a record with nothing else. -/
def withUrl : Datum → Datum
  | .text s => Datum.object [("url", .text s)]
  | d => d

def subscription (d : Datum) : Checked SubscriptionTarget := do
  let entries ← record (withUrl d)
  let params := field ["connectionParams", "connection_params"] (.ok []) (mapping anyValue) entries
  let (url, connectionParams) ← (required "url" text entries).both params
  return ⟨url, connectionParams⟩

def optionalSubscription : Datum → Checked (Option SubscriptionTarget)
  | .null => .ok none
  | d => (subscription d).map some

def endpoint (d : Datum) : Checked EndpointEntry := do
  let entries ← record (withUrl d)
  let (url, headers, subscription) ← (required "url" text entries).both
    ((field ["headers"] (.ok []) headers entries).both
      (field ["subscription"] (.ok none) optionalSubscription entries))
  return ⟨url, headers, subscription⟩

def extensions (d : Datum) : Checked (List (String × EndpointEntry)) := do
  let entries ← record d
  let (endpoints, _) ←
    (field ["endpoints"] (.ok []) (mapping endpoint) entries).both (openKeys entries)
  return endpoints

/-- The fields that every project has. -/
def projectFields (entries : List (Datum × Datum)) : Checked Project := do
  let schemaPath := field ["schemaPath", "schema_path"] (.ok none) optionalText entries
  let includes := field ["includes"] (.ok []) texts entries
  let excludes := field ["excludes"] (.ok []) texts entries
  let endpoints := field ["extensions"] (.ok []) extensions entries
  let (schemaPath, includes, excludes, endpoints, _) ←
    schemaPath.both (includes.both (excludes.both (endpoints.both (openKeys entries))))
  return ⟨schemaPath, includes, excludes, endpoints⟩

def project (d : Datum) : Checked Project := do projectFields (← record d)

def configuration (d : Datum) : Checked Configuration := do
  let entries ← record d
  let (base, projects) ← (projectFields entries).both
    (field ["projects"] (.ok []) (mapping project) entries)
  return { base with projects }

end Validation
end InlineQuery
