import InlineQuery.Data.Json.Reader
import InlineQuery.Failure
import InlineQuery.Text.Quoted
import InlineQuery.Text.Truncate

/-!
Values for the variables of an operation as a command line gives them: one JSON object for several
of them, and items for single ones, which count more.
-/

namespace InlineQuery.CommandLine

/-- The entries of a JSON object; an empty text stands for none. -/
def valuesOf (text : String) : Except Failure (List (String × Datum)) :=
  if text = "" then .ok []
  else match Json.read text.toList with
    | .ok (.map entries) => .ok (Datum.textEntries entries)
    | .ok _ => .error (.value "Invalid --variables: must be a JSON object")
    | .error (.huge integer) => .error (.value integer.message)
    | .error (.malformed cause offset) =>
      .error (.value
        ("Invalid --variables: not valid JSON (" ++ cause.message text.toList offset ++ ")"))

def malformedItem (item : String) : Failure :=
  .value ("Invalid --var " ++ Text.quoted (Text.truncate item 40) ++ " (expected NAME=VALUE)")

/-- The name of an item, which is not empty, and the text behind the first equals sign. -/
def splitItem (item : List Char) : Option (List Char × List Char) :=
  match item.span (· ≠ '=') with
  | ([], _) | (_, []) => none
  | (name, _ :: value) => some (name, value)

/-- The value of an item: what its text is as JSON, or else the text. -/
def itemValue (text : List Char) : Except Failure Datum :=
  match Json.read text with
  | .ok value => .ok value
  | .error (.malformed _ _) => .ok (.text (String.ofList text))
  | .error (.huge integer) => .error (.value integer.message)

def putItem (values : List (String × Datum)) (item : String) :
    Except Failure (List (String × Datum)) :=
  match splitItem item.toList with
  | none => .error (malformedItem item)
  | some (name, text) => do
    return Assoc.put values (String.ofList name) (← itemValue text)

/-- All values. Of several for one name the last counts. -/
def variableValues (text : Option String) (items : List String) :
    Except Failure (List (String × Datum)) := do
  items.foldlM putItem (← valuesOf (text.getD ""))

end InlineQuery.CommandLine
