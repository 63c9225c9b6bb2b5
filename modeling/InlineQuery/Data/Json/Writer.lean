import InlineQuery.Data.Digits
import InlineQuery.Data.Display

/-!
Writing JSON on one line, for messages to a server, or indented, for a reader.
-/

namespace InlineQuery.Json

/-- What cannot be written: a value or the key of an object that JSON does not know, an integer of too
many digits, or a value that holds itself. -/
inductive Unwritable where
  | value (typeName : String)
  | key (typeName : String)
  | huge
  | circular
  deriving DecidableEq, Repr, Inhabited

def Unwritable.message : Unwritable → String
  | value name => "Object of type " ++ name ++ " is not JSON serializable"
  | key name => "keys must be str, int, float, bool or None, not " ++ name
  | huge => "Exceeds the limit (4300 digits) for integer string conversion; " ++
      "use sys.set_int_max_str_digits() to increase the limit"
  | circular => "Circular reference detected"

def hex4 (n : Nat) : List Char :=
  let digits := Nat.toDigits 16 n
  '\\' :: 'u' :: (List.replicate (4 - digits.length) '0' ++ digits)

/-- The escape of a character by number, as a surrogate pair when four digits are too few. -/
def numbered (c : Char) : List Char :=
  let n := c.toNat
  if n < 0x10000 then hex4 n
  else hex4 (0xD800 + (n - 0x10000) / 0x400) ++ hex4 (0xDC00 + (n - 0x10000) % 0x400)

/-- A character of a string. With `ascii`, all but printable ASCII is escaped. -/
def stringChar (ascii : Bool) (c : Char) : List Char :=
  match c with
  | '"' => ['\\', '"']
  | '\\' => ['\\', '\\']
  | '\n' => ['\\', 'n']
  | '\r' => ['\\', 'r']
  | '\t' => ['\\', 't']
  | '\x08' => ['\\', 'b']
  | '\x0c' => ['\\', 'f']
  | c =>
    if c.toNat < 0x20 then hex4 c.toNat
    else if ascii ∧ 0x7E < c.toNat then numbered c
    else [c]

def string (ascii : Bool) (s : String) : List Char :=
  '"' :: s.toList.flatMap (stringChar ascii) ++ ['"']

/-- The text of a floating point number. -/
def numberText (d : Double) : String := d.textWith ⟨"Infinity", "NaN"⟩

/-- The text that stands for a key. -/
def keyText : Datum → String
  | .null => "null"
  | .bool b => if b then "true" else "false"
  | .float d => numberText d
  | key => key.display

/-- How a document is laid out: which characters are escaped, and whether each entry has a line of
its own. -/
structure Layout where
  ascii : Bool
  indented : Bool
  deriving DecidableEq, Repr, Inhabited

/-- The start of a line at a depth of nesting, or nothing on a single line. -/
def Layout.line (layout : Layout) (depth : Nat) : List Char :=
  if layout.indented then '\n' :: List.replicate (2 * depth) ' ' else []

/-- Puts entries between brackets, a comma after each but the last. -/
def Layout.enclose (layout : Layout) (depth : Nat) (opening closing : Char)
    (entries : List (List Char)) : List Char :=
  if entries.isEmpty then [opening, closing]
  else
    let separator := if layout.indented then ',' :: layout.line (depth + 1) else [',', ' ']
    opening :: layout.line (depth + 1) ++ separator.intercalate entries ++ layout.line depth
      ++ [closing]

mutual

/-- Writes a value at a depth of nesting. Values that JSON does not know are written as texts. -/
def write (layout : Layout) (depth : Nat) : Datum → List Char
  | .null => "null".toList
  | .bool b => (if b then "true" else "false").toList
  | .int n => (toString n).toList
  | .float d => (numberText d).toList
  | .text s => string layout.ascii s
  | .list items | .tuple items =>
    layout.enclose depth '[' ']' (writeItems layout (depth + 1) items)
  | .map entries => layout.enclose depth '{' '}' (writeEntries layout (depth + 1) entries)
  | value => string layout.ascii value.display

def writeItems (layout : Layout) (depth : Nat) : List Datum → List (List Char)
  | [] => []
  | x :: xs => write layout depth x :: writeItems layout depth xs

def writeEntries (layout : Layout) (depth : Nat) : List (Datum × Datum) → List (List Char)
  | [] => []
  | (k, v) :: rest =>
    (string layout.ascii (keyText k) ++ [':', ' '] ++ write layout depth v)
      :: writeEntries layout depth rest

end

def unwritableInteger? (n : Int) : Option Unwritable := if isHuge n then some .huge else none

def unwritableKey? : Datum → Option Unwritable
  | .null | .bool _ | .float _ | .text _ => none
  | .int n => unwritableInteger? n
  | key => some (.key key.typeName)

mutual

/-- The first part of a value that cannot be written. -/
def unwritable? : Datum → Option Unwritable
  | .int n => unwritableInteger? n
  | .list items | .tuple items => unwritableItem? items
  | .map entries => unwritableMember? entries
  | .date d => some (.value (Datum.date d).typeName)
  | .moment t => some (.value (Datum.moment t).typeName)
  | .bytes bs => some (.value (Datum.bytes bs).typeName)
  | .set [.list []] | .set [.map []] => some .circular
  | .set xs => some (.value (Datum.set xs).typeName)
  | _ => none

def unwritableItem? : List Datum → Option Unwritable
  | [] => none
  | x :: xs => (unwritable? x).or (unwritableItem? xs)

def unwritableMember? : List (Datum × Datum) → Option Unwritable
  | [] => none
  | (k, v) :: rest => (unwritableKey? k).or ((unwritable? v).or (unwritableMember? rest))

end

/-- A value on one line in ASCII. -/
def line (v : Datum) : String := String.ofList (write ⟨true, false⟩ 0 v)

/-- A value on one line in ASCII, if all of it can be written. -/
def compact (v : Datum) : Except Unwritable String :=
  match unwritable? v with
  | some e => .error e
  | none => .ok (line v)

/-- A value with an entry a line. -/
def pretty (v : Datum) : String := String.ofList (write ⟨false, true⟩ 0 v)

end InlineQuery.Json
