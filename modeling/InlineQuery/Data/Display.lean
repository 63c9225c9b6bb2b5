import InlineQuery.Data.Datum
import InlineQuery.Data.Digits
import InlineQuery.Text.Quoted

/-!
Values as messages show them. A text shows as itself, but quoted inside a list or mapping.
-/

namespace InlineQuery

/-- A number with at least so many digits. -/
def padded (width n : Nat) : String :=
  let digits := Nat.toDigits 10 n
  String.ofList (List.replicate (width - digits.length) '0' ++ digits)

def Date.display (d : Date) : String :=
  padded 4 d.year ++ "-" ++ padded 2 d.month ++ "-" ++ padded 2 d.day

/-- A distance from universal time: hours and minutes, and seconds if there are any. -/
def zoneDisplay (seconds : Int) : String :=
  let n := seconds.natAbs
  (if seconds < 0 then "-" else "+") ++ padded 2 (n / 3600) ++ ":" ++ padded 2 (n / 60 % 60) ++
    if n % 60 = 0 then "" else ":" ++ padded 2 (n % 60)

def Moment.display (t : Moment) : String :=
  t.date.display ++ " " ++ padded 2 t.hour ++ ":" ++ padded 2 t.minute ++ ":" ++ padded 2 t.second
    ++ (if t.microsecond = 0 then "" else "." ++ padded 6 t.microsecond)
    ++ (t.zone.map zoneDisplay).getD ""

/-- A date inside a list or mapping. -/
def Date.quoted (d : Date) : String :=
  "datetime.date(" ++ ", ".intercalate ([d.year, d.month, d.day].map toString) ++ ")"

def zoneQuoted (seconds : Int) : String :=
  if seconds = 0 then "datetime.timezone.utc"
  else if seconds < 0 then
    "datetime.timezone(datetime.timedelta(days=-1, seconds=" ++ toString (seconds + 86400) ++ "))"
  else "datetime.timezone(datetime.timedelta(seconds=" ++ toString seconds ++ "))"

/-- A point of time inside a list or mapping. Seconds and microseconds that are zero are left out
when nothing but zeros follows. -/
def Moment.quoted (t : Moment) : String :=
  let fields := [t.date.year, t.date.month, t.date.day, t.hour, t.minute] ++
    (if t.second = 0 ∧ t.microsecond = 0 then [] else [t.second]) ++
    (if t.microsecond = 0 then [] else [t.microsecond])
  let zone := (t.zone.map fun z => "tzinfo=" ++ zoneQuoted z).toList
  "datetime.datetime(" ++ ", ".intercalate (fields.map toString ++ zone) ++ ")"

namespace Datum

mutual

/-- A value inside a list or mapping. -/
def quoted : Datum → String
  | null => "None"
  | bool true => "True"
  | bool false => "False"
  | int n => toString n
  | float d => d.text
  | text s => Text.quoted s
  | list items => "[" ++ ", ".intercalate (quotedItems items) ++ "]"
  | map entries => "\x7b" ++ ", ".intercalate (quotedEntries entries) ++ "\x7d"
  | date d => d.quoted
  | moment t => t.quoted
  | bytes bs => Text.quotedBytes bs
  | tuple [x] => "(" ++ x.quoted ++ ",)"
  | tuple items => "(" ++ ", ".intercalate (quotedItems items) ++ ")"
  | set [] => "set()"
  | set [list []] => "[...]"
  | set [map []] => "\x7b...\x7d"
  | set items => "\x7b" ++ ", ".intercalate (quotedItems items) ++ "\x7d"

def quotedItems : List Datum → List String
  | [] => []
  | x :: xs => x.quoted :: quotedItems xs

def quotedEntries : List (Datum × Datum) → List String
  | [] => []
  | (k, v) :: rest => (k.quoted ++ ": " ++ v.quoted) :: quotedEntries rest

end

mutual

/-- Whether a value cannot be shown, since an integer in it has too many digits. -/
def isHuge : Datum → Bool
  | int n => InlineQuery.isHuge n
  | list items | tuple items | set items => areHuge items
  | map entries => entriesAreHuge entries
  | _ => false

def areHuge : List Datum → Bool
  | [] => false
  | x :: xs => x.isHuge || areHuge xs

def entriesAreHuge : List (Datum × Datum) → Bool
  | [] => false
  | (k, v) :: rest => k.isHuge || v.isHuge || entriesAreHuge rest

end

/-- A value on its own. -/
def display : Datum → String
  | text s => s
  | date d => d.display
  | moment t => t.display
  | value => value.quoted

/-- The name of a value's type in messages. -/
def typeName : Datum → String
  | null => "NoneType"
  | bool _ => "bool"
  | int _ => "int"
  | float _ => "float"
  | text _ => "str"
  | list _ => "list"
  | map _ => "dict"
  | date _ => "date"
  | moment _ => "datetime"
  | bytes _ => "bytes"
  | tuple _ => "tuple"
  | set _ => "set"

end Datum
end InlineQuery
