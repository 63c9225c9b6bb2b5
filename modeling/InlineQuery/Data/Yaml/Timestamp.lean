import InlineQuery.Data.Datum
import InlineQuery.Data.Digits
import InlineQuery.Failure

/-!
Dates and points of time. The form of a text and whether its numbers name a real day are two
questions: the second has failures of its own.
-/

namespace InlineQuery.Yaml

/-- The time of day in a timestamp. The zone is a sign, hours and minutes. -/
structure Clock where
  hour : Nat
  minute : Nat
  second : Nat
  fraction : List Char
  zone : Option (Bool × Nat × Nat)
  deriving DecidableEq, Repr, Inhabited

/-- The numbers of a timestamp. -/
structure Timestamp where
  date : Date
  clock : Option Clock
  deriving DecidableEq, Repr, Inhabited

namespace Timestamp

/-- Reads between `least` and `most` digits, as many as there are. -/
def digits? (least most : Nat) (cs : List Char) : Option (Nat × List Char) :=
  let run := (cs.take most).takeWhile Char.isDigit
  if run.length < least then none else some (naturalOf run, cs.drop run.length)

/-- Reads a character that must come next. -/
def mark? (c : Char) (cs : List Char) : Option (List Char) :=
  if cs.head? = some c then some (cs.drop 1) else none

def dropBlanks (cs : List Char) : List Char := cs.dropWhile fun c => c == ' ' || c == '\t'

/-- Reads the rest of a text as a zone, which may be missing. -/
def zone? (cs : List Char) : Option (Option (Bool × Nat × Nat)) :=
  if cs.isEmpty then some none
  else match dropBlanks cs with
    | ['Z'] => some (some (false, 0, 0))
    | c :: r =>
      if c == '+' || c == '-' then do
        let (hours, r) ← digits? 1 2 r
        if r.isEmpty then return some (c == '-', hours, 0)
        let (minutes, r) ← digits? 2 2 (← mark? ':' r)
        if r.isEmpty then return some (c == '-', hours, minutes) else none
      else none
    | [] => none

def clock? (cs : List Char) : Option Clock := do
  let (hour, cs) ← digits? 1 2 cs
  let (minute, cs) ← digits? 2 2 (← mark? ':' cs)
  let (second, cs) ← digits? 2 2 (← mark? ':' cs)
  let (fraction, cs) := match cs with
    | '.' :: r => (r.takeWhile Char.isDigit, r.dropWhile Char.isDigit)
    | _ => ([], cs)
  return { hour, minute, second, fraction, zone := ← zone? cs }

/-- The timestamp that a whole text is. Between date and time stand blanks or the letter T. -/
def ofLine? (cs : List Char) : Option Timestamp := do
  let (year, cs) ← digits? 4 4 cs
  let (month, cs) ← digits? 1 2 (← mark? '-' cs)
  let (day, cs) ← digits? 1 2 (← mark? '-' cs)
  let date : Date := ⟨year, month, day⟩
  match cs with
  | [] => return ⟨date, none⟩
  | c :: r =>
    let afterGap := if c == 'T' || c == 't' then some r
      else if c == ' ' || c == '\t' then some (dropBlanks r) else none
    return ⟨date, some (← clock? (← afterGap))⟩

/-- A text without the one line feed that may end its last line. A line feed alone stays. -/
def withoutLineEnd : List Char → List Char
  | [c, '\n'] => [c]
  | c :: r => c :: withoutLineEnd r
  | [] => []

/-- The timestamp of a scalar, behind which one line feed may stand. -/
def ofText? (cs : List Char) : Option Timestamp := ofLine? (withoutLineEnd cs)

/-- Whether a plain scalar is a timestamp. A date alone has all its digits. -/
def isPlainForm (cs : List Char) : Bool :=
  match ofLine? cs with
  | none => false
  | some t => t.clock.isSome || cs.length = 10

def isLeap (year : Nat) : Bool := year % 4 = 0 && (year % 100 ≠ 0 || year % 400 = 0)

def daysIn (year month : Nat) : Nat :=
  if month = 2 then if isLeap year then 29 else 28
  else if [4, 6, 9, 11].contains month then 30 else 31

def dateFlaw? (d : Date) : Option String :=
  if d.year = 0 then some ("year " ++ toString d.year ++ " is out of range")
  else if d.month = 0 ∨ 12 < d.month then some "month must be in 1..12"
  else if d.day = 0 ∨ daysIn d.year d.month < d.day then some "day is out of range for month"
  else none

def clockFlaw? (c : Clock) : Option String :=
  if 23 < c.hour then some "hour must be in 0..23"
  else if 59 < c.minute then some "minute must be in 0..59"
  else if 59 < c.second then some "second must be in 0..59"
  else none

/-- A span of time in seconds as messages show it: whole days, rounded down, and seconds. -/
def spanText (seconds : Int) : String :=
  let days := Int.fdiv seconds 86400
  let rest := Int.fmod seconds 86400
  let fields := (if days = 0 then [] else ["days=" ++ toString days]) ++
    (if rest = 0 then [] else ["seconds=" ++ toString rest])
  "datetime.timedelta(" ++ (if fields.isEmpty then "0" else ", ".intercalate fields) ++ ")"

def zoneFlaw? (seconds : Int) : Option String :=
  if seconds.natAbs < 86400 then none
  else some ("offset must be a timedelta strictly between -timedelta(hours=24) and " ++
    "timedelta(hours=24), not " ++ spanText seconds ++ ".")

def zoneSeconds (zone : Bool × Nat × Nat) : Int :=
  let (negative, hours, minutes) := zone
  (if negative then -1 else 1) * (hours * 3600 + minutes * 60 : Nat)

/-- The microseconds that the digits after a decimal point denote; only six of them count. -/
def microseconds (fraction : List Char) : Nat :=
  let digits := fraction.take 6
  naturalOf (digits ++ List.replicate (6 - digits.length) '0')

/-- The value of a timestamp, or why there is no such day or time. -/
def datum (t : Timestamp) : Except Failure Datum :=
  let refuse (flaw : Option String) : Except Failure Unit :=
    match flaw with
    | some message => .error (.value message)
    | none => .ok ()
  match t.clock with
  | none => do
    refuse (dateFlaw? t.date)
    return .date t.date
  | some c => do
    let zone := c.zone.map zoneSeconds
    refuse (zone.bind zoneFlaw?)
    refuse (dateFlaw? t.date)
    refuse (clockFlaw? c)
    return .moment ⟨t.date, c.hour, c.minute, c.second, microseconds c.fraction, zone⟩

end Timestamp
end InlineQuery.Yaml
