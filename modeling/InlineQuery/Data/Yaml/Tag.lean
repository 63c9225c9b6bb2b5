import InlineQuery.Data.Yaml.Timestamp

/-!
Tags, which tell what a scalar or collection is. A plain scalar without a tag is what its form
says.
-/

namespace InlineQuery.Yaml

inductive Tag where
  | null
  | bool
  | int
  | float
  | binary
  | timestamp
  | omap
  | pairs
  | set
  | str
  | seq
  | map
  | merge
  | value
  | unknown
  deriving DecidableEq, Repr, Inhabited

namespace Tag

/-- Whether the values of a kind are collections. -/
def isCollection (tag : Tag) : Bool := [Tag.seq, .map, .set, .omap, .pairs].contains tag

/-- How the standard tags start. -/
def standard : String := "tag:yaml.org,2002:"

def standardNames : List (String × Tag) :=
  [("null", null), ("bool", bool), ("int", int), ("float", float), ("binary", binary),
   ("timestamp", timestamp), ("omap", omap), ("pairs", pairs), ("set", set), ("str", str),
   ("seq", seq), ("map", map), ("merge", merge), ("value", value)]

def ofName (name : String) : Tag :=
  ((standardNames.find? fun (n, _) => standard ++ n == name).map (·.2)).getD unknown

/-- The truth value of each word for one. -/
def truthWords : List (String × Bool) :=
  [("yes", true), ("no", false), ("true", true), ("false", false), ("on", true), ("off", false)]

/-- A word is written in small letters, in capitals, or with a capital first. -/
def spellings (word : String) : List String :=
  [word, word.capitalize, word.toUpper]

def isTruthWord (s : String) : Bool := truthWords.any fun (w, _) => (spellings w).contains s

def isNullWord (s : String) : Bool := s == "~" || s == "" || (spellings "null").contains s

def dropSign (cs : List Char) : List Char :=
  match cs with
  | '+' :: r | '-' :: r => r
  | _ => cs

/-- Whether a text is a decimal digit followed by digits and underscores. -/
def isGrouped (cs : List Char) : Bool :=
  (cs.head?.map Char.isDigit).getD false && cs.all fun c => c.isDigit || c == '_'

def isSixtieth (cs : List Char) : Bool :=
  match cs with
  | [a] => a.isDigit
  | [a, b] => '0' ≤ a && a ≤ '5' && b.isDigit
  | _ => false

/-- The parts of a text between its colons. -/
def colonParts : List Char → List (List Char)
  | [] => [[]]
  | c :: r =>
    if c == ':' then [] :: colonParts r
    else match colonParts r with
      | part :: parts => (c :: part) :: parts
      | [] => [[c]]

/-- A first part in the base of sixty and at least one digit pair after it. -/
def isSexagesimal (isFirst : List Char → Bool) (cs : List Char) : Bool :=
  match colonParts cs with
  | first :: rest => isFirst first && !rest.isEmpty && rest.all isSixtieth
  | [] => false

def isHexDigit (c : Char) : Bool :=
  c.isDigit || ('a' ≤ c && c ≤ 'f') || ('A' ≤ c && c ≤ 'F')

def isCounting (cs : List Char) : Bool := isGrouped cs && cs.head? != some '0'

/-- Whether a text has the form of an integer: binary, octal, hexadecimal, decimal, or in the base
of sixty. -/
def isIntForm (cs : List Char) : Bool :=
  let some_ (f : Char → Bool) (cs : List Char) : Bool :=
    !cs.isEmpty && cs.all fun c => f c || c == '_'
  match dropSign cs with
  | ['0'] => true
  | '0' :: 'b' :: r => some_ (fun c => c == '0' || c == '1') r
  | '0' :: 'x' :: r => some_ isHexDigit r
  | '0' :: r => some_ (fun c => '0' ≤ c && c ≤ '7') r
  | body => isCounting body || isSexagesimal isCounting body

/-- Digits and underscores, then perhaps an exponent with a sign. -/
def isFraction (cs : List Char) : Bool :=
  match cs.dropWhile fun c => c.isDigit || c == '_' with
  | [] => true
  | e :: sign :: r =>
    (e == 'e' || e == 'E') && (sign == '+' || sign == '-') && !r.isEmpty && r.all Char.isDigit
  | _ => false

/-- Whether a text has the form of a number with a point. -/
def isFloatForm (cs : List Char) : Bool :=
  let body := dropSign cs
  let isWord (words : List String) (cs : List Char) : Bool := words.any fun w => w.toList == cs
  match body with
  | '.' :: r =>
    isWord ["inf", "Inf", "INF"] r ||
      (body == cs && (isWord ["nan", "NaN", "NAN"] r ||
        ((r.head?.map Char.isDigit).getD false && isFraction r)))
  | _ =>
    let whole := body.takeWhile (· ≠ '.')
    match body.dropWhile (· ≠ '.') with
    | [] => false
    | _ :: r =>
      (isGrouped whole && isFraction r) ||
        (isSexagesimal isGrouped whole && r.all fun c => c.isDigit || c == '_')

/-- What a plain scalar without a tag is. A line feed behind its text does not count, but one alone
is a text. -/
def ofPlain (text : String) : Tag :=
  let cs := Timestamp.withoutLineEnd text.toList
  let text := String.ofList cs
  if isNullWord text then null
  else if isTruthWord text then bool
  else if isIntForm cs then int
  else if isFloatForm cs then float
  else if Timestamp.isPlainForm cs then timestamp
  else if text == "<<" then merge
  else if text == "=" then value
  else str

end Tag
end InlineQuery.Yaml
