import InlineQuery.Text.Emoji
import InlineQuery.Text.Space

/-!
Markup of messages. A tag such as `[red]` styles what follows until `[/red]` or `[/]`; here only the
text counts, without the tags. A backslash keeps a tag as text, and a name between colons stands for
an emoji.
-/

namespace InlineQuery.Text.Markup

/-- Why a text is no markup: a closing tag that closes nothing. -/
inductive Fault where
  | unopened (tag : String) (position : Nat)
  | nothingOpen (position : Nat)
  deriving DecidableEq, Repr, Inhabited

def Fault.message : Fault → String
  | unopened tag position =>
    "closing tag '" ++ tag ++ "' at position " ++ toString position ++
      " doesn't match any open tag"
  | nothingOpen position =>
    "closing tag '[/]' at position " ++ toString position ++ " has nothing to close"

/-- A tag in a text: how many backslashes stand before it, and what stands between its brackets. -/
structure Tag where
  backslashes : Nat
  inner : List Char
  deriving DecidableEq, Repr, Inhabited

namespace Tag

def startsTag (c : Char) : Bool := ('a' ≤ c && c ≤ 'z') || c == '#' || c == '/' || c == '@'

def length (t : Tag) : Nat := t.backslashes + t.inner.length + 2

/-- A tag that a text starts with. Its brackets hold no other bracket. -/
def read? (cs : List Char) : Option Tag :=
  let backslashes := (cs.takeWhile (· == '\\')).length
  match cs.drop backslashes with
  | '[' :: c :: r =>
    let inner := r.takeWhile fun d => d != '[' && d != ']'
    match r.drop inner.length with
    | ']' :: _ => if startsTag c then some ⟨backslashes, c :: inner⟩ else none
    | _ => none
  | _ => none

/-- What stands before the equals sign. -/
def name (t : Tag) : List Char := t.inner.takeWhile (· != '=')

def text (t : Tag) : List Char := '[' :: t.inner ++ [']']

end Tag

/-- A text so that it shows as it is. -/
def escapeFrom (skip : Nat) : List Char → List Char
  | [] => []
  | c :: r =>
    match skip with
    | k + 1 => escapeFrom k r
    | 0 =>
      match Tag.read? (c :: r) with
      | some t =>
        List.replicate (2 * t.backslashes + 1) '\\' ++ t.text ++ escapeFrom (t.length - 1) r
      | none => c :: escapeFrom 0 r

/-- A single backslash at the end is written twice. -/
def escape (s : String) : String :=
  let escaped := escapeFrom 0 s.toList
  let ending := (escaped.reverse.takeWhile (· == '\\')).length
  String.ofList (if ending = 1 then escaped ++ ['\\'] else escaped)

/-- A piece of markup: text, or a tag with its position. -/
inductive Piece where
  | text (cs : List Char)
  | tag (t : Tag) (position : Nat)
  deriving DecidableEq, Repr, Inhabited

/-- The text that was read before a tag. -/
def flush (before : List Char) : List Piece :=
  if before.isEmpty then [] else [.text before.reverse]

/-- The pieces that a tag stands for: half of its backslashes, and the tag, which an odd one makes
text. -/
def tagPieces (t : Tag) (position : Nat) : List Piece :=
  let shown := t.backslashes / 2
  (if shown = 0 then [] else [.text (List.replicate shown '\\')]) ++
    if t.backslashes % 2 = 1 then [.text t.text] else [.tag t (position + 2 * shown)]

def piecesFrom (before : List Char) (position skip : Nat) : List Char → List Piece
  | [] => flush before
  | c :: r =>
    match skip with
    | k + 1 => piecesFrom before (position + 1) k r
    | 0 =>
      match Tag.read? (c :: r) with
      | some t =>
        flush before ++ tagPieces t position ++ piecesFrom [] (position + 1) (t.length - 1) r
      | none => piecesFrom (c :: before) (position + 1) 0 r

/-- What a name between colons shows: an emoji, if need be in its coloured or its plain form. -/
def emoji? (body : List Char) : Option (List Char) :=
  let variant (suffix : String) (mark : Char) : Option (List Char × List Char) :=
    if suffix.toList.isSuffixOf body then
      some (body.take (body.length - suffix.length), [mark])
    else none
  let (name, mark) :=
    (variant "-emoji" '\uFE0F' <|> variant "-text" '\uFE0E').getD (body, [])
  (Emoji.ofName? (name.map Char.toLower)).map (· ++ mark)

/-- Replaces the names of emoji. Text between colons that is no such name stays. -/
def replaceEmoji (skip : Nat) : List Char → List Char
  | [] => []
  | c :: r =>
    match skip with
    | k + 1 => replaceEmoji k r
    | 0 =>
      if c != ':' then c :: replaceEmoji 0 r
      else
        let body := r.takeWhile fun d => d != ':' && !isSpace d
        match r.drop body.length with
        | ':' :: _ =>
          (emoji? body).getD (':' :: body ++ [':']) ++ replaceEmoji (body.length + 1) r
        | _ => c :: replaceEmoji 0 r

/-- Text without the backslashes before opening brackets. -/
def unescape : List Char → List Char
  | '\\' :: '[' :: r => '[' :: unescape r
  | c :: r => c :: unescape r
  | [] => []

/-- The short names of styles. -/
def styleNames : List (String × String) :=
  [("b", "bold"), ("d", "dim"), ("i", "italic"), ("u", "underline"), ("r", "reverse"),
    ("c", "conceal"), ("s", "strike"), ("uu", "underline2"), ("o", "overline")]

/-- A style by its full name. -/
def styleName (name : List Char) : String :=
  let plain := String.ofList ((trim name).map Char.toLower)
  ((styleNames.find? fun e => e.1 == plain).map (·.2)).getD plain

/-- The styles that are open behind a tag. -/
def applyTag (opened : List String) (t : Tag) (position : Nat) : Except Fault (List String) :=
  match t.name with
  | '/' :: closed =>
    if (trim closed).isEmpty then
      match opened with
      | [] => .error (.nothingOpen position)
      | _ :: rest => .ok rest
    else if opened.contains (styleName closed) then .ok (opened.erase (styleName closed))
    else .error (.unopened (String.ofList t.text) position)
  | name => .ok (styleName name :: opened)

def renderPieces (opened : List String) : List Piece → Except Fault (List Char)
  | [] => .ok []
  | .text cs :: rest => do
    return replaceEmoji 0 (unescape cs) ++ (← renderPieces opened rest)
  | .tag t position :: rest => do
    renderPieces (← applyTag opened t position) rest

/-- Characters that are not shown. -/
def isHidden (c : Char) : Bool := [7, 8, 11, 12, 13].contains c.toNat

/-- The text that markup shows. -/
def render (markup : List Char) : Except Fault (List Char) := do
  return (← renderPieces [] (piecesFrom [] 0 0 markup)).filter fun c => !isHidden c

end InlineQuery.Text.Markup
