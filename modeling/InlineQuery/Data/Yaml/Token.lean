import InlineQuery.Data.Digits
import InlineQuery.Data.Yaml.Scalar
import InlineQuery.Text.Utf8

/-!
The tokens of YAML and the words among them: names of anchors, tags and directives.
-/

namespace InlineQuery.Yaml

inductive Token where
  | version (major : Int)
  | tagHandle (handle pre : String)
  | otherDirective
  | documentStart
  | documentEnd
  | blockSequenceStart
  | blockMappingStart
  | blockEnd
  | flowSequenceStart
  | flowSequenceEnd
  | flowMappingStart
  | flowMappingEnd
  | blockEntry
  | flowEntry
  | key
  | value
  | alias (name : String)
  | anchor (name : String)
  | tag (handle : Option String) (suffix : String)
  | scalar (text : String) (isPlain : Bool)
  deriving DecidableEq, Repr, Inhabited

namespace Token

def isNameChar (c : Char) : Bool := c.isAlphanum || c == '-' || c == '_'

/-- The characters that may follow the name of an anchor besides spacing. -/
def endsName (c : Char) : Bool :=
  isSpacing c || ['?', ':', ',', ']', '\x7d', '%', '@', '\x60'].contains c

/-- Reads a name after the mark of an anchor or alias. -/
def anchorName (p : Place) : Except Fault (String × Place) := do
  let (name, p) := p.span isNameChar
  if name.isEmpty || !(p.peek?.map endsName).getD true then throw .malformed
  return (String.ofList name, p)

def isUriChar (c : Char) : Bool :=
  c.isAlphanum || ("-;/?:@&=+$,_.!~*'()[]%".toList).contains c

/-- The bytes that percent signs with two hexadecimal digits each denote. -/
def percentBytes : Nat → Place → Except Fault (List UInt8 × Place)
  | 0, p => .ok ([], p)
  | fuel + 1, p =>
    if p.peek? = some '%' then do
      let some n := Scalar.hexNumber? 2 (p.rest.drop 1) | throw .malformed
      let (more, p) ← percentBytes fuel (p.skip 3)
      return (n.toUInt8 :: more, p)
    else .ok ([], p)

/-- Reads the characters of a tag. Runs of percent signs denote the bytes of characters. -/
def uriText : Nat → Place → Except Fault (List Char × Place)
  | 0, p => .ok ([], p)
  | fuel + 1, p =>
    match p.peek? with
    | none => .ok ([], p)
    | some c =>
      if c == '%' then do
        let (bytes, p) ← percentBytes p.rest.length p
        let cs ← (Text.decodeUtf8 bytes).mapError fun _ => Fault.malformed
        let (more, p) ← uriText fuel p
        return (cs ++ more, p)
      else if isUriChar c then (uriText fuel p.next).map fun (more, p) => (c :: more, p)
      else .ok ([], p)

def uri (p : Place) : Except Fault (String × Place) := do
  let (text, next) ← uriText p.rest.length p
  if next.index = p.index then throw .malformed
  return (String.ofList text, next)

/-- Reads the handle of a tag: an exclamation mark, or a name between two of them. -/
def handle (p : Place) : Except Fault (String × Place) := do
  if p.peek? ≠ some '!' then throw .malformed
  let p := p.next
  if p.peek? = some ' ' then return ("!", p)
  let (name, p) := p.span isNameChar
  if p.peek? ≠ some '!' then throw .malformed
  return ("!" ++ String.ofList name ++ "!", p.next)

/-- Reads a tag from its exclamation mark on. -/
def tagToken (p : Place) : Except Fault (Token × Place) := do
  let word := (p.rest.drop 1).takeWhile fun c => c ≠ ' ' && !isBreak c
  let (token, p) ←
    if word.head? = some '<' then do
      let (suffix, p) ← uri (p.skip 2)
      if p.peek? ≠ some '>' then throw .malformed
      pure (Token.tag none suffix, p.next)
    else if word.isEmpty || word.head? = some '\t' then
      pure (Token.tag none "!", p.next)
    else do
      let (handle, p) ← if word.contains '!' then handle p else pure ("!", p.next)
      let (suffix, p) ← uri p
      pure (Token.tag (some handle) suffix, p)
  if p.atWordEnd then return (token, p) else throw .malformed

/-- Reads digits as a number. -/
def number (p : Place) : Except Fault (Int × Place) := do
  let (digits, p) := p.span Char.isDigit
  if digits.isEmpty then throw .malformed
  match integerOf digits with
  | .ok n => return (n, p)
  | .error e => throw (.value (.value e.message))

/-- Reads a directive from its percent sign on. -/
def directive (p : Place) : Except Fault (Token × Place) := do
  let (name, p) := p.next.span isNameChar
  if name.isEmpty || !p.atWordEnd then throw .malformed
  let (token, p) ← match String.ofList name with
    | "YAML" => do
      let (major, p) ← number p.skipSpaces
      if p.peek? ≠ some '.' then throw Fault.malformed
      let (_, p) ← number p.next
      if !p.atWordEnd then throw Fault.malformed
      pure (Token.version major, p)
    | "TAG" => do
      let (handle, p) ← handle p.skipSpaces
      if p.peek? ≠ some ' ' then throw Fault.malformed
      let (text, p) ← uri p.skipSpaces
      if !p.atWordEnd then throw Fault.malformed
      pure (Token.tagHandle handle text, p)
    | _ => pure (Token.otherDirective, (p.span fun c => !isBreak c).2)
  let some p := p.emptyLine? | throw .malformed
  return (token, p)

end Token
end InlineQuery.Yaml
