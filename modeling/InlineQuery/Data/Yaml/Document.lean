import InlineQuery.Data.Base64
import InlineQuery.Data.Display
import InlineQuery.Data.Yaml.Node
import InlineQuery.Text.Space

/-!
The values of documents. The collections of a document are built one depth after the other, so of
several faults the one nearest to the root counts.
-/

namespace InlineQuery.Yaml

/-- A fault and how deep it lies. -/
structure DeepFault where
  depth : Nat
  fault : Fault
  deriving DecidableEq, Repr, Inhabited

abbrev Built := Except DeepFault

namespace Built

def malformed {α : Type} (depth : Nat) : Built α := .error ⟨depth, .malformed⟩

/-- Two parts, or the fault that lies less deep. -/
def both {α β : Type} : Built α → Built β → Built (α × β)
  | .ok a, .ok b => .ok (a, b)
  | .ok _, .error e => .error e
  | .error e, .ok _ => .error e
  | .error e, .error f => .error (if f.depth < e.depth then f else e)

end Built

namespace Node

mutual

/-- The text of a scalar, or of the value that a mapping gives itself. Looking for it in a mapping
that gives itself as its value does not end. -/
def text : Node → Except Fault String
  | scalar _ text => .ok text
  | mapping _ entries => entriesText entries
  | sequence .. => .error .malformed
  | again .. => .error (.value .endless)

def entriesText : List (Node × Node) → Except Fault String
  | [] => .error .malformed
  | (k, v) :: rest => if k.tag = .value then v.text else entriesText rest

end

end Node

namespace Scalar

def withoutUnderscores (text : String) : List Char := text.toList.filter (· != '_')

/-- A text without its sign, and whether that is a minus. -/
def unsigned (cs : List Char) : Except Fault (Bool × List Char) :=
  match cs with
  | [] => .error (.value { kind := .index, message := "string index out of range" })
  | c :: r => .ok (c == '-', if c == '-' || c == '+' then r else cs)

def digitValue (c : Char) : Nat := (hexValue? c).getD 16

def isPadding (c : Char) : Bool := c == ' ' || ('\t' ≤ c && c ≤ '\r')

/-- A text as numbers are read, without the blanks around it. -/
def numeral (shown : List Char) : List Char :=
  let cs := (shown.map numeralChar).dropWhile isPadding
  (cs.reverse.dropWhile isPadding).reverse

/-- A text between blanks: whether it has a minus, and what follows its sign. -/
def signedBody (shown : List Char) : Bool × List Char :=
  match numeral shown with
  | '-' :: r => (true, r)
  | '+' :: r => (false, r)
  | cs => (false, cs)

def noInteger (base : Nat) (shown : List Char) : Fault :=
  .value (.value ("invalid literal for int() with base " ++ toString base ++ ": " ++
    String.ofList ((Text.quoted (String.ofList shown)).toList.take 200)))

/-- Digits without the mark of their base. -/
def withoutMark (base : Nat) (digits : List Char) : List Char :=
  match digits with
  | '0' :: c :: r =>
    if (base == 2 && (c == 'b' || c == 'B')) || (base == 8 && (c == 'o' || c == 'O')) ||
      (base == 16 && (c == 'x' || c == 'X')) then r else digits
  | _ => digits

/-- The number of a text in a base that is a power of two. -/
def inBase (base : Nat) (shown : List Char) : Except Fault Int :=
  let (negative, body) := signedBody shown
  let digits := withoutMark base body
  if digits.isEmpty || !digits.all fun c => digitValue c < base then .error (noInteger base shown)
  else
    let n : Nat := digits.foldl (fun n c => n * base + digitValue c) 0
    .ok (if negative then -n else n)

def decimal (shown : List Char) : Except Fault Int :=
  let (negative, digits) := signedBody shown
  if digits.isEmpty || !digits.all Char.isDigit then .error (noInteger 10 shown)
  else ((integerOf digits).mapError fun e => .value (.value e.message)).map fun n =>
    if negative then -n else n

/-- The number whose parts in the base of sixty are given, the least one last. -/
def sexagesimal (parts : List Int) : Int := parts.foldl (fun n d => n * 60 + d) 0

/-- The integer of a text: binary after `0b`, hexadecimal after `0x`, octal after any other zero, in
the base of sixty between colons, else decimal. -/
def integer (text : String) : Except Fault Int := do
  let (negative, body) ← unsigned (withoutUnderscores text)
  let n ← match body with
    | ['0'] => pure 0
    | '0' :: 'b' :: r => inBase 2 r
    | '0' :: 'x' :: r => inBase 16 r
    | '0' :: _ => inBase 8 body
    | [] => throw (.value { kind := .index, message := "string index out of range" })
    | _ =>
      if body.contains ':' then pure (sexagesimal (← (Tag.colonParts body).mapM decimal))
      else decimal body
  return if negative then -n else n

/-- Whether a text is a number: digits with at most one point among them and perhaps an exponent. -/
def isNumber (cs : List Char) : Bool :=
  let whole := cs.takeWhile Char.isDigit
  let rest := cs.drop whole.length
  let fraction := match rest with
    | '.' :: r => r.takeWhile Char.isDigit
    | _ => []
  let rest := match rest with
    | '.' :: r => r.drop fraction.length
    | _ => rest
  let exponentOk := match rest with
    | [] => true
    | 'e' :: r => let r := Tag.dropSign r; !r.isEmpty && r.all Char.isDigit
    | _ => false
  !(whole ++ fraction).isEmpty && exponentOk

/-- The number of a text between white space. -/
def number (shown : List Char) : Except Fault Double :=
  let (negative, body) := signedBody shown
  let size? : Option Double :=
    match String.ofList body with
    | "inf" | "infinity" => some (Double.infinite false)
    | "nan" => some Double.nan
    | _ => if isNumber body then some (doubleOf body) else none
  match size? with
  | some x => .ok (if negative then x.neg else x)
  | none => .error (.value (.value
      ("could not convert string to float: " ++ Text.quoted (String.ofList shown))))

/-- What a part in the base of sixty counts there, unless no floating point number is as large. -/
def sixtieths (place : Nat) : Except Fault Double :=
  match Double.ofInt (Nat.pow 60 place) with
  | .infinite _ => .error (.value {
      kind := .overflow, message := "int too large to convert to float" })
  | x => .ok x

/-- The sum of numbers, each counting sixty times the one after it. -/
def sexagesimalSum (parts : List Double) : Except Fault Double :=
  parts.reverse.zipIdx.foldlM (fun sum (d, place) => do
    return Double.add sum (Double.mul d (← sixtieths place))) (Double.zero false)

/-- The floating point number of a text. -/
def float (text : String) : Except Fault Double := do
  let (negative, body) ← unsigned ((withoutUnderscores text).map Char.toLower)
  let x ← match String.ofList body with
    | ".inf" => pure (Double.infinite false)
    | ".nan" => pure Double.nan
    | _ =>
      if body.contains ':' then
        sexagesimalSum (← (Tag.colonParts body).mapM number)
      else number body
  return if negative then x.neg else x

end Scalar

/-- The value of a scalar of a kind. -/
def scalarDatum (tag : Tag) (text : String) : Except Fault Datum :=
  match tag with
  | .null => .ok .null
  | .bool =>
    match Assoc.get? Tag.truthWords text.toLower with
    | some b => .ok (.bool b)
    | none => .error (.value { kind := .key, message := text.toLower })
  | .int => (Scalar.integer text).map .int
  | .float => (Scalar.float text).map .float
  | .binary =>
    match Base64.decode? text.toList with
    | some bytes => if text.toList.all fun c => c.toNat < 128 then .ok (.bytes bytes)
        else .error .malformed
    | none => .error .malformed
  | .timestamp =>
    match Timestamp.ofText? text.toList with
    | some t => t.datum.mapError .value
    | none => .error (.value {
        kind := .missingMember, message := "'NoneType' object has no attribute 'groupdict'" })
  | .str => .ok (.text text)
  | _ => .error .malformed

/-- The value of a mapping of a kind of scalars, whose text is that of the value that it gives itself.
A date is looked for in the mapping itself, which is no text. -/
def namedDatum (tag : Tag) (entries : List (Node × Node)) : Except Fault Datum :=
  match tag with
  | .merge | .value | .unknown => .error .malformed
  | _ => do
    let text ← Node.entriesText entries
    if tag = .timestamp then
      throw (.value { kind := .type, message := "expected string or bytes-like object, got 'list'" })
    scalarDatum tag text

namespace Node

mutual

/-- Whether a node can be merged into a mapping: it is a mapping or a list of mappings, and so is
what is merged into these. -/
def isMergeable : Node → Bool
  | scalar .. | again .. => false
  | mapping _ entries => areMergeable entries
  | sequence _ items => itemsAreMergeable items

def areMergeable : List (Node × Node) → Bool
  | [] => true
  | (k, v) :: rest => (k.tag != .merge || v.isMergeable) && areMergeable rest

def itemsAreMergeable : List Node → Bool
  | [] => true
  | mapping _ entries :: rest => areMergeable entries && itemsAreMergeable rest
  | _ :: _ => false

end

end Node

abbrev Pairs := List (Datum × Datum)

def Built.append (a b : Built Pairs) : Built Pairs := (a.both b).map fun (x, y) => x ++ y

def Built.cons (key value : Built Datum) (rest : Built Pairs) : Built Pairs :=
  ((key.both value).both rest).map fun (p, ps) => p :: ps

/-- A value at a depth. The collections of a document are built behind its scalars, so those that are
none fail one deeper. -/
def builtAt (depth : Nat) (tag : Tag) (value : Except Fault Datum) : Built Datum :=
  value.mapError fun fault => ⟨if tag.isCollection then depth + 1 else depth, fault⟩

/-- The value of a key. A collection is refused before its items are looked at, and the mark for a
value stands for its text. -/
def keyOf (depth : Nat) (k : Node) (value : Built Datum) : Built Datum :=
  if k.tag = .value then (k.text.map .text).mapError fun fault => ⟨depth, fault⟩
  else if k.tag.isCollection then Built.malformed depth
  else value

mutual

/-- The value of a node at a depth. -/
def build (depth : Nat) : Node → Built Datum
  | .again _ tag => .ok (.endless (tag != .map))
  | .scalar tag text => builtAt depth tag (scalarDatum tag text)
  | .sequence .seq items => (buildItems (depth + 1) items).map .list
  | .sequence .omap items | .sequence .pairs items =>
    (buildPairs (depth + 1) items).map fun ps => .list (ps.map fun (k, v) => .tuple [k, v])
  | .sequence tag _ => builtAt depth tag (.error .malformed)
  | .mapping tag entries =>
    let (merged, own) := buildEntries (depth + 1) entries
    let all := if Node.areMergeable entries then merged.append own else Built.malformed (depth + 1)
    match tag with
    | .map => all.map fun ps => .map (Assoc.ofList ps)
    | .set => all.map fun ps => .set ((Assoc.ofList ps).map (·.1))
    | .seq | .omap | .pairs => builtAt depth tag (.error .malformed)
    | _ => builtAt depth tag (namedDatum tag entries)

def buildItems (depth : Nat) : List Node → Built (List Datum)
  | [] => .ok []
  | n :: rest => ((build depth n).both (buildItems depth rest)).map fun (x, xs) => x :: xs

/-- The entries of a list of mappings with one entry each. -/
def buildPairs (depth : Nat) : List Node → Built Pairs
  | [] => .ok []
  | .mapping _ [(k, v)] :: rest => .cons (build depth k) (build depth v) (buildPairs depth rest)
  | _ :: _ => Built.malformed depth

/-- The entries that merge keys bring into a mapping, and its own ones. -/
def buildEntries (depth : Nat) : List (Node × Node) → Built Pairs × Built Pairs
  | [] => (.ok [], .ok [])
  | (k, v) :: rest =>
    let (merged, own) := buildEntries depth rest
    if k.tag = .merge then ((mergedBy depth v).append merged, own)
    else (merged, .cons (keyOf depth k (build depth k)) (build depth v) own)

/-- The entries that a mapping brings into the one that merges it. Of a list of mappings an earlier
one counts more, so it comes later. -/
def mergedBy (depth : Nat) : Node → Built Pairs
  | .scalar .. | .again .. => Built.malformed depth
  | .mapping _ entries =>
    let (merged, own) := buildEntries depth entries
    merged.append own
  | .sequence _ items => mergedItems depth items

def mergedItems (depth : Nat) : List Node → Built Pairs
  | [] => .ok []
  | .mapping _ entries :: rest =>
    let (merged, own) := buildEntries depth entries
    (mergedItems depth rest).append (merged.append own)
  | _ :: _ => Built.malformed depth

end

/-- The value of the document that a text holds; nothing is null. -/
def read (text : List Char) : Except Fault Datum := do
  match ← compose text with
  | none => return .null
  | some root => (build 0 root).mapError (·.fault)

end InlineQuery.Yaml
