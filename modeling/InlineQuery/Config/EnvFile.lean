import InlineQuery.Config.EnvTemplate
import InlineQuery.Text.Utf8

/-!
Environment files: one binding a line, a value plain or quoted. A line that is no binding is passed
over. Values may refer to the process environment and to the bindings above them.
-/

namespace InlineQuery.EnvFile

/-- White space within a line. -/
def isInlineSpace (c : Char) : Bool := Text.isSpace c && c != '\n' && c != '\r'

def skipInline (cs : List Char) : List Char := cs.dropWhile isInlineSpace

/-- The text after the next line feed. -/
def nextLine (cs : List Char) : List Char := (cs.dropWhile (· ≠ '\n')).drop 1

/-- How many characters a quoted value takes up to its closing quote. A backslash protects the
character after it. -/
def quotedLength? (quote : Char) : List Char → Option Nat
  | [] => none
  | '\\' :: r =>
    match r with
    | [] => none
    | _ :: r => (quotedLength? quote r).map (· + 2)
  | c :: r => if c == quote then some 0 else (quotedLength? quote r).map (· + 1)

def singleEscape? : Char → Option Char
  | '\\' => some '\\'
  | '\'' => some '\''
  | _ => none

def doubleEscape? : Char → Option Char
  | '\\' => some '\\'
  | '\'' => some '\''
  | '"' => some '"'
  | 'a' => some '\x07'
  | 'b' => some '\x08'
  | 'f' => some '\x0c'
  | 'n' => some '\n'
  | 'r' => some '\r'
  | 't' => some '\t'
  | 'v' => some '\x0b'
  | _ => none

/-- Replaces the known escapes; a backslash before anything else stays. -/
def unescape (escape? : Char → Option Char) : List Char → List Char
  | '\\' :: c :: r =>
    match escape? c with
    | some value => value :: unescape escape? r
    | none => '\\' :: unescape escape? (c :: r)
  | c :: r => c :: unescape escape? r
  | [] => []

/-- Cuts a comment: white space followed by a hash. -/
def cutComment : List Char → List Char
  | [] => []
  | c :: r =>
    if Text.isSpace c && (Text.trimStart r).head? == some '#' then [] else c :: cutComment r

/-- The name of a binding and the text after it. -/
def key? (cs : List Char) : Option (List Char × List Char) :=
  match cs with
  | '\'' :: r =>
    let name := r.takeWhile (· ≠ '\'')
    let rest := r.dropWhile (· ≠ '\'')
    if name = [] ∨ rest = [] then none else some (name, rest.drop 1)
  | _ =>
    let isName (c : Char) : Bool := c != '=' && c != '#' && !Text.isSpace c
    let name := cs.takeWhile isName
    if name = [] then none else some (name, cs.dropWhile isName)

/-- The value after an equals sign and the text after it. -/
def value? (afterSign : List Char) : Option (List Char × List Char) :=
  let cs := skipInline afterSign
  let quotedBy (quote : Char) (escape? : Char → Option Char) (r : List Char) :=
    (quotedLength? quote r).map fun n => (unescape escape? (r.take n), r.drop (n + 1))
  match cs with
  | '\'' :: r => quotedBy '\'' singleEscape? r
  | '"' :: r => quotedBy '"' doubleEscape? r
  | _ =>
    let line := afterSign.takeWhile (· ≠ '\n')
    some (Text.trim (cutComment line), afterSign.dropWhile (· ≠ '\n'))

/-- The text after the end of a line on which at most a comment is left. -/
def endOfLine? (cs : List Char) : Option (List Char) :=
  let cs := skipInline cs
  let cs := if cs.head? = some '#' then cs.dropWhile (· ≠ '\n') else cs
  match cs with
  | [] => some []
  | '\n' :: r => some r
  | _ => none

/-- Removes the word that may precede a binding. -/
def afterExport (cs : List Char) : List Char :=
  let word := "export".toList
  if word.isPrefixOf cs && ((cs.drop word.length).head?.map isInlineSpace).getD false then
    skipInline (cs.drop word.length)
  else cs

/-- A name and its value; a line may hold a name alone. -/
abbrev Binding := List Char × Option (List Char)

/-- One line: its binding, if it is one, and the text after it. -/
def line (cs : List Char) : Option Binding × List Char :=
  let cs := afterExport (Text.trimStart cs)
  if cs.head? = some '#' then (none, nextLine cs)
  else match key? cs with
    | none => (none, nextLine cs)
    | some (name, rest) =>
      let rest := skipInline rest
      match rest with
      | '=' :: afterSign =>
        match value? afterSign with
        | none => (none, nextLine (skipInline afterSign))
        | some (value, rest) =>
          match endOfLine? rest with
          | some rest => (some (name, some value), rest)
          | none => (none, nextLine rest)
      | _ =>
        match endOfLine? rest with
        | some rest => (some (name, none), rest)
        | none => (none, nextLine rest)

/-- The bindings of a text in order. Every line takes a character, so the length of the text bounds
their number. -/
def bindingsFrom : Nat → List Char → List Binding
  | 0, _ => []
  | fuel + 1, cs =>
    if cs.isEmpty then []
    else
      let (binding, rest) := line cs
      binding.toList ++ bindingsFrom fuel rest

/-- A reference inside a value: its name, what stands for it when it is unknown, and the text after
it. -/
def reference? : List Char → Option (List Char × List Char × List Char)
  | '$' :: '{' :: inside =>
    let name := inside.takeWhile fun c => c ≠ '}' ∧ c ≠ ':'
    match inside.drop name.length with
    | '}' :: rest => some (name, [], rest)
    | ':' :: '-' :: more =>
      let fallback := more.takeWhile (· ≠ '}')
      match more.drop fallback.length with
      | '}' :: rest => some (name, fallback, rest)
      | _ => none
    | _ => none
  | _ => none

/-- Names that were bound so far, some without a value. -/
abbrev Bound := List (String × Option String)

/-- What a name stands for: the latest binding of it, or else the process environment. A name bound
without a value stands for nothing. -/
def lookup (process : Environment) (bound : Bound) (name fallback : List Char) : List Char :=
  let name := String.ofList name
  match Assoc.get? bound name with
  | some value => (value.getD "").toList
  | none => ((Assoc.get? process name).map String.toList).getD fallback

/-- Replaces the references of a value; `skip` characters ahead belong to the last one. -/
def interpolate (process : Environment) (bound : Bound) (skip : Nat) : List Char → List Char
  | [] => []
  | c :: r =>
    match skip with
    | skip + 1 => interpolate process bound skip r
    | 0 =>
      match reference? (c :: r) with
      | some (name, fallback, rest) =>
        lookup process bound name fallback
          ++ interpolate process bound (r.length - rest.length) r
      | none => c :: interpolate process bound 0 r

/-- Adds one binding, its references replaced. -/
def bind (process : Environment) (bound : Bound) (binding : Binding) : Bound :=
  let value := binding.2.map fun v => String.ofList (interpolate process bound 0 v)
  Assoc.put bound (String.ofList binding.1) value

/-- The names of a text that are bound to values in the end. A reference looks at the bindings
above it before the process environment. -/
def read (process : Environment) (text : List Char) : Environment :=
  ((bindingsFrom (text.length + 1) text).foldl (bind process) []).filterMap fun (name, value) =>
    value.map (name, ·)

/-- The bindings of a file. A byte order mark at its start is dropped. -/
def ofBytes (process : Environment) (bytes : List UInt8) :
    Except Text.DecodeError Environment := do
  let text ← Text.decodeUtf8 bytes
  let text := match text with
    | '\ufeff' :: r => r
    | _ => text
  return read process (Text.unifyLineEnds text)

end InlineQuery.EnvFile
