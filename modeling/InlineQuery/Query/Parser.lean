import InlineQuery.Query.Definition
import InlineQuery.Query.Lexer

/-!
GraphQL documents from their tokens. Every item of a list takes a token, so the number of tokens
bounds the lists. Constructs that lie in one another are bounded by `nestingLimit`: each level uses
up one of the levels that are left, and a document that needs more is refused.
-/

namespace InlineQuery.Query

/-- The tokens ahead, what comes after them, and where the last token read ended. -/
structure Cursor where
  tokens : List Token
  ending : Except SyntaxError Token
  last : Nat

abbrev Parser := StateT Cursor (Except SyntaxError)

namespace Parser

/-- The next token. -/
def peek : Parser Token := fun s =>
  match s.tokens with
  | t :: _ => .ok (t, s)
  | [] => s.ending.map (·, s)

/-- The token after the next. -/
def peekSecond : Parser Token := fun s =>
  match s.tokens with
  | _ :: t :: _ => .ok (t, s)
  | _ => s.ending.map (·, s)

/-- Goes on to the next token, which must be readable. -/
def advance : Parser Unit := fun s =>
  match s.tokens with
  | [] => .ok ((), s)
  | t :: ts =>
    let next := { s with tokens := ts, last := t.stop }
    if ts.isEmpty then s.ending.map fun _ => ((), next) else .ok ((), next)

def fail {α : Type} (position : Nat) (fault : Fault) : Parser α := fun _ =>
  .error ⟨fault, position⟩

def unexpectedToken {α : Type} (t : Token) : Parser α := fail t.start (.unexpected t.lexeme)

/-- Refuses the next token. -/
def unexpected {α : Type} : Parser α := do unexpectedToken (← peek)

def nextIs (p : Punctuator) : Parser Bool := return (← peek).lexeme == .mark p

/-- Reads a punctuator if it comes next. -/
def accept (p : Punctuator) : Parser Bool := do
  if ← nextIs p then advance; return true
  else return false

def expect (p : Punctuator) : Parser Unit := do
  let t ← peek
  if t.lexeme = .mark p then advance
  else fail t.start (.expected ("'" ++ p.text ++ "'") t.lexeme)

def acceptKeyword (word : String) : Parser Bool := do
  if (← peek).lexeme = .name word then advance; return true
  else return false

def expectKeyword (word : String) : Parser Unit := do
  let t ← peek
  if t.lexeme = .name word then advance
  else fail t.start (.expected ("'" ++ word ++ "'") t.lexeme)

def name : Parser String := do
  let t ← peek
  match t.lexeme with
  | .name text => advance; return text
  | found => fail t.start (.expected "Name" found)

/-- Reads items up to a closing punctuator. -/
def itemsUntil {α : Type} (item : Parser α) (close : Punctuator) : Nat → Parser (List α)
  | 0 => unexpected
  | fuel + 1 => do
    if ← accept close then return []
    let first ← item
    return first :: (← itemsUntil item close fuel)

/-- Any number of items between two punctuators. -/
def anyOf {α : Type} (fuel : Nat) (open_ : Punctuator) (item : Parser α) (close : Punctuator) :
    Parser (List α) := do
  expect open_
  itemsUntil item close fuel

/-- At least one item between two punctuators. -/
def many {α : Type} (fuel : Nat) (open_ : Punctuator) (item : Parser α) (close : Punctuator) :
    Parser (List α) := do
  expect open_
  let first ← item
  return first :: (← itemsUntil item close fuel)

/-- `many`, or nothing at all when the opening punctuator does not come next. -/
def optionalMany {α : Type} (fuel : Nat) (open_ : Punctuator) (item : Parser α)
    (close : Punctuator) : Parser (List α) := do
  if ← nextIs open_ then many fuel open_ item close else return []

/-- Items with a punctuator between them. -/
def separated {α : Type} (separator : Punctuator) (item : Parser α) : Nat → Parser (List α)
  | 0 => unexpected
  | fuel + 1 => do
    let first ← item
    if ← accept separator then return first :: (← separated separator item fuel)
    else return [first]

/-- `separated`, where the separator may also come first. -/
def delimited {α : Type} (fuel : Nat) (separator : Punctuator) (item : Parser α) :
    Parser (List α) := do
  let _ ← accept separator
  separated separator item fuel

def variableName : Parser String := do
  expect .dollar
  name

/-- How deep lists, objects, list types and selection sets may lie in one another. -/
def nestingLimit : Nat := 200

/-- Refuses to go one level deeper at the next token. -/
def tooDeep {α : Type} : Parser α := do fail (← peek).start .tooDeep

/-- Reads a value that holds no others; a constant one is no variable. -/
def simpleValue (const : Bool) : Parser Value := do
  let t ← peek
  match t.lexeme with
  | .int text => advance; return .int text
  | .float text => advance; return .float text
  | .string text => advance; return .string text false
  | .blockString text => advance; return .string text true
  | .name "true" => advance; return .boolean true
  | .name "false" => advance; return .boolean false
  | .name "null" => advance; return .null
  | .name text => advance; return .enum text
  | .mark .dollar =>
    if const then
      advance
      match (← peek).lexeme with
      | .name text => fail t.start (.variableInConstant text)
      | _ => unexpectedToken t
    else return .var (← variableName)
  | _ => unexpectedToken t

/-- A name, a colon and a value. -/
def entry (value : Parser Value) : Parser (String × Value) := do
  let key ← name
  expect .colon
  return (key, ← value)

/-- Reads a value that may go some levels deeper; a constant one holds no variables. -/
def value (const : Bool) (size : Nat) : Nat → Parser Value
  | 0 => do
    match (← peek).lexeme with
    | .mark .bracketL | .mark .braceL => tooDeep
    | _ => simpleValue const
  | room + 1 => do
    match (← peek).lexeme with
    | .mark .bracketL => return .list (← anyOf size .bracketL (value const size room) .bracketR)
    | .mark .braceL => return .object (← anyOf size .braceL (entry (value const size room)) .braceR)
    | _ => simpleValue const

/-- Reads the mark after a type that refuses null. -/
def nullability (type : TypeRef) : Parser TypeRef := do
  if ← accept .bang then return .nonNull type else return type

/-- Reads a type that may go some levels deeper. -/
def typeRef : Nat → Parser TypeRef
  | 0 => do
    if ← accept .bracketL then tooDeep else nullability (.named (← name))
  | room + 1 => do
    if ← accept .bracketL then
      let item ← typeRef room
      expect .bracketR
      nullability (.list item)
    else nullability (.named (← name))

def arguments (const : Bool) (size room : Nat) : Parser (List (String × Value)) :=
  optionalMany size .parenL (entry (value const size room)) .parenR

/-- Directives up to the first token that starts none. -/
def directivesFrom (const : Bool) (size room : Nat) : Nat → Parser (List Directive)
  | 0 => unexpected
  | fuel + 1 => do
    if ← accept .at then
      let directive : Directive := ⟨← name, ← arguments const size room⟩
      return directive :: (← directivesFrom const size room fuel)
    else return []

def directives (size room : Nat) : Parser (List Directive) := directivesFrom false size room size

/-- Directives of a definition, whose arguments are constants. -/
def constDirectives (size : Nat) : Parser (List Directive) :=
  directivesFrom true size nestingLimit size

/-- The name of a fragment; the word that introduces a type condition is none. -/
def fragmentName : Parser String := do
  if (← peek).lexeme.reads "on" then unexpected else name

/-- Reads a selection, where `nested` reads a selection set of its own and values may go some levels
deeper. -/
def selection (size room : Nat) (nested : Parser (List Selection)) : Parser Selection := do
  if ← accept .spread then
    if ← acceptKeyword "on" then
      let condition ← name
      return .inline (some condition) (← directives size room) (← nested)
    match (← peek).lexeme with
    | .name _ => return .spread (← fragmentName) (← directives size room)
    | _ => return .inline none (← directives size room) (← nested)
  else
    let first ← name
    let («alias», name) ← if ← accept .colon then pure (some first, ← name) else pure (none, first)
    let arguments ← arguments false size room
    let directives ← directives size room
    let selections ← if ← nextIs .braceL then some <$> nested else pure none
    return .field «alias» name arguments directives selections

/-- Reads a selection set that may go some levels deeper. -/
def selectionSetWithin (size : Nat) : Nat → Parser (List Selection)
  | 0 => tooDeep
  | room + 1 => anyOf size .braceL (selection size room (selectionSetWithin size room)) .braceR

def selectionSet (size : Nat) : Parser (List Selection) := selectionSetWithin size nestingLimit

/-- A description, if the next token is a string. -/
def description : Parser (Option String) := do
  match (← peek).lexeme with
  | .string text | .blockString text => advance; return some text
  | _ => return none

def operationKind : Parser OperationKind := do
  let t ← peek
  let text ← name
  match OperationKind.ofName? text with
  | some kind => return kind
  | none => unexpectedToken t

def defaultValue (size : Nat) : Parser (Option Value) := do
  if ← accept .equals then some <$> value true size nestingLimit else return none

def variableDefinition (size : Nat) : Parser VariableDefinition := do
  let description ← description
  let name ← variableName
  expect .colon
  let type ← typeRef nestingLimit
  return ⟨description, name, type, ← defaultValue size, ← constDirectives size⟩

def operation (size : Nat) : Parser OperationDefinition := do
  if ← nextIs .braceL then return ⟨none, .query, none, [], [], ← selectionSet size⟩
  let description ← description
  let kind ← operationKind
  let name ← match (← peek).lexeme with
    | .name _ => some <$> name
    | _ => pure none
  let declarations ← optionalMany size .parenL (variableDefinition size) .parenR
  return ⟨description, kind, name, declarations, ← directives size nestingLimit, ← selectionSet size⟩

def fragment (size : Nat) : Parser FragmentDefinition := do
  let description ← description
  expectKeyword "fragment"
  let fragmentName ← fragmentName
  expectKeyword "on"
  let condition ← name
  return ⟨description, fragmentName, condition, ← directives size nestingLimit, ← selectionSet size⟩

def inputDefinition (size : Nat) : Parser InputDefinition := do
  let description ← description
  let name ← name
  expect .colon
  let type ← typeRef nestingLimit
  return ⟨description, name, type, ← defaultValue size, ← constDirectives size⟩

def fieldDefinition (size : Nat) : Parser FieldDefinition := do
  let description ← description
  let name ← name
  let arguments ← optionalMany size .parenL (inputDefinition size) .parenR
  expect .colon
  let type ← typeRef nestingLimit
  return ⟨description, name, arguments, type, ← constDirectives size⟩

def enumValue (size : Nat) : Parser EnumValueDefinition := do
  let description ← description
  let t ← peek
  if ["true", "false", "null"].any t.lexeme.reads then
    fail t.start (.reservedEnumValue t.lexeme)
  let name ← name
  return ⟨description, name, ← constDirectives size⟩

def interfaces (size : Nat) : Parser (List String) := do
  if ← acceptKeyword "implements" then delimited size .amp name else return []

def fields (size : Nat) : Parser (List FieldDefinition) :=
  optionalMany size .braceL (fieldDefinition size) .braceR

/-- What follows the name of a type: its directives and what tells its kind apart. -/
def typeBody (size : Nat) (keyword : String) : Parser (List Directive × TypeShape) := do
  match keyword with
  | "scalar" => return (← constDirectives size, .scalar)
  | "union" =>
    let directives ← constDirectives size
    let members ← if ← accept .equals then delimited size .pipe name else pure []
    return (directives, .union members)
  | "enum" =>
    let directives ← constDirectives size
    return (directives, .enum (← optionalMany size .braceL (enumValue size) .braceR))
  | "input" =>
    let directives ← constDirectives size
    return (directives, .input (← optionalMany size .braceL (inputDefinition size) .braceR))
  | "interface" =>
    let interfaces ← interfaces size
    let directives ← constDirectives size
    return (directives, .interface interfaces (← fields size))
  | _ =>
    let interfaces ← interfaces size
    let directives ← constDirectives size
    return (directives, .object interfaces (← fields size))

/-- Whether a type says nothing but its name, which an extension may not do. -/
def saysNothing (directives : List Directive) : TypeShape → Bool
  | .scalar => directives.isEmpty
  | .object interfaces fields | .interface interfaces fields =>
    directives.isEmpty && interfaces.isEmpty && fields.isEmpty
  | .union members => directives.isEmpty && members.isEmpty
  | .enum values => directives.isEmpty && values.isEmpty
  | .input fields => directives.isEmpty && fields.isEmpty

def typeDefinition (size : Nat) (keyword : String) : Parser TypeDefinition := do
  let description ← description
  expectKeyword keyword
  let name ← name
  let (directives, shape) ← typeBody size keyword
  return ⟨false, description, name, directives, shape⟩

def typeExtension (size : Nat) (keyword : String) : Parser TypeDefinition := do
  expectKeyword "extend"
  expectKeyword keyword
  let name ← name
  let (directives, shape) ← typeBody size keyword
  if saysNothing directives shape then unexpected
  return ⟨true, none, name, directives, shape⟩

def rootType : Parser (OperationKind × String) := do
  let kind ← operationKind
  expect .colon
  return (kind, ← name)

def schemaDefinition (size : Nat) : Parser SchemaDefinition := do
  let description ← description
  expectKeyword "schema"
  let directives ← constDirectives size
  return ⟨false, description, directives, ← many size .braceL rootType .braceR⟩

def schemaExtension (size : Nat) : Parser SchemaDefinition := do
  expectKeyword "extend"
  expectKeyword "schema"
  let directives ← constDirectives size
  let roots ← optionalMany size .braceL rootType .braceR
  if directives.isEmpty && roots.isEmpty then unexpected
  return ⟨true, none, directives, roots⟩

/-- The places where a directive may stand. -/
def directiveLocations : List String :=
  ["QUERY", "MUTATION", "SUBSCRIPTION", "FIELD", "FRAGMENT_DEFINITION", "FRAGMENT_SPREAD",
    "VARIABLE_DEFINITION", "INLINE_FRAGMENT", "SCHEMA", "SCALAR", "OBJECT", "FIELD_DEFINITION",
    "ARGUMENT_DEFINITION", "INTERFACE", "UNION", "ENUM", "ENUM_VALUE", "INPUT_OBJECT",
    "INPUT_FIELD_DEFINITION", "DIRECTIVE_DEFINITION"]

def directiveLocation : Parser String := do
  let t ← peek
  let text ← name
  if directiveLocations.contains text then return text else unexpectedToken t

def directiveDefinition (size : Nat) : Parser DirectiveDefinition := do
  let description ← description
  expectKeyword "directive"
  expect .at
  let name ← name
  let arguments ← optionalMany size .parenL (inputDefinition size) .parenR
  let directives ← constDirectives size
  let repeatable ← acceptKeyword "repeatable"
  expectKeyword "on"
  let locations ← delimited size .pipe directiveLocation
  return ⟨description, name, arguments, directives, repeatable, locations⟩

def directiveExtension (size : Nat) : Parser DirectiveExtension := do
  expectKeyword "extend"
  expectKeyword "directive"
  expect .at
  let name ← name
  let directives ← constDirectives size
  if directives.isEmpty then unexpected
  return ⟨name, directives⟩

def typeKeywords : List String := ["scalar", "type", "interface", "union", "enum", "input"]

def extension (size : Nat) : Parser Definition := do
  let t ← peekSecond
  match t.lexeme with
  | .name "schema" => return .schema (← schemaExtension size)
  | .name "directive" => return .directiveExtension (← directiveExtension size)
  | .name keyword =>
    if typeKeywords.contains keyword then return .type (← typeExtension size keyword)
    else unexpectedToken t
  | _ => unexpectedToken t

/-- Reads one definition, told from the others by its keyword. -/
def definition (size : Nat) : Parser Definition := do
  let first ← peek
  if first.lexeme = .mark .braceL then return .operation (← operation size)
  let described := match first.lexeme with
    | .string _ | .blockString _ => true
    | _ => false
  let t ← if described then peekSecond else peek
  match t.lexeme with
  | .name "schema" => return .schema (← schemaDefinition size)
  | .name "directive" => return .directive (← directiveDefinition size)
  | .name "query" | .name "mutation" | .name "subscription" => return .operation (← operation size)
  | .name "fragment" => return .fragment (← fragment size)
  | .name keyword =>
    if typeKeywords.contains keyword then return .type (← typeDefinition size keyword)
    else if described then fail first.start .uselessDescription
    else if keyword = "extend" then extension size
    else unexpectedToken t
  | .mark .braceL => fail first.start .shorthandDescription
  | _ => unexpectedToken t

def located (size : Nat) : Parser Located := do
  let start := (← peek).start
  let definition ← definition size
  return ⟨definition, start, (← get).last⟩

def definitionsFrom (size : Nat) : Nat → Parser (List Located)
  | 0 => unexpected
  | fuel + 1 => do
    let first ← located size
    if (← peek).lexeme = .eof then return [first]
    return first :: (← definitionsFrom size fuel)

end Parser

/-- Parses a document of at least one definition. -/
def parse (text : List Char) : Except SyntaxError Document :=
  let lexed := lex text
  let size := lexed.tokens.length + 1
  (Parser.definitionsFrom size size ⟨lexed.tokens, lexed.ending, 0⟩).map fun (ds, _) => ⟨ds⟩

end InlineQuery.Query
