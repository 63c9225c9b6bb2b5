namespace InlineQuery.Query

inductive TypeRef where
  | named (name : String)
  | list (item : TypeRef)
  | nonNull (type : TypeRef)
  deriving DecidableEq, Repr, Inhabited

/-- The text of a type reference. -/
def TypeRef.text : TypeRef → String
  | named name => name
  | list item => "[" ++ item.text ++ "]"
  | nonNull type => type.text ++ "!"

def TypeRef.isNonNull : TypeRef → Bool
  | nonNull _ => true
  | _ => false

/-- A value as written. Numbers keep their text. -/
inductive Value where
  | var (name : String)
  | int (text : String)
  | float (text : String)
  | string (value : String) (block : Bool)
  | boolean (value : Bool)
  | null
  | enum (name : String)
  | list (items : List Value)
  | object (fields : List (String × Value))
  deriving Repr, Inhabited

structure Directive where
  name : String
  arguments : List (String × Value)
  deriving Repr, Inhabited

inductive Selection where
  | field («alias» : Option String) (name : String) (arguments : List (String × Value))
      (directives : List Directive) (selections : Option (List Selection))
  | spread (name : String) (directives : List Directive)
  | inline (condition : Option String) (directives : List Directive) (selections : List Selection)
  deriving Repr, Inhabited

inductive OperationKind where
  | query
  | mutation
  | subscription
  deriving DecidableEq, Repr, Inhabited

def OperationKind.name : OperationKind → String
  | query => "query"
  | mutation => "mutation"
  | subscription => "subscription"

def OperationKind.ofName? : String → Option OperationKind
  | "query" => some query
  | "mutation" => some mutation
  | "subscription" => some subscription
  | _ => none

structure VariableDefinition where
  description : Option String
  name : String
  type : TypeRef
  default : Option Value
  directives : List Directive
  deriving Repr, Inhabited

structure OperationDefinition where
  description : Option String
  kind : OperationKind
  name : Option String
  declarations : List VariableDefinition
  directives : List Directive
  selections : List Selection
  deriving Repr, Inhabited

structure FragmentDefinition where
  description : Option String
  name : String
  condition : String
  directives : List Directive
  selections : List Selection
  deriving Repr, Inhabited

/-- An argument of a field or directive, or a field of an input type. -/
structure InputDefinition where
  description : Option String
  name : String
  type : TypeRef
  default : Option Value
  directives : List Directive
  deriving Repr, Inhabited

structure FieldDefinition where
  description : Option String
  name : String
  arguments : List InputDefinition
  type : TypeRef
  directives : List Directive
  deriving Repr, Inhabited

structure EnumValueDefinition where
  description : Option String
  name : String
  directives : List Directive
  deriving Repr, Inhabited

/-- What tells the kinds of types apart. -/
inductive TypeShape where
  | scalar
  | object (interfaces : List String) (fields : List FieldDefinition)
  | interface (interfaces : List String) (fields : List FieldDefinition)
  | union (members : List String)
  | enum (values : List EnumValueDefinition)
  | input (fields : List InputDefinition)
  deriving Repr, Inhabited

/-- A type definition or, with `extends`, the extension of one. -/
structure TypeDefinition where
  extends_ : Bool
  description : Option String
  name : String
  directives : List Directive
  shape : TypeShape
  deriving Repr, Inhabited

/-- A schema definition or, with `extends`, the extension of one. -/
structure SchemaDefinition where
  extends_ : Bool
  description : Option String
  directives : List Directive
  roots : List (OperationKind × String)
  deriving Repr, Inhabited

structure DirectiveDefinition where
  description : Option String
  name : String
  arguments : List InputDefinition
  directives : List Directive
  repeatable : Bool
  locations : List String
  deriving Repr, Inhabited

/-- Directives for a directive that is defined elsewhere. -/
structure DirectiveExtension where
  name : String
  directives : List Directive
  deriving Repr, Inhabited

inductive Definition where
  | operation (definition : OperationDefinition)
  | fragment (definition : FragmentDefinition)
  | schema (definition : SchemaDefinition)
  | type (definition : TypeDefinition)
  | directive (definition : DirectiveDefinition)
  | directiveExtension (extension : DirectiveExtension)
  deriving Repr, Inhabited

/-- A definition with the offsets between which it stands, its description included. -/
structure Located where
  definition : Definition
  start : Nat
  stop : Nat
  deriving Repr, Inhabited

/-- A document as parsed: its definitions in order. -/
structure Document where
  definitions : List Located
  deriving Repr, Inhabited

def Document.operations (document : Document) : List OperationDefinition :=
  document.definitions.filterMap fun
    | ⟨.operation definition, _, _⟩ => some definition
    | _ => none

mutual

/-- The names of the fragments that a selection spreads, in document order. -/
def Selection.spreads : Selection → List String
  | .field _ _ _ _ none => []
  | .field _ _ _ _ (some selections) => spreadsOf selections
  | .spread name _ => [name]
  | .inline _ _ selections => spreadsOf selections

def spreadsOf : List Selection → List String
  | [] => []
  | s :: rest => s.spreads ++ spreadsOf rest

end

def Definition.spreads : Definition → List String
  | operation definition => spreadsOf definition.selections
  | fragment definition => spreadsOf definition.selections
  | _ => []

def Document.spreads (document : Document) : List String :=
  document.definitions.flatMap fun located => located.definition.spreads

/-- The names of the fragments that a document defines. -/
def Document.fragmentNames (document : Document) : List String :=
  document.definitions.filterMap fun
    | ⟨.fragment definition, _, _⟩ => some definition.name
    | _ => none

end InlineQuery.Query
