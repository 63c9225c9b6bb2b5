import InlineQuery.Proofs.Query.Faults

/-!
Every parser of the grammar blames a place in the text, and so does reading a whole document.
-/

namespace InlineQuery.Query

namespace Parser

variable {α : Type} {n size room : Nat} {const : Bool}

/-! ### Single tokens -/

theorem blames_take {a : α} : Blames n (advance >>= fun _ => pure a) :=
  .bind .advance fun _ => .pure

theorem blames_nextIs (p : Punctuator) : Blames n (nextIs p) := .peek fun _ _ => .pure

theorem blames_accept (p : Punctuator) : Blames n (accept p) := by
  refine (blames_nextIs p).bind fun found => ?_
  split
  · exact blames_take
  · exact .pure

theorem blames_expect (p : Punctuator) : Blames n (expect p) := by
  refine .peek fun t le => ?_
  split
  · exact .advance
  · exact .fail le

theorem blames_acceptKeyword (word : String) : Blames n (acceptKeyword word) := by
  refine .peek fun t _ => ?_
  split
  · exact blames_take
  · exact .pure

theorem blames_expectKeyword (word : String) : Blames n (expectKeyword word) := by
  refine .peek fun t le => ?_
  split
  · exact .advance
  · exact .fail le

theorem blames_name : Blames n name := by
  refine .peek fun t le => ?_
  split
  · exact blames_take
  · exact .fail le

theorem blames_variableName : Blames n variableName :=
  (blames_expect .dollar).bind fun _ => blames_name

theorem blames_description : Blames n description := by
  refine .peek fun t _ => ?_
  split
  · exact blames_take
  · exact blames_take
  · exact .pure

theorem blames_operationKind : Blames n operationKind := by
  refine .peek fun t le => blames_name.bind fun text => ?_
  split
  · exact .pure
  · exact .unexpectedToken le

theorem blames_fragmentName : Blames n fragmentName := by
  refine .peek fun t _ => ?_
  split
  · exact .unexpected
  · exact blames_name

theorem blames_directiveLocation : Blames n directiveLocation := by
  refine .peek fun t le => blames_name.bind fun text => ?_
  split
  · exact .pure
  · exact .unexpectedToken le

/-! ### Lists -/

section
variable {opening closing separator : Punctuator} {item : Parser α} (items : Blames n item)
include items

theorem blames_itemsUntil (fuel : Nat) : Blames n (itemsUntil item closing fuel) := by
  induction fuel with
  | zero => exact .unexpected
  | succ fuel ih =>
    refine (blames_accept closing).bind fun found => ?_
    split
    · exact .pure
    · exact items.bind fun _ => ih.bind fun _ => .pure

theorem blames_anyOf : Blames n (anyOf size opening item closing) :=
  (blames_expect opening).bind fun _ => blames_itemsUntil items size

theorem blames_many : Blames n (many size opening item closing) :=
  (blames_expect opening).bind fun _ => items.bind fun _ =>
    (blames_itemsUntil items size).bind fun _ => .pure

theorem blames_optionalMany : Blames n (optionalMany size opening item closing) := by
  refine (blames_nextIs opening).bind fun found => ?_
  split
  · exact blames_many items
  · exact .pure

theorem blames_separated (fuel : Nat) : Blames n (separated separator item fuel) := by
  induction fuel with
  | zero => exact .unexpected
  | succ fuel ih =>
    refine items.bind fun first => (blames_accept separator).bind fun found => ?_
    split
    · exact ih.bind fun _ => .pure
    · exact .pure

theorem blames_delimited : Blames n (delimited size separator item) :=
  (blames_accept separator).bind fun _ => blames_separated items size

end

/-! ### Values, types and directives -/

theorem blames_simpleValue : Blames n (simpleValue const) := by
  refine .peek fun t le => ?_
  split
  all_goals first
    | exact blames_take
    | skip
  · split
    · refine .bind .advance fun _ => .peek fun u _ => ?_
      split
      · exact .fail le
      · exact .unexpectedToken le
    · exact blames_variableName.bind fun _ => .pure
  · exact .unexpectedToken le

theorem blames_entry {value : Parser Value} (values : Blames n value) : Blames n (entry value) :=
  blames_name.bind fun _ => (blames_expect .colon).bind fun _ => values.bind fun _ => .pure

theorem blames_value (room : Nat) : Blames n (value const size room) := by
  induction room with
  | zero =>
    refine .peek fun t _ => ?_
    split
    · exact .tooDeep
    · exact .tooDeep
    · exact blames_simpleValue
  | succ room ih =>
    refine .peek fun t _ => ?_
    split
    · exact (blames_anyOf ih).bind fun _ => .pure
    · exact (blames_anyOf (blames_entry ih)).bind fun _ => .pure
    · exact blames_simpleValue

theorem blames_nullability (type : TypeRef) : Blames n (nullability type) := by
  refine (blames_accept .bang).bind fun found => ?_
  split <;> exact .pure

theorem blames_typeRef (room : Nat) : Blames n (typeRef room) := by
  have named : Blames n (name >>= fun text => nullability (.named text)) :=
    blames_name.bind fun _ => blames_nullability _
  induction room with
  | zero =>
    refine (blames_accept .bracketL).bind fun found => ?_
    split
    · exact .tooDeep
    · exact named
  | succ room ih =>
    refine (blames_accept .bracketL).bind fun found => ?_
    split
    · exact ih.bind fun _ => (blames_expect .bracketR).bind fun _ => blames_nullability _
    · exact named

theorem blames_arguments : Blames n (arguments const size room) :=
  blames_optionalMany (blames_entry (blames_value room))

theorem blames_directivesFrom (fuel : Nat) : Blames n (directivesFrom const size room fuel) := by
  induction fuel with
  | zero => exact .unexpected
  | succ fuel ih =>
    refine (blames_accept .at).bind fun found => ?_
    split
    · exact blames_name.bind fun _ => blames_arguments.bind fun _ => ih.bind fun _ => .pure
    · exact .pure

theorem blames_directives : Blames n (directives size room) := blames_directivesFrom size

theorem blames_constDirectives : Blames n (constDirectives size) := blames_directivesFrom size

theorem blames_defaultValue : Blames n (defaultValue size) := by
  refine (blames_accept .equals).bind fun found => ?_
  split
  · exact (blames_value _).map _
  · exact .pure

/-! ### Selections -/

theorem blames_selection {nested : Parser (List Selection)} (inner : Blames n nested) :
    Blames n (selection size room nested) := by
  refine (blames_accept .spread).bind fun isSpread => ?_
  split
  · refine (blames_acceptKeyword "on").bind fun isTyped => ?_
    split
    · exact blames_name.bind fun _ => blames_directives.bind fun _ => inner.bind fun _ => .pure
    · refine .peek fun t _ => ?_
      split
      · exact blames_fragmentName.bind fun _ => blames_directives.bind fun _ => .pure
      · exact blames_directives.bind fun _ => inner.bind fun _ => .pure
  · have rest (make : List (String × Value) → List Directive → Option (List Selection) → Selection) :
        Blames n (do
          let arguments ← arguments false size room
          let directives ← Parser.directives size room
          if ← nextIs .braceL then return make arguments directives (← some <$> nested)
          else return make arguments directives none) := by
      refine blames_arguments.bind fun _ => blames_directives.bind fun _ =>
        (blames_nextIs .braceL).bind fun hasBlock => ?_
      split
      · exact (inner.map _).bind fun _ => .pure
      · exact .pure
    refine blames_name.bind fun first => (blames_accept .colon).bind fun renamed => ?_
    simp only [pure_bind]
    split
    · exact blames_name.bind fun _ => rest _
    · exact rest _

theorem blames_selectionSetWithin (room : Nat) : Blames n (selectionSetWithin size room) := by
  induction room with
  | zero => exact .tooDeep
  | succ room ih => exact blames_anyOf (blames_selection ih)

theorem blames_selectionSet : Blames n (selectionSet size) := blames_selectionSetWithin _

/-! ### Parts of definitions -/

theorem blames_variableDefinition : Blames n (variableDefinition size) :=
  blames_description.bind fun _ => blames_variableName.bind fun _ =>
    (blames_expect .colon).bind fun _ => (blames_typeRef _).bind fun _ =>
      blames_defaultValue.bind fun _ => blames_constDirectives.bind fun _ => .pure

theorem blames_inputDefinition : Blames n (inputDefinition size) :=
  blames_description.bind fun _ => blames_name.bind fun _ =>
    (blames_expect .colon).bind fun _ => (blames_typeRef _).bind fun _ =>
      blames_defaultValue.bind fun _ => blames_constDirectives.bind fun _ => .pure

theorem blames_fieldDefinition : Blames n (fieldDefinition size) :=
  blames_description.bind fun _ => blames_name.bind fun _ =>
    (blames_optionalMany blames_inputDefinition).bind fun _ =>
      (blames_expect .colon).bind fun _ => (blames_typeRef _).bind fun _ =>
        blames_constDirectives.bind fun _ => .pure

theorem blames_enumValue : Blames n (enumValue size) := by
  refine blames_description.bind fun description => .peek fun t le => ?_
  have rest : Blames n (name >>= fun text => constDirectives size >>= fun directives =>
      pure (⟨description, text, directives⟩ : EnumValueDefinition)) :=
    blames_name.bind fun _ => blames_constDirectives.bind fun _ => .pure
  dsimp only
  split
  · exact (Blames.fail le).bind fun _ => rest
  · exact rest

theorem blames_rootType : Blames n rootType :=
  blames_operationKind.bind fun _ => (blames_expect .colon).bind fun _ =>
    blames_name.bind fun _ => .pure

theorem blames_interfaces : Blames n (interfaces size) := by
  refine (blames_acceptKeyword "implements").bind fun found => ?_
  split
  · exact blames_delimited blames_name
  · exact .pure

theorem blames_typeBody (keyword : String) : Blames n (typeBody size keyword) := by
  have directives : Blames n (constDirectives size) := blames_constDirectives
  have fields : Blames n (fields size) := blames_optionalMany blames_fieldDefinition
  unfold typeBody
  split
  · exact directives.bind fun _ => .pure
  · refine directives.bind fun _ => (blames_accept .equals).bind fun found => ?_
    dsimp only
    split
    · exact (blames_delimited blames_name).bind fun _ => .pure
    · exact .pure
  · exact directives.bind fun _ => (blames_optionalMany blames_enumValue).bind fun _ => .pure
  · exact directives.bind fun _ => (blames_optionalMany blames_inputDefinition).bind fun _ => .pure
  · exact blames_interfaces.bind fun _ => directives.bind fun _ => fields.bind fun _ => .pure
  · exact blames_interfaces.bind fun _ => directives.bind fun _ => fields.bind fun _ => .pure

/-! ### Definitions -/

theorem blames_operation : Blames n (operation size) := by
  refine (blames_nextIs .braceL).bind fun isShorthand => ?_
  split
  · exact blames_selectionSet.bind fun _ => .pure
  · refine blames_description.bind fun description => blames_operationKind.bind fun kind => ?_
    have rest (name : Option String) : Blames n (do
        let declarations ← optionalMany size .parenL (variableDefinition size) .parenR
        return (⟨description, kind, name, declarations, ← directives size nestingLimit,
          ← selectionSet size⟩ : OperationDefinition)) :=
      (blames_optionalMany blames_variableDefinition).bind fun _ =>
        blames_directives.bind fun _ => blames_selectionSet.bind fun _ => .pure
    simp only [pure_bind, map_eq_pure_bind, bind_assoc]
    refine .peek fun t _ => ?_
    split
    · exact blames_name.bind fun _ => rest _
    · exact rest none

theorem blames_fragment : Blames n (fragment size) :=
  blames_description.bind fun _ => (blames_expectKeyword "fragment").bind fun _ =>
    blames_fragmentName.bind fun _ => (blames_expectKeyword "on").bind fun _ =>
      blames_name.bind fun _ => blames_directives.bind fun _ =>
        blames_selectionSet.bind fun _ => .pure

theorem blames_typeDefinition (keyword : String) : Blames n (typeDefinition size keyword) :=
  blames_description.bind fun _ => (blames_expectKeyword keyword).bind fun _ =>
    blames_name.bind fun _ => (blames_typeBody keyword).bind fun _ => .pure

theorem blames_schemaDefinition : Blames n (schemaDefinition size) :=
  blames_description.bind fun _ => (blames_expectKeyword "schema").bind fun _ =>
    blames_constDirectives.bind fun _ => (blames_many blames_rootType).bind fun _ => .pure

theorem blames_directiveDefinition : Blames n (directiveDefinition size) :=
  blames_description.bind fun _ => (blames_expectKeyword "directive").bind fun _ =>
    (blames_expect .at).bind fun _ => blames_name.bind fun _ =>
      (blames_optionalMany blames_inputDefinition).bind fun _ => blames_constDirectives.bind fun _ =>
        (blames_acceptKeyword "repeatable").bind fun _ => (blames_expectKeyword "on").bind fun _ =>
          (blames_delimited blames_directiveLocation).bind fun _ => .pure

/-- An extension that says nothing is refused. -/
theorem blames_saying {nothing : Bool} {a : α} :
    Blames n (if nothing then unexpected >>= fun (_ : Unit) => pure a else pure a) := by
  split
  · exact Blames.unexpected.bind fun _ => .pure
  · exact .pure

theorem blames_typeExtension (keyword : String) : Blames n (typeExtension size keyword) :=
  (blames_expectKeyword "extend").bind fun _ => (blames_expectKeyword keyword).bind fun _ =>
    blames_name.bind fun _ => (blames_typeBody keyword).bind fun _ => blames_saying

theorem blames_schemaExtension : Blames n (schemaExtension size) :=
  (blames_expectKeyword "extend").bind fun _ => (blames_expectKeyword "schema").bind fun _ =>
    blames_constDirectives.bind fun _ => (blames_optionalMany blames_rootType).bind fun _ =>
      blames_saying

theorem blames_directiveExtension : Blames n (directiveExtension size) :=
  (blames_expectKeyword "extend").bind fun _ => (blames_expectKeyword "directive").bind fun _ =>
    (blames_expect .at).bind fun _ => blames_name.bind fun _ =>
      blames_constDirectives.bind fun _ => blames_saying

theorem blames_extension : Blames n (extension size) := by
  refine .peekSecond fun t le => ?_
  split
  · exact blames_schemaExtension.bind fun _ => .pure
  · exact blames_directiveExtension.bind fun _ => .pure
  · split
    · exact (blames_typeExtension _).bind fun _ => .pure
    · exact .unexpectedToken le
  · exact .unexpectedToken le

theorem blames_definition : Blames n (definition size) := by
  refine .peek fun first leFirst => ?_
  split
  · exact blames_operation.bind fun _ => .pure
  · extract_lets described told
    have rest (t : Token) (le : t.start ≤ n) : Blames n (told t) := by
      dsimp only [told]
      split
      · exact blames_schemaDefinition.bind fun _ => .pure
      · exact blames_directiveDefinition.bind fun _ => .pure
      · exact blames_operation.bind fun _ => .pure
      · exact blames_operation.bind fun _ => .pure
      · exact blames_operation.bind fun _ => .pure
      · exact blames_fragment.bind fun _ => .pure
      · split
        · exact (blames_typeDefinition _).bind fun _ => .pure
        · split
          · exact .fail leFirst
          · split
            · exact blames_extension
            · exact .unexpectedToken le
      · exact .fail leFirst
      · exact .unexpectedToken le
    split
    · exact .peekSecond rest
    · exact .peek rest

theorem blames_get : Blames n (get : Parser Cursor) where
  goes s a next within ran := by
    cases ran
    exact within
  blames s e _ failed := by cases failed

theorem blames_located : Blames n (located size) :=
  .peek fun _ _ => blames_definition.bind fun _ => blames_get.bind fun _ => .pure

theorem blames_definitionsFrom (fuel : Nat) : Blames n (definitionsFrom size fuel) := by
  induction fuel with
  | zero => exact .unexpected
  | succ fuel ih =>
    refine blames_located.bind fun first => .peek fun t _ => ?_
    split
    · exact .pure
    · exact ih.bind fun _ => .pure

end Parser

/-- A text that is not parsed fails on one of its characters or at its end. -/
theorem position_le_of_parse {text : List Char} {e : SyntaxError}
    (failed : parse text = .error e) : e.position ≤ text.length := by
  have within := isWithin_lexFrom 0 0 0 text
  rw [Nat.zero_add] at within
  unfold parse at failed
  cases ran : Parser.definitionsFrom ((lex text).tokens.length + 1)
      ((lex text).tokens.length + 1) ⟨(lex text).tokens, (lex text).ending, 0⟩ with
  | ok result =>
    dsimp only at failed
    rw [ran] at failed
    cases failed
  | error e' =>
    dsimp only at failed
    rw [ran] at failed
    cases failed
    exact (Parser.blames_definitionsFrom _).blames within ran

end InlineQuery.Query
