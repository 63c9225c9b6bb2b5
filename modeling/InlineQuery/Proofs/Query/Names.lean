import InlineQuery.Proofs.Operation.Index
import InlineQuery.Proofs.Query.Scanning

/-!
The names of operations. They are read from name tokens, so they are never empty and hold letters,
digits and underscores only.
-/

namespace InlineQuery

namespace Query

/-- A text that a name token may have. -/
def IsName (text : String) : Prop := text ≠ "" ∧ ∀ c ∈ text.toList, isNamePart c = true

theorem isName_of_mem_lexFrom {offset skip : Nat} {text : List Char} {t : Token} {name : String}
    (member : t ∈ (lexFrom offset skip text).tokens) (isName : t.lexeme = .name name) :
    IsName name := by
  induction text generalizing offset skip with
  | nil => cases member
  | cons c rest ih =>
    cases skip with
    | succ skip => exact ih member
    | zero =>
      unfold lexFrom at member
      dsimp only at member
      split at member
      · exact ih member
      · split at member
        · exact ih member
        · split at member
          · cases member
          · rename_i isLexeme
            rcases List.mem_cons.mp member with rfl | later
            · dsimp only at isName
              rw [isName] at isLexeme
              cases isLexeme_of_lexeme isLexeme with
              | number isNumber _ => cases isNumber
              | name isStart =>
                refine ⟨by simp [← String.toList_inj], ?_⟩
                rw [String.toList_ofList]
                rintro d (_ | ⟨_, later⟩)
                · exact Definitions.isNamePart_of_isNameStart isStart
                · exact List.all_eq_true.mp List.all_takeWhile d later
            · exact ih later

namespace Parser

/-- The operation that a definition is has no name but that of one of the tokens. -/
def IsNamedIn (d : Definition) (ts : List Token) : Prop :=
  ∀ op, d = .operation op → ∀ name, op.name = some name → ∃ t ∈ ts, t.lexeme = .name name

variable {size : Nat}

/-- What fits the tokens of the last part fits all of them. -/
theorem Reads.behind {α β : Type} {p : Parser α} {f : α → Parser β} {P : α → List Token → Prop}
    {R : β → List Token → Prop} (first : Reads p P) (second : ∀ a, Reads (f a) R)
    (grows : ∀ b u v, R b v → R b (u ++ v)) : Reads (p >>= f) R :=
  first.bind second fun _ b u v _ fits => grows b u v fits

theorem reads_operationName : Reads (operation size) fun op ts =>
    ∀ name, op.name = some name → ∃ t ∈ ts, t.lexeme = .name name := by
  have grows (op : OperationDefinition) (us ts : List Token)
      (named : ∀ name, op.name = some name → ∃ t ∈ ts, t.lexeme = .name name) :
      ∀ name, op.name = some name → ∃ t ∈ us ++ ts, t.lexeme = .name name := by
    intro name same
    obtain ⟨t, member, isName⟩ := named name same
    exact ⟨t, List.mem_append_right us member, isName⟩
  refine reads_nextIs _ fun isShorthand => ?_
  split
  · exact reads_selectionSet.returning fun _ _ _ => nofun
  · refine reads_description.behind (fun description => reads_operationKind.behind (fun kind =>
      .look (fun _ _ _ => peek_ok) fun next => ?_) grows) grows
    have rest (name : Option String) : Reads (do
        let declarations ← optionalMany size .parenL (variableDefinition size) .parenR
        return (⟨description, kind, name, declarations, ← directives size nestingLimit,
          ← selectionSet size⟩ : OperationDefinition)) fun op _ => op.name = name :=
      (readsHeader_optionalMany readsNested_variableDefinition).behind (fun _ =>
        readsHeader_directives.behind (fun _ => reads_selectionSet.returning fun _ _ _ => rfl)
          fun _ _ _ => id) fun _ _ _ => id
    simp only [pure_bind]
    split
    · rw [map_eq_pure_bind, bind_assoc]
      simp only [pure_bind]
      refine reads_name.bind (fun text => rest (some text)) ?_
      rintro text op _ _ ⟨t, rfl, isName⟩ named name same
      rw [named] at same
      cases same
      exact ⟨t, List.mem_append_left _ (List.mem_singleton.mpr rfl), isName⟩
    · exact (rest none).mono fun op _ named name same => by rw [named] at same; cases same

theorem reads_extensionName : Reads (extension size) IsNamedIn := by
  refine .look (fun _ _ _ => peekSecond_ok) fun t => ?_
  split
  · exact reads_schemaExtension.returning fun _ _ _ => nofun
  · exact reads_directiveExtension.returning fun _ _ _ => nofun
  · split
    · exact (reads_typeExtension ‹_›).returning fun _ _ _ => nofun
    · exact .unexpectedToken
  · exact .unexpectedToken

theorem reads_definitionName : Reads (definition size) IsNamedIn := by
  have operations : Reads (do return .operation (← operation size)) IsNamedIn :=
    reads_operationName.returning fun op _ named _ same => by cases same; exact named
  refine .look (fun _ _ _ => peek_ok) fun first => ?_
  split
  · exact operations
  · extract_lets described told
    have rest (t : Token) : Reads (told t) IsNamedIn := by
      dsimp only [told]
      split
      · exact reads_schemaDefinition.returning fun _ _ _ => nofun
      · exact reads_directiveDefinition.returning fun _ _ _ => nofun
      · exact operations
      · exact operations
      · exact operations
      · exact reads_fragment.returning fun _ _ _ => nofun
      · split
        · exact (reads_typeDefinition ‹_›).returning fun _ _ _ => nofun
        · split
          · exact .fail
          · split
            · exact reads_extensionName
            · exact .unexpectedToken
      · exact .fail
      · exact .unexpectedToken
    split
    · exact .look (fun _ _ _ => peekSecond_ok) rest
    · exact .look (fun _ _ _ => peek_ok) rest

theorem reads_locatedName : Reads (located size) fun d ts => IsNamedIn d.definition ts := by
  intro s d next sound ran
  obtain ⟨first, middle, peeked, ran⟩ := bind_ok ran
  cases peek_ok peeked
  obtain ⟨read, after, ranDefinition, ran⟩ := bind_ok ran
  cases ran
  exact reads_definitionName sound ranDefinition

end Parser

/-- The operations of a document that is read have names that tokens may have. -/
theorem isName_of_parse {text : List Char} {document : Document} {op : OperationDefinition}
    {name : String} (parsed : parse text = .ok document) (member : op ∈ document.operations)
    (named : op.name = some name) : IsName name := by
  obtain ⟨-, -, areRead⟩ := isReadAs_of_parse parsed
  obtain ⟨d, isDefinition, isOperation⟩ := List.mem_filterMap.mp member
  obtain ⟨size, s, next, ending, takes, ran⟩ := (areRead d isDefinition).ran
  have sound : s.IsSound := by
    rw [Cursor.IsSound, ending]
    exact fun t ends => eof_of_ending_lexFrom ends
  obtain ⟨used, again, namedIn⟩ := Parser.reads_locatedName sound ran
  have same : used = d.tokens text :=
    List.append_cancel_right (again.tokens.symm.trans takes.tokens)
  obtain ⟨definition, start, stop⟩ := d
  cases definition with
  | operation definition =>
    cases isOperation
    obtain ⟨t, isToken, isName⟩ := namedIn _ rfl name named
    rw [same] at isToken
    exact isName_of_mem_lexFrom (List.mem_of_mem_filter isToken) isName
  | _ => cases isOperation

end Query

theorem Literal.isName_of_mem_operationsOf {literal : Literal} {document : Query.Document}
    {ops : List Operation} {op : Operation} {name : String}
    (parsed : literal.document = .ok document) (made : literal.operationsOf document = .ok ops)
    (member : op ∈ ops) (named : op.name = some name) : Query.IsName name := by
  unfold operationsOf at made
  split at made
  · rename_i same each
    cases made
    obtain ⟨⟨definition, i⟩, isDefinition, isMade⟩ := exists_mem_of_mapM_ok each member
    have sameName : op.name = definition.name := by
      unfold operation at isMade
      dsimp only at isMade
      cases declared : definition.declarations.mapM (·.variable) with
      | error e => rw [declared] at isMade; cases isMade
      | ok declarations =>
        rw [declared] at isMade
        cases isMade
        rfl
    have read : Query.parse literal.graphqlText = .ok document := by
      unfold Literal.document at parsed
      cases whole : Query.parse literal.graphqlText with
      | error e => rw [whole] at parsed; cases parsed
      | ok d => rw [whole] at parsed; cases parsed; rfl
    exact Query.isName_of_parse read (List.fst_mem_of_mem_zipIdx isDefinition) (sameName ▸ named)
  · cases made

namespace OperationIndex

/-- The operations of all entries have such names. -/
def HasNames (index : OperationIndex) : Prop :=
  ∀ e ∈ index.entries, ∀ op ∈ e.operations, ∀ name, op.name = some name → Query.IsName name

theorem hasNames_ofLiterals {literals : List Literal} {index : OperationIndex}
    (made : ofLiterals literals = .ok index) : index.HasNames := by
  intro e within op member name named
  obtain ⟨literal, _, isEntry⟩ := exists_outcome_of_mem made within
  unfold outcome at isEntry
  split at isEntry
  · cases isEntry
  · rename_i document parsed
    cases each : literal.operationsOf document with
    | error e => rw [each] at isEntry; cases isEntry
    | ok ops =>
      rw [each] at isEntry
      cases isEntry
      exact Literal.isName_of_mem_operationsOf parsed each member named

/-- Linking changes no name. -/
theorem HasNames.link {index : OperationIndex} (names : index.HasNames) : index.link.HasNames := by
  intro e within op member name named
  obtain ⟨old, isOld, rfl⟩ := List.mem_map.mp within
  unfold linkEntry at member
  split at member
  · exact names old isOld op member name named
  · exact names old isOld op member name named
  · obtain ⟨op, isOp, rfl⟩ := List.mem_map.mp member
    exact names old isOld op isOp name named

end OperationIndex

end InlineQuery
