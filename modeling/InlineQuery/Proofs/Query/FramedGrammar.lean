import InlineQuery.Proofs.Query.Framing
import InlineQuery.Proofs.Query.Grammar

/-!
The parsers of the grammar read the same with other tokens behind a construct. What ends with a
closing punctuator does so whatever follows; what may go on only where nothing that follows
continues it.
-/

namespace InlineQuery.Query

theorem Seam.ends_open (k : Seam) : k.Ends false := nofun

namespace Parser

variable {α β : Type} {k : Seam} {closed : Bool} {p : Punctuator}

/-! ### Single tokens -/

theorem mark_ne_eof (p : Punctuator) : Lexeme.mark p ≠ .eof := nofun

theorem firmAt_advance {x y : Token} {a : α} {lexeme : Lexeme} (isToken : x.lexeme = lexeme)
    (notEnd : lexeme ≠ .eof) :
    FirmAt k closed x y (advance >>= fun _ => pure a) (advance >>= fun _ => pure a) :=
  .advance (by rwa [isToken]) .pure

theorem firm_expect (p : Punctuator) : Firm k closed (expect p) (expect p) := by
  refine .peek fun x y same => ?_
  rw [← same]
  split
  · rw [← bind_pure_unit (x := advance)]
    exact firmAt_advance ‹_› (by nofun)
  · exact Firm.fail x y

theorem firm_expectKeyword (word : String) :
    Firm k closed (expectKeyword word) (expectKeyword word) := by
  refine .peek fun x y same => ?_
  rw [← same]
  split
  · rw [← bind_pure_unit (x := advance)]
    exact firmAt_advance ‹_› (by nofun)
  · exact Firm.fail x y

theorem firm_name : Firm k closed name name := by
  refine .peek fun x y same => ?_
  obtain ⟨lexeme, start, stop⟩ := x
  obtain ⟨_, start', stop'⟩ := y
  cases same
  cases lexeme with
  | name text => exact firmAt_advance rfl (by nofun)
  | _ => exact Firm.fail _ _

theorem beq_mark_of_quiet {lexeme : Lexeme} (quiet : lexeme.continues = false) :
    (lexeme == .mark p) = false := by
  refine beq_false_of_ne fun same => ?_
  rw [same] at quiet
  cases quiet

theorem frame_nextIs (ends : k.Ends closed) (p : Punctuator) :
    Frame k closed (nextIs p) (nextIs p) := by
  refine .peek ends (fun x y same => ?_) fun x y quiet quiet' => ?_
  · rw [same]
    exact Frame.pure x y
  · rw [beq_mark_of_quiet quiet, beq_mark_of_quiet quiet']
    exact Frame.pure x y

theorem frame_accept (ends : k.Ends closed) (p : Punctuator) :
    Frame k closed (accept p) (accept p) := by
  simp only [accept, nextIs, bind_assoc, pure_bind]
  refine .peek ends (fun x y same => ?_) fun x y quiet quiet' => ?_
  · rw [← same]
    split
    · exact (firmAt_advance (eq_of_beq ‹_›) (mark_ne_eof p)).toFrameAt
    · exact Frame.pure x y
  · rw [beq_mark_of_quiet quiet, beq_mark_of_quiet quiet']
    exact Frame.pure x y

theorem frame_acceptKeyword (word : String) :
    Frame k false (acceptKeyword word) (acceptKeyword word) := by
  refine .look fun x y same => ?_
  rw [← same]
  split
  · exact (firmAt_advance ‹_› (by nofun)).toFrameAt
  · exact Frame.pure x y

/-- The word that introduces interfaces. -/
theorem frame_acceptImplements (ends : k.Ends closed) :
    Frame k closed (acceptKeyword "implements") (acceptKeyword "implements") := by
  have other {x : Token} (quiet : x.lexeme.continues = false) :
      ¬x.lexeme = .name "implements" := fun same => by
    rw [same] at quiet
    cases quiet
  refine .peek ends (fun x y same => ?_) fun x y quiet quiet' => ?_
  · rw [← same]
    split
    · exact (firmAt_advance ‹_› (by nofun)).toFrameAt
    · exact Frame.pure x y
  · rw [if_neg (other quiet), if_neg (other quiet')]
    exact Frame.pure x y

/-! ### Lists -/

section
variable {opening closing : Punctuator} {item item' : Parser α} {size : Nat}

theorem firm_itemsUntil_succ {fuel fuel' : Nat}
    (more : Firm k closed (item >>= fun first => itemsUntil item closing fuel >>= fun rest =>
        pure (first :: rest))
      (item' >>= fun first => itemsUntil item' closing fuel' >>= fun rest =>
        pure (first :: rest))) :
    Firm k closed (itemsUntil item closing (fuel + 1)) (itemsUntil item' closing (fuel' + 1)) := by
  simp only [itemsUntil, accept, nextIs, bind_assoc, pure_bind]
  refine .peek fun x y same => ?_
  rw [← same]
  split
  · simp only [bind_assoc, pure_bind, if_true]
    exact firmAt_advance (eq_of_beq ‹_›) (mark_ne_eof closing)
  · simp only [pure_bind, Bool.false_eq_true, if_false]
    exact more x y

/-- Items of which each takes a token are read with any bound above the number of tokens. -/
theorem firm_itemsUntil (items : Firm k false item item') (fuel : Nat) {fuel' : Nat}
    (le : fuel' ≤ k.size) : Firm (k.within fuel') closed (itemsUntil item closing fuel)
      (itemsUntil item' closing fuel') := by
  induction fuel generalizing fuel' with
  | zero => exact .unexpected
  | succ fuel ih =>
    cases fuel' with
    | zero =>
      have more := (items.within (Nat.zero_le k.size)).frame.before fun first =>
        (ih (Nat.zero_le k.size)).bind fun rest => .pure (a := first :: rest)
      exact (firm_itemsUntil_succ more).at_zero
    | succ fuel' =>
      exact firm_itemsUntil_succ ((items.within le).before_within fun _ =>
        (ih (Nat.le_of_succ_le le)).bind fun _ => .pure)

variable {fuel : Nat} (items : Firm k false item item')
include items

theorem firm_anyOf : Firm k closed (anyOf fuel opening item closing)
    (anyOf k.size opening item' closing) :=
  (firm_expect opening).bind fun _ => (firm_itemsUntil items fuel (Nat.le_refl _)).frame

theorem firm_many : Firm k closed (many fuel opening item closing)
    (many k.size opening item' closing) :=
  (firm_expect opening).bind fun _ => (items.frame.before fun _ =>
    (firm_itemsUntil items fuel (Nat.le_refl _)).bind fun _ => .pure).frame

theorem frame_optionalMany (ends : k.Ends closed) :
    Frame k closed (optionalMany fuel opening item closing)
      (optionalMany k.size opening item' closing) := by
  refine (frame_nextIs ends opening).bind fun found => ?_
  split
  · exact (firm_many items).frame
  · exact .pure

end

section
variable {separator : Punctuator} {item : Parser α}

theorem firm_separated (ends : k.Ends closed) (items : Firm k closed item item) (fuel : Nat)
    {fuel' : Nat} (le : fuel' ≤ k.size) : Firm (k.within fuel') closed
      (separated separator item fuel) (separated separator item fuel') := by
  have more {k : Seam} (ends : k.Ends closed) (fuel fuel' : Nat)
      (ih : Frame k closed (separated separator item fuel) (separated separator item fuel'))
      (first : α) : Frame k closed
        (accept separator >>= fun found =>
          if found then separated separator item fuel >>= fun rest => pure (first :: rest)
          else pure [first])
        (accept separator >>= fun found =>
          if found then separated separator item fuel' >>= fun rest => pure (first :: rest)
          else pure [first]) := by
    refine (frame_accept ends separator).bind fun found => ?_
    split
    · exact ih.bind fun _ => .pure
    · exact .pure
  induction fuel generalizing fuel' with
  | zero => exact .unexpected
  | succ fuel ih =>
    cases fuel' with
    | zero =>
      have longer : Firm (k.within 0) closed (separated separator item (fuel + 1))
          (separated separator item (0 + 1)) := (items.within (Nat.zero_le k.size)).bind
        (more (k := k.within 0) ends fuel 0 (ih (Nat.zero_le k.size)).frame)
      exact longer.at_zero
    | succ fuel' =>
      exact (items.within le).bind_within
        (more (k := k.within fuel') ends fuel fuel' (ih (Nat.le_of_succ_le le)).frame)

theorem firm_delimited (ends : k.Ends closed) (items : Firm k closed item item) {fuel : Nat} :
    Firm k closed (delimited fuel separator item) (delimited k.size separator item) :=
  (frame_accept k.ends_open separator).before fun _ =>
    firm_separated ends items fuel (Nat.le_refl _)

end

/-! ### Values, types and directives -/

section
variable {const : Bool} {size room : Nat}

theorem firm_variableName : Firm k closed variableName variableName :=
  (firm_expect .dollar).bind fun _ => firm_name.frame

theorem firm_simpleValue : Firm k closed (simpleValue const) (simpleValue const) := by
  refine .peek fun x y same => ?_
  obtain ⟨lexeme, start, stop⟩ := x
  obtain ⟨_, start', stop'⟩ := y
  cases same
  dsimp only
  split
  all_goals first
    | exact firmAt_advance rfl (by nofun)
    | skip
  · split
    · -- A variable in a constant is refused in either case.
      refine .advance (by nofun) (Firm.refuse fun s a next ran => ?_).frame
      obtain ⟨t, middle, -, ran⟩ := bind_ok ran
      cases lexeme : t.lexeme <;> rw [lexeme] at ran <;> cases ran
    · exact (firm_variableName.bind fun _ => .pure) _ _
  · exact Firm.unexpectedToken _ _

theorem firm_entry {value value' : Parser Value} (values : Firm k closed value value') :
    Firm k closed (entry value) (entry value') :=
  firm_name.bind fun _ => ((firm_expect .colon).bind fun _ => (values.bind fun _ => .pure).frame).frame

theorem firm_value (room : Nat) :
    Firm k closed (value const size room) (value const k.size room) := by
  induction room generalizing closed with
  | zero =>
    refine .peek fun x y same => ?_
    rw [← same]
    split
    · exact Firm.tooDeep x y
    · exact Firm.tooDeep x y
    · exact firm_simpleValue x y
  | succ room ih =>
    refine .peek fun x y same => ?_
    rw [← same]
    split
    · exact ((firm_anyOf ih).bind fun _ => .pure) x y
    · exact ((firm_anyOf (firm_entry ih)).bind fun _ => .pure) x y
    · exact firm_simpleValue x y

theorem frame_nullability (ends : k.Ends closed) (type : TypeRef) :
    Frame k closed (nullability type) (nullability type) := by
  refine (frame_accept ends .bang).bind fun found => ?_
  split <;> exact .pure

theorem firm_typeRef (ends : k.Ends closed) (room : Nat) :
    Firm k closed (typeRef room) (typeRef room) := by
  have named : Firm k closed (name >>= fun text => nullability (.named text))
      (name >>= fun text => nullability (.named text)) :=
    firm_name.bind fun _ => frame_nullability ends _
  induction room generalizing closed with
  | zero =>
    refine (frame_accept k.ends_open .bracketL).before fun found => ?_
    split
    · exact .tooDeep
    · exact named
  | succ room ih =>
    refine (frame_accept k.ends_open .bracketL).before fun found => ?_
    split
    · refine (ih k.ends_open ?_).frame.before fun item => ?_
      · exact firm_name.bind fun _ => frame_nullability k.ends_open _
      · exact (firm_expect .bracketR).bind fun _ => frame_nullability ends _
    · exact named

theorem frame_arguments (ends : k.Ends closed) :
    Frame k closed (arguments const size room) (arguments const k.size room) :=
  frame_optionalMany (firm_entry (firm_value room)) ends

theorem frame_directivesFrom (ends : k.Ends closed) (fuel : Nat) {fuel' : Nat} (le : fuel' ≤ k.size) :
    Frame (k.within fuel') closed (directivesFrom const size room fuel)
      (directivesFrom const k.size room fuel') := by
  have more (k' : Seam) (ends : k'.Ends closed) {fuel fuel' : Nat}
      (named : Firm k' closed
        (name >>= fun text => arguments const size room >>= fun values =>
          directivesFrom const size room fuel >>= fun rest => pure (⟨text, values⟩ :: rest))
        (name >>= fun text => arguments const k.size room >>= fun values =>
          directivesFrom const k.size room fuel' >>= fun rest => pure (⟨text, values⟩ :: rest))) :
      Frame k' closed (directivesFrom const size room (fuel + 1))
        (directivesFrom const k.size room (fuel' + 1)) := by
    refine (frame_accept ends .at).bind fun found => ?_
    split
    · exact named.frame
    · exact .pure
  induction fuel generalizing fuel' with
  | zero => exact Firm.unexpected.frame
  | succ fuel ih =>
    cases fuel' with
    | zero =>
      have rest (values : List (String × Value)) (text : String) := (ih (Nat.zero_le k.size)).bind
        fun rest => .pure (a := (⟨text, values⟩ : Directive) :: rest)
      exact (more (k.within 0) ends (firm_name.bind fun text =>
        ((frame_arguments ends).within (Nat.zero_le k.size)).bind fun values =>
          rest values text)).at_zero
    | succ fuel' =>
      have smaller := Nat.le_of_succ_le le
      have named : Firm (k.within (fuel' + 1)) closed name name := firm_name
      exact more (k.within (fuel' + 1)) ends (named.bind_within fun text =>
        ((frame_arguments ends).within smaller).bind fun values =>
          (ih smaller).bind fun rest => .pure)

theorem frame_directives (ends : k.Ends closed) :
    Frame k closed (directives size room) (directives k.size room) :=
  frame_directivesFrom ends size (Nat.le_refl _)

theorem frame_constDirectives (ends : k.Ends closed) :
    Frame k closed (constDirectives size) (constDirectives k.size) :=
  frame_directivesFrom ends size (Nat.le_refl _)

theorem frame_description : Frame k false description description := by
  refine .look fun x y same => ?_
  rw [← same]
  split
  · exact (firmAt_advance ‹_› (by nofun)).toFrameAt
  · exact (firmAt_advance ‹_› (by nofun)).toFrameAt
  · exact Frame.pure x y

theorem frame_defaultValue (ends : k.Ends closed) :
    Frame k closed (defaultValue size) (defaultValue k.size) := by
  refine (frame_accept ends .equals).bind fun found => ?_
  split
  · rw [map_eq_pure_bind, map_eq_pure_bind]
    exact ((firm_value _).bind fun _ => .pure).frame
  · exact .pure

/-! ### Selections -/

theorem firm_fragmentName : Firm k closed fragmentName fragmentName := by
  refine .peek fun x y same => ?_
  rw [← same]
  split
  · exact Firm.unexpected x y
  · exact firm_name x y

theorem firm_selection {nested nested' : Parser (List Selection)}
    (inner : Firm k false nested nested') :
    Firm k false (selection size room nested) (selection k.size room nested') := by
  have directives : Frame k false (directives size room) (directives k.size room) :=
    frame_directives k.ends_open
  refine (frame_accept k.ends_open .spread).before fun isSpread => ?_
  split
  · refine (frame_acceptKeyword "on").before fun isTyped => ?_
    split
    · exact firm_name.bind fun _ => directives.bind fun _ => (inner.bind fun _ => .pure).frame
    · refine .peek fun x y same => ?_
      rw [← same]
      split
      · exact (firm_fragmentName.bind fun _ => directives.bind fun _ => .pure) x y
      · exact (directives.before fun _ => inner.bind fun _ => .pure) x y
  · refine firm_name.bind fun first => (frame_accept k.ends_open .colon).bind fun renamed => ?_
    simp only [pure_bind]
    have rest (make : List (String × Value) → List Directive → Option (List Selection) → Selection) :
        Frame k false
          (do
            let arguments ← arguments false size room
            let directives ← Parser.directives size room
            if ← nextIs .braceL then return make arguments directives (← some <$> nested)
            else return make arguments directives none)
          (do
            let arguments ← arguments false k.size room
            let directives ← Parser.directives k.size room
            if ← nextIs .braceL then return make arguments directives (← some <$> nested')
            else return make arguments directives none) := by
      refine (frame_arguments k.ends_open).bind fun _ => directives.bind fun _ =>
        (frame_nextIs k.ends_open .braceL).bind fun hasBlock => ?_
      split
      · rw [map_eq_pure_bind, map_eq_pure_bind]
        exact (inner.frame.bind fun _ => .pure).bind fun _ => .pure
      · exact Frame.pure
    split
    · exact firm_name.frame.bind fun _ => rest _
    · exact rest _

theorem firm_selectionSetWithin (room : Nat) :
    Firm k closed (selectionSetWithin size room) (selectionSetWithin k.size room) := by
  induction room generalizing closed with
  | zero => exact .tooDeep
  | succ room ih => exact firm_anyOf (firm_selection ih)

theorem firm_selectionSet : Firm k closed (selectionSet size) (selectionSet k.size) :=
  firm_selectionSetWithin _

/-! ### Parts of definitions -/

theorem firm_variableDefinition :
    Firm k false (variableDefinition size) (variableDefinition k.size) :=
  frame_description.before fun _ => firm_variableName.bind fun _ =>
    ((firm_expect .colon).bind fun _ => ((firm_typeRef k.ends_open _).bind fun _ =>
      (frame_defaultValue k.ends_open).bind fun _ =>
        (frame_constDirectives k.ends_open).bind fun _ => .pure).frame).frame

theorem firm_inputDefinition : Firm k false (inputDefinition size) (inputDefinition k.size) :=
  frame_description.before fun _ => firm_name.bind fun _ =>
    ((firm_expect .colon).bind fun _ => ((firm_typeRef k.ends_open _).bind fun _ =>
      (frame_defaultValue k.ends_open).bind fun _ =>
        (frame_constDirectives k.ends_open).bind fun _ => .pure).frame).frame

theorem firm_fieldDefinition : Firm k false (fieldDefinition size) (fieldDefinition k.size) :=
  frame_description.before fun _ => firm_name.bind fun _ =>
    (frame_optionalMany firm_inputDefinition k.ends_open).bind fun _ =>
      ((firm_expect .colon).bind fun _ => ((firm_typeRef k.ends_open _).bind fun _ =>
        (frame_constDirectives k.ends_open).bind fun _ => .pure).frame).frame

theorem firm_enumValue : Firm k false (enumValue size) (enumValue k.size) := by
  refine frame_description.before fun description => .peek fun x y same => ?_
  have rest : Firm k false
      (name >>= fun text => constDirectives size >>= fun directives =>
        pure (⟨description, text, directives⟩ : EnumValueDefinition))
      (name >>= fun text => constDirectives k.size >>= fun directives =>
        pure ⟨description, text, directives⟩) :=
    firm_name.bind fun _ => (frame_constDirectives k.ends_open).bind fun _ => .pure
  rw [← same]
  dsimp only
  split
  · exact (Firm.fail.bind fun _ => rest.frame) x y
  · exact rest x y

theorem firm_operationKind : Firm k closed operationKind operationKind := by
  refine .peek fun x y _ => (firm_name.bind fun text => ?_) x y
  split
  · exact .pure
  · exact Firm.unexpectedToken.frame

theorem firm_rootType : Firm k closed rootType rootType :=
  firm_operationKind.bind fun _ => ((firm_expect .colon).bind fun _ =>
    (firm_name.bind fun _ => .pure).frame).frame

theorem frame_interfaces (ends : k.Ends closed) :
    Frame k closed (interfaces size) (interfaces k.size) := by
  refine (frame_acceptImplements ends).bind fun found => ?_
  split
  · exact (firm_delimited ends firm_name).frame
  · exact .pure

theorem frame_typeBody (ends : k.Ends closed) (keyword : String) :
    Frame k closed (typeBody size keyword) (typeBody k.size keyword) := by
  have directives : Frame k closed (constDirectives size) (constDirectives k.size) :=
    frame_constDirectives ends
  unfold typeBody
  split
  · exact directives.bind fun _ => .pure
  · refine directives.bind fun _ => (frame_accept ends .equals).bind fun found => ?_
    dsimp only
    split
    · exact (firm_delimited ends firm_name).frame.bind fun _ => .pure
    · exact Frame.pure
  · exact directives.bind fun _ => (frame_optionalMany firm_enumValue ends).bind fun _ => .pure
  · exact directives.bind fun _ => (frame_optionalMany firm_inputDefinition ends).bind fun _ => .pure
  · exact (frame_interfaces ends).bind fun _ => directives.bind fun _ =>
      (frame_optionalMany firm_fieldDefinition ends).bind fun _ => .pure
  · exact (frame_interfaces ends).bind fun _ => directives.bind fun _ =>
      (frame_optionalMany firm_fieldDefinition ends).bind fun _ => .pure

/-! ### Definitions -/

theorem firm_operation : Firm k closed (operation size) (operation k.size) := by
  refine (frame_nextIs k.ends_open .braceL).before fun isShorthand => ?_
  split
  · exact firm_selectionSet.bind fun _ => .pure
  · refine frame_description.before fun description => firm_operationKind.frame.before fun kind =>
      ?_
    have rest (name : Option String) : Firm k closed
        (do
          let declarations ← optionalMany size .parenL (variableDefinition size) .parenR
          return (⟨description, kind, name, declarations, ← directives size nestingLimit,
            ← selectionSet size⟩ : OperationDefinition))
        (do
          let declarations ← optionalMany k.size .parenL (variableDefinition k.size) .parenR
          return (⟨description, kind, name, declarations, ← directives k.size nestingLimit,
            ← selectionSet k.size⟩ : OperationDefinition)) :=
      (frame_optionalMany firm_variableDefinition k.ends_open).before fun _ =>
        (frame_directives k.ends_open).before fun _ => firm_selectionSet.bind fun _ => .pure
    simp only [pure_bind, map_eq_pure_bind, bind_assoc]
    refine .peek fun x y same => ?_
    rw [← same]
    split
    · exact (firm_name.frame.before fun _ => rest _) x y
    · exact rest none x y

theorem firm_fragment : Firm k closed (fragment size) (fragment k.size) :=
  frame_description.before fun _ => (firm_expectKeyword "fragment").bind fun _ =>
    (firm_fragmentName.bind fun _ => ((firm_expectKeyword "on").bind fun _ =>
      (firm_name.frame.before fun _ => (frame_directives k.ends_open).before fun _ =>
        firm_selectionSet.bind fun _ => .pure).frame).frame).frame

theorem firm_typeDefinition (ends : k.Ends closed) (keyword : String) :
    Firm k closed (typeDefinition size keyword) (typeDefinition k.size keyword) :=
  frame_description.before fun _ => (firm_expectKeyword keyword).bind fun _ =>
    (firm_name.bind fun _ => (frame_typeBody ends keyword).bind fun _ => .pure).frame

theorem firm_typeExtension (ends : k.Ends closed) (keyword : String) :
    Firm k closed (typeExtension size keyword) (typeExtension k.size keyword) :=
  (firm_expectKeyword "extend").bind fun _ => ((firm_expectKeyword keyword).bind fun _ =>
    (firm_name.bind fun _ => (frame_typeBody ends keyword).bind fun (directives, shape) => by
      dsimp only
      split
      · exact Firm.unexpected.frame.bind fun _ => .pure
      · exact .pure).frame).frame

theorem firm_schemaDefinition : Firm k closed (schemaDefinition size) (schemaDefinition k.size) :=
  frame_description.before fun _ => (firm_expectKeyword "schema").frame.before fun _ =>
    (frame_constDirectives k.ends_open).before fun _ => (firm_many firm_rootType).bind fun _ => .pure

theorem firm_schemaExtension (ends : k.Ends closed) :
    Firm k closed (schemaExtension size) (schemaExtension k.size) :=
  (firm_expectKeyword "extend").bind fun _ => ((firm_expectKeyword "schema").bind fun _ =>
    (frame_constDirectives ends).bind fun directives =>
      (frame_optionalMany firm_rootType ends).bind fun roots => by
        dsimp only
        split
        · exact Firm.unexpected.frame.bind fun _ => .pure
        · exact .pure).frame

theorem firm_directiveLocation : Firm k closed directiveLocation directiveLocation := by
  refine .peek fun x y _ => (firm_name.bind fun text => ?_) x y
  split
  · exact .pure
  · exact Firm.unexpectedToken.frame

theorem firm_directiveDefinition (ends : k.Ends closed) :
    Firm k closed (directiveDefinition size) (directiveDefinition k.size) :=
  frame_description.before fun _ => (firm_expectKeyword "directive").frame.before fun _ =>
    (firm_expect .at).frame.before fun _ => firm_name.frame.before fun _ =>
      (frame_optionalMany firm_inputDefinition k.ends_open).before fun _ =>
        (frame_constDirectives k.ends_open).before fun _ =>
          (frame_acceptKeyword "repeatable").before fun _ => (firm_expectKeyword "on").bind fun _ =>
            ((firm_delimited ends firm_directiveLocation).bind fun _ => .pure).frame

theorem firm_directiveExtension (ends : k.Ends closed) :
    Firm k closed (directiveExtension size) (directiveExtension k.size) :=
  (firm_expectKeyword "extend").bind fun _ => ((firm_expectKeyword "directive").bind fun _ =>
    ((firm_expect .at).bind fun _ => (firm_name.bind fun _ =>
      (frame_constDirectives ends).bind fun directives => by
        dsimp only
        split
        · exact Firm.unexpected.frame.bind fun _ => .pure
        · exact .pure).frame).frame).frame

theorem peekSecond_of_tokens {s : Cursor} {t u : Token} {ts : List Token}
    (isCons : s.tokens = t :: u :: ts) : peekSecond s = .ok (u, s) := by
  unfold peekSecond
  rw [isCons]

/-- A look at the second token, which is one of those that are taken. -/
theorem firmAt_peekSecond {x y : Token} {f g : Token → Parser α}
    (two : ∀ ⦃s a next⦄, s.IsReadable → peek s = .ok (x, s) → (peekSecond >>= f) s = .ok (a, next) →
      next.IsReadable ∧ next.tokens.length + 2 ≤ s.tokens.length)
    (same : ∀ t t', t.lexeme = t'.lexeme → FirmAt k closed x y (f t) (g t')) :
    FirmAt k closed x y (peekSecond >>= f) (peekSecond >>= g) where
  shrinks s a next readable peeked ran := by
    obtain ⟨readable, le⟩ := two readable peeked ran
    exact ⟨readable, by omega⟩
  consumes s a next readable peeked ran := by
    have le := (two readable peeked ran).2
    omega
  goes s t a next agrees peeked peeked' ran := by
    have le := (two agrees.readable peeked ran).2
    obtain ⟨us, us', tokens, tokens', alike⟩ := agrees.shared
    match us, us', alike with
    | _ :: u :: us, _ :: u' :: us', alike =>
      rw [bind_of_ok (peekSecond_of_tokens tokens)] at ran
      rw [bind_of_ok (peekSecond_of_tokens tokens')]
      have second : u.lexeme = u'.lexeme := (List.cons.inj (List.cons.inj alike).2).1
      exact (same u u' second).goes agrees peeked peeked' ran
    | [], _, _ =>
      rw [tokens, List.nil_append] at le
      exact .inr (.of_lt (by omega) closed)
    | [_], _, _ =>
      rw [tokens, List.length_append, List.length_singleton] at le
      exact .inr (.of_lt (by omega) closed)
    | _ :: _ :: _, [_], alike => simp at alike

/-- What begins with a string, or with the word that introduces an extension, has a second token. -/
theorem two_le_of_isDefinition {s next : Cursor} {x : Token} {used : List Token}
    (readable : s.IsReadable) (peeked : peek s = .ok (x, s)) (takes : s.Takes used next)
    (isDefinition : IsDefinition used)
    (introduces : x.lexeme.isString = true ∨ x.lexeme = .name "extend") :
    next.IsReadable ∧ next.tokens.length + 2 ≤ s.tokens.length := by
  have readableNext : next.IsReadable := by
    obtain ⟨t, ends, isEnd⟩ := readable
    exact ⟨t, takes.ending.trans ends, isEnd⟩
  refine ⟨readableNext, ?_⟩
  have tokens := takes.tokens
  have isFirst {t : Token} {ts : List Token} (isUsed : used = t :: ts) : t = x := by
    rw [isUsed, List.cons_append] at tokens
    exact (eq_of_peek tokens peeked).symm
  have atLeast : 2 ≤ used.length := by
    cases isDefinition with
    | shorthand isGroup =>
      obtain ⟨first, inner, last, rfl, isBrace, -⟩ := isGroup
      simp
    | @plain key body isKeyword notExtend =>
      obtain ⟨text, isName⟩ := Lexeme.name_of_isKeyword isKeyword
      cases isFirst rfl
      rcases introduces with isString | isExtend
      · rw [isName] at isString
        cases isString
      · exact absurd isExtend notExtend
    | described => simp
    | extension => simp
  rw [tokens, List.length_append]
  omega

theorem firm_extension (ends : k.Ends closed) {x y : Token} (isExtend : x.lexeme = .name "extend") :
    FirmAt k closed x y (extension size) (extension k.size) := by
  refine firmAt_peekSecond (fun s a next readable peeked ran => ?_) fun t t' same => ?_
  · obtain ⟨used, takes, isDefinition⟩ := reads_extensionOf readable.isSound ran
    exact two_le_of_isDefinition readable peeked takes isDefinition (.inr isExtend)
  · obtain ⟨lexeme, start, stop⟩ := t
    obtain ⟨_, start', stop'⟩ := t'
    cases same
    dsimp only
    split
    · exact ((firm_schemaExtension ends).bind fun _ => .pure) x y
    · exact ((firm_directiveExtension ends).bind fun _ => .pure) x y
    · split
      · exact ((firm_typeExtension ends _).bind fun _ => .pure) x y
      · exact Firm.unexpectedToken x y
    · exact Firm.unexpectedToken x y

theorem firm_definition (ends : k.Ends closed) :
    Firm k closed (definition size) (definition k.size) := by
  refine .peek fun x y same => ?_
  rw [← same]
  split
  · exact (firm_operation.bind fun _ => .pure) _ _
  · rename_i notBrace
    extract_lets described told told'
    have rest (t t' : Token) (alike : t.lexeme = t'.lexeme)
        (isFirst : described = false → t.lexeme = x.lexeme) :
        FirmAt k closed x y (told t) (told' t') := by
      dsimp only [told, told']
      rw [← alike]
      split
      · exact (firm_schemaDefinition.bind fun _ => .pure) x y
      · exact ((firm_directiveDefinition ends).bind fun _ => .pure) x y
      · exact (firm_operation.bind fun _ => .pure) x y
      · exact (firm_operation.bind fun _ => .pure) x y
      · exact (firm_operation.bind fun _ => .pure) x y
      · exact (firm_fragment.bind fun _ => .pure) x y
      · rename_i keyword _ _ _ _ _ _ isName
        split
        · exact ((firm_typeDefinition ends keyword).bind fun _ => .pure) x y
        · split
          · exact Firm.fail x y
          · rename_i notDescribed
            split
            · rename_i isExtend
              have isFirst := isFirst (Bool.eq_false_iff.mpr notDescribed)
              exact firm_extension ends (by rw [← isFirst, isName, isExtend])
            · exact Firm.unexpectedToken x y
      · exact Firm.fail x y
      · exact Firm.unexpectedToken x y
    split
    · rename_i isDescribed
      have isString : x.lexeme.isString = true := by
        dsimp only [described] at isDescribed
        cases lexeme : x.lexeme <;> rw [lexeme] at isDescribed <;> first | rfl | cases isDescribed
      refine firmAt_peekSecond (fun s a next readable peeked ran => ?_) fun t t' alike =>
        rest t t' alike fun notDescribed => absurd (isDescribed.symm.trans notDescribed) nofun
      have whole : definition size s = (if described = true then peekSecond >>= told
          else peek >>= told) s := by
        unfold definition
        rw [bind_of_ok peeked]
        exact congrFun (if_neg notBrace) s
      rw [if_pos isDescribed, ran] at whole
      obtain ⟨used, takes, isDefinition⟩ := reads_definition readable.isSound whole
      exact two_le_of_isDefinition readable peeked takes isDefinition (.inl isString)
    · exact .peek (rest x y same fun _ => rfl)

end

end Parser

end InlineQuery.Query
