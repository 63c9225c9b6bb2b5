import InlineQuery.Proofs.Query.Reading

/-!
The token lists that the parsers of the grammar take. Constructs that only occur inside brackets are
read as nested tokens; what stands in the open is read as a header, so that it is known where
brackets begin.
-/

namespace InlineQuery.Query

theorem IsNested.single {t : Token} (opens : t.lexeme.opens = false)
    (closes : t.lexeme.closes = false) : IsNested [t] := .cons opens closes .nil

/-- Just one token, of a given reading. -/
def IsOne (lexeme : Lexeme) (ts : List Token) : Prop := ∃ t, ts = [t] ∧ t.lexeme = lexeme

theorem IsOne.isNested {lexeme : Lexeme} {ts : List Token} (one : IsOne lexeme ts)
    (opens : lexeme.opens = false) (closes : lexeme.closes = false) : IsNested ts := by
  obtain ⟨t, rfl, rfl⟩ := one
  exact .single opens closes

theorem IsOne.isHeader {text : String} {ts : List Token} (one : IsOne (.name text) ts) :
    IsHeader ts := by
  obtain ⟨t, rfl, isName⟩ := one
  exact .name isName .nil

namespace Parser

variable {α β : Type}

/-- A parser of nested tokens. -/
def ReadsNested (p : Parser α) : Prop := Reads p fun _ => IsNested

/-- A parser of what may stand in a header. -/
def ReadsHeader (p : Parser α) : Prop := Reads p fun _ => IsHeader

theorem ReadsNested.bind {p : Parser α} {f : α → Parser β} (first : ReadsNested p)
    (second : ∀ a, ReadsNested (f a)) : ReadsNested (p >>= f) :=
  Reads.seq .append first second

theorem ReadsHeader.bind {p : Parser α} {f : α → Parser β} (first : ReadsHeader p)
    (second : ∀ a, ReadsHeader (f a)) : ReadsHeader (p >>= f) :=
  Reads.seq .append first second

theorem ReadsNested.map {p : Parser α} {f : α → β} (reads : ReadsNested p) :
    ReadsNested (f <$> p) := by
  rw [map_eq_pure_bind]
  exact reads.bind fun _ => Reads.pure .nil

theorem ReadsNested.pure {a : α} : ReadsNested (Pure.pure a) := Reads.pure .nil

theorem ReadsHeader.pure {a : α} : ReadsHeader (Pure.pure a) := Reads.pure .nil

theorem ReadsHeader.map {p : Parser α} {f : α → β} (reads : ReadsHeader p) :
    ReadsHeader (f <$> p) := by
  rw [map_eq_pure_bind]
  exact reads.bind fun _ => Reads.pure .nil

theorem ReadsHeader.nested {p : Parser α} (reads : ReadsHeader p) : ReadsNested p :=
  reads.mono fun _ _ => IsHeader.isNested

/-! ### Single tokens -/

/-- One token of a given reading if it is found, otherwise none. -/
def IsOneIf (lexeme : Lexeme) (found : Bool) (ts : List Token) : Prop :=
  if found then IsOne lexeme ts else ts = []

/-- Takes the token that comes next, which has a reading that is not the end. -/
theorem readsAt_advance {t : Token} {lexeme : Lexeme} {a : α} {P : α → List Token → Prop}
    (isToken : t.lexeme = lexeme) (notEnd : lexeme ≠ .eof) (fits : ∀ u, IsOne lexeme u → P a u) :
    ReadsAt t (advance >>= fun _ => pure a) P :=
  .advance (by rwa [isToken]) (.pure (P := fun b u => b = a ∧ u = []) ⟨rfl, rfl⟩)
    (by rintro _ _ ⟨rfl, rfl⟩; exact fits _ ⟨t, rfl, isToken⟩)

theorem reads_nextIs {f : Bool → Parser β} {R : β → List Token → Prop} (p : Punctuator)
    (second : ∀ found, Reads (f found) R) : Reads (nextIs p >>= f) R := by
  refine .look (fun s a next ran => ?_) second
  obtain ⟨t, middle, peeked, returned⟩ := bind_ok ran
  cases returned
  exact peek_ok peeked

theorem reads_accept (p : Punctuator) : Reads (accept p) (IsOneIf (.mark p)) := by
  simp only [accept, nextIs, bind_assoc, pure_bind]
  refine .peek fun t => ?_
  split
  · exact readsAt_advance (eq_of_beq ‹_›) (by nofun) fun _ => id
  · exact Reads.readsAt (.pure (by exact rfl)) t

theorem reads_acceptKeyword (word : String) :
    Reads (acceptKeyword word) (IsOneIf (.name word)) := by
  refine .peek fun t => ?_
  split
  · exact readsAt_advance ‹_› (by nofun) fun _ => id
  · exact Reads.readsAt (.pure (by exact rfl)) t

theorem reads_expect (p : Punctuator) : Reads (expect p) fun _ => IsOne (.mark p) := by
  refine .peek fun t => ?_
  split
  · rw [← bind_pure_unit (x := advance)]
    exact readsAt_advance ‹_› (by nofun) fun _ => id
  · exact Reads.fail.readsAt t

theorem reads_expectKeyword (word : String) :
    Reads (expectKeyword word) fun _ => IsOne (.name word) := by
  refine .peek fun t => ?_
  split
  · rw [← bind_pure_unit (x := advance)]
    exact readsAt_advance ‹_› (by nofun) fun _ => id
  · exact Reads.fail.readsAt t

theorem reads_name : Reads name fun text => IsOne (.name text) := by
  refine .peek fun t => ?_
  split
  · exact readsAt_advance ‹_› (by nofun) fun _ => id
  · exact Reads.fail.readsAt t

theorem readsHeader_name : ReadsHeader name := reads_name.mono fun _ _ => IsOne.isHeader

theorem readsHeader_acceptKeyword (word : String) : ReadsHeader (acceptKeyword word) :=
  (reads_acceptKeyword word).mono fun
    | true, _, one => IsOne.isHeader one
    | false, _, nothing => by cases nothing; exact .nil

theorem readsHeader_expectKeyword (word : String) : ReadsHeader (expectKeyword word) :=
  (reads_expectKeyword word).mono fun _ _ => IsOne.isHeader

theorem readsNested_accept {p : Punctuator} (opens : (Lexeme.mark p).opens = false)
    (closes : (Lexeme.mark p).closes = false) : ReadsNested (accept p) :=
  (reads_accept p).mono fun
    | true, _, one => IsOne.isNested one opens closes
    | false, _, nothing => by cases nothing; exact .nil

theorem readsHeader_accept {p : Punctuator}
    (isSign : Lexeme.mark p ∈ [Lexeme.mark .equals, .mark .pipe, .mark .amp]) :
    ReadsHeader (accept p) :=
  (reads_accept p).mono fun
    | true, _, ⟨_, same, isMark⟩ => same ▸ .sign (isMark ▸ isSign) .nil
    | false, _, nothing => by cases nothing; exact .nil

theorem readsNested_expect {p : Punctuator} (opens : (Lexeme.mark p).opens = false)
    (closes : (Lexeme.mark p).closes = false) : ReadsNested (expect p) :=
  (reads_expect p).mono fun _ _ one => one.isNested opens closes

/-! ### Lists -/

section
variable {opening closing : Punctuator} {item : Parser α} {fuel : Nat}

/-- Nested tokens up to a closing punctuator. -/
def IsRest (closing : Punctuator) (ts : List Token) : Prop :=
  ∃ inner last, ts = inner ++ [last] ∧ IsNested inner ∧ last.lexeme = .mark closing

theorem IsRest.after {inner rest : List Token} (first : IsNested inner)
    (second : IsRest closing rest) : IsRest closing (inner ++ rest) := by
  obtain ⟨more, last, rfl, isNested, isLast⟩ := second
  exact ⟨inner ++ more, last, by rw [List.append_assoc], first.append isNested, isLast⟩

theorem ReadsNested.before {p : Parser α} {f : α → Parser β} (first : ReadsNested p)
    (second : ∀ a, Reads (f a) fun _ => IsRest closing) :
    Reads (p >>= f) fun _ => IsRest closing :=
  Reads.bind first second fun _ _ _ _ => .after

theorem reads_itemsUntil (items : ReadsNested item) (fuel : Nat) :
    Reads (itemsUntil item closing fuel) fun _ => IsRest closing := by
  induction fuel with
  | zero => exact .unexpected
  | succ fuel ih =>
    refine (reads_accept closing).bind
      (Q := fun found _ u => if found then u = [] else IsRest closing u) (fun found => ?_) ?_
    · cases found with
      | true => exact .pure rfl
      | false =>
        exact items.before fun first => ih.returning fun _ _ => id
    · rintro (_ | _) _ u v took rest
      · cases took
        exact rest
      · obtain ⟨last, rfl, isLast⟩ := took
        cases rest
        exact ⟨[], last, rfl, .nil, isLast⟩

theorem IsRest.isGroup {opening : Punctuator} {first rest : List Token}
    (one : IsOne (.mark opening) first) (second : IsRest closing rest) :
    IsGroup opening closing (first ++ rest) := by
  obtain ⟨t, rfl, isFirst⟩ := one
  obtain ⟨inner, last, rfl, isNested, isLast⟩ := second
  exact ⟨t, inner, last, rfl, isFirst, isNested, isLast⟩

theorem reads_anyOf (items : ReadsNested item) :
    Reads (anyOf fuel opening item closing) fun _ => IsGroup opening closing :=
  (reads_expect opening).bind (fun _ => reads_itemsUntil items fuel) fun _ _ _ _ => IsRest.isGroup

theorem reads_many (items : ReadsNested item) :
    Reads (many fuel opening item closing) fun _ => IsGroup opening closing :=
  (reads_expect opening).bind
    (fun _ => items.before fun _ => (reads_itemsUntil items fuel).returning fun _ _ => id)
    fun _ _ _ _ => IsRest.isGroup

theorem reads_optionalMany (items : ReadsNested item) :
    Reads (optionalMany fuel opening item closing) fun _ u =>
      u = [] ∨ IsGroup opening closing u := by
  refine reads_nextIs opening fun found => ?_
  split
  · exact (reads_many items).mono fun _ _ => .inr
  · exact .pure (.inl rfl)

/-- Arguments in parentheses may stand in a header. -/
theorem readsHeader_optionalMany (items : ReadsNested item) :
    ReadsHeader (optionalMany fuel .parenL item .parenR) :=
  (reads_optionalMany items).mono fun _ u either => either.elim (fun nothing => nothing ▸ .nil)
    fun group => List.append_nil u ▸ .arguments group .nil

theorem readsHeader_separated {separator : Punctuator}
    (isSign : Lexeme.mark separator ∈ [Lexeme.mark .equals, .mark .pipe, .mark .amp])
    (items : ReadsHeader item) (fuel : Nat) : ReadsHeader (separated separator item fuel) := by
  induction fuel with
  | zero => exact .unexpected
  | succ fuel ih =>
    refine items.bind fun first => (readsHeader_accept isSign).bind fun found => ?_
    split
    · exact ih.bind fun _ => .pure
    · exact .pure

theorem readsHeader_delimited {separator : Punctuator}
    (isSign : Lexeme.mark separator ∈ [Lexeme.mark .equals, .mark .pipe, .mark .amp])
    (items : ReadsHeader item) : ReadsHeader (delimited fuel separator item) :=
  (readsHeader_accept isSign).bind fun _ => readsHeader_separated isSign items fuel

end

/-! ### Values, types and directives -/

section
variable {const : Bool} {size room fuel : Nat}

theorem readsNested_variableName : ReadsNested variableName :=
  (readsNested_expect rfl rfl).bind fun _ => readsHeader_name.nested

theorem readsNested_simpleValue : ReadsNested (simpleValue const) := by
  refine .peek fun t => ?_
  split
  all_goals first
    | exact readsAt_advance ‹_› (by nofun) fun _ one => one.isNested rfl rfl
    | skip
  · split
    · -- A variable in a constant is refused in either case.
      refine .advance (by rw [‹t.lexeme = _›]; nofun)
        (.look (fun _ _ _ => peek_ok) fun next => ?_) fun _ _ => False.elim
      split
      · exact .fail
      · exact .unexpectedToken
    · exact Reads.readsAt (readsNested_variableName.bind fun _ => .pure) t
  · exact Reads.unexpectedToken.readsAt t

theorem readsNested_entry {value : Parser Value} (values : ReadsNested value) :
    ReadsNested (entry value) :=
  readsHeader_name.nested.bind fun _ => (readsNested_expect rfl rfl).bind fun _ =>
    values.bind fun _ => .pure

theorem readsNested_value (room : Nat) : ReadsNested (value const size room) := by
  induction room with
  | zero =>
    refine .look (fun _ _ _ => peek_ok) fun t => ?_
    split
    · exact .look (fun _ _ _ => peek_ok) fun _ => .fail
    · exact .look (fun _ _ _ => peek_ok) fun _ => .fail
    · exact readsNested_simpleValue
  | succ room ih =>
    refine .look (fun _ _ _ => peek_ok) fun t => ?_
    split
    · exact (reads_anyOf ih).returning fun _ _ => IsGroup.isNested rfl rfl
    · exact (reads_anyOf (readsNested_entry ih)).returning fun _ _ => IsGroup.isNested rfl rfl
    · exact readsNested_simpleValue

theorem readsNested_nullability {type : TypeRef} : ReadsNested (nullability type) := by
  refine (readsNested_accept rfl rfl).bind fun found => ?_
  split <;> exact .pure

theorem readsNested_typeRef (room : Nat) : ReadsNested (typeRef room) := by
  induction room with
  | zero =>
    refine (reads_accept .bracketL).bind (Q := fun found _ u => found = false ∧ IsNested u)
      (fun found => ?_) ?_
    · cases found
      · exact (readsHeader_name.nested.bind fun _ => readsNested_nullability).mono
          fun _ _ nested => ⟨rfl, nested⟩
      · exact .look (fun _ _ _ => peek_ok) fun _ => .fail
    · rintro _ _ u v took ⟨rfl, nested⟩
      cases took
      exact nested
  | succ room ih =>
    refine (reads_accept .bracketL).bind (Q := fun found _ u => if found then
      ∃ inner last mark, u = inner ++ last :: mark ∧ IsNested inner ∧
        last.lexeme = .mark .bracketR ∧ IsNested mark else IsNested u) (fun found => ?_) ?_
    · cases found
      · exact readsHeader_name.nested.bind fun _ => readsNested_nullability
      · refine Reads.bind ih (fun item => (reads_expect .bracketR).bind
          (fun _ => readsNested_nullability) fun _ _ u v one (nested : IsNested v) => ?_)
          (Q := fun _ _ u => ∃ last mark, u = last :: mark ∧ last.lexeme = .mark .bracketR ∧
            IsNested mark) ?_
        · obtain ⟨last, rfl, isLast⟩ := one
          exact ⟨last, v, rfl, isLast, nested⟩
        · rintro _ _ inner _ nested ⟨last, mark, rfl, isLast, more⟩
          exact ⟨inner, last, mark, rfl, nested, isLast, more⟩
    · rintro (_ | _) _ u v took fits
      · cases took
        exact fits
      · obtain ⟨first, rfl, isFirst⟩ := took
        obtain ⟨inner, last, mark, rfl, nested, isLast, more⟩ := fits
        exact .group (by rw [isFirst]; rfl) nested (by rw [isLast]; rfl) more

theorem readsHeader_arguments : ReadsHeader (arguments const size room) :=
  readsHeader_optionalMany (readsNested_entry (readsNested_value room))

theorem readsHeader_directivesFrom (fuel : Nat) :
    ReadsHeader (directivesFrom const size room fuel) := by
  induction fuel with
  | zero => exact .unexpected
  | succ fuel ih =>
    refine (reads_accept .at).bind (Q := fun found _ u => if found then
      ∃ t text rest, u = t :: rest ∧ t.lexeme = .name text ∧ IsHeader rest else u = [])
      (fun found => ?_) ?_
    · cases found
      · exact .pure rfl
      · refine reads_name.bind (fun text => readsHeader_arguments.bind fun _ => ih.bind fun _ => .pure)
          fun text _ u v one (header : IsHeader v) => ?_
        obtain ⟨t, rfl, isName⟩ := one
        exact ⟨t, text, v, rfl, isName, header⟩
    · rintro (_ | _) _ u v took fits
      · cases took
        cases fits
        exact .nil
      · obtain ⟨sign, rfl, isSign⟩ := took
        obtain ⟨t, text, rest, rfl, isName, header⟩ := fits
        exact .directive isSign isName header

theorem readsHeader_directives : ReadsHeader (directives size room) :=
  readsHeader_directivesFrom size

theorem readsHeader_constDirectives : ReadsHeader (constDirectives size) :=
  readsHeader_directivesFrom size

/-- A description, if there is one. -/
def IsDescription (ts : List Token) : Prop :=
  ts = [] ∨ ∃ t, ts = [t] ∧ t.lexeme.isString = true

theorem reads_description : Reads description fun _ => IsDescription := by
  have of_one {lexeme : Lexeme} {u : List Token} (one : IsOne lexeme u)
      (isString : lexeme.isString = true) : IsDescription u := by
    obtain ⟨t, rfl, rfl⟩ := one
    exact .inr ⟨t, rfl, isString⟩
  refine .peek fun t => ?_
  split
  · exact readsAt_advance ‹_› (by nofun) fun u one => of_one one rfl
  · exact readsAt_advance ‹_› (by nofun) fun u one => of_one one rfl
  · exact Reads.readsAt (.pure (.inl rfl)) t

theorem readsNested_description : ReadsNested description :=
  reads_description.mono fun
    | _, _, .inl nothing => nothing ▸ .nil
    | _, _, .inr ⟨t, same, isString⟩ => by
      subst same
      cases lexeme : t.lexeme <;> rw [lexeme] at isString <;> cases isString <;>
        exact .single (by rw [lexeme]; rfl) (by rw [lexeme]; rfl)

theorem readsNested_defaultValue : ReadsNested (defaultValue size) := by
  refine (readsNested_accept rfl rfl).bind fun found => ?_
  split
  · exact (readsNested_value _).map
  · exact .pure

/-! ### Selections -/

theorem readsHeader_fragmentName : ReadsHeader fragmentName := by
  refine .look (fun _ _ _ => peek_ok) fun t => ?_
  split
  · exact .unexpected
  · exact readsHeader_name

theorem readsNested_selection {nested : Parser (List Selection)} (inner : ReadsNested nested) :
    ReadsNested (selection size room nested) := by
  have directives : ReadsNested (directives size room) := readsHeader_directives.nested
  refine (readsNested_accept rfl rfl).bind fun isSpread => ?_
  split
  · refine (readsHeader_acceptKeyword "on").nested.bind fun isTyped => ?_
    split
    · exact readsHeader_name.nested.bind fun _ => directives.bind fun _ => inner.bind fun _ => .pure
    · refine .look (fun _ _ _ => peek_ok) fun t => ?_
      split
      · exact readsHeader_fragmentName.nested.bind fun _ => directives.bind fun _ => .pure
      · exact directives.bind fun _ => inner.bind fun _ => .pure
  · refine readsHeader_name.nested.bind fun first => ?_
    refine (readsNested_accept rfl rfl).bind fun renamed => ?_
    simp only [pure_bind]
    have rest (make : List (String × Value) → List Directive → Option (List Selection) → Selection) :
        ReadsNested (do
          let arguments ← arguments false size room
          let directives ← Parser.directives size room
          if ← nextIs .braceL then return make arguments directives (← some <$> nested)
          else return make arguments directives none) := by
      refine readsHeader_arguments.nested.bind fun _ => directives.bind fun _ =>
        reads_nextIs _ fun hasBlock => ?_
      split
      · exact inner.map.bind fun _ => .pure
      · exact ReadsNested.pure
    split
    · exact readsHeader_name.nested.bind fun _ => rest _
    · exact rest _

theorem reads_selectionSetWithin (room : Nat) :
    Reads (selectionSetWithin size room) fun _ => IsGroup .braceL .braceR := by
  induction room with
  | zero => exact .look (fun _ _ _ => peek_ok) fun _ => .fail
  | succ room ih =>
    exact reads_anyOf (readsNested_selection (ih.mono fun _ _ => IsGroup.isNested rfl rfl))

theorem reads_selectionSet : Reads (selectionSet size) fun _ => IsGroup .braceL .braceR :=
  reads_selectionSetWithin _

/-! ### Parts of definitions -/

theorem readsNested_variableDefinition : ReadsNested (variableDefinition size) :=
  readsNested_description.bind fun _ => readsNested_variableName.bind fun _ =>
    (readsNested_expect rfl rfl).bind fun _ => (readsNested_typeRef _).bind fun _ =>
      readsNested_defaultValue.bind fun _ => readsHeader_constDirectives.nested.bind fun _ => .pure

theorem readsNested_inputDefinition : ReadsNested (inputDefinition size) :=
  readsNested_description.bind fun _ => readsHeader_name.nested.bind fun _ =>
    (readsNested_expect rfl rfl).bind fun _ => (readsNested_typeRef _).bind fun _ =>
      readsNested_defaultValue.bind fun _ => readsHeader_constDirectives.nested.bind fun _ => .pure

theorem readsNested_fieldDefinition : ReadsNested (fieldDefinition size) :=
  readsNested_description.bind fun _ => readsHeader_name.nested.bind fun _ =>
    (readsHeader_optionalMany readsNested_inputDefinition).nested.bind fun _ =>
      (readsNested_expect rfl rfl).bind fun _ => (readsNested_typeRef _).bind fun _ =>
        readsHeader_constDirectives.nested.bind fun _ => .pure

theorem readsNested_enumValue : ReadsNested (enumValue size) := by
  refine readsNested_description.bind fun _ => .look (fun _ _ _ => peek_ok) fun t => ?_
  have rest (description : Option String) : ReadsNested (do
      let name ← name
      return (⟨description, name, ← constDirectives size⟩ : EnumValueDefinition)) :=
    readsHeader_name.nested.bind fun _ => readsHeader_constDirectives.nested.bind fun _ => .pure
  dsimp only
  split
  · exact Reads.refuse .fail
  · exact rest _

/-- A keyword of a definition. -/
def IsKey (ts : List Token) : Prop :=
  ∃ t, ts = [t] ∧ t.lexeme.isKeyword = true ∧ t.lexeme ≠ .name "extend"

theorem IsOne.isKey {text : String} {ts : List Token} (one : IsOne (.name text) ts)
    (isKeyword : (Lexeme.name text).isKeyword = true) (introduces : text ≠ "extend") :
    IsKey ts := by
  obtain ⟨t, rfl, isName⟩ := one
  exact ⟨t, rfl, isName ▸ isKeyword, by rw [isName]; simpa using introduces⟩

theorem reads_operationKind : Reads operationKind fun _ => IsKey := by
  refine .look (fun _ _ _ => peek_ok) fun t => reads_name.bind
    (Q := fun text _ u => (OperationKind.ofName? text).isSome = true ∧ u = []) (fun text => ?_) ?_
  · split
    · rename_i isKind
      exact .pure ⟨by rw [isKind]; rfl, rfl⟩
    · exact .unexpectedToken
  · rintro text _ u _ one ⟨isKind, rfl⟩
    rw [List.append_nil]
    unfold OperationKind.ofName? at isKind
    split at isKind
    · exact IsOne.isKey one (by decide) (by decide)
    · exact IsOne.isKey one (by decide) (by decide)
    · exact IsOne.isKey one (by decide) (by decide)
    · cases isKind

theorem readsNested_rootType : ReadsNested rootType := by
  have kind : ReadsNested operationKind := reads_operationKind.mono
    fun _ _ ⟨t, same, isKeyword, _⟩ => by
      obtain ⟨text, isName⟩ := Lexeme.name_of_isKeyword isKeyword
      exact same ▸ .single (by rw [isName]; rfl) (by rw [isName]; rfl)
  exact kind.bind fun _ => (readsNested_expect rfl rfl).bind fun _ =>
    readsHeader_name.nested.bind fun _ => .pure

theorem readsHeader_interfaces : ReadsHeader (interfaces size) := by
  refine (readsHeader_acceptKeyword _).bind fun found => ?_
  split
  · exact readsHeader_delimited (by simp) readsHeader_name
  · exact .pure

/-- A block in braces that may be missing. -/
theorem isBody_of_optional {ts : List Token} (either : ts = [] ∨ IsGroup .braceL .braceR ts) :
    IsBody ts :=
  ⟨[], ts, rfl, .nil, either⟩

theorem ReadsHeader.body {p : Parser α} {f : α → Parser β} (first : ReadsHeader p)
    (second : ∀ a, Reads (f a) fun _ => IsBody) : Reads (p >>= f) fun _ => IsBody :=
  Reads.bind first second fun _ _ _ _ => .append

theorem reads_block {item : Parser α} (items : ReadsNested item) (make : List α → β) :
    Reads (optionalMany size .braceL item .braceR >>= fun a => Pure.pure (make a))
      fun _ => IsBody :=
  (reads_optionalMany items).returning fun _ _ => isBody_of_optional

theorem reads_typeBody (keyword : String) : Reads (typeBody size keyword) fun _ => IsBody := by
  have directives : ReadsHeader (constDirectives size) := readsHeader_constDirectives
  unfold typeBody
  split
  · exact directives.body fun _ => .pure (isBody_of_optional (.inl rfl))
  · refine directives.body fun _ => (readsHeader_accept (by simp)).body fun found => ?_
    dsimp only
    split
    · exact (readsHeader_delimited (by simp) readsHeader_name).body fun _ =>
        .pure (isBody_of_optional (.inl rfl))
    · exact .pure (isBody_of_optional (.inl rfl))
  · exact directives.body fun _ => reads_block readsNested_enumValue _
  · exact directives.body fun _ => reads_block readsNested_inputDefinition _
  · exact readsHeader_interfaces.body fun _ => directives.body fun _ =>
      reads_block readsNested_fieldDefinition _
  · exact readsHeader_interfaces.body fun _ => directives.body fun _ =>
      reads_block readsNested_fieldDefinition _

/-! ### Definitions -/

/-- A keyword with what belongs to it. -/
def IsKeyed (ts : List Token) : Prop :=
  ∃ key body, ts = key :: body ∧ key.lexeme.isKeyword = true ∧ key.lexeme ≠ .name "extend" ∧
    IsBody body

theorem Reads.keyed {p : Parser α} {f : α → Parser β} (first : Reads p fun _ => IsKey)
    (second : ∀ a, Reads (f a) fun _ => IsBody) : Reads (p >>= f) fun _ => IsKeyed :=
  first.bind second fun _ _ _ body ⟨t, same, isKeyword, introduces⟩ isBody =>
    ⟨t, body, by rw [same]; rfl, isKeyword, introduces, isBody⟩

theorem reads_described {f : Option String → Parser β}
    (second : ∀ a, Reads (f a) fun _ => IsKeyed) :
    Reads (description >>= f) fun _ => IsDefinition := by
  refine reads_description.bind second ?_
  rintro _ _ _ _ (rfl | ⟨t, rfl, isString⟩) ⟨key, body, rfl, isKeyword, introduces, isBody⟩
  · exact .plain isKeyword introduces isBody
  · exact .described isString isKeyword introduces isBody

theorem reads_extension {f : Unit → Parser β} (second : ∀ a, Reads (f a) fun _ => IsKeyed) :
    Reads (expectKeyword "extend" >>= f) fun _ => IsDefinition := by
  refine (reads_expectKeyword "extend").bind second ?_
  rintro _ _ _ _ ⟨t, rfl, isExtend⟩ ⟨key, body, rfl, isKeyword, introduces, isBody⟩
  exact .extension isExtend isKeyword introduces isBody

theorem reads_key {word : String} (isKeyword : (Lexeme.name word).isKeyword = true)
    (introduces : word ≠ "extend") : Reads (expectKeyword word) fun _ => IsKey :=
  (reads_expectKeyword word).mono fun _ _ one => IsOne.isKey one isKeyword introduces

theorem reads_operation : Reads (operation size) fun _ => IsDefinition := by
  refine reads_nextIs _ fun isShorthand => ?_
  split
  · exact reads_selectionSet.returning fun _ _ => .shorthand
  · refine reads_described fun description => reads_operationKind.keyed fun kind =>
      .look (fun _ _ _ => peek_ok) fun next => ?_
    have rest (name : Option String) : Reads (do
        let declarations ← optionalMany size .parenL (variableDefinition size) .parenR
        return (⟨description, kind, name, declarations, ← directives size nestingLimit,
          ← selectionSet size⟩ : OperationDefinition)) fun _ => IsBody :=
      (readsHeader_optionalMany readsNested_variableDefinition).body fun _ =>
        readsHeader_directives.body fun _ =>
          reads_selectionSet.returning fun _ _ group => isBody_of_optional (.inr group)
    simp only [pure_bind]
    split
    · refine ReadsHeader.body ?_ rest
      exact readsHeader_name.map
    · exact rest none

theorem reads_fragment : Reads (fragment size) fun _ => IsDefinition :=
  reads_described fun _ => (reads_key (by decide) (by decide)).keyed fun _ =>
    readsHeader_fragmentName.body fun _ =>
      (readsHeader_expectKeyword "on").body fun _ =>
        readsHeader_name.body fun _ => readsHeader_directives.body fun _ =>
          reads_selectionSet.returning fun _ _ group => isBody_of_optional (.inr group)

theorem isKeyword_of_typeKeyword {word : String} (known : typeKeywords.contains word = true) :
    (Lexeme.name word).isKeyword = true ∧ word ≠ "extend" := by
  simp only [typeKeywords, List.contains_eq_mem, List.mem_cons, List.not_mem_nil, or_false,
    decide_eq_true_eq] at known
  rcases known with rfl | rfl | rfl | rfl | rfl | rfl <;> exact ⟨by decide, by decide⟩

theorem reads_typeDefinition {word : String} (known : typeKeywords.contains word = true) :
    Reads (typeDefinition size word) fun _ => IsDefinition := by
  obtain ⟨isKeyword, introduces⟩ := isKeyword_of_typeKeyword known
  exact reads_described fun _ => (reads_key isKeyword introduces).keyed fun _ =>
    readsHeader_name.body fun _ => (reads_typeBody word).returning fun _ _ => id

theorem reads_typeExtension {word : String} (known : typeKeywords.contains word = true) :
    Reads (typeExtension size word) fun _ => IsDefinition := by
  obtain ⟨isKeyword, introduces⟩ := isKeyword_of_typeKeyword known
  refine reads_extension fun _ => (reads_key isKeyword introduces).keyed fun _ =>
    readsHeader_name.body fun name => (reads_typeBody word).bind (Q := fun _ _ u => u = [])
      (fun (directives, shape) => ?_) ?_
  · dsimp only
    split
    · exact .refuse .unexpected
    · exact .pure rfl
  · rintro _ _ u _ body rfl
    rwa [List.append_nil]

theorem reads_schemaDefinition : Reads (schemaDefinition size) fun _ => IsDefinition :=
  reads_described fun _ => (reads_key (by decide) (by decide)).keyed fun _ =>
    readsHeader_constDirectives.body fun _ => (reads_many readsNested_rootType).returning
      fun _ _ group => isBody_of_optional (.inr group)

theorem reads_schemaExtension : Reads (schemaExtension size) fun _ => IsDefinition := by
  refine reads_extension fun _ => (reads_key (by decide) (by decide)).keyed fun _ =>
    readsHeader_constDirectives.body fun directives =>
      (reads_optionalMany readsNested_rootType).bind (Q := fun _ _ u => u = []) (fun roots => ?_) ?_
  · dsimp only
    split
    · exact .refuse .unexpected
    · exact .pure rfl
  · rintro _ _ u _ either rfl
    rw [List.append_nil]
    exact isBody_of_optional either

/-- The name of a directive stands behind its sign. -/
theorem reads_directiveName {f : String → Parser β} (second : ∀ a, Reads (f a) fun _ => IsBody) :
    Reads (expect .at >>= fun _ => name >>= f) fun _ => IsBody := by
  refine (reads_expect .at).bind (fun _ => reads_name.bind second fun text _ u v one body => ?_)
    (Q := fun _ _ u => ∃ t text body, u = t :: body ∧ t.lexeme = .name text ∧ IsBody body) ?_
  · obtain ⟨t, rfl, isName⟩ := one
    exact ⟨t, text, v, rfl, isName, body⟩
  · rintro _ _ _ _ ⟨sign, rfl, isSign⟩ ⟨t, text, body, rfl, isName, isBody⟩
    have joined : IsBody ([sign, t] ++ body) := isBody.append (.directive isSign isName .nil)
    exact joined

theorem readsHeader_directiveLocation : ReadsHeader directiveLocation := by
  refine .look (fun _ _ _ => peek_ok) fun t => readsHeader_name.bind fun text => ?_
  split
  · exact .pure
  · exact .unexpectedToken

theorem reads_directiveDefinition : Reads (directiveDefinition size) fun _ => IsDefinition :=
  reads_described fun _ => (reads_key (by decide) (by decide)).keyed fun _ =>
    reads_directiveName fun _ => (readsHeader_optionalMany readsNested_inputDefinition).body fun _ =>
      readsHeader_constDirectives.body fun _ => (readsHeader_acceptKeyword _).body fun _ =>
        (readsHeader_expectKeyword _).body fun _ =>
          (readsHeader_delimited (by simp) readsHeader_directiveLocation).body fun _ =>
            .pure (isBody_of_optional (.inl rfl))

theorem reads_directiveExtension : Reads (directiveExtension size) fun _ => IsDefinition := by
  refine reads_extension fun _ => (reads_key (by decide) (by decide)).keyed fun _ =>
    reads_directiveName fun _ => readsHeader_constDirectives.body fun directives => ?_
  dsimp only
  split
  · exact .refuse .unexpected
  · exact .pure (isBody_of_optional (.inl rfl))

theorem peekSecond_ok {s next : Cursor} {t : Token} (ran : peekSecond s = .ok (t, next)) :
    next = s := by
  unfold peekSecond at ran
  split at ran
  · cases ran; rfl
  · cases ending : s.ending <;> rw [ending] at ran <;> cases ran
    rfl

theorem reads_extensionOf : Reads (extension size) fun _ => IsDefinition := by
  refine .look (fun _ _ _ => peekSecond_ok) fun t => ?_
  split
  · exact reads_schemaExtension.returning fun _ _ => id
  · exact reads_directiveExtension.returning fun _ _ => id
  · split
    · exact (reads_typeExtension ‹_›).returning fun _ _ => id
    · exact .unexpectedToken
  · exact .unexpectedToken

theorem reads_definition : Reads (definition size) fun _ => IsDefinition := by
  refine .look (fun _ _ _ => peek_ok) fun first => ?_
  split
  · exact reads_operation.returning fun _ _ => id
  · extract_lets described told
    have rest (t : Token) : Reads (told t) fun _ => IsDefinition := by
      dsimp only [told]
      split
      · exact reads_schemaDefinition.returning fun _ _ => id
      · exact reads_directiveDefinition.returning fun _ _ => id
      · exact reads_operation.returning fun _ _ => id
      · exact reads_operation.returning fun _ _ => id
      · exact reads_operation.returning fun _ _ => id
      · exact reads_fragment.returning fun _ _ => id
      · split
        · exact (reads_typeDefinition ‹_›).returning fun _ _ => id
        · split
          · exact .fail
          · split
            · exact reads_extensionOf
            · exact .unexpectedToken
      · exact .fail
      · exact .unexpectedToken
    split
    · exact .look (fun _ _ _ => peekSecond_ok) rest
    · exact .look (fun _ _ _ => peek_ok) rest

/-- The tokens are those of a definition and lie where it does. -/
structure IsSpelled (d : Located) (ts : List Token) : Prop where
  isDefinition : IsDefinition ts
  start : ts.head?.map (·.start) = some d.start
  stop : ts.getLast?.map (·.stop) = some d.stop

theorem reads_located : Reads (located size) IsSpelled := by
  intro s d next sound ran
  obtain ⟨first, middle, peeked, ran⟩ := bind_ok ran
  cases peek_ok peeked
  obtain ⟨read, after, ranDefinition, ran⟩ := bind_ok ran
  cases ran
  obtain ⟨used, takes, isDefinition⟩ := reads_definition sound ranDefinition
  obtain ⟨t, ts, rfl⟩ := List.exists_cons_of_ne_nil isDefinition.ne_nil
  refine ⟨t :: ts, takes, isDefinition, ?_, ?_⟩
  · unfold peek at peeked
    rw [takes.tokens] at peeked
    cases peeked
    rfl
  · have last := takes.last
    rw [lastStop, List.getLast?_cons] at last
    rw [List.getLast?_cons]
    exact congrArg some last.symm

end

end Parser

end InlineQuery.Query
