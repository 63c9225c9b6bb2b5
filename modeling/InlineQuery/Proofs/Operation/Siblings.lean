import InlineQuery.Proofs.Data.Digits
import InlineQuery.Proofs.Operation.Index
import InlineQuery.Proofs.Query.Lexing

/-!
Literals beside one another. What a literal adds to an index is what it gives alone, whatever stands
before and behind it. But an integer among the defaults of its variables that has too many digits to
be read takes the whole index away, and with it what all other literals would add.
-/

namespace InlineQuery

namespace Query

mutual

/-- The texts of the integers in a value, however deep they lie in it. -/
def Value.integers : Value → List String
  | .int text => [text]
  | .list items => integersOf items
  | .object fields => integersIn fields
  | .var _ | .float _ | .string _ _ | .boolean _ | .null | .enum _ => []

def integersOf : List Value → List String
  | [] => []
  | v :: vs => v.integers ++ integersOf vs

def integersIn : List (String × Value) → List String
  | [] => []
  | (_, v) :: rest => v.integers ++ integersIn rest

end

/-- No integer of a value has more digits than are read. -/
def AreReadable (integers : List String) : Prop :=
  ∀ text ∈ integers, (magnitude text.toList).length ≤ digitLimit

theorem areReadable_append {us vs : List String} :
    AreReadable (us ++ vs) ↔ AreReadable us ∧ AreReadable vs := List.forall_mem_append

mutual

theorem Value.exists_datum_iff (v : Value) :
    (∃ d, v.datum = .ok d) ↔ AreReadable v.integers := by
  cases v with
  | int text =>
    simp only [Value.datum, exists_map_ok_iff, exists_integerOf_iff, Value.integers, AreReadable,
      List.mem_singleton, forall_eq]
  | list items =>
    have whole : (Value.list items).datum = (datumItems items).map .list := by
      rw [Value.datum]
      cases datumItems items <;> rfl
    rw [whole, exists_map_ok_iff, exists_datumItems_iff items, Value.integers]
  | object fields =>
    have whole : (Value.object fields).datum =
        (datumFields fields).map fun entries => .object (Assoc.ofList entries) := by
      rw [Value.datum]
      cases datumFields fields <;> rfl
    rw [whole, exists_map_ok_iff, exists_datumFields_iff fields, Value.integers]
  | var => exact ⟨fun _ => nofun, fun _ => ⟨_, rfl⟩⟩
  | float => exact ⟨fun _ => nofun, fun _ => ⟨_, rfl⟩⟩
  | string => exact ⟨fun _ => nofun, fun _ => ⟨_, rfl⟩⟩
  | boolean => exact ⟨fun _ => nofun, fun _ => ⟨_, rfl⟩⟩
  | null => exact ⟨fun _ => nofun, fun _ => ⟨_, rfl⟩⟩
  | enum => exact ⟨fun _ => nofun, fun _ => ⟨_, rfl⟩⟩

theorem exists_datumItems_iff (items : List Value) :
    (∃ ds, datumItems items = .ok ds) ↔ AreReadable (integersOf items) := by
  cases items with
  | nil => exact ⟨fun _ => nofun, fun _ => ⟨[], rfl⟩⟩
  | cons v vs =>
    rw [integersOf, areReadable_append, ← Value.exists_datum_iff v, ← exists_datumItems_iff vs,
      datumItems]
    cases v.datum with
    | error e => exact ⟨nofun, fun both => nomatch both.1⟩
    | ok d =>
      cases datumItems vs with
      | error e => exact ⟨nofun, fun both => nomatch both.2⟩
      | ok ds => exact ⟨fun _ => ⟨⟨d, rfl⟩, ds, rfl⟩, fun _ => ⟨d :: ds, rfl⟩⟩

theorem exists_datumFields_iff (fields : List (String × Value)) :
    (∃ entries, datumFields fields = .ok entries) ↔ AreReadable (integersIn fields) := by
  cases fields with
  | nil => exact ⟨fun _ => nofun, fun _ => ⟨[], rfl⟩⟩
  | cons field rest =>
    obtain ⟨name, v⟩ := field
    rw [integersIn, areReadable_append, ← Value.exists_datum_iff v, ← exists_datumFields_iff rest,
      datumFields]
    cases v.datum with
    | error e => exact ⟨nofun, fun both => nomatch both.1⟩
    | ok d =>
      cases datumFields rest with
      | error e => exact ⟨nofun, fun both => nomatch both.2⟩
      | ok entries => exact ⟨fun _ => ⟨⟨d, rfl⟩, entries, rfl⟩, fun _ => ⟨(name, d) :: entries, rfl⟩⟩

end

theorem VariableDefinition.exists_variable_iff (definition : VariableDefinition) :
    (∃ v, definition.variable = .ok v) ↔
      ∀ value ∈ definition.default, AreReadable value.integers := by
  unfold VariableDefinition.variable
  cases definition.default with
  | none => exact ⟨fun _ => nofun, fun _ => ⟨_, rfl⟩⟩
  | some value =>
    simp only [Option.mem_some_iff, forall_eq']
    rw [← Value.exists_datum_iff value]
    cases value.datum with
    | error e => exact ⟨nofun, nofun⟩
    | ok d => exact ⟨fun _ => ⟨d, rfl⟩, fun _ => ⟨_, rfl⟩⟩

/-- No default of an operation's variables holds an integer with too many digits. -/
def OperationDefinition.HasReadableDefaults (definition : OperationDefinition) : Prop :=
  ∀ declaration ∈ definition.declarations, ∀ value ∈ declaration.default,
    AreReadable value.integers

end Query

namespace Literal

variable {literal : Literal} {document : Query.Document}

/-- No default of a variable in the literal holds an integer with too many digits. -/
def HasReadableDefaults (literal : Literal) : Prop :=
  ∀ document, literal.document = .ok document →
    ∀ definition ∈ document.operations, definition.HasReadableDefaults

/-- The operations that a literal gives alone, if it is valid. -/
def parsed? (literal : Literal) : Option (List Operation) :=
  match literal.operations with
  | .ok (.ok operations) => some operations
  | _ => none

/-- The failure that a literal gives alone, if it is not valid. -/
def refused? (literal : Literal) : Option ParseFailure :=
  match literal.operations with
  | .ok (.error failure) => some failure
  | _ => none

theorem exists_operation_iff (ordinal : Nat) (definition : Query.OperationDefinition) :
    (∃ op, literal.operation document ordinal definition = .ok op) ↔
      definition.HasReadableDefaults := by
  have declared : (∃ vs, definition.declarations.mapM (·.variable) = .ok vs) ↔
      definition.HasReadableDefaults := by
    rw [exists_mapM_ok_iff]
    exact forall₂_congr fun declaration _ => declaration.exists_variable_iff
  rw [← declared]
  unfold operation
  cases definition.declarations.mapM (·.variable) with
  | error e => exact ⟨nofun, nofun⟩
  | ok vs => exact ⟨fun _ => ⟨vs, rfl⟩, fun _ => ⟨_, rfl⟩⟩

theorem exists_operationsOf_iff (literal : Literal) (document : Query.Document) :
    (∃ ops, literal.operationsOf document = .ok ops) ↔
      ∀ definition ∈ document.operations, definition.HasReadableDefaults := by
  unfold operationsOf
  generalize isStep : (fun x : Query.OperationDefinition × Nat => _) = step
  have each : (∃ ops, document.operations.zipIdx.mapM step = .ok ops) ↔
      ∀ definition ∈ document.operations, definition.HasReadableDefaults := by
    have steps (x : Query.OperationDefinition × Nat) :
        (∃ op, step x = .ok op) ↔ x.1.HasReadableDefaults := by
      rw [← isStep]
      exact exists_operation_iff x.2 x.1
    rw [exists_mapM_ok_iff]
    simp only [steps]
    constructor
    · intro numbered definition member
      obtain ⟨i, atIndex⟩ := List.mem_iff_getElem?.mp member
      exact numbered (definition, i) (List.mem_zipIdx_iff_getElem?.mpr atIndex)
    · intro readable numbered member
      exact readable numbered.1 (List.fst_mem_of_mem_zipIdx member)
  rw [← each]
  cases made : document.operations.zipIdx.mapM step with
  | ok ops => exact ⟨fun _ => ⟨ops, rfl⟩, fun _ => ⟨ops, rfl⟩⟩
  | error huge => exact ⟨nofun, nofun⟩

end Literal

namespace OperationIndex

/-- An index lists what each of the literals gives alone, once and in their order. -/
structure Lists (index : OperationIndex) (literals : List Literal) : Prop where
  entries : index.entries.map (fun entry => (entry.literal, entry.operations)) =
    literals.filterMap fun literal => literal.parsed?.map (literal, ·)
  failures : index.failures.map (fun failure => (failure.literal, failure)) =
    literals.filterMap fun literal => literal.refused?.map (literal, ·)
  documents : ∀ entry ∈ index.entries, entry.literal.document = .ok entry.document
  once : ∀ literal ∈ literals, literal.parsed?.isSome = !literal.refused?.isSome

theorem exists_outcome_iff (literal : Literal) :
    (∃ result, outcome literal = .ok result) ↔ literal.HasReadableDefaults := by
  unfold outcome Literal.HasReadableDefaults
  cases parsed : literal.document with
  | error failure => exact ⟨fun _ => nofun, fun _ => ⟨_, rfl⟩⟩
  | ok document =>
    simp only [Except.ok.injEq, forall_eq']
    rw [← literal.exists_operationsOf_iff document]
    cases literal.operationsOf document with
    | error e => exact ⟨nofun, nofun⟩
    | ok ops => exact ⟨fun _ => ⟨ops, rfl⟩, fun _ => ⟨_, rfl⟩⟩

/-- What a literal adds to an index is what it gives alone. -/
theorem outcome_cases {literal : Literal} {result : Outcome} (made : outcome literal = .ok result) :
    (∃ document ops, literal.document = .ok document ∧ literal.parsed? = some ops ∧
      literal.refused? = none ∧ result = .entry ⟨literal, document, ops⟩) ∨
    (∃ failure, failure.literal = literal ∧ literal.parsed? = none ∧
      literal.refused? = some failure ∧ result = .failure failure) := by
  unfold outcome at made
  cases parsed : literal.document with
  | error failure =>
    rw [parsed] at made
    cases made
    have alone : literal.operations = .ok (.error failure) := by
      rw [Literal.operations, parsed]
      rfl
    have own : failure.literal = literal := by
      unfold Literal.document at parsed
      cases whole : Query.parse literal.graphqlText with
      | ok document => rw [whole] at parsed; cases parsed
      | error e =>
        rw [whole] at parsed
        cases parsed
        rfl
    exact .inr ⟨failure, own, by rw [Literal.parsed?, alone], by rw [Literal.refused?, alone], rfl⟩
  | ok document =>
    rw [parsed] at made
    dsimp only at made
    cases each : literal.operationsOf document with
    | error e => rw [each] at made; cases made
    | ok ops =>
      rw [each] at made
      cases made
      have alone : literal.operations = .ok (.ok ops) := by
        rw [Literal.operations, parsed]
        dsimp only
        rw [each]
        rfl
      exact .inl ⟨document, ops, rfl, by rw [Literal.parsed?, alone],
        by rw [Literal.refused?, alone], rfl⟩

theorem lists_of_ofLiterals {literals : List Literal} {index : OperationIndex}
    (made : ofLiterals literals = .ok index) : index.Lists literals := by
  obtain ⟨outcomes, each, rfl⟩ := exists_outcomes made
  have steps := forall₂_of_mapM_ok each
  clear made each
  induction steps with
  | nil => exact ⟨rfl, rfl, nofun, nofun⟩
  | @cons literal result literals outcomes first _ ih =>
    rcases outcome_cases first with
      ⟨document, ops, parsed, gives, noFailure, rfl⟩ | ⟨failure, own, noEntry, gives, rfl⟩
    · exact {
        entries := by
          rw [List.filterMap_cons_some (b := (literal, ops)) (by rw [gives]; rfl), ← ih.entries]
          rfl
        failures := by
          rw [List.filterMap_cons_none (by rw [noFailure]; rfl), ← ih.failures]
          rfl
        documents := List.forall_mem_cons.mpr ⟨parsed, ih.documents⟩
        once := List.forall_mem_cons.mpr ⟨by rw [gives, noFailure]; rfl, ih.once⟩ }
    · exact {
        entries := by
          rw [List.filterMap_cons_none (by rw [noEntry]; rfl), ← ih.entries]
          rfl
        failures := by
          rw [List.filterMap_cons_some (b := (literal, failure)) (by rw [gives]; rfl),
            ← ih.failures, ← own]
          rfl
        documents := ih.documents
        once := List.forall_mem_cons.mpr ⟨by rw [gives, noEntry]; rfl, ih.once⟩ }

theorem exists_ofLiterals_iff (literals : List Literal) :
    (∃ index, ofLiterals literals = .ok index) ↔
      ∀ literal ∈ literals, literal.HasReadableDefaults := by
  have each : (∃ outcomes, literals.mapM outcome = .ok outcomes) ↔
      ∀ literal ∈ literals, literal.HasReadableDefaults := by
    rw [exists_mapM_ok_iff]
    exact forall₂_congr fun literal _ => exists_outcome_iff literal
  rw [← each]
  exact exists_map_ok_iff (f := ofOutcomes)

/-- An integer that cannot be read is the only reason why a list of literals gives no index. -/
theorem kind_of_ofLiterals_error {literals : List Literal} {e : Failure}
    (failed : ofLiterals literals = .error e) : e.kind = .value := by
  have each : literals.mapM outcome = .error e := by
    unfold ofLiterals at failed
    cases each : literals.mapM outcome with
    | ok outcomes => rw [each] at failed; cases failed
    | error e' => rw [each] at failed; cases failed; rfl
  obtain ⟨literal, -, step⟩ := exists_mem_of_mapM_error each
  unfold outcome at step
  split at step
  · cases step
  · rename_i document _
    unfold Literal.operationsOf at step
    split at step <;> cases step
    rfl

/-- All literals are listed, each with what it gives alone, exactly if the defaults of each can be
read. -/
theorem ofLiterals_lists (literals : List Literal) :
    ((∃ index, ofLiterals literals = .ok index) ↔
      ∀ literal ∈ literals, literal.HasReadableDefaults) ∧
    (∀ index, ofLiterals literals = .ok index → index.Lists literals) ∧
    ∀ e, ofLiterals literals = .error e → e.kind = .value :=
  ⟨exists_ofLiterals_iff literals, fun _ => lists_of_ofLiterals, fun _ => kind_of_ofLiterals_error⟩

end OperationIndex

/-! ### A default with too many digits -/

namespace Query

theorem number_nines (n : Nat) (rest : List Char) :
    number ('9' :: (List.replicate n '9' ++ ')' :: rest)) =
      .ok (.int (String.ofList ('9' :: List.replicate n '9')), n) := by
  have digits : digitCount ('9' :: (List.replicate n '9' ++ ')' :: rest)) = n + 1 := by
    simp [digitCount]
  have behind : (List.replicate n '9' ++ ')' :: rest).drop n = ')' :: rest :=
    List.drop_left' List.length_replicate
  have taken : (List.replicate n '9' ++ ')' :: rest).take n = List.replicate n '9' :=
    List.take_left' List.length_replicate
  have whole : integerPart ('9' :: (List.replicate n '9' ++ ')' :: rest)) 0 = .ok (n + 1) := by
    simp [integerPart, digitsAt, digits]
  simp [number, whole, fractionPart, exponentPart, behind, taken, isNameStart, bind, Except.bind,
    pure, Except.pure]

/-- A query with one variable, whose default is an integer of one digit more than `n`. -/
def queryWithNines (n : Nat) : List Char :=
  "query Q($n:Int=".toList ++ ('9' :: (List.replicate n '9' ++ ")\x7ba\x7d".toList))

/-- Its tokens up to the integer, and from there on when the integer ends at `stop`. -/
def tokensWithNines (n stop : Nat) : List Token × List Token :=
  ([⟨.name "query", 0, 5⟩, ⟨.name "Q", 6, 7⟩, ⟨.mark .parenL, 7, 8⟩, ⟨.mark .dollar, 8, 9⟩,
    ⟨.name "n", 9, 10⟩, ⟨.mark .colon, 10, 11⟩, ⟨.name "Int", 11, 14⟩, ⟨.mark .equals, 14, 15⟩],
  [⟨.int (String.ofList ('9' :: List.replicate n '9')), 15, stop⟩, ⟨.mark .parenR, stop, stop + 1⟩,
    ⟨.mark .braceL, stop + 1, stop + 2⟩, ⟨.name "a", stop + 2, stop + 3⟩,
    ⟨.mark .braceR, stop + 3, stop + 4⟩])

theorem lexFrom_nines (n : Nat) :
    lexFrom 15 0 ('9' :: (List.replicate n '9' ++ ")\x7ba\x7d".toList)) =
      ⟨(tokensWithNines n (16 + n)).2, .ok ⟨.eof, 16 + n + 4, 16 + n + 4⟩⟩ := by
  have read : lexeme '9' (List.replicate n '9' ++ ")\x7ba\x7d".toList) = .ok _ :=
    number_nines n _
  have le : n ≤ (List.replicate n '9' ++ ")\x7ba\x7d".toList).length := by simp
  have behind : (List.replicate n '9' ++ ")\x7ba\x7d".toList).drop n = ")\x7ba\x7d".toList :=
    List.drop_left' List.length_replicate
  rw [lexFrom, if_neg (by decide), if_neg (by decide), read]
  dsimp only
  rw [lexFrom_skip le, behind]
  rfl

theorem parse_queryWithNines (n : Nat) :
    ∃ document, parse (queryWithNines n) = .ok document ∧
      document.operations = [⟨none, .query, some "Q", [⟨none, "n", .named "Int",
        some (.int (String.ofList ('9' :: List.replicate n '9'))), []⟩], [],
        [.field none "a" [] [] none]⟩] := by
  have before : lex (queryWithNines n) =
      let more := lexFrom 15 0 ('9' :: (List.replicate n '9' ++ ")\x7ba\x7d".toList))
      { more with tokens := (tokensWithNines n (16 + n)).1 ++ more.tokens } := rfl
  unfold parse
  rw [before, lexFrom_nines]
  exact ⟨_, rfl, rfl⟩

end Query

/-- A literal that is a document of one line. -/
def Literal.whole (text : List Char) : Literal where
  raw := text
  start := 0
  stop := text.length
  startPos := (0, 0)
  stopPos := (0, text.length)
  tag := none
  interpolations := []

theorem Literal.blank_nil (k : Nat) (text : List Char) : blank [] k text = text := by
  induction text generalizing k with
  | nil => rfl
  | cons c text ih => exact congrArg (c :: ·) (ih (k + 1))

theorem Literal.not_hasReadableDefaults_nines {n : Nat} (long : digitLimit < n + 1) :
    ¬ (Literal.whole (Query.queryWithNines n)).HasReadableDefaults := by
  intro readable
  obtain ⟨document, parsed, operations⟩ := Query.parse_queryWithNines n
  have own : (Literal.whole (Query.queryWithNines n)).document = .ok document := by
    rw [Literal.document, Literal.graphqlText, Literal.whole, Literal.blank_nil, parsed]
    rfl
  have digits : (magnitude ('9' :: List.replicate n '9')).length = n + 1 := by simp [magnitude]
  have short := readable document own _ (by rw [operations]; exact List.mem_cons_self) _
    List.mem_cons_self _ rfl _ List.mem_cons_self
  rw [String.toList_ofList, digits] at short
  exact absurd long (Nat.not_lt.mpr short)

theorem OperationIndex.not_exists_ofLiterals_nines {n : Nat} (long : digitLimit < n + 1)
    (literals : List Literal) :
    ¬ ∃ index, ofLiterals (Literal.whole (Query.queryWithNines n) :: literals) = .ok index := by
  rw [exists_ofLiterals_iff]
  intro readable
  exact Literal.not_hasReadableDefaults_nines long (readable _ List.mem_cons_self)

/-- Behind a query that has a default of too many digits, no other one is listed. -/
theorem OperationIndex.ofLiterals_hidden :
    let plain := Literal.whole "query R\x7bb\x7d".toList
    (∃ index, ofLiterals [plain] = .ok index ∧ index.operations.length = 1) ∧
      ¬ ∃ index, ofLiterals [Literal.whole (Query.queryWithNines 4300), plain] = .ok index := by
  intro plain
  have alone : ∃ index ∈ (ofLiterals [plain]).toOption, index.operations.length = 1 := by
    decide +kernel
  obtain ⟨index, made, one⟩ := alone
  exact ⟨⟨index, eq_ok_of_mem_toOption made, one⟩,
    not_exists_ofLiterals_nines (n := 4300) (by decide) [plain]⟩

end InlineQuery
