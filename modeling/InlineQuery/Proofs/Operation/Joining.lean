import InlineQuery.Proofs.Operation.Fragments
import InlineQuery.Proofs.Query.Joining

/-!
What is sent for an operation is a text again: its parser finds the definitions of the operation's
literal and then the fragments that were appended.
-/

namespace InlineQuery.OperationIndex

open Query (IsText Lexeme FragmentDefinition)
open Query.Parser (IsFragment)

variable {index : OperationIndex}

/-- The document of an entry is what its literal is parsed to. -/
theorem parse_of_mem_entries {literals : List Literal}
    (made : ofLiterals literals = .ok index) {entry : IndexEntry} (member : entry ∈ index.entries) :
    Query.parse entry.literal.graphqlText = .ok entry.document := by
  obtain ⟨literal, -, step⟩ := exists_outcome_of_mem made member
  unfold outcome at step
  split at step
  · cases step
  · rename_i document parsed
    obtain ⟨ops, -, made⟩ := bind_eq_ok step
    cases made
    unfold Literal.document at parsed
    cases whole : Query.parse literal.graphqlText with
    | error e => rw [whole] at parsed; cases parsed
    | ok found =>
      rw [whole] at parsed
      cases parsed
      rfl

/-- A fragment of an index and the definition that it was taken from. -/
def IsDefinedBy (index : OperationIndex) (fragment : Fragment) (definition : FragmentDefinition) :
    Prop :=
  ∃ entry ∈ index.entries, ∃ located ∈ entry.document.definitions,
    located.definition = .fragment definition ∧
      fragment = ⟨definition.name, located.definition.spreads,
        (Span.mk located.start located.stop).slice entry.literal.graphqlText⟩

theorem exists_isDefinedBy {entry : IndexEntry} {f : Fragment} (member : f ∈ index.lacking entry) :
    ∃ definition, index.IsDefinedBy f definition := by
  have reached := ((lacks_lacking index entry).reached f).mp member
  obtain ⟨name, stands⟩ : ∃ name, index.elsewhere entry name = some f := by
    cases reached with
    | spread _ found => exact ⟨_, found⟩
    | next _ _ found => exact ⟨_, found⟩
  unfold elsewhere at stands
  split at stands
  · cases stands
  · obtain ⟨source, isSource, isFragment⟩ := List.mem_flatMap.mp (List.mem_of_find?_eq_some stands)
    obtain ⟨located, isLocated, given⟩ := List.mem_filterMap.mp isFragment
    split at given
    · rename_i definition isDefinition
      cases given
      exact ⟨definition, source, isSource, located, isLocated, isDefinition, rfl⟩
    · cases given

/-- The text of a fragment says what the tokens of its definition say. -/
theorem IsDefinedBy.exists_part {literals : List Literal} (made : ofLiterals literals = .ok index)
    {f : Fragment} {definition : FragmentDefinition} (defined : index.IsDefinedBy f definition) :
    ∃ part, IsFragment definition part ∧ IsText f.text part := by
  obtain ⟨entry, isEntry, located, member, isFragment, rfl⟩ := defined
  have parsed := parse_of_mem_entries made isEntry
  exact ⟨_, Query.isFragment_of_mem parsed member isFragment, Query.isText_slice parsed member⟩

theorem exists_parts {literals : List Literal} (made : ofLiterals literals = .ok index)
    {fragments : List Fragment} (defined : ∀ f ∈ fragments, ∃ definition, index.IsDefinedBy f definition) :
    ∃ definitions parts, List.Forall₂ index.IsDefinedBy fragments definitions ∧
      List.Forall₂ IsFragment definitions parts ∧
      List.Forall₂ IsText (fragments.map (·.text)) parts := by
  induction fragments with
  | nil => exact ⟨[], [], .nil, .nil, .nil⟩
  | cons f fragments ih =>
    obtain ⟨⟨definition, isDefined⟩, others⟩ := List.forall_mem_cons.mp defined
    obtain ⟨definitions, parts, areDefined, areFragments, areTexts⟩ := ih others
    obtain ⟨part, isFragment, isText⟩ := isDefined.exists_part made
    exact ⟨definition :: definitions, part :: parts, .cons isDefined areDefined,
      .cons isFragment areFragments, .cons isText areTexts⟩

theorem isText_joinTexts {first : List Char} {words : List Lexeme} {texts : List (List Char)}
    {parts : List (List Lexeme)} (before : IsText first words)
    (areTexts : List.Forall₂ IsText texts parts) :
    IsText (joinTexts (first :: texts)) (words ++ parts.flatten) := by
  induction areTexts generalizing first words with
  | nil => simpa [joinTexts] using before
  | cons isText _ ih =>
    have joined := before.join (ih isText)
    rw [joinTexts, List.intercalate_cons_cons, List.append_assoc]
    exact joined

/-- Where linking appends fragments to an operation, the new text is parsed to the definitions of the
operation's literal and then those of the fragments, in the order in which they are appended. -/
theorem parse_linked {literals : List Literal} (made : ofLiterals literals = .ok index) :
    List.Forall₂ (fun entry linked => index.lacking entry ≠ [] → ∀ op ∈ linked.operations,
      ∃ own joined fragments, Query.parse op.literal.graphqlText = .ok own ∧
        Query.parse op.source = .ok joined ∧
        List.Forall₂ index.IsDefinedBy (index.lacking entry) fragments ∧
        joined.definitions.map (·.definition) =
          own.definitions.map (·.definition) ++ fragments.map .fragment)
      index.entries index.link.entries := by
  refine List.forall₂_map_right_iff.mpr (List.forall₂_same.mpr fun entry isEntry lacks op isOp => ?_)
  rw [linkEntry_eq fun op isOp => source_of_mem_operations made isEntry isOp] at isOp
  obtain ⟨old, isOld, rfl⟩ := List.mem_map.mp isOp
  have parsed := parse_of_mem_entries made isEntry
  obtain ⟨definitions, parts, areDefined, areFragments, areTexts⟩ :=
    exists_parts made fun f member => exists_isDefinedBy member
  have nonempty : definitions ≠ [] := by
    rintro rfl
    exact lacks (List.forall₂_nil_right_iff.mp areDefined)
  have isText := isText_joinTexts (Query.isText_trim parsed) areTexts
  have source := Operation.source_appending old lacks
  rw [source_of_mem_operations made isEntry isOld] at source
  rw [← source] at isText
  obtain ⟨joined, parsedJoined, isJoined⟩ :=
    Query.parse_of_isText parsed areFragments nonempty isText
  have isLiteral : (old.appending (index.lacking entry)).literal = entry.literal := by
    rw [Operation.literal_appending]
    exact ((literals_entries_sublist made).2 entry isEntry).literal_eq isOld
  exact ⟨entry.document, joined, definitions, isLiteral ▸ parsed, parsedJoined, areDefined, isJoined⟩

theorem lacking_ne_nil {entry : IndexEntry} {name : String} (member : name ∈ entry.document.spreads)
    (stands : (index.elsewhere entry name).isSome = true) : index.lacking entry ≠ [] := by
  obtain ⟨f, found⟩ := Option.isSome_iff_exists.mp stands
  have isLacking := ((lacks_lacking index entry).reached f).mpr (.spread member found)
  exact List.ne_nil_of_mem isLacking

/-- A query that ends in a comment, and the fragment that it spreads in a literal of its own. -/
def commentedQuery : List Literal :=
  literals ("const q = gql\x60query Q \x7b ...A \x7d # all\x60;\n" ++
    "const a = gql\x60\"\"\"All\"\"\" fragment A on T \x7b a(b: 1) \x7d\x60;").toList .javascript

theorem parse_linked_comment :
    ∃ index, ofLiterals commentedQuery = .ok index ∧
      (∃ entry ∈ index.entries, index.lacking entry ≠ [] ∧ entry.operations.length = 1) ∧
      List.Forall₂ (fun entry linked => index.lacking entry ≠ [] → ∀ op ∈ linked.operations,
        ∃ own joined fragments, Query.parse op.literal.graphqlText = .ok own ∧
          Query.parse op.source = .ok joined ∧
          List.Forall₂ index.IsDefinedBy (index.lacking entry) fragments ∧
          joined.definitions.map (·.definition) =
            own.definitions.map (·.definition) ++ fragments.map .fragment)
        index.entries index.link.entries := by
  obtain ⟨index, made, entry, isEntry, one, name, member, stands⟩ :
      ∃ index ∈ (ofLiterals commentedQuery).toOption, ∃ entry ∈ index.entries,
        entry.operations.length = 1 ∧ ∃ name ∈ entry.document.spreads,
          (index.elsewhere entry name).isSome = true := by
    have spelled : commentedQuery = literals _ .javascript := congrArg (literals · .javascript)
      (Text.toList_append_of String.toList_ofList String.toList_ofList)
    rw [spelled]
    decide +kernel
  have made := eq_ok_of_mem_toOption made
  exact ⟨index, made, ⟨entry, isEntry, lacking_ne_nil member stands, one⟩, parse_linked made⟩

end InlineQuery.OperationIndex
