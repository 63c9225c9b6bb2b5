import InlineQuery.Proofs.Definitions.Seam
import InlineQuery.Proofs.Literal.Order
import InlineQuery.Proofs.Operation.Index
import InlineQuery.Proofs.Query.Positions

/-!
Where in a document a literal fails that is not valid GraphQL. The parser sees the literal alone,
with its interpolations blanked out; its characters and line ends stand where those of the literal
do, so that the line and column of the failure are those of the document.
-/

namespace InlineQuery

/-- The text that is read as GraphQL has the characters of the literal outside its interpolations,
and its line ends everywhere. -/
structure Literal.KeepsPlaces (literal : Literal) : Prop where
  length : literal.graphqlText.length = literal.raw.length
  outside : ∀ i, (∀ span ∈ literal.interpolations, ¬ span.Holds i) →
    literal.graphqlText[i]? = literal.raw[i]?
  lineEnds : ∀ (i : Nat) (c : Char), c = '\n' ∨ c = '\r' →
    (literal.graphqlText[i]? = some c ↔ literal.raw[i]? = some c)

/-- A failure lies in its literal, and its line and column are those of the document. -/
structure ParseFailure.IsPlaced (failure : ParseFailure) (text : List Char) : Prop where
  start_le : failure.literal.start ≤ failure.offset
  le_stop : failure.offset ≤ failure.literal.stop
  position : (failure.line, failure.column) = (LineIndex.ofText text).position failure.offset

namespace Literal

variable {text : List Char} {literal : Literal}

/-- What stands for a character at an offset when some stretches are replaced by blanks. -/
def blanked (spans : List Span) (offset : Nat) (c : Char) : Char :=
  if spans.any (fun s => s.start ≤ offset && offset < s.stop) && c != '\r' && c != '\n'
  then ' ' else c

theorem blank_cons (spans : List Span) (k : Nat) (c : Char) (rest : List Char) :
    blank spans k (c :: rest) = blanked spans k c :: blank spans (k + 1) rest := rfl

theorem length_blank (spans : List Span) (k : Nat) (text : List Char) :
    (blank spans k text).length = text.length := by
  induction text generalizing k with
  | nil => rfl
  | cons c text ih => rw [blank_cons, List.length_cons, List.length_cons, ih]

theorem getElem?_blank (spans : List Span) (k : Nat) (text : List Char) (i : Nat) :
    (blank spans k text)[i]? = text[i]?.map (blanked spans (k + i)) := by
  induction text generalizing k i with
  | nil => rfl
  | cons c text ih =>
    cases i with
    | zero => rfl
    | succ i =>
      rw [blank_cons, List.getElem?_cons_succ, List.getElem?_cons_succ, ih, Nat.add_right_comm]
      rfl

theorem length_graphqlText (literal : Literal) : literal.graphqlText.length = literal.raw.length :=
  length_blank ..

theorem keepsPlaces (literal : Literal) : literal.KeepsPlaces where
  length := literal.length_graphqlText
  outside i free := by
    have uncovered : (literal.interpolations.any fun s => s.start ≤ i && i < s.stop) = false := by
      refine List.any_eq_false.mpr fun span member => ?_
      have notHeld := free span member
      simp only [Span.Holds] at notHeld
      simpa using notHeld
    rw [graphqlText, getElem?_blank, Nat.zero_add]
    cases literal.raw[i]? with
    | none => rfl
    | some c => simp [blanked, uncovered]
  lineEnds i c isEnd := by
    rw [graphqlText, getElem?_blank]
    cases literal.raw[i]? with
    | none => rfl
    | some d =>
      rw [Option.map_some, Option.some_inj, Option.some_inj, blanked]
      rcases isEnd with rfl | rfl <;> grind

/-- A literal that was cut out of a document. -/
structure IsCutFrom (literal : Literal) (text : List Char) : Prop where
  raw : literal.raw = (Span.mk literal.start literal.stop).slice text
  ordered : literal.start ≤ literal.stop
  bounded : literal.stop ≤ text.length
  position : literal.startPos = (LineIndex.ofText text).position literal.start

theorem isCutFrom_of_mem {language : Language} (member : literal ∈ literals text language) :
    literal.IsCutFrom text := by
  have ordered := start_le_stop member
  cases language with
  | javascript =>
    have known := isTemplateOf_of_mem member
    have bounded : literal.stop < text.length := (List.getElem?_eq_some_iff.mp known.closes).1
    obtain ⟨e, found, isLiteral⟩ := List.mem_filterMap.mp member
    obtain ⟨t, -, reported⟩ := List.mem_filterMap.mp found
    cases e with
    | skipped _ _ => cases isLiteral
    | found _ =>
      cases isLiteral
      obtain ⟨stop, -, rfl, -⟩ := Template.eq_ofSpan_of_extraction? reported
      exact ⟨rfl, ordered, Nat.le_of_lt bounded, rfl⟩
  | graphql =>
    rw [literals_graphql] at member
    obtain ⟨span, isDefinition, rfl⟩ := List.mem_map.mp member
    exact ⟨rfl, ordered, Definitions.pieces_bounded text span isDefinition, rfl⟩
  | unknown => cases member

namespace IsCutFrom

variable (cut : literal.IsCutFrom text)
include cut

theorem length_raw : literal.raw.length = literal.stop - literal.start := by
  rw [cut.raw]
  exact Span.length_slice cut.bounded

/-- Before a place in the literal stands what is before the literal and then the part of it up to
there. -/
theorem take_add {place : Nat} (le : place ≤ literal.raw.length) :
    text.take (literal.start + place) = text.take literal.start ++ literal.raw.take place := by
  have within := cut.length_raw
  rw [within] at le
  rw [List.take_add, cut.raw, Span.slice, List.take_take, Nat.min_eq_left le]

theorem position_ofSyntaxError {e : Query.SyntaxError} (le : e.position ≤ literal.raw.length) :
    ((ParseFailure.ofSyntaxError literal e).line, (ParseFailure.ofSyntaxError literal e).column) =
      (LineIndex.ofText text).position (literal.start + e.position) := by
  have width := cut.length_raw
  have ordered := cut.ordered
  have bounded := cut.bounded
  have length : (literal.raw.take e.position).length = e.position := by
    rw [List.length_take, Nat.min_eq_left le]
  rw [LineIndex.position_eq (by omega), cut.take_add le]
  have starts := cut.position
  rw [LineIndex.position_eq (by omega)] at starts
  unfold ParseFailure.ofSyntaxError
  dsimp only
  generalize literal.raw.take e.position = before at length ⊢
  rw [starts, List.count_append]
  refine Prod.ext rfl ?_
  dsimp only
  split
  · rename_i noLine
    rw [LineIndex.lastColumn_append_of_notMem (List.count_eq_zero.mp noLine), length]
  · rename_i lines
    have feed : '\n' ∈ before := List.count_pos_iff.mp (Nat.pos_of_ne_zero lines)
    rw [LineIndex.lastColumn_append_of_mem feed, length, Nat.sub_self, Nat.add_zero]
    rfl

theorem isPlaced {failure : ParseFailure} (failed : literal.document = .error failure) :
    failure.literal = literal ∧ failure.IsPlaced text := by
  unfold document at failed
  cases parsed : Query.parse literal.graphqlText with
  | ok document => rw [parsed] at failed; cases failed
  | error e =>
    rw [parsed] at failed
    cases failed
    have le := Query.position_le_of_parse parsed
    rw [length_graphqlText] at le
    have width := cut.length_raw
    have ordered := cut.ordered
    refine ⟨rfl, Nat.le_add_right .., ?_, cut.position_ofSyntaxError le⟩
    dsimp only [ParseFailure.ofSyntaxError]
    omega

end IsCutFrom

end Literal

/-- What is read as GraphQL has the places of the literal, and a literal that is not valid fails
within its bounds at a line and column of the document. -/
theorem literals_places (text : List Char) (language : Language) :
    (∀ literal ∈ literals text language, literal.KeepsPlaces ∧
      ∀ failure, literal.document = .error failure →
        failure.literal = literal ∧ failure.IsPlaced text) ∧
    ∀ index, OperationIndex.ofLiterals (literals text language) = .ok index →
      ∀ failure ∈ index.failures,
        failure.literal ∈ literals text language ∧ failure.IsPlaced text := by
  constructor
  · intro literal member
    have cut := Literal.isCutFrom_of_mem member
    exact ⟨literal.keepsPlaces, fun failure failed => cut.isPlaced failed⟩
  · intro index made failure isFailure
    obtain ⟨literal, member, failed⟩ :=
      OperationIndex.exists_document_of_mem_failures made isFailure
    have placed := (Literal.isCutFrom_of_mem member).isPlaced failed
    exact ⟨placed.1 ▸ member, placed.2⟩

/-- A bracket behind an interpolation of two lines. -/
example : (literals "x = gql\x60\x7b a\n  $\x7bf(\n1)\x7d ) \x7d\x60".toList .javascript).filterMap
    (fun literal => match literal.document with
      | .error failure => some (failure.offset, failure.line, failure.column)
      | .ok _ => none) = [(23, 2, 4)] := by
  decide +kernel

end InlineQuery
