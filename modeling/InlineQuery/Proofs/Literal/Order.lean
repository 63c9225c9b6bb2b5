import InlineQuery.Proofs.Definitions.Order
import InlineQuery.Proofs.Template.Scan

namespace InlineQuery.Literal

/-- A literal covers the start of another: it holds the other in one of its interpolations, or ends
where the other starts. -/
def Covers (a b : Literal) : Prop := b.IsWithin a ∨ a.start < b.start ∧ a.stop = b.start

instance (inner outer : Literal) : Decidable (inner.IsWithin outer) :=
  inferInstanceAs (Decidable (∃ span ∈ outer.interpolations, _))

instance (a b : Literal) : Decidable (a.Covers b) := inferInstanceAs (Decidable (_ ∨ _))

/-- A literal starts before another, whose start lies in it only if it covers that. -/
structure Precedes (a b : Literal) : Prop where
  start_lt : a.start < b.start
  contains_iff : a.contains b.start = true ↔ a.Covers b

theorem contains_eq_true_iff {a : Literal} {offset : Nat} :
    a.contains offset = true ↔ a.start ≤ offset ∧ offset ≤ a.stop := by
  simp [contains]

theorem IsWithin.start_lt {inner outer : Literal} (within : inner.IsWithin outer) :
    outer.start < inner.start := by
  obtain ⟨span, _, behind, _⟩ := within
  omega

theorem Covers.start_lt {a b : Literal} (covers : a.Covers b) : a.start < b.start :=
  covers.elim IsWithin.start_lt And.left

variable {text : List Char} {a b : Literal}

/-- What lies within a literal of a script ends before it does. -/
theorem IsTemplateOf.stop_lt_of_isWithin (known : a.IsTemplateOf text) (within : b.IsWithin a) :
    b.stop < a.stop := by
  obtain ⟨span, member, _, before⟩ := within
  have bound : a.stop < text.length := (List.getElem?_eq_some_iff.mp known.closes).1
  have length : a.raw.length = a.stop - a.start := by
    rw [known.raw]
    exact Span.length_slice (Nat.le_of_lt bound)
  have inside := (known.interpolated.bounded span member).2
  have ordered := known.ordered
  omega

theorem IsTemplateOf.precedes_of_isBefore (known : a.IsTemplateOf text)
    (alsoKnown : b.IsTemplateOf text) (before : a.IsBefore b) : a.Precedes b := by
  have ordered := known.ordered
  have laterOrdered := alsoKnown.ordered
  unfold IsBefore at before
  refine ⟨by omega, ?_⟩
  rw [contains_eq_true_iff]
  constructor
  · intro around
    omega
  · rintro (within | touches)
    · have ends := known.stop_lt_of_isWithin within
      omega
    · omega

theorem IsTemplateOf.precedes_of_isWithin (known : a.IsTemplateOf text)
    (alsoKnown : b.IsTemplateOf text) (within : b.IsWithin a) : a.Precedes b := by
  have starts := within.start_lt
  have ends := known.stop_lt_of_isWithin within
  have ordered := alsoKnown.ordered
  refine ⟨starts, ?_⟩
  rw [contains_eq_true_iff]
  exact ⟨fun _ => Or.inl within, fun _ => by omega⟩

/-- The literals of a document are its definitions. -/
theorem literals_graphql (text : List Char) : literals text .graphql =
    ((Definitions.pieces text).filterMap Definitions.Piece.span?).map
      (ofSpan text (.ofText text) · none []) := by
  simp only [literals, scan, List.filterMap_map, List.map_filterMap]
  congr 1
  funext piece
  cases piece <;> rfl

theorem precedes_ofSpan {lines : LineIndex} {s t : Span} (width : s.start < s.stop)
    (apart : s.stop ≤ t.start) :
    (ofSpan text lines s none []).Precedes (ofSpan text lines t none []) := by
  refine ⟨by simp only [ofSpan]; omega, ?_⟩
  rw [contains_eq_true_iff]
  simp only [Covers, IsWithin, ofSpan, List.not_mem_nil, false_and, exists_false, false_or]
  omega

theorem isTemplateOf_of_mem {literal : Literal} (member : literal ∈ literals text .javascript) :
    literal.IsTemplateOf text := by
  obtain ⟨e, found, isLiteral⟩ := List.mem_filterMap.mp member
  cases e with
  | found _ => cases isLiteral; exact isTemplateOf_of_found found
  | skipped _ _ => cases isLiteral

theorem start_le_stop {language : Language} {literal : Literal}
    (member : literal ∈ literals text language) : literal.start ≤ literal.stop := by
  cases language with
  | javascript => exact (isTemplateOf_of_mem member).ordered
  | graphql =>
    rw [literals_graphql] at member
    obtain ⟨span, isDefinition, rfl⟩ := List.mem_map.mp member
    exact Nat.le_of_lt ((Definitions.pieces_ordered text).1 span isDefinition)
  | unknown => cases member

/-- The literals of a text are in the order of their starts. One of them holds the start of a later
one only if it covers that. -/
theorem pairwise_precedes (text : List Char) (language : Language) :
    (literals text language).Pairwise Precedes := by
  cases language with
  | javascript =>
    refine (pairwise_literals_javascript text).imp_of_mem ?_
    intro a b first second related
    have known := isTemplateOf_of_mem first
    have alsoKnown := isTemplateOf_of_mem second
    exact related.elim (known.precedes_of_isBefore alsoKnown) (known.precedes_of_isWithin alsoKnown)
  | graphql =>
    obtain ⟨widths, apart⟩ := Definitions.pieces_ordered text
    rw [literals_graphql]
    refine List.pairwise_map.mpr (apart.imp_of_mem ?_)
    intro s t first _ le
    exact precedes_ofSpan (widths s first) le
  | unknown => exact .nil

end InlineQuery.Literal
