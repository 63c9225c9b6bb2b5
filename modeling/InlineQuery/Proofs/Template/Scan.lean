import InlineQuery.Proofs.Template.Reading

namespace InlineQuery

/-- Where the opening delimiter of a template stands that scanning reports. -/
def Extraction.opening : Extraction → Nat
  | found literal => literal.start - 1
  | skipped _ offset => offset

namespace Literal

/-- A literal of a script is what stands between two delimiters. It is not blank, and its
interpolations are those of its text. -/
structure IsTemplateOf (text : List Char) (literal : Literal) : Prop where
  opens : 0 < literal.start ∧ text[literal.start - 1]? = some Template.delimiter
  closes : text[literal.stop]? = some Template.delimiter
  ordered : literal.start ≤ literal.stop
  raw : literal.raw = (Span.mk literal.start literal.stop).slice text
  visible : Text.isBlank literal.raw = false
  interpolated : IsInterpolated literal.raw literal.interpolations

/-- A literal and its delimiters end before those of another begin. -/
def IsBefore (a b : Literal) : Prop := a.stop + 1 < b.start

/-- A literal lies, delimiters included, strictly between the opening mark and the closing brace of
one interpolation of another. -/
def IsWithin (inner outer : Literal) : Prop :=
  ∃ span ∈ outer.interpolations,
    outer.start + span.start + 2 < inner.start ∧ inner.stop + 1 < outer.start + span.stop

end Literal

namespace Template

variable {text : List Char} {lines : LineIndex} {t u : Template}

theorem opening_of_extraction? {e : Extraction} (reported : extraction? text lines t = some e) :
    e.opening = t.opened := by
  unfold extraction? at reported
  split at reported
  · cases reported
  · split at reported
    · cases reported
      rfl
    · dsimp only at reported
      split at reported <;> cases reported <;> rfl

theorem eq_ofSpan_of_extraction? {literal : Literal}
    (reported : extraction? text lines t = some (.found literal)) :
    ∃ stop, t.closed = some stop ∧
      literal = .ofSpan text lines ⟨t.opened + 1, stop⟩ t.tag t.spans ∧
      Text.isBlank literal.raw = false := by
  unfold extraction? at reported
  split at reported
  · cases reported
  · split at reported
    · cases reported
    · rename_i stop isClosed
      dsimp only at reported
      split at reported
      · cases reported
      · rename_i visible
        cases reported
        exact ⟨stop, isClosed, rfl, Bool.eq_false_iff.mpr visible⟩

/-- A template in one text is reported as another one is in another text, when both are tagged alike
and what they hold corresponds. -/
theorem extraction?_map {text' : List Char} {lines' : LineIndex} (place : Nat → Nat)
    (g : Extraction → Extraction) (tag : u.tag = t.tag) (marked : u.marked = t.marked)
    (closed : u.closed = t.closed.map place)
    (skipped : ∀ reason, g (.skipped reason t.opened) = .skipped reason u.opened)
    (found : ∀ stop, t.closed = some stop →
      Text.isBlank ((Span.mk (u.opened + 1) (place stop)).slice text') =
        Text.isBlank ((Span.mk (t.opened + 1) stop).slice text) ∧
      g (.found (.ofSpan text lines ⟨t.opened + 1, stop⟩ t.tag t.spans)) =
        .found (.ofSpan text' lines' ⟨u.opened + 1, place stop⟩ u.tag u.spans)) :
    extraction? text' lines' u = (extraction? text lines t).map g := by
  unfold extraction?
  rw [tag, marked, closed]
  split
  · rfl
  · cases isClosed : t.closed with
    | none => exact congrArg some (skipped _).symm
    | some stop =>
      obtain ⟨blank, literal⟩ := found stop isClosed
      rw [tag] at literal
      dsimp only [Option.map_some]
      rw [blank]
      split
      · exact congrArg some (skipped _).symm
      · exact congrArg some literal.symm

theorem IsClosedAt.isTemplateOf {literal : Literal}
    (closed : ∀ stop, t.closed = some stop → t.IsClosedAt text stop)
    (reported : extraction? text lines t = some (.found literal)) : literal.IsTemplateOf text := by
  obtain ⟨stop, isClosed, rfl, visible⟩ := eq_ofSpan_of_extraction? reported
  have known := closed stop isClosed
  exact ⟨⟨Nat.succ_pos _, known.opens⟩, known.closes, known.ordered, rfl, visible, known.content⟩

/-- Literals of which one template precedes the other are apart, or nested in that order. -/
theorem Precedes.isBefore_or_isWithin (precedes : t.Precedes u) {a b : Literal}
    (first : extraction? text lines t = some (.found a))
    (second : extraction? text lines u = some (.found b)) : a.IsBefore b ∨ b.IsWithin a := by
  obtain ⟨stop, isClosed, rfl, _⟩ := eq_ofSpan_of_extraction? first
  obtain ⟨last, alsoClosed, rfl, _⟩ := eq_ofSpan_of_extraction? second
  rcases precedes.2 stop isClosed with behind | ⟨span, member, inner, innerClosed, opened, ended⟩
  · left
    simp only [Literal.IsBefore, Literal.ofSpan]
    omega
  · right
    cases alsoClosed.symm.trans innerClosed
    refine ⟨span, member, ?_, ?_⟩
    · simp only [Literal.ofSpan]
      omega
    · simp only [Literal.ofSpan]
      omega

end Template

/-- What scanning a script reports is in the order of the opening delimiters. -/
theorem pairwise_opening_scan (text : List Char) :
    ((scan text .javascript).map Extraction.opening).Pairwise (· < ·) := by
  obtain ⟨_, nested⟩ := Template.exists_areNested_all text
  refine List.pairwise_map.mpr (nested.ordered.filterMap _ ?_)
  intro t u precedes e first e' second
  rw [Template.opening_of_extraction? first, Template.opening_of_extraction? second]
  exact precedes.1

theorem isTemplateOf_of_found {text : List Char} {literal : Literal}
    (found : .found literal ∈ scan text .javascript) : literal.IsTemplateOf text := by
  obtain ⟨_, nested⟩ := Template.exists_areNested_all text
  obtain ⟨t, member, reported⟩ := List.mem_filterMap.mp found
  exact Template.IsClosedAt.isTemplateOf (nested.closed t member) reported

/-- Of two literals of a script the later one lies behind the earlier one or inside one of its
interpolations. -/
theorem pairwise_literals_javascript (text : List Char) :
    (literals text .javascript).Pairwise fun a b => a.IsBefore b ∨ b.IsWithin a := by
  obtain ⟨_, nested⟩ := Template.exists_areNested_all text
  have apart : (scan text .javascript).Pairwise fun e e' => ∀ a b, e = .found a → e' = .found b →
      a.IsBefore b ∨ b.IsWithin a := by
    refine nested.ordered.filterMap _ ?_
    rintro t u precedes e first e' second a b rfl rfl
    exact precedes.isBefore_or_isWithin first second
  refine apart.filterMap _ ?_
  rintro (a | _) (b | _) related a' first b' second <;> cases first <;> cases second
  exact related a b rfl rfl

/-- Scanning a script reports its templates in the order of their opening delimiters. Every literal
is delimited, not blank and interpolated as a template is, and two literals are either apart or one
of them lies inside one interpolation of the other. -/
theorem scan_javascript_nested (text : List Char) :
    ((scan text .javascript).map Extraction.opening).Pairwise (· < ·) ∧
      (∀ literal, .found literal ∈ scan text .javascript → literal.IsTemplateOf text) ∧
      (literals text .javascript).Pairwise fun a b => a.IsBefore b ∨ b.IsWithin a :=
  ⟨pairwise_opening_scan text, fun _ found => isTemplateOf_of_found found,
    pairwise_literals_javascript text⟩

/-- A literal inside an interpolation is reported behind the one around it. -/
example : (literals "gql\x60a$\x7bgql\x60b\x60\x7d\x60".toList .javascript).map
    (fun l => (l.start, l.stop, l.interpolations)) = [(4, 14, [⟨1, 10⟩]), (11, 12, [])] := by
  decide

end InlineQuery
