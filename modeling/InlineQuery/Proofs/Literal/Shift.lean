import InlineQuery.Literal.Basic
import InlineQuery.Proofs.Text.Lines

/-!
Findings in a text that stands behind another one. Their offsets and lines move, and their columns
stay where the text in front ends with a line feed. Where it has none, only the columns of the first
line move with the offsets.
-/

namespace InlineQuery

namespace Span

def shift (n : Nat) (span : Span) : Span := ⟨n + span.start, n + span.stop⟩

theorem slice_before {span : Span} {before : List Char} (bound : span.stop ≤ before.length)
    (after : List Char) : span.slice (before ++ after) = span.slice before := by
  unfold slice
  by_cases inside : span.start ≤ before.length
  · rw [List.drop_append_of_le_length inside, List.take_append_of_le_length]
    rw [List.length_drop]
    omega
  · have nothing : span.stop - span.start = 0 := by omega
    rw [nothing, List.take_zero, List.take_zero]

theorem slice_behind (span : Span) (before after : List Char) :
    (span.shift before.length).slice (before ++ after) = span.slice after := by
  rw [slice, shift, List.drop_length_add_append, Nat.add_sub_add_left]
  rfl

end Span

/-- The literal that stands so many characters and lines further on. -/
def Literal.shift (offset lines : Nat) (literal : Literal) : Literal :=
  { literal with
    start := offset + literal.start
    stop := offset + literal.stop
    startPos := (lines + literal.startPos.1, literal.startPos.2)
    stopPos := (lines + literal.stopPos.1, literal.stopPos.2) }

/-- The finding that stands so many characters and lines further on. -/
def Extraction.shift (offset lines : Nat) : Extraction → Extraction
  | found literal => found (literal.shift offset lines)
  | skipped reason place => skipped reason (offset + place)

/-- The literal that stands so many characters further on in a text whose first line is indented by
them. -/
def Literal.indent (n : Nat) (literal : Literal) : Literal :=
  { literal with
    start := n + literal.start
    stop := n + literal.stop
    startPos := LineIndex.indent n literal.startPos
    stopPos := LineIndex.indent n literal.stopPos }

/-- The finding that stands so many characters further on in a text whose first line is indented by
them. -/
def Extraction.indent (n : Nat) : Extraction → Extraction
  | found literal => found (literal.indent n)
  | skipped reason place => skipped reason (n + place)

namespace Literal

variable {before : List Char} {tag : Option String} {interpolations : List Span}

theorem ofSpan_before {span : Span} (ordered : span.start ≤ span.stop)
    (bound : span.stop ≤ before.length) (after : List Char) :
    ofSpan (before ++ after) (.ofText (before ++ after)) span tag interpolations =
      ofSpan before (.ofText before) span tag interpolations := by
  rw [ofSpan, ofSpan, Span.slice_before bound, LineIndex.position_before bound,
    LineIndex.position_before (Nat.le_trans ordered bound)]

theorem ofSpan_behind (feeds : before.getLast? = some '\n') (after : List Char) (span : Span) :
    ofSpan (before ++ after) (.ofText (before ++ after)) (span.shift before.length) tag
        interpolations =
      (ofSpan after (.ofText after) span tag interpolations).shift before.length
        (before.count '\n') := by
  rw [ofSpan, Span.slice_behind, Span.shift, LineIndex.position_behind feeds,
    LineIndex.position_behind feeds]
  rfl

theorem ofSpan_indented (noFeed : '\n' ∉ before) (after : List Char) (span : Span) :
    ofSpan (before ++ after) (.ofText (before ++ after)) (span.shift before.length) tag
        interpolations =
      (ofSpan after (.ofText after) span tag interpolations).indent before.length := by
  rw [ofSpan, Span.slice_behind, Span.shift, LineIndex.position_indented noFeed,
    LineIndex.position_indented noFeed]
  rfl

end Literal

end InlineQuery
