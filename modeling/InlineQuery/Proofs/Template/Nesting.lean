import InlineQuery.Literal.Scan
import InlineQuery.Proofs.Template.Interpolation

namespace InlineQuery.Template

/-- A template of a text whose closing delimiter is at `stop`. -/
structure IsClosedAt (text : List Char) (t : Template) (stop : Nat) : Prop where
  opens : text[t.opened]? = some delimiter
  closes : text[stop]? = some delimiter
  ordered : t.opened < stop
  content : IsInterpolated ((Span.mk (t.opened + 1) stop).slice text) t.spans

/-- A template lies, delimiters included, strictly between the opening mark and the closing brace of
one interpolation of another. -/
def IsInside (inner outer : Template) : Prop :=
  ∃ span ∈ outer.spans, ∃ stop, inner.closed = some stop ∧
    outer.opened + span.start + 2 < inner.opened ∧ stop < outer.opened + span.stop

/-- A template opens before another, which lies behind it or inside it once it is closed. -/
def Precedes (t u : Template) : Prop :=
  t.opened < u.opened ∧ ∀ stop, t.closed = some stop → stop < u.opened ∨ u.IsInside t

/-- Templates of a text up to an offset, in the order in which they were opened. -/
structure AreNested (text : List Char) (ts : List Template) (offset : Nat) : Prop where
  opened_lt : ∀ t ∈ ts, t.opened < offset
  closed_lt : ∀ t ∈ ts, ∀ stop, t.closed = some stop → stop < offset
  closed : ∀ t ∈ ts, ∀ stop, t.closed = some stop → t.IsClosedAt text stop
  ordered : ts.Pairwise Precedes

namespace AreNested

variable {text : List Char} {ts before inner : List Template} {offset later : Nat}

theorem mono (known : AreNested text ts offset) (bound : offset ≤ later) :
    AreNested text ts later where
  opened_lt t member := Nat.lt_of_lt_of_le (known.opened_lt t member) bound
  closed_lt t member stop isClosed :=
    Nat.lt_of_lt_of_le (known.closed_lt t member stop isClosed) bound
  closed := known.closed
  ordered := known.ordered

theorem concat (known : AreNested text ts offset) {t : Template} (opened : t.opened = offset)
    (isOpen : t.closed = none) : AreNested text (ts ++ [t]) (offset + 1) := by
  have longer := known.mono (Nat.le_succ offset)
  refine ⟨?_, ?_, ?_, ?_⟩
  · simpa [or_imp, forall_and, opened] using longer.opened_lt
  · simpa [or_imp, forall_and, isOpen] using longer.closed_lt
  · simpa [or_imp, forall_and, isOpen] using longer.closed
  · refine List.pairwise_append.mpr ⟨known.ordered, List.pairwise_singleton .., ?_⟩
    intro u member last isLast
    rw [List.mem_singleton.mp isLast]
    refine ⟨by rw [opened]; exact known.opened_lt u member, ?_⟩
    intro stop isClosed
    exact Or.inl (by rw [opened]; exact known.closed_lt u member stop isClosed)

/-- An open template that gets spans or its end keeps its place. What follows it has to lie inside
it when it ends. -/
theorem replace {t u : Template} (known : AreNested text (before ++ t :: inner) offset)
    (isOpen : t.closed = none) (opened : u.opened = t.opened) (bound : offset ≤ later)
    (closed : ∀ stop, u.closed = some stop →
      stop < later ∧ u.IsClosedAt text stop ∧ ∀ v ∈ inner, v.IsInside u) :
    AreNested text (before ++ u :: inner) later := by
  have longer := known.mono bound
  have first := List.pairwise_append.mp known.ordered
  have last := List.pairwise_cons.mp first.2.1
  have place : t ∈ before ++ t :: inner := by simp
  refine ⟨?_, ?_, ?_, ?_⟩
  · have opened_lt := longer.opened_lt
    simp only [List.mem_append, List.mem_cons, or_imp, forall_and, forall_eq, opened] at opened_lt ⊢
    exact opened_lt
  · have closed_lt := longer.closed_lt
    simp only [List.mem_append, List.mem_cons, or_imp, forall_and, forall_eq] at closed_lt ⊢
    exact ⟨closed_lt.1, fun stop isClosed => (closed stop isClosed).1, closed_lt.2.2⟩
  · have wasClosed := longer.closed
    simp only [List.mem_append, List.mem_cons, or_imp, forall_and, forall_eq] at wasClosed ⊢
    exact ⟨wasClosed.1, fun stop isClosed => (closed stop isClosed).2.1, wasClosed.2.2⟩
  · refine List.pairwise_append.mpr ⟨first.1, List.pairwise_cons.mpr ⟨?_, last.2⟩, ?_⟩
    · intro v member
      refine ⟨by rw [opened]; exact (last.1 v member).1, ?_⟩
      exact fun stop isClosed => Or.inr ((closed stop isClosed).2.2 v member)
    · intro w wBefore v member
      rcases List.mem_cons.mp member with rfl | old
      · obtain ⟨earlier, apart⟩ := first.2.2 w wBefore t (List.mem_cons_self ..)
        refine ⟨by rw [opened]; exact earlier, ?_⟩
        intro stop isClosed
        rcases apart stop isClosed with behind | ⟨_, _, _, inside, _⟩
        · exact Or.inl (by rw [opened]; exact behind)
        · rw [isOpen] at inside
          cases inside
      · exact first.2.2 w wBefore v (List.mem_cons_of_mem _ old)

end AreNested

namespace Opened

/-- The template that an open one is when its content ends. -/
def template (o : Opened) (closed : Option Nat) : Template :=
  ⟨o.start, closed, o.tag, o.marked, o.spans⟩

theorem close_eq (o : Opened) (closed : Option Nat) : o.close closed = o.template closed :: o.inner :=
  rfl

/-- The content of an open template has been read up to `stop`. -/
structure IsRead (text : List Char) (o : Opened) (stop : Nat) : Prop where
  opens : text[o.start]? = some delimiter
  ordered : o.start < stop
  content : IsInterpolated ((Span.mk (o.start + 1) stop).slice text) o.spans

/-- The next character belongs to the content of an open template. It is skipped exactly when an
escape stands before it. -/
structure IsActive (text : List Char) (o : Opened) (offset skip : Nat) : Prop
    extends o.IsRead text offset where
  parity : backslashes ((Span.mk (o.start + 1) offset).slice text) % 2 = skip
  inner : ∀ t ∈ o.inner, t.IsInside (o.template none)

/-- An interpolation of an open template is being read. The tokens of its code that have begun end
before `reach`. -/
structure IsSuspended (text : List Char) (o : Opened) (reach : Nat) : Prop
    extends o.IsRead text o.hole where
  dollar : text[o.hole]? = some '$'
  opening : text[o.hole + 1]? = some '{'
  reached : o.hole + 2 ≤ reach
  inner : ∀ t ∈ o.inner,
    t.IsInside (o.template none) ∨ o.hole + 1 < t.opened ∧ ∃ stop, t.closed = some stop

variable {text : List Char} {o : Opened} {offset skip reach : Nat} {c : Char}

theorem IsSuspended.mono (known : o.IsSuspended text reach) {further : Nat}
    (bound : reach ≤ further) : o.IsSuspended text further :=
  { known with reached := Nat.le_trans known.reached bound }

/-- A character of the content is read, and with it an escape begins or ends. -/
theorem IsActive.push (known : o.IsActive text offset skip) (atOffset : text[offset]? = some c)
    (escaped : c = delimiter → skip = 1) :
    o.IsActive text (offset + 1) (if c = '\\' then (skip + 1) % 2 else 0) := by
  have ordered : o.start + 1 ≤ offset := known.ordered
  have grown := Span.slice_succ ordered atOffset
  have parity := known.parity
  refine ⟨⟨known.opens, Nat.lt_succ_of_lt known.ordered, ?_⟩, ?_, known.inner⟩
  · rw [grown]
    exact known.content.push fun isDelimiter => parity.trans (escaped isDelimiter)
  · rw [grown, backslashes_concat]
    split <;> omega

theorem isActive_opened {tag : Option String} {marked : Bool} {hole outer : Nat}
    (atOffset : text[offset]? = some delimiter) :
    (Opened.mk offset tag marked [] hole [] outer).IsActive text (offset + 1) 0 := by
  have empty : (Span.mk (offset + 1) (offset + 1)).slice text = [] := by simp [Span.slice]
  refine ⟨⟨atOffset, Nat.lt_succ_self offset, ?_⟩, ?_, by simp⟩
  · rw [empty]
    exact .nil
  · rw [empty]
    rfl

theorem IsActive.suspend (known : o.IsActive text offset skip) (dollar : text[offset]? = some '$')
    (opening : text[offset + 1]? = some '{') :
    ({ o with hole := offset } : Opened).IsSuspended text (offset + 2) :=
  ⟨⟨known.opens, known.ordered, known.content⟩, dollar, opening, Nat.le_refl _,
    fun t member => Or.inl (known.inner t member)⟩

/-- A closing brace ends the interpolation. Templates that were closed in it lie inside it. -/
theorem IsSuspended.resume (known : o.IsSuspended text offset) (atOffset : text[offset]? = some '}')
    (closed_lt : ∀ t ∈ o.inner, ∀ stop, t.closed = some stop → stop < offset) :
    ({ o with spans := o.spans ++ [⟨o.hole - (o.start + 1), offset + 1 - (o.start + 1)⟩] } :
      Opened).IsActive text (offset + 1) 0 := by
  have ordered := known.ordered
  have reached := known.reached
  have opened : o.start < offset + 1 := by omega
  have bound : offset < text.length := (List.getElem?_eq_some_iff.mp atOffset).1
  have shortLength : ((Span.mk (o.start + 1) o.hole).slice text).length = o.hole - (o.start + 1) :=
    Span.length_slice (by simp only; omega)
  have longLength : ((Span.mk (o.start + 1) (offset + 1)).slice text).length =
      offset + 1 - (o.start + 1) :=
    Span.length_slice (by simp only; omega)
  have inside {i j : Nat} (place : o.start + 1 + i = j) (within : j ≤ offset) :
      ((Span.mk (o.start + 1) (offset + 1)).slice text)[i]? = text[j]? := by
    rw [Span.slice_getElem? (by simp only; omega)]
    exact congrArg (text[·]?) place
  refine ⟨⟨known.opens, opened, ?_⟩, ?_, ?_⟩
  · have longer := known.content.extend (Span.slice_prefix (by omega : o.hole ≤ offset + 1))
      (by rw [shortLength, longLength]; omega)
      (by rw [shortLength]; exact (inside (by omega) (by omega)).trans known.dollar)
      (by rw [shortLength]; exact (inside (by omega) (by omega)).trans known.opening)
      (by rw [longLength]; exact (inside (by omega) (by omega)).trans atOffset)
    simpa only [shortLength, longLength] using longer
  · have before : o.start + 1 ≤ offset := by omega
    rw [Span.slice_succ before atOffset, backslashes_concat]
    simp
  · intro t member
    rcases known.inner t member with ⟨span, old, inside⟩ | ⟨behind, stop, isClosed⟩
    · exact ⟨span, List.mem_append_left _ old, inside⟩
    · have before := closed_lt t member stop isClosed
      refine ⟨_, List.mem_append_right _ (List.mem_singleton_self _), stop, isClosed, ?_, ?_⟩
      · simp only [template]
        omega
      · simp only [template]
        omega

/-- A template that is closed in the interpolation lies behind its opening mark, and so does what
lies inside that. -/
theorem IsSuspended.add (known : o.IsSuspended text reach) {inner : Opened} {stop : Nat}
    (behind : o.hole + 1 < inner.start)
    (inside : ∀ t ∈ inner.inner, t.IsInside (inner.template none)) :
    ({ o with inner := o.inner ++ inner.close (some stop) } : Opened).IsSuspended text reach := by
  refine ⟨⟨known.opens, known.ordered, known.content⟩, known.dollar, known.opening,
    known.reached, ?_⟩
  intro t member
  rw [close_eq, List.mem_append, List.mem_cons] at member
  rcases member with old | rfl | nested
  · exact known.inner t old
  · exact Or.inr ⟨behind, stop, rfl⟩
  · obtain ⟨span, _, last, isClosed, opened, _⟩ := inside t nested
    have later : inner.start < t.opened := by
      simp only [template] at opened
      omega
    exact Or.inr ⟨Nat.lt_trans behind later, last, isClosed⟩

end Opened
end InlineQuery.Template
