import InlineQuery.Proofs.Template.Blanking
import Mathlib.Data.Option.Basic

/-!
What scanning a script reports once comments are blanked out. A literal keeps its place and its text,
but for interpolations that held such a comment. Whether a template is reported, and under which tag,
is not settled by its code alone: the tag is looked up backwards in a text whose comments read like
code.
-/

namespace InlineQuery

/-- What scanning reports where comments are blanked out: the same, except that the text of a
literal may differ inside interpolations that one of the comments lies in. -/
inductive Extraction.IsBlanked (chosen : List Span) : Extraction → Extraction → Prop
  | skipped (reason : SkipReason) (offset : Nat) :
      IsBlanked chosen (.skipped reason offset) (.skipped reason offset)
  | found (literal : Literal) (raw : List Char) (length : raw.length = literal.raw.length)
      (kept : ∀ i, raw[i]? ≠ literal.raw[i]? → ∃ span ∈ literal.interpolations, span.Holds i ∧
        ∃ comment ∈ chosen, literal.start + span.start ≤ comment.start ∧
          comment.stop ≤ literal.start + span.stop) :
      IsBlanked chosen (.found literal) (.found { literal with raw })

/-- The tag of what scanning reports. -/
def Extraction.tag (e : Extraction) : Option String := e.literal?.bind Literal.tag

namespace Extraction.IsBlanked

variable {chosen : List Span} {e e' : Extraction}

theorem tag (blanked : IsBlanked chosen e e') : e'.tag = e.tag := by
  cases blanked <;> rfl

theorem opening (blanked : IsBlanked chosen e e') : e'.opening = e.opening := by
  cases blanked <;> rfl

end Extraction.IsBlanked

namespace LineIndex

theorem lineEnds_blankOut (chosen : List Span) (j k : Nat) (text : List Char) :
    lineEnds k (Template.blankOut chosen j text) = lineEnds k text := by
  induction text generalizing j k with
  | nil => rfl
  | cons c text ih =>
    have feed : (if Template.isCovered chosen j && c != '\n' then ' ' else c) = '\n' ↔ c = '\n' := by
      by_cases isFeed : c = '\n'
      · simp [isFeed]
      · split <;> simp [isFeed]
    rw [Template.blankOut, lineEnds, lineEnds, ih]
    simp only [feed]

/-- Lines stay where they are. -/
theorem ofText_blankOut (chosen : List Span) (text : List Char) :
    ofText (Template.blankOut chosen 0 text) = ofText text :=
  congrArg (fun ends => LineIndex.mk (0 :: ends)) (lineEnds_blankOut chosen 0 0 text)

end LineIndex

namespace Template

variable {text : List Char} {chosen : List Span} {t t' : Template}

/-- Comments that reading a text skips, none of them directly behind a backslash. -/
theorem areComments (sub : ∀ span ∈ chosen, span ∈ comments text)
    (unescaped : ∀ span ∈ chosen, text[span.start - 1]? ≠ some '\\') : AreComments text chosen where
  isComment span member := (Reading.isAhead_of_mem_comments (sub span member)).shape
  apart a isChosen b isChosen' before := by
    have pairwise := List.pairwise_iff_getElem.mp (Reading.pairwise_comments .start text)
    obtain ⟨i, iBound, rfl⟩ := List.getElem_of_mem (sub a isChosen)
    obtain ⟨j, jBound, rfl⟩ := List.getElem_of_mem (sub b isChosen')
    rcases Nat.lt_trichotomy i j with less | rfl | greater
    · exact pairwise i j iBound jBound less
    · exact absurd before (Nat.lt_irrefl _)
    · obtain ⟨_, _, _, _, stop⟩ := (Reading.isAhead_of_mem_comments (sub _ isChosen')).shape
      have crossed := pairwise j i jBound iBound greater
      simp only [comments] at *
      omega
  unescaped span member k start := by
    have plain := unescaped span member
    rwa [start, Nat.add_sub_cancel] at plain

theorem isCovered_of_getElem? {i : Nat} {c : Char} (place : (blankOut chosen 0 text)[i]? = some c)
    (notBlank : c ≠ ' ') (notFeed : c ≠ '\n') : isCovered chosen i = false := by
  refine Bool.eq_false_iff.mpr fun covered => ?_
  rw [getElem?_blankOut, Nat.zero_add, covered] at place
  obtain ⟨d, _, rfl⟩ := Option.map_eq_some_iff.mp place
  by_cases isFeed : d = '\n'
  · simp [isFeed] at notFeed
  · simp [isFeed] at notBlank

/-- Where the text of a literal changes, there is an interpolation that held a comment. -/
theorem exists_span_of_changed (sub : ∀ span ∈ chosen, span ∈ comments text) {stop : Nat}
    (inside : t ∈ all text) (isClosed : t.closed = some stop)
    (opens : isCovered chosen t.opened = false) {i : Nat}
    (changed : ((Span.mk (t.opened + 1) stop).slice (blankOut chosen 0 text))[i]? ≠
      ((Span.mk (t.opened + 1) stop).slice text)[i]?) :
    ∃ span ∈ t.spans, span.Holds i ∧ ∃ comment ∈ chosen,
      t.opened + 1 + span.start ≤ comment.start ∧ comment.stop ≤ t.opened + 1 + span.stop := by
  by_cases within : t.opened + 1 + i < stop
  · rw [Span.slice_getElem? within, Span.slice_getElem? within, getElem?_blankOut] at changed
    have covered : isCovered chosen (t.opened + 1 + i) = true := by
      by_contra kept
      exact changed (by simp [kept])
    obtain ⟨comment, member, lower, upper⟩ := isCovered_iff.mp covered
    have behind : t.opened < comment.start := by
      by_contra before
      have covered : isCovered chosen t.opened = true :=
        isCovered_iff.mpr ⟨comment, member, by omega, by omega⟩
      rw [covered] at opens
      cases opens
    obtain ⟨span, isSpan, first, last⟩ :=
      liesIn_of_mem_comments inside isClosed (sub comment member) behind (by omega)
    exact ⟨span, isSpan, ⟨by omega, by omega⟩, comment, member, by omega, by omega⟩
  · refine absurd ?_ changed
    rw [Span.slice, Span.slice, List.getElem?_take_eq_none (by simp only; omega),
      List.getElem?_take_eq_none (by simp only; omega)]

theorem isBlank_of_dollar {cs : List Char} {i : Nat} (dollar : cs[i]? = some '$') :
    Text.isBlank cs = false := by
  refine Bool.eq_false_iff.mpr fun blank => ?_
  have := (Text.isBlank_iff cs).mp blank '$' (List.mem_of_getElem? dollar)
  cases this

/-- A template holds something else than white space with its comments or without. -/
theorem isBlank_blankOut (sub : ∀ span ∈ chosen, span ∈ comments text) {stop : Nat}
    (inside : t ∈ all text) (isClosed : t.closed = some stop) (known : t.IsClosedAt text stop)
    (known' : t.IsClosedAt (blankOut chosen 0 text) stop) :
    Text.isBlank ((Span.mk (t.opened + 1) stop).slice (blankOut chosen 0 text)) =
      Text.isBlank ((Span.mk (t.opened + 1) stop).slice text) := by
  have opens : isCovered chosen t.opened = false :=
    isCovered_of_getElem? known'.opens (by decide) (by decide)
  by_cases same : (Span.mk (t.opened + 1) stop).slice (blankOut chosen 0 text) =
      (Span.mk (t.opened + 1) stop).slice text
  · rw [same]
  · obtain ⟨i, changed⟩ := not_forall.mp (mt List.ext_getElem? same)
    obtain ⟨span, isSpan, _⟩ := exists_span_of_changed sub inside isClosed opens changed
    rw [isBlank_of_dollar (known.content.opens span isSpan).1,
      isBlank_of_dollar (known'.content.opens span isSpan).1]

/-- The tag under which a template is reported, if it is. -/
def reportedTag? (text : List Char) (t : Template) : Option (Option String) :=
  (extraction? text (.ofText text) t).map Extraction.tag

theorem opened_eq (same : t'.bare = t.bare) : t'.opened = t.opened :=
  (congrArg Template.opened same).trans rfl

/-- What is reported of a template before and after is the same as soon as its tag is. -/
theorem isBlanked_of_tag (sub : ∀ span ∈ chosen, span ∈ comments text) (inside : t ∈ all text)
    (inside' : t' ∈ all (blankOut chosen 0 text)) (same : t'.bare = t.bare) {e e' : Extraction}
    (first : extraction? text (.ofText text) t = some e)
    (second : extraction? (blankOut chosen 0 text) (.ofText (blankOut chosen 0 text)) t' = some e')
    (sameTag : e'.tag = e.tag) : Extraction.IsBlanked chosen e e' := by
  have opened := opened_eq same
  have closed : t'.closed = t.closed := (congrArg Template.closed same).trans rfl
  have spans : t'.spans = t.spans := (congrArg Template.spans same).trans rfl
  obtain ⟨_, nested⟩ := exists_areNested_all text
  obtain ⟨_, nested'⟩ := exists_areNested_all (blankOut chosen 0 text)
  rw [LineIndex.ofText_blankOut] at second
  unfold extraction? at first second
  split at first
  · cases first
  split at second
  · cases second
  rw [closed, opened] at second
  cases isClosed : t.closed with
  | none =>
    rw [isClosed] at first second
    cases first
    cases second
    exact .skipped ..
  | some stop =>
    have known := nested.closed t inside stop isClosed
    have known' := nested'.closed t' inside' stop (closed.trans isClosed)
    have opens : isCovered chosen t.opened = false :=
      isCovered_of_getElem? (opened ▸ known'.opens) (by decide) (by decide)
    simp only [isClosed] at first second
    rw [isBlank_blankOut sub inside isClosed known ⟨opened ▸ known'.opens, known'.closes,
      opened ▸ known'.ordered, opened ▸ spans ▸ known'.content⟩] at second
    split at first
    · rename_i blank
      rw [if_pos blank] at second
      cases first
      cases second
      exact .skipped ..
    · rename_i visible
      rw [if_neg visible, spans] at second
      cases first
      cases second
      have tag : t'.tag = t.tag := sameTag
      rw [tag]
      refine .found (.ofSpan ..) _ ?_ fun i changed => ?_
      · simp only [Literal.ofSpan, Span.slice, List.length_take, List.length_drop,
          length_blankOut]
      · exact exists_span_of_changed sub inside isClosed opens changed

theorem extraction?_blankOut (sub : ∀ span ∈ chosen, span ∈ comments text) (inside : t ∈ all text)
    (inside' : t' ∈ all (blankOut chosen 0 text)) (same : t'.bare = t.bare) :
    Option.Rel (Extraction.IsBlanked chosen) (extraction? text (.ofText text) t)
        (extraction? (blankOut chosen 0 text) (.ofText (blankOut chosen 0 text)) t') ↔
      reportedTag? (blankOut chosen 0 text) t' = reportedTag? text t := by
  have blanked := @isBlanked_of_tag text chosen t t' sub inside inside' same
  unfold reportedTag?
  generalize extraction? text (.ofText text) t = r at *
  generalize extraction? (blankOut chosen 0 text) (.ofText (blankOut chosen 0 text)) t' = r' at *
  constructor
  · rintro (isBlanked | _)
    · rw [Option.map_some, Option.map_some, isBlanked.tag]
    · rfl
  · intro sameTag
    cases r with
    | none =>
      cases Option.map_eq_none_iff.mp sameTag
      exact .none
    | some e =>
      obtain ⟨e', rfl, tag⟩ := Option.map_eq_some_iff.mp sameTag
      exact .some (blanked rfl rfl tag)

/-- Two reports that are alike belong to templates at the same place. -/
theorem rel_of_forall₂_filterMap {text' : List Char} {lines lines' : LineIndex}
    {ts ts' : List Template} (places : List.Forall₂ (fun t t' => t'.opened = t.opened) ts ts')
    (ordered : ts.Pairwise Precedes) (ordered' : ts'.Pairwise Precedes)
    (blanked : List.Forall₂ (Extraction.IsBlanked chosen) (ts.filterMap (extraction? text lines))
      (ts'.filterMap (extraction? text' lines'))) :
    List.Forall₂ (fun t t' => Option.Rel (Extraction.IsBlanked chosen) (extraction? text lines t)
      (extraction? text' lines' t')) ts ts' := by
  induction places with
  | nil => exact .nil
  | @cons t t' ts ts' here _ ih =>
    have behind {text : List Char} {lines : LineIndex} {t : Template} {ts : List Template}
        (ordered : (t :: ts).Pairwise Precedes) :
        ∀ e ∈ ts.filterMap (extraction? text lines), t.opened < e.opening := by
      intro e member
      obtain ⟨u, isLater, reported⟩ := List.mem_filterMap.mp member
      rw [opening_of_extraction? reported]
      exact ((List.pairwise_cons.mp ordered).1 u isLater).1
    have later := ih (List.pairwise_cons.mp ordered).2 (List.pairwise_cons.mp ordered').2
    cases first : extraction? text lines t with
    | none =>
      rw [List.filterMap_cons_none first] at blanked
      cases second : extraction? text' lines' t' with
      | none =>
        rw [List.filterMap_cons_none second] at blanked
        exact .cons (by rw [first, second]; exact .none) (later blanked)
      | some e' =>
        rw [List.filterMap_cons_some second] at blanked
        obtain ⟨e, es, alike, _, isFirst⟩ := List.forall₂_cons_right_iff.mp blanked
        have place := behind ordered e (isFirst ▸ List.mem_cons_self ..)
        rw [← alike.opening, opening_of_extraction? second, here] at place
        exact absurd place (Nat.lt_irrefl _)
    | some e =>
      rw [List.filterMap_cons_some first] at blanked
      cases second : extraction? text' lines' t' with
      | none =>
        rw [List.filterMap_cons_none second] at blanked
        obtain ⟨e', es', alike, _, isFirst⟩ := List.forall₂_cons_left_iff.mp blanked
        have place := behind ordered' e' (isFirst ▸ List.mem_cons_self ..)
        rw [alike.opening, opening_of_extraction? first, here] at place
        exact absurd place (Nat.lt_irrefl _)
      | some e' =>
        rw [List.filterMap_cons_some second] at blanked
        obtain ⟨alike, rest⟩ := List.forall₂_cons.mp blanked
        exact .cons (by rw [first, second]; exact .some alike) (later rest)

/-- Templates with their comments and without, side by side. -/
theorem forall₂_blankOut (known : AreComments text chosen)
    (sub : ∀ span ∈ chosen, span ∈ comments text) :
    List.Forall₂ (fun t t' => t ∈ all text ∧ t' ∈ all (blankOut chosen 0 text) ∧ t'.bare = t.bare)
      (all text) (all (blankOut chosen 0 text)) := by
  have maps := bare_all_blankOut known sub
  rw [← List.forall₂_eq_eq_eq, List.forall₂_map_left_iff, List.forall₂_map_right_iff] at maps
  have isAfter := (List.forall₂_and_left _ _).mpr ⟨fun _ member => member, maps⟩
  exact (List.forall₂_and_left _ _).mpr ⟨fun _ member => member, isAfter.flip⟩

end Template

open Template in
/-- Comments that are not directly behind a backslash can be blanked out without a change to what
scanning a script reports, except inside interpolations that held one of them, exactly when no
template is tagged or untagged by that. -/
theorem scan_blankOut_iff (text : List Char) (chosen : List Span)
    (sub : ∀ span ∈ chosen, span ∈ comments text)
    (unescaped : ∀ span ∈ chosen, text[span.start - 1]? ≠ some '\\') :
    List.Forall₂ (Extraction.IsBlanked chosen) (scan text .javascript)
        (scan (blankOut chosen 0 text) .javascript) ↔
      (all (blankOut chosen 0 text)).map (reportedTag? (blankOut chosen 0 text)) =
        (all text).map (reportedTag? text) := by
  have pairs := forall₂_blankOut (areComments sub unescaped) sub
  have alike : List.Forall₂ (fun t t' => Option.Rel (Extraction.IsBlanked chosen)
        (extraction? text (.ofText text) t)
        (extraction? (blankOut chosen 0 text) (.ofText (blankOut chosen 0 text)) t') ↔
      reportedTag? (blankOut chosen 0 text) t' = reportedTag? text t)
      (all text) (all (blankOut chosen 0 text)) :=
    pairs.imp fun t t' both => extraction?_blankOut sub both.1 both.2.1 both.2.2
  have places : List.Forall₂ (fun t t' => t'.opened = t.opened) (all text)
      (all (blankOut chosen 0 text)) :=
    pairs.imp fun t t' both => opened_eq both.2.2
  obtain ⟨_, nested⟩ := exists_areNested_all text
  obtain ⟨_, nested'⟩ := exists_areNested_all (blankOut chosen 0 text)
  rw [← List.forall₂_eq_eq_eq, List.forall₂_map_left_iff, List.forall₂_map_right_iff]
  constructor
  · intro blanked
    have reports := rel_of_forall₂_filterMap places nested.ordered nested'.ordered blanked
    exact (alike.mp (fun t t' both => both.mp) reports).flip
  · intro sameTags
    refine List.rel_filterMap ?_ (alike.mp (fun t t' both => both.mpr) sameTags.flip)
    exact fun _ _ report => report

/-- A comment in front of a tag and one in an interpolation: nothing but the text of the
interpolation changes without them. -/
theorem scan_blankOut_plain :
    let text := ['/', '/', 'x', '\n', 'g', 'q', 'l', '\x60', 'a', '$', '{', 'b', '/', '*', 'c', '*',
      '/', '}', '\x60']
    let chosen : List Span := [⟨0, 3⟩, ⟨12, 17⟩]
    (∀ span ∈ chosen, span ∈ Template.comments text) ∧
      (∀ span ∈ chosen, text[span.start - 1]? ≠ some '\\') ∧
      List.Forall₂ (Extraction.IsBlanked chosen) (scan text .javascript)
        (scan (Template.blankOut chosen 0 text) .javascript) := by
  refine ⟨?_, ?_, (scan_blankOut_iff _ _ ?_ ?_).mpr ?_⟩ <;> decide

/-- A comment in front of a template that reads like a tag tags it. -/
theorem scan_blankOut_tagComment :
    let text := ['/', '/', ' ', 'g', 'q', 'l', '\n', '\x60', '{', ' ', 'a', ' ', '}', '\x60']
    Template.comments text = [⟨0, 6⟩] ∧
      ¬ List.Forall₂ (Extraction.IsBlanked [⟨0, 6⟩]) (scan text .javascript)
        (scan (Template.blankOut [⟨0, 6⟩] 0 text) .javascript) := by
  refine ⟨by decide, fun blanked => ?_⟩
  have same := blanked.length_eq
  revert same
  decide

end InlineQuery
