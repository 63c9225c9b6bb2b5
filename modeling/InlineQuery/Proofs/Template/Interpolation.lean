import InlineQuery.Literal.Basic
import InlineQuery.Literal.Template

namespace InlineQuery

section
variable {text rest : List Char} {i : Nat} {c : Char}

theorem getElem?_of_drop (ahead : text.drop i = c :: rest) : text[i]? = some c := by
  rw [← List.head?_drop, ahead, List.head?_cons]

theorem drop_succ_of_drop (ahead : text.drop i = c :: rest) : text.drop (i + 1) = rest := by
  rw [← List.drop_drop, ahead, List.drop_one, List.tail_cons]

end

/-- How many backslashes end a text. -/
def backslashes (text : List Char) : Nat := (text.reverse.takeWhile (· == '\\')).length

/-- A character is escaped when an odd number of backslashes stands directly before it. -/
def IsEscaped (text : List Char) (i : Nat) : Prop := backslashes (text.take i) % 2 = 1

theorem backslashes_concat (text : List Char) (c : Char) :
    backslashes (text ++ [c]) = if c = '\\' then backslashes text + 1 else 0 := by
  by_cases backslash : c = '\\' <;> simp [backslashes, backslash]

theorem IsEscaped.mono {text longer : List Char} {i : Nat} (grows : text <+: longer)
    (bound : i ≤ text.length) (escaped : IsEscaped text i) : IsEscaped longer i := by
  obtain ⟨rest, rfl⟩ := grows
  rwa [IsEscaped, List.take_append_of_le_length bound]

theorem isEscaped_append_cons {text rest : List Char} {c : Char} :
    IsEscaped (text ++ c :: rest) text.length ↔ backslashes text % 2 = 1 := by
  simp [IsEscaped]

/-- Behind a backslash that is not itself escaped the next character is. -/
theorem isEscaped_succ {text : List Char} {i : Nat} {c : Char} (atI : text[i]? = some c) :
    IsEscaped text (i + 1) ↔ c = '\\' ∧ ¬ IsEscaped text i := by
  rw [IsEscaped, IsEscaped, List.take_add_one, atI, Option.toList, backslashes_concat]
  by_cases backslash : c = '\\'
  · rw [if_pos backslash]
    simp only [backslash, true_and]
    omega
  · rw [if_neg backslash]
    simp only [backslash, false_and, iff_false]
    decide

namespace Span

def Holds (span : Span) (i : Nat) : Prop := span.start ≤ i ∧ i < span.stop

theorem length_slice {span : Span} {text : List Char} (bound : span.stop ≤ text.length) :
    (span.slice text).length = span.stop - span.start := by
  simp only [slice, List.length_take, List.length_drop]
  omega

theorem slice_getElem? {span : Span} {text : List Char} {i : Nat}
    (within : span.start + i < span.stop) : (span.slice text)[i]? = text[span.start + i]? := by
  rw [slice, List.getElem?_take_of_lt (by omega), List.getElem?_drop]

theorem slice_succ {text : List Char} {start stop : Nat} {c : Char} (ordered : start ≤ stop)
    (atStop : text[stop]? = some c) :
    (Span.mk start (stop + 1)).slice text = (Span.mk start stop).slice text ++ [c] := by
  have steps : stop + 1 - start = (stop - start) + 1 := by omega
  have place : start + (stop - start) = stop := by omega
  simp only [slice, steps, List.take_add_one, List.getElem?_drop, place, atStop, Option.toList]

theorem slice_prefix {text : List Char} {start middle stop : Nat} (ordered : middle ≤ stop) :
    (Span.mk start middle).slice text <+: (Span.mk start stop).slice text :=
  List.take_prefix_take_left (Nat.sub_le_sub_right ordered start)

end Span

/-- The interpolations of a template's content: in range, in order and apart, each from its opening
mark to its closing brace. Every delimiter outside of them is escaped. -/
structure IsInterpolated (content : List Char) (spans : List Span) : Prop where
  apart : spans.Pairwise fun a b => a.stop ≤ b.start
  bounded : ∀ span ∈ spans, span.start + 2 < span.stop ∧ span.stop ≤ content.length
  opens : ∀ span ∈ spans, content[span.start]? = some '$' ∧ content[span.start + 1]? = some '{'
  closes : ∀ span ∈ spans, content[span.stop - 1]? = some '}'
  escaped : ∀ i, content[i]? = some Template.delimiter → (∀ span ∈ spans, ¬ span.Holds i) →
    IsEscaped content i

namespace IsInterpolated

theorem nil : IsInterpolated [] [] := by
  constructor <;> simp

/-- A character of the content itself may follow, a delimiter only if it is escaped. -/
theorem push {content : List Char} {spans : List Span} (known : IsInterpolated content spans)
    {c : Char} (escaped : c = Template.delimiter → backslashes content % 2 = 1) :
    IsInterpolated (content ++ [c]) spans := by
  have kept {i : Nat} (bound : i < content.length) : (content ++ [c])[i]? = content[i]? :=
    List.getElem?_append_left bound
  refine ⟨known.apart, ?_, ?_, ?_, ?_⟩
  · intro span member
    obtain ⟨long, bound⟩ := known.bounded span member
    exact ⟨long, by rw [List.length_append]; omega⟩
  · intro span member
    obtain ⟨long, bound⟩ := known.bounded span member
    rw [kept (by omega), kept (by omega)]
    exact known.opens span member
  · intro span member
    obtain ⟨long, bound⟩ := known.bounded span member
    rw [kept (by omega)]
    exact known.closes span member
  · intro i atI outside
    rcases Nat.lt_trichotomy i content.length with before | rfl | after
    · rw [kept before] at atI
      exact (known.escaped i atI outside).mono (List.prefix_append ..) (Nat.le_of_lt before)
    · rw [List.getElem?_concat_length] at atI
      exact isEscaped_append_cons.mpr (escaped (Option.some.inj atI))
    · rw [List.getElem?_eq_none (by rw [List.length_append]; exact after)] at atI
      exact absurd atI (by simp)

/-- A whole interpolation may follow. -/
theorem extend {content longer : List Char} {spans : List Span}
    (known : IsInterpolated content spans) (grows : content <+: longer)
    (long : content.length + 2 < longer.length)
    (dollar : longer[content.length]? = some '$') (opening : longer[content.length + 1]? = some '{')
    (closing : longer[longer.length - 1]? = some '}') :
    IsInterpolated longer (spans ++ [⟨content.length, longer.length⟩]) := by
  have kept {i : Nat} (bound : i < content.length) : longer[i]? = content[i]? := by
    obtain ⟨rest, rfl⟩ := grows
    exact List.getElem?_append_left bound
  refine ⟨?_, ?_, ?_, ?_, ?_⟩
  · refine List.pairwise_append.mpr ⟨known.apart, List.pairwise_singleton .., ?_⟩
    intro span member last isLast
    rw [List.mem_singleton.mp isLast]
    exact (known.bounded span member).2
  · intro span member
    rcases List.mem_append.mp member with old | new
    · obtain ⟨wide, bound⟩ := known.bounded span old
      exact ⟨wide, by omega⟩
    · rw [List.mem_singleton.mp new]
      exact ⟨long, Nat.le_refl _⟩
  · intro span member
    rcases List.mem_append.mp member with old | new
    · obtain ⟨wide, bound⟩ := known.bounded span old
      rw [kept (by omega), kept (by omega)]
      exact known.opens span old
    · rw [List.mem_singleton.mp new]
      exact ⟨dollar, opening⟩
  · intro span member
    rcases List.mem_append.mp member with old | new
    · obtain ⟨wide, bound⟩ := known.bounded span old
      rw [kept (by omega)]
      exact known.closes span old
    · rw [List.mem_singleton.mp new]
      exact closing
  · intro i atI outside
    have before : i < content.length := by
      have notNew := outside ⟨content.length, longer.length⟩ (by simp)
      have inText := (List.getElem?_eq_some_iff.mp atI).1
      simp only [Span.Holds] at notNew
      omega
    rw [kept before] at atI
    have outsideOld : ∀ span ∈ spans, ¬ span.Holds i := fun span member =>
      outside span (List.mem_append_left _ member)
    exact (known.escaped i atI outsideOld).mono grows (Nat.le_of_lt before)

end IsInterpolated
end InlineQuery
