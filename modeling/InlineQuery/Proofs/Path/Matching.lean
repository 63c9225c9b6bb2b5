import InlineQuery.Proofs.Path.Pattern
import Mathlib.Data.List.TakeWhile

/-!
What a pattern matches, read from its text. A pattern that is cut outside of its sets matches the
texts that its parts match one after the other.
-/

namespace InlineQuery

namespace Glob

/-- Whether every set that opens in a text closes in it; `skip` characters ahead belong to the last
set. -/
def isClosed (skip : Nat) : List Char → Bool
  | [] => skip == 0
  | c :: r =>
    match skip with
    | skip + 1 => isClosed skip r
    | 0 =>
      if c == '[' then
        match setBody? r with
        | some body => isClosed (body.length + 1) r
        | none => false
      else isClosed 0 r

section Matching

variable {item : Item} {items front back : List Item} {cs u v t : List Char}

theorem matchItems_nil : matchItems [] cs = true ↔ cs = [] := by
  rw [matchItems, List.isEmpty_iff]

theorem matchItems_cons (single : item ≠ .star) : matchItems (item :: items) cs = true ↔
    ∃ c rest, cs = c :: rest ∧ item.accepts c = true ∧ matchItems items rest = true := by
  cases cs with
  | nil => cases item <;> simp [matchItems] at single ⊢
  | cons c cs =>
    have first : matchItems (item :: items) (c :: cs) = (item.accepts c && matchItems items cs) := by
      cases item with
      | star => exact absurd rfl single
      | any | one | oneOf => rfl
    rw [first, Bool.and_eq_true]
    constructor
    · exact fun both => ⟨c, cs, rfl, both⟩
    · rintro ⟨_, _, same, both⟩
      cases same
      exact both

theorem matchItems_append : matchItems (front ++ back) cs = true ↔
    ∃ u v, cs = u ++ v ∧ matchItems front u = true ∧ matchItems back v = true := by
  induction front generalizing cs with
  | nil =>
    simp only [List.nil_append, matchItems_nil]
    refine ⟨fun matched => ⟨[], cs, rfl, rfl, matched⟩, ?_⟩
    rintro ⟨_, v, rfl, rfl, matched⟩
    exact matched
  | cons item front ih =>
    by_cases star : item = .star
    · subst star
      rw [List.cons_append, matchItems_star]
      constructor
      · rintro ⟨_, ⟨skipped, rfl⟩, matched⟩
        obtain ⟨u, v, rfl, left, right⟩ := ih.mp matched
        exact ⟨skipped ++ u, v, (List.append_assoc ..).symm,
          matchItems_star.mpr ⟨u, List.suffix_append .., left⟩, right⟩
      · rintro ⟨_, v, rfl, first, right⟩
        obtain ⟨u, ⟨skipped, rfl⟩, left⟩ := matchItems_star.mp first
        exact ⟨u ++ v, ⟨skipped, (List.append_assoc ..).symm⟩, ih.mpr ⟨u, v, rfl, left, right⟩⟩
    · rw [List.cons_append, matchItems_cons star]
      constructor
      · rintro ⟨c, _, rfl, accepted, matched⟩
        obtain ⟨u, v, rfl, left, right⟩ := ih.mp matched
        exact ⟨c :: u, v, rfl, (matchItems_cons star).mpr ⟨c, u, rfl, accepted, left⟩, right⟩
      · rintro ⟨_, v, rfl, left, right⟩
        obtain ⟨c, u, rfl, accepted, left⟩ := (matchItems_cons star).mp left
        exact ⟨c, u ++ v, rfl, accepted, ih.mpr ⟨u, v, rfl, left, right⟩⟩

/-- Stars that follow each other match what one of them matches. -/
theorem matchItems_mergeStars : matchItems (mergeStars items) cs = matchItems items cs := by
  refine Bool.eq_iff_iff.mpr ?_
  induction items using mergeStars.induct generalizing cs with
  | case1 items ih =>
    rw [mergeStars, ih, matchItems_star, matchItems_star]
    simp only [matchItems_star]
    constructor
    · rintro ⟨rest, ending, matched⟩
      exact ⟨rest, ending, rest, List.suffix_rfl, matched⟩
    · rintro ⟨_, ending, rest, later, matched⟩
      exact ⟨rest, later.trans ending, matched⟩
  | case2 item items other ih =>
    have merged : mergeStars (item :: items) = [item] ++ mergeStars items := by
      rw [mergeStars]
      · rfl
      · exact other
    have single : item :: items = [item] ++ items := rfl
    rw [merged, single, matchItems_append, matchItems_append]
    simp only [ih]
  | case3 => rw [mergeStars]

theorem isMatch_eq {pattern : List Char} : isMatch pattern cs = matchItems (itemsFrom 0 pattern) cs :=
  matchItems_mergeStars

end Matching

section Texts

variable {c : Char} {a b body cs u v t : List Char} {skip : Nat}

/-- What is found up to a bracket does not depend on the text behind it. -/
theorem takeWhile_append_of_lt {p : Char → Bool} (stops : (a.takeWhile p).length < a.length) :
    (a ++ b).takeWhile p = a.takeWhile p := by
  rw [List.takeWhile_append, if_neg stops.ne]

theorem setBody?_append (found : setBody? a = some body) : setBody? (a ++ b) = some body := by
  unfold setBody? at found ⊢
  dsimp only at found ⊢
  cases a with
  | nil => simp at found
  | cons c a =>
    rw [List.cons_append, List.head?_cons]
    rw [List.head?_cons] at found
    generalize (if some c = some '!' then 1 else 0) = start at found ⊢
    have dropped : ∀ n ≤ (c :: a).length, (c :: (a ++ b)).drop n = (c :: a).drop n ++ b :=
      fun n bound => List.drop_append_of_le_length bound
    obtain ⟨bound, same⟩ := Option.ite_none_right_eq_some.mp found
    have inside : start < (c :: a).length := by
      split at bound <;> omega
    have head : ((c :: (a ++ b)).drop start).head? = ((c :: a).drop start).head? := by
      obtain ⟨d, rest, cut⟩ := List.exists_cons_of_length_pos (l := (c :: a).drop start)
        (by rw [List.length_drop]; omega)
      rw [dropped start inside.le, cut, List.cons_append, List.head?_cons, List.head?_cons]
    rw [head]
    generalize (if ((c :: a).drop start).head? = some ']' then start + 1 else start) = n at bound same ⊢
    have stops : (((c :: a).drop n).takeWhile (· ≠ ']')).length < ((c :: a).drop n).length := by
      rw [List.length_drop]
      omega
    rw [dropped n (by omega), takeWhile_append_of_lt stops, if_pos, ← List.cons_append,
      List.take_append_of_le_length bound.le, same]
    rw [List.length_cons, List.length_append]
    rw [List.length_cons] at bound
    omega

/-- Behind closed sets a pattern is read on its own. -/
theorem itemsFrom_append (closed : isClosed skip a = true) :
    itemsFrom skip (a ++ b) = itemsFrom skip a ++ itemsFrom 0 b := by
  induction a generalizing skip with
  | nil =>
    obtain rfl : skip = 0 := by simpa [isClosed] using closed
    rfl
  | cons c a ih =>
    cases skip with
    | succ skip => exact ih closed
    | zero =>
      rw [isClosed] at closed
      rw [List.cons_append, itemsFrom, itemsFrom]
      by_cases bracket : c = '['
      · subst bracket
        cases found : setBody? a with
        | none => simp [found] at closed
        | some body =>
          have inside : isClosed (body.length + 1) a = true := by simpa [found] using closed
          simp [setBody?_append found, ih inside]
      · have behind : isClosed 0 a = true := by simpa [bracket] using closed
        simp only [beq_iff_eq, bracket, if_false, ih behind]
        split
        · rfl
        · split <;> rfl

theorem isMatch_nil : isMatch [] cs = true ↔ cs = [] := by
  rw [isMatch_eq]
  exact matchItems_nil

theorem isMatch_star : isMatch ('*' :: a) cs = true ↔ ∃ rest, rest <:+ cs ∧ isMatch a rest = true := by
  simp only [isMatch_eq]
  exact matchItems_star

theorem isMatch_question :
    isMatch ('?' :: a) cs = true ↔ ∃ c rest, cs = c :: rest ∧ isMatch a rest = true := by
  have read : itemsFrom 0 ('?' :: a) = .any :: itemsFrom 0 a := rfl
  have single : Item.any ≠ .star := nofun
  simp only [isMatch_eq, read, matchItems_cons single, Item.accepts, true_and]

/-- A character that is no part of the notation matches itself. -/
theorem isMatch_literal (star : c ≠ '*') (question : c ≠ '?') (bracket : c ≠ '[') :
    isMatch (c :: a) cs = true ↔ ∃ rest, cs = c :: rest ∧ isMatch a rest = true := by
  have read : itemsFrom 0 (c :: a) = .one c :: itemsFrom 0 a := by
    simp [itemsFrom, star, question, bracket]
  simp only [isMatch_eq, read]
  rw [matchItems_cons (by simp)]
  simp only [Item.accepts, beq_iff_eq]
  constructor
  · rintro ⟨_, rest, same, rfl, matched⟩
    exact ⟨rest, same, matched⟩
  · rintro ⟨rest, same, matched⟩
    exact ⟨c, rest, same, rfl, matched⟩

theorem isMatch_append (closed : isClosed 0 a = true) : isMatch (a ++ b) cs = true ↔
    ∃ u v, cs = u ++ v ∧ isMatch a u = true ∧ isMatch b v = true := by
  simp only [isMatch_eq, itemsFrom_append closed]
  exact matchItems_append

theorem isClosed_append (closed : isClosed skip a = true) : isClosed skip (a ++ b) = isClosed 0 b := by
  induction a generalizing skip with
  | nil =>
    obtain rfl : skip = 0 := by simpa [isClosed] using closed
    rfl
  | cons c a ih =>
    cases skip with
    | succ skip => exact ih closed
    | zero =>
      rw [isClosed] at closed
      rw [List.cons_append, isClosed]
      by_cases bracket : c = '['
      · subst bracket
        cases found : setBody? a with
        | none => simp [found] at closed
        | some body =>
          have inside : isClosed (body.length + 1) a = true := by simpa [found] using closed
          simp [setBody?_append found, ih inside]
      · have behind : isClosed 0 a = true := by simpa [bracket] using closed
        simp [bracket, ih behind]

theorem isClosed_questions (n : Nat) : isClosed 0 (List.replicate n '?') = true := by
  induction n with
  | zero => rfl
  | succ n ih => exact ih

theorem isMatch_questions {n : Nat} : isMatch (List.replicate n '?') cs = true ↔ cs.length = n := by
  induction n generalizing cs with
  | zero => rw [List.replicate_zero, isMatch_nil, List.length_eq_zero_iff]
  | succ n ih =>
    rw [List.replicate_succ, isMatch_question]
    cases cs with
    | nil => simp
    | cons c cs =>
      simp only [List.cons.injEq, List.length_cons, Nat.succ_inj]
      constructor
      · rintro ⟨_, _, ⟨-, rfl⟩, matched⟩
        exact ih.mp matched
      · exact fun length => ⟨c, cs, ⟨rfl, rfl⟩, ih.mpr length⟩

theorem isMatch_openEnd {n : Nat} :
    isMatch ('*' :: List.replicate n '?') cs = true ↔ n ≤ cs.length := by
  simp only [isMatch_star, isMatch_questions]
  constructor
  · rintro ⟨rest, ending, rfl⟩
    exact ending.length_le
  · intro enough
    exact ⟨cs.drop (cs.length - n), List.drop_suffix .., by rw [List.length_drop]; omega⟩

end Texts

end Glob
end InlineQuery
