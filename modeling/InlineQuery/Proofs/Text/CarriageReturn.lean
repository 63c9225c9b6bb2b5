import InlineQuery.Literal.Basic
import InlineQuery.Proofs.Text.Lines
import InlineQuery.Text.Space
import Mathlib.Data.List.Induction

/-!
Texts whose lines end with a carriage return and a line feed instead of a line feed alone. Where an
offset is moved to is counted off the text in front of it. Lines and columns stay as they are, since
the carriage return is the last character of its line.
-/

namespace InlineQuery.Text

/-- A text with a carriage return in front of every line feed. -/
def crlf : List Char → List Char
  | [] => []
  | c :: rest => if c = '\n' then '\r' :: '\n' :: crlf rest else c :: crlf rest

/-- The offset of a text with carriage returns that belongs to an offset of it without them. -/
def crlfPlace (text : List Char) (offset : Nat) : Nat := (crlf (text.take offset)).length

variable {c : Char} {text rest : List Char}

@[simp]
theorem crlf_nil : crlf [] = [] := rfl

@[simp]
theorem crlf_feed (rest : List Char) : crlf ('\n' :: rest) = '\r' :: '\n' :: crlf rest := rfl

theorem crlf_cons (other : c ≠ '\n') (rest : List Char) : crlf (c :: rest) = c :: crlf rest :=
  if_neg other

theorem crlf_append (front behind : List Char) :
    crlf (front ++ behind) = crlf front ++ crlf behind := by
  induction front with
  | nil => rfl
  | cons c front ih =>
    by_cases feed : c = '\n'
    · subst feed
      rw [List.cons_append, crlf_feed, crlf_feed, ih]
      rfl
    · rw [List.cons_append, crlf_cons feed, crlf_cons feed, ih]
      rfl

theorem crlf_eq_self (noFeed : '\n' ∉ text) : crlf text = text := by
  induction text with
  | nil => rfl
  | cons c rest ih =>
    have other : c ≠ '\n' := fun feed => noFeed (feed ▸ List.mem_cons_self ..)
    have later : '\n' ∉ rest := fun feed => noFeed (List.mem_cons_of_mem _ feed)
    rw [crlf_cons other, ih later]

theorem mem_crlf (feed : '\n' ∈ text) : '\n' ∈ crlf text := by
  obtain ⟨front, behind, rfl⟩ := List.append_of_mem feed
  rw [crlf_append, crlf_feed]
  simp

theorem crlf_eq_take_append {n : Nat} (noFeed : '\n' ∉ text.take n) :
    crlf text = text.take n ++ crlf (text.drop n) := by
  have parts := crlf_append (text.take n) (text.drop n)
  rwa [List.take_append_drop, crlf_eq_self noFeed] at parts

/-- Except for line ends, a text starts as it does with carriage returns. -/
theorem head?_crlf (notFeed : c ≠ '\n') (notReturn : c ≠ '\r') (text : List Char) :
    ((crlf text).head? == some c) = (text.head? == some c) := by
  cases text with
  | nil => rfl
  | cons d rest =>
    by_cases feed : d = '\n'
    · subst feed
      simp [Ne.symm notFeed, Ne.symm notReturn]
    · rw [crlf_cons feed]
      rfl

theorem takeWhile_crlf {p : Char → Bool} (feed : p '\n' = false) (return_ : p '\r' = false)
    (text : List Char) : (crlf text).takeWhile p = text.takeWhile p := by
  induction text with
  | nil => rfl
  | cons c rest ih =>
    by_cases isFeed : c = '\n'
    · subst isFeed
      rw [crlf_feed, List.takeWhile_cons_of_neg (by simp [return_]),
        List.takeWhile_cons_of_neg (by simp [feed])]
    · rw [crlf_cons isFeed, List.takeWhile_cons, List.takeWhile_cons, ih]

/-! ### Places -/

@[simp]
theorem crlfPlace_zero (text : List Char) : crlfPlace text 0 = 0 := rfl

theorem crlfPlace_add (text : List Char) (i n : Nat) :
    crlfPlace text (i + n) = crlfPlace text i + crlfPlace (text.drop i) n := by
  rw [crlfPlace, List.take_add, crlf_append, List.length_append]
  rfl

theorem crlfPlace_cons (other : c ≠ '\n') (rest : List Char) (i : Nat) :
    crlfPlace (c :: rest) (i + 1) = crlfPlace rest i + 1 := by
  rw [crlfPlace, List.take_succ_cons, crlf_cons other]
  rfl

theorem crlfPlace_cons_feed (rest : List Char) (i : Nat) :
    crlfPlace ('\n' :: rest) (i + 1) = crlfPlace rest i + 2 := rfl

theorem drop_of_getElem? {i : Nat} (atOffset : text[i]? = some c) :
    text.drop i = c :: text.drop (i + 1) := by
  obtain ⟨inside, rfl⟩ := List.getElem?_eq_some_iff.mp atOffset
  exact List.drop_eq_getElem_cons inside

theorem crlfPlace_succ {i : Nat} (atOffset : text[i]? = some c) (other : c ≠ '\n') :
    crlfPlace text (i + 1) = crlfPlace text i + 1 := by
  rw [crlfPlace_add, drop_of_getElem? atOffset, crlfPlace_cons other]
  rfl

theorem crlfPlace_feed {i : Nat} (atOffset : text[i]? = some '\n') :
    crlfPlace text (i + 1) = crlfPlace text i + 2 := by
  rw [crlfPlace_add, drop_of_getElem? atOffset, crlfPlace_cons_feed]
  rfl

/-- An offset in the first part of a text is moved as in that part alone. -/
theorem crlfPlace_take {k i : Nat} (inside : i ≤ k) :
    crlfPlace (text.take k) i = crlfPlace text i := by
  rw [crlfPlace, crlfPlace, List.take_take, Nat.min_eq_left inside]

/-- Behind a character that ends no line, places are counted as in the text behind it. -/
theorem crlfPlace_sub {start i : Nat} (atStart : text[start]? = some c) (other : c ≠ '\n')
    (behind : start < i) : crlfPlace text i - (crlfPlace text start + 1) =
      crlfPlace (text.drop (start + 1)) (i - (start + 1)) := by
  have parts := crlfPlace_add text (start + 1) (i - (start + 1))
  have whole : start + 1 + (i - (start + 1)) = i := by omega
  rw [whole, crlfPlace_succ atStart other] at parts
  rw [parts, Nat.add_sub_cancel_left]

/-- The part of a text between two offsets is the part between the two places. -/
theorem slice_crlf {start stop : Nat} (ordered : start ≤ stop) (text : List Char) :
    (Span.mk (crlfPlace text start) (crlfPlace text stop)).slice (crlf text) =
      crlf ((Span.mk start stop).slice text) := by
  have parts : crlf text = crlf (text.take start) ++
      (crlf ((text.drop start).take (stop - start)) ++
        crlf ((text.drop start).drop (stop - start))) := by
    rw [← crlf_append, ← crlf_append, List.take_append_drop, List.take_append_drop]
  have width : crlfPlace text stop - crlfPlace text start =
      (crlf ((text.drop start).take (stop - start))).length := by
    have whole := crlfPlace_add text start (stop - start)
    rw [Nat.add_sub_cancel' ordered] at whole
    rw [whole, Nat.add_sub_cancel_left]
    rfl
  have behind : (crlf text).drop (crlfPlace text start) =
      crlf ((text.drop start).take (stop - start)) ++
        crlf ((text.drop start).drop (stop - start)) := by
    rw [parts]
    exact List.drop_left' rfl
  rw [Span.slice, width, behind]
  exact List.take_left' rfl

theorem position_cons (c : Char) (text : List Char) (i : Nat) :
    (LineIndex.ofText (c :: text)).position (i + 1) =
      let place := (LineIndex.ofText text).position i
      if c = '\n' then (1 + place.1, place.2) else LineIndex.indent 1 place := by
  dsimp only
  split
  · rename_i feed
    subst feed
    have feeds : ['\n'].getLast? = some '\n' := rfl
    have behind := LineIndex.position_behind feeds text i
    rw [Nat.add_comm]
    exact behind
  · rename_i other
    have noFeed : '\n' ∉ [c] := by simpa using Ne.symm other
    have behind := LineIndex.position_indented noFeed text i
    rw [Nat.add_comm]
    exact behind

/-- Lines and columns stay as they are. -/
theorem position_crlf {offset : Nat} (bound : offset ≤ text.length) :
    (LineIndex.ofText (crlf text)).position (crlfPlace text offset) =
      (LineIndex.ofText text).position offset := by
  induction text generalizing offset with
  | nil => rw [Nat.le_zero.mp bound]; rfl
  | cons c rest ih =>
    cases offset with
    | zero =>
      rw [crlfPlace_zero, LineIndex.position_zero, LineIndex.position_zero]
    | succ i =>
      have same := ih (Nat.le_of_succ_le_succ bound)
      rw [position_cons]
      by_cases feed : c = '\n'
      · subst feed
        have place : crlfPlace ('\n' :: rest) (i + 1) = ['\r', '\n'].length + crlfPlace rest i :=
          (crlfPlace_cons_feed rest i).trans (Nat.add_comm _ 2)
        have feeds : ['\r', '\n'].getLast? = some '\n' := rfl
        have behind := LineIndex.position_behind feeds (crlf rest) (crlfPlace rest i)
        rw [if_pos rfl, place, crlf_feed, ← same]
        exact behind
      · rw [if_neg feed, crlfPlace_cons feed, crlf_cons feed, position_cons, if_neg feed, same]

/-! ### White space -/

theorem isBlank_crlf (text : List Char) : isBlank (crlf text) = isBlank text := by
  induction text with
  | nil => rfl
  | cons c rest ih =>
    by_cases feed : c = '\n'
    · subst feed
      exact ih
    · rw [crlf_cons feed]
      exact congrArg (isSpace c && ·) ih

theorem trimStart_crlf (text : List Char) : trimStart (crlf text) = crlf (trimStart text) := by
  induction text with
  | nil => rfl
  | cons c rest ih =>
    by_cases feed : c = '\n'
    · subst feed
      exact ih
    · rw [crlf_cons feed]
      cases space : isSpace c with
      | true =>
        rw [trimStart, trimStart, List.dropWhile_cons_of_pos space,
          List.dropWhile_cons_of_pos space]
        exact ih
      | false =>
        have stays : ¬ isSpace c = true := by simp [space]
        rw [trimStart, trimStart, List.dropWhile_cons_of_neg stays,
          List.dropWhile_cons_of_neg stays, crlf_cons feed]

theorem trimEnd_append (text : List Char) (c : Char) :
    trimEnd (text ++ [c]) = if isSpace c then trimEnd text else text ++ [c] := by
  rw [trimEnd, List.reverse_append, List.reverse_singleton, List.singleton_append]
  split
  · rename_i space
    rw [List.dropWhile_cons_of_pos space]
    rfl
  · rename_i stays
    rw [List.dropWhile_cons_of_neg stays]
    simp

theorem trimEnd_crlf (text : List Char) : trimEnd (crlf text) = crlf (trimEnd text) := by
  induction text using List.reverseRecOn with
  | nil => rfl
  | append_singleton front c ih =>
    rw [crlf_append, trimEnd_append]
    by_cases feed : c = '\n'
    · subst feed
      have both : crlf front ++ crlf ['\n'] = (crlf front ++ ['\r']) ++ ['\n'] := by simp
      rw [both, trimEnd_append, trimEnd_append]
      exact ih
    · rw [crlf_cons feed, crlf_nil, trimEnd_append]
      split
      · exact ih
      · rw [crlf_append, crlf_cons feed, crlf_nil]

theorem trim_crlf (text : List Char) : trim (crlf text) = crlf (trim text) := by
  rw [trim, trim, trimStart_crlf, trimEnd_crlf]

end InlineQuery.Text
