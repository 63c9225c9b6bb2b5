import InlineQuery.Proofs.Path.Matching
import Mathlib.Data.List.Flatten

/-!
Marks for any number of directories. A pattern is cut at its marks, and some of them are kept. What
the pattern matches then it matches without any mark too, if a star next to each kept mark takes what
the mark stands for.
-/

namespace InlineQuery

namespace Glob

/-- The mark for any number of directories. -/
def mark : List Char := ['*', '*', '/']

section Absorbing

variable {a b cs u v : List Char}

/-- A mark matches everything up to some slash. -/
theorem isMatch_mark : isMatch (mark ++ b) cs = true ↔
    ∃ t v, cs = t ++ '/' :: v ∧ isMatch b v = true := by
  have read : mark ++ b = '*' :: '*' :: '/' :: b := rfl
  simp only [read, isMatch_star, isMatch_literal (c := '/') (by decide) (by decide) (by decide)]
  constructor
  · rintro ⟨_, ⟨t, rfl⟩, _, ⟨s, rfl⟩, v, rfl, matched⟩
    exact ⟨t ++ s, v, (List.append_assoc ..).symm, matched⟩
  · rintro ⟨t, v, rfl, matched⟩
    exact ⟨'/' :: v, List.suffix_append .., '/' :: v, List.suffix_rfl, v, rfl, matched⟩

/-- A text ends in a star that question marks may follow. -/
def EndsOpen (pattern : List Char) : Prop :=
  ∃ front n, isClosed 0 front = true ∧ pattern = front ++ '*' :: List.replicate n '?'

/-- A text starts with a star that question marks may precede. -/
def StartsOpen (pattern : List Char) : Prop :=
  ∃ n back, pattern = List.replicate n '?' ++ '*' :: back

/-- What a mark between two texts stands for is matched without the mark, by a star in front of it,
by one that only a slash parts from it, or by one behind it. -/
def Absorbs (before behind : List Char) : Prop :=
  EndsOpen before ∨ (∃ front, EndsOpen front ∧ before = front ++ ['/']) ∨
    isClosed 0 before = true ∧ StartsOpen behind

theorem EndsOpen.isClosed (ends : EndsOpen a) : isClosed 0 a = true := by
  obtain ⟨front, n, closed, rfl⟩ := ends
  rw [isClosed_append closed]
  exact isClosed_questions n

/-- Further text at its end does not keep a text from matching. -/
theorem EndsOpen.isMatch_append (ends : EndsOpen a) (matched : isMatch a u = true) (t : List Char) :
    isMatch a (u ++ t) = true := by
  obtain ⟨front, n, closed, rfl⟩ := ends
  obtain ⟨x, y, rfl, left, right⟩ := (Glob.isMatch_append closed).mp matched
  refine (Glob.isMatch_append closed).mpr ⟨x, y ++ t, List.append_assoc .., left, ?_⟩
  rw [isMatch_openEnd] at right ⊢
  rw [List.length_append]
  omega

/-- Further text at its start does not keep a text from matching. -/
theorem StartsOpen.isMatch_append (starts : StartsOpen b) (matched : isMatch b v = true)
    (t : List Char) : isMatch b (t ++ v) = true := by
  obtain ⟨n, back, rfl⟩ := starts
  obtain ⟨x, y, rfl, left, right⟩ := (Glob.isMatch_append (isClosed_questions n)).mp matched
  rw [isMatch_questions] at left
  obtain ⟨rest, ending, right⟩ := isMatch_star.mp right
  have shifted : t ++ (x ++ y) = (t ++ x).take n ++ ((t ++ x).drop n ++ y) := by
    rw [← List.append_assoc, ← List.append_assoc, List.take_append_drop]
  rw [shifted]
  refine (Glob.isMatch_append (isClosed_questions n)).mpr ⟨_, _, rfl, ?_, ?_⟩
  · rw [isMatch_questions, List.length_take, List.length_append]
    omega
  · exact isMatch_star.mpr ⟨rest, ending.trans (List.suffix_append ..), right⟩

/-- A mark that is absorbed may be left out. -/
theorem Absorbs.isMatch_drop (absorbs : Absorbs a b) (matched : isMatch (a ++ (mark ++ b)) cs = true) :
    isMatch (a ++ b) cs = true := by
  rcases absorbs with ends | ⟨front, ends, rfl⟩ | ⟨closed, starts⟩
  · obtain ⟨u, w, rfl, left, behind⟩ := (isMatch_append ends.isClosed).mp matched
    obtain ⟨t, v, rfl, right⟩ := isMatch_mark.mp behind
    refine (isMatch_append ends.isClosed).mpr ⟨u ++ (t ++ ['/']), v, by simp, ?_, right⟩
    exact ends.isMatch_append left _
  · rw [List.append_assoc] at matched ⊢
    obtain ⟨u, w, rfl, left, slash⟩ := (isMatch_append ends.isClosed).mp matched
    rw [List.singleton_append, isMatch_literal (by decide) (by decide) (by decide)] at slash
    obtain ⟨_, rfl, behind⟩ := slash
    obtain ⟨t, v, rfl, right⟩ := isMatch_mark.mp behind
    refine (isMatch_append ends.isClosed).mpr ⟨u ++ '/' :: t, '/' :: v, by simp, ?_, ?_⟩
    · exact ends.isMatch_append left _
    · rw [List.singleton_append, isMatch_literal (by decide) (by decide) (by decide)]
      exact ⟨v, rfl, right⟩
  · obtain ⟨u, w, rfl, left, behind⟩ := (isMatch_append closed).mp matched
    obtain ⟨t, v, rfl, right⟩ := isMatch_mark.mp behind
    have grown := starts.isMatch_append right (t ++ ['/'])
    rw [List.append_assoc, List.singleton_append] at grown
    exact (isMatch_append closed).mpr ⟨u, _, rfl, left, grown⟩

end Absorbing

section Cutting

/-- A text that goes on behind each of its marks with another text. What stands for a mark is given by
whether the mark is kept. -/
def joined (ofMark : Bool → List Char) (first : List Char) (rest : List (Bool × List Char)) :
    List Char :=
  first ++ rest.flatMap fun (kept, piece) => ofMark kept ++ piece

/-- All marks are there. -/
def written (first : List Char) (rest : List (Bool × List Char)) : List Char :=
  joined (fun _ => mark) first rest

/-- Only the kept marks are there. -/
def thinned (first : List Char) (rest : List (Bool × List Char)) : List Char :=
  joined (fun kept => if kept then mark else []) first rest

/-- No mark is there. -/
def bare (first : List Char) (rest : List (Bool × List Char)) : List Char :=
  joined (fun _ => []) first rest

variable {ofMark : Bool → List Char} {a first piece cs : List Char}
  {rest before after : List (Bool × List Char)} {kept : Bool}

theorem joined_nil : joined ofMark first [] = first := List.append_nil first

theorem joined_cons : joined ofMark first ((kept, piece) :: rest) =
    first ++ (ofMark kept ++ joined ofMark piece rest) := by
  simp [joined]

theorem joined_append : joined ofMark (a ++ first) rest = a ++ joined ofMark first rest :=
  List.append_assoc ..

theorem joined_split : joined ofMark first (before ++ (kept, piece) :: after) =
    joined ofMark first before ++ (ofMark kept ++ joined ofMark piece after) := by
  simp [joined]

theorem bare_cons : bare first ((kept, piece) :: rest) = bare (first ++ piece) rest := by
  simp [bare, joined]

theorem thinned_dropped : thinned first ((false, piece) :: rest) = thinned (first ++ piece) rest := by
  simp [thinned, joined]

theorem thinned_kept :
    thinned first ((true, piece) :: rest) = first ++ (mark ++ thinned piece rest) := joined_cons

theorem thinned_append : thinned (a ++ first) rest = a ++ thinned first rest := joined_append

theorem bare_append : bare (a ++ first) rest = a ++ bare first rest := joined_append

/-- A text that starts open without its marks does so with some of them, which start with a star. -/
theorem StartsOpen.thinned (starts : StartsOpen (bare first rest)) :
    StartsOpen (thinned first rest) := by
  induction rest generalizing first with
  | nil => exact starts
  | cons head rest ih =>
    obtain ⟨kept, piece⟩ := head
    rw [bare_cons] at starts
    cases kept with
    | false =>
      rw [thinned_dropped]
      exact ih starts
    | true =>
      rw [bare_append] at starts
      obtain ⟨n, back, same⟩ := starts
      rw [thinned_kept]
      rcases List.append_eq_append_iff.mp same with ⟨t, questions, -⟩ | ⟨t, rfl, star⟩
      · obtain ⟨-, isQuestions, -⟩ := List.replicate_eq_append_iff.mp questions
        exact ⟨first.length, _, congrArg (· ++ _) isQuestions⟩
      · cases t with
        | nil => exact ⟨n, '*' :: '/' :: Glob.thinned piece rest, by rw [List.append_nil]; rfl⟩
        | cons c t =>
          cases star
          exact ⟨n, t ++ (mark ++ Glob.thinned piece rest), by simp⟩

theorem Absorbs.thinned (absorbs : Absorbs a (bare first rest)) : Absorbs a (thinned first rest) :=
  absorbs.imp_right fun others => others.imp_right fun ⟨closed, starts⟩ => ⟨closed, starts.thinned⟩

/-- Every mark that is kept is absorbed by what is around it when no mark is there. -/
def KeepsAbsorbed (first : List Char) (rest : List (Bool × List Char)) : Prop :=
  ∀ before piece after, rest = before ++ (true, piece) :: after →
    Absorbs (bare first before) (bare piece after)

theorem KeepsAbsorbed.tail (absorbed : KeepsAbsorbed first ((kept, piece) :: rest)) :
    KeepsAbsorbed (first ++ piece) rest := by
  intro before later after same
  have whole := absorbed ((kept, piece) :: before) later after (by rw [same, List.cons_append])
  rwa [bare_cons] at whole

/-- Without its marks a pattern matches what it matches with those that are absorbed. -/
theorem KeepsAbsorbed.isMatch_bare (absorbed : KeepsAbsorbed first rest)
    (matched : isMatch (Glob.thinned first rest) cs = true) : isMatch (bare first rest) cs = true := by
  induction rest generalizing first with
  | nil => exact matched
  | cons head rest ih =>
    obtain ⟨kept, piece⟩ := head
    rw [bare_cons]
    refine ih absorbed.tail ?_
    cases kept with
    | false => rwa [thinned_dropped] at matched
    | true =>
      rw [thinned_kept] at matched
      rw [thinned_append]
      have here := absorbed [] piece rest rfl
      rw [bare, joined_nil] at here
      exact here.thinned.isMatch_drop matched

theorem dropDirectories_cons {c : Char} (apart : ¬ mark <+: c :: cs) :
    dropDirectories (c :: cs) = c :: dropDirectories cs := by
  rw [dropDirectories]
  rintro more rfl rfl
  exact apart (List.prefix_append mark more)

/-- No mark starts in a text without marks, even if one follows it. -/
theorem dropDirectories_append {tail : List Char} (free : ¬ mark <:+: piece)
    (follows : tail = [] ∨ mark <+: tail) :
    dropDirectories (piece ++ tail) = piece ++ dropDirectories tail := by
  induction piece with
  | nil => rfl
  | cons c piece ih =>
    have apart : ¬ mark <+: c :: (piece ++ tail) := by
      intro starts
      match piece, follows with
      | [], .inl none_ => simp [none_, mark] at starts
      | [d], .inl none_ => simp [none_, mark] at starts
      | [], .inr ⟨more, same⟩ => simp [← same, mark] at starts
      | [d], .inr ⟨more, same⟩ => simp [← same, mark] at starts
      | d :: e :: piece, _ => 
        obtain ⟨rfl, rfl, rfl, -⟩ : '*' = c ∧ '*' = d ∧ '/' = e ∧ True := by
          simpa [mark] using starts
        exact free (List.prefix_append mark piece).isInfix
    rw [List.cons_append, dropDirectories_cons apart,
      ih fun inside => free (inside.trans (List.suffix_cons c piece).isInfix), List.cons_append]

/-- Removing the marks leaves the texts between them. -/
theorem dropDirectories_written (free : ∀ piece ∈ first :: rest.map (·.2), ¬ mark <:+: piece) :
    dropDirectories (written first rest) = bare first rest := by
  induction rest generalizing first with
  | nil =>
    rw [written, bare, joined_nil, joined_nil]
    have alone := dropDirectories_append (free first (List.mem_cons_self ..)) (.inl rfl)
    rwa [List.append_nil, dropDirectories, List.append_nil] at alone
  | cons head rest ih =>
    obtain ⟨kept, piece⟩ := head
    have later := ih fun text member => free text (List.mem_cons_of_mem first member)
    rw [written, joined_cons, dropDirectories_append (free first (List.mem_cons_self ..))
      (.inr (List.prefix_append ..)), bare_cons, bare_append, ← later]
    rfl

/-- Every pattern is cut at its marks in one of these ways, whichever of them are kept. -/
theorem exists_written (pattern : List Char) : ∃ first pieces,
    (∀ piece ∈ first :: pieces, ¬ mark <:+: piece) ∧
      ∀ rest : List (Bool × List Char), rest.map (·.2) = pieces → written first rest = pattern := by
  induction pattern using dropDirectories.induct with
  | case1 r ih =>
    obtain ⟨first, pieces, free, whole⟩ := ih
    refine ⟨[], first :: pieces, ?_, ?_⟩
    · rintro piece (_ | ⟨_, member⟩)
      · decide
      · exact free piece member
    · intro rest same
      obtain ⟨⟨kept, _⟩, rest, rfl, rfl, later⟩ := List.map_eq_cons_iff.mp same
      rw [written, joined_cons, ← written, whole rest later]
      rfl
  | case2 c r other ih =>
    obtain ⟨first, pieces, free, whole⟩ := ih
    refine ⟨c :: first, pieces, ?_, ?_⟩
    · rintro piece (_ | ⟨_, member⟩)
      · intro inside
        rcases List.infix_cons_iff.mp inside with starts | later
        · obtain ⟨more, same⟩ := starts
          cases same
          exact other _ rfl (whole (pieces.map (false, ·)) (by simp [Function.comp_def])).symm
        · exact free first (List.mem_cons_self ..) later
      · exact free piece (List.mem_cons_of_mem _ member)
    · intro rest same
      rw [← whole rest same]
      rfl
  | case3 => exact ⟨[], [], by simp [mark], by simp [written, joined]⟩

end Cutting

end Glob
end InlineQuery
