import InlineQuery.Config.Project
import InlineQuery.Proofs.Path.Marks
import Mathlib.Data.List.Chain

/-!
What a project covers where a pattern keeps some of its marks. A pattern is tried with all of its
marks and with none of them, so the others have to be absorbed; in a plain pattern a kept mark that
is not absorbed leaves out a path.
-/

namespace InlineQuery

namespace Glob

section Tightness

/-- The characters of a pattern that are no stars. -/
def literals (pattern : List Char) : List Char := pattern.filter (· ≠ '*')

/-- They are not both slashes. -/
def AreApart (a b : Char) : Prop := a = '/' → b ≠ '/'

instance : DecidableRel AreApart := fun a b => inferInstanceAs (Decidable (a = '/' → b ≠ '/'))

/-- Neither question marks nor sets stand in a pattern, and no two slashes follow each other. -/
structure IsPlain (pattern : List Char) : Prop where
  areLiteral : ∀ c ∈ pattern, c ≠ '?' ∧ c ≠ '['
  areApart : pattern.IsChain AreApart

variable {pattern a b first piece cs u v t : List Char} {rest before after : List (Bool × List Char)}

theorem isClosed_of_literal (literal : ∀ c ∈ pattern, c ≠ '?' ∧ c ≠ '[') :
    isClosed 0 pattern = true := by
  induction pattern with
  | nil => rfl
  | cons c r ih =>
    have noBracket := (literal c (List.mem_cons_self ..)).2
    rw [isClosed]
    simp only [beq_iff_eq, noBracket, if_false]
    exact ih fun d member => literal d (List.mem_cons_of_mem c member)

/-- Where all of its stars stand for nothing, a pattern matches its other characters. -/
theorem isMatch_literals (literal : ∀ c ∈ pattern, c ≠ '?' ∧ c ≠ '[') :
    isMatch pattern (literals pattern) = true := by
  induction pattern with
  | nil => rfl
  | cons c r ih =>
    have later := ih fun d member => literal d (List.mem_cons_of_mem c member)
    obtain ⟨question, bracket⟩ := literal c (List.mem_cons_self ..)
    by_cases star : c = '*'
    · subst star
      exact isMatch_star.mpr ⟨_, List.suffix_rfl, later⟩
    · have kept : literals (c :: r) = c :: literals r := List.filter_cons_of_pos (by simpa using star)
      rw [kept]
      exact (isMatch_literal star question bracket).mpr ⟨_, rfl, later⟩

theorem literals_sublist (literal : ∀ c ∈ pattern, c ≠ '?' ∧ c ≠ '[')
    (matched : isMatch pattern cs = true) : (literals pattern).Sublist cs := by
  induction pattern generalizing cs with
  | nil => exact List.nil_sublist cs
  | cons c r ih =>
    have later := fun d member => literal d (List.mem_cons_of_mem c member)
    obtain ⟨question, bracket⟩ := literal c (List.mem_cons_self ..)
    by_cases star : c = '*'
    · subst star
      obtain ⟨behind, ending, matched⟩ := isMatch_star.mp matched
      exact (ih later matched).trans ending.sublist
    · obtain ⟨behind, rfl, right⟩ := (isMatch_literal star question bracket).mp matched
      have kept : literals (c :: r) = c :: literals r := List.filter_cons_of_pos (by simpa using star)
      rw [kept]
      exact (ih later right).cons_cons c

theorem joined_sublist {f g : Bool → List Char} (less : ∀ kept, (f kept).Sublist (g kept)) :
    (joined f first rest).Sublist (joined g first rest) :=
  (List.Sublist.flatMap_right rest fun (kept, piece) _ =>
    (less kept).append_right piece).append_left first

theorem bare_sublist : (bare first rest).Sublist (written first rest) :=
  joined_sublist fun _ => List.nil_sublist _

theorem thinned_sublist : (thinned first rest).Sublist (written first rest) :=
  joined_sublist fun kept => by cases kept with
    | false => exact List.nil_sublist _
    | true => exact List.Sublist.refl _

theorem literals_append : literals (a ++ b) = literals a ++ literals b := List.filter_append ..

theorem written_split {kept : Bool} : written first (before ++ (kept, piece) :: after) =
    written first before ++ (mark ++ written piece after) := joined_split

/-- A mark that is not kept makes the whole pattern longer. -/
theorem literals_thinned_lt (dropped : ∃ piece, (false, piece) ∈ rest) :
    (literals (thinned first rest)).length < (literals (written first rest)).length := by
  obtain ⟨piece, member⟩ := dropped
  obtain ⟨before, after, rfl⟩ := List.append_of_mem member
  have front : (literals (thinned first before)).length ≤ (literals (written first before)).length :=
    (thinned_sublist.filter _).length_le
  have back : (literals (thinned piece after)).length ≤ (literals (written piece after)).length :=
    (thinned_sublist.filter _).length_le
  have slash : (literals mark).length = 1 := rfl
  have split : thinned first (before ++ (false, piece) :: after) =
      thinned first before ++ thinned piece after := joined_split
  rw [split, written_split]
  simp only [literals_append, List.length_append, slash]
  omega

/-- Marks put slashes and stars into a text, and nothing else. -/
theorem filter_thinned {p : Char → Bool} (star : p '*' = false) (slash : p '/' = false) :
    (thinned first rest).filter p = (bare first rest).filter p := by
  have marks : ∀ kept : Bool, (if kept then mark else []).filter p = [] := by
    intro kept
    cases kept with
    | false => rfl
    | true => simp [mark, star, slash]
  simp only [thinned, bare, joined, List.filter_append, List.filter_flatMap, marks, List.filter_nil]

theorem getLast?_thinned (ends : (bare first rest).getLast? = some '/') :
    (thinned first rest).getLast? = some '/' := by
  induction rest using List.reverseRecOn with
  | nil => exact ends
  | append_singleton rest last ih =>
    obtain ⟨kept, piece⟩ := last
    have split : bare first (rest ++ [(kept, piece)]) = bare first rest ++ piece := by
      rw [bare, joined_split, joined_nil]
      rfl
    have thinnedSplit : thinned first (rest ++ [(kept, piece)]) =
        thinned first rest ++ ((if kept then mark else []) ++ piece) := by
      rw [thinned, joined_split, joined_nil]
      rfl
    rw [split] at ends
    rw [thinnedSplit]
    rcases List.eq_nil_or_concat piece with rfl | ⟨front, c, rfl⟩
    · rw [List.append_nil] at ends
      cases kept with
      | false => simpa using ih ends
      | true => simp [mark]
    · simpa using ends

/-- Behind a mark no slash follows, even if the marks after it are left out. -/
theorem head?_bare (apart : (mark ++ written piece rest).IsChain AreApart) :
    (bare piece rest).head? ≠ some '/' := by
  induction rest generalizing piece with
  | nil =>
    intro slash
    exact (List.isChain_append.mp apart).2.2 '/' rfl '/'
      (by simpa [written, bare, joined_nil] using slash) rfl rfl
  | cons head rest ih =>
    obtain ⟨kept, next⟩ := head
    rw [bare_cons, bare_append]
    rw [written, joined_cons, ← written] at apart
    cases piece with
    | nil => exact ih (List.isChain_append.mp apart).2.1
    | cons c piece =>
      intro slash
      exact (List.isChain_append.mp apart).2.2 '/' rfl '/' (by simpa using slash) rfl rfl

theorem isChain_bare (apart : (written first rest).IsChain AreApart) :
    (bare first rest).IsChain AreApart := by
  induction rest generalizing first with
  | nil => exact apart
  | cons head rest ih =>
    obtain ⟨kept, piece⟩ := head
    rw [written, joined_cons, ← written] at apart
    obtain ⟨front, behind, -⟩ := List.isChain_append.mp apart
    rw [bare_cons, bare_append]
    refine List.isChain_append.mpr ⟨front, ih (List.isChain_append.mp behind).2.1, ?_⟩
    rintro x - y first_ - rfl
    exact head?_bare behind first_

/-- How many characters of a text are no slashes. -/
def solids (cs : List Char) : Nat := cs.countP (· ≠ '/')

theorem solids_append : solids (u ++ v) = solids u + solids v := List.countP_append

theorem eq_slash_of_solids {c : Char} (none_ : solids u = 0) (member : c ∈ u) : c = '/' := by
  have all := List.countP_eq_zero.mp none_ c member
  simpa using all

theorem solids_le_of_isMatch (literal : ∀ c ∈ pattern, c ≠ '?' ∧ c ≠ '[')
    (matched : isMatch pattern cs = true) : solids (literals pattern) ≤ solids cs :=
  (literals_sublist literal matched).countP_le

theorem solids_thinned :
    solids (literals (thinned first rest)) = solids (literals (bare first rest)) := by
  have same : (thinned first rest).filter (fun c => decide (c ≠ '/') && decide (c ≠ '*')) =
      (bare first rest).filter fun c => decide (c ≠ '/') && decide (c ≠ '*') :=
    filter_thinned rfl rfl
  rw [solids, solids, literals, literals, List.countP_filter, List.countP_filter,
    List.countP_eq_length_filter, List.countP_eq_length_filter, same]

/-- A text that a pattern matches ends like the pattern if that ends in no star. -/
theorem isMatch_concat {c : Char} (literal : ∀ d ∈ a ++ [c], d ≠ '?' ∧ d ≠ '[') (star : c ≠ '*')
    (matched : isMatch (a ++ [c]) cs = true) : ∃ u, cs = u ++ [c] ∧ isMatch a u = true := by
  have front : isClosed 0 a = true :=
    isClosed_of_literal fun d member => literal d (List.mem_append_left _ member)
  obtain ⟨question, bracket⟩ := literal c (List.mem_append_right _ (List.mem_singleton.mpr rfl))
  obtain ⟨u, v, rfl, left, right⟩ := (isMatch_append front).mp matched
  obtain ⟨_, rfl, ending⟩ := (isMatch_literal star question bracket).mp right
  rw [isMatch_nil.mp ending]
  exact ⟨u, rfl, left⟩

/-- A pattern that does not start with a slash or a star matches no text that starts with a slash. -/
theorem head?_of_isMatch (literal : ∀ c ∈ b, c ≠ '?' ∧ c ≠ '[') (closedStart : ¬ StartsOpen b)
    (slash : b.head? ≠ some '/') (matched : isMatch b v = true) : v.head? ≠ some '/' := by
  cases b with
  | nil => simp [isMatch_nil.mp matched]
  | cons c b =>
    obtain ⟨question, bracket⟩ := literal c (List.mem_cons_self ..)
    have star : c ≠ '*' := by
      rintro rfl
      exact closedStart ⟨0, b, rfl⟩
    obtain ⟨rest, rfl, -⟩ := (isMatch_literal star question bracket).mp matched
    exact slash

theorem endsOpen_star (literal : ∀ c ∈ a ++ ['*'], c ≠ '?' ∧ c ≠ '[') : EndsOpen (a ++ ['*']) :=
  ⟨a, 0, isClosed_of_literal fun c member => literal c (List.mem_append_left _ member), rfl⟩

/-- A pattern that ends neither in a star nor in a star with a slash behind it matches a text that ends
in a slash only if it does so itself, and none that ends in two. -/
theorem getLast?_of_isMatch (plain : IsPlain a) (closedEnd : ¬ EndsOpen a)
    (closedFront : ∀ front, EndsOpen front → a ≠ front ++ ['/'])
    (matched : isMatch a (u ++ ['/']) = true) : a.getLast? = some '/' ∧ u.getLast? ≠ some '/' := by
  rcases List.eq_nil_or_concat' a with rfl | ⟨front, c, rfl⟩
  · exact absurd (isMatch_nil.mp matched) (by simp)
  have star : c ≠ '*' := by
    rintro rfl
    exact closedEnd (endsOpen_star plain.areLiteral)
  obtain ⟨_, same, left⟩ := isMatch_concat plain.areLiteral star matched
  obtain ⟨rfl, last⟩ := List.append_inj' same rfl
  obtain rfl : c = '/' := (List.cons.inj last).1.symm
  refine ⟨by simp, ?_⟩
  rcases List.eq_nil_or_concat' front with rfl | ⟨front, d, rfl⟩
  · simp [isMatch_nil.mp left]
  have literal : ∀ c ∈ front ++ [d], c ≠ '?' ∧ c ≠ '[' :=
    fun c member => plain.areLiteral c (List.mem_append_left _ member)
  have star : d ≠ '*' := by
    rintro rfl
    exact closedFront _ (endsOpen_star literal) rfl
  have slash : d ≠ '/' := by
    rintro rfl
    exact (List.isChain_append.mp plain.areApart).2.2 '/' (by simp) '/' rfl rfl rfl
  obtain ⟨_, rfl, -⟩ := isMatch_concat literal star left
  simpa using slash

/-- Such a pattern does not match a text with a slash and further slashes behind it, if the text ends in
a slash whenever the pattern does. -/
theorem not_isMatch_slashes (plain : IsPlain a) (closedEnd : ¬ EndsOpen a)
    (closedFront : ∀ front, EndsOpen front → a ≠ front ++ ['/'])
    (ends : a.getLast? = some '/' → u.getLast? = some '/') (slashes : solids t = 0) :
    ¬ isMatch a (u ++ ['/'] ++ t) = true := by
  intro matched
  rcases List.eq_nil_or_concat' t with rfl | ⟨t, c, rfl⟩
  · rw [List.append_nil] at matched
    obtain ⟨isSlash, other⟩ := getLast?_of_isMatch plain closedEnd closedFront matched
    exact other (ends isSlash)
  · obtain rfl : c = '/' := eq_slash_of_solids slashes (by simp)
    rw [← List.append_assoc] at matched
    refine (getLast?_of_isMatch plain closedEnd closedFront matched).2 ?_
    rcases List.eq_nil_or_concat' t with rfl | ⟨t, c, rfl⟩
    · simp
    · obtain rfl : c = '/' := eq_slash_of_solids slashes (by simp)
      rw [← List.append_assoc]
      exact List.getLast?_concat ..

theorem getLast?_literals (ends : a.getLast? = some '/') : (literals a).getLast? = some '/' := by
  obtain ⟨front, rfl⟩ := List.getLast?_eq_some_iff.mp ends
  rw [literals_append]
  exact List.getLast?_concat ..

/-- Between the texts around a mark that nothing absorbs there is no room for its slash. -/
theorem not_isMatch_literals (plain : IsPlain (written first (before ++ (true, piece) :: after)))
    (unabsorbed : ¬ Absorbs (bare first before) (bare piece after)) :
    ¬ isMatch (bare first (before ++ (true, piece) :: after))
      (literals (thinned first (before ++ (true, piece) :: after))) = true := by
  obtain ⟨literal, apart⟩ := plain
  rw [written_split] at literal apart
  obtain ⟨frontApart, behindApart, -⟩ := List.isChain_append.mp apart
  have front : IsPlain (bare first before) :=
    ⟨fun c member => literal c (List.mem_append_left _ (bare_sublist.subset member)),
      isChain_bare frontApart⟩
  have back : ∀ c ∈ bare piece after, c ≠ '?' ∧ c ≠ '[' := fun c member =>
    literal c (List.mem_append_right _ (List.mem_append_right _ (bare_sublist.subset member)))
  have closed := isClosed_of_literal front.areLiteral
  have bareSplit : bare first (before ++ (true, piece) :: after) =
      bare first before ++ bare piece after := joined_split
  have thinnedSplit : thinned first (before ++ (true, piece) :: after) =
      thinned first before ++ (mark ++ thinned piece after) := joined_split
  have slash : literals mark = ['/'] := rfl
  rw [bareSplit, thinnedSplit, literals_append, literals_append, slash, ← List.append_assoc]
  intro matched
  obtain ⟨u, v, same, left, right⟩ := (isMatch_append closed).mp matched
  -- Both parts of the text have as many other characters as the patterns that match them.
  have leftSolids := solids_le_of_isMatch front.areLiteral left
  have rightSolids := solids_le_of_isMatch back right
  rw [← solids_thinned] at leftSolids rightSolids
  have total := congrArg solids same
  have noSolid : solids ['/'] = 0 := rfl
  rw [solids_append, solids_append, solids_append, noSolid] at total
  have closedStart : ¬ StartsOpen (bare piece after) := fun starts =>
    unabsorbed (.inr (.inr ⟨closed, starts⟩))
  have closedEnd : ¬ EndsOpen (bare first before) := fun ends => unabsorbed (.inl ends)
  have closedFront : ∀ front, EndsOpen front → bare first before ≠ front ++ ['/'] :=
    fun front ends same => unabsorbed (.inr (.inl ⟨front, ends, same⟩))
  have longer : ∀ t, solids t = 0 → u ≠ literals (thinned first before) ++ ['/'] ++ t := by
    rintro t none_ rfl
    exact not_isMatch_slashes front closedEnd closedFront
      (fun ends => getLast?_literals (getLast?_thinned ends)) none_ left
  rcases List.append_eq_append_iff.mp same with ⟨t, more, rest⟩ | ⟨t, less, rfl⟩
  · refine longer t ?_ more
    rw [more, solids_append, solids_append, noSolid] at total leftSolids
    omega
  · cases t with
    | nil => exact longer [] rfl (by rw [less, List.append_nil, List.append_nil])
    | cons c t =>
      have none_ : solids (c :: t) = 0 := by
        have parts := congrArg solids less
        rw [solids_append, solids_append, noSolid] at parts
        omega
      obtain rfl : c = '/' := eq_slash_of_solids none_ (List.mem_cons_self ..)
      exact head?_of_isMatch back closedStart (head?_bare behindApart) right rfl

/-- A plain pattern with a mark that is not kept and one that is, but not absorbed, matches a path
that it matches neither with all of its marks nor with none of them. -/
theorem exists_unmatched (plain : IsPlain (written first rest))
    (dropped : ∃ piece, (false, piece) ∈ rest) (unabsorbed : ¬ KeepsAbsorbed first rest) :
    ∃ cs, isMatch (thinned first rest) cs = true ∧ ¬ isMatch (written first rest) cs = true ∧
      ¬ isMatch (bare first rest) cs = true := by
  have literal : ∀ c ∈ thinned first rest, c ≠ '?' ∧ c ≠ '[' :=
    fun c member => plain.areLiteral c (thinned_sublist.subset member)
  refine ⟨literals (thinned first rest), isMatch_literals literal, fun matched => ?_, ?_⟩
  · have short := (literals_sublist plain.areLiteral matched).length_le
    have long : (literals (thinned first rest)).length < (literals (written first rest)).length :=
      literals_thinned_lt dropped
    omega
  · unfold KeepsAbsorbed at unabsorbed
    push Not at unabsorbed
    obtain ⟨before, piece, after, rfl, here⟩ := unabsorbed
    exact not_isMatch_literals plain here

end Tightness

section Covering

variable {first : List Char} {rest : List (Bool × List Char)} {glob path : String}

/-- A pattern covers a path that it matches with all marks or with none of them. -/
theorem covers_written (free : ∀ piece ∈ first :: rest.map (·.2), ¬ mark <:+: piece)
    (cut : dropCurrent glob.toList = written first rest) :
    covers glob path =
      (isMatch (written first rest) path.toList || isMatch (bare first rest) path.toList) := by
  rw [covers, cut, dropDirectories_written free]

theorem thinned_eq_written (kept : ∀ piece, (false, piece) ∉ rest) :
    thinned first rest = written first rest := by
  induction rest generalizing first with
  | nil => rfl
  | cons head rest ih =>
    obtain ⟨_ | _, piece⟩ := head
    · exact absurd (List.mem_cons_self ..) (kept piece)
    · rw [thinned_kept, written, joined_cons, ← written,
        ih fun later member => kept later (List.mem_cons_of_mem _ member)]

end Covering

end Glob

namespace Project

open Glob

/-- A project whose only pattern is cut at its marks covers what the pattern matches with some of
them, if all are kept or if what is around them absorbs those that are. For a plain pattern this is
the only way. -/
theorem covers_thinned {first : List Char} {rest : List (Bool × List Char)} {glob : String}
    (free : ∀ piece ∈ first :: rest.map (·.2), ¬ mark <:+: piece)
    (cut : dropCurrent glob.toList = written first rest) (p : Project) (includes : p.includes = [glob])
    (excludes : p.excludes = []) :
    ((∀ piece, (false, piece) ∉ rest) ∨ KeepsAbsorbed first rest →
      ∀ path : String, isMatch (thinned first rest) path.toList = true → p.covers path = true) ∧
    (IsPlain (written first rest) →
      (∀ path : String, isMatch (thinned first rest) path.toList = true → p.covers path = true) →
        (∀ piece, (false, piece) ∉ rest) ∨ KeepsAbsorbed first rest) := by
  have covers : ∀ path, p.covers path = (isMatch (written first rest) path.toList ||
      isMatch (bare first rest) path.toList) := by
    intro path
    simp [Project.covers, includes, excludes, covers_written free cut]
  simp only [covers, Bool.or_eq_true]
  constructor
  · rintro (kept | absorbed) path matched
    · exact .inl (by rwa [thinned_eq_written kept] at matched)
    · exact .inr (absorbed.isMatch_bare matched)
  · intro plain included
    by_contra neither
    push Not at neither
    obtain ⟨dropped, unabsorbed⟩ := neither
    obtain ⟨cs, matched, all, none_⟩ := exists_unmatched plain dropped unabsorbed
    have covered := included (String.ofList cs) (by rwa [String.toList_ofList])
    rw [String.toList_ofList] at covered
    exact covered.elim all none_

/-- A star behind the kept mark absorbs it. -/
theorem covers_thinned_star :
    let first := "src/".toList
    let rest := [(true, "*/".toList), (false, "a.ts".toList)]
    let p : Project := ⟨none, ["./src/**/*/**/a.ts"], [], []⟩
    isMatch (thinned first rest) "src/x/y/a.ts".toList = true ∧ p.covers "src/x/y/a.ts" = true ∧
      IsPlain (written first rest) ∧ KeepsAbsorbed first rest := by
  intro first rest p
  have free : ∀ piece ∈ first :: rest.map (·.2), ¬ mark <:+: piece := by decide
  have literal : (written first rest).all (fun c => c ≠ '?' ∧ c ≠ '[') = true := by decide
  have plain : IsPlain (written first rest) :=
    ⟨fun c member => of_decide_eq_true (List.all_eq_true.mp literal c member), by decide⟩
  have absorbed : KeepsAbsorbed first rest := by
    rintro (_ | ⟨_, _ | ⟨_, before⟩⟩) piece after same
    · obtain ⟨rfl, rfl⟩ := by simpa [rest] using same
      exact .inr (.inr ⟨by decide, 0, "/a.ts".toList, by decide⟩)
    · simp [rest] at same
    · simp [rest] at same
  obtain ⟨included, tight⟩ := covers_thinned free (by decide) p rfl rfl
  have matched : isMatch (thinned first rest) "src/x/y/a.ts".toList = true := by decide
  have onlyWay := tight plain (included (.inr absorbed))
  refine ⟨matched, included (.inr absorbed) _ matched, plain, onlyWay.resolve_left fun kept => ?_⟩
  exact kept "a.ts".toList (by decide)

/-- With the first mark left out and the second kept, the pattern matches a path that is not covered. -/
theorem not_covers_thinned :
    let p : Project := ⟨none, ["a/**/b/**/c"], [], []⟩
    isMatch (thinned "a/".toList [(false, "b/".toList), (true, "c".toList)]) "a/b/x/c".toList = true ∧
      p.covers "a/b/x/c" = false := by
  decide

end Project
end InlineQuery
