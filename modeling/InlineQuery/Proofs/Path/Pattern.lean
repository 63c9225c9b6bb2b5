import InlineQuery.Glob
import InlineQuery.Proofs.Path.Address

/-!
Patterns that tell a path from its resolved form. They cover the texts of paths that are relative,
that begin with two slashes or that hold a parent reference, and no others.
-/

namespace InlineQuery

namespace Text

variable {sep : Char}

theorem cut_ne_nil (sep : Char) (cs : List Char) : cut sep cs ≠ [] := by
  cases cs with
  | nil => simp [cut]
  | cons c cs =>
    rw [cut]
    split
    · simp
    · split <;> simp

/-- A separator parts a text into texts that are cut on their own. -/
theorem cut_join (front back : List Char) :
    cut sep (front ++ sep :: back) = cut sep front ++ cut sep back := by
  induction front with
  | nil => simp [cut]
  | cons c front ih =>
    rw [List.cons_append, cut, cut, ih]
    split
    · rfl
    · cases pieces : cut sep front with
      | nil => exact absurd pieces (cut_ne_nil sep front)
      | cons piece pieces => rfl

theorem intercalate_cons (piece : List Char) (pieces : List (List Char)) :
    [sep].intercalate (piece :: pieces) = piece ++ pieces.flatMap (sep :: ·) := by
  induction pieces generalizing piece with
  | nil => simp
  | cons next pieces ih => simp [List.intercalate_cons_cons, ih]

theorem cons_intercalate {pieces : List (List Char)} (some_ : pieces ≠ []) :
    sep :: [sep].intercalate pieces = pieces.flatMap (sep :: ·) := by
  obtain ⟨piece, pieces, rfl⟩ := List.exists_cons_of_ne_nil some_
  rw [intercalate_cons, List.flatMap_cons, List.cons_append]

end Text

namespace Glob

variable {items : List Item} {cs rest : List Char} {path : String}

theorem mem_suffixes : rest ∈ suffixes cs ↔ rest <:+ cs := by
  induction cs with
  | nil => rw [suffixes, List.mem_singleton, List.suffix_nil]
  | cons c cs ih => rw [suffixes, List.mem_cons, ih, List.suffix_cons_iff]

theorem matchItems_star :
    matchItems (.star :: items) cs = true ↔ ∃ rest, rest <:+ cs ∧ matchItems items rest = true := by
  rw [matchItems, List.any_eq_true]
  simp only [mem_suffixes]

theorem matchItems_ones (word : List Char) :
    matchItems (word.map .one ++ items) cs = true ↔
      ∃ rest, cs = word ++ rest ∧ matchItems items rest = true := by
  induction word generalizing cs with
  | nil => simp
  | cons c word ih =>
    cases cs with
    | nil => simp [matchItems]
    | cons d cs =>
      have first : matchItems ((c :: word).map .one ++ items) (d :: cs) =
          (d == c && matchItems (word.map .one ++ items) cs) := rfl
      rw [first, Bool.and_eq_true, ih, beq_iff_eq]
      simp only [List.cons_append, List.cons.injEq]
      constructor
      · rintro ⟨rfl, rest, same, matches_⟩
        exact ⟨rest, ⟨rfl, same⟩, matches_⟩
      · rintro ⟨rest, ⟨rfl, same⟩, matches_⟩
        exact ⟨rfl, rest, same, matches_⟩

theorem matchItems_all : matchItems [.star] cs = true :=
  matchItems_star.mpr ⟨[], List.nil_suffix, rfl⟩

/-- A pattern without marks for directories covers what its elements match. -/
theorem covers_eq {pattern : String} (read : mergeStars (itemsFrom 0 (dropCurrent pattern.toList)) = items)
    (bare : dropDirectories (dropCurrent pattern.toList) = dropCurrent pattern.toList) :
    covers pattern path = matchItems items path.toList := by
  unfold covers isMatch
  dsimp only
  rw [bare, read, Bool.or_self]

theorem covers_relative :
    covers "[!/]*" path = true ↔ ∃ c rest, path.toList = c :: rest ∧ c ≠ '/' := by
  have read : mergeStars (itemsFrom 0 (dropCurrent "[!/]*".toList)) =
      [.oneOf true [('/', '/')], .star] := by decide
  rw [covers_eq read (by decide)]
  cases path.toList with
  | nil => simp [matchItems]
  | cons c cs =>
    have first : matchItems [.oneOf true [('/', '/')], .star] (c :: cs) =
        ((Item.oneOf true [('/', '/')]).accepts c && matchItems [.star] cs) := rfl
    have isSlash : ('/' ≤ c ∧ c ≤ '/') ↔ c = '/' :=
      ⟨fun ⟨low, high⟩ => Char.le_antisymm high low, fun same => by simp [same]⟩
    have accepted : (Item.oneOf true [('/', '/')]).accepts c = !decide (c = '/') := by
      simp only [Item.accepts, List.any_cons, List.any_nil, Bool.or_false, ← Bool.decide_and,
        Bool.bne_true, isSlash]
    rw [first, matchItems_all, accepted]
    simp

theorem covers_doubled : covers "//*" path = true ↔ ['/', '/'] <+: path.toList := by
  have read : mergeStars (itemsFrom 0 (dropCurrent "//*".toList)) =
      ['/', '/'].map .one ++ [.star] := by decide
  rw [covers_eq read (by decide), matchItems_ones]
  simp only [matchItems_all, and_true]
  exact ⟨fun ⟨rest, same⟩ => ⟨rest, same.symm⟩, fun ⟨rest, same⟩ => ⟨rest, same.symm⟩⟩

theorem covers_climbing : covers "*/../*" path = true ↔ ['/', '.', '.', '/'] <:+: path.toList := by
  have read : mergeStars (itemsFrom 0 (dropCurrent "*/../*".toList)) =
      .star :: (['/', '.', '.', '/'].map .one ++ [.star]) := by decide
  rw [covers_eq read (by decide), matchItems_star]
  simp only [matchItems_ones, matchItems_all, and_true]
  constructor
  · rintro ⟨_, ⟨front, same⟩, back, rfl⟩
    exact ⟨front, back, by rw [← same, List.append_assoc]⟩
  · rintro ⟨front, back, same⟩
    exact ⟨_, ⟨front, by rw [← same, List.append_assoc]⟩, back, rfl⟩

theorem covers_ascending : covers "*/.." path = true ↔ ['/', '.', '.'] <:+ path.toList := by
  have read : mergeStars (itemsFrom 0 (dropCurrent "*/..".toList)) =
      .star :: (['/', '.', '.'].map .one ++ []) := by decide
  rw [covers_eq read (by decide), matchItems_star]
  simp only [matchItems_ones, matchItems, List.isEmpty_iff]
  constructor
  · rintro ⟨_, ending, _, rfl, rfl⟩
    rwa [List.append_nil] at ending
  · exact fun ending => ⟨_, ending, [], (List.append_nil _).symm, rfl⟩

end Glob

namespace Path

/-- Patterns that cover the paths that are not in resolved form. -/
def unresolvedPatterns : List String := ["[!/]*", "//*", "*/../*", "*/.."]

variable {p : Path}

theorem cut_toString (plain : p.IsPlain) (absolute : p.root = "/") :
    ∀ piece ∈ Text.cut '/' p.toString.toList, piece = [] ∨ String.ofList piece ∈ p.parts := by
  rw [toList_toString absolute]
  intro piece member
  rw [← List.nil_append ('/' :: _), Text.cut_join] at member
  rcases List.mem_append.mp member with first | later
  · exact .inl (List.mem_singleton.mp first)
  · by_cases empty : p.parts = []
    · rw [empty] at later
      exact .inl (List.mem_singleton.mp later)
    · rw [Text.cut_intercalate (by simpa using empty) (by simpa using fun part inside => (plain part inside).2.2)]
        at later
      obtain ⟨part, isPart, rfl⟩ := List.mem_map.mp later
      exact .inr (by rwa [String.ofList_toList])

theorem mem_of_mem_cut (plain : p.IsPlain) (absolute : p.root = "/")
    (climbs : ['.', '.'] ∈ Text.cut '/' p.toString.toList) : ".." ∈ p.parts := by
  rcases cut_toString plain absolute _ climbs with empty | isPart
  · cases empty
  · exact isPart

/-- No pattern covers a path in resolved form. -/
theorem not_covers_resolved (plain : p.IsPlain) (absolute : p.root = "/") (direct : ".." ∉ p.parts) :
    ∀ pattern ∈ unresolvedPatterns, ¬Glob.covers pattern p.toString = true := by
  have text := toList_toString absolute
  have noDots : ['.', '.'] ∉ Text.cut '/' p.toString.toList :=
    fun climbs => direct (mem_of_mem_cut plain absolute climbs)
  unfold unresolvedPatterns
  simp only [List.mem_cons, List.not_mem_nil, or_false, forall_eq_or_imp, forall_eq]
  refine ⟨?_, ?_, ?_, ?_⟩
  · rw [Glob.covers_relative]
    rintro ⟨c, rest, same, other⟩
    rw [text] at same
    cases same
    exact other rfl
  · rw [Glob.covers_doubled]
    rintro ⟨rest, same⟩
    rw [text] at same
    have behind : ['/'].intercalate (p.parts.map String.toList) = '/' :: rest :=
      (List.cons.inj same).2.symm
    cases named : p.parts with
    | nil => simp [named] at behind
    | cons part parts =>
      rw [named, List.map_cons, Text.intercalate_cons] at behind
      obtain ⟨some_, _, noSlash⟩ := plain part (by simp [named])
      cases first : part.toList with
      | nil => exact some_ (String.toList_inj.mp first)
      | cons c cs =>
        rw [first] at behind noSlash
        exact noSlash ((List.cons.inj behind).1 ▸ List.mem_cons_self ..)
  · rw [Glob.covers_climbing]
    rintro ⟨front, back, same⟩
    refine noDots ?_
    have cuts : front ++ ['/', '.', '.', '/'] ++ back = front ++ '/' :: (['.', '.'] ++ '/' :: back) := by
      simp
    rw [← same, cuts, Text.cut_join, Text.cut_append (by decide)]
    simp
  · rw [Glob.covers_ascending]
    rintro ⟨front, same⟩
    refine noDots ?_
    have last : Text.cut '/' ['.', '.'] = [['.', '.']] := by decide
    rw [← same, Text.cut_join, last]
    simp

theorem rootOf_cases (cs : List Char) : rootOf cs = "" ∨ rootOf cs = "/" ∨ rootOf cs = "//" := by
  unfold rootOf
  split
  · exact .inl rfl
  · exact .inr (.inr rfl)
  · exact .inr (.inl rfl)

/-- A path in another form is covered by a pattern. -/
theorem covers_unresolved (plain : p.IsPlain) (rooted : p.root = "" ∨ p.root = "/" ∨ p.root = "//")
    (other : p.root ≠ "/" ∨ ".." ∈ p.parts) :
    ∃ pattern ∈ unresolvedPatterns, Glob.covers pattern p.toString = true := by
  rcases rooted with relative | absolute | doubled
  · refine ⟨_, List.mem_cons_self .., Glob.covers_relative.mpr ?_⟩
    cases named : p.parts with
    | nil => exact ⟨'.', [], by simp [toString, relative, named], by decide⟩
    | cons part parts =>
      obtain ⟨some_, _, noSlash⟩ := plain part (by simp [named])
      have text : p.toString.toList =
          part.toList ++ (parts.map String.toList).flatMap ('/' :: ·) := by
        simp [toString, relative, named, String.toList_intercalate, Text.intercalate_cons]
      cases first : part.toList with
      | nil => exact absurd (String.toList_inj.mp first) some_
      | cons c cs =>
        refine ⟨c, _, by rw [text, first, List.cons_append], fun same => noSlash ?_⟩
        rw [first, same]
        exact List.mem_cons_self ..
  · have climbs : ".." ∈ p.parts := other.resolve_left fun differs => differs absolute
    obtain ⟨front, back, split_⟩ := List.append_of_mem climbs
    have text : p.toString.toList = (front.map String.toList).flatMap ('/' :: ·) ++
        ['/', '.', '.'] ++ (back.map String.toList).flatMap ('/' :: ·) := by
      rw [toList_toString absolute, Text.cons_intercalate (by simp [split_]), split_]
      simp
    cases back with
    | nil =>
      exact ⟨"*/..", by simp [unresolvedPatterns], Glob.covers_ascending.mpr
        ⟨_, by rw [text, List.map_nil, List.flatMap_nil, List.append_nil]⟩⟩
    | cons part back =>
      refine ⟨"*/../*", by simp [unresolvedPatterns], Glob.covers_climbing.mpr
        ⟨(front.map String.toList).flatMap ('/' :: ·),
          part.toList ++ (back.map String.toList).flatMap ('/' :: ·), ?_⟩⟩
      rw [text]
      simp
  · refine ⟨"//*", by simp [unresolvedPatterns], Glob.covers_doubled.mpr ?_⟩
    simp [toString, doubled]

end Path
end InlineQuery
