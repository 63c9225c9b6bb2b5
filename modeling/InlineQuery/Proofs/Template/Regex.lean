import InlineQuery.Literal.Scan
import InlineQuery.Proofs.Template.Interpolation
import InlineQuery.Proofs.Template.Masking
import InlineQuery.Proofs.Text.Lines

/-!
Where a regular expression ends. Reading goes from its first slash to the slash that closes it, two
characters at a time where a backslash stands. The slash that closes it is told by its surroundings:
it is the first that no backslash escapes and no character class encloses. An escaped line feed is
passed over like any escaped character, and only there reading leaves the line.
-/

namespace InlineQuery.Template

open Literal (isIdent)

variable {text : List Char} {i k : Nat} {c : Char}

/-- The end of the regular expression whose first slash stands at an offset, if it is closed. -/
def regexEnd (text : List Char) (i : Nat) : Option Nat :=
  (regexRest (text.drop (i + 1))).map (i + 1 + ·)

/-- A character class encloses a place behind an offset: some opening bracket stands before it that
is not escaped, and between the two only escaped closing ones. -/
def InClass (text : List Char) (i k : Nat) : Prop :=
  ∃ p, i < p ∧ p < k ∧ text[p]? = some '[' ∧ ¬ IsEscaped text p ∧
    ∀ q, p < q → q < k → text[q]? = some ']' → IsEscaped text q

/-- A slash behind an offset that is neither escaped nor in a character class. -/
structure IsClosing (text : List Char) (i k : Nat) : Prop where
  behind : i < k
  slash : text[k]? = some '/'
  bare : ¬ IsEscaped text k
  outside : ¬ InClass text i k

/-- The first such slash. -/
structure IsFirstClosing (text : List Char) (i k : Nat) : Prop extends IsClosing text i k where
  first : ∀ m, IsClosing text i m → k ≤ m

/-- Every line feed between two offsets is escaped. -/
def FeedsEscaped (text : List Char) (i k : Nat) : Prop :=
  ∀ q, i < q → q < k → text[q]? = some '\n' → IsEscaped text q

/-- Where the flags behind a closing slash end. -/
def flagsEnd (text : List Char) (k : Nat) : Nat :=
  k + 1 + ((text.drop (k + 1)).takeWhile isIdent).length

/-! ### What one character changes -/

theorem inClass_succ (behind : i < k) (atK : text[k]? = some c) : InClass text i (k + 1) ↔
    (InClass text i k ∧ (c = ']' → IsEscaped text k)) ∨ (c = '[' ∧ ¬ IsEscaped text k) := by
  constructor
  · rintro ⟨p, above, below, bracket, bare, closers⟩
    rcases Nat.lt_or_eq_of_le (Nat.le_of_lt_succ below) with before | rfl
    · refine .inl ⟨⟨p, above, before, bracket, bare, ?_⟩, ?_⟩
      · exact fun q lower upper => closers q lower (Nat.lt_succ_of_lt upper)
      · exact fun isBracket => closers k before (Nat.lt_succ_self k) (isBracket ▸ atK)
    · rw [bracket] at atK
      exact .inr ⟨(Option.some.inj atK).symm, bare⟩
  · rintro (⟨⟨p, above, below, bracket, bare, closers⟩, last⟩ | ⟨rfl, bare⟩)
    · refine ⟨p, above, Nat.lt_succ_of_lt below, bracket, bare, fun q lower upper closer => ?_⟩
      rcases Nat.lt_or_eq_of_le (Nat.le_of_lt_succ upper) with before | rfl
      · exact closers q lower before closer
      · rw [atK] at closer
        exact last (Option.some.inj closer)
    · exact ⟨k, behind, Nat.lt_succ_self k, atK, bare, fun q lower upper => by omega⟩

theorem FeedsEscaped.succ (feeds : FeedsEscaped text i k)
    (last : text[k]? = some '\n' → IsEscaped text k) : FeedsEscaped text i (k + 1) := by
  intro q above below feed
  rcases Nat.lt_or_eq_of_le (Nat.le_of_lt_succ below) with before | rfl
  · exact feeds q above before feed
  · exact last feed

/-- A regular expression is read up to an offset: that character is not escaped, what is known of
the class is right, and no slash and no line feed before it ends the reading. -/
structure IsReadTo (text : List Char) (i k : Nat) (inClass : Bool) : Prop where
  behind : i < k
  bare : ¬ IsEscaped text k
  inside : inClass = true ↔ InClass text i k
  unclosed : ∀ m, m < k → ¬ IsClosing text i m
  feeds : FeedsEscaped text i k

namespace IsReadTo

variable {inClass inClass' : Bool} {rest : List Char}

theorem start (slash : text[i]? = some '/') : IsReadTo text i (i + 1) false := by
  refine ⟨Nat.lt_succ_self i, ?_, ?_, ?_, ?_⟩
  · rw [isEscaped_succ slash]
    exact fun escapes => absurd escapes.1 (by decide)
  · refine ⟨nofun, ?_⟩
    rintro ⟨p, above, below, -⟩
    omega
  · intro m below closing
    have above := closing.behind
    omega
  · exact fun q above below => by omega

/-- Only what has not been read can close the regular expression. -/
theorem le_of_isClosing (known : IsReadTo text i k inClass) {m : Nat}
    (closing : IsClosing text i m) : k ≤ m :=
  Nat.le_of_not_lt fun before => known.unclosed m before closing

theorem lt_of_isClosing (known : IsReadTo text i k inClass) (atK : text[k]? = some c)
    (notSlash : c ≠ '/') {m : Nat} (closing : IsClosing text i m) : k < m := by
  refine Nat.lt_of_le_of_ne (known.le_of_isClosing closing) ?_
  rintro rfl
  have slash := closing.slash
  rw [atK] at slash
  exact notSlash (Option.some.inj slash)

/-- A character that neither ends the reading nor escapes the next one is read. -/
theorem push (known : IsReadTo text i k inClass) (atK : text[k]? = some c) (notEscape : c ≠ '\\')
    (notFeed : c ≠ '\n') (notClosing : ¬ IsClosing text i k)
    (inside : inClass' = true ↔ (inClass = true ∧ c ≠ ']') ∨ c = '[') :
    IsReadTo text i (k + 1) inClass' := by
  refine ⟨Nat.lt_succ_of_lt known.behind, ?_, ?_, ?_, ?_⟩
  · rw [isEscaped_succ atK]
    exact fun escapes => notEscape escapes.1
  · have bare := known.bare
    rw [inside, inClass_succ known.behind atK, known.inside]
    simp only [bare, not_false_eq_true, and_true, imp_false, ne_eq]
  · intro m below
    rcases Nat.lt_or_eq_of_le (Nat.le_of_lt_succ below) with before | rfl
    · exact known.unclosed m before
    · exact notClosing
  · refine known.feeds.succ fun feed => ?_
    rw [atK] at feed
    exact absurd (Option.some.inj feed) notFeed

/-- A backslash is read with the character that it escapes. -/
theorem escape (known : IsReadTo text i k inClass) (backslash : text[k]? = some '\\')
    (escaped : text[k + 1]? = some c) : IsReadTo text i (k + 2) inClass := by
  have bare := known.bare
  have escapes : IsEscaped text (k + 1) := (isEscaped_succ backslash).mpr ⟨rfl, bare⟩
  refine ⟨Nat.lt_add_right 2 known.behind, ?_, ?_, ?_, ?_⟩
  · rw [isEscaped_succ escaped]
    exact fun twice => twice.2 escapes
  · have one : InClass text i (k + 1) ↔ InClass text i k := by
      rw [inClass_succ known.behind backslash]
      simp
    rw [inClass_succ (Nat.lt_succ_of_lt known.behind) escaped, one, known.inside]
    simp [escapes]
  · intro m below closing
    have above := known.lt_of_isClosing backslash (by decide) closing
    obtain rfl : m = k + 1 := by omega
    exact closing.bare escapes
  · have one : FeedsEscaped text i (k + 1) := by
      refine known.feeds.succ fun feed => ?_
      rw [backslash] at feed
      cases feed
    exact one.succ fun _ => escapes

end IsReadTo

/-- What the rest of a regular expression that is read up to an offset comes to. -/
def EndsAs (text : List Char) (i k : Nat) : Option Nat → Prop
  | some n => ∃ m, n = m + 1 ∧ IsFirstClosing text i (k + m) ∧ FeedsEscaped text i (k + m)
  | none => ∀ m, IsClosing text i m → ¬ FeedsEscaped text i m

theorem EndsAs.add {n : Nat} {result : Option Nat} (ends : EndsAs text i (k + n) result) :
    EndsAs text i k (result.map (· + n)) := by
  cases result with
  | none => exact ends
  | some size =>
    obtain ⟨m, rfl, first, feeds⟩ := ends
    rw [Nat.add_assoc] at first feeds
    exact ⟨n + m, by simp only; omega, first, feeds⟩

/-- Reading on comes to the first closing slash, or to none when none comes before a line feed that is
not escaped. -/
theorem IsReadTo.run {inClass : Bool} {rest : List Char} (known : IsReadTo text i k inClass)
    (ahead : text.drop k = rest) : EndsAs text i k (regexBody inClass rest) := by
  fun_induction regexBody inClass rest generalizing k with
  | case1 =>
    intro m closing
    have bound := (List.getElem?_eq_some_iff.mp closing.slash).1
    have beyond := List.drop_eq_nil_iff.mp ahead
    have lower := known.le_of_isClosing closing
    omega
  | case2 =>
    intro m closing
    have bound := (List.getElem?_eq_some_iff.mp closing.slash).1
    have beyond := List.drop_eq_nil_iff.mp (drop_succ_of_drop ahead)
    have lower := known.lt_of_isClosing (getElem?_of_drop ahead) (by decide) closing
    omega
  | case3 inClass d r ih =>
    have behind := drop_succ_of_drop ahead
    have read := known.escape (getElem?_of_drop ahead) (getElem?_of_drop behind)
    exact (ih read (drop_succ_of_drop behind)).add
  | case4 inClass c r one two isFeed =>
    have feed : text[k]? = some '\n' := eq_of_beq isFeed ▸ getElem?_of_drop ahead
    -- What could close the expression stands behind this line feed, which nothing escapes.
    intro m closing feeds
    exact known.bare (feeds k known.behind (known.lt_of_isClosing feed (by decide) closing) feed)
  | case5 c r one two notFeed ih =>
    have atK := getElem?_of_drop ahead
    have later := drop_succ_of_drop ahead
    refine (ih (known.push atK (ne_backslash one two) (by simpa using notFeed) ?_ ?_) later).add
    · exact fun closing => closing.outside (known.inside.mp rfl)
    -- An opening bracket in a class opens no other one, but the class goes on behind it.
    · by_cases bracket : c = '[' <;> simp [bracket]
  | case6 inClass c r one two notFeed notClass isSlash =>
    have slash : text[k]? = some '/' := eq_of_beq isSlash ▸ getElem?_of_drop ahead
    have outside : ¬ InClass text i k := fun inside => notClass (known.inside.mpr inside)
    have closing : IsClosing text i k := ⟨known.behind, slash, known.bare, outside⟩
    exact ⟨0, rfl, ⟨closing, fun m other => known.le_of_isClosing other⟩, known.feeds⟩
  | case7 inClass c r one two notFeed notClass notSlash ih =>
    have atK := getElem?_of_drop ahead
    have later := drop_succ_of_drop ahead
    refine (ih (known.push atK (ne_backslash one two) (by simpa using notFeed) ?_ ?_) later).add
    · exact fun closing =>
        Nat.lt_irrefl k (known.lt_of_isClosing atK (by simpa using notSlash) closing)
    · simp [notClass]

/-! ### The end -/

/-- An offset lies on the line of another one. -/
def OnLine (text : List Char) (i k : Nat) : Prop :=
  ((LineIndex.ofText text).position k).1 = ((LineIndex.ofText text).position i).1

instance (text : List Char) (i k : Nat) : Decidable (OnLine text i k) :=
  inferInstanceAs (Decidable (_ = _))

theorem IsClosing.onLine_iff (closing : IsClosing text i k) (slash : text[i]? = some '/') :
    OnLine text i k ↔ ∀ q, i < q → q < k → text[q]? ≠ some '\n' := by
  have bound := (List.getElem?_eq_some_iff.mp closing.slash).1
  rw [OnLine, LineIndex.line_eq_iff (Nat.le_of_lt closing.behind) (Nat.le_of_lt bound)]
  constructor
  · exact fun none_ q above => none_ q (Nat.le_of_lt above)
  · intro none_ q lower upper
    rcases Nat.lt_or_eq_of_le lower with above | rfl
    · exact none_ q above upper
    · rw [slash]
      decide

/-- The flags behind a closing slash stand on its line. -/
theorem onLine_flagsEnd (slash : text[k]? = some '/') : OnLine text k (flagsEnd text k) := by
  have prefix_ := List.takeWhile_prefix isIdent (l := text.drop (k + 1))
  have bound := (List.getElem?_eq_some_iff.mp slash).1
  have length := prefix_.length_le
  rw [List.length_drop] at length
  refine (LineIndex.line_eq_iff (by rw [flagsEnd]; omega) (by rw [flagsEnd]; omega)).mpr ?_
  intro q lower upper feed
  rcases Nat.lt_or_eq_of_le lower with above | rfl
  · have within : q - (k + 1) < ((text.drop (k + 1)).takeWhile isIdent).length := by
      rw [flagsEnd] at upper
      omega
    have same := prefix_.getElem within
    have flag := List.all_eq_true.mp List.all_takeWhile _ (List.getElem_mem within)
    rw [same, List.getElem_drop] at flag
    have place : k + 1 + (q - (k + 1)) = q := by omega
    simp only [place] at flag
    obtain ⟨inText, isFeed⟩ := List.getElem?_eq_some_iff.mp feed
    rw [isFeed] at flag
    exact absurd flag (by decide)
  · rw [slash] at feed
    cases feed

theorem IsFirstClosing.unique {m : Nat} (first : IsFirstClosing text i k)
    (other : IsFirstClosing text i m) : k = m :=
  Nat.le_antisymm (first.first m other.toIsClosing) (other.first k first.toIsClosing)

/-- A regular expression ends behind the flags of the first closing slash, unless a line feed comes
before that which is not escaped. -/
theorem regexEnd_eq_some_iff (slash : text[i]? = some '/') (notComment : text[i + 1]? ≠ some '/')
    (j : Nat) : regexEnd text i = some j ↔
      ∃ k, IsFirstClosing text i k ∧ FeedsEscaped text i k ∧ j = flagsEnd text k := by
  have notSlash : (text.drop (i + 1)).head? ≠ some '/' := by rwa [List.head?_drop]
  have ends := (IsReadTo.start slash).run rfl
  rw [regexEnd, regexRest_of_ne notSlash, Option.map_map]
  cases closes : regexBody false (text.drop (i + 1)) with
  | none =>
    rw [closes] at ends
    refine ⟨nofun, ?_⟩
    rintro ⟨k, first, feeds, -⟩
    exact absurd feeds (ends k first.toIsClosing)
  | some n =>
    rw [closes] at ends
    obtain ⟨m, rfl, first, feeds⟩ := ends
    have size : i + 1 + (m + 1 + (((text.drop (i + 1)).drop (m + 1)).takeWhile isIdent).length) =
        flagsEnd text (i + 1 + m) := by
      rw [List.drop_drop, flagsEnd, Nat.add_assoc (i + 1) m 1]
      omega
    rw [Option.map_some, Function.comp_apply, size, Option.some.injEq]
    constructor
    · exact fun same => ⟨_, first, feeds, same.symm⟩
    · rintro ⟨k, other, -, rfl⟩
      rw [first.unique other]

/-- Where a slash can start a regular expression, the scanner takes it up to that end. Without an end
the slash divides. -/
theorem codeToken_regexEnd {state : Code} (notComment : text[i + 1]? ≠ some '/')
    (notBlock : text[i + 1]? ≠ some '*') (starts : state.last.beforeRegex = true) :
    codeToken state '/' (text.drop (i + 1)) =
      (regexEnd text i).elim ({ state with last := .mark '/', marked := false }, 0)
        fun j => ({ state with last := .word [], marked := false }, j - (i + 1)) := by
  rw [codeToken_slash state (by rwa [List.head?_drop]) (by rwa [List.head?_drop]), if_pos starts,
    regexEnd]
  cases regexRest (text.drop (i + 1)) with
  | none => rfl
  | some n => rw [Option.map_some, Option.elim_some, Nat.add_sub_cancel_left]

/-- The line alone tells the end: a closing slash on it, or that there is none. -/
structure EndsOnLine (text : List Char) (i : Nat) : Prop where
  ends : ∀ j, regexEnd text i = some j ↔
    ∃ k, IsFirstClosing text i k ∧ OnLine text i k ∧ j = flagsEnd text k
  stays : ∀ j, regexEnd text i = some j → OnLine text i j

/-- The scanner takes a regular expression up to the flags of the first closing slash in front of
which no line feed stands but escaped ones. The line alone tells the end exactly when no line feed at
all stands in front of that slash. -/
theorem endsOnLine_iff (slash : text[i]? = some '/') (notComment : text[i + 1]? ≠ some '/')
    (notBlock : text[i + 1]? ≠ some '*') :
    (∀ state : Code, state.last.beforeRegex = true →
        codeToken state '/' (text.drop (i + 1)) =
          (regexEnd text i).elim ({ state with last := .mark '/', marked := false }, 0)
            fun j => ({ state with last := .word [], marked := false }, j - (i + 1))) ∧
      (∀ j, regexEnd text i = some j ↔
        ∃ k, IsFirstClosing text i k ∧ FeedsEscaped text i k ∧ j = flagsEnd text k) ∧
      (EndsOnLine text i ↔ ∀ k, IsFirstClosing text i k → FeedsEscaped text i k →
        ∀ q, i < q → q < k → text[q]? ≠ some '\n') := by
  have ends := regexEnd_eq_some_iff slash notComment
  refine ⟨fun _ => codeToken_regexEnd notComment notBlock, ends, ?_⟩
  constructor
  · intro onLine k first feeds
    have last := onLine.stays _ ((ends _).mpr ⟨k, first, feeds, rfl⟩)
    have flags := onLine_flagsEnd first.slash
    exact (first.onLine_iff slash).mp (flags.symm.trans last)
  · intro noFeed
    have onLine {k : Nat} (first : IsFirstClosing text i k) (feeds : FeedsEscaped text i k) :
        OnLine text i k := (first.onLine_iff slash).mpr (noFeed k first feeds)
    refine ⟨fun j => (ends j).trans ⟨?_, ?_⟩, fun j closes => ?_⟩
    · rintro ⟨k, first, feeds, place⟩
      exact ⟨k, first, onLine first feeds, place⟩
    · rintro ⟨k, first, here, place⟩
      have none_ := (first.onLine_iff slash).mp here
      exact ⟨k, first, fun q above below feed => absurd feed (none_ q above below), place⟩
    · obtain ⟨k, first, feeds, rfl⟩ := (ends j).mp closes
      exact (onLine_flagsEnd first.slash).trans (onLine first feeds)

/-- A class with a slash and an escaped bracket, an escaped slash, and behind the flags a line that
ends in a backslash. -/
theorem endsOnLine_iff_class :
    let text := "/[/\\]]\\/x/gi \\\n/".toList
    text[0]? = some '/' ∧ text[1]? ≠ some '/' ∧ text[1]? ≠ some '*' ∧
      codeToken .fresh '/' (text.drop 1) = ({ Code.fresh with last := .word [] }, 11) ∧
      EndsOnLine text 0 := by
  intro text
  have slash : text[0]? = some '/' := by decide
  have notComment : text[0 + 1]? ≠ some '/' := by decide
  have notBlock : text[0 + 1]? ≠ some '*' := by decide
  obtain ⟨token, ends, line⟩ := endsOnLine_iff slash notComment notBlock
  have stops : regexEnd text 0 = some 12 := by decide
  have whole := token .fresh rfl
  rw [stops] at whole
  refine ⟨slash, notComment, notBlock, whole, line.mpr fun k first feeds q _ below => ?_⟩
  obtain ⟨m, other, -, place⟩ := (ends 12).mp stops
  have bound : k ≤ 11 := by
    rw [first.unique other]
    rw [flagsEnd] at place
    omega
  have none_ : ∀ q < 11, text[q]? ≠ some '\n' := by decide
  exact none_ q (Nat.lt_of_lt_of_le below bound)

/-- A backslash in front of a line feed takes the regular expression into the next line, although no
slash on its own line closes it. What stands there is not read. -/
theorem not_endsOnLine :
    let text := "/a\\\ngql\x60\x7b b \x7d\x60/".toList
    text[0]? = some '/' ∧ text[1]? ≠ some '/' ∧ text[1]? ≠ some '*' ∧
      regexEnd text 0 = some 15 ∧ (∀ k, IsClosing text 0 k → ¬ OnLine text 0 k) ∧
      ¬ EndsOnLine text 0 ∧ scan text .javascript = [] := by
  intro text
  have stops : regexEnd text 0 = some 15 := by decide
  refine ⟨by decide, by decide, by decide, stops, fun k closing => ?_, fun line => ?_, by decide⟩
  · have only : ∀ k < text.length, 0 < k → text[k]? = some '/' → ¬ OnLine text 0 k := by decide
    exact only k (List.getElem?_eq_some_iff.mp closing.slash).1 closing.behind closing.slash
  · exact absurd (line.stays 15 stops) (by decide)

end InlineQuery.Template
