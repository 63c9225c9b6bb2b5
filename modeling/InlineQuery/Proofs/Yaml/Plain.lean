import InlineQuery.Data.Yaml.Document
import InlineQuery.Proofs.Yaml.Quoted

/-!
Portable words and numbers of JSON as plain scalars inside brackets.
-/

namespace InlineQuery.Yaml

/-- The spacing that is left of JSON's when line ends have been unified. -/
def isBlank (c : Char) : Bool := c == ' ' || c == '\n'

/-- What follows behind spacing. -/
def ahead (cs : List Char) : List Char := cs.dropWhile isBlank

theorem ahead_ahead (cs : List Char) : ahead (ahead cs) = ahead cs := by
  induction cs with
  | nil => rfl
  | cons c cs ih =>
    cases blank : isBlank c with
    | true => simpa [ahead, blank] using ih
    | false => simp [ahead, blank]

theorem ahead_dropSpaces (cs : List Char) : ahead (cs.dropWhile (· == ' ')) = ahead cs := by
  induction cs with
  | nil => rfl
  | cons c cs ih =>
    by_cases space : c = ' '
    · subst space
      simpa [ahead, isBlank] using ih
    · simp [space]

/-- Behind spaces, a line ends just in case more spacing is to come. -/
theorem Place.lineEnd?_skipSpaces {p : Place}
    (visible : ∀ c ∈ (ahead p.rest).head?, isBreak c = false) :
    p.skipSpaces.lineEnd? = none ∧ p.skipSpaces.rest = ahead p.rest ∨
      p.skipSpaces.lineEnd? = some ('\n', p.skipSpaces.next) ∧
        p.skipSpaces.rest = '\n' :: p.skipSpaces.next.rest ∧
        ahead p.skipSpaces.next.rest = ahead p.rest := by
  have left : p.skipSpaces.rest = p.rest.dropWhile (· == ' ') := Place.rest_span ..
  have same := ahead_dropSpaces p.rest
  rw [← left] at same
  generalize p.skipSpaces = q at left same
  cases behind : q.rest with
  | nil =>
    left
    rw [behind] at same
    exact ⟨by simp [Place.lineEnd?, Place.peek?, behind], same⟩
  | cons c cs =>
    have notSpace : c ≠ ' ' := by
      rintro rfl
      have first := List.head?_dropWhile_not (· == ' ') p.rest
      rw [← left, behind] at first
      cases first
    by_cases feed : c = '\n'
    · subst feed
      right
      have next : q.next.rest = cs := by simp [behind]
      refine ⟨by simp [Place.lineEnd?, Place.peek?, behind, isBreak], by rw [next], ?_⟩
      rw [next, ← same, behind]
      simp [ahead, isBlank]
    · left
      have here : ahead q.rest = q.rest := by simp [ahead, behind, isBlank, notSpace, feed]
      have visible := visible c (by rw [← same, here, behind]; rfl)
      exact ⟨by simp [Place.lineEnd?, Place.peek?, behind, visible], by rw [← same, here, behind]⟩

/-- Whether nothing but spacing stands before the next mark or the end. -/
def Stops (cs : List Char) : Prop := ∀ c ∈ (ahead cs).head?, c = ',' ∨ c = ']' ∨ c = '\x7d'

namespace Scalar

variable {p q : Place} {r cs : List Char}

/-- A word that nothing ends but spacing and marks. -/
structure IsWord (cs : List Char) : Prop where
  given : cs ≠ []
  plain : ∀ c ∈ cs, isSpacing c = false ∧ c ≠ ':' ∧ isFlowMark c = false ∧ c ≠ '#'

theorem head?_of_stops (stops : Stops r) :
    ∀ c ∈ r.head?, isBlank c = true ∨ c = ',' ∨ c = ']' ∨ c = '\x7d' := by
  intro c first
  cases blank : isBlank c with
  | true => exact .inl rfl
  | false =>
    obtain ⟨rest, rfl⟩ := List.head?_eq_some_iff.mp first
    have here : ahead (c :: rest) = c :: rest := by simp [ahead, blank]
    exact .inr (stops c (by rw [here]; rfl))

theorem plainWord_of_stops (stops : Stops r) : plainWord true r = [] := by
  cases r with
  | nil => rfl
  | cons c r =>
    have first := head?_of_stops stops c rfl
    rcases first with blank | rfl | rfl | rfl
    · simp only [isBlank, Bool.or_eq_true, beq_iff_eq] at blank
      rcases blank with rfl | rfl <;> simp [plainWord, isSpacing, isBreak]
    · simp [plainWord, isFlowMark]
    · simp [plainWord, isFlowMark]
    · simp [plainWord, isFlowMark]

theorem plainWord_append (plain : ∀ c ∈ cs, isSpacing c = false ∧ c ≠ ':' ∧ isFlowMark c = false ∧
    c ≠ '#') (stops : Stops r) : plainWord true (cs ++ r) = cs := by
  induction cs with
  | nil => exact plainWord_of_stops stops
  | cons c cs ih =>
    obtain ⟨visible, notColon, notMark, _⟩ := plain c (List.mem_cons_self ..)
    have later := ih fun other member => plain other (List.mem_cons_of_mem _ member)
    simp [plainWord, visible, notColon, notMark, later]

theorem visible_of_stops (stops : Stops r) : ∀ c ∈ (ahead r).head?, isBreak c = false := by
  intro c first
  rcases stops c first with rfl | rfl | rfl <;> rfl

theorem stops_of_ahead (stops : Stops r) (same : ahead cs = ahead r) : Stops cs := by
  rw [Stops, same]
  exact stops

theorem atDocumentMark_of_stops (stops : Stops p.rest) : p.atDocumentMark = false := by
  have apart (c : Char) (dash : c = '-' ∨ c = '.') : [c, c, c].isPrefixOf p.rest = false := by
    cases starts : p.rest with
    | nil => rfl
    | cons first rest =>
      have known := head?_of_stops stops first (by rw [starts]; rfl)
      have differs : c ≠ first := by
        rintro rfl
        rcases dash with rfl | rfl <;> simp [isBlank] at known
      simp [List.isPrefixOf, differs]
  simp [Place.atDocumentMark, Place.atMark, apart]

theorem plainBreaks_of_stops {fuel : Nat} (stops : Stops p.rest) (enough : p.rest.length ≤ fuel) :
    ∃ breaks q, plainBreaks fuel p = (some breaks, q) ∧ q.rest = ahead p.rest := by
  induction fuel generalizing p with
  | zero =>
    have nothing : p.rest = [] := List.eq_nil_of_length_eq_zero (Nat.le_zero.mp enough)
    exact ⟨[], p, rfl, by rw [nothing]; rfl⟩
  | succ fuel ih =>
    simp only [plainBreaks, atDocumentMark_of_stops stops, Bool.false_eq_true, if_false]
    rcases Place.lineEnd?_skipSpaces (visible_of_stops stops) with
      ⟨ended, behind⟩ | ⟨ended, behind, same⟩
    · exact ⟨[], p.skipSpaces, by rw [ended], behind⟩
    · have shorter : p.skipSpaces.next.rest.length ≤ fuel := by
        have length := (Place.Reaches.skipSpaces p).length_le
        rw [behind, List.length_cons] at length
        omega
      obtain ⟨breaks, q, read, left⟩ := ih (stops_of_ahead stops same) shorter
      exact ⟨'\n' :: breaks, q, by rw [ended]; simp [read], left.trans same⟩

theorem plainSpaces_of_stops (stops : Stops p.rest) :
    ∃ spaces broken q, plainSpaces p = (spaces, broken, q) ∧ q.rest = ahead p.rest := by
  have spanned : p.span (· == ' ') = ((p.span (· == ' ')).1, p.skipSpaces) := rfl
  rw [plainSpaces, spanned]
  dsimp only
  rcases Place.lineEnd?_skipSpaces (visible_of_stops stops) with
    ⟨ended, behind⟩ | ⟨ended, behind, same⟩
  · exact ⟨_, false, p.skipSpaces, by rw [ended], behind⟩
  · obtain ⟨breaks, q, read, left⟩ :=
      plainBreaks_of_stops (stops_of_ahead stops same) (Nat.le_refl _)
    exact ⟨_, true, q, by rw [ended]; simp only [read]; rfl, left.trans same⟩

/-- Inside brackets a plain word is a scalar, and the spacing behind it is passed over. -/
theorem plain_word (word : IsWord cs) (starts : p.rest = cs ++ r) (stops : Stops r) (indent : Nat) :
    ∃ broken q, plain true indent p = (cs, broken, q) ∧ q.rest = ahead r := by
  obtain ⟨c, tail, rfl⟩ := List.exists_cons_of_ne_nil word.given
  have notComment : p.peek? ≠ some '#' := by
    rw [Place.peek?, starts]
    simpa using (word.plain c (List.mem_cons_self ..)).2.2.2
  have whole : plainWord true p.rest = c :: tail := by
    rw [starts]
    exact plainWord_append word.plain stops
  have behind : (p.skip (c :: tail).length).rest = r := by
    rw [Place.rest_skip, starts, List.drop_left]
  obtain ⟨spaces, broken, q, spaced, left⟩ :=
    plainSpaces_of_stops (p := p.skip (c :: tail).length) (by rw [behind]; exact stops)
  rw [behind] at left
  have nothing : plainWord true q.rest = [] :=
    plainWord_of_stops (stops_of_ahead stops (by rw [left, ahead_ahead]))
  have size : p.rest.length = (tail ++ r).length + 1 := by rw [starts]; rfl
  have further (fuel : Nat) : plainWords true indent fuel spaces broken q = ([], broken, q) := by
    cases fuel with
    | zero => rfl
    | succ fuel => simp [plainWords, nothing]
  refine ⟨broken, q, ?_, left⟩
  rw [plain, size, plainWords]
  simp only [if_neg notComment, whole, spaced, further]
  split
  · cases ‹(c :: tail).isEmpty = true›
  · split <;> simp

end Scalar

end InlineQuery.Yaml
