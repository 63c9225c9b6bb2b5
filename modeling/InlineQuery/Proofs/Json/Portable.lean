import InlineQuery.Data.Yaml.Layout
import InlineQuery.Proofs.Json.Form

/-!
JSON that YAML reads as well. Spacing has no tabs, strings have only characters that may stand in a
document and none that ends a line, and floating point numbers have a point and a sign in front of
their exponents. A colon stands on the line of its key and not far behind it.
-/

namespace InlineQuery.Json

def Gap.IsPortable (g : Gap) : Prop := '\t' ∉ g.text

/-- Whether a number is half of a pair that stands for one character. -/
def isHalf (code : Nat) : Bool := 0xD800 ≤ code && code ≤ 0xDFFF

def Piece.IsPortable : Piece → Prop
  | .plain c _ => Yaml.isAllowed c = true ∧ Yaml.isBreak c = false
  | .simple .. => True
  | .numbered _ code _ => isHalf code = false
  | .paired .. => False

def Quotation.IsPortable (q : Quotation) : Prop := ∀ piece ∈ q.pieces, piece.IsPortable

def Numeral.IsPortable (n : Numeral) : Prop :=
  n.isWhole = true ∨ n.fraction ≠ [] ∧ ∀ e ∈ n.exponent, e.sign ≠ []

/-- The names that are words of YAML too. -/
def portableNames : List (List Char) := ["null".toList, "true".toList, "false".toList]

/-- How many characters there may be from the start of a key to its colon. -/
def keyLimit : Nat := 1024

mutual

def Form.IsPortable : Form → Prop
  | .word name _ _ => name ∈ portableNames
  | .number n => n.IsPortable
  | .quoted q => q.IsPortable
  | .list inner items => inner.IsPortable ∧ items.ArePortable
  | .object inner members => inner.IsPortable ∧ members.ArePortable

def Items.ArePortable : Items → Prop
  | .close => True
  | .item before value behind rest =>
    before.IsPortable ∧ value.IsPortable ∧ behind.IsPortable ∧ rest.ArePortable

def Members.ArePortable : Members → Prop
  | .close => True
  | .member before key beforeColon afterColon value behind rest =>
    before.IsPortable ∧ key.IsPortable ∧ (∀ c ∈ beforeColon.text, c = ' ') ∧
      key.text.length + beforeColon.text.length ≤ keyLimit ∧ afterColon.IsPortable ∧
      value.IsPortable ∧ behind.IsPortable ∧ rest.ArePortable

end

structure Document.IsPortable (d : Document) : Prop where
  before : d.before.IsPortable
  root : d.root.IsPortable
  behind : d.behind.IsPortable

/-! ### Deciding whether JSON is portable -/

instance (g : Gap) : Decidable g.IsPortable := inferInstanceAs (Decidable ('\t' ∉ g.text))

instance : DecidablePred Piece.IsPortable
  | .plain .. => inferInstanceAs (Decidable (_ ∧ _))
  | .simple .. => inferInstanceAs (Decidable True)
  | .numbered .. => inferInstanceAs (Decidable (_ = false))
  | .paired .. => inferInstanceAs (Decidable False)

instance (q : Quotation) : Decidable q.IsPortable :=
  inferInstanceAs (Decidable (∀ piece ∈ q.pieces, piece.IsPortable))

instance (n : Numeral) : Decidable n.IsPortable :=
  inferInstanceAs (Decidable (n.isWhole = true ∨ n.fraction ≠ [] ∧ ∀ e ∈ n.exponent, e.sign ≠ []))

mutual

instance decidableForm : (f : Form) → Decidable f.IsPortable
  | .word name .. => inferInstanceAs (Decidable (name ∈ portableNames))
  | .number n => inferInstanceAs (Decidable n.IsPortable)
  | .quoted q => inferInstanceAs (Decidable q.IsPortable)
  | .list inner items =>
    have := decidableItems items
    inferInstanceAs (Decidable (inner.IsPortable ∧ items.ArePortable))
  | .object inner members =>
    have := decidableMembers members
    inferInstanceAs (Decidable (inner.IsPortable ∧ members.ArePortable))

instance decidableItems : (items : Items) → Decidable items.ArePortable
  | .close => inferInstanceAs (Decidable True)
  | .item before value behind rest =>
    have := decidableForm value
    have := decidableItems rest
    inferInstanceAs (Decidable (before.IsPortable ∧ value.IsPortable ∧ behind.IsPortable ∧
      rest.ArePortable))

instance decidableMembers : (members : Members) → Decidable members.ArePortable
  | .close => inferInstanceAs (Decidable True)
  | .member before key beforeColon afterColon value behind rest =>
    have : Decidable (∀ c ∈ beforeColon.text, c = ' ') := List.decidableBAll _ _
    have := decidableForm value
    have := decidableMembers rest
    inferInstanceAs (Decidable (before.IsPortable ∧ key.IsPortable ∧
      (∀ c ∈ beforeColon.text, c = ' ') ∧ key.text.length + beforeColon.text.length ≤ keyLimit ∧
      afterColon.IsPortable ∧ value.IsPortable ∧ behind.IsPortable ∧ rest.ArePortable))

end

instance (d : Document) : Decidable d.IsPortable :=
  decidable_of_iff (d.before.IsPortable ∧ d.root.IsPortable ∧ d.behind.IsPortable)
    ⟨fun ⟨before, root, behind⟩ => ⟨before, root, behind⟩, fun h => ⟨h.before, h.root, h.behind⟩⟩

/-! ### The characters of portable JSON -/

theorem Gap.isAllowed (g : Gap) : ∀ c ∈ g.text, Yaml.isAllowed c = true := by
  intro c member
  have gap := g.property c member
  simp only [isGap, Bool.or_eq_true, beq_iff_eq] at gap
  rcases gap with ((rfl | rfl) | rfl) | rfl <;> rfl

/-- Whether a character may stand in a document and ends no line. -/
def IsInline (c : Char) : Prop := Yaml.isAllowed c = true ∧ Yaml.isBreak c = false ∧ c ≠ '\r'

theorem isInline_of_visible {c : Char} (low : 0x20 ≤ c.toNat) (high : c.toNat ≤ 0x7e) :
    IsInline c := by
  have above : ' ' ≤ c := low
  have below : c ≤ '~' := high
  have apart (d : Char) (beyond : d.toNat < 0x20 ∨ 0x7e < d.toNat) : c ≠ d := by
    rintro rfl
    omega
  refine ⟨by simp [Yaml.isAllowed, above, below], ?_, apart '\r' (by decide)⟩
  simp [Yaml.isBreak, apart '\n' (by decide), apart '\x85' (by decide), apart '\u2028' (by decide),
    apart '\u2029' (by decide)]

theorem toNat_of_isDigit {c : Char} (digit : c.isDigit = true) : 48 ≤ c.toNat ∧ c.toNat ≤ 57 := by
  simp only [Char.isDigit, Bool.and_eq_true, decide_eq_true_eq] at digit
  exact digit

theorem isInline_of_isDigit {c : Char} (digit : c.isDigit = true) : IsInline c := by
  obtain ⟨low, high⟩ := toNat_of_isDigit digit
  exact isInline_of_visible (by omega) (by omega)

theorem toNat_of_hexDigit? {c : Char} {n : Nat} (digit : hexDigit? c = some n) :
    0x20 ≤ c.toNat ∧ c.toNat ≤ 0x7e := by
  unfold hexDigit? at digit
  split at digit
  · rename_i decimal
    have low : 48 ≤ c.toNat := decimal.1
    have high : c.toNat ≤ 57 := decimal.2
    omega
  · split at digit
    · rename_i letter
      have low : 65 ≤ c.toNat := letter.1
      have high : c.toNat ≤ 70 := letter.2
      omega
    · split at digit
      · rename_i letter
        have low : 97 ≤ c.toNat := letter.1
        have high : c.toNat ≤ 102 := letter.2
        omega
      · cases digit

/-- The four digits of a number that a character is given by. -/
theorem hexValue?_parts {digits : List Char} {code : Nat} (means : hexValue? digits = some code) :
    ∃ a b c d i j k l, digits = [a, b, c, d] ∧ hexDigit? a = some i ∧ hexDigit? b = some j ∧
      hexDigit? c = some k ∧ hexDigit? d = some l ∧ code = ((i * 16 + j) * 16 + k) * 16 + l := by
  unfold hexValue? at means
  split at means
  · rename_i a b c d
    simp only [bind, Option.bind_eq_some_iff, pure, Option.some.injEq] at means
    obtain ⟨i, isFirst, j, isSecond, k, isThird, l, isFourth, rfl⟩ := means
    exact ⟨a, b, c, d, i, j, k, l, rfl, isFirst, isSecond, isThird, isFourth, rfl⟩
  · cases means

theorem isInline_of_hexValue? {digits : List Char} {code : Nat}
    (means : hexValue? digits = some code) : ∀ c ∈ digits, IsInline c := by
  obtain ⟨a, b, c, d, i, j, k, l, rfl, isFirst, isSecond, isThird, isFourth, _⟩ :=
    hexValue?_parts means
  have inline {c : Char} {n : Nat} (digit : hexDigit? c = some n) : IsInline c :=
    isInline_of_visible (toNat_of_hexDigit? digit).1 (toNat_of_hexDigit? digit).2
  simp [inline isFirst, inline isSecond, inline isThird, inline isFourth]

theorem isInline_of_simpleEscape? {mark value : Char} (means : simpleEscape? mark = some value) :
    IsInline mark := by
  unfold simpleEscape? at means
  split at means
  all_goals cases means
  all_goals exact isInline_of_visible (by decide) (by decide)

/-- A portable string stands on one line. -/
theorem Quotation.IsPortable.isInline {q : Quotation} (portable : q.IsPortable) :
    ∀ c ∈ q.text, IsInline c := by
  have quote : IsInline '"' := isInline_of_visible (by decide) (by decide)
  have backslash : IsInline '\\' := isInline_of_visible (by decide) (by decide)
  have letter : IsInline 'u' := isInline_of_visible (by decide) (by decide)
  have inside : ∀ piece ∈ q.pieces, ∀ c ∈ piece.text, IsInline c := by
    intro piece member c inText
    have portable := portable piece member
    cases piece with
    | plain c' stands =>
      rw [List.mem_singleton.mp inText]
      refine ⟨portable.1, portable.2, ?_⟩
      rintro rfl
      exact absurd stands.2.2 (by decide)
    | simple mark value means =>
      simp only [Piece.text, List.mem_cons, List.not_mem_nil, or_false] at inText
      rcases inText with rfl | rfl
      · exact backslash
      · exact isInline_of_simpleEscape? means
    | numbered digits code means =>
      simp only [Piece.text, List.mem_cons] at inText
      rcases inText with rfl | rfl | digit
      · exact backslash
      · exact letter
      · exact isInline_of_hexValue? means c digit
    | paired => exact portable.elim
  intro c member
  simp only [text, body, List.mem_cons, List.mem_append, List.mem_flatMap,
    List.not_mem_nil, or_false] at member
  rcases member with rfl | ⟨piece, known, inText⟩ | rfl
  · exact quote
  · exact inside piece known c inText
  · exact quote

/-- The characters of a number. -/
theorem Numeral.mem_text {n : Numeral} {c : Char} (member : c ∈ n.text) :
    c.isDigit = true ∨ c ∈ ['-', '+', '.', 'e', 'E'] := by
  simp only [text, List.mem_append] at member
  rcases member with ((inSign | inWhole) | inFraction) | inExponent
  · unfold sign at inSign
    split at inSign
    · rw [List.mem_singleton.mp inSign]
      exact .inr (by decide)
    · cases inSign
  · exact .inl (n.areDigits c (List.mem_append_left _ inWhole))
  · unfold fractionText at inFraction
    split at inFraction
    · cases inFraction
    · rcases List.mem_cons.mp inFraction with rfl | digit
      · exact .inr (by decide)
      · exact .inl (n.areDigits c (List.mem_append_right _ digit))
  · unfold exponentText at inExponent
    cases isExponent : n.exponent with
    | none => simp [isExponent] at inExponent
    | some e =>
      simp only [isExponent, Option.map_some, Option.getD_some, Exponent.text, List.mem_cons,
        List.cons_append, List.mem_append] at inExponent
      rcases inExponent with rfl | sign | digit
      · rcases e.isMark with isMark | isMark <;> exact .inr (by simp [isMark])
      · rcases e.isSign with isSign | isSign | isSign <;> simp [isSign] at sign <;>
          exact .inr (by simp [sign])
      · exact .inl (e.areDigits c digit)

theorem Numeral.isInline (n : Numeral) : ∀ c ∈ n.text, IsInline c := by
  intro c member
  rcases mem_text member with digit | mark
  · exact isInline_of_isDigit digit
  · simp only [List.mem_cons, List.not_mem_nil, or_false] at mark
    rcases mark with rfl | rfl | rfl | rfl | rfl <;> exact isInline_of_visible (by decide) (by decide)

theorem isInline_of_portableName {name : List Char} (known : name ∈ portableNames) :
    ∀ c ∈ name, IsInline c := by
  have all : (portableNames.all fun name => name.all fun c => 0x20 ≤ c.toNat && c.toNat ≤ 0x7e) = true :=
    by decide
  intro c member
  have visible := List.all_eq_true.mp (List.all_eq_true.mp all name known) c member
  simp only [Bool.and_eq_true, decide_eq_true_eq] at visible
  exact isInline_of_visible visible.1 visible.2

theorem isAllowed_of_comma {isFirst : Bool} : ∀ c ∈ comma isFirst, Yaml.isAllowed c = true := by
  cases isFirst with
  | true => rintro _ ⟨⟩
  | false =>
    intro c member
    rw [List.mem_singleton.mp member]
    rfl

mutual

theorem Form.IsPortable.isAllowed {f : Form} (portable : f.IsPortable) :
    ∀ c ∈ f.text, Yaml.isAllowed c = true := by
  cases f with
  | word name value isNamed => exact fun c member => (isInline_of_portableName portable c member).1
  | number n => exact fun c member => (n.isInline c member).1
  | quoted q => exact fun c member => (Quotation.IsPortable.isInline portable c member).1
  | list inner items =>
    intro c member
    simp only [Form.text, List.cons_append, List.mem_cons, List.mem_append] at member
    rcases member with rfl | spacing | inItems
    · rfl
    · exact inner.isAllowed c spacing
    · exact Items.ArePortable.isAllowed portable.2 true c inItems
  | object inner members =>
    intro c member
    simp only [Form.text, List.cons_append, List.mem_cons, List.mem_append] at member
    rcases member with rfl | spacing | inMembers
    · rfl
    · exact inner.isAllowed c spacing
    · exact Members.ArePortable.isAllowed portable.2 true c inMembers

theorem Items.ArePortable.isAllowed {items : Items} (portable : items.ArePortable)
    (isFirst : Bool) : ∀ c ∈ items.text isFirst, Yaml.isAllowed c = true := by
  cases items with
  | close =>
    intro c member
    rw [List.mem_singleton.mp member]
    rfl
  | item before value behind rest =>
    obtain ⟨_, isValue, _, areRest⟩ := portable
    intro c member
    simp only [Items.text, List.mem_append] at member
    rcases member with (((separates | spacing) | inValue) | spacing) | inRest
    · exact isAllowed_of_comma c separates
    · exact before.isAllowed c spacing
    · exact Form.IsPortable.isAllowed isValue c inValue
    · exact behind.isAllowed c spacing
    · exact Items.ArePortable.isAllowed areRest false c inRest

theorem Members.ArePortable.isAllowed {members : Members} (portable : members.ArePortable)
    (isFirst : Bool) : ∀ c ∈ members.text isFirst, Yaml.isAllowed c = true := by
  cases members with
  | close =>
    intro c member
    rw [List.mem_singleton.mp member]
    rfl
  | member before key beforeColon afterColon value behind rest =>
    obtain ⟨_, isKey, _, _, _, isValue, _, areRest⟩ := portable
    intro c member
    simp only [Members.text, List.mem_append, List.mem_singleton] at member
    rcases member with (((((((separates | spacing) | inKey) | spacing) | rfl) | spacing) | inValue) |
      spacing) | inRest
    · exact isAllowed_of_comma c separates
    · exact before.isAllowed c spacing
    · exact (isKey.isInline c inKey).1
    · exact beforeColon.isAllowed c spacing
    · rfl
    · exact afterColon.isAllowed c spacing
    · exact Form.IsPortable.isAllowed isValue c inValue
    · exact behind.isAllowed c spacing
    · exact Members.ArePortable.isAllowed areRest false c inRest

end

theorem Document.IsPortable.isAllowed {d : Document} (portable : d.IsPortable) :
    ∀ c ∈ d.text, Yaml.isAllowed c = true := by
  intro c member
  simp only [text, List.mem_append] at member
  rcases member with (spacing | inRoot) | spacing
  · exact d.before.isAllowed c spacing
  · exact portable.root.isAllowed c inRoot
  · exact d.behind.isAllowed c spacing

end InlineQuery.Json
