import InlineQuery.Proofs.Data.Assoc
import InlineQuery.Proofs.Json.Accepting

/-!
Values that JSON expresses. What is written of such a value is read back as the value, and only such
values are read.
-/

namespace InlineQuery

/-- A value that JSON expresses: integers have no more digits than are read, floating point numbers are
in canonical form, and the keys of an object are texts, each of which occurs once. -/
inductive Datum.IsJson : Datum → Prop where
  | null : IsJson .null
  | bool (value : Bool) : IsJson (.bool value)
  | int {value : Int} (isShort : (Nat.toDigits 10 value.natAbs).length ≤ digitLimit) :
    IsJson (.int value)
  | float {value : Double} (canonical : value.IsCanonical) : IsJson (.float value)
  | text (value : String) : IsJson (.text value)
  | list {items : List Datum} (each : ∀ x ∈ items, IsJson x) : IsJson (.list items)
  | object {entries : List (String × Datum)} (distinct : (entries.map (·.1)).Nodup)
    (each : ∀ e ∈ entries, IsJson e.2) : IsJson (.object entries)

namespace Json

/-! ### Strings -/

section Strings

variable {n : Nat}

/-- Digits with zeros in front, the last one apart. -/
theorem padded_toDigits (k n : Nat) :
    List.replicate (k + 2 - (Nat.toDigits 16 n).length) '0' ++ Nat.toDigits 16 n =
      List.replicate (k + 1 - (Nat.toDigits 16 (n / 16)).length) '0' ++ Nat.toDigits 16 (n / 16) ++
        [(n % 16).digitChar] := by
  by_cases single : n < 16
  · rw [Nat.toDigits_of_lt_base single, Nat.div_eq_of_lt single, Nat.mod_eq_of_lt single]
    exact congrArg (· ++ [n.digitChar]) List.replicate_succ'
  · rw [Nat.toDigits_of_base_le (by decide) (Nat.le_of_not_lt single), List.length_append,
      List.length_singleton, List.append_assoc]
    congr 2
    omega

/-- A number is written with four digits. -/
theorem hex4_eq (small : n < 0x10000) : hex4 n = '\\' :: 'u' ::
    [(n / 4096).digitChar, (n / 256 % 16).digitChar, (n / 16 % 16).digitChar, (n % 16).digitChar] := by
  have first : Nat.toDigits 16 (n / 4096) = [(n / 4096).digitChar] :=
    Nat.toDigits_of_lt_base (by omega)
  unfold hex4
  simp only [padded_toDigits, Nat.div_div_eq_div_mul, Nat.reduceMul, first]
  rfl

theorem hexDigit?_digitChar : ∀ d < 16, hexDigit? d.digitChar = some d := by decide

theorem hexValue?_digits (small : n < 0x10000) :
    hexValue? [(n / 4096).digitChar, (n / 256 % 16).digitChar, (n / 16 % 16).digitChar,
      (n % 16).digitChar] = some n := by
  simp only [hexValue?, hexDigit?_digitChar _ (show n / 4096 < 16 by omega),
    hexDigit?_digitChar _ (Nat.mod_lt _ (show 16 > 0 by decide)), bind, Option.bind, pure]
  congr 1
  omega

theorem charOf_toNat (c : Char) : charOf c.toNat = c := by
  have valid : c.toNat < 0xD800 ∨ 0xDFFF < c.toNat ∧ c.toNat < 0x110000 := c.valid
  rw [charOf, if_neg (by omega), Char.ofNat_toNat]

/-- What is written for a character is a piece of a string that stands for it. -/
theorem exists_piece (c : Char) :
    ∃ piece : Piece, piece.IsWhole ∧ piece.text = stringChar true c ∧ piece.value = c := by
  have valid : c.toNat < 0xD800 ∨ 0xDFFF < c.toNat ∧ c.toNat < 0x110000 := c.valid
  have numbered (small : c.toNat < 0x10000) :
      ∃ piece : Piece, piece.IsWhole ∧ piece.text = hex4 c.toNat ∧ piece.value = c :=
    ⟨.numbered _ c.toNat (hexValue?_digits small), by rw [Piece.IsWhole]; omega, (hex4_eq small).symm,
      charOf_toNat c⟩
  unfold stringChar
  split
  · exact ⟨.simple '"' '"' rfl, trivial, rfl, rfl⟩
  · exact ⟨.simple '\\' '\\' rfl, trivial, rfl, rfl⟩
  · exact ⟨.simple 'n' '\n' rfl, trivial, rfl, rfl⟩
  · exact ⟨.simple 'r' '\r' rfl, trivial, rfl, rfl⟩
  · exact ⟨.simple 't' '\t' rfl, trivial, rfl, rfl⟩
  · exact ⟨.simple 'b' '\x08' rfl, trivial, rfl, rfl⟩
  · exact ⟨.simple 'f' '\x0c' rfl, trivial, rfl, rfl⟩
  · rename_i notQuote notBackslash _ _ _ _ _
    split
    · rename_i control
      exact numbered (by omega)
    · rename_i visible
      split
      · unfold Json.numbered
        dsimp only
        split
        · rename_i small
          exact numbered small
        · rename_i large
          have high : 0xD800 + (c.toNat - 0x10000) / 0x400 < 0x10000 := by omega
          have low : 0xDC00 + (c.toNat - 0x10000) % 0x400 < 0x10000 := by omega
          refine ⟨.paired _ _ _ _ (hexValue?_digits high) (hexValue?_digits low), ?_, ?_, ?_⟩
          · rw [Piece.IsWhole]
            omega
          · rw [hex4_eq high, hex4_eq low]
            rfl
          · have whole : 0x10000 + (0xD800 + (c.toNat - 0x10000) / 0x400 - 0xD800) * 0x400 +
                (0xDC00 + (c.toNat - 0x10000) % 0x400 - 0xDC00) = c.toNat := by omega
            rw [Piece.value, whole, charOf_toNat]
      · exact ⟨.plain c ⟨notQuote, notBackslash, Nat.le_of_not_lt visible⟩, trivial, rfl, rfl⟩

/-- What is written for a text is a string that stands for it. -/
theorem exists_quotation (s : String) :
    ∃ q : Quotation, q.IsWhole ∧ q.text = string true s ∧ q.value = s := by
  have pieces (cs : List Char) : ∃ ps : List Piece, (∀ p ∈ ps, p.IsWhole) ∧
      ps.flatMap Piece.text = cs.flatMap (stringChar true) ∧ ps.map Piece.value = cs := by
    induction cs with
    | nil => exact ⟨[], by simp, rfl, rfl⟩
    | cons c cs ih =>
      obtain ⟨p, whole, text, value⟩ := exists_piece c
      obtain ⟨ps, areWhole, texts, values⟩ := ih
      exact ⟨p :: ps, by simpa [whole] using areWhole, by simp [text, texts], by simp [value, values]⟩
  obtain ⟨ps, areWhole, texts, values⟩ := pieces s.toList
  refine ⟨⟨ps⟩, areWhole, ?_, ?_⟩
  · rw [Quotation.text, Quotation.body, texts]
    rfl
  · rw [Quotation.value, values, String.ofList_toList]

end Strings

/-! ### Lists and objects -/

def Gap.space : Gap := ⟨[' '], by simp [isGap]⟩

/-- Items with a comma and a space in front of each. -/
def Items.spaced : List Form → Items
  | [] => .close
  | f :: fs => .item .space f .none (spaced fs)

def Form.listOf : List Form → Form
  | [] => .list .none .close
  | f :: fs => .list .none (.item .none f .none (Items.spaced fs))

/-- Members with a comma and a space in front of each, and a space behind each colon. -/
def Members.spaced : List (Quotation × Form) → Members
  | [] => .close
  | (key, f) :: rest => .member .space key .none .space f .none (spaced rest)

def Form.objectOf : List (Quotation × Form) → Form
  | [] => .object .none .close
  | (key, f) :: rest => .object .none (.member .none key .none .space f .none (Members.spaced rest))

/-- The layout of messages: a single line in ASCII. -/
def onLine : Layout := ⟨true, false⟩

theorem intercalate_cons {α : Type} (separator x : List α) (xs : List (List α)) :
    separator.intercalate (x :: xs) = x ++ xs.flatMap (separator ++ ·) := by
  induction xs generalizing x with
  | nil => simp [List.intercalate]
  | cons y xs ih =>
    have further : separator.intercalate (x :: y :: xs) =
        x ++ (separator ++ separator.intercalate (y :: xs)) := by
      simp [List.intercalate, List.intersperse]
    rw [further, ih, List.flatMap_cons, List.append_assoc]

theorem enclose_cons (depth : Nat) (opening closing : Char) (x : List Char) (xs : List (List Char)) :
    onLine.enclose depth opening closing (x :: xs) =
      opening :: (x ++ (xs.flatMap ([',', ' '] ++ ·) ++ [closing])) := by
  have noLine (depth : Nat) : onLine.line depth = [] := rfl
  simp only [Layout.enclose, noLine, List.isEmpty_cons, Bool.false_eq_true, if_false,
    List.append_nil]
  have separator : (if onLine.indented = true then [','] else [',', ' ']) = [',', ' '] := rfl
  rw [separator, intercalate_cons]
  simp

theorem Items.text_spaced (fs : List Form) :
    (spaced fs).text false = (fs.map Form.text).flatMap ([',', ' '] ++ ·) ++ [']'] := by
  induction fs with
  | nil => rfl
  | cons f fs ih =>
    rw [spaced, text, ih]
    simp [comma, Gap.space, Gap.none, Gap.text]

theorem Form.text_listOf (depth : Nat) (fs : List Form) :
    (listOf fs).text = onLine.enclose depth '[' ']' (fs.map text) := by
  cases fs with
  | nil => rfl
  | cons f fs =>
    rw [listOf, text, Items.text, Items.text_spaced, List.map_cons, enclose_cons]
    simp [comma, Gap.none, Gap.text]

/-- The text of a member. -/
def memberText (member : Quotation × Form) : List Char := member.1.text ++ [':', ' '] ++ member.2.text

theorem Members.text_spaced (members : List (Quotation × Form)) :
    (spaced members).text false =
      (members.map memberText).flatMap ([',', ' '] ++ ·) ++ ['\x7d'] := by
  induction members with
  | nil => rfl
  | cons member members ih =>
    rw [spaced, text, ih]
    simp [comma, memberText, Gap.space, Gap.none, Gap.text]

theorem Form.text_objectOf (depth : Nat) (members : List (Quotation × Form)) :
    (objectOf members).text = onLine.enclose depth '\x7b' '\x7d' (members.map memberText) := by
  cases members with
  | nil => rfl
  | cons member members =>
    rw [objectOf, text, Members.text, Members.text_spaced, List.map_cons, enclose_cons]
    simp [comma, memberText, Gap.space, Gap.none, Gap.text]

theorem Items.values_spaced (fs : List Form) : (spaced fs).values = fs.map Form.value := by
  induction fs with
  | nil => rfl
  | cons f fs ih => rw [spaced, values, ih, List.map_cons]

theorem Form.value_listOf (fs : List Form) : (listOf fs).value = .list (fs.map value) := by
  cases fs with
  | nil => rfl
  | cons f fs => rw [listOf, value, Items.values, Items.values_spaced, List.map_cons]

theorem Members.entries_spaced (members : List (Quotation × Form)) :
    (spaced members).entries = members.map fun m => (m.1.value, m.2.value) := by
  induction members with
  | nil => rfl
  | cons member members ih => rw [spaced, entries, ih, List.map_cons]

theorem Form.value_objectOf (members : List (Quotation × Form)) : (objectOf members).value =
    .object (Assoc.ofList (members.map fun m => (m.1.value, m.2.value))) := by
  cases members with
  | nil => rfl
  | cons member members =>
    rw [objectOf, value, Members.entries, Members.entries_spaced, List.map_cons]

theorem Items.areWhole_spaced {fs : List Form} (whole : ∀ f ∈ fs, f.IsWhole) :
    (spaced fs).AreWhole := by
  induction fs with
  | nil => trivial
  | cons f fs ih =>
    exact ⟨whole f (List.mem_cons_self ..), ih fun f member => whole f (List.mem_cons_of_mem _ member)⟩

theorem Form.isWhole_listOf {fs : List Form} (whole : ∀ f ∈ fs, f.IsWhole) : (listOf fs).IsWhole := by
  cases fs with
  | nil => trivial
  | cons f fs => exact Items.areWhole_spaced whole

theorem Members.areWhole_spaced {members : List (Quotation × Form)}
    (whole : ∀ m ∈ members, m.1.IsWhole ∧ m.2.IsWhole) : (spaced members).AreWhole := by
  induction members with
  | nil => trivial
  | cons member members ih =>
    obtain ⟨isKey, isValue⟩ := whole member (List.mem_cons_self ..)
    exact ⟨isKey, isValue, ih fun m inside => whole m (List.mem_cons_of_mem _ inside)⟩

theorem Form.isWhole_objectOf {members : List (Quotation × Form)}
    (whole : ∀ m ∈ members, m.1.IsWhole ∧ m.2.IsWhole) : (objectOf members).IsWhole := by
  cases members with
  | nil => trivial
  | cons member members => exact Members.areWhole_spaced whole

/-! ### What is written -/

/-- A form that is written for a value and stands for it. -/
def IsFormOf (f : Form) (depth : Nat) (d : Datum) : Prop :=
  f.IsWhole ∧ f.text = write onLine depth d ∧ f.value = d

theorem exists_forms {depth : Nat} {items : List Datum}
    (each : ∀ x ∈ items, ∃ f, IsFormOf f depth x) : ∃ fs : List Form,
      (∀ f ∈ fs, f.IsWhole) ∧ fs.map Form.text = writeItems onLine depth items ∧
        fs.map Form.value = items := by
  induction items with
  | nil => exact ⟨[], by simp, rfl, rfl⟩
  | cons x items ih =>
    obtain ⟨f, whole, text, value⟩ := each x (List.mem_cons_self ..)
    obtain ⟨fs, areWhole, texts, values⟩ := ih fun y member => each y (List.mem_cons_of_mem _ member)
    exact ⟨f :: fs, by simpa [whole] using areWhole, by simp [text, texts, writeItems],
      by simp [value, values]⟩

theorem exists_members {depth : Nat} {entries : List (String × Datum)}
    (each : ∀ e ∈ entries, ∃ f, IsFormOf f depth e.2) : ∃ members : List (Quotation × Form),
      (∀ m ∈ members, m.1.IsWhole ∧ m.2.IsWhole) ∧
        members.map memberText =
          writeEntries onLine depth (entries.map fun (k, v) => (.text k, v)) ∧
        (members.map fun m => (m.1.value, m.2.value)) = entries := by
  induction entries with
  | nil => exact ⟨[], by simp, rfl, rfl⟩
  | cons e entries ih =>
    obtain ⟨name, d⟩ := e
    obtain ⟨f, whole, text, value⟩ := each (name, d) (List.mem_cons_self ..)
    obtain ⟨key, isWhole, keyText, keyValue⟩ := exists_quotation name
    obtain ⟨members, areWhole, texts, values⟩ :=
      ih fun other member => each other (List.mem_cons_of_mem _ member)
    refine ⟨(key, f) :: members, by simpa [whole, isWhole] using areWhole, ?_,
      by simp [keyValue, value, values]⟩
    rw [List.map_cons, List.map_cons, writeEntries, texts, memberText, keyText, text]
    rfl

/-- What is written for a value that JSON expresses is a form of it. -/
theorem exists_form {d : Datum} (json : d.IsJson) (depth : Nat) : ∃ f, IsFormOf f depth d := by
  induction json generalizing depth with
  | null => exact ⟨.word "null".toList .null (by simp [named]), trivial, rfl, rfl⟩
  | bool b =>
    cases b with
    | true => exact ⟨.word "true".toList (.bool true) (by simp [named]), trivial, rfl, rfl⟩
    | false => exact ⟨.word "false".toList (.bool false) (by simp [named]), trivial, rfl, rfl⟩
  | int isShort =>
    obtain ⟨n, text, value⟩ := exists_numeral_of_int isShort
    exact ⟨.number n, trivial, text, value⟩
  | @float d canonical =>
    cases d with
    | nan => exact ⟨.word "NaN".toList (.float .nan) (by simp [named]), trivial, rfl, rfl⟩
    | infinite negative =>
      cases negative with
      | true =>
        exact ⟨.word "-Infinity".toList (.float (.infinite true)) (by simp [named]), trivial, rfl, rfl⟩
      | false =>
        exact ⟨.word "Infinity".toList (.float (.infinite false)) (by simp [named]), trivial, rfl, rfl⟩
    | finite negative m e =>
      obtain ⟨n, text, value⟩ := exists_numeral_of_isCanonical canonical
      exact ⟨.number n, trivial, text, value⟩
  | text s =>
    obtain ⟨q, whole, text, value⟩ := exists_quotation s
    exact ⟨.quoted q, whole, text, congrArg Datum.text value⟩
  | list _ ih =>
    obtain ⟨fs, whole, texts, values⟩ := exists_forms fun x member => ih x member (depth + 1)
    exact ⟨.listOf fs, Form.isWhole_listOf whole, by rw [Form.text_listOf depth, texts]; rfl,
      by rw [Form.value_listOf, values]⟩
  | object distinct _ ih =>
    obtain ⟨members, whole, texts, values⟩ := exists_members fun e member => ih e member (depth + 1)
    exact ⟨.objectOf members, Form.isWhole_objectOf whole,
      by rw [Form.text_objectOf depth, texts]; rfl,
      by rw [Form.value_objectOf, values, Assoc.ofList_of_nodup distinct]⟩

/-- A value that is written is read back. -/
theorem read_line {d : Datum} (json : d.IsJson) : read (line d).toList = .ok d := by
  obtain ⟨f, whole, text, value⟩ := exists_form json 0
  have document : (line d).toList = Document.text ⟨.none, f, .none⟩ := by
    rw [line, String.toList_ofList, Document.text, text]
    simp [Gap.none, Gap.text, onLine]
  rw [document, read_text _ whole, value]

theorem unwritableItem?_eq_none {items : List Datum} (each : ∀ x ∈ items, unwritable? x = none) :
    unwritableItem? items = none := by
  induction items with
  | nil => rfl
  | cons x items ih =>
    rw [unwritableItem?, each x (List.mem_cons_self ..),
      ih fun y member => each y (List.mem_cons_of_mem _ member)]
    rfl

theorem unwritableMember?_eq_none {entries : List (String × Datum)}
    (each : ∀ e ∈ entries, unwritable? e.2 = none) :
    unwritableMember? (entries.map fun (k, v) => (.text k, v)) = none := by
  induction entries with
  | nil => rfl
  | cons e entries ih =>
    rw [List.map_cons, unwritableMember?, each e (List.mem_cons_self ..),
      ih fun other member => each other (List.mem_cons_of_mem _ member)]
    rfl

/-- A value that JSON expresses can be sent. -/
theorem unwritable?_of_isJson {d : Datum} (json : d.IsJson) : unwritable? d = none := by
  induction json with
  | null | bool | float | text => rfl
  | int isShort => exact if_neg (by simpa [isHuge] using isShort)
  | list _ ih => exact unwritableItem?_eq_none ih
  | object _ _ ih => exact unwritableMember?_eq_none ih

theorem compact_of_isJson {d : Datum} (json : d.IsJson) : compact d = .ok (line d) := by
  rw [compact, unwritable?_of_isJson json]

/-! ### What is read -/

/-- A numeral stands for a value that JSON expresses. -/
theorem Numeral.isJson (n : Numeral) : n.value.IsJson := by
  unfold Numeral.value
  split
  · rename_i isWhole
    obtain ⟨noFraction, noExponent⟩ : n.fraction = [] ∧ n.exponent = none := by
      simpa [Numeral.isWhole] using isWhole
    have bound := naturalOf_lt fun c member => n.areDigits c (List.mem_append_left _ member)
    have size : ((if n.isNegative then -1 else 1) * (naturalOf n.whole : Int)).natAbs =
        naturalOf n.whole := by
      split <;> omega
    refine .int ?_
    rw [size]
    exact ((Nat.length_toDigits_le_iff (by decide) (List.length_pos_iff.mpr n.isGiven)).mpr bound).trans
      (n.isShort noFraction noExponent)
  · rw [Numeral.doubleOf_text]
    exact .float (Double.isCanonical_ofDecimal ..)

mutual

theorem Form.isJson : (f : Form) → f.value.IsJson
  | .word name value isNamed => by
    simp only [named, List.mem_cons, List.not_mem_nil, or_false, Prod.mk.injEq] at isNamed
    rcases isNamed with ⟨-, rfl⟩ | ⟨-, rfl⟩ | ⟨-, rfl⟩ | ⟨-, rfl⟩ | ⟨-, rfl⟩ | ⟨-, rfl⟩
    · exact .null
    · exact .bool true
    · exact .bool false
    all_goals exact .float trivial
  | .number n => n.isJson
  | .quoted q => .text q.value
  | .list _ items => .list (Items.areJson items)
  | .object _ members => .object (Assoc.nodup_keys_ofList _) fun (_, _) member =>
    Members.areJson members _ (Assoc.mem_of_mem_ofList member)

theorem Items.areJson : (items : Items) → ∀ x ∈ items.values, x.IsJson
  | .close => by simp [Items.values]
  | .item _ value _ rest => by
    intro x member
    rcases List.mem_cons.mp member with rfl | later
    · exact Form.isJson value
    · exact Items.areJson rest x later

theorem Members.areJson : (members : Members) → ∀ e ∈ members.entries, e.2.IsJson
  | .close => by simp [Members.entries]
  | .member _ key _ _ value _ rest => by
    intro e member
    rcases List.mem_cons.mp member with rfl | later
    · exact Form.isJson value
    · exact Members.areJson rest e later

end

/-- Only values that JSON expresses are read. -/
theorem isJson_of_read {text : List Char} {d : Datum} (isRead : read text = .ok d) : d.IsJson := by
  obtain ⟨document, -, rfl⟩ := exists_document_of_read isRead
  exact document.root.isJson

end Json
end InlineQuery
