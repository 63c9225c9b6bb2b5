import InlineQuery.Proofs.Data.Assoc
import InlineQuery.Proofs.Json.Numerals
import InlineQuery.Proofs.Json.Portable

/-!
Every document is read with its value, if its strings are whole: a number in a string that is the first
half of a pair would join with one that follows it.
-/

namespace InlineQuery.Json

/-- Whether a piece of a string stands for its character whatever follows it. -/
def Piece.IsWhole : Piece → Prop
  | .numbered _ code _ => code < 0xD800 ∨ 0xDBFF < code
  | .paired _ _ first second _ _ =>
    (0xD800 ≤ first ∧ first ≤ 0xDBFF) ∧ 0xDC00 ≤ second ∧ second ≤ 0xDFFF
  | _ => True

def Quotation.IsWhole (q : Quotation) : Prop := ∀ piece ∈ q.pieces, piece.IsWhole

mutual

def Form.IsWhole : Form → Prop
  | .quoted q => q.IsWhole
  | .list _ items => items.AreWhole
  | .object _ members => members.AreWhole
  | _ => True

def Items.AreWhole : Items → Prop
  | .close => True
  | .item _ value _ rest => value.IsWhole ∧ rest.AreWhole

def Members.AreWhole : Members → Prop
  | .close => True
  | .member _ key _ _ value _ rest => key.IsWhole ∧ value.IsWhole ∧ rest.AreWhole

end

section Strings

variable {start offset skip n : Nat} {cs rest : List Char} {value : Char}

theorem stringBody_of_skip (enough : skip ≤ cs.length) : stringBody start skip offset cs =
    stringBody start 0 (offset + skip) (cs.drop skip) := by
  induction skip generalizing offset cs with
  | zero => rfl
  | succ skip ih =>
    cases cs with
    | nil => exact absurd enough (Nat.not_succ_le_zero _)
    | cons c cs =>
      rw [stringBody, ih (Nat.le_of_succ_le_succ enough), Nat.add_assoc, Nat.add_comm 1]
      rfl

/-- Behind an escape the string goes on. -/
theorem stringBody_escape (escaped : escape start ⟨offset + 1, cs⟩ = .ok (value, n))
    (enough : n ≤ cs.length) : stringBody start 0 offset ('\\' :: cs) =
      (stringBody start 0 (offset + (n + 1)) (cs.drop n)).map fun (vs, left) => (value :: vs, left) := by
  rw [stringBody]
  simp only [Nat.add_comm n 1, ← Nat.add_assoc, ← stringBody_of_skip enough, escaped]
  rfl

theorem escape_simple {mark : Char} (means : simpleEscape? mark = some value) :
    escape start ⟨offset, mark :: rest⟩ = .ok (value, 1) := by
  unfold escape
  split
  · rename_i none
    cases none
  · rename_i digits same
    cases same
    cases means
  · rename_i c others notU same
    cases same
    rw [means]

/-- Four digits and more behind them are a number. -/
theorem escape_numbered {digits : List Char} {code : Nat} (means : hexValue? digits = some code)
    (apart : code < 0xD800 ∨ 0xDBFF < code) (more : rest ≠ []) :
    escape start ⟨offset, 'u' :: (digits ++ rest)⟩ = .ok (charOf code, 5) := by
  obtain ⟨a, b, c, d, i, j, k, l, rfl, -⟩ := hexValue?_parts means
  obtain ⟨first, others, rfl⟩ := List.exists_cons_of_ne_nil more
  have single : ¬ (0xD800 ≤ code ∧ code ≤ 0xDBFF ∧ 6 < (first :: others).length ∧
      (first :: others).take 2 = ['\\', 'u']) := by omega
  simp only [escape, List.cons_append, List.nil_append, List.length_cons, List.take_succ_cons,
    List.take_zero, List.drop_succ_cons, List.drop_zero, means]
  rw [if_neg (by omega)]
  exact if_neg single

/-- Two numbers that are the halves of a pair are one character. -/
theorem escape_paired {high low : List Char} {first second : Nat}
    (isFirst : hexValue? high = some first) (isSecond : hexValue? low = some second)
    (firstHalf : 0xD800 ≤ first ∧ first ≤ 0xDBFF) (secondHalf : 0xDC00 ≤ second ∧ second ≤ 0xDFFF)
    (more : rest ≠ []) :
    escape start ⟨offset, 'u' :: (high ++ '\\' :: 'u' :: (low ++ rest))⟩ =
      .ok (charOf (0x10000 + (first - 0xD800) * 0x400 + (second - 0xDC00)), 11) := by
  obtain ⟨a, b, c, d, i, j, k, l, rfl, -⟩ := hexValue?_parts isFirst
  obtain ⟨a', b', c', d', i', j', k', l', rfl, -⟩ := hexValue?_parts isSecond
  obtain ⟨next, others, rfl⟩ := List.exists_cons_of_ne_nil more
  simp only [escape, List.cons_append, List.nil_append, List.length_cons, List.take_succ_cons,
    List.take_zero, List.drop_succ_cons, List.drop_zero, isFirst, isSecond]
  rw [if_neg (by omega), if_pos ⟨firstHalf.1, firstHalf.2, by omega, trivial⟩, if_pos secondHalf]

theorem stringBody_piece (piece : Piece) (whole : piece.IsWhole) (more : rest ≠ []) :
    stringBody start 0 offset (piece.text ++ rest) =
      (stringBody start 0 (offset + piece.text.length) rest).map
        fun (vs, left) => (piece.value :: vs, left) := by
  cases piece with
  | plain c stands =>
    obtain ⟨notQuote, notBackslash, visible⟩ := stands
    simp [Piece.text, Piece.value, stringBody, notQuote, notBackslash, Nat.not_lt.mpr visible]
  | simple mark value means =>
    exact stringBody_escape (escape_simple means) (Nat.le_add_left ..)
  | numbered digits code means =>
    have length : digits.length = 4 := by
      obtain ⟨a, b, c, d, i, j, k, l, rfl, -⟩ := hexValue?_parts means
      rfl
    have read : stringBody start 0 offset _ = _ := stringBody_escape
      (escape_numbered means whole more) (by simp [length])
    have behind : ('u' :: (digits ++ rest)).drop 5 = rest := by
      rw [List.drop_succ_cons, ← length, List.drop_left]
    rw [behind] at read
    simpa [Piece.text, Piece.value, length] using read
  | paired high low first second isFirst isSecond =>
    have lengths : high.length = 4 ∧ low.length = 4 := by
      obtain ⟨a, b, c, d, i, j, k, l, rfl, -⟩ := hexValue?_parts isFirst
      obtain ⟨a', b', c', d', i', j', k', l', rfl, -⟩ := hexValue?_parts isSecond
      exact ⟨rfl, rfl⟩
    have read : stringBody start 0 offset _ = _ := stringBody_escape
      (escape_paired isFirst isSecond whole.1 whole.2 more) (by simp [lengths]; omega)
    have behind : ('u' :: (high ++ '\\' :: 'u' :: (low ++ rest))).drop 11 = rest := by
      have regrouped : 'u' :: (high ++ '\\' :: 'u' :: (low ++ rest)) =
          ('u' :: high ++ '\\' :: 'u' :: low) ++ rest := by simp
      rw [regrouped, List.drop_left' (by simp [lengths])]
    rw [behind] at read
    simpa [Piece.text, Piece.value, lengths] using read

theorem stringBody_body (q : Quotation) (whole : q.IsWhole) (offset : Nat) :
    stringBody start 0 offset (q.body ++ rest) =
      .ok (q.pieces.map Piece.value, ⟨offset + q.body.length, rest⟩) := by
  obtain ⟨pieces⟩ := q
  induction pieces generalizing offset with
  | nil => rfl
  | cons piece pieces ih =>
    have later := ih (offset + piece.text.length)
      fun p member => whole p (List.mem_cons_of_mem _ member)
    have parts : Quotation.body ⟨piece :: pieces⟩ = piece.text ++ Quotation.body ⟨pieces⟩ := by
      simp [Quotation.body]
    rw [parts, List.append_assoc, stringBody_piece piece (whole piece (List.mem_cons_self ..))
      (by simp [Quotation.body]), later, List.length_append, Nat.add_assoc]
    rfl

/-- A string is read with its value, whatever follows it. -/
theorem readString_text (q : Quotation) (whole : q.IsWhole) (offset : Nat) :
    readString ⟨offset, q.text ++ rest⟩ = .ok (q.value, ⟨offset + q.text.length, rest⟩) := by
  have read : stringBody offset 0 (offset + 1) (q.body ++ rest) = _ :=
    stringBody_body q whole (offset + 1)
  have length : offset + 1 + q.body.length = offset + q.text.length := by
    rw [Quotation.text, List.length_cons]
    omega
  have behind : (q.text ++ rest).drop 1 = q.body ++ rest := rfl
  simp only [readString, behind, read, length]
  rfl

end Strings

/-- Spacing behind spacing. -/
def Gap.append (first second : Gap) : Gap :=
  ⟨first.text ++ second.text, fun c member =>
    (List.mem_append.mp member).elim (first.property c) (second.property c)⟩

theorem Gap.text_append (first second : Gap) : (first.append second).text = first.text ++ second.text :=
  rfl

theorem Items.length_text (items : Items) : 0 < (items.text false).length := by
  cases items <;> simp [text, comma]

theorem Members.length_text (members : Members) : 0 < (members.text false).length := by
  cases members <;> simp [text, comma]

section Values

variable {t rest : List Char} {offset : Nat}

def StopsGap (cs : List Char) : Prop := ∀ c ∈ cs.head?, isGap c = false

theorem stopsGap_cons {c : Char} (visible : isGap c = false) : StopsGap (c :: t) := by
  rintro _ ⟨⟩
  exact visible

theorem skipGap_text (gap : Gap) (stops : StopsGap t) (offset : Nat) :
    Rest.skipGap ⟨offset, gap.text ++ t⟩ = ⟨offset + gap.text.length, t⟩ := by
  have taken : (gap.text ++ t).takeWhile isGap = gap.text := by
    rw [Gap.text, List.takeWhile_append_of_pos gap.property]
    cases t with
    | nil => simp
    | cons c t => simp [stops c rfl]
  rw [Rest.skipGap, Rest.drop, taken, List.drop_left]

theorem drop_one (c : Char) (t : List Char) (offset : Nat) :
    Rest.drop ⟨offset, c :: t⟩ 1 = ⟨offset + 1, t⟩ := rfl

/-- The first character of a number is a digit or a minus sign with a digit behind it. -/
theorem Numeral.head_text (n : Numeral) : ∃ c r, n.text = c :: r ∧
    (c.isDigit = true ∨ c = '-' ∧ ∃ d r', r = d :: r' ∧ d.isDigit = true) := by
  obtain ⟨first, others, starts⟩ := List.exists_cons_of_ne_nil n.isGiven
  have digit := n.areDigits first (by simp [starts])
  unfold Numeral.text Numeral.sign
  cases n.isNegative with
  | true => exact ⟨'-', _, rfl, .inr ⟨rfl, first, _, by rw [starts]; rfl, digit⟩⟩
  | false => exact ⟨first, _, by rw [starts]; rfl, .inl digit⟩

/-- A value starts with a character that is no spacing, no closing bracket and no mark of encoding. -/
theorem Form.head_text (f : Form) :
    ∃ c r, f.text = c :: r ∧ isGap c = false ∧ c ≠ ']' ∧ c ≠ '\ufeff' := by
  cases f with
  | word name value isNamed =>
    simp only [named, List.mem_cons, List.not_mem_nil, or_false, Prod.mk.injEq] at isNamed
    rcases isNamed with ⟨rfl, _⟩ | ⟨rfl, _⟩ | ⟨rfl, _⟩ | ⟨rfl, _⟩ | ⟨rfl, _⟩ | ⟨rfl, _⟩ <;>
      exact ⟨_, _, rfl, by decide, by decide, by decide⟩
  | number n =>
    obtain ⟨c, r, text, isFirst⟩ := n.head_text
    refine ⟨c, r, text, ?_⟩
    rcases isFirst with digit | ⟨rfl, -⟩
    · simp [isGap, ne_of_isDigit digit (d := ' ') rfl, ne_of_isDigit digit (d := '\t') rfl,
        ne_of_isDigit digit (d := '\n') rfl, ne_of_isDigit digit (d := '\r') rfl,
        ne_of_isDigit digit (d := ']') rfl, ne_of_isDigit digit (d := '\ufeff') rfl]
    · decide
  | quoted q => exact ⟨_, _, rfl, by decide, by decide, by decide⟩
  | list inner items => exact ⟨_, _, rfl, by decide, by decide, by decide⟩
  | object inner members => exact ⟨_, _, rfl, by decide, by decide, by decide⟩

theorem readValue_word {name : List Char} {value : Datum} (isNamed : (name, value) ∈ named)
    (fuel : Nat) : readValue (fuel + 1) ⟨offset, name ++ rest⟩ =
      .ok (value, ⟨offset + name.length, rest⟩) := by
  simp only [named, List.mem_cons, List.not_mem_nil, or_false, Prod.mk.injEq] at isNamed
  rcases isNamed with ⟨rfl, rfl⟩ | ⟨rfl, rfl⟩ | ⟨rfl, rfl⟩ | ⟨rfl, rfl⟩ | ⟨rfl, rfl⟩ | ⟨rfl, rfl⟩ <;> rfl

/-- No name starts like a number. -/
theorem find?_named_text (n : Numeral) (rest : List Char) :
    (named.find? fun (name, _) => name.isPrefixOf (n.text ++ rest)) = none := by
  have names : ∀ entry ∈ named, ∃ first second others, entry.1 = first :: second :: others ∧
      first.isDigit = false ∧ (first = '-' → second.isDigit = false) := by
    intro entry isNamed
    simp only [named, List.mem_cons, List.not_mem_nil, or_false] at isNamed
    rcases isNamed with rfl | rfl | rfl | rfl | rfl | rfl <;>
      exact ⟨_, _, _, rfl, by decide, by decide⟩
  obtain ⟨c, r, text, isFirst⟩ := n.head_text
  rw [List.find?_eq_none]
  intro entry isNamed starts
  obtain ⟨first, second, others, name, noDigit, signed⟩ := names entry isNamed
  obtain ⟨behind, same⟩ := List.isPrefixOf_iff_prefix.mp starts
  rw [name, text, List.cons_append, List.cons_append, List.cons_append, List.cons.injEq] at same
  obtain ⟨rfl, same⟩ := same
  rcases isFirst with digit | ⟨rfl, d, r', rfl, digit⟩
  · rw [digit] at noDigit
    cases noDigit
  · rw [List.cons_append, List.cons.injEq] at same
    rw [← same.1, signed rfl] at digit
    cases digit

theorem readValue_number (n : Numeral) (ends : EndsNumber rest) (fuel : Nat) :
    readValue (fuel + 1) ⟨offset, n.text ++ rest⟩ =
      .ok (n.value, ⟨offset + n.text.length, rest⟩) := by
  obtain ⟨c, r, text, isFirst⟩ := n.head_text
  have apart (other : Char) (noDigit : other.isDigit = false) (noSign : other ≠ '-') : c ≠ other := by
    rintro rfl
    rcases isFirst with digit | ⟨rfl, -⟩
    · rw [digit] at noDigit
      cases noDigit
    · exact noSign rfl
  have noName := find?_named_text n rest
  rw [← readNumber_text n ends, readValue]
  rw [text] at noName ⊢
  split
  · rename_i same
    cases same
    exact absurd rfl (apart '"' (by decide) (by decide))
  · rename_i same
    cases same
    exact absurd rfl (apart '\x7b' (by decide) (by decide))
  · rename_i same
    cases same
    exact absurd rfl (apart '[' (by decide) (by decide))
  · simp only [noName]

theorem readValue_quoted (q : Quotation) (whole : q.IsWhole) (fuel : Nat) :
    readValue (fuel + 1) ⟨offset, q.text ++ rest⟩ =
      .ok ((Form.quoted q).value, ⟨offset + q.text.length, rest⟩) := by
  have read : readString ⟨offset, q.text ++ rest⟩ = _ := readString_text q whole offset
  rw [Quotation.text] at read ⊢
  simp only [List.cons_append] at read ⊢
  rw [readValue]
  simp only [read]
  rfl

theorem endsNumber_of_gap {g : Gap} (ends : EndsNumber t) : EndsNumber (g.text ++ t) := by
  obtain ⟨spaces, areGaps⟩ := g
  cases spaces with
  | nil => exact ends
  | cons c spaces =>
    rintro _ ⟨⟩
    have isGap := areGaps c (List.mem_cons_self ..)
    simp only [Json.isGap, Bool.or_eq_true, beq_iff_eq] at isGap
    rcases isGap with ((rfl | rfl) | rfl) | rfl <;> decide

/-- What stands behind an item or a member: a comma or a closing bracket. -/
inductive IsSeparated : List Char → Prop
  | comma (t : List Char) : IsSeparated (',' :: t)
  | bracket (t : List Char) : IsSeparated (']' :: t)
  | brace (t : List Char) : IsSeparated ('\x7d' :: t)

theorem Items.isSeparated (items : Items) (rest : List Char) :
    IsSeparated (items.text false ++ rest) := by
  cases items with
  | close => exact .bracket _
  | item => exact .comma _

theorem Members.isSeparated (members : Members) (rest : List Char) :
    IsSeparated (members.text false ++ rest) := by
  cases members with
  | close => exact .brace _
  | member => exact .comma _

theorem IsSeparated.stopsGap (separated : IsSeparated t) : StopsGap t := by
  cases separated <;> exact stopsGap_cons (by decide)

theorem IsSeparated.endsNumber (separated : IsSeparated t) (g : Gap) :
    EndsNumber (g.text ++ t) := by
  refine endsNumber_of_gap ?_
  cases separated <;> rintro _ ⟨⟩ <;> decide

end Values

/-- What a reader with so many calls makes of values, items and members that are short enough. -/
structure AreAccepted (fuel : Nat) : Prop where
  value : ∀ {f : Form}, f.IsWhole → 2 * f.text.length ≤ fuel → ∀ {rest}, EndsNumber rest →
    ∀ offset, readValue fuel ⟨offset, f.text ++ rest⟩ =
      .ok (f.value, ⟨offset + f.text.length, rest⟩)
  items : ∀ {f : Form} {behind : Gap} {more : Items}, f.IsWhole → more.AreWhole →
    2 * (f.text ++ behind.text ++ more.text false).length ≤ fuel → ∀ rest offset,
    elements fuel ⟨offset, f.text ++ (behind.text ++ (more.text false ++ rest))⟩ =
      .ok (f.value :: more.values,
        ⟨offset + (f.text ++ behind.text ++ more.text false).length, rest⟩)
  members : ∀ {key : Quotation} {beforeColon afterColon : Gap} {f : Form} {behind : Gap}
    {more : Members}, key.IsWhole → f.IsWhole → more.AreWhole →
    2 * (key.text ++ beforeColon.text ++ [':'] ++ afterColon.text ++ f.text ++ behind.text ++
      more.text false).length ≤ fuel → ∀ rest offset,
    Json.members fuel ⟨offset, key.text ++ (beforeColon.text ++ (':' :: (afterColon.text ++
      (f.text ++ (behind.text ++ (more.text false ++ rest))))))⟩ =
      .ok ((key.value, f.value) :: more.entries,
        ⟨offset + (key.text ++ beforeColon.text ++ [':'] ++ afterColon.text ++ f.text ++
          behind.text ++ more.text false).length, rest⟩)

namespace AreAccepted

variable {fuel : Nat} {rest : List Char}

theorem zero : AreAccepted 0 where
  value := by
    intro f _ enough
    obtain ⟨c, r, text, -⟩ := f.head_text
    rw [text, List.length_cons] at enough
    omega
  items := by
    intro f behind more _ _ enough
    obtain ⟨c, r, text, -⟩ := f.head_text
    simp only [text, List.length_append, List.length_cons] at enough
    omega
  members := by
    intro key beforeColon afterColon f behind more _ _ _ enough
    simp only [List.length_append, List.length_cons] at enough
    omega

theorem list_succ (accepted : AreAccepted fuel) {inner : Gap} {items : Items}
    (whole : (Form.list inner items).IsWhole)
    (enough : 2 * (Form.list inner items).text.length ≤ fuel + 1) (offset : Nat) :
    readValue (fuel + 1) ⟨offset, (Form.list inner items).text ++ rest⟩ =
      .ok ((Form.list inner items).value, ⟨offset + (Form.list inner items).text.length, rest⟩) := by
  have opened : (Form.list inner items).text ++ rest =
      '[' :: (inner.text ++ (items.text true ++ rest)) := by simp [Form.text]
  rw [opened, readValue]
  simp only [drop_one]
  cases items with
  | close =>
    have gap := skipGap_text inner (stopsGap_cons (t := rest) (c := ']') rfl) (offset + 1)
    simp only [Items.text, List.singleton_append, gap, List.head?_cons, if_true, drop_one]
    refine congrArg (fun stop => Except.ok (_, Rest.mk stop rest)) ?_
    simp only [Form.text, Items.text, List.length_append, List.length_cons, List.length_nil]
    omega
  | item before f behind more =>
    obtain ⟨c, r, text, visible, notClosing, -⟩ := f.head_text
    have spaced := skipGap_text (inner.append before)
      (t := f.text ++ (behind.text ++ (more.text false ++ rest)))
      (by rw [text]; exact stopsGap_cons visible) (offset + 1)
    have notClosed : (f.text ++ (behind.text ++ (more.text false ++ rest))).head? ≠ some ']' := by
      rw [text]
      simpa using notClosing
    rw [Gap.text_append, List.append_assoc] at spaced
    simp only [Items.text, comma, if_true, List.nil_append, List.append_assoc, spaced, notClosed,
      if_false]
    rw [accepted.items whole.1 whole.2 (by
      simp only [Form.text, Items.text, comma, if_true, List.length_append, List.length_cons,
        List.length_nil] at enough ⊢
      omega)]
    refine congrArg (fun stop => Except.ok (_, Rest.mk stop rest)) ?_
    simp only [Form.text, Items.text, comma, if_true, List.length_append, List.length_cons,
      List.length_nil]
    omega

theorem object_succ (accepted : AreAccepted fuel) {inner : Gap} {members : Members}
    (whole : (Form.object inner members).IsWhole)
    (enough : 2 * (Form.object inner members).text.length ≤ fuel + 1) (offset : Nat) :
    readValue (fuel + 1) ⟨offset, (Form.object inner members).text ++ rest⟩ =
      .ok ((Form.object inner members).value,
        ⟨offset + (Form.object inner members).text.length, rest⟩) := by
  have opened : (Form.object inner members).text ++ rest =
      '\x7b' :: (inner.text ++ (members.text true ++ rest)) := by simp [Form.text]
  rw [opened, readValue]
  simp only [drop_one]
  cases members with
  | close =>
    have gap := skipGap_text inner (stopsGap_cons (t := rest) (c := '\x7d') rfl) (offset + 1)
    simp only [Members.text, List.singleton_append, gap, List.head?_cons, if_true, drop_one]
    refine congrArg (fun stop => Except.ok (_, Rest.mk stop rest)) ?_
    simp only [Form.text, Members.text, List.length_append, List.length_cons, List.length_nil]
    omega
  | member before key beforeColon afterColon f behind more =>
    have spaced := skipGap_text (inner.append before) (t := key.text ++ (beforeColon.text ++
      (':' :: (afterColon.text ++ (f.text ++ (behind.text ++ (more.text false ++ rest)))))))
      (stopsGap_cons rfl) (offset + 1)
    have notClosed : (key.text ++ (beforeColon.text ++ (':' :: (afterColon.text ++ (f.text ++
        (behind.text ++ (more.text false ++ rest))))))).head? ≠ some '\x7d' := by
      simp [Quotation.text]
    rw [Gap.text_append, List.append_assoc] at spaced
    simp only [Members.text, comma, if_true, List.nil_append, List.cons_append, List.append_assoc,
      spaced, notClosed, if_false]
    rw [accepted.members whole.1 whole.2.1 whole.2.2 (by
      simp only [Form.text, Members.text, comma, if_true, List.length_append, List.length_cons,
        List.length_nil] at enough ⊢
      omega)]
    refine congrArg (fun stop => Except.ok (_, Rest.mk stop rest)) ?_
    simp only [Form.text, Members.text, comma, if_true, List.length_append, List.length_cons,
      List.length_nil]
    omega

theorem value_succ (accepted : AreAccepted fuel) {f : Form} (whole : f.IsWhole)
    (enough : 2 * f.text.length ≤ fuel + 1) (ends : EndsNumber rest) (offset : Nat) :
    readValue (fuel + 1) ⟨offset, f.text ++ rest⟩ =
      .ok (f.value, ⟨offset + f.text.length, rest⟩) := by
  cases f with
  | word name value isNamed => exact readValue_word isNamed fuel
  | number n => exact readValue_number n ends fuel
  | quoted q => exact readValue_quoted q whole fuel
  | list inner items => exact accepted.list_succ whole enough offset
  | object inner members => exact accepted.object_succ whole enough offset

theorem items_succ (accepted : AreAccepted fuel) {f : Form} {behind : Gap} {more : Items}
    (whole : f.IsWhole) (areWhole : more.AreWhole)
    (enough : 2 * (f.text ++ behind.text ++ more.text false).length ≤ fuel + 1) (rest : List Char)
    (offset : Nat) :
    elements (fuel + 1) ⟨offset, f.text ++ (behind.text ++ (more.text false ++ rest))⟩ =
      .ok (f.value :: more.values,
        ⟨offset + (f.text ++ behind.text ++ more.text false).length, rest⟩) := by
  have separated := more.isSeparated rest
  simp only [List.length_append] at enough ⊢
  rw [elements, accepted.value whole (by have := more.length_text; omega)
    (separated.endsNumber behind)]
  simp only [bind, Except.bind, pure, Except.pure, skipGap_text behind separated.stopsGap]
  cases more with
  | close =>
    refine congrArg (fun stop => Except.ok (_, Rest.mk stop rest)) ?_
    simp only [Items.text, List.length_cons, List.length_nil]
    omega
  | item before second last others =>
    obtain ⟨c, r, text, visible, -⟩ := second.head_text
    have gap := skipGap_text before (t := second.text ++ (last.text ++ (others.text false ++ rest)))
      (by rw [text]; exact stopsGap_cons visible)
    simp only [Items.text, comma, Bool.false_eq_true, if_false, List.append_assoc, List.nil_append,
      List.cons_append, drop_one, gap]
    rw [accepted.items areWhole.1 areWhole.2 (by
      simp only [Items.text, comma, Bool.false_eq_true, if_false, List.length_append,
        List.length_cons, List.length_nil] at enough ⊢
      omega)]
    refine congrArg (fun stop => Except.ok (_, Rest.mk stop rest)) ?_
    simp only [List.length_append, List.length_cons]
    omega

theorem members_succ (accepted : AreAccepted fuel) {key : Quotation} {beforeColon afterColon : Gap}
    {f : Form} {behind : Gap} {more : Members} (isKey : key.IsWhole) (whole : f.IsWhole)
    (areWhole : more.AreWhole) (enough : 2 * (key.text ++ beforeColon.text ++ [':'] ++
      afterColon.text ++ f.text ++ behind.text ++ more.text false).length ≤ fuel + 1)
    (rest : List Char) (offset : Nat) :
    Json.members (fuel + 1) ⟨offset, key.text ++ (beforeColon.text ++ (':' :: (afterColon.text ++
      (f.text ++ (behind.text ++ (more.text false ++ rest))))))⟩ =
      .ok ((key.value, f.value) :: more.entries,
        ⟨offset + (key.text ++ beforeColon.text ++ [':'] ++ afterColon.text ++ f.text ++
          behind.text ++ more.text false).length, rest⟩) := by
  have separated := more.isSeparated rest
  have quoted (cs : List Char) : (key.text ++ cs).head? = some '"' := rfl
  obtain ⟨first, others, text, visible, -⟩ := f.head_text
  have inside : StopsGap (f.text ++ (behind.text ++ (more.text false ++ rest))) := by
    rw [text]
    exact stopsGap_cons visible
  simp only [List.length_append] at enough ⊢
  rw [Json.members]
  simp only [bind, Except.bind, pure, Except.pure, throw, throwThe, MonadExceptOf.throw, quoted,
    ne_eq, not_true_eq_false, if_false, readString_text key isKey,
    skipGap_text beforeColon (stopsGap_cons (c := ':') rfl), List.head?_cons, drop_one,
    skipGap_text afterColon inside]
  rw [accepted.value whole (by have := more.length_text; omega) (separated.endsNumber behind)]
  simp only [skipGap_text behind separated.stopsGap]
  cases more with
  | close =>
    refine congrArg (fun stop => Except.ok (_, Rest.mk stop rest)) ?_
    simp only [Members.text, List.length_cons, List.length_nil]
    omega
  | member before second colonBefore colonAfter f' last others =>
    have gap := skipGap_text before (t := second.text ++ (colonBefore.text ++ (':' ::
      (colonAfter.text ++ (f'.text ++ (last.text ++ (others.text false ++ rest))))))) (stopsGap_cons rfl)
    simp only [Members.text, comma, Bool.false_eq_true, if_false, List.append_assoc, List.nil_append,
      List.cons_append, drop_one, gap]
    rw [accepted.members areWhole.1 areWhole.2.1 areWhole.2.2 (by
      simp only [Members.text, comma, Bool.false_eq_true, if_false, List.length_append,
        List.length_cons, List.length_nil] at enough ⊢
      omega)]
    refine congrArg (fun stop => Except.ok (_, Rest.mk stop rest)) ?_
    simp only [List.length_append, List.length_cons, List.length_nil]
    omega

theorem areAccepted (fuel : Nat) : AreAccepted fuel := by
  induction fuel with
  | zero => exact .zero
  | succ fuel ih =>
    exact ⟨fun whole enough _ ends => ih.value_succ whole enough ends, ih.items_succ, ih.members_succ⟩

end AreAccepted

/-- A document with whole strings is read with its value. -/
theorem read_text (d : Document) (whole : d.root.IsWhole) : read d.text = .ok d.root.value := by
  obtain ⟨c, r, text, visible, -, noMark⟩ := d.root.head_text
  have before : Rest.skipGap ⟨0, d.text⟩ = ⟨d.before.text.length, d.root.text ++ d.behind.text⟩ := by
    have gap := skipGap_text d.before (t := d.root.text ++ d.behind.text)
      (by rw [text]; exact stopsGap_cons visible) 0
    rwa [Nat.zero_add, ← List.append_assoc] at gap
  have behind (offset : Nat) : Rest.skipGap ⟨offset, d.behind.text⟩ =
      ⟨offset + d.behind.text.length, []⟩ := by
    have gap := skipGap_text d.behind (t := []) nofun offset
    rwa [List.append_nil] at gap
  have ends : EndsNumber d.behind.text := by
    have gap := endsNumber_of_gap (g := d.behind) (t := []) nofun
    rwa [List.append_nil] at gap
  have enough : 2 * d.root.text.length ≤ 2 * d.text.length + 2 := by
    simp only [Document.text, List.length_append]
    omega
  have unmarked : d.text.head? ≠ some '\ufeff' := by
    obtain ⟨⟨spaces, areGaps⟩, root, after⟩ := d
    cases spaces with
    | nil => simpa [Document.text, Gap.text, show root.text = c :: r from text] using noMark
    | cons space spaces =>
      have isGap := areGaps space (List.mem_cons_self ..)
      rintro ⟨⟩
      exact absurd isGap (by decide)
  simp only [read, bind, Except.bind, pure, Except.pure, throw, throwThe, MonadExceptOf.throw, unmarked,
    if_false, before, (AreAccepted.areAccepted _).value whole enough ends, behind, ne_eq,
    not_true_eq_false]

theorem PlainText.isWhole_quotation (w : PlainText) : w.quotation.IsWhole := by
  intro piece member
  obtain ⟨c, stands, -, rfl⟩ := List.mem_pmap.mp member
  trivial

theorem Members.areWhole_ofPlain (entries : List (PlainText × PlainText)) :
    (ofPlain entries).AreWhole := by
  induction entries with
  | nil => trivial
  | cons entry entries ih =>
    exact ⟨entry.1.isWhole_quotation, entry.2.isWhole_quotation, ih⟩

theorem PlainText.value_quotation (w : PlainText) : w.quotation.value = w.text := by
  simp [Quotation.value, quotation, List.map_pmap, Piece.value]

theorem Members.entries_ofPlain (entries : List (PlainText × PlainText)) :
    (ofPlain entries).entries = entries.map fun e => (e.1.text, .text e.2.text) := by
  induction entries with
  | nil => rfl
  | cons entry entries ih =>
    simp [ofPlain, Members.entries, Form.value, PlainText.value_quotation, ih]

/-- An object of texts is read as it is written. -/
theorem read_ofPlain (entries : List (PlainText × PlainText)) {text : List Char}
    (distinct : (entries.map (·.1.text)).Nodup) (written : (Document.ofPlain entries).text = text) :
    read text = .ok (.object (entries.map fun e => (e.1.text, .text e.2.text))) := by
  have keys : ((entries.map fun e => (e.1.text, Datum.text e.2.text)).map (·.1)).Nodup := by
    rw [List.map_map]
    exact distinct
  have isRead := read_text (.ofPlain entries) (Members.areWhole_ofPlain entries)
  rw [← written, isRead, Document.ofPlain, Form.value, Members.entries_ofPlain,
    Assoc.ofList_of_nodup keys]

end InlineQuery.Json
