import InlineQuery.Proofs.Json.Portable
import InlineQuery.Proofs.Yaml.Blame

/-!
Portable strings of JSON as scalars between double quotes.
-/

namespace InlineQuery.Yaml

namespace Place

theorem skip_add (m n : Nat) (p : Place) : p.skip (m + n) = (p.skip m).skip n := by
  induction m generalizing p with
  | zero => rw [Nat.zero_add]; rfl
  | succ m ih =>
    rw [Nat.add_right_comm]
    exact ih p.next

theorem lineEnd?_eq_none {p : Place} (visible : ∀ c ∈ p.rest.head?, isBreak c = false) :
    p.lineEnd? = none := by
  unfold lineEnd? peek?
  cases ahead : p.rest.head? with
  | none => rfl
  | some c => simp [visible c ahead]

end Place

namespace Scalar

open Json (Piece Quotation)

variable {p : Place} {r : List Char} {piece : Piece} {ps : List Piece} {mark value : Char}

theorem escaped?_of_simpleEscape? (means : Json.simpleEscape? mark = some value) :
    escaped? mark = some value := by
  unfold Json.simpleEscape? at means
  split at means
  all_goals cases means
  all_goals rfl

theorem hexValue?_of_hexDigit? {c : Char} {n : Nat} (digit : Json.hexDigit? c = some n) :
    hexValue? c = some n := by
  have decimal : c.isDigit = decide (48 ≤ c.toNat ∧ c.toNat ≤ 57) := by
    rw [Bool.decide_and]
    rfl
  have upper : ('A' ≤ c ∧ c ≤ 'F') ↔ (65 ≤ c.toNat ∧ c.toNat ≤ 70) := Iff.rfl
  have lower : ('a' ≤ c ∧ c ≤ 'f') ↔ (97 ≤ c.toNat ∧ c.toNat ≤ 102) := Iff.rfl
  have digits : ('0' ≤ c ∧ c ≤ '9') ↔ (48 ≤ c.toNat ∧ c.toNat ≤ 57) := Iff.rfl
  have sizes : '0'.toNat = 48 ∧ 'a'.toNat = 97 ∧ 'A'.toNat = 65 := ⟨rfl, rfl, rfl⟩
  simp only [Json.hexDigit?, digits, upper, lower] at digit
  simp only [hexValue?, decimal, upper, lower, sizes, decide_eq_true_eq]
  split at digit
  · rename_i isDecimal
    rwa [if_pos isDecimal]
  · rename_i notDecimal
    rw [if_neg notDecimal]
    split at digit
    · rename_i isUpper
      rw [if_neg (by omega), if_pos isUpper, ← digit]
      congr 1
      omega
    · split at digit
      · rename_i isLower
        rw [if_pos isLower, ← digit]
        congr 1
        omega
      · cases digit

/-- Four hexadecimal digits denote the same number. -/
theorem hexNumber?_of_hexValue? {digits : List Char} {code : Nat}
    (means : Json.hexValue? digits = some code) (rest : List Char) :
    hexNumber? 4 (digits ++ rest) = some code ∧ digits.length = 4 ∧ code < 0x10000 := by
  obtain ⟨a, b, c, d, i, j, k, l, rfl, isFirst, isSecond, isThird, isFourth, rfl⟩ :=
    Json.hexValue?_parts means
  have first := hexValue?_of_hexDigit? isFirst
  have second := hexValue?_of_hexDigit? isSecond
  have third := hexValue?_of_hexDigit? isThird
  have fourth := hexValue?_of_hexDigit? isFourth
  refine ⟨?_, rfl, ?_⟩
  · simp [hexNumber?, first, second, third, fourth]
  · have := hexValue?_lt first
    have := hexValue?_lt second
    have := hexValue?_lt third
    have := hexValue?_lt fourth
    omega

theorem escape_simple (means : Json.simpleEscape? mark = some value)
    (ahead : p.rest = mark :: r) : escape p = .ok ([value], p.next) := by
  simp [escape, Place.peek?, ahead, escaped?_of_simpleEscape? means]

theorem numbered_of_hexValue? {digits : List Char} {code : Nat}
    (means : Json.hexValue? digits = some code) (apart : Json.isHalf code = false)
    (ahead : p.rest = digits ++ r) : numbered 4 p = .ok (Json.charOf code, p.skip 4) := by
  obtain ⟨number, length, small⟩ := hexNumber?_of_hexValue? means r
  rw [← ahead] at number
  have half : ¬ (0xD800 ≤ code ∧ code ≤ 0xDFFF) := by
    simpa [Json.isHalf] using apart
  have notHigh : isHighSurrogate code = false := by
    simp only [isHighSurrogate, Bool.and_eq_false_iff, decide_eq_false_iff_not]
    omega
  have notLow : isLowSurrogate code = false := by
    simp only [isLowSurrogate, Bool.and_eq_false_iff, decide_eq_false_iff_not]
    omega
  have isCharacter : ¬ 0x110000 ≤ code := by omega
  simp [numbered, number, isCharacter, notHigh, notLow, Json.charOf, half, pure, Except.pure]

theorem escape_numbered {digits : List Char} {code : Nat}
    (means : Json.hexValue? digits = some code) (apart : Json.isHalf code = false)
    (ahead : p.rest = 'u' :: (digits ++ r)) :
    escape p = .ok ([Json.charOf code], p.skip 5) := by
  have read := numbered_of_hexValue? means apart (p := p.next) (r := r) (by simp [ahead])
  simp [escape, Place.peek?, ahead, escaped?, numberedSize?, read, Except.map]
  rfl

section Quoted

variable {q last : Place} {fuel : Nat} {cs more : List Char} {c : Char}

theorem quotedRest_close (ahead : p.rest = '"' :: r) :
    quotedRest '"' (fuel + 1) p = .ok ([], p.next) := by
  simp [quotedRest, ahead, isSpacing, isBreak]

theorem quotedRest_escape (ahead : p.rest = '\\' :: r) (escaped : escape p.next = .ok (cs, q))
    (further : quotedRest '"' fuel q = .ok (more, last)) :
    quotedRest '"' (fuel + 1) p = .ok (cs ++ more, last) := by
  simp [quotedRest, ahead, escaped, further, isSpacing, isBreak, bind, Except.bind, pure,
    Except.pure]

theorem quotedRest_plain (ahead : p.rest = c :: r) (visible : isSpacing c = false) (notQuote : c ≠ '"')
    (notBackslash : c ≠ '\\') (further : quotedRest '"' fuel p.next = .ok (more, last)) :
    quotedRest '"' (fuel + 1) p = .ok (c :: more, last) := by
  simp [quotedRest, ahead, visible, notQuote, notBackslash, further, bind, Except.bind, pure,
    Except.pure]

theorem quotedRest_spaces {n : Nat} (ahead : p.rest = List.replicate (n + 1) ' ' ++ r)
    (visible : ∀ c ∈ r.head?, isSpacing c = false)
    (further : quotedRest '"' fuel (p.skip (n + 1)) = .ok (more, last)) :
    quotedRest '"' (fuel + 1) p = .ok (List.replicate (n + 1) ' ' ++ more, last) := by
  have apart : r.takeWhile (fun c => c == ' ' || c == '\t') = [] := by
    cases r with
    | nil => rfl
    | cons c r =>
      have spacing := visible c rfl
      rw [isSpacing, Bool.or_eq_false_iff] at spacing
      rw [List.takeWhile_cons_of_neg (by simp [spacing.1])]
  have run : p.rest.takeWhile (fun c => c == ' ' || c == '\t') = List.replicate (n + 1) ' ' := by
    rw [ahead, List.takeWhile_append_of_pos (by simp [List.mem_replicate]), apart, List.append_nil]
  have unbroken : (p.skip (n + 1)).lineEnd? = none := by
    refine Place.lineEnd?_eq_none fun c isNext => ?_
    rw [Place.rest_skip, ahead, List.drop_left' List.length_replicate] at isNext
    have spacing := visible c isNext
    rw [isSpacing, Bool.or_eq_false_iff] at spacing
    exact spacing.2
  have first : p.rest = ' ' :: (List.replicate n ' ' ++ r) := ahead
  rw [quotedRest, first]
  simp [Place.span, run, unbroken, further, isSpacing, bind, Except.bind, pure, Except.pure]

/-- The spaces that pieces start with. -/
theorem exists_spaces (portable : ∀ piece ∈ ps, piece.IsPortable) :
    ∃ n behind, ps.flatMap Piece.text = List.replicate n ' ' ++ behind.flatMap Piece.text ∧
      ps.map Piece.value = List.replicate n ' ' ++ behind.map Piece.value ∧ behind <:+ ps ∧
      n + behind.length = ps.length ∧
      ∀ c ∈ (behind.flatMap Piece.text ++ '"' :: r).head?, isSpacing c = false := by
  induction ps with
  | nil => exact ⟨0, [], rfl, rfl, List.suffix_refl _, rfl, by simp [isSpacing, isBreak]⟩
  | cons piece ps ih =>
    obtain ⟨n, behind, text, value, isSuffix, length, visible⟩ :=
      ih fun other member => portable other (List.mem_cons_of_mem _ member)
    have apart (visible : ∀ c ∈ piece.text.head?, isSpacing c = false) (given : piece.text ≠ []) :
        ∃ n behind, (piece :: ps).flatMap Piece.text =
            List.replicate n ' ' ++ behind.flatMap Piece.text ∧
          (piece :: ps).map Piece.value = List.replicate n ' ' ++ behind.map Piece.value ∧
          behind <:+ piece :: ps ∧ n + behind.length = (piece :: ps).length ∧
          ∀ c ∈ (behind.flatMap Piece.text ++ '"' :: r).head?, isSpacing c = false := by
      refine ⟨0, piece :: ps, rfl, rfl, List.suffix_refl _, Nat.zero_add _, fun c isFirst => ?_⟩
      obtain ⟨first, rest, starts⟩ := List.exists_cons_of_ne_nil given
      rw [List.flatMap_cons, starts] at isFirst
      exact visible c (by rw [starts]; exact isFirst)
    have known := portable piece (List.mem_cons_self ..)
    cases piece with
    | plain c stands =>
      by_cases space : c = ' '
      · subst space
        refine ⟨n + 1, behind, ?_, ?_, isSuffix.trans (List.suffix_cons ..), ?_, visible⟩
        · rw [List.flatMap_cons, text]
          rfl
        · rw [List.map_cons, value]
          rfl
        · rw [List.length_cons, ← length]
          omega
      · refine apart (fun c' isFirst => ?_) (by simp [Piece.text])
        cases isFirst
        have notTab : c ≠ '\t' := by
          rintro rfl
          exact absurd stands.2.2 (by decide)
        simp [isSpacing, space, notTab, known.2]
    | simple => exact apart (by simp [Piece.text, isSpacing, isBreak]) (by simp [Piece.text])
    | numbered => exact apart (by simp [Piece.text, isSpacing, isBreak]) (by simp [Piece.text])
    | paired => exact known.elim

/-- A portable piece that does not start with spacing is read alone. -/
theorem quotedRest_piece (portable : piece.IsPortable) (ahead : p.rest = piece.text ++ r)
    (visible : ∀ c ∈ p.rest.head?, isSpacing c = false)
    (further : quotedRest '"' fuel (p.skip piece.text.length) = .ok (more, last)) :
    quotedRest '"' (fuel + 1) p = .ok (piece.value :: more, last) := by
  cases piece with
  | plain c stands =>
    have first : p.rest.head? = some c := by
      rw [ahead]
      rfl
    exact quotedRest_plain ahead (visible c first) stands.1 stands.2.1 further
  | simple mark meant means =>
    have marked : p.next.rest = mark :: r := by
      rw [Place.rest_next, ahead]
      rfl
    exact (quotedRest_escape ahead (escape_simple means marked) further :)
  | numbered digits code means =>
    have numbered : p.next.rest = 'u' :: (digits ++ r) := by
      rw [Place.rest_next, ahead]
      rfl
    have size : (Piece.numbered digits code means).text.length = 6 := by
      simp [Piece.text, (hexNumber?_of_hexValue? means []).2.1]
    rw [size] at further
    exact (quotedRest_escape ahead (escape_numbered means portable numbered) further :)
  | paired => exact portable.elim

/-- A portable string is read up to its closing quote, and has the value that it has in JSON. -/
theorem quotedRest_pieces (portable : ∀ piece ∈ ps, piece.IsPortable)
    (ahead : p.rest = ps.flatMap Piece.text ++ '"' :: r) (enough : p.rest.length ≤ fuel) :
    quotedRest '"' fuel p =
      .ok (ps.map Piece.value, p.skip ((ps.flatMap Piece.text).length + 1)) := by
  induction size : ps.length using Nat.strong_induction_on generalizing ps p fuel with
  | _ size ih =>
    subst size
    obtain ⟨fuel, rfl⟩ : ∃ more, fuel = more + 1 := by
      refine Nat.exists_eq_add_one.mpr (Nat.lt_of_lt_of_le ?_ enough)
      rw [ahead, List.length_append, List.length_cons]
      omega
    obtain ⟨n, behind, text, value, isSuffix, length, visible⟩ := exists_spaces (r := r) portable
    -- The spaces at the start are read together, every other piece alone.
    cases n with
    | succ n =>
      have spaced : p.rest = List.replicate (n + 1) ' ' ++ (behind.flatMap Piece.text ++ '"' :: r) := by
        rw [ahead, text, List.append_assoc]
      have left : (p.skip (n + 1)).rest = behind.flatMap Piece.text ++ '"' :: r := by
        rw [Place.rest_skip, spaced, List.drop_left' List.length_replicate]
      have further : quotedRest '"' fuel (p.skip (n + 1)) = _ := ih behind.length (by omega)
        (fun piece member => portable piece (isSuffix.subset member)) left
        (by rw [left]; simp [spaced] at enough ⊢; omega) rfl
      rw [quotedRest_spaces spaced visible further, value, text, List.length_append,
        List.length_replicate, Nat.add_assoc, Place.skip_add (n + 1)]
    | zero =>
      rw [List.replicate_zero, List.nil_append] at text
      rw [← text, ← ahead] at visible
      cases ps with
      | nil => exact quotedRest_close ahead
      | cons piece ps =>
        have others : ∀ other ∈ ps, other.IsPortable :=
          fun other member => portable other (List.mem_cons_of_mem _ member)
        rw [List.flatMap_cons, List.append_assoc] at ahead
        have left : (p.skip piece.text.length).rest = ps.flatMap Piece.text ++ '"' :: r := by
          rw [Place.rest_skip, ahead, List.drop_left]
        have nonempty : 0 < piece.text.length := by cases piece <;> simp [Piece.text]
        have room : (p.skip piece.text.length).rest.length ≤ fuel := by
          rw [Place.rest_skip, List.length_drop]
          omega
        have further := ih ps.length (by simp) others left room rfl
        rw [List.flatMap_cons, List.length_append, Nat.add_assoc, Place.skip_add]
        exact quotedRest_piece (portable piece (List.mem_cons_self ..)) ahead visible further

/-- A portable string is a scalar between double quotes. -/
theorem quoted_text {q : Quotation} (portable : q.IsPortable) (ahead : p.rest = q.text ++ r) :
    quoted '"' p = .ok (q.pieces.map Piece.value, p.skip q.text.length) := by
  have left : p.next.rest = q.pieces.flatMap Piece.text ++ '"' :: r := by
    rw [Place.rest_next, ahead]
    simp [Quotation.text, Quotation.body]
  have enough : p.next.rest.length ≤ p.rest.length := by simp
  rw [quoted, quotedRest_pieces portable left enough, Quotation.text, Quotation.body]
  simp [Place.skip]

end Quoted

end Scalar
end InlineQuery.Yaml
