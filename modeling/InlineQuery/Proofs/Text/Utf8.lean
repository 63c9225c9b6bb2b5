import InlineQuery.Text.Utf8

/-!
Reading what was written: the bytes of a text are read as its characters.
-/

namespace InlineQuery.Text

theorem toList_loop (bytes : ByteArray) (i : Nat) (read : List UInt8) :
    ByteArray.toList.loop bytes i read = read.reverse ++ bytes.data.toList.drop i := by
  induction i, read using ByteArray.toList.loop.induct bytes with
  | case1 i read inside ih =>
    have bound : i < bytes.data.toList.length := inside
    rw [ByteArray.toList.loop, if_pos inside, ih, List.drop_eq_getElem_cons bound,
      List.reverse_cons, List.append_assoc, List.singleton_append]
    simp only [ByteArray.get!, Array.getElem_toList]
    rw [getElem!_pos bytes.data i inside]
  | case2 i read outside =>
    have bound : bytes.data.toList.length ≤ i := Nat.le_of_not_lt outside
    rw [ByteArray.toList.loop, if_neg outside, List.drop_eq_nil_of_le bound, List.append_nil]

/-- The bytes of a text are those of its characters. -/
theorem encodeUtf8_eq (s : String) : encodeUtf8 s = s.toList.flatMap String.utf8EncodeChar := by
  obtain ⟨cs, rfl⟩ : ∃ cs, s = String.ofList cs := ⟨s.toList, String.ofList_toList.symm⟩
  rw [encodeUtf8, String.toUTF8_eq_toByteArray, String.toByteArray_ofList, ByteArray.toList,
    toList_loop, String.toList_ofList, List.utf8Encode, List.toList_data_toByteArray]
  rfl

theorem encodeUtf8_ofList (cs : List Char) :
    encodeUtf8 (String.ofList cs) = cs.flatMap String.utf8EncodeChar := by
  rw [encodeUtf8_eq, String.toList_ofList]

theorem toList_append_of {s t : String} {cs ds : List Char} (first : s.toList = cs)
    (second : t.toList = ds) : (s ++ t).toList = cs ++ ds := by
  rw [String.toList_append, first, second]

namespace Utf8

theorem isContinuation_iff {b : Nat} : isContinuation b = true ↔ 0x80 ≤ b ∧ b < 0xC0 := by
  simp [isContinuation]

theorem allowsSecond_iff {first second : Nat} : allowsSecond first second = true ↔
    isContinuation second = true ∧ (first ≠ 0xE0 ∨ 0xA0 ≤ second) ∧ (first ≠ 0xED ∨ second < 0xA0) ∧
      (first ≠ 0xF0 ∨ 0x90 ≤ second) ∧ (first ≠ 0xF4 ∨ second < 0x90) := by
  simp [allowsSecond, and_assoc]

theorem step_one {a : Nat} (ascii : a < 0x80) (rest : List Nat) :
    step a rest = .char (Char.ofNat a) 1 := by
  rw [step, if_pos ascii]

theorem step_two {a b : Nat} (lower : 0xC2 ≤ a) (upper : a < 0xE0) (allowed : allowsSecond a b = true)
    (rest : List Nat) :
    step a (b :: rest) = .char (Char.ofNat ((a - 0xC0) * 64 + (b - 0x80))) 2 := by
  have valid : ¬ (a < 0xC2 ∨ 0xF5 ≤ a) := by omega
  rw [step, if_neg (by omega), if_neg valid]
  simp [upper, allowed]

theorem step_three {a b c : Nat} (lower : 0xE0 ≤ a) (upper : a < 0xF0)
    (allowed : allowsSecond a b = true) (third : isContinuation c = true) (rest : List Nat) :
    step a (b :: c :: rest) =
      .char (Char.ofNat ((a - 0xE0) * 4096 + (b - 0x80) * 64 + (c - 0x80))) 3 := by
  have valid : ¬ (a < 0xC2 ∨ 0xF5 ≤ a) := by omega
  rw [step, if_neg (by omega), if_neg valid]
  simp [Nat.not_lt.mpr lower, upper, allowed, third]

theorem step_four {a b c d : Nat} (lower : 0xF0 ≤ a) (upper : a < 0xF5)
    (allowed : allowsSecond a b = true) (third : isContinuation c = true)
    (fourth : isContinuation d = true) (rest : List Nat) :
    step a (b :: c :: d :: rest) =
      .char (Char.ofNat ((a - 0xF0) * 262144 + (b - 0x80) * 4096 + (c - 0x80) * 64 + (d - 0x80)))
        4 := by
  have valid : ¬ (a < 0xC2 ∨ 0xF5 ≤ a) := by omega
  have long : ¬ a < 0xE0 := by omega
  rw [step, if_neg (by omega), if_neg valid]
  simp [long, Nat.not_lt.mpr lower, allowed, third, fourth]

/-- The bytes of a character are read as that character. -/
theorem step_utf8EncodeChar (c : Char) (rest : List Nat) :
    ∃ first more, (String.utf8EncodeChar c).map UInt8.toNat = first :: more ∧
      step first (more ++ rest) = .char c (more.length + 1) := by
  have valid : c.val.toNat < 0xD800 ∨ 0xDFFF < c.val.toNat ∧ c.val.toNat < 0x110000 := c.valid
  have isChar {n : Nat} (same : n = c.val.toNat) : Char.ofNat n = c := same ▸ Char.ofNat_toNat c
  unfold String.utf8EncodeChar
  generalize c.val.toNat = v at valid isChar
  dsimp only
  split
  · refine ⟨v, [], ?_, ?_⟩
    · simp only [List.map_cons, List.map_nil, UInt8.toNat_ofNat']
      rw [Nat.mod_eq_of_lt (by omega)]
    · rw [List.nil_append, step_one (by omega), isChar rfl]
      rfl
  split
  · refine ⟨v / 64 + 192, [v % 64 + 128], ?_, ?_⟩
    · simp only [List.map_cons, List.map_nil, UInt8.toNat_ofNat', List.cons.injEq, and_true]
      omega
    · have allowed : allowsSecond (v / 64 + 192) (v % 64 + 128) = true := by
        rw [allowsSecond_iff, isContinuation_iff]
        omega
      rw [List.singleton_append, step_two (by omega) (by omega) allowed, isChar (by omega)]
      rfl
  split
  · refine ⟨v / 4096 + 224, [v / 64 % 64 + 128, v % 64 + 128], ?_, ?_⟩
    · simp only [List.map_cons, List.map_nil, UInt8.toNat_ofNat', List.cons.injEq, and_true]
      omega
    · have allowed : allowsSecond (v / 4096 + 224) (v / 64 % 64 + 128) = true := by
        rw [allowsSecond_iff, isContinuation_iff]
        omega
      have third : isContinuation (v % 64 + 128) = true := by
        rw [isContinuation_iff]
        omega
      rw [List.cons_append, List.singleton_append, step_three (by omega) (by omega) allowed third,
        isChar (by omega)]
      rfl
  · refine ⟨v / 262144 + 240, [v / 4096 % 64 + 128, v / 64 % 64 + 128, v % 64 + 128], ?_, ?_⟩
    · simp only [List.map_cons, List.map_nil, UInt8.toNat_ofNat', List.cons.injEq, and_true]
      omega
    · have allowed : allowsSecond (v / 262144 + 240) (v / 4096 % 64 + 128) = true := by
        rw [allowsSecond_iff, isContinuation_iff]
        omega
      have third : isContinuation (v / 64 % 64 + 128) = true := by
        rw [isContinuation_iff]
        omega
      have fourth : isContinuation (v % 64 + 128) = true := by
        rw [isContinuation_iff]
        omega
      rw [List.cons_append, List.cons_append, List.singleton_append,
        step_four (by omega) (by omega) allowed third fourth, isChar (by omega)]
      rfl

end Utf8

/-- Bytes that belong to the character before them are passed over. -/
theorem replaceFrom_skip (step : Nat → List Nat → Step) (more rest : List Nat) :
    replaceFrom step more.length (more ++ rest) = replaceFrom step 0 rest := by
  induction more with
  | nil => rfl
  | cons b more ih => exact ih

/-- The bytes of a text are read as that text. -/
theorem replaceUtf8_encodeUtf8 (s : String) : replaceUtf8 (encodeUtf8 s) = s.toList := by
  rw [encodeUtf8_eq, replaceUtf8, byteValues]
  induction s.toList with
  | nil => rfl
  | cons c cs ih =>
    rw [List.flatMap_cons, List.map_append]
    obtain ⟨first, more, bytes, read⟩ :=
      Utf8.step_utf8EncodeChar c ((cs.flatMap String.utf8EncodeChar).map UInt8.toNat)
    rw [bytes, List.cons_append, replaceFrom, read]
    exact congrArg (c :: ·) ((replaceFrom_skip ..).trans ih)

theorem decodeFrom_skip (charset : String) (step : Nat → List Nat → Step) (offset : Nat)
    (more rest : List Nat) : decodeFrom charset step offset more.length (more ++ rest) =
      decodeFrom charset step (offset + more.length) 0 rest := by
  induction more generalizing offset with
  | nil => rfl
  | cons b more ih =>
    have later : offset + 1 + more.length = offset + (b :: more).length := by
      rw [List.length_cons]
      omega
    exact (ih (offset + 1)).trans (by rw [later])

/-- The bytes of a text have no flaw. -/
theorem decodeUtf8_encodeUtf8 (s : String) : decodeUtf8 (encodeUtf8 s) = .ok s.toList := by
  have reads (cs : List Char) (offset : Nat) : decodeFrom "utf-8" Utf8.step offset 0
      ((cs.flatMap String.utf8EncodeChar).map UInt8.toNat) = .ok cs := by
    induction cs generalizing offset with
    | nil => rfl
    | cons c cs ih =>
      rw [List.flatMap_cons, List.map_append]
      obtain ⟨first, more, bytes, read⟩ :=
        Utf8.step_utf8EncodeChar c ((cs.flatMap String.utf8EncodeChar).map UInt8.toNat)
      rw [bytes, List.cons_append, decodeFrom, read]
      exact congrArg (Except.map (c :: ·)) ((decodeFrom_skip ..).trans (ih _))
  rw [encodeUtf8_eq, decodeUtf8, byteValues]
  exact reads s.toList 0

end InlineQuery.Text
