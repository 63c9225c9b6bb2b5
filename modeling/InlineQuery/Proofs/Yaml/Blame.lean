import InlineQuery.Data.Yaml.Node
import InlineQuery.Proofs.Data.Digits
import Mathlib.Data.List.TakeWhile

/-!
Values that do not exist among the words of a text. Nothing but the number of a character that is
written too large, and the version of a directive that has too many digits, keeps a text that could
be a document from being read as one. Readers move forward only: what follows the place that they stop
at is the end of what follows the place that they start from.
-/

namespace InlineQuery.Yaml

/-! ### Places -/

namespace Place

variable {p q last : Place} {c : Char}

@[simp] theorem rest_next (p : Place) : p.next.rest = p.rest.drop 1 := by
  unfold next
  split
  · rename_i ended
    rw [ended]
    rfl
  · rename_i ahead
    rw [ahead]
    split <;> rfl

@[simp] theorem rest_skip (n : Nat) (p : Place) : (p.skip n).rest = p.rest.drop n := by
  induction n generalizing p with
  | zero => rfl
  | succ n ih => rw [skip, ih, rest_next, List.drop_drop, Nat.add_comm]

@[simp] theorem fst_span (f : Char → Bool) (p : Place) : (p.span f).1 = p.rest.takeWhile f := rfl

theorem snd_span (f : Char → Bool) (p : Place) :
    (p.span f).2 = p.skip (p.rest.takeWhile f).length := rfl

@[simp] theorem rest_span (f : Char → Bool) (p : Place) :
    (p.span f).2.rest = p.rest.dropWhile f := by
  have parts : p.rest.takeWhile f ++ p.rest.dropWhile f = p.rest := List.takeWhile_append_dropWhile
  rw [snd_span, rest_skip]
  calc p.rest.drop (p.rest.takeWhile f).length
    _ = (p.rest.takeWhile f ++ p.rest.dropWhile f).drop (p.rest.takeWhile f).length := by rw [parts]
    _ = p.rest.dropWhile f := List.drop_left

/-- Whether a place is the same as another one or behind it. -/
def Reaches (p q : Place) : Prop := q.rest <:+ p.rest

namespace Reaches

theorem refl (p : Place) : p.Reaches p := List.suffix_refl _

theorem trans (first : p.Reaches q) (second : q.Reaches last) : p.Reaches last :=
  List.IsSuffix.trans second first

theorem next (p : Place) : p.Reaches p.next := by
  rw [Reaches, rest_next]
  exact List.drop_suffix ..

theorem skip (n : Nat) (p : Place) : p.Reaches (p.skip n) := by
  rw [Reaches, rest_skip]
  exact List.drop_suffix ..

theorem span (f : Char → Bool) (p : Place) : p.Reaches (p.span f).2 := skip _ p

theorem skipSpaces (p : Place) : p.Reaches p.skipSpaces := span _ p

theorem lineEnd? (ended : p.lineEnd? = some (c, q)) : p.Reaches q := by
  unfold Place.lineEnd? at ended
  split at ended
  · split at ended
    · cases ended
      exact next p
    · cases ended
  · cases ended

theorem emptyLine? (empty : p.emptyLine? = some q) : p.Reaches q := by
  have comment : p.Reaches (if p.skipSpaces.peek? = some '#' then
      (p.skipSpaces.span fun c => !isBreak c).2 else p.skipSpaces) := by
    split
    · exact (skipSpaces p).trans (span _ _)
    · exact skipSpaces p
  unfold Place.emptyLine? at empty
  dsimp only at empty
  revert empty comment
  generalize (if p.skipSpaces.peek? = some '#' then
      (p.skipSpaces.span fun c => !isBreak c).2 else p.skipSpaces) = behind
  intro empty comment
  split at empty
  · cases ended : behind.lineEnd? with
    | none =>
      rw [ended] at empty
      cases empty
      exact comment
    | some found =>
      rw [ended] at empty
      cases empty
      exact comment.trans (lineEnd? ended)
  · cases empty

end Reaches

end Place

/-! ### What does not exist -/

/-- Whether a text writes a character by a number that no character has. -/
def NamesNoCharacter (text : List Char) : Prop :=
  ∃ digits n, '\\' :: 'U' :: digits <:+ text ∧ Scalar.hexNumber? 8 digits = some n ∧ 0x110000 ≤ n

/-- Whether a text gives the version of a directive by a number with too many digits. -/
def NamesNoVersion (text : List Char) : Prop :=
  ∃ front digits after, "%YAML".toList ++ front ++ digits ++ after <:+ text ∧
    (∀ c ∈ front, c = ' ' ∨ c = '.' ∨ c.isDigit = true) ∧ (∀ c ∈ digits, c.isDigit = true) ∧
    digitLimit < digits.length

/-- Whether a text writes a character or a version that does not exist. -/
def NamesBeyond (text : List Char) : Prop := NamesNoCharacter text ∨ NamesNoVersion text

theorem NamesBeyond.mono {text rest : List Char} (beyond : NamesBeyond rest)
    (within : rest <:+ text) : NamesBeyond text := by
  rcases beyond with ⟨digits, n, behind, isNumber⟩ | ⟨front, digits, after, behind, isVersion⟩
  · exact .inl ⟨digits, n, behind.trans within, isNumber⟩
  · exact .inr ⟨front, digits, after, behind.trans within, isVersion⟩

/-- Whether a reader moves forward, and fails for a value that does not exist only for a reason. Such
a failure is none of a configuration. -/
structure Reads {α : Type} (reason : Prop) (place : α → Place) (p : Place) (x : Except Fault α) :
    Prop where
  forward : ∀ a, x = .ok a → p.Reaches (place a)
  blames : ∀ failure, x = .error (.value failure) → reason ∧ failure.kind.isConfiguration = false

namespace Reads

variable {α β : Type} {reason : Prop} {place : α → Place} {further : β → Place} {p q : Place}
  {x : Except Fault α}

theorem ok {a : α} (reached : p.Reaches (place a)) : Reads reason place p (.ok a) :=
  ⟨fun _ same => Except.ok.inj same ▸ reached, nofun⟩

theorem malformed : Reads reason place p (.error .malformed) := ⟨nofun, nofun⟩

theorem imp {other : Prop} (reads : Reads reason place p x) (implied : reason → other) :
    Reads other place p x :=
  ⟨reads.forward, fun failure failed => (reads.blames failure failed).imp_left implied⟩

theorem behind (reached : p.Reaches q) (reads : Reads reason place q x) : Reads reason place p x :=
  ⟨fun a read => reached.trans (reads.forward a read), reads.blames⟩

theorem bind {k : α → Except Fault β} (first : Reads reason place p x)
    (rest : ∀ a, x = .ok a → Reads reason further (place a) (k a)) :
    Reads reason further p (x.bind k) := by
  cases x with
  | error fault =>
    cases fault with
    | malformed => exact malformed
    | value e => exact ⟨nofun, fun _ same => Fault.value.inj (Except.error.inj same) ▸ first.blames e rfl⟩
  | ok a => exact (rest a rfl).behind (first.forward a rfl)

theorem map {f : α → β} (first : Reads reason place p x)
    (same : ∀ a, (place a).Reaches (further (f a))) : Reads reason further p (x.map f) := by
  cases x with
  | error fault =>
    cases fault with
    | malformed => exact malformed
    | value e => exact ⟨nofun, fun _ same => Fault.value.inj (Except.error.inj same) ▸ first.blames e rfl⟩
  | ok a => exact ok ((first.forward a rfl).trans (same a))

theorem ite {c : Prop} [Decidable c] {y : Except Fault α} (one : Reads reason place p x)
    (other : Reads reason place p y) : Reads reason place p (if c then x else y) := by
  split
  · exact one
  · exact other

end Reads

namespace Scalar

variable {reason : Prop} {p q : Place}

theorem reads_quotedBreaks (fuel : Nat) (p : Place) : Reads reason Prod.snd p (quotedBreaks fuel p) := by
  induction fuel generalizing p with
  | zero => exact .ok (.refl p)
  | succ fuel ih =>
    rw [quotedBreaks]
    split
    · exact .malformed
    · dsimp only
      split
      · exact .ok (.span _ p)
      · rename_i ended
        refine .behind ((Place.Reaches.span _ p).trans (.lineEnd? ended)) ?_
        exact (ih _).map fun _ => .refl _

theorem hexValue?_lt {c : Char} {n : Nat} (isDigit : hexValue? c = some n) : n < 16 := by
  unfold hexValue? at isDigit
  split at isDigit
  · rename_i decimal
    cases isDigit
    simp only [Char.isDigit, Bool.and_eq_true, decide_eq_true_eq] at decimal
    have upper : c.toNat ≤ 57 := decimal.2
    have zero : '0'.toNat = 48 := rfl
    omega
  · split at isDigit
    · rename_i letter
      cases isDigit
      have upper : c.toNat ≤ 102 := letter.2
      have first : 'a'.toNat = 97 := rfl
      omega
    · split at isDigit
      · rename_i letter
        cases isDigit
        have upper : c.toNat ≤ 70 := letter.2
        have first : 'A'.toNat = 65 := rfl
        omega
      · cases isDigit

theorem foldl_hexValue?_none (digits : List Char) :
    digits.foldl (fun (n : Option Nat) c => do return (← n) * 16 + (← hexValue? c)) none = none := by
  induction digits with
  | nil => rfl
  | cons c digits ih => exact ih

theorem foldl_hexValue?_lt {digits : List Char} {start n : Nat}
    (number : digits.foldl (fun (n : Option Nat) c => do return (← n) * 16 + (← hexValue? c))
      (some start) = some n) : n < (start + 1) * Nat.pow 16 digits.length := by
  induction digits generalizing start with
  | nil =>
    cases number
    change n < (n + 1) * 1
    omega
  | cons c digits ih =>
    rw [List.foldl_cons] at number
    cases value : hexValue? c with
    | none =>
      have failed : (do return (← some start) * 16 + (← hexValue? c) : Option Nat) = none := by
        rw [value]
        rfl
      rw [failed, foldl_hexValue?_none] at number
      cases number
    | some v =>
      have stepped : (do return (← some start) * 16 + (← hexValue? c) : Option Nat) =
          some (start * 16 + v) := by
        rw [value]
        rfl
      rw [stepped] at number
      have below := hexValue?_lt value
      calc n < (start * 16 + v + 1) * Nat.pow 16 digits.length := ih number
        _ ≤ ((start + 1) * 16) * Nat.pow 16 digits.length := Nat.mul_le_mul_right _ (by omega)
        _ = (start + 1) * (Nat.pow 16 digits.length * 16) := by
          rw [Nat.mul_assoc, Nat.mul_comm 16]

theorem hexNumber?_lt {size n : Nat} {cs : List Char} (number : hexNumber? size cs = some n) :
    n < Nat.pow 16 size := by
  unfold hexNumber? at number
  dsimp only at number
  split at number
  · cases number
  · have below := foldl_hexValue?_lt number
    rw [Nat.zero_add, Nat.one_mul] at below
    exact Nat.lt_of_lt_of_le below
      (Nat.pow_le_pow_right (by decide) (List.length_take_le size cs))

theorem reads_numbered (size : Nat) (p : Place) :
    Reads (∃ n, hexNumber? size p.rest = some n ∧ 0x110000 ≤ n) Prod.snd p (numbered size p) := by
  unfold numbered
  split
  · rename_i n number
    dsimp only
    split
    · rename_i large
      refine ⟨nofun, fun failure failed => ⟨⟨n, number, large⟩, ?_⟩⟩
      have isFailure : tooLarge n = .value failure := Except.error.inj failed
      unfold tooLarge at isFailure
      split at isFailure <;> cases isFailure <;> rfl
    · refine .ok ?_
      split
      · exact (Place.Reaches.skip size p).trans (.skip 6 _)
      · exact .skip size p
  · exact .malformed

theorem numberedSize?_eq_some {c : Char} {size : Nat} (isNumbered : numberedSize? c = some size) :
    size ≤ 4 ∨ c = 'U' ∧ size = 8 := by
  unfold numberedSize? at isNumbered
  split at isNumbered <;> cases isNumbered
  · exact .inl (by decide)
  · exact .inl (by decide)
  · exact .inr ⟨rfl, rfl⟩

theorem reads_escape (p : Place) :
    Reads (NamesNoCharacter ('\\' :: p.rest)) Prod.snd p (escape p) := by
  unfold escape
  split
  · exact .malformed
  · rename_i c first
    obtain ⟨rest, ahead⟩ := List.head?_eq_some_iff.mp first
    split
    · exact .ok (.next p)
    · rename_i size _ isNumbered
      refine .behind (.next p) (((reads_numbered size p.next).imp ?_).map fun _ => .refl _)
      rintro ⟨n, isNumber, large⟩
      rw [Place.rest_next, ahead, List.drop_one, List.tail_cons] at isNumber
      -- Only the number of eight digits can be too large.
      rcases numberedSize?_eq_some isNumbered with short | ⟨rfl, rfl⟩
      · have below := hexNumber?_lt isNumber
        have bound : Nat.pow 16 size ≤ 65536 := Nat.pow_le_pow_right (by decide) short
        omega
      · exact ⟨rest, n, ahead ▸ List.suffix_refl _, isNumber, large⟩
    · rename_i ended
      exact .behind (.lineEnd? ended) (reads_quotedBreaks ..)
    · exact .malformed

theorem reads_quotedRest (quote : Char) (fuel : Nat) {start : Place} (reached : start.Reaches p) :
    Reads (NamesBeyond start.rest) Prod.snd p (quotedRest quote fuel p) := by
  induction fuel generalizing p with
  | zero => exact .malformed
  | succ fuel ih =>
    rw [quotedRest]
    split
    · exact .malformed
    · rename_i c r ahead
      split
      · dsimp only
        split
        · exact .behind (.span _ p) ((ih (reached.trans (.span _ p))).bind fun _ _ => .ok (.refl _))
        · rename_i ended
          have further := (Place.Reaches.span _ p).trans (.lineEnd? ended)
          have breaks (fuel : Nat) (q : Place) : Reads (NamesBeyond start.rest) Prod.snd q
              (quotedBreaks fuel q) := reads_quotedBreaks fuel q
          refine .behind further ((breaks ..).bind fun _ read => ?_)
          have last := further.trans ((breaks ..).forward _ read)
          exact (ih (reached.trans last)).bind fun _ _ => .ok (.refl _)
      · split
        · split
          · exact .behind (.skip 2 p) ((ih (reached.trans (.skip 2 p))).bind fun _ _ => .ok (.refl _))
          · exact .ok (.next p)
        · split
          · rename_i isEscape
            have backslash : c = '\\' := beq_iff_eq.mp (Bool.and_eq_true_iff.mp isEscape).1
            have rest : '\\' :: p.next.rest = p.rest := by
              rw [Place.rest_next, ahead, List.drop_one, List.tail_cons, backslash]
            have escapes : Reads (NamesBeyond start.rest) Prod.snd p (escape p.next) :=
              .behind (.next p) ((reads_escape p.next).imp fun named =>
                NamesBeyond.mono (.inl (rest ▸ named)) reached)
            refine escapes.bind fun _ read => ?_
            exact (ih (reached.trans (escapes.forward _ read))).bind fun _ _ => .ok (.refl _)
          · exact .behind (.next p) ((ih (reached.trans (.next p))).bind fun _ _ => .ok (.refl _))

theorem reads_quoted (quote : Char) (p : Place) :
    Reads (NamesBeyond p.rest) Prod.snd p (quoted quote p) :=
  .behind (.next p) (reads_quotedRest _ _ (.next p))

theorem reaches_plainBreaks (fuel : Nat) (p : Place) : p.Reaches (plainBreaks fuel p).2 := by
  induction fuel generalizing p with
  | zero => exact .refl p
  | succ fuel ih =>
    rw [plainBreaks]
    split
    · exact .refl p
    · dsimp only
      split
      · exact .skipSpaces p
      · rename_i ended
        exact (Place.Reaches.skipSpaces p).trans ((Place.Reaches.lineEnd? ended).trans (ih _))

theorem reaches_plainSpaces (p : Place) : p.Reaches (plainSpaces p).2.2 := by
  unfold plainSpaces
  dsimp only
  split
  · exact .span _ p
  · rename_i ended
    exact (Place.Reaches.span _ p).trans ((Place.Reaches.lineEnd? ended).trans
      (reaches_plainBreaks _ _))

theorem reaches_plainWords (inFlow : Bool) (indent fuel : Nat) (spaces : List Char) (broken : Bool)
    (p : Place) : p.Reaches (plainWords inFlow indent fuel spaces broken p).2.2 := by
  induction fuel generalizing spaces broken p with
  | zero => exact .refl p
  | succ fuel ih =>
    rw [plainWords]
    dsimp only
    generalize (if p.peek? = some '#' then [] else plainWord inFlow p.rest) = word
    split
    · exact .refl p
    · have reached := (Place.Reaches.skip _ p).trans (reaches_plainSpaces (p.skip word.length))
      split
      · exact reached
      · exact reached.trans (ih ..)

theorem reaches_blankLines (indent fuel : Nat) (p : Place) :
    p.Reaches (blankLines indent fuel p).2 := by
  induction fuel generalizing p with
  | zero => exact .refl p
  | succ fuel ih =>
    rw [blankLines]
    dsimp only
    split
    · exact .skip _ p
    · rename_i ended
      exact (Place.Reaches.skip _ p).trans ((Place.Reaches.lineEnd? ended).trans (ih _))

theorem reaches_leadingLines (fuel : Nat) (p : Place) : p.Reaches (leadingLines fuel p).2.2 := by
  induction fuel generalizing p with
  | zero => exact .refl p
  | succ fuel ih =>
    rw [leadingLines]
    dsimp only
    split
    · exact .span _ p
    · rename_i ended
      exact (Place.Reaches.span _ p).trans ((Place.Reaches.lineEnd? ended).trans (ih _))

theorem reaches_blockLines (folded : Bool) (indent fuel : Nat) (breaks : List Char) (p : Place) :
    p.Reaches (blockLines folded indent fuel breaks p).2.2.2 := by
  induction fuel generalizing breaks p with
  | zero => exact .refl p
  | succ fuel ih =>
    rw [blockLines]
    split
    · exact .refl p
    · dsimp only
      split
      · rename_i ended
        have reached := (Place.Reaches.span (fun c => !isBreak c) p).trans (.lineEnd? ended)
        dsimp only
        split
        · exact reached.trans (reaches_blankLines ..)
        · exact reached.trans ((reaches_blankLines ..).trans (ih ..))
      · have reached := Place.Reaches.span (fun c => !isBreak c) p
        dsimp only
        split
        · exact reached.trans (reaches_blankLines ..)
        · exact reached.trans ((reaches_blankLines ..).trans (ih ..))

theorem reads_indent? (p : Place) : Reads reason Prod.snd p (indent? p) := by
  unfold indent?
  split
  · split
    · exact .malformed
    · split
      · exact .ok (.next p)
      · exact .ok (.refl p)
  · exact .ok (.refl p)

theorem reaches_ending? {ending : Ending} (read : ending? p = some (ending, q)) : p.Reaches q := by
  unfold ending? at read
  split at read <;> cases read <;> exact .next p

theorem reaches_firstEnding (p : Place) : p.Reaches (match ending? p with
    | some (e, p) => (some e, p)
    | none => (none, p)).2 := by
  split
  · rename_i read
    exact reaches_ending? read
  · exact .refl p

theorem reaches_lastEnding (first : Option Ending) (indent : Option Nat) (p : Place) :
    p.Reaches (match first, indent with
      | some e, _ => (e, p)
      | none, some _ => (ending? p).getD (.clip, p)
      | none, none => (.clip, p)).2 := by
  split
  · exact .refl p
  · cases read : ending? p with
    | none => exact .refl p
    | some found => exact reaches_ending? read
  · exact .refl p

theorem reads_header (p : Place) : Reads reason Prod.snd p (header p) :=
  .behind (reaches_firstEnding p)
    ((reads_indent? _).bind fun _ _ => .ite (.ok (reaches_lastEnding ..)) .malformed)

theorem reads_block (folded : Bool) (least : Nat) (p : Place) :
    Reads reason Prod.snd p (block folded least p) := by
  unfold block
  refine (reads_header p).bind fun (header, q) _ => ?_
  dsimp only
  split
  · rename_i empty
    refine .behind (.emptyLine? empty) ?_
    refine .ok (Place.Reaches.trans ?_ (reaches_blockLines ..))
    split
    · exact reaches_blankLines ..
    · exact reaches_leadingLines ..
  · exact .malformed

end Scalar

namespace Token

variable {reason : Prop} {p q : Place}

theorem reads_anchorName (p : Place) : Reads reason Prod.snd p (anchorName p) :=
  .ite .malformed (.ok (.span _ p))

theorem reads_percentBytes (fuel : Nat) (p : Place) : Reads reason Prod.snd p (percentBytes fuel p) := by
  induction fuel generalizing p with
  | zero => exact .ok (.refl p)
  | succ fuel ih =>
    rw [percentBytes]
    split
    · split
      · exact .behind (.skip 3 p) ((ih _).bind fun _ _ => .ok (.refl _))
      · exact .malformed
    · exact .ok (.refl p)

theorem reads_uriText (fuel : Nat) (p : Place) : Reads reason Prod.snd p (uriText fuel p) := by
  induction fuel generalizing p with
  | zero => exact .ok (.refl p)
  | succ fuel ih =>
    rw [uriText]
    split
    · exact .ok (.refl p)
    · split
      · refine (reads_percentBytes ..).bind fun (bytes, q) _ => ?_
        dsimp only
        cases Text.decodeUtf8 bytes with
        | error e => exact .malformed
        | ok cs => exact (ih q).bind fun _ _ => .ok (.refl _)
      · exact .ite (.behind (.next p) ((ih _).map fun _ => .refl _)) (.ok (.refl p))

theorem reads_uri (p : Place) : Reads reason Prod.snd p (uri p) :=
  (reads_uriText ..).bind fun _ _ => .ite .malformed (.ok (.refl _))

theorem reads_handle (p : Place) : Reads reason Prod.snd p (handle p) := by
  unfold handle
  refine .ite .malformed ?_
  refine .behind (.next p) (.ite (.ok (.refl _)) ?_)
  exact .behind (.span isNameChar _) (.ite .malformed (.ok (.next _)))

theorem reads_tagSuffix (handle : String) (p : Place) :
    Reads reason Prod.snd p ((uri p).bind fun (suffix, q) =>
      if q.atWordEnd then .ok (Token.tag (some handle) suffix, q) else .error .malformed) :=
  (reads_uri p).bind fun _ _ => .ite (.ok (.refl _)) .malformed

theorem reads_tagToken (p : Place) : Reads reason Prod.snd p (tagToken p) := by
  have ended (t : Token) (q : Place) : Reads reason Prod.snd q
      (if q.atWordEnd then .ok (t, q) else .error .malformed : Except Fault (Token × Place)) :=
    .ite (.ok (.refl q)) .malformed
  unfold tagToken
  refine .ite ?_ (.ite (.behind (.next p) (ended ..)) (.ite ?_ ?_))
  · refine .behind (.skip 2 p) ((reads_uri _).bind fun _ _ => .ite .malformed ?_)
    exact .behind (.next _) (ended ..)
  · exact (reads_handle p).bind fun _ _ => reads_tagSuffix ..
  · exact .behind (.next p) (reads_tagSuffix ..)

/-- Digits are not read as a number only if there are too many of them. -/
theorem reads_number (p : Place) :
    Reads (digitLimit < (p.rest.takeWhile Char.isDigit).length) Prod.snd p (number p) := by
  have long {digits : List Char} {e : HugeInteger} (huge : integerOf digits = .error e) :
      digitLimit < digits.length := by
    refine Nat.not_le.mp fun short => ?_
    obtain ⟨n, read⟩ := (exists_integerOf_iff digits).mpr
      (Nat.le_trans (length_magnitude_le digits) short)
    rw [read] at huge
    cases huge
  unfold number
  refine .ite .malformed ?_
  cases read : integerOf (p.rest.takeWhile Char.isDigit) with
  | ok n => simpa only [Place.fst_span, read] using .ok (.span _ p)
  | error e =>
    refine ⟨fun _ same => by simp at same, fun failure failed => ⟨long read, ?_⟩⟩
    cases failed
    rfl

theorem number_ok {n : Int} (read : number p = .ok (n, q)) : q = (p.span Char.isDigit).2 := by
  unfold number at read
  dsimp only at read
  split at read
  · cases read
  · split at read
    · cases read
      rfl
    · cases read

theorem reads_emptyLine? (t : Token) (p : Place) : Reads reason Prod.snd p
    (match p.emptyLine? with
      | some q => .ok (t, q)
      | _ => .error .malformed : Except Fault (Token × Place)) := by
  split
  · rename_i empty
    exact .ok (.emptyLine? empty)
  · exact .malformed

theorem reads_directive (percent : p.peek? = some '%') :
    Reads (NamesNoVersion p.rest) Prod.snd p (directive p) := by
  obtain ⟨r, ahead⟩ := List.head?_eq_some_iff.mp percent
  have parts : p.rest = '%' :: ((p.next.span isNameChar).1 ++ (p.next.span isNameChar).2.rest) := by
    rw [Place.fst_span, Place.rest_span, List.takeWhile_append_dropWhile, Place.rest_next, ahead,
      List.drop_one, List.tail_cons]
  have reached : p.Reaches (p.next.span isNameChar).2 := (Place.Reaches.next p).trans (.span _ _)
  unfold directive
  generalize p.next.span isNameChar = read at parts reached ⊢
  obtain ⟨name, q⟩ := read
  refine .ite .malformed (.behind reached ?_)
  split
  · rename_i isName
    have named : name = "YAML".toList := by rw [← isName, String.toList_ofList]
    -- A number is that of a version wherever blanks, digits and points alone precede it.
    have version (front : List Char) {place : Place} (precedes : front ++ place.rest = q.rest)
        (light : ∀ c ∈ front, c = ' ' ∨ c = '.' ∨ c.isDigit = true) :
        Reads (NamesNoVersion p.rest) Prod.snd place (number place) := by
      refine (reads_number place).imp fun long => ?_
      refine ⟨front, place.rest.takeWhile Char.isDigit, place.rest.dropWhile Char.isDigit, ?_,
        light, fun c member => List.mem_takeWhile_imp member, long⟩
      rw [List.append_assoc, List.takeWhile_append_dropWhile, List.append_assoc, precedes, parts,
        named]
      exact List.suffix_refl _
    have blanks : q.rest.takeWhile (· == ' ') ++ q.skipSpaces.rest = q.rest := by
      rw [Place.skipSpaces, Place.rest_span, List.takeWhile_append_dropWhile]
    have areBlank : ∀ c ∈ q.rest.takeWhile (· == ' '), c = ' ' ∨ c = '.' ∨ c.isDigit = true :=
      fun c member => .inl (by simpa using List.mem_takeWhile_imp member)
    refine .behind (.skipSpaces q) ((version _ blanks areBlank).bind fun found read => ?_)
    obtain ⟨major, place⟩ := found
    dsimp only
    split
    · exact .malformed
    · rename_i point
      obtain ⟨r', minor⟩ := List.head?_eq_some_iff.mp (Decidable.not_not.mp point)
      have digits : q.skipSpaces.rest.takeWhile Char.isDigit ++ place.rest = q.skipSpaces.rest := by
        rw [number_ok read, Place.rest_span, List.takeWhile_append_dropWhile]
      refine .behind (.next place) (Reads.bind (version (q.rest.takeWhile (· == ' ') ++
        (q.skipSpaces.rest.takeWhile Char.isDigit ++ ['.'])) ?_ ?_)
        fun _ _ => .ite .malformed (reads_emptyLine? ..))
      · rw [Place.rest_next, minor, List.drop_one, List.tail_cons, List.append_assoc,
          List.append_assoc, List.singleton_append, ← minor, digits, blanks]
      · intro c member
        rcases List.mem_append.mp member with blank | member
        · exact areBlank c blank
        · rcases List.mem_append.mp member with digit | dot
          · exact .inr (.inr (List.mem_takeWhile_imp digit))
          · exact .inr (.inl (List.mem_singleton.mp dot))
  · refine .behind (.skipSpaces q) ((reads_handle _).bind fun _ _ => .ite .malformed ?_)
    exact .behind (.skipSpaces _) ((reads_uri _).bind fun _ _ =>
      .ite .malformed (reads_emptyLine? ..))
  · exact .behind (.span _ q) (reads_emptyLine? ..)

end Token

end InlineQuery.Yaml
