import InlineQuery.Number.Double
import Mathlib.Algebra.Order.Field.Power
import Mathlib.Data.Int.Log
import Mathlib.Data.Rat.Floor
import Mathlib.Tactic.FieldSimp
import Mathlib.Tactic.Linarith
import Mathlib.Tactic.Positivity
import Mathlib.Tactic.Ring

/-!
Rounding to the nearest floating point number. The result depends on the value of a quotient or of a
decimal number alone, not on how it is written, is in canonical form, and is a given number for every
value that is near enough to it.
-/

namespace InlineQuery

theorem log_eq_of_bounds {b : Nat} (base : 1 < b) {x : ℚ} {e : Int} (above : (b : ℚ) ^ e ≤ x)
    (below : x < (b : ℚ) ^ (e + 1)) : Int.log b x = e := by
  have positive : 0 < x := (zpow_pos (by exact_mod_cast base.pos) e).trans_le above
  have least := (Int.zpow_le_iff_le_log base positive).mp above
  have greatest := (Int.lt_zpow_iff_log_lt base positive).mp below
  omega

theorem zpow_of_nonneg (b : ℚ) {e : Int} (nonneg : 0 ≤ e) : b ^ e = b ^ e.toNat := by
  rw [← zpow_natCast, Int.toNat_of_nonneg nonneg]

theorem zpow_of_neg (b : ℚ) {e : Int} (negative : e < 0) : b ^ e = (b ^ (-e).toNat)⁻¹ := by
  rw [← zpow_natCast, Int.toNat_of_nonneg (by omega), zpow_neg, inv_inv]

namespace Double

variable {num den q k : Nat} {e : Int}

/-- Whether a number has the form that rounding gives it: 53 bits, the first of which is zero only
where the exponent is the least one. -/
def IsCanonical : Double → Prop
  | finite _ m e => m < 2 ^ 53 ∧ leastExponent ≤ e ∧ e ≤ 971 ∧ (m < 2 ^ 52 → e = leastExponent)
  | infinite _ | nan => True

/-! ### Rounding to a natural number -/

theorem roundDiv_of_near (positive : 0 < den) (near : |(num : ℚ) / den - q| < 1 / 2) :
    roundDiv num den = q := by
  have size : (0 : ℚ) < den := by exact_mod_cast positive
  obtain ⟨low, high⟩ := abs_lt.mp near
  have above : 2 * q * den < 2 * num + den := by
    have scaled : ((q : ℚ) - 1 / 2) * den < num := (lt_div_iff₀ size).mp (by linarith)
    have : (2 * q * den : ℚ) < 2 * num + den := by linarith
    exact_mod_cast this
  have below : 2 * num < (2 * q + 1) * den := by
    have scaled : (num : ℚ) < (q + 1 / 2) * den := (div_lt_iff₀ size).mp (by linarith)
    have : (2 * num : ℚ) < (2 * q + 1) * den := by linarith
    exact_mod_cast this
  have parts : den * (num / den) + num % den = num := Nat.div_add_mod num den
  have rest : num % den < den := Nat.mod_lt num positive
  unfold roundDiv
  dsimp only
  generalize num / den = whole at parts ⊢
  generalize num % den = r at parts rest ⊢
  have least : whole ≤ q := by
    by_contra more
    have : den * (q + 1) ≤ den * whole := Nat.mul_le_mul_left den (by omega)
    linarith
  have most : q ≤ whole + 1 := by
    by_contra less
    have : den * (whole + 2) ≤ den * q := Nat.mul_le_mul_left den (by omega)
    linarith
  rcases Nat.lt_or_eq_of_le most with same | next
  · obtain rfl : whole = q := by omega
    have lower : 2 * r < den := by linarith
    rw [if_neg (by omega)]
  · subst next
    have upper : den < 2 * r := by linarith
    rw [if_pos (.inl upper)]

theorem roundDiv_mul_right (positive : 0 < k) (num den : Nat) :
    roundDiv (num * k) (den * k) = roundDiv num den := by
  have twice (r : Nat) : 2 * (r * k) = 2 * r * k := (Nat.mul_assoc 2 r k).symm
  simp only [roundDiv, Nat.mul_div_mul_right num den positive, Nat.mul_mod_mul_right, twice,
    Nat.mul_lt_mul_right positive, Nat.mul_right_cancel_iff positive]

theorem le_roundDiv : num / den ≤ roundDiv num den := by
  unfold roundDiv
  dsimp only
  split
  · exact Nat.le_succ _
  · exact Nat.le_refl _

theorem roundDiv_le : roundDiv num den ≤ num / den + 1 := by
  unfold roundDiv
  dsimp only
  split
  · exact Nat.le_refl _
  · exact Nat.le_succ _

/-! ### Quotients -/

theorem shifted_snd_pos (positive : 0 < den) (num : Nat) (e : Int) : 0 < (shifted num den e).2 := by
  unfold shifted
  split
  · exact positive
  · exact Nat.mul_pos positive (Nat.pow_pos (by decide))

theorem shifted_ratio (num den : Nat) (e : Int) :
    ((shifted num den e).1 : ℚ) / (shifted num den e).2 = (num : ℚ) / den / 2 ^ e := by
  unfold shifted
  split
  · rename_i negative
    rw [zpow_of_neg 2 negative, div_inv_eq_mul]
    push_cast [Nat.pow_eq]
    ring
  · rename_i nonneg
    rw [zpow_of_nonneg 2 (Int.not_lt.mp nonneg), div_div]
    push_cast [Nat.pow_eq]
    rfl

theorem shifted_mul (num den k : Nat) (e : Int) :
    shifted (num * k) (den * k) e = ((shifted num den e).1 * k, (shifted num den e).2 * k) := by
  unfold shifted
  split
  · rw [Nat.mul_right_comm]
  · rw [Nat.mul_right_comm]

/-- Where numerator and denominator lie between powers of a base, so does the quotient. -/
theorem ratio_bounds {b i j : Nat} (base : 0 < b) (numLow : b ^ i ≤ num) (numHigh : num < b ^ (i + 1))
    (denLow : b ^ j ≤ den) (denHigh : den < b ^ (j + 1)) :
    (b : ℚ) ^ ((i : Int) - j - 1) < (num : ℚ) / den ∧
      (num : ℚ) / den < (b : ℚ) ^ ((i : Int) - j + 1) := by
  have size : (0 : ℚ) < b := by exact_mod_cast base
  have denSize : (0 : ℚ) < den := by exact_mod_cast (Nat.pow_pos base).trans_le denLow
  have numLow : (b : ℚ) ^ (i : Int) ≤ num := by exact_mod_cast numLow
  have numHigh : (num : ℚ) < (b : ℚ) ^ ((i : Int) + 1) := by exact_mod_cast numHigh
  have denLow : (b : ℚ) ^ (j : Int) ≤ den := by exact_mod_cast denLow
  have denHigh : (den : ℚ) < (b : ℚ) ^ ((j : Int) + 1) := by exact_mod_cast denHigh
  constructor
  · rw [lt_div_iff₀ denSize]
    calc (b : ℚ) ^ ((i : Int) - j - 1) * den
      _ < (b : ℚ) ^ ((i : Int) - j - 1) * (b : ℚ) ^ ((j : Int) + 1) :=
        mul_lt_mul_of_pos_left denHigh (zpow_pos size _)
      _ = (b : ℚ) ^ (i : Int) := by
        rw [← zpow_add₀ size.ne']
        congr 1
        omega
      _ ≤ num := numLow
  · rw [div_lt_iff₀ denSize]
    calc (num : ℚ)
      _ < (b : ℚ) ^ ((i : Int) + 1) := numHigh
      _ = (b : ℚ) ^ ((i : Int) - j + 1) * (b : ℚ) ^ (j : Int) := by
        rw [← zpow_add₀ size.ne']
        congr 1
        omega
      _ ≤ (b : ℚ) ^ ((i : Int) - j + 1) * den :=
        mul_le_mul_of_nonneg_left denLow (zpow_pos size _).le

theorem floorLog_eq (numPos : 0 < num) (denPos : 0 < den) :
    floorLog num den = Int.log 2 ((num : ℚ) / den) := by
  obtain ⟨low, high⟩ := ratio_bounds (by decide) (Nat.log2_self_le numPos.ne') Nat.lt_log2_self
    (Nat.log2_self_le denPos.ne') Nat.lt_log2_self
  unfold floorLog
  dsimp only
  generalize ((num.log2 : Nat) : Int) - den.log2 = e at low high ⊢
  have size : (0 : ℚ) < (shifted num den e).2 := by exact_mod_cast shifted_snd_pos denPos num e
  have reached : (shifted num den e).2 ≤ (shifted num den e).1 ↔ (2 : ℚ) ^ e ≤ (num : ℚ) / den := by
    rw [← one_le_div (zpow_pos (two_pos (α := ℚ)) e), ← shifted_ratio, one_le_div size, Nat.cast_le]
  split
  · rename_i above
    exact (log_eq_of_bounds one_lt_two (reached.mp above) high).symm
  · rename_i below
    refine (log_eq_of_bounds one_lt_two low.le ?_).symm
    rw [Int.sub_add_cancel]
    exact not_le.mp (reached.not.mp below)

/-- How large a quotient is, measured by a power of two. -/
theorem le_floorLog_iff (numPos : 0 < num) (denPos : 0 < den) (e : Int) (k : Nat) :
    e + k ≤ floorLog num den ↔ (2 : ℚ) ^ k ≤ num / den / 2 ^ e := by
  have size : (0 : ℚ) < num / den := by positivity
  rw [floorLog_eq numPos denPos, ← Int.zpow_le_iff_le_log one_lt_two size,
    le_div_iff₀ (zpow_pos two_pos e), ← zpow_natCast, ← zpow_add₀ two_ne_zero, Int.add_comm,
    Nat.cast_ofNat]

/-! ### Rounding to 53 bits -/

/-- The exponent that a quotient is rounded at. -/
def gridExponent (num den : Nat) : Int := max (floorLog num den - 52) leastExponent

/-- A significand and its exponent as a number; one bit too many is carried. -/
def ofGrid (negative : Bool) (q : Nat) (e : Int) : Double :=
  let (q, e) := if q = Nat.pow 2 53 then (Nat.pow 2 52, e + 1) else (q, e)
  if 971 < e then infinite negative else finite negative q e

theorem ofRatio_eq (negative : Bool) (numPos : 0 < num) (den : Nat) :
    ofRatio negative num den = ofGrid negative
      (roundDiv (shifted num den (gridExponent num den)).1 (shifted num den (gridExponent num den)).2)
      (gridExponent num den) := by
  rw [ofRatio, if_neg numPos.ne']
  rfl

theorem ofRatio_zero (negative : Bool) (den : Nat) : ofRatio negative 0 den = zero negative :=
  if_pos rfl

theorem ofRatio_mul_right (negative : Bool) (positive : 0 < k) (denPos : 0 < den) (num : Nat) :
    ofRatio negative (num * k) (den * k) = ofRatio negative num den := by
  rcases Nat.eq_zero_or_pos num with rfl | numPos
  · rw [Nat.zero_mul, ofRatio_zero, ofRatio_zero]
  have size : (k : ℚ) ≠ 0 := by exact_mod_cast positive.ne'
  have same : gridExponent (num * k) (den * k) = gridExponent num den := by
    rw [gridExponent, gridExponent, floorLog_eq (Nat.mul_pos numPos positive)
      (Nat.mul_pos denPos positive), floorLog_eq numPos denPos, Nat.cast_mul, Nat.cast_mul,
      mul_div_mul_right _ _ size]
  rw [ofRatio_eq negative (Nat.mul_pos numPos positive), ofRatio_eq negative numPos, same,
    shifted_mul, roundDiv_mul_right positive]

/-- Only the value of a quotient counts. -/
theorem ofRatio_congr (negative : Bool) {num' den' : Nat} (denPos : 0 < den) (denPos' : 0 < den')
    (same : (num : ℚ) / den = num' / den') :
    ofRatio negative num den = ofRatio negative num' den' := by
  have crossed : num * den' = num' * den := by
    rw [div_eq_div_iff (by exact_mod_cast denPos.ne') (by exact_mod_cast denPos'.ne')] at same
    exact_mod_cast same
  calc ofRatio negative num den
    _ = ofRatio negative (num * den') (den * den') := (ofRatio_mul_right negative denPos' denPos num).symm
    _ = ofRatio negative (num' * den) (den' * den) := by rw [crossed, Nat.mul_comm den]
    _ = ofRatio negative num' den' := ofRatio_mul_right negative denPos denPos' num'

theorem isCanonical_zero (negative : Bool) : (zero negative).IsCanonical :=
  ⟨by decide, by decide, by decide, fun _ => rfl⟩

theorem ofGrid_of_lt (negative : Bool) (most : q < 2 ^ 53) (greatest : e ≤ 971) :
    ofGrid negative q e = finite negative q e := by
  rw [ofGrid, if_neg (by rw [Nat.pow_eq]; omega)]
  exact if_neg (by omega)

theorem ofGrid_carried (negative : Bool) (greatest : e ≤ 971) :
    ofGrid negative (2 ^ 53) (e - 1) = finite negative (2 ^ 52) e := by
  rw [ofGrid, if_pos (Nat.pow_eq).symm, Int.sub_add_cancel]
  exact if_neg (by omega)

theorem isCanonical_ofGrid (negative : Bool) (most : q ≤ 2 ^ 53) (least : leastExponent ≤ e)
    (full : q < 2 ^ 52 → e = leastExponent) : (ofGrid negative q e).IsCanonical := by
  unfold ofGrid
  simp only [Nat.pow_eq]
  split
  · dsimp only
    split
    · trivial
    · exact ⟨by decide, by omega, by omega, fun less => absurd less (by decide)⟩
  · dsimp only
    split
    · trivial
    · exact ⟨by omega, least, by omega, full⟩

/-- On its grid a quotient has at most 53 bits, and no less unless the exponent is the least one. -/
theorem grid_bounds (numPos : 0 < num) (denPos : 0 < den) :
    (num : ℚ) / den / 2 ^ gridExponent num den < 2 ^ 53 ∧
      (gridExponent num den = leastExponent ∨
        2 ^ 52 ≤ (num : ℚ) / den / 2 ^ gridExponent num den) := by
  have reaches := le_floorLog_iff numPos denPos (gridExponent num den)
  constructor
  · refine lt_of_not_ge (mt (reaches 53).mpr ?_)
    rw [gridExponent]
    omega
  · by_cases isLeast : gridExponent num den = leastExponent
    · exact .inl isLeast
    · refine .inr ((reaches 52).mp ?_)
      rw [gridExponent] at isLeast ⊢
      omega

/-- Rounding gives a number in canonical form. -/
theorem isCanonical_ofRatio (negative : Bool) (num : Nat) (denPos : 0 < den) :
    (ofRatio negative num den).IsCanonical := by
  rcases Nat.eq_zero_or_pos num with rfl | numPos
  · exact isCanonical_zero negative
  rw [ofRatio_eq negative numPos]
  obtain ⟨below, full⟩ := grid_bounds numPos denPos
  have least : leastExponent ≤ gridExponent num den := le_max_right _ _
  have positive := shifted_snd_pos denPos num (gridExponent num den)
  rw [← shifted_ratio] at below full
  generalize shifted num den (gridExponent num den) = parts at below full positive ⊢
  have size : (0 : ℚ) < parts.2 := by exact_mod_cast positive
  rw [div_lt_iff₀ size] at below
  rw [le_div_iff₀ size] at full
  refine isCanonical_ofGrid negative ?_ least fun less => full.resolve_right fun enough => ?_
  · have whole : parts.1 / parts.2 < 2 ^ 53 :=
      (Nat.div_lt_iff_lt_mul positive).mpr (by exact_mod_cast below)
    exact roundDiv_le.trans whole
  · have whole : 2 ^ 52 ≤ parts.1 / parts.2 :=
      (Nat.le_div_iff_mul_le positive).mpr (by exact_mod_cast enough)
    exact absurd (whole.trans le_roundDiv) (Nat.not_le_of_lt less)

/-! ### The sign -/

theorem ofRatio_true (num den : Nat) : ofRatio true num den = (ofRatio false num den).neg := by
  unfold ofRatio
  split
  · rfl
  · dsimp only
    split <;> (split <;> rfl)

theorem ofDecimal_true (digits : Nat) (exponent : Int) :
    ofDecimal true digits exponent = (ofDecimal false digits exponent).neg := by
  simp only [ofDecimal]
  split
  · rfl
  · split
    · rfl
    · split <;> exact ofRatio_true ..

/-! ### Quotients near a number -/

/-- How near to a number a quotient is that rounds to it: within the number divided by this. -/
def nearness : ℚ := 2 * 10 ^ 16

/-- Whether a quotient is so near to a number that it rounds to it. -/
def IsNear (x : ℚ) (m : Nat) (e : Int) : Prop := |x - m * 2 ^ e| * nearness ≤ m * 2 ^ e

section Near

variable {m : Nat} {x : ℚ}

/-- The distance in units of the last place. -/
theorem IsNear.abs_div_sub_le (near : IsNear x m e) : |x / 2 ^ e - m| ≤ m / nearness := by
  have unit : (0 : ℚ) < 2 ^ e := zpow_pos two_pos e
  have scaled : x / 2 ^ e - m = (x - m * 2 ^ e) / 2 ^ e := by field_simp
  rw [scaled, abs_div, abs_of_pos unit, div_le_div_iff₀ unit (by norm_num [nearness])]
  exact near

/-- A significand that is small enough is missed by less than half a unit. -/
theorem div_nearness_lt (most : m ≤ 2 ^ 53) : (m : ℚ) / nearness < 1 / 2 := by
  have size : (m : ℚ) ≤ 2 ^ 53 := by exact_mod_cast most
  rw [div_lt_iff₀ (by norm_num [nearness])]
  norm_num [nearness]
  linarith

theorem ofRatio_of_grid (negative : Bool) (numPos : 0 < num) (denPos : 0 < den)
    (isGrid : gridExponent num den = e) (near : |(num : ℚ) / den / 2 ^ e - q| < 1 / 2) :
    ofRatio negative num den = ofGrid negative q e := by
  rw [ofRatio_eq negative numPos, isGrid]
  rw [← shifted_ratio] at near
  rw [roundDiv_of_near (shifted_snd_pos denPos num e) near]

/-- A quotient near to a number is more than half a unit of the last place. -/
theorem IsNear.half_lt (near : IsNear x m e) (most : m < 2 ^ 53) (positive : 0 < m) :
    1 / 2 < x / 2 ^ e := by
  have atLeastOne : (1 : ℚ) ≤ m := by exact_mod_cast positive
  have low := (abs_le.mp near.abs_div_sub_le).1
  have half := div_nearness_lt most.le
  linarith

/-- The grid of a quotient near to a number is that of the number. Only just below a power of two it
is twice as fine. -/
theorem gridExponent_of_isNear (canonical : (finite negative m e).IsCanonical) (numPos : 0 < num)
    (denPos : 0 < den) (near : IsNear ((num : ℚ) / den) m e) :
    gridExponent num den = e ∨ gridExponent num den = e - 1 ∧ m = 2 ^ 52 := by
  obtain ⟨most, least, -, full⟩ := canonical
  have half := div_nearness_lt most.le
  obtain ⟨low, high⟩ := abs_le.mp near.abs_div_sub_le
  have bound : (m : ℚ) + 1 ≤ 2 ^ 53 := by exact_mod_cast most
  have reaches := le_floorLog_iff numPos denPos e
  have above : leastExponent ≤ gridExponent num den := le_max_right _ _
  have below : gridExponent num den ≤ e := by
    have notReached : ¬ e + (53 : Nat) ≤ floorLog num den := by
      rw [reaches, not_le]
      linarith
    rw [gridExponent]
    omega
  rcases below.eq_or_lt with same | less
  · exact .inl same
  have notReached : ¬ e + (52 : Nat) ≤ floorLog num den := by
    rw [gridExponent] at less
    omega
  have noLess : 2 ^ 52 ≤ m := by
    by_contra small
    have := full (by omega)
    omega
  have isPower : m = 2 ^ 52 := by
    refine le_antisymm (Nat.le_of_not_lt fun more => notReached ?_) noLess
    have more : (2 ^ 52 : ℚ) + 1 ≤ m := by exact_mod_cast more
    rw [reaches]
    linarith
  have almost : e + (51 : Nat) ≤ floorLog num den := by
    rw [reaches]
    have size : (2 ^ 52 : ℚ) ≤ m := by exact_mod_cast noLess
    linarith
  refine .inr ⟨?_, isPower⟩
  rw [gridExponent] at less above ⊢
  omega

theorem ofRatio_of_isNear (negative : Bool) (canonical : (finite negative m e).IsCanonical)
    (positive : 0 < m) (denPos : 0 < den) (near : IsNear ((num : ℚ) / den) m e) :
    ofRatio negative num den = finite negative m e := by
  have most : m < 2 ^ 53 := canonical.1
  have greatest : e ≤ 971 := canonical.2.2.1
  have missed := near.abs_div_sub_le
  have numPos : 0 < num := by
    have sizeable := near.half_lt most positive
    rcases Nat.eq_zero_or_pos num with rfl | numPos
    · norm_num at sizeable
    · exact numPos
  rcases gridExponent_of_isNear canonical numPos denPos near with same | ⟨isGrid, rfl⟩
  · rw [ofRatio_of_grid negative numPos denPos same (missed.trans_lt (div_nearness_lt most.le))]
    exact ofGrid_of_lt negative most greatest
  · -- On the finer grid the result is carried.
    have twice : (num : ℚ) / den / 2 ^ (e - 1) = 2 * (num / den / 2 ^ e) := by
      rw [zpow_sub_one₀ two_ne_zero]
      field_simp
    obtain ⟨low, high⟩ := abs_le.mp missed
    have near : |(num : ℚ) / den / 2 ^ (e - 1) - (2 ^ 53 : Nat)| < 1 / 2 := by
      rw [twice, abs_lt]
      norm_num [nearness] at low high ⊢
      constructor <;> linarith
    rw [ofRatio_of_grid negative numPos denPos isGrid near]
    exact ofGrid_carried negative greatest

end Near

/-! ### Decimal numbers -/

section Decimals

variable {n digits digits' m : Nat} {exponent exponent' : Int}

theorem decimalSize_pos (positive : 0 < n) : 0 < decimalSize n := by
  rw [decimalSize, if_neg positive.ne']
  exact Nat.length_toDigits_pos

theorem decimalSize_bounds (positive : 0 < n) :
    10 ^ (decimalSize n - 1) ≤ n ∧ n < 10 ^ (decimalSize n - 1 + 1) := by
  have size := decimalSize_pos positive
  have least {k : Nat} (some : 0 < k) : decimalSize n ≤ k ↔ n < 10 ^ k := by
    rw [decimalSize, if_neg positive.ne']
    exact Nat.length_toDigits_le_iff (by decide) some
  constructor
  · rcases Nat.eq_zero_or_pos (decimalSize n - 1) with one | more
    · rw [one]
      exact positive
    · refine Nat.le_of_not_lt fun less => ?_
      have := (least more).mpr less
      omega
  · rw [Nat.sub_add_cancel size]
    exact (least size).mp (Nat.le_refl _)

/-- The number that digits and a power of ten denote. -/
def decimal (digits : Nat) (exponent : Int) : ℚ := digits * 10 ^ exponent

theorem decimal_pos_iff (exponent : Int) : 0 < decimal digits exponent ↔ 0 < digits := by
  rw [decimal, mul_pos_iff_of_pos_right (zpow_pos (by norm_num) exponent), Nat.cast_pos]

/-- The place of the first digit from the decimal point. -/
theorem decimalSize_add (positive : 0 < digits) (exponent : Int) :
    (decimalSize digits : Int) + exponent = Int.log 10 (decimal digits exponent) + 1 := by
  obtain ⟨low, high⟩ := decimalSize_bounds positive
  have size := decimalSize_pos positive
  have unit : (0 : ℚ) < 10 ^ exponent := zpow_pos (by norm_num) exponent
  have low : (10 : ℚ) ^ ((decimalSize digits : Int) - 1) ≤ digits := by
    rw [← Nat.cast_pred size, zpow_natCast]
    exact_mod_cast low
  have high : (digits : ℚ) < 10 ^ (decimalSize digits : Int) := by
    rw [Nat.sub_add_cancel size] at high
    exact_mod_cast high
  have place : Int.log 10 (decimal digits exponent) = decimalSize digits - 1 + exponent := by
    refine log_eq_of_bounds (by decide) ?_ ?_
    · rw [Nat.cast_ofNat, zpow_add₀ (by norm_num)]
      exact mul_le_mul_of_nonneg_right low unit.le
    · have next : (decimalSize digits : Int) - 1 + exponent + 1 = decimalSize digits + exponent := by
        omega
      rw [Nat.cast_ofNat, next, zpow_add₀ (by norm_num)]
      exact mul_lt_mul_of_pos_right high unit
  omega

/-- A number that is neither too great nor too small is rounded as a quotient. -/
theorem exists_ofDecimal (negative : Bool) (positive : 0 < digits) (exponent : Int) :
    ∃ num den : Nat, 0 < den ∧ (num : ℚ) / den = decimal digits exponent ∧
      ofDecimal negative digits exponent =
        if Int.log 10 (decimal digits exponent) + 1 < -330 then zero negative
        else if 310 < Int.log 10 (decimal digits exponent) + 1 then infinite negative
        else ofRatio negative num den := by
  have some : digits ≠ 0 := positive.ne'
  simp only [ofDecimal, decimalSize_add positive, some, false_or]
  by_cases below : exponent < 0
  · refine ⟨digits, 10 ^ (-exponent).toNat, Nat.pow_pos (by decide), ?_, by rw [if_pos below]; rfl⟩
    rw [decimal, zpow_of_neg 10 below]
    push_cast
    exact div_eq_mul_inv ..
  · refine ⟨digits * 10 ^ exponent.toNat, 1, Nat.one_pos, ?_, by rw [if_neg below]; rfl⟩
    rw [decimal, zpow_of_nonneg 10 (Int.not_lt.mp below)]
    push_cast
    exact div_one _

theorem ofDecimal_zero (negative : Bool) (exponent : Int) :
    ofDecimal negative 0 exponent = zero negative := by
  rw [ofDecimal, if_pos (.inl rfl)]

/-- Only the value of a decimal number counts. -/
theorem ofDecimal_congr (negative : Bool) (same : decimal digits exponent = decimal digits' exponent') :
    ofDecimal negative digits exponent = ofDecimal negative digits' exponent' := by
  have both : 0 < digits ↔ 0 < digits' := by
    rw [← decimal_pos_iff exponent, same, decimal_pos_iff]
  rcases Nat.eq_zero_or_pos digits with rfl | positive
  · obtain rfl : digits' = 0 := by omega
    rw [ofDecimal_zero, ofDecimal_zero]
  · obtain ⟨num, den, denPos, value, rounded⟩ := exists_ofDecimal negative positive exponent
    obtain ⟨num', den', denPos', value', rounded'⟩ :=
      exists_ofDecimal negative (both.mp positive) exponent'
    rw [rounded, rounded', same, ofRatio_congr negative denPos denPos' (by rw [value, value', same])]

theorem decimal_mul_pow (digits k : Nat) (exponent : Int) :
    decimal (digits * 10 ^ k) exponent = decimal digits (exponent + k) := by
  rw [decimal, decimal, zpow_add₀ (by norm_num), zpow_natCast]
  push_cast
  ring

theorem greatest_lt : (2 : ℚ) ^ (1024 : Int) ≤ 10 ^ (310 : Int) := by
  have : 2 ^ 1024 ≤ 10 ^ 310 := by decide +kernel
  exact_mod_cast this

theorem lt_least : (10 : ℚ) ^ (-331 : Int) ≤ 2 ^ (-1075 : Int) := by
  have : 2 ^ 1075 ≤ 10 ^ 331 := by decide +kernel
  rw [zpow_neg, zpow_neg]
  exact inv_anti₀ (by positivity) (by exact_mod_cast this)

/-- A number in canonical form is what every decimal number near to it rounds to. -/
theorem ofDecimal_of_isNear (negative : Bool) (canonical : (finite negative m e).IsCanonical)
    (positive : 0 < m) (near : IsNear (decimal digits exponent) m e) :
    ofDecimal negative digits exponent = finite negative m e := by
  obtain ⟨low, high⟩ := abs_le.mp near.abs_div_sub_le
  obtain ⟨most, least, greatest, -⟩ := id canonical
  have unit : (0 : ℚ) < 2 ^ e := zpow_pos two_pos e
  have half := div_nearness_lt most.le
  have atLeastOne : (1 : ℚ) ≤ m := by exact_mod_cast positive
  have bound : (m : ℚ) + 1 ≤ 2 ^ 53 := by exact_mod_cast most
  have above : (2 : ℚ) ^ (-1075 : Int) ≤ decimal digits exponent :=
    calc (2 : ℚ) ^ (-1075 : Int)
      _ ≤ 2 ^ (-1 + e) := zpow_le_zpow_right₀ one_le_two (by rw [leastExponent] at least; omega)
      _ = 2 ^ (-1 : Int) * 2 ^ e := zpow_add₀ two_ne_zero _ _
      _ ≤ decimal digits exponent := by
        rw [← le_div_iff₀ unit]
        norm_num at half ⊢
        linarith
  have below : decimal digits exponent < (2 : ℚ) ^ (1024 : Int) :=
    calc decimal digits exponent
      _ < 2 ^ (53 : Int) * 2 ^ e := by
        rw [← div_lt_iff₀ unit]
        norm_num at half bound ⊢
        linarith
      _ = 2 ^ (53 + e) := (zpow_add₀ two_ne_zero _ _).symm
      _ ≤ 2 ^ (1024 : Int) := zpow_le_zpow_right₀ one_le_two (by omega)
  have digitsPos : 0 < digits := (decimal_pos_iff exponent).mp ((zpow_pos two_pos _).trans_le above)
  obtain ⟨num, den, denPos, value, rounded⟩ := exists_ofDecimal negative digitsPos exponent
  have value_pos := (decimal_pos_iff exponent).mpr digitsPos
  have notSmall : -331 ≤ Int.log 10 (decimal digits exponent) := by
    refine (Int.zpow_le_iff_le_log (by decide) value_pos).mp ?_
    rw [Nat.cast_ofNat]
    exact lt_least.trans above
  have notGreat : Int.log 10 (decimal digits exponent) < 310 := by
    refine (Int.lt_zpow_iff_log_lt (by decide) value_pos).mp ?_
    rw [Nat.cast_ofNat]
    exact below.trans_le greatest_lt
  rw [rounded, if_neg (by omega), if_neg (by omega)]
  exact ofRatio_of_isNear negative canonical positive denPos (value ▸ near)

theorem isCanonical_ofDecimal (negative : Bool) (digits : Nat) (exponent : Int) :
    (ofDecimal negative digits exponent).IsCanonical := by
  rcases Nat.eq_zero_or_pos digits with rfl | positive
  · rw [ofDecimal_zero]
    exact isCanonical_zero negative
  · obtain ⟨num, den, denPos, -, rounded⟩ := exists_ofDecimal negative positive exponent
    rw [rounded]
    split
    · exact isCanonical_zero negative
    · split
      · trivial
      · exact isCanonical_ofRatio negative num denPos

end Decimals

end Double
end InlineQuery
