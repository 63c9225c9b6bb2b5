import InlineQuery.Number.Shortest
import InlineQuery.Proofs.Data.Digits
import InlineQuery.Proofs.Number.Rounding
import Mathlib.Algebra.Order.Floor.Semifield
import Mathlib.Data.List.TakeWhile
import Mathlib.Tactic.IntervalCases

/-!
The digits that a floating point number is written with. The search for the shortest ones ends with
digits that read back as the number, since seventeen digits always do.
-/

namespace InlineQuery.Double

variable {num den n m : Nat} {e scale : Int}

/-! ### The place of the first digit -/

theorem above_iff (denPos : 0 < den) (place : Int) :
    (if place < 0 then num * Nat.pow 10 (-place).toNat < den
      else num < den * Nat.pow 10 place.toNat) ↔ (num : ℚ) / den < 10 ^ place := by
  have size : (0 : ℚ) < den := by exact_mod_cast denPos
  rw [div_lt_iff₀ size]
  split
  · rename_i below
    rw [zpow_of_neg 10 below, lt_inv_mul_iff₀ (by positivity), mul_comm, Nat.pow_eq]
    exact_mod_cast Iff.rfl
  · rename_i nonneg
    rw [zpow_of_nonneg 10 (Int.not_lt.mp nonneg), mul_comm, Nat.pow_eq]
    exact_mod_cast Iff.rfl

theorem placeFrom_eq (numPos : 0 < num) (denPos : 0 < den) {place : Int} {fuel : Nat}
    (low : place ≤ Int.log 10 ((num : ℚ) / den) + 1)
    (enough : Int.log 10 ((num : ℚ) / den) + 1 < place + fuel) :
    placeFrom num den place fuel = Int.log 10 ((num : ℚ) / den) + 1 := by
  have positive : (0 : ℚ) < num / den := by positivity
  induction fuel generalizing place with
  | zero => omega
  | succ fuel ih =>
    have reached : (num : ℚ) / den < 10 ^ place ↔ Int.log 10 ((num : ℚ) / den) < place := by
      rw [← Int.lt_zpow_iff_log_lt (by decide) positive, Nat.cast_ofNat]
    rw [placeFrom]
    simp only [above_iff denPos, reached]
    split
    · omega
    · exact ih (by omega) (by omega)

theorem place_eq (numPos : 0 < num) (denPos : 0 < den) :
    place num den = Int.log 10 ((num : ℚ) / den) + 1 := by
  have positive : (0 : ℚ) < num / den := by positivity
  obtain ⟨numLow, numHigh⟩ := decimalSize_bounds numPos
  obtain ⟨denLow, denHigh⟩ := decimalSize_bounds denPos
  obtain ⟨low, high⟩ := ratio_bounds (by decide) numLow numHigh denLow denHigh
  have least := (Int.zpow_le_iff_le_log (by decide) positive).mp low.le
  have greatest := (Int.lt_zpow_iff_log_lt (by decide) positive).mp high
  have numSize := decimalSize_pos numPos
  have denSize := decimalSize_pos denPos
  exact placeFrom_eq numPos denPos (by omega) (by omega)

/-! ### The search -/

/-- What is searched on a grid is the whole part of a quotient and what follows it. -/
theorem neighbours_eq (num den : Nat) (scale : Int) : ∃ (num' den' : Nat) (upper : Bool),
    (0 < den → 0 < den') ∧ (num' : ℚ) / den' = (num : ℚ) / den / 10 ^ scale ∧
      neighbours num den scale = (num' / den', num' / den' + 1, upper) := by
  unfold neighbours
  by_cases below : scale < 0
  · refine ⟨num * 10 ^ (-scale).toNat, den, _, id, ?_, by rw [if_pos below]; rfl⟩
    rw [zpow_of_neg 10 below, div_inv_eq_mul]
    push_cast
    ring
  · refine ⟨num, den * 10 ^ scale.toNat, _, fun given => Nat.mul_pos given (Nat.pow_pos (by decide)),
      ?_, by rw [if_neg below]; rfl⟩
    rw [zpow_of_nonneg 10 (Int.not_lt.mp below), div_div]
    push_cast
    rfl

/-- Of the points of a grid next to a quotient one is at most half a step away. -/
theorem neighbours_near (denPos : 0 < den) (num : Nat) (scale : Int) :
    |decimal (neighbours num den scale).1 scale - (num : ℚ) / den| ≤ 10 ^ scale / 2 ∨
      |decimal (neighbours num den scale).2.1 scale - (num : ℚ) / den| ≤ 10 ^ scale / 2 := by
  obtain ⟨num', den', upper, positive, value, parts⟩ := neighbours_eq num den scale
  have unit : (0 : ℚ) < 10 ^ scale := zpow_pos (by norm_num) scale
  have size : (0 : ℚ) < den' := by exact_mod_cast positive denPos
  have low : ((num' / den' : Nat) : ℚ) ≤ num' / den' := by
    rw [← Nat.floor_div_eq_div (K := ℚ)]
    exact Nat.floor_le (by positivity)
  have high : (num' : ℚ) / den' < ((num' / den' : Nat) : ℚ) + 1 := by
    rw [← Nat.floor_div_eq_div (K := ℚ)]
    exact Nat.lt_floor_add_one _
  have scaled (k : Nat) : decimal k scale - (num : ℚ) / den = (k - num' / den') * 10 ^ scale := by
    rw [value, decimal]
    field_simp
  have half {k : Nat} (near : |(k : ℚ) - num' / den'| ≤ 1 / 2) :
      |decimal k scale - (num : ℚ) / den| ≤ 10 ^ scale / 2 := by
    rw [scaled, abs_mul, abs_of_pos unit]
    linarith [mul_le_mul_of_nonneg_right near unit.le]
  rw [parts]
  rcases le_total ((num' : ℚ) / den' - (num' / den' : Nat)) (1 / 2) with lower | upper
  · exact .inl (half (abs_le.mpr ⟨by linarith, by linarith⟩))
  · refine .inr (half ?_)
    rw [Nat.cast_succ, abs_le]
    constructor <;> linarith

/-- Whether digits at a scale read back as a number. -/
def Hits (m : Nat) (e : Int) (digits : Nat) (scale : Int) : Prop :=
  ofDecimal false digits scale = finite false m e

/-- The search gives digits that read back if there are some at one of the scales. -/
theorem hits_shortestFrom (num den : Nat) (scale : Int) (fuel : Nat)
    (hit : ∃ k < fuel, Hits m e (neighbours num den (scale - k)).1 (scale - k) ∨
      Hits m e (neighbours num den (scale - k)).2.1 (scale - k)) :
    Hits m e (shortestFrom m e num den scale fuel).1 (shortestFrom m e num den scale fuel).2 := by
  induction fuel generalizing scale with
  | zero =>
    obtain ⟨k, less, -⟩ := hit
    omega
  | succ fuel ih =>
    rw [shortestFrom]
    dsimp only
    split
    · rename_i isLow
      exact isLow.1
    rename_i notLow
    split
    · rename_i isHigh
      exact isHigh
    rename_i notHigh
    refine ih (scale - 1) ?_
    obtain ⟨k, less, found⟩ := hit
    rcases k with _ | k
    · rw [Int.natCast_zero, Int.sub_zero] at found
      rcases found with low | high
      · exact absurd ⟨low, fun both => notHigh both.1⟩ notLow
      · exact absurd high notHigh
    · refine ⟨k, by omega, ?_⟩
      have further : scale - (k + 1 : Nat) = scale - 1 - k := by omega
      rwa [further] at found

theorem ratio_spec (m : Nat) (e : Int) :
    0 < (ratio m e).2 ∧ ((ratio m e).1 : ℚ) / (ratio m e).2 = m * 2 ^ e := by
  unfold ratio
  split
  · rename_i negative
    refine ⟨Nat.pow_pos (by decide), ?_⟩
    rw [zpow_of_neg 2 negative]
    push_cast [Nat.pow_eq]
    exact div_eq_mul_inv ..
  · rename_i nonneg
    refine ⟨Nat.one_pos, ?_⟩
    rw [zpow_of_nonneg 2 (Int.not_lt.mp nonneg)]
    push_cast [Nat.pow_eq]
    exact div_one _

/-- Seventeen digits are enough for a number in canonical form. -/
theorem hits_seventeen (canonical : (finite false m e).IsCanonical) (positive : 0 < m) :
    let scale := place (ratio m e).1 (ratio m e).2 - 17
    Hits m e (neighbours (ratio m e).1 (ratio m e).2 scale).1 scale ∨
      Hits m e (neighbours (ratio m e).1 (ratio m e).2 scale).2.1 scale := by
  obtain ⟨denPos, value⟩ := ratio_spec m e
  have valuePos : (0 : ℚ) < m * 2 ^ e := by positivity
  have numPos : 0 < (ratio m e).1 := by
    rw [← value, div_pos_iff_of_pos_right (by exact_mod_cast denPos)] at valuePos
    exact_mod_cast valuePos
  intro scale
  have step : (10 : ℚ) ^ scale * 10 ^ (16 : Int) ≤ m * 2 ^ e := by
    have isPlace : scale + 16 = Int.log 10 ((m : ℚ) * 2 ^ e) := by
      have := place_eq numPos denPos
      rw [value] at this
      omega
    rw [← zpow_add₀ (by norm_num), isPlace]
    exact_mod_cast Int.zpow_log_le_self (b := 10) (by decide) valuePos
  have isNear {digits : Nat} (half : |decimal digits scale - m * 2 ^ e| ≤ 10 ^ scale / 2) :
      Hits m e digits scale := by
    refine ofDecimal_of_isNear false canonical positive ?_
    rw [IsNear, nearness]
    norm_num at step ⊢
    linarith
  have near := neighbours_near denPos (ratio m e).1 scale
  rw [value] at near
  exact near.imp isNear isNear

/-! ### The digits of a number -/

theorem head?_toDigits (positive : 0 < n) : (Nat.toDigits 10 n).head? ≠ some '0' := by
  induction n using Nat.strong_induction_on with
  | _ n ih =>
    rw [Nat.toDigits_eq_if (by decide)]
    split
    · rename_i single
      interval_cases n <;> decide
    · rename_i more
      rw [List.head?_append_of_ne_nil _ Nat.toDigits_ne_nil]
      exact ih (n / 10) (Nat.div_lt_self positive (by decide)) (by omega)

/-- Digits, and the place of the decimal point from the first of them, that stand for a number. -/
structure StandFor (digits : List Char) (place : Int) (m : Nat) (e : Int) : Prop where
  areDigits : ∀ c ∈ digits, c.isDigit = true
  given : digits ≠ []
  noZero : digits.head? ≠ some '0'
  least : -330 ≤ place
  greatest : place ≤ 310
  value : Hits m e (naturalOf digits) (place - digits.length)

/-- Digits that read back as a number have their first place within the bounds of all numbers. -/
theorem Hits.place_bounds {digits : Nat} (hits : Hits m e digits scale) (positive : 0 < m) :
    0 < digits ∧ -330 ≤ (decimalSize digits : Int) + scale ∧
      (decimalSize digits : Int) + scale ≤ 310 := by
  have notZero (least : Int) : finite false 0 least ≠ finite false m e := by
    intro same
    cases same
    exact absurd positive (Nat.lt_irrefl 0)
  unfold Hits ofDecimal at hits
  dsimp only at hits
  split at hits
  · exact absurd hits (notZero _)
  · rename_i notSmall
    split at hits
    · cases hits
    · omega

/-- Without the zeros at their end digits stand for the same number. -/
theorem exists_zeros (digits : List Char) :
    ∃ k, digits = (digits.reverse.dropWhile (· == '0')).reverse ++ List.replicate k '0' := by
  refine ⟨(digits.reverse.takeWhile (· == '0')).length, ?_⟩
  have zeros : digits.reverse.takeWhile (· == '0') =
      List.replicate (digits.reverse.takeWhile (· == '0')).length '0' :=
    List.eq_replicate_iff.mpr ⟨rfl, fun c member => by simpa using List.mem_takeWhile_imp member⟩
  rw [← List.reverse_replicate, ← zeros, ← List.reverse_append, List.takeWhile_append_dropWhile,
    List.reverse_reverse]

theorem shortest_standFor (canonical : (finite false m e).IsCanonical) (positive : 0 < m) :
    StandFor (shortest m e).1 (shortest m e).2 m e := by
  have hits : Hits m e _ _ := hits_shortestFrom (ratio m e).1 (ratio m e).2
    (place (ratio m e).1 (ratio m e).2 - 1) 17
    ⟨16, by decide, by simpa [Int.sub_sub] using hits_seventeen canonical positive⟩
  unfold shortest
  dsimp only
  generalize shortestFrom m e (ratio m e).1 (ratio m e).2
    (place (ratio m e).1 (ratio m e).2 - 1) 17 = found at hits ⊢
  obtain ⟨n, scale⟩ := found
  dsimp only at hits ⊢
  obtain ⟨some, least, greatest⟩ := hits.place_bounds positive
  rw [decimalSize, if_neg some.ne'] at least greatest
  obtain ⟨k, whole⟩ := exists_zeros (Nat.toDigits 10 n)
  have digits : ∀ c ∈ Nat.toDigits 10 n, c.isDigit = true := fun c =>
    Nat.isDigit_of_mem_toDigits (by decide) (by decide)
  have first := head?_toDigits some
  have value := naturalOf_toDigits n
  generalize ((Nat.toDigits 10 n).reverse.dropWhile (· == '0')).reverse = stripped at whole ⊢
  generalize Nat.toDigits 10 n = text at *
  subst whole
  rw [naturalOf_append_zeros] at value
  have given : stripped ≠ [] := by
    rintro rfl
    rw [show naturalOf [] = 0 from rfl, Nat.zero_mul] at value
    omega
  rw [List.head?_append_of_ne_nil _ given] at first
  refine ⟨fun c member => digits c (List.mem_append_left _ member), given, first, least, greatest, ?_⟩
  subst value
  rw [Hits] at hits ⊢
  rw [← hits]
  refine ofDecimal_congr false ?_
  rw [decimal_mul_pow, List.length_append, List.length_replicate]
  congr 1
  omega

end InlineQuery.Double
