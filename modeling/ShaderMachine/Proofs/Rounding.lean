import Mathlib.Algebra.Order.Field.Power
import Mathlib.Algebra.Order.Floor.Semifield
import Mathlib.Data.Int.Log
import Mathlib.Data.Rat.Floor
import Mathlib.Tactic.FieldSimp
import Mathlib.Tactic.Linarith
import Mathlib.Tactic.Positivity
import Mathlib.Tactic.Ring
import ShaderMachine.Decimal.FloatFormat

/-! # Rounding ratios to floats

Rounding is done on naturals, but what it yields depends on the value of the ratio alone, and the
float that equals a ratio is the one the ratio is rounded to.

* **`binaryOrder_eq_log`** — the binary order of a ratio is the logarithm of its value.
* **`roundRatio_congr`** — ratios of the same value are rounded to the same float.
* **`roundRatio_unpack`** — a ratio that equals a finite float is rounded to that float. -/

namespace ShaderMachine

/-! ## Logarithms of ratios -/

/-- The logarithm is the only exponent whose power lies at the value or below while the next power
lies above. -/
theorem log_eq_of_bounds {base : ℕ} (one_lt : 1 < base) {value : ℚ} {k : ℤ}
    (lower : (base : ℚ) ^ k ≤ value) (upper : value < (base : ℚ) ^ (k + 1)) :
    Int.log base value = k := by
  have base_pos : (0 : ℚ) < base := by exact_mod_cast Nat.lt_trans Nat.zero_lt_one one_lt
  have value_pos : 0 < value := lt_of_lt_of_le (zpow_pos base_pos k) lower
  have h₁ : k ≤ Int.log base value := (Int.zpow_le_iff_le_log one_lt value_pos).mp lower
  have h₂ : Int.log base value < k + 1 := (Int.lt_zpow_iff_log_lt one_lt value_pos).mp upper
  omega

/-- A power of two with an integer exponent is split into its numerator and its denominator. -/
theorem two_zpow_eq_div (exponent : ℤ) :
    (2 : ℚ) ^ exponent = 2 ^ exponent.toNat / 2 ^ (-exponent).toNat := by
  rw [eq_div_iff (by positivity), ← zpow_natCast, ← zpow_natCast, ← zpow_add₀ (by norm_num)]
  congr 1
  omega

/-- Dividing a ratio by a power of two divides its value. -/
theorem dividePowerOfTwo_value (numerator denominator : ℕ) (exponent : ℤ) :
    ((dividePowerOfTwo numerator denominator exponent).1 : ℚ) /
        (dividePowerOfTwo numerator denominator exponent).2 =
      (numerator : ℚ) / denominator / 2 ^ exponent := by
  simp only [dividePowerOfTwo]
  push_cast
  rw [two_zpow_eq_div]
  field_simp

/-- A ratio divided by a power of two still has a positive denominator. -/
theorem dividePowerOfTwo_denominator_pos (numerator : ℕ) {denominator : ℕ}
    (positive : 0 < denominator) (exponent : ℤ) :
    0 < (dividePowerOfTwo numerator denominator exponent).2 :=
  Nat.mul_pos positive (Nat.two_pow_pos _)

/-- Naturals compare like the value of their ratio compares with one. -/
theorem div_lt_one_iff_lt (numerator : ℕ) {denominator : ℕ} (positive : 0 < denominator) :
    (numerator : ℚ) / denominator < 1 ↔ numerator < denominator := by
  have : (0 : ℚ) < denominator := by exact_mod_cast positive
  rw [div_lt_one this]
  exact Nat.cast_lt

namespace FloatFormat

/-- A ratio lies within a factor of two of the power that the lengths of its parts suggest. -/
theorem ratio_bounds {numerator denominator : ℕ} (numerator_pos : 0 < numerator)
    (denominator_pos : 0 < denominator) :
    (2 : ℚ) ^ ((numerator.log2 : ℤ) - denominator.log2 - 1) ≤ (numerator : ℚ) / denominator ∧
      (numerator : ℚ) / denominator < 2 ^ ((numerator.log2 : ℤ) - denominator.log2 + 1) := by
  have numerator_low : (2 : ℚ) ^ numerator.log2 ≤ numerator := by
    exact_mod_cast Nat.log2_self_le (Nat.pos_iff_ne_zero.mp numerator_pos)
  have numerator_high : (numerator : ℚ) < 2 ^ (numerator.log2 + 1) := by
    exact_mod_cast Nat.lt_log2_self
  have denominator_low : (2 : ℚ) ^ denominator.log2 ≤ denominator := by
    exact_mod_cast Nat.log2_self_le (Nat.pos_iff_ne_zero.mp denominator_pos)
  have denominator_high : (denominator : ℚ) < 2 ^ (denominator.log2 + 1) := by
    exact_mod_cast Nat.lt_log2_self
  have positive : (0 : ℚ) < denominator := by exact_mod_cast denominator_pos
  -- Each length bounds its number from both sides by powers of two.
  rw [← zpow_natCast] at numerator_low numerator_high denominator_low denominator_high
  push_cast at numerator_high denominator_high
  constructor
  · rw [le_div_iff₀ positive]
    calc (2 : ℚ) ^ ((numerator.log2 : ℤ) - denominator.log2 - 1) * denominator
        ≤ 2 ^ ((numerator.log2 : ℤ) - denominator.log2 - 1) * 2 ^ ((denominator.log2 : ℤ) + 1) := by
          gcongr
      _ = 2 ^ (numerator.log2 : ℤ) := by
          rw [← zpow_add₀ (by norm_num)]
          congr 1
          ring
      _ ≤ numerator := numerator_low
  · rw [div_lt_iff₀ positive]
    calc (numerator : ℚ) < 2 ^ ((numerator.log2 : ℤ) + 1) := numerator_high
      _ = 2 ^ ((numerator.log2 : ℤ) - denominator.log2 + 1) * 2 ^ (denominator.log2 : ℤ) := by
          rw [← zpow_add₀ (by norm_num)]
          congr 1
          ring
      _ ≤ 2 ^ ((numerator.log2 : ℤ) - denominator.log2 + 1) * denominator := by gcongr

/-- The binary order of a positive ratio is the logarithm of its value. -/
theorem binaryOrder_eq_log {numerator denominator : ℕ} (numerator_pos : 0 < numerator)
    (denominator_pos : 0 < denominator) :
    binaryOrder numerator denominator = Int.log 2 ((numerator : ℚ) / denominator) := by
  obtain ⟨lower, upper⟩ := ratio_bounds numerator_pos denominator_pos
  set guess : ℤ := (numerator.log2 : ℤ) - denominator.log2 with guess_eq
  have power_pos : (0 : ℚ) < 2 ^ guess := zpow_pos (by norm_num) guess
  have scaled := dividePowerOfTwo_value numerator denominator guess
  have below_iff := div_lt_one_iff_lt (dividePowerOfTwo numerator denominator guess).1
    (dividePowerOfTwo_denominator_pos numerator denominator_pos guess)
  rw [scaled, div_lt_one power_pos] at below_iff
  simp only [binaryOrder, ← guess_eq]
  -- The guess is too large by one exactly if the ratio lies below its power.
  by_cases below : (numerator : ℚ) / denominator < 2 ^ guess
  · rw [if_pos (below_iff.mp below)]
    refine (log_eq_of_bounds (by norm_num) (by exact_mod_cast lower) ?_).symm
    rw [sub_add_cancel]
    exact_mod_cast below
  · rw [if_neg (fun h => below (below_iff.mpr h))]
    refine (log_eq_of_bounds (by norm_num) ?_ (by exact_mod_cast upper)).symm
    exact_mod_cast not_lt.mp below

end FloatFormat

/-! ## Rounding to naturals -/

/-- A common factor of numerator and denominator does not matter. -/
theorem roundHalfEven_mul_right (numerator denominator : ℕ) {factor : ℕ} (positive : 0 < factor) :
    roundHalfEven (numerator * factor) (denominator * factor) =
      roundHalfEven numerator denominator := by
  have quotient : numerator * factor / (denominator * factor) = numerator / denominator :=
    Nat.mul_div_mul_right _ _ positive
  have remainder : numerator * factor % (denominator * factor) =
      numerator % denominator * factor := Nat.mul_mod_mul_right _ _ _
  have twice : 2 * (numerator % denominator * factor) = 2 * (numerator % denominator) * factor := by
    rw [Nat.mul_assoc]
  have lt_iff : 2 * (numerator % denominator) * factor < denominator * factor ↔
      2 * (numerator % denominator) < denominator := Nat.mul_lt_mul_right positive
  have eq_iff : 2 * (numerator % denominator) * factor = denominator * factor ↔
      2 * (numerator % denominator) = denominator :=
        Nat.mul_left_inj (Nat.pos_iff_ne_zero.mp positive)
  simp only [roundHalfEven, quotient, remainder, twice, lt_iff, eq_iff]

/-- Equal ratios are rounded to the same natural. -/
theorem roundHalfEven_congr {numerator denominator numerator' denominator' : ℕ}
    (positive : 0 < denominator) (positive' : 0 < denominator')
    (equal : numerator * denominator' = numerator' * denominator) :
    roundHalfEven numerator denominator = roundHalfEven numerator' denominator' := by
  rw [← roundHalfEven_mul_right numerator denominator positive', equal,
    Nat.mul_comm denominator, roundHalfEven_mul_right numerator' denominator' positive]

/-- A ratio that is a natural is rounded to that natural. -/
theorem roundHalfEven_mul_self (whole : ℕ) {denominator : ℕ} (positive : 0 < denominator) :
    roundHalfEven (whole * denominator) denominator = whole := by
  rw [roundHalfEven, Nat.mul_div_cancel _ positive, Nat.mul_mod_left]
  exact if_pos (Or.inl positive)

/-- Ratios of naturals have the same value exactly if they agree crosswise. -/
theorem div_eq_div_iff_mul_eq {numerator denominator numerator' denominator' : ℕ}
    (positive : 0 < denominator) (positive' : 0 < denominator') :
    (numerator : ℚ) / denominator = (numerator' : ℚ) / denominator' ↔
      numerator * denominator' = numerator' * denominator := by
  have h : (denominator : ℚ) ≠ 0 := by exact_mod_cast Nat.pos_iff_ne_zero.mp positive
  have h' : (denominator' : ℚ) ≠ 0 := by exact_mod_cast Nat.pos_iff_ne_zero.mp positive'
  rw [div_eq_div_iff h h']
  exact_mod_cast Iff.rfl

namespace FloatFormat

variable (format : FloatFormat)

/-! ## Rounding to floats -/

/-- A ratio is zero exactly if its numerator is. -/
theorem numerator_eq_zero_iff {numerator denominator : ℕ} (positive : 0 < denominator) :
    (numerator : ℚ) / denominator = 0 ↔ numerator = 0 := by
  have : (denominator : ℚ) ≠ 0 := by exact_mod_cast Nat.pos_iff_ne_zero.mp positive
  rw [div_eq_zero_iff, or_iff_left this]
  exact_mod_cast Iff.rfl

/-- Ratios of the same value are rounded to the same float. -/
theorem roundRatio_congr {numerator denominator numerator' denominator' : ℕ}
    (positive : 0 < denominator) (positive' : 0 < denominator')
    (equal : (numerator : ℚ) / denominator = (numerator' : ℚ) / denominator') :
    format.roundRatio numerator denominator = format.roundRatio numerator' denominator' := by
  by_cases zero : numerator = 0
  · have zero' : numerator' = 0 := by
      rw [← numerator_eq_zero_iff positive', ← equal, numerator_eq_zero_iff positive]
      exact zero
    rw [zero, zero', roundRatio, roundRatio, if_pos rfl, if_pos rfl]
  · have zero' : numerator' ≠ 0 := by
      rw [ne_eq, ← numerator_eq_zero_iff positive', ← equal, numerator_eq_zero_iff positive]
      exact zero
    -- The order depends on the value alone, so both ratios are scaled by the same power.
    have order : binaryOrder numerator denominator = binaryOrder numerator' denominator' := by
      rw [binaryOrder_eq_log (Nat.pos_of_ne_zero zero) positive,
        binaryOrder_eq_log (Nat.pos_of_ne_zero zero') positive', equal]
    rw [roundRatio, roundRatio, if_neg zero, if_neg zero', order]
    simp only
    congr 2
    apply roundHalfEven_congr (dividePowerOfTwo_denominator_pos _ positive _)
      (dividePowerOfTwo_denominator_pos _ positive' _)
    rw [← div_eq_div_iff_mul_eq (dividePowerOfTwo_denominator_pos _ positive _)
      (dividePowerOfTwo_denominator_pos _ positive' _), dividePowerOfTwo_value,
      dividePowerOfTwo_value, equal]

/-- A ratio that equals a significand of full length, or any shorter one at the least exponent, is
rounded to the pattern counted up from that exponent. -/
theorem roundRatio_of_significand {numerator denominator significand : ℕ} {exponent : ℤ}
    (positive : 0 < denominator) (nonzero : 0 < significand)
    (equal : (numerator : ℚ) / denominator = significand * 2 ^ exponent)
    (short : significand < 2 ^ (format.fractionBits + 1))
    (least : format.leastExponent ≤ exponent)
    (full : 2 ^ format.fractionBits ≤ significand ∨ exponent = format.leastExponent) :
    format.roundRatio numerator denominator =
      min format.infinity
        ((exponent - format.leastExponent).toNat * 2 ^ format.fractionBits + significand) := by
  have power_pos : (0 : ℚ) < 2 ^ exponent := zpow_pos (by norm_num) exponent
  have significand_pos : (0 : ℚ) < significand := by exact_mod_cast nonzero
  have numerator_ne : numerator ≠ 0 := by
    rw [ne_eq, ← numerator_eq_zero_iff positive, equal]
    exact (mul_pos significand_pos power_pos).ne'
  -- The last place is that of the given exponent, so nothing is rounded off.
  have unit : max (binaryOrder numerator denominator - format.fractionBits) format.leastExponent =
      exponent := by
    rw [binaryOrder_eq_log (Nat.pos_of_ne_zero numerator_ne) positive, equal]
    have upper : Int.log 2 ((significand : ℚ) * 2 ^ exponent) <
        format.fractionBits + 1 + exponent := by
      rw [← Int.lt_zpow_iff_log_lt (by norm_num) (mul_pos significand_pos power_pos)]
      push_cast
      rw [zpow_add₀ (by norm_num)]
      have : (significand : ℚ) < 2 ^ ((format.fractionBits : ℤ) + 1) := by exact_mod_cast short
      gcongr
    rcases full with long | at_least
    · have lower : (format.fractionBits : ℤ) + exponent ≤
          Int.log 2 ((significand : ℚ) * 2 ^ exponent) := by
        rw [← Int.zpow_le_iff_le_log (by norm_num) (mul_pos significand_pos power_pos)]
        push_cast
        rw [zpow_add₀ (by norm_num)]
        have : (2 : ℚ) ^ (format.fractionBits : ℤ) ≤ significand := by exact_mod_cast long
        gcongr
      omega
    · omega
  -- Scaled by that place, the numerator is a multiple of the denominator.
  have denominator_pos := dividePowerOfTwo_denominator_pos numerator positive exponent
  have scaled : (dividePowerOfTwo numerator denominator exponent).1 =
      significand * (dividePowerOfTwo numerator denominator exponent).2 := by
    have value := dividePowerOfTwo_value numerator denominator exponent
    rw [equal, mul_div_assoc, div_self power_pos.ne', mul_one,
      div_eq_iff (by exact_mod_cast denominator_pos.ne')] at value
    exact_mod_cast value
  rw [roundRatio, if_neg numerator_ne]
  simp only [unit]
  rw [scaled, roundHalfEven_mul_self significand denominator_pos]

/-- A ratio that equals a finite float is rounded to that float. -/
theorem roundRatio_unpack {magnitude numerator denominator : ℕ} (positive : 0 < denominator)
    (finite : magnitude < format.infinity)
    (equal : (numerator : ℚ) / denominator =
      (format.unpack magnitude).1 * 2 ^ (format.unpack magnitude).2) :
    format.roundRatio numerator denominator = magnitude := by
  have split := Nat.div_add_mod magnitude (2 ^ format.fractionBits)
  have fraction_lt := Nat.mod_lt magnitude (Nat.two_pow_pos format.fractionBits)
  have double : 2 ^ (format.fractionBits + 1) = 2 * 2 ^ format.fractionBits := by
    rw [Nat.pow_succ, Nat.mul_comm]
  -- A biased exponent of zero stands for the least exponent without a leading bit.
  by_cases subnormal : magnitude / 2 ^ format.fractionBits = 0
  · simp only [unpack, if_pos subnormal] at equal
    rw [subnormal, Nat.mul_zero, Nat.zero_add] at split
    rw [split] at equal fraction_lt
    rcases Nat.eq_zero_or_pos magnitude with zero | nonzero
    · rw [zero, Nat.cast_zero, zero_mul, numerator_eq_zero_iff positive] at equal
      rw [zero, equal, roundRatio, if_pos rfl]
    · rw [format.roundRatio_of_significand positive nonzero equal (by omega) le_rfl (Or.inr rfl),
        sub_self, Int.toNat_zero, Nat.zero_mul, Nat.zero_add]
      exact Nat.min_eq_right finite.le
  · simp only [unpack, if_neg subnormal] at equal
    rw [format.roundRatio_of_significand positive (by positivity) equal (by omega) (by omega)
      (Or.inl (by omega)), add_sub_cancel_left, Int.toNat_natCast]
    -- The leading bit takes back the one that the biased exponent is ahead.
    have pattern : (magnitude / 2 ^ format.fractionBits - 1) * 2 ^ format.fractionBits +
        (2 ^ format.fractionBits + magnitude % 2 ^ format.fractionBits) = magnitude := by
      rw [Nat.sub_mul, Nat.one_mul, Nat.mul_comm (magnitude / _)]
      have : 2 ^ format.fractionBits ≤
          2 ^ format.fractionBits * (magnitude / 2 ^ format.fractionBits) :=
        Nat.le_mul_of_pos_right _ (Nat.pos_of_ne_zero subnormal)
      omega
    rw [pattern]
    exact Nat.min_eq_right finite.le

end FloatFormat

end ShaderMachine
