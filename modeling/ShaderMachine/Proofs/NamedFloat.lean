import Mathlib.Data.List.TakeWhile
import ShaderMachine.Decimal.Shortest
import ShaderMachine.Proofs.Rounding

/-! # The float that a decimal names

Which float a decimal names depends on its value alone, so zeros may be cut off or added at its
end, and the shortest decimal of a float names that float.

* **`Decimal.value`** — the rational number that a decimal stands for.
* **`Decimal.magnitude_congr`** — decimals of the same value name the same float.
* **`Decimal.magnitude_shortest`** — the shortest decimal of a finite float names it. -/

namespace ShaderMachine

namespace Decimal

/-- The rational number that a decimal stands for. -/
def value (decimal : Decimal) : ℚ :=
  decimal.digits * 10 ^ decimal.exponent

/-- A power of ten with an integer exponent is split into its numerator and its denominator. -/
theorem ten_zpow_eq_div (exponent : ℤ) :
    (10 : ℚ) ^ exponent = 10 ^ exponent.toNat / 10 ^ (-exponent).toNat := by
  rw [eq_div_iff (by positivity), ← zpow_natCast, ← zpow_natCast, ← zpow_add₀ (by norm_num)]
  congr 1
  omega

/-- The ratio of a decimal has the value of the decimal. -/
theorem ratio_value (decimal : Decimal) :
    (decimal.ratio.1 : ℚ) / decimal.ratio.2 = decimal.value := by
  rw [value, ratio, ten_zpow_eq_div]
  push_cast
  rw [mul_div_assoc]

/-- The ratio of a decimal has a positive denominator. -/
theorem ratio_denominator_pos (decimal : Decimal) : 0 < decimal.ratio.2 :=
  Nat.pow_pos (by norm_num)

/-- A decimal is zero exactly if its coefficient is. -/
theorem value_eq_zero_iff (decimal : Decimal) : decimal.value = 0 ↔ decimal.digits = 0 := by
  have power : (10 : ℚ) ^ decimal.exponent ≠ 0 := (zpow_pos (by norm_num) _).ne'
  rw [value, mul_eq_zero, or_iff_left power]
  exact_mod_cast Iff.rfl

/-- A natural number lies below the power of ten to its number of digits and not below the one
before it. -/
theorem decimalLength_bounds {n : ℕ} (nonzero : n ≠ 0) :
    10 ^ (decimalLength n - 1) ≤ n ∧ n < 10 ^ decimalLength n := by
  have positive : 0 < decimalLength n := Nat.length_toDigits_pos
  constructor
  · by_cases single : decimalLength n = 1
    · rw [single]
      exact Nat.one_le_iff_ne_zero.mpr nonzero
    · have longer : ¬ (Nat.toDigits 10 n).length ≤ decimalLength n - 1 := by
        rw [← decimalLength]
        omega
      rw [Nat.length_toDigits_le_iff (by norm_num) (by omega)] at longer
      exact not_lt.mp longer
  · rw [← Nat.length_toDigits_le_iff (by norm_num) positive, decimalLength]

/-- The order of a decimal is one more than the logarithm of its value. -/
theorem order_eq_log {decimal : Decimal} (nonzero : decimal.digits ≠ 0) :
    decimal.order = Int.log 10 decimal.value + 1 := by
  obtain ⟨lower, upper⟩ := decimalLength_bounds nonzero
  have positive : 0 < decimalLength decimal.digits := Nat.length_toDigits_pos
  have power_pos : (0 : ℚ) < 10 ^ decimal.exponent := zpow_pos (by norm_num) _
  have lower' : (10 : ℚ) ^ ((decimalLength decimal.digits : ℤ) - 1) ≤ decimal.digits := by
    rw [show (decimalLength decimal.digits : ℤ) - 1 =
        ((decimalLength decimal.digits - 1 : ℕ) : ℤ) by
      omega, zpow_natCast]
    exact_mod_cast lower
  have upper' : (decimal.digits : ℚ) < 10 ^ (decimalLength decimal.digits : ℤ) := by
    rw [zpow_natCast]
    exact_mod_cast upper
  -- The digits lie between two powers of ten, and the exponent shifts both.
  have log : Int.log 10 decimal.value = decimalLength decimal.digits - 1 + decimal.exponent := by
    apply log_eq_of_bounds (by norm_num)
    · rw [value]
      push_cast
      rw [zpow_add₀ (by norm_num)]
      gcongr
    · rw [value]
      push_cast
      rw [show (decimalLength decimal.digits : ℤ) - 1 + decimal.exponent + 1 =
        decimalLength decimal.digits + decimal.exponent by ring, zpow_add₀ (by norm_num)]
      gcongr
  rw [log, order]
  ring

/-- Decimals of the same value name the same float. -/
theorem magnitude_congr (format : FloatFormat) {first second : Decimal}
    (equal : first.value = second.value) : first.magnitude format = second.magnitude format := by
  by_cases zero : first.digits = 0
  · have zero' : second.digits = 0 := by
      rw [← value_eq_zero_iff, ← equal, value_eq_zero_iff]
      exact zero
    rw [magnitude, magnitude, if_pos zero, if_pos zero']
  · have zero' : second.digits ≠ 0 := by
      rw [ne_eq, ← value_eq_zero_iff, ← equal, value_eq_zero_iff]
      exact zero
    have order : first.order = second.order := by
      rw [order_eq_log zero, order_eq_log zero', equal]
    have rounded : format.roundRatio first.ratio.1 first.ratio.2 =
        format.roundRatio second.ratio.1 second.ratio.2 := by
      apply format.roundRatio_congr first.ratio_denominator_pos second.ratio_denominator_pos
      rw [ratio_value, ratio_value, equal]
    rw [magnitude, magnitude, if_neg zero, if_neg zero', order, rounded]

/-! ## Zeros at the end -/

/-- The digits of a number end in as many zeros as are cut off. -/
theorem toDigits_eq_append_zeros (n : ℕ) :
    Nat.toDigits 10 n =
      ((Nat.toDigits 10 n).reverse.dropWhile (· == '0')).reverse ++
        List.replicate ((Nat.toDigits 10 n).reverse.takeWhile (· == '0')).length '0' := by
  have zeros : (Nat.toDigits 10 n).reverse.takeWhile (· == '0') =
      List.replicate ((Nat.toDigits 10 n).reverse.takeWhile (· == '0')).length '0' := by
    rw [List.eq_replicate_iff]
    refine ⟨rfl, fun c mem => ?_⟩
    simpa using List.mem_takeWhile_imp mem
  conv_lhs => rw [← List.reverse_reverse (Nat.toDigits 10 n),
    ← List.takeWhile_append_dropWhile (p := (· == '0')) (l := (Nat.toDigits 10 n).reverse)]
  rw [List.reverse_append, zeros, List.reverse_replicate, List.length_replicate]

/-- Cutting zeros off a coefficient keeps the value. -/
theorem value_strip (decimal : Decimal) : decimal.strip.value = decimal.value := by
  set zeros := ((Nat.toDigits 10 decimal.digits).reverse.takeWhile (· == '0')).length
    with zeros_eq
  set front := ((Nat.toDigits 10 decimal.digits).reverse.dropWhile (· == '0')).reverse
    with front_eq
  have digits : Nat.toDigits 10 decimal.digits = front ++ List.replicate zeros '0' :=
    toDigits_eq_append_zeros decimal.digits
  have dropped : decimalLength decimal.digits -
      ((Nat.toDigits 10 decimal.digits).reverse.dropWhile (· == '0')).length = zeros := by
    rw [decimalLength, digits, List.length_append, List.length_replicate, ← digits,
      front_eq, List.length_reverse]
    omega
  have number : decimal.digits = 10 ^ zeros * Nat.ofDigitChars 10 front 0 := by
    rw [← Nat.ofDigitChars_replicate_zero, ← Nat.ofDigitChars_append, ← digits,
      Nat.ofDigitChars_ten_toDigits]
  simp only [strip, dropped, value]
  rw [number, Nat.mul_div_cancel_left _ (Nat.pow_pos (by norm_num)), zpow_add₀ (by norm_num),
    zpow_natCast]
  push_cast
  ring

/-! ## The exact decimal -/

/-- The exact decimal of a significand and an exponent stands for their number. -/
theorem value_exact (significand : ℕ) (exponent : ℤ) :
    (exact significand exponent).value = significand * 2 ^ exponent := by
  rw [exact]
  split_ifs with nonneg
  · obtain ⟨power, rfl⟩ := Int.eq_ofNat_of_zero_le nonneg
    simp [value]
  · obtain ⟨power, hpower⟩ : ∃ power : ℕ, exponent = -(power : ℤ) := ⟨(-exponent).toNat, by omega⟩
    subst hpower
    have ten : (10 : ℚ) ^ power = 5 ^ power * 2 ^ power := by
      rw [← mul_pow]
      norm_num
    simp only [value, neg_neg, Int.toNat_natCast, zpow_neg, zpow_natCast]
    push_cast
    rw [ten]
    field_simp

end Decimal

namespace FloatFormat

variable (format : FloatFormat)

/-- A finite float that is not zero has a significand that is not zero. -/
theorem unpack_significand_pos {magnitude : ℕ} (nonzero : 0 < magnitude) :
    0 < (format.unpack magnitude).1 := by
  have split := Nat.div_add_mod magnitude (2 ^ format.fractionBits)
  rw [unpack]
  split_ifs with subnormal
  · rw [subnormal, Nat.mul_zero, Nat.zero_add] at split
    exact split.symm ▸ nonzero
  · positivity

/-- No exponent of a float lies below the least one. -/
theorem leastExponent_le_unpack (magnitude : ℕ) :
    format.leastExponent ≤ (format.unpack magnitude).2 := by
  rw [unpack]
  split_ifs
  · exact le_rfl
  · exact le_add_of_nonneg_right (Int.natCast_nonneg _)

/-- The least exponent, with the range of exponents as a natural number. -/
theorem leastExponent_eq :
    format.leastExponent = 2 - ((2 ^ (format.exponentBits - 1) : ℕ) : ℤ) - format.fractionBits := by
  rw [leastExponent]
  push_cast
  rfl

/-- A finite float lies below the power of two at which the infinity stands. -/
theorem unpack_lt {magnitude : ℕ} (exponent_wide : 1 < format.exponentBits)
    (finite : magnitude < format.infinity) :
    ((format.unpack magnitude).1 : ℚ) * 2 ^ (format.unpack magnitude).2 <
      2 ^ (((2 ^ (format.exponentBits - 1) : ℕ) : ℤ)) := by
  have fraction_lt := Nat.mod_lt magnitude (Nat.two_pow_pos format.fractionBits)
  have biased_lt : magnitude / 2 ^ format.fractionBits < 2 ^ format.exponentBits - 1 :=
    (Nat.div_lt_iff_lt_mul (Nat.two_pow_pos _)).mpr finite
  have double : 2 ^ format.exponentBits = 2 * 2 ^ (format.exponentBits - 1) := by
    rw [← Nat.pow_succ', Nat.succ_eq_add_one, Nat.sub_add_cancel exponent_wide.le]
  have range_wide : 2 ^ 1 ≤ 2 ^ (format.exponentBits - 1) :=
    Nat.pow_le_pow_right (by norm_num) (Nat.le_sub_one_of_lt exponent_wide)
  have short : (format.unpack magnitude).1 < 2 ^ (format.fractionBits + 1) := by
    rw [unpack, Nat.pow_succ]
    split_ifs <;> simp only <;> omega
  -- Only linear facts about the exponent range are left.
  have least : (format.unpack magnitude).2 + (format.fractionBits + 1) ≤
      ((2 ^ (format.exponentBits - 1) : ℕ) : ℤ) := by
    rw [unpack, leastExponent_eq]
    generalize 2 ^ (format.exponentBits - 1) = range at *
    split_ifs <;> simp only <;> omega
  have power_pos : (0 : ℚ) < 2 ^ (format.unpack magnitude).2 := zpow_pos (by norm_num) _
  -- The significand stays below one power of two, the exponent adds another one.
  calc ((format.unpack magnitude).1 : ℚ) * 2 ^ (format.unpack magnitude).2
      < 2 ^ ((format.fractionBits : ℤ) + 1) * 2 ^ (format.unpack magnitude).2 := by
        have : ((format.unpack magnitude).1 : ℚ) < 2 ^ ((format.fractionBits : ℤ) + 1) := by
          exact_mod_cast short
        gcongr
    _ = 2 ^ ((format.unpack magnitude).2 + ((format.fractionBits : ℤ) + 1)) := by
        rw [← zpow_add₀ (by norm_num)]
        congr 1
        ring
    _ ≤ 2 ^ (((2 ^ (format.exponentBits - 1) : ℕ) : ℤ)) :=
        zpow_le_zpow_right₀ (by norm_num) least

end FloatFormat

namespace Decimal

variable {format : FloatFormat} {magnitude : ℕ}

/-- The exact decimal of a finite float names it. -/
theorem magnitude_exact (exponent_wide : 1 < format.exponentBits) (nonzero : 0 < magnitude)
    (finite : magnitude < format.infinity) :
    (exact (format.unpack magnitude).1 (format.unpack magnitude).2).magnitude format =
      magnitude := by
  set decimal := exact (format.unpack magnitude).1 (format.unpack magnitude).2
  have decimal_value : decimal.value =
      (format.unpack magnitude).1 * 2 ^ (format.unpack magnitude).2 := value_exact _ _
  have significand_pos := format.unpack_significand_pos nonzero
  have positive : 0 < decimal.value := by
    rw [decimal_value]
    positivity
  have digits_ne : decimal.digits ≠ 0 := by
    rw [ne_eq, ← value_eq_zero_iff]
    exact positive.ne'
  have order := order_eq_log digits_ne
  -- Neither cut-off applies to a finite float.
  have range_eq : (2 : ℤ) ^ (format.exponentBits - 1) =
      ((2 ^ (format.exponentBits - 1) : ℕ) : ℤ) := by
    push_cast
    rfl
  have upper := format.unpack_lt exponent_wide finite
  have lower := format.leastExponent_le_unpack magnitude
  rw [format.leastExponent_eq] at lower
  rw [Decimal.magnitude, if_neg digits_ne, range_eq]
  generalize 2 ^ (format.exponentBits - 1) = range at upper lower
  -- A float below the infinity is not above ten to the exponent range.
  have not_large : decimal.order ≤ range := by
    have bound : decimal.value < (10 : ℕ) ^ (range : ℤ) := by
      rw [decimal_value]
      refine lt_of_lt_of_le upper ?_
      exact zpow_le_zpow_left₀ (by positivity) (by norm_num) (by norm_num)
    rw [Int.lt_zpow_iff_log_lt (by norm_num) positive] at bound
    omega
  -- The least positive float is a power of two, hence above that power of ten.
  have not_small : -((range : ℤ) + format.fractionBits) ≤ decimal.order := by
    have bound : ((10 : ℕ) : ℚ) ^ (-((range : ℤ) + format.fractionBits + 1)) ≤ decimal.value := by
      calc ((10 : ℕ) : ℚ) ^ (-((range : ℤ) + format.fractionBits + 1))
          ≤ 2 ^ (-((range : ℤ) + format.fractionBits + 1)) := by
            rw [zpow_neg, zpow_neg]
            have powers : (2 : ℚ) ^ ((range : ℤ) + format.fractionBits + 1) ≤
                ((10 : ℕ) : ℚ) ^ ((range : ℤ) + format.fractionBits + 1) :=
              zpow_le_zpow_left₀ (by positivity) (by norm_num) (by norm_num)
            exact inv_anti₀ (zpow_pos (by norm_num) _) powers
        _ ≤ 2 ^ (format.unpack magnitude).2 :=
            zpow_le_zpow_right₀ (by norm_num) (by omega)
        _ ≤ decimal.value := by
            rw [decimal_value]
            have : (1 : ℚ) ≤ (format.unpack magnitude).1 := by exact_mod_cast significand_pos
            exact le_mul_of_one_le_left (zpow_pos (by norm_num) _).le this
    rw [Int.zpow_le_iff_le_log (by norm_num) positive] at bound
    omega
  rw [if_neg (not_lt.mpr not_large), if_neg (not_lt.mpr not_small)]
  apply format.roundRatio_unpack decimal.ratio_denominator_pos finite
  rw [ratio_value, decimal_value]

/-! ## The shortest decimal -/

/-- What is found on a grid of decimals names the float that is looked for. -/
theorem magnitude_of_onGrid? {numerator denominator : ℕ} {exponent : ℤ} {decimal : Decimal}
    (found : onGrid? format magnitude numerator denominator exponent = some decimal) :
    decimal.magnitude format = magnitude := by
  simp only [onGrid?] at found
  split at found
  · rename_i lower upper
    split_ifs at found
    · cases found
      exact eq_of_beq lower
    · cases found
      exact eq_of_beq upper
  · rename_i lower _
    cases found
    exact eq_of_beq lower
  · rename_i _ upper
    cases found
    exact eq_of_beq upper
  · cases found

/-- The shortest decimal of a finite float names it. -/
theorem magnitude_shortest (exponent_wide : 1 < format.exponentBits) (nonzero : 0 < magnitude)
    (finite : magnitude < format.infinity) :
    (shortest format magnitude).magnitude format = magnitude := by
  rw [shortest]
  simp only
  rw [magnitude_congr format (value_strip _)]
  -- Either a grid has a decimal that names the float, or the exact one is taken.
  cases found : (List.range 17).findSome? fun count =>
      onGrid? format magnitude
        ((format.unpack magnitude).1 * 2 ^ (format.unpack magnitude).2.toNat)
        (2 ^ (-(format.unpack magnitude).2).toNat)
        (orderOfRatio ((format.unpack magnitude).1 * 2 ^ (format.unpack magnitude).2.toNat)
          (2 ^ (-(format.unpack magnitude).2).toNat) - ↑(count + 1)) with
  | none => exact magnitude_exact exponent_wide nonzero finite
  | some decimal =>
      obtain ⟨count, -, grid⟩ := List.exists_of_findSome?_eq_some found
      exact magnitude_of_onGrid? grid

end Decimal

end ShaderMachine
