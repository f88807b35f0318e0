import StellarSettle.Core.DecimalRounding

/-!
# Rounding integers of units

On integers of units the rounding to significant digits is one to multiples of a power of ten,
and ties go up.
-/

namespace StellarSettle.GridRounding

open StellarSettle.DecimalRounding

/-- The closest multiple of a step, from a tie the one above. -/
def roundToStep (step number : ℤ) : ℤ := (2 * number + step) / (2 * step) * step

variable {digits extra places : ℕ} {number step : ℤ}

theorem roundHalfUp_div (hstep : 0 < step) (hnumber : 0 ≤ number) :
    roundHalfUp ((number : ℚ) / step) = (2 * number + step) / (2 * step) := by
  have hpos : (0 : ℚ) < step := by exact_mod_cast hstep
  have hnonneg : (0 : ℚ) ≤ (number : ℚ) / step :=
    div_nonneg (by exact_mod_cast hnumber) hpos.le
  have hhalf : (number : ℚ) / step + 1 / 2 =
      ((2 * number + step : ℤ) : ℚ) / ((2 * step : ℤ) : ℚ) := by
    push_cast
    field_simp
  obtain ⟨denominator, hdenominator⟩ := Int.eq_ofNat_of_zero_le (by omega : 0 ≤ 2 * step)
  rw [roundHalfUp_of_nonneg hnonneg, hhalf, hdenominator, Int.cast_natCast,
    Rat.floor_intCast_div_natCast]

/-- The leading digit of a number of units with as many digits. -/
theorem leadingExponent_units (hlow : 10 ^ (digits + extra) ≤ 10 * number)
    (hhigh : number < 10 ^ (digits + extra)) :
    leadingExponent ((number : ℚ) / 10 ^ places) = digits + extra - 1 - places := by
  have hpower : (0 : ℤ) < 10 ^ (digits + extra) := by positivity
  have hpos : (0 : ℚ) < (number : ℚ) / 10 ^ places :=
    div_pos (by exact_mod_cast (by omega : 0 < number)) (by positivity)
  have hten : ∀ exponent : ℤ, (10 : ℚ) ^ (exponent - places) * 10 ^ places = 10 ^ exponent := by
    intro exponent
    rw [zpow_sub₀ (by norm_num), zpow_natCast, div_mul_cancel₀ _ (by positivity)]
  rw [leadingExponent, abs_of_pos hpos]
  apply le_antisymm
  · rw [← Int.lt_add_one_iff]
    apply (Int.lt_zpow_iff_log_lt (by norm_num) hpos).mp
    have hexponent : ((digits : ℤ) + extra - 1 - places + 1) = (digits + extra : ℤ) - places := by
      ring
    rw [Nat.cast_ofNat, hexponent, div_lt_iff₀ (by positivity), hten, ← Nat.cast_add, zpow_natCast]
    exact_mod_cast hhigh
  · apply (Int.zpow_le_iff_le_log (by norm_num) hpos).mp
    rw [Nat.cast_ofNat, le_div_iff₀ (by positivity), hten, zpow_sub_one₀ (by norm_num),
      ← Nat.cast_add, zpow_natCast, ← div_eq_mul_inv, div_le_iff₀ (by norm_num)]
    exact_mod_cast (mul_comm 10 number) ▸ hlow

/-- A number of units with more digits than are kept is rounded to a multiple of the power of ten
that is lost. -/
theorem roundSignificant_units (hlow : 10 ^ (digits + extra) ≤ 10 * number)
    (hhigh : number < 10 ^ (digits + extra)) :
    roundSignificant digits ((number : ℚ) / 10 ^ places) =
      (roundToStep (10 ^ extra) number : ℚ) / 10 ^ places := by
  have hpower : (0 : ℤ) < 10 ^ (digits + extra) := by positivity
  have hpos : 0 < number := by omega
  have hne : (number : ℚ) / 10 ^ places ≠ 0 :=
    div_ne_zero (by exact_mod_cast hpos.ne') (by positivity)
  have hscaled : (number : ℚ) / 10 ^ places * 10 ^ ((places : ℤ) - extra) =
      (number : ℚ) / ((10 ^ extra : ℤ) : ℚ) := by
    rw [zpow_sub₀ (by norm_num), zpow_natCast, zpow_natCast]
    push_cast
    field_simp
  rw [roundSignificant, if_neg hne, leadingExponent_units hlow hhigh]
  dsimp only
  rw [show (digits : ℤ) - 1 - (digits + extra - 1 - places) = places - extra by ring, hscaled,
    roundHalfUp_div (by positivity) hpos.le, roundToStep, zpow_sub₀ (by norm_num), zpow_natCast,
    zpow_natCast]
  push_cast
  field_simp

theorem roundToStep_one (number : ℤ) : roundToStep 1 number = number := by
  rw [roundToStep]
  omega

end StellarSettle.GridRounding
