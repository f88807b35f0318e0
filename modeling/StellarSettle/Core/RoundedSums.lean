import StellarSettle.Core.DecimalRounding

/-!
# Sums of rounded amounts

Amounts that add up are rounded to significant digits as they are computed and to the nearest
unit at the end.  Their rounded values add up too as long as what the roundings take off the
parts stays within half a unit of what they take off the whole.
-/

namespace StellarSettle.RoundedSums

open StellarSettle.DecimalRounding

/-! ## Shifts of the point -/

section Shifts

variable {digits places : ℕ} {value : ℚ}

theorem leadingExponent_div_pow (hne : value ≠ 0) (places : ℕ) :
    leadingExponent (value / 10 ^ places) = leadingExponent value - places := by
  have hpower : (0 : ℚ) < 10 ^ places := by positivity
  have hpos : 0 < |value| := abs_pos.mpr hne
  have hshift : ∀ exponent : ℤ, (10 : ℚ) ^ (exponent - places) * 10 ^ places = 10 ^ exponent := by
    intro exponent
    rw [zpow_sub₀ (by norm_num), zpow_natCast, div_mul_cancel₀ _ hpower.ne']
  have hlow := Int.zpow_log_le_self (b := 10) (by norm_num) hpos
  have hhigh := Int.lt_zpow_succ_log_self (b := 10) (by norm_num) |value|
  rw [leadingExponent, leadingExponent, abs_div, abs_of_pos hpower]
  have hquotient : 0 < |value| / 10 ^ places := div_pos hpos hpower
  apply le_antisymm
  · rw [← Int.lt_add_one_iff]
    apply (Int.lt_zpow_iff_log_lt (by norm_num) hquotient).mp
    rw [Nat.cast_ofNat, sub_add_eq_add_sub, div_lt_iff₀ hpower, hshift]
    exact_mod_cast hhigh
  · apply (Int.zpow_le_iff_le_log (by norm_num) hquotient).mp
    rw [Nat.cast_ofNat, le_div_iff₀ hpower, hshift]
    exact_mod_cast hlow

/-- Moving the point moves it in the rounded value. -/
theorem roundSignificant_div_pow (digits places : ℕ) (value : ℚ) :
    roundSignificant digits (value / 10 ^ places) =
      roundSignificant digits value / 10 ^ places := by
  by_cases hzero : value = 0
  · simp [hzero]
  have hpower : (10 : ℚ) ^ places ≠ 0 := by positivity
  have hscaled : ∀ exponent : ℤ,
      value / 10 ^ places * 10 ^ (exponent + places) = value * 10 ^ exponent := by
    intro exponent
    rw [zpow_add₀ (by norm_num), zpow_natCast]
    field_simp
  rw [roundSignificant, roundSignificant, if_neg hzero, if_neg (div_ne_zero hzero hpower),
    leadingExponent_div_pow hzero]
  dsimp only
  rw [show (digits : ℤ) - 1 - (leadingExponent value - places) =
      (digits : ℤ) - 1 - leadingExponent value + places by ring, hscaled,
    zpow_add₀ (by norm_num), zpow_natCast, div_div]

theorem roundSignificant_mul_pow (digits places : ℕ) (value : ℚ) :
    roundSignificant digits (value * 10 ^ places) =
      roundSignificant digits value * 10 ^ places := by
  have hback := roundSignificant_div_pow digits places (value * 10 ^ places)
  rw [mul_div_cancel_right₀ _ (by positivity), eq_div_iff (by positivity)] at hback
  exact hback.symm

/-- Numbers of as many digits are kept, and so is the power of ten above them. -/
theorem roundSignificant_intCast (hdigits : 0 < digits) {number : ℤ} (hnonneg : 0 ≤ number)
    (hnumber : number ≤ 10 ^ digits) : roundSignificant digits (number : ℚ) = number := by
  rcases hnumber.lt_or_eq with hless | rfl
  · have hgrid : roundSignificant digits ((number : ℚ) / 10 ^ 0) = (number : ℚ) / 10 ^ 0 :=
      roundSignificant_grid ((abs_of_nonneg hnonneg).trans_lt hless)
    rwa [pow_zero, div_one] at hgrid
  · have hone : roundSignificant digits ((1 : ℤ) / 10 ^ 0 : ℚ) = (1 : ℤ) / 10 ^ 0 :=
      roundSignificant_grid (one_lt_pow₀ (by norm_num) hdigits.ne')
    rw [pow_zero, div_one, Int.cast_one] at hone
    have hpower := roundSignificant_mul_pow digits digits 1
    rw [one_mul, hone, one_mul] at hpower
    push_cast
    exact hpower

theorem roundSignificant_div_zpow (digits : ℕ) (value : ℚ) (shift : ℤ) :
    roundSignificant digits (value / 10 ^ shift) = roundSignificant digits value / 10 ^ shift := by
  obtain ⟨places, rfl | rfl⟩ := shift.eq_nat_or_neg
  · simp only [zpow_natCast, roundSignificant_div_pow]
  · simp only [zpow_neg, zpow_natCast, div_inv_eq_mul, roundSignificant_mul_pow]

/-- Rounding again changes nothing. -/
theorem roundSignificant_idem (hdigits : 0 < digits) (hvalue : 0 ≤ value) :
    roundSignificant digits (roundSignificant digits value) = roundSignificant digits value := by
  by_cases hzero : value = 0
  · simp [hzero]
  set shift : ℤ := (digits : ℤ) - 1 - leadingExponent value with hshift
  have hscaled : 0 ≤ value * 10 ^ shift := by positivity
  have hlead : value < 10 ^ (leadingExponent value + 1) := by
    have hlog := Int.lt_zpow_succ_log_self (b := 10) (by norm_num) |value|
    rw [abs_of_nonneg hvalue] at hlog
    rw [leadingExponent, abs_of_nonneg hvalue]
    exact_mod_cast hlog
  have hbelow : value * 10 ^ shift ≤ ((10 ^ digits : ℤ) : ℚ) := by
    calc value * 10 ^ shift ≤ 10 ^ (leadingExponent value + 1) * 10 ^ shift := by gcongr
      _ = 10 ^ (digits : ℤ) := by
          rw [← zpow_add₀ (by norm_num), hshift]
          congr 1
          ring
      _ = ((10 ^ digits : ℤ) : ℚ) := by
          push_cast
          rw [zpow_natCast]
  have hrounded : roundSignificant digits value =
      (roundHalfUp (value * 10 ^ shift) : ℚ) / 10 ^ shift := if_neg hzero
  rw [hrounded, roundSignificant_div_zpow, roundSignificant_intCast hdigits
    (roundHalfUp_nonneg hscaled) (roundHalfUp_le hscaled hbelow)]

end Shifts

/-! ## Parts of a rounded whole -/

section Parts

variable {value : ℚ} {units : ℤ} {whole left right rest : ℚ}

/-- What the rounding to units takes off a number of units. -/
def takenOff (value : ℚ) : ℚ := value - roundHalfUp value

/-- What may be taken off a number of units to round it: ties go away from zero. -/
def CanTakeOff (value part : ℚ) : Prop :=
  if 0 ≤ value then -(1 / 2) ≤ part ∧ part < 1 / 2 else -(1 / 2) < part ∧ part ≤ 1 / 2

theorem roundHalfUp_eq_iff : roundHalfUp value = units ↔ CanTakeOff value (value - units) := by
  rw [roundHalfUp, CanTakeOff]
  split_ifs with hsign
  · rw [Int.floor_eq_iff]
    constructor <;> rintro ⟨hlow, hhigh⟩ <;> constructor <;> linarith
  · rw [neg_eq_iff_eq_neg, Int.floor_eq_iff]
    push_cast
    constructor <;> rintro ⟨hlow, hhigh⟩ <;> constructor <;> linarith

/-- The rounded parts make up the rounded whole exactly when what the whole loses, less what the
other parts lose, can be taken off the rest. -/
theorem rounded_parts_iff :
    roundHalfUp left + roundHalfUp right + roundHalfUp rest = roundHalfUp whole ↔
      CanTakeOff rest (takenOff whole - takenOff left - takenOff right -
        (whole - left - right - rest)) := by
  have hpart : takenOff whole - takenOff left - takenOff right - (whole - left - right - rest) =
      rest - ((roundHalfUp whole - roundHalfUp left - roundHalfUp right : ℤ) : ℚ) := by
    rw [takenOff, takenOff, takenOff]
    push_cast
    ring
  rw [hpart, ← roundHalfUp_eq_iff]
  constructor <;> intro hsame <;> linarith

theorem takenOff_intCast (units : ℤ) : takenOff (units : ℚ) = 0 := by
  rw [takenOff, roundHalfUp_intCast, sub_self]

end Parts

end StellarSettle.RoundedSums
