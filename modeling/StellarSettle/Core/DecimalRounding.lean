import Mathlib.Algebra.Order.Field.Power
import Mathlib.Data.Int.Log
import Mathlib.Data.Rat.Floor
import Mathlib.Tactic.FieldSimp
import Mathlib.Tactic.Linarith
import Mathlib.Tactic.Positivity
import Mathlib.Tactic.Ring

/-!
# Rounding rationals to decimal grids

A decimal library with a bounded precision rounds in two ways: to a number of
places after the point, and to a number of significant digits.  Both round the
nearest way with ties away from zero.  The lemmas below say when a rounding is
exact, that it is monotone with respect to the points of a grid it can
represent, and that rounding twice never falls below rounding once.
-/

namespace StellarSettle.DecimalRounding

/-- Nearest integer, ties away from zero. -/
def roundHalfUp (value : ℚ) : ℤ :=
  if 0 ≤ value then ⌊value + 1 / 2⌋ else -⌊-value + 1 / 2⌋

/-- Rounding to `places` digits after the point, as a number of units of
`10 ^ -places`. -/
def roundPlaces (places : ℕ) (value : ℚ) : ℤ :=
  roundHalfUp (value * 10 ^ places)

/-- Exponent of the leading decimal digit. -/
def leadingExponent (value : ℚ) : ℤ := Int.log 10 |value|

/-- Rounding to `digits` significant digits. -/
def roundSignificant (digits : ℕ) (value : ℚ) : ℚ :=
  if value = 0 then 0
  else
    let shift : ℤ := (digits : ℤ) - 1 - leadingExponent value
    (roundHalfUp (value * 10 ^ shift) : ℚ) / 10 ^ shift

/-! ## Nearest integers -/

@[simp]
theorem roundHalfUp_intCast (value : ℤ) : roundHalfUp (value : ℚ) = value := by
  have hhalf : ∀ n : ℤ, ⌊(n : ℚ) + 1 / 2⌋ = n := by
    intro n
    rw [Int.floor_eq_iff]
    constructor <;> norm_num
  rw [roundHalfUp]
  split
  · exact hhalf value
  · have hneg := hhalf (-value)
    push_cast at hneg
    rw [hneg, neg_neg]

theorem roundHalfUp_of_nonneg {value : ℚ} (hvalue : 0 ≤ value) :
    roundHalfUp value = ⌊value + 1 / 2⌋ := if_pos hvalue

theorem le_roundHalfUp {lower : ℤ} {value : ℚ} (hlower : 0 ≤ lower)
    (hle : (lower : ℚ) ≤ value) : lower ≤ roundHalfUp value := by
  have hvalue : 0 ≤ value := le_trans (by exact_mod_cast hlower) hle
  rw [roundHalfUp_of_nonneg hvalue, Int.le_floor]
  linarith

theorem roundHalfUp_nonneg {value : ℚ} (hvalue : 0 ≤ value) :
    0 ≤ roundHalfUp value := le_roundHalfUp le_rfl (by simpa using hvalue)

theorem roundHalfUp_le {upper : ℤ} {value : ℚ} (hvalue : 0 ≤ value)
    (hle : value ≤ upper) : roundHalfUp value ≤ upper := by
  rw [roundHalfUp_of_nonneg hvalue, ← Int.lt_add_one_iff, Int.floor_lt]
  push_cast
  linarith

/-- A whole number added to a non-negative value passes through the rounding. -/
theorem roundHalfUp_intCast_add {whole : ℤ} {value : ℚ} (hwhole : 0 ≤ whole)
    (hvalue : 0 ≤ value) :
    roundHalfUp ((whole : ℚ) + value) = whole + roundHalfUp value := by
  have hsum : (0 : ℚ) ≤ (whole : ℚ) + value :=
    add_nonneg (by exact_mod_cast hwhole) hvalue
  rw [roundHalfUp_of_nonneg hsum, roundHalfUp_of_nonneg hvalue, add_assoc,
    Int.floor_intCast_add]

/-- A value of at least a half below `upper` rounds to at least `upper`. -/
theorem le_roundHalfUp_of_half {upper : ℤ} {value : ℚ} (hvalue : 0 ≤ value)
    (hle : (upper : ℚ) - 1 / 2 ≤ value) : upper ≤ roundHalfUp value := by
  rw [roundHalfUp_of_nonneg hvalue, Int.le_floor]
  linarith

theorem roundHalfUp_sub_half_le {value : ℚ} (hvalue : 0 ≤ value) :
    (roundHalfUp value : ℚ) - 1 / 2 ≤ value := by
  rw [roundHalfUp_of_nonneg hvalue]
  have hfloor := Int.floor_le (value + 1 / 2)
  linarith

/-! ## Places after the point -/

@[simp]
theorem roundPlaces_grid (places : ℕ) (units : ℤ) :
    roundPlaces places ((units : ℚ) / 10 ^ places) = units := by
  rw [roundPlaces, div_mul_cancel₀ _ (by positivity), roundHalfUp_intCast]

theorem roundPlaces_nonneg (places : ℕ) {value : ℚ} (hvalue : 0 ≤ value) :
    0 ≤ roundPlaces places value :=
  roundHalfUp_nonneg (mul_nonneg hvalue (by positivity))

theorem roundPlaces_le {places : ℕ} {value : ℚ} {units : ℤ} (hvalue : 0 ≤ value)
    (hle : value ≤ (units : ℚ) / 10 ^ places) : roundPlaces places value ≤ units := by
  have hscale : (0 : ℚ) < 10 ^ places := by positivity
  exact roundHalfUp_le (mul_nonneg hvalue hscale.le) ((le_div_iff₀ hscale).mp hle)

/-- Grid points pass through the rounding of a sum. -/
theorem roundPlaces_grid_add (places : ℕ) {units : ℤ} {value : ℚ}
    (hunits : 0 ≤ units) (hvalue : 0 ≤ value) :
    roundPlaces places ((units : ℚ) / 10 ^ places + value) =
      units + roundPlaces places value := by
  have hscale : (0 : ℚ) < 10 ^ places := by positivity
  rw [roundPlaces, add_mul, div_mul_cancel₀ _ hscale.ne']
  exact roundHalfUp_intCast_add hunits (mul_nonneg hvalue hscale.le)

/-- A value closer to a grid point than to the next ones is rounded to it; so is the tie
below it. -/
theorem roundPlaces_eq {places : ℕ} {value : ℚ} {units : ℤ} (hvalue : 0 ≤ value)
    (hlow : (units : ℚ) - 1 / 2 ≤ value * 10 ^ places)
    (hhigh : value * 10 ^ places < (units : ℚ) + 1 / 2) : roundPlaces places value = units := by
  rw [roundPlaces, roundHalfUp_of_nonneg (mul_nonneg hvalue (by positivity)), Int.floor_eq_iff]
  constructor <;> linarith

/-! ## Significant digits -/

@[simp]
theorem roundSignificant_zero (digits : ℕ) : roundSignificant digits 0 = 0 :=
  if_pos rfl

/-- A grid point stays whole under every shift that reaches past its places. -/
private theorem exists_int_of_places_le (units : ℤ) {places : ℕ} {shift : ℤ}
    (hshift : (places : ℤ) ≤ shift) :
    ∃ whole : ℤ, (units : ℚ) / 10 ^ places * 10 ^ shift = whole := by
  obtain ⟨extra, hextra⟩ := Int.le.dest hshift
  refine ⟨units * 10 ^ extra, ?_⟩
  rw [← hextra, zpow_add₀ (by norm_num), zpow_natCast, zpow_natCast]
  push_cast
  field_simp

/-- A grid point with at most `digits` digits is represented exactly. -/
theorem roundSignificant_grid {digits places : ℕ} {units : ℤ}
    (hunits : |units| < 10 ^ digits) :
    roundSignificant digits ((units : ℚ) / 10 ^ places) = (units : ℚ) / 10 ^ places := by
  by_cases hzero : units = 0
  · simp [hzero]
  set value : ℚ := (units : ℚ) / 10 ^ places with hvalue
  have hne : value ≠ 0 := div_ne_zero (by exact_mod_cast hzero) (by positivity)
  have habs : |value| < (10 : ℚ) ^ ((digits : ℤ) - places) := by
    have hcast : |(units : ℚ)| < 10 ^ digits := by exact_mod_cast hunits
    rw [zpow_sub₀ (by norm_num), zpow_natCast, zpow_natCast, hvalue, abs_div,
      abs_of_pos (show (0 : ℚ) < 10 ^ places by positivity)]
    exact div_lt_div_of_pos_right hcast (by positivity)
  have hlog : leadingExponent value < (digits : ℤ) - places :=
    (Int.lt_zpow_iff_log_lt (by norm_num) (abs_pos.mpr hne)).mp (by exact_mod_cast habs)
  have hshift : (places : ℤ) ≤ (digits : ℤ) - 1 - leadingExponent value := by omega
  obtain ⟨whole, hwhole⟩ := exists_int_of_places_le units hshift
  rw [roundSignificant, if_neg hne]
  simp only [← hvalue] at hwhole
  simp only [hwhole, roundHalfUp_intCast]
  rw [← hwhole, mul_div_cancel_right₀ _ (by positivity)]

/-- A grid point is rounded to a grid point, however many digits it has. -/
theorem exists_grid_of_roundSignificant (digits places : ℕ) (units : ℤ) :
    ∃ rounded : ℤ,
      roundSignificant digits ((units : ℚ) / 10 ^ places) = (rounded : ℚ) / 10 ^ places := by
  by_cases hzero : (units : ℚ) / 10 ^ places = 0
  · exact ⟨0, by simp [hzero]⟩
  rw [roundSignificant, if_neg hzero]
  set shift : ℤ := (digits : ℤ) - 1 - leadingExponent ((units : ℚ) / 10 ^ places)
  by_cases hshift : (places : ℤ) ≤ shift
  · -- No digit of the grid point is lost.
    obtain ⟨whole, hwhole⟩ := exists_int_of_places_le units hshift
    refine ⟨units, ?_⟩
    simp only [hwhole, roundHalfUp_intCast]
    rw [← hwhole, mul_div_cancel_right₀ _ (by positivity)]
  · -- The result lies on a coarser grid.
    obtain ⟨coarser, hcoarser⟩ := Int.le.dest (not_le.mp hshift).le
    refine ⟨roundHalfUp ((units : ℚ) / 10 ^ places * 10 ^ shift) * 10 ^ coarser, ?_⟩
    rw [← zpow_natCast (10 : ℚ) places, ← hcoarser, zpow_add₀ (by norm_num), zpow_natCast]
    push_cast
    field_simp

theorem roundSignificant_nonneg (digits : ℕ) {value : ℚ} (hvalue : 0 ≤ value) :
    0 ≤ roundSignificant digits value := by
  rw [roundSignificant]
  split
  · exact le_rfl
  · have hscaled : 0 ≤ value * 10 ^ ((digits : ℤ) - 1 - leadingExponent value) := by
      positivity
    have hround : (0 : ℚ) ≤ (roundHalfUp (value *
        10 ^ ((digits : ℤ) - 1 - leadingExponent value)) : ℚ) := by
      exact_mod_cast roundHalfUp_nonneg hscaled
    positivity

/-- Rounding to significant digits does not pass below a representable grid
point. -/
theorem le_roundSignificant {digits places : ℕ} {units : ℤ} {value : ℚ}
    (hunits : 0 ≤ units) (hdigits : units < 10 ^ digits)
    (hle : (units : ℚ) / 10 ^ places ≤ value) :
    (units : ℚ) / 10 ^ places ≤ roundSignificant digits value := by
  have hunitsQ : (0 : ℚ) ≤ (units : ℚ) := by exact_mod_cast hunits
  have hvalue : 0 ≤ value := le_trans (by positivity) hle
  rcases hunits.eq_or_lt with rfl | hpos
  · simpa using roundSignificant_nonneg digits hvalue
  have hposQ : (0 : ℚ) < (units : ℚ) := by exact_mod_cast hpos
  have hvaluePos : 0 < value := lt_of_lt_of_le (by positivity) hle
  set shift : ℤ := (digits : ℤ) - 1 - leadingExponent value with hshift
  have hpow : (0 : ℚ) < 10 ^ shift := by positivity
  have hround : roundSignificant digits value =
      (roundHalfUp (value * 10 ^ shift) : ℚ) / 10 ^ shift := if_neg hvaluePos.ne'
  rw [hround, le_div_iff₀ hpow]
  by_cases hplaces : (places : ℤ) ≤ shift
  · -- The grid point is whole at this scale.
    obtain ⟨whole, hwhole⟩ := exists_int_of_places_le units hplaces
    rw [hwhole]
    have hwholeNonneg : 0 ≤ whole := by
      have : (0 : ℚ) ≤ (whole : ℚ) := by rw [← hwhole]; positivity
      exact_mod_cast this
    have hwholeLe : (whole : ℚ) ≤ value * 10 ^ shift := by
      rw [← hwhole]
      exact mul_le_mul_of_nonneg_right hle hpow.le
    exact_mod_cast le_roundHalfUp hwholeNonneg hwholeLe
  · -- The value has more digits before the point than the grid point has.
    have hlead : (10 : ℚ) ^ leadingExponent value ≤ value := by
      have := Int.zpow_log_le_self (b := 10) (r := |value|) (by norm_num)
        (abs_pos.mpr hvaluePos.ne')
      simpa [leadingExponent, abs_of_pos hvaluePos] using this
    obtain ⟨top, htop⟩ : ∃ top : ℕ, (top : ℤ) = leadingExponent value + shift := by
      have hdigitsPos : 0 < digits := by
        rcases Nat.eq_zero_or_pos digits with rfl | h
        · simp only [pow_zero] at hdigits
          omega
        · exact h
      exact ⟨digits - 1, by omega⟩
    have htopLe : ((10 ^ top : ℤ) : ℚ) ≤ value * 10 ^ shift := by
      push_cast
      rw [← zpow_natCast, htop, zpow_add₀ (by norm_num)]
      exact mul_le_mul_of_nonneg_right hlead hpow.le
    have htopRound : ((10 ^ top : ℤ) : ℚ) ≤ (roundHalfUp (value * 10 ^ shift) : ℚ) := by
      exact_mod_cast le_roundHalfUp (by positivity) htopLe
    refine le_trans ?_ htopRound
    have hunitsLt : (units : ℚ) ≤ 10 ^ digits := by exact_mod_cast hdigits.le
    have hbound : (10 : ℚ) ^ digits ≤ 10 ^ ((top : ℤ) - shift + places) := by
      rw [← zpow_natCast]
      exact zpow_le_zpow_right₀ (by norm_num) (by omega)
    calc (units : ℚ) / 10 ^ places * 10 ^ shift
        ≤ 10 ^ ((top : ℤ) - shift + places) / 10 ^ places * 10 ^ shift := by
          gcongr
          exact hunitsLt.trans hbound
      _ = ((10 ^ top : ℤ) : ℚ) := by
          rw [zpow_add₀ (by norm_num), zpow_sub₀ (by norm_num), zpow_natCast, zpow_natCast]
          push_cast
          field_simp

/-- Rounding to significant digits does not pass above a representable grid point. -/
theorem roundSignificant_le {digits places : ℕ} {units : ℤ} {value : ℚ} (hvalue : 0 ≤ value)
    (hdigits : units < 10 ^ digits) (hle : value ≤ (units : ℚ) / 10 ^ places) :
    roundSignificant digits value ≤ (units : ℚ) / 10 ^ places := by
  rcases hvalue.eq_or_lt with rfl | hpos
  · simpa using hle
  have hlead : leadingExponent value < (digits : ℤ) - places := by
    rw [leadingExponent, abs_of_pos hpos]
    refine (Int.lt_zpow_iff_log_lt (by norm_num) hpos).mp (hle.trans_lt ?_)
    have hcast : (units : ℚ) < 10 ^ digits := by exact_mod_cast hdigits
    push_cast
    rw [zpow_sub₀ (by norm_num), zpow_natCast, zpow_natCast]
    exact div_lt_div_of_pos_right hcast (by positivity)
  -- The grid point is whole at this scale.
  set shift : ℤ := (digits : ℤ) - 1 - leadingExponent value with hshift
  obtain ⟨whole, hwhole⟩ := exists_int_of_places_le units (show (places : ℤ) ≤ shift by omega)
  have hpow : (0 : ℚ) < 10 ^ shift := by positivity
  have hround : roundSignificant digits value =
      (roundHalfUp (value * 10 ^ shift) : ℚ) / 10 ^ shift := if_neg hpos.ne'
  have hscaled : value * 10 ^ shift ≤ whole := by
    rw [← hwhole]
    exact mul_le_mul_of_nonneg_right hle hpow.le
  rw [hround, div_le_iff₀ hpow, hwhole]
  exact_mod_cast roundHalfUp_le (by positivity) hscaled

/-- Rounding first to significant digits and then to places never falls below
rounding to places directly: ties go up, so the first rounding can only carry
a value over the tie. -/
theorem roundPlaces_le_roundSignificant {digits places : ℕ} {value : ℚ}
    (hvalue : 0 ≤ value)
    (hdigits : 10 * roundPlaces places value < 10 ^ digits) :
    roundPlaces places value ≤ roundPlaces places (roundSignificant digits value) := by
  have hscale : (0 : ℚ) < 10 ^ places := by positivity
  have hscaled : 0 ≤ value * 10 ^ places := mul_nonneg hvalue hscale.le
  have hrounded : 0 ≤ roundSignificant digits value * 10 ^ places :=
    mul_nonneg (roundSignificant_nonneg digits hvalue) hscale.le
  set units := roundPlaces places value with hunitsDef
  rcases (roundPlaces_nonneg places hvalue).eq_or_lt with hzero | hpos
  · rw [hunitsDef, ← hzero]
    exact roundHalfUp_nonneg hrounded
  -- The tie below `units` is a grid point with one more place.
  have htie : ((10 * units - 5 : ℤ) : ℚ) / 10 ^ (places + 1) ≤ value := by
    have hhalf := roundHalfUp_sub_half_le hscaled
    rw [div_le_iff₀ (by positivity), pow_succ]
    push_cast
    rw [hunitsDef, roundPlaces]
    linarith
  have htieDigits : 10 * units - 5 < 10 ^ digits := by omega
  have hkept := le_roundSignificant (by omega) htieDigits htie
  apply le_roundHalfUp_of_half hrounded
  rw [div_le_iff₀ (by positivity), pow_succ] at hkept
  push_cast at hkept
  linarith

/-! ## Rounding twice -/

/-- The value lies below a tie between two grid points, by no more than half a
unit in its last significant digit. -/
def CarriedToTie (digits places : ℕ) (value : ℚ) : Prop :=
  Int.fract (value * 10 ^ places) < 1 / 2 ∧
    1 / 2 ≤ Int.fract (value * 10 ^ places) +
      10 ^ places / 10 ^ ((digits : ℤ) - 1 - leadingExponent value) / 2

instance (digits places : ℕ) (value : ℚ) : Decidable (CarriedToTie digits places value) :=
  inferInstanceAs (Decidable (_ ∧ _))

/-- Away from the ties, a first rounding to significant digits does not show. -/
theorem roundPlaces_roundSignificant {digits places : ℕ} {value : ℚ} (hvalue : 0 < value)
    (hshift : (places : ℤ) ≤ (digits : ℤ) - 1 - leadingExponent value)
    (hdigits : 10 * roundPlaces places value < 10 ^ digits)
    (htie : ¬CarriedToTie digits places value) :
    roundPlaces places (roundSignificant digits value) = roundPlaces places value := by
  refine le_antisymm ?_ (roundPlaces_le_roundSignificant hvalue.le hdigits)
  rw [CarriedToTie] at htie
  set shift : ℤ := (digits : ℤ) - 1 - leadingExponent value with hshiftDef
  set scaled : ℚ := value * 10 ^ places with hscaledDef
  have hpow : (0 : ℚ) < 10 ^ shift := by positivity
  have hscale : (0 : ℚ) < 10 ^ places := by positivity
  have hround : roundSignificant digits value =
      (roundHalfUp (value * 10 ^ shift) : ℚ) / 10 ^ shift := if_neg hvalue.ne'
  set step : ℚ := 10 ^ places / 10 ^ shift with hstepDef
  have hstep : step ≤ 1 := by
    rw [hstepDef, div_le_one hpow, ← zpow_natCast]
    exact zpow_le_zpow_right₀ (by norm_num) hshift
  have hnear : roundSignificant digits value * 10 ^ places ≤ scaled + step / 2 := by
    have hshifted : 0 ≤ value * 10 ^ shift := by positivity
    have hhalf := roundHalfUp_sub_half_le hshifted
    have hle : roundSignificant digits value ≤ value + 1 / 2 / 10 ^ shift := by
      rw [hround, div_le_iff₀ hpow, add_mul, div_mul_cancel₀ _ hpow.ne']
      linarith
    calc roundSignificant digits value * 10 ^ places
        ≤ (value + 1 / 2 / 10 ^ shift) * 10 ^ places := by gcongr
      _ = scaled + step / 2 := by
          rw [hscaledDef, hstepDef]
          ring
  have hscaled : 0 ≤ scaled := by positivity
  have hrounded : 0 ≤ roundSignificant digits value * 10 ^ places :=
    mul_nonneg (roundSignificant_nonneg digits hvalue.le) hscale.le
  rw [roundPlaces, roundPlaces, roundHalfUp_of_nonneg hrounded, ← hscaledDef,
    roundHalfUp_of_nonneg hscaled, ← Int.lt_add_one_iff, Int.floor_lt]
  have hparts := Int.floor_add_fract scaled
  push_cast
  by_cases hlow : Int.fract scaled < 1 / 2
  · have hfar : Int.fract scaled + step / 2 < 1 / 2 := by
      by_contra hclose
      exact htie ⟨hlow, not_lt.mp hclose⟩
    have hfloor : (⌊scaled⌋ : ℚ) ≤ (⌊scaled + 1 / 2⌋ : ℚ) := by
      exact_mod_cast Int.floor_le_floor (by linarith)
    linarith
  · have hfloor : ((⌊scaled⌋ + 1 : ℤ) : ℚ) ≤ (⌊scaled + 1 / 2⌋ : ℚ) := by
      exact_mod_cast Int.le_floor.mpr (by push_cast; linarith)
    push_cast at hfloor
    linarith [Int.fract_lt_one scaled]

end StellarSettle.DecimalRounding
