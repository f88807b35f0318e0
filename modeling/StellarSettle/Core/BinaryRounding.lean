import Mathlib.Algebra.Order.Field.Power
import Mathlib.Data.Int.Log
import Mathlib.Data.Rat.Floor
import Mathlib.Tactic.FieldSimp
import Mathlib.Tactic.Linarith
import Mathlib.Tactic.Positivity
import Mathlib.Tactic.Ring

/-!
# Rounding rationals to a binary format

A binary floating-point format holds the multiples of powers of two with so many binary
digits, down to a lowest power.  Rounding goes to the nearest of them, ties to even.  It
keeps what the format holds, and it never passes by a number that the format holds.
-/

namespace StellarSettle.BinaryRounding

/-- How many digits a number has, and the lowest power of two that its last digit stands for. -/
structure BinaryFormat where
  digits : ℕ
  lowest : ℤ
  digits_pos : 0 < digits

/-- Nearest integer, ties to even. -/
def roundHalfEven (value : ℚ) : ℤ :=
  let rest := value - ⌊value⌋
  if rest < 1 / 2 then ⌊value⌋
  else if 1 / 2 < rest then ⌊value⌋ + 1
  else if ⌊value⌋ % 2 = 0 then ⌊value⌋ else ⌊value⌋ + 1

namespace BinaryFormat

variable (format : BinaryFormat)

/-- The numbers of the format, as if there were no largest one. -/
def Represents (value : ℚ) : Prop :=
  ∃ mantissa exponent : ℤ, |mantissa| < 2 ^ format.digits ∧ format.lowest ≤ exponent ∧
    value = mantissa * 2 ^ exponent

/-- The power of two that the last digit of a number stands for. -/
def lastExponent (value : ℚ) : ℤ :=
  max (Int.log 2 |value| - (format.digits - 1)) format.lowest

/-- The nearest number of the format, ties to the even mantissa. -/
def round (value : ℚ) : ℚ :=
  roundHalfEven (value / 2 ^ format.lastExponent value) * 2 ^ format.lastExponent value

end BinaryFormat

/-! ## Nearest integers -/

theorem roundHalfEven_eq_or (value : ℚ) :
    roundHalfEven value = ⌊value⌋ ∨ roundHalfEven value = ⌊value⌋ + 1 ∧ value ≠ ⌊value⌋ := by
  have hfraction : ∀ half : ¬value - ⌊value⌋ < 1 / 2, value ≠ ⌊value⌋ := by
    intro half hwhole
    rw [sub_eq_zero.mpr hwhole] at half
    norm_num at half
  rw [roundHalfEven]
  split
  · exact .inl rfl
  · rename_i half
    split
    · exact .inr ⟨rfl, hfraction half⟩
    · split
      · exact .inl rfl
      · exact .inr ⟨rfl, hfraction half⟩

theorem roundHalfEven_le {value : ℚ} {upper : ℤ} (hle : value ≤ upper) :
    roundHalfEven value ≤ upper := by
  have hfloor : (⌊value⌋ : ℚ) ≤ value := Int.floor_le value
  rcases roundHalfEven_eq_or value with hlow | ⟨hhigh, hfraction⟩
  · rw [hlow]
    exact_mod_cast hfloor.trans hle
  · rw [hhigh, Int.add_one_le_iff]
    exact_mod_cast (lt_of_le_of_ne hfloor (Ne.symm hfraction)).trans_le hle

theorem le_roundHalfEven {value : ℚ} {lower : ℤ} (hle : (lower : ℚ) ≤ value) :
    lower ≤ roundHalfEven value := by
  have hfloor : lower ≤ ⌊value⌋ := Int.le_floor.mpr hle
  rcases roundHalfEven_eq_or value with hlow | ⟨hhigh, -⟩
  · exact hfloor.trans hlow.ge
  · omega

/-- No integer is nearer. -/
theorem abs_roundHalfEven_sub_le (value : ℚ) (other : ℤ) :
    |(roundHalfEven value : ℚ) - value| ≤ |(other : ℚ) - value| := by
  have hfloor : (⌊value⌋ : ℚ) ≤ value := Int.floor_le value
  have hnext : value < ⌊value⌋ + 1 := Int.lt_floor_add_one value
  have hother : (other : ℚ) ≤ ⌊value⌋ ∨ (⌊value⌋ : ℚ) + 1 ≤ other := by
    rcases le_or_gt other ⌊value⌋ with hle | hlt
    · exact .inl (by exact_mod_cast hle)
    · exact .inr (by exact_mod_cast hlt)
  have hlow : value - ⌊value⌋ ≤ 1 / 2 → |(⌊value⌋ : ℚ) - value| ≤ |(other : ℚ) - value| := by
    intro hhalf
    rw [abs_sub_comm, abs_of_nonneg (sub_nonneg.mpr hfloor)]
    rcases hother with hother | hother
    · rw [abs_sub_comm]
      exact (by linarith : value - ⌊value⌋ ≤ value - other).trans (le_abs_self _)
    · exact (by linarith : value - ⌊value⌋ ≤ other - value).trans (le_abs_self _)
  have hhigh : 1 / 2 ≤ value - ⌊value⌋ →
      |((⌊value⌋ + 1 : ℤ) : ℚ) - value| ≤ |(other : ℚ) - value| := by
    intro hhalf
    push_cast
    rw [abs_of_nonneg (by linarith)]
    rcases hother with hother | hother
    · rw [abs_sub_comm]
      exact (by linarith : (⌊value⌋ : ℚ) + 1 - value ≤ value - other).trans (le_abs_self _)
    · exact (by linarith : (⌊value⌋ : ℚ) + 1 - value ≤ other - value).trans (le_abs_self _)
  rw [roundHalfEven]
  split
  · rename_i hrest
    exact hlow hrest.le
  · rename_i hrest
    split
    · rename_i hrest'
      exact hhigh hrest'.le
    · rename_i hrest'
      split
      · exact hlow (not_lt.mp hrest')
      · exact hhigh (not_lt.mp hrest)

@[simp]
theorem roundHalfEven_intCast (number : ℤ) : roundHalfEven (number : ℚ) = number := by
  rw [roundHalfEven, Int.floor_intCast, sub_self, if_pos (by norm_num)]

theorem roundHalfEven_neg (value : ℚ) : roundHalfEven (-value) = -roundHalfEven value := by
  by_cases hwhole : (⌊value⌋ : ℚ) = value
  · rw [← hwhole, ← Int.cast_neg, roundHalfEven_intCast, roundHalfEven_intCast]
  · have hfloor : (⌊value⌋ : ℚ) < value := lt_of_le_of_ne (Int.floor_le value) hwhole
    have hnext : value < ⌊value⌋ + 1 := Int.lt_floor_add_one value
    have hopposite : ⌊-value⌋ = -⌊value⌋ - 1 := by
      rw [Int.floor_eq_iff]
      push_cast
      constructor <;> linarith
    have hrest : -value - ((-⌊value⌋ - 1 : ℤ) : ℚ) = 1 - (value - ⌊value⌋) := by
      push_cast
      ring
    simp only [roundHalfEven]
    rw [hopposite, hrest]
    rcases lt_trichotomy (value - ⌊value⌋) (1 / 2) with hlow | htie | hhigh
    · rw [if_neg (by linarith), if_pos (by linarith), if_pos hlow]
      ring
    · have hopposite' : 1 - (value - ⌊value⌋) = 1 / 2 := by linarith
      rw [hopposite', htie, if_neg (lt_irrefl _), if_neg (lt_irrefl _), if_neg (lt_irrefl _),
        if_neg (lt_irrefl _)]
      split <;> split <;> omega
    · rw [if_pos (by linarith), if_neg (by linarith), if_pos hhigh]
      ring

namespace BinaryFormat

variable {format : BinaryFormat} {value other : ℚ}

/-! ## Numbers of the format -/

theorem Represents.neg (hvalue : format.Represents value) : format.Represents (-value) := by
  obtain ⟨mantissa, exponent, hmantissa, hexponent, rfl⟩ := hvalue
  exact ⟨-mantissa, exponent, by rwa [abs_neg], hexponent, by push_cast; ring⟩

/-- A power of two is a mantissa with one digit. -/
theorem represents_of_abs_le {mantissa exponent : ℤ} (hmantissa : |mantissa| ≤ 2 ^ format.digits)
    (hexponent : format.lowest ≤ exponent) :
    format.Represents (mantissa * 2 ^ exponent) := by
  rcases hmantissa.lt_or_eq with hless | hfull
  · exact ⟨mantissa, exponent, hless, hexponent, rfl⟩
  · obtain ⟨half, hhalf⟩ : ∃ half : ℤ, mantissa = half * 2 := by
      obtain ⟨rest, hrest⟩ := Nat.exists_eq_succ_of_ne_zero format.digits_pos.ne'
      rw [hrest, Nat.succ_eq_add_one, pow_succ] at hfull
      rcases abs_choice mantissa with hpos | hneg
      · exact ⟨2 ^ rest, by rw [← hpos, hfull]⟩
      · exact ⟨-2 ^ rest, by rw [neg_mul, ← hfull, hneg, neg_neg]⟩
    refine ⟨half, exponent + 1, ?_, by omega, ?_⟩
    · rw [hhalf, abs_mul] at hfull
      have hpos : (0 : ℤ) < 2 ^ format.digits := by positivity
      norm_num at hfull
      omega
    · rw [hhalf, zpow_add_one₀ two_ne_zero]
      push_cast
      ring

theorem represents_intCast (hlowest : format.lowest ≤ 0) {number : ℤ}
    (hnumber : |number| ≤ 2 ^ format.digits) : format.Represents number := by
  have hrepresents := represents_of_abs_le hnumber hlowest
  rwa [zpow_zero, mul_one] at hrepresents

theorem lastExponent_neg (value : ℚ) :
    format.lastExponent (-value) = format.lastExponent value := by
  rw [lastExponent, lastExponent, abs_neg]

/-- A number has no more than the format's digits above its last one. -/
theorem abs_lt_lastExponent (value : ℚ) :
    |value| < 2 ^ format.digits * 2 ^ format.lastExponent value := by
  have hlog : |value| < (2 : ℚ) ^ (Int.log 2 |value| + 1) :=
    Int.lt_zpow_succ_log_self one_lt_two |value|
  refine hlog.trans_le ?_
  rw [← zpow_natCast, ← zpow_add₀ two_ne_zero]
  refine zpow_le_zpow_right₀ one_le_two ?_
  have hlast : Int.log 2 |value| - (format.digits - 1) ≤ format.lastExponent value :=
    le_max_left _ _
  omega

/-! ## Rounding -/

/-- A number of the format that is not below the value is not below a multiple of the
value's last digit. -/
theorem exists_multiple_between (hother : format.Represents other) (hle : value ≤ other) :
    ∃ multiple : ℤ, value ≤ multiple * 2 ^ format.lastExponent value ∧
      multiple * 2 ^ format.lastExponent value ≤ other := by
  by_cases hne : value = 0
  · exact ⟨0, by simp [hne], by simpa [hne] using hle⟩
  obtain ⟨mantissa, exponent, hmantissa, hexponent, rfl⟩ := hother
  by_cases hcoarse : format.lastExponent value ≤ exponent
  · obtain ⟨extra, hextra⟩ := Int.le.dest hcoarse
    have hmultiple : ((mantissa * 2 ^ extra : ℤ) : ℚ) * 2 ^ format.lastExponent value =
        mantissa * 2 ^ exponent := by
      rw [← hextra, zpow_add₀ two_ne_zero, zpow_natCast]
      push_cast
      ring
    exact ⟨mantissa * 2 ^ extra, hmultiple ▸ hle, hmultiple.le⟩
  · -- The number is finer than the value, so it is smaller in size, and the value negative.
    have hlast : format.lastExponent value = Int.log 2 |value| - (format.digits - 1) := by
      rw [lastExponent] at hcoarse ⊢
      omega
    have hpower : (2 : ℚ) ^ (format.digits - 1) * 2 ^ format.lastExponent value =
        2 ^ Int.log 2 |value| := by
      rw [hlast, ← zpow_natCast, ← zpow_add₀ two_ne_zero, Nat.cast_sub format.digits_pos]
      congr 1
      omega
    have hsmall : |(mantissa : ℚ) * 2 ^ exponent| < 2 ^ Int.log 2 |value| := by
      have hfine : (2 : ℚ) ^ exponent ≤ 2 ^ (format.lastExponent value - 1) :=
        zpow_le_zpow_right₀ one_le_two (by omega)
      have hsize : |(mantissa : ℚ)| < 2 ^ format.digits := by exact_mod_cast hmantissa
      rw [abs_mul, abs_of_pos (by positivity : (0 : ℚ) < 2 ^ exponent)]
      calc |(mantissa : ℚ)| * 2 ^ exponent
          < 2 ^ format.digits * 2 ^ exponent := by gcongr
        _ ≤ 2 ^ format.digits * 2 ^ (format.lastExponent value - 1) := by gcongr
        _ = 2 ^ Int.log 2 |value| := by
          rw [hlast, ← zpow_natCast, ← zpow_add₀ two_ne_zero]
          congr 1
          omega
    have hlog : (2 : ℚ) ^ Int.log 2 |value| ≤ |value| :=
      Int.zpow_log_le_self one_lt_two (abs_pos.mpr hne)
    have hnegative : value < 0 := by
      by_contra hpositive
      rw [abs_of_nonneg (not_lt.mp hpositive)] at hlog hsmall
      have habove := le_abs_self ((mantissa : ℚ) * 2 ^ exponent)
      linarith
    refine ⟨-2 ^ (format.digits - 1), ?_, ?_⟩
    · push_cast
      rw [neg_mul, hpower]
      rw [abs_of_neg hnegative] at hlog
      rw [abs_of_neg hnegative]
      linarith
    · push_cast
      rw [neg_mul, hpower]
      linarith [neg_abs_le ((mantissa : ℚ) * 2 ^ exponent)]

/-- Rounding never passes by a number of the format. -/
theorem round_le (hother : format.Represents other) (hle : value ≤ other) :
    format.round value ≤ other := by
  obtain ⟨multiple, hvalue, hmultiple⟩ := exists_multiple_between hother hle
  refine le_trans ?_ hmultiple
  rw [round]
  gcongr
  exact roundHalfEven_le ((div_le_iff₀ (by positivity)).mpr hvalue)

theorem le_round (hother : format.Represents other) (hle : other ≤ value) :
    other ≤ format.round value := by
  obtain ⟨multiple, hvalue, hmultiple⟩ :=
    exists_multiple_between hother.neg (neg_le_neg hle)
  rw [lastExponent_neg] at hvalue hmultiple
  have habove : other ≤ ((-multiple : ℤ) : ℚ) * 2 ^ format.lastExponent value := by
    push_cast
    linarith
  refine habove.trans ?_
  rw [round]
  gcongr
  refine le_roundHalfEven ((le_div_iff₀ (by positivity)).mpr ?_)
  push_cast
  linarith

theorem round_eq_self (hvalue : format.Represents value) : format.round value = value :=
  le_antisymm (round_le hvalue le_rfl) (le_round hvalue le_rfl)

/-- What rounding gives is a number of the format. -/
theorem represents_round (value : ℚ) : format.Represents (format.round value) := by
  have hsize := abs_lt.mp (format.abs_lt_lastExponent value)
  have hpos : (0 : ℚ) < 2 ^ format.lastExponent value := by positivity
  refine represents_of_abs_le (abs_le.mpr ⟨le_roundHalfEven ?_, roundHalfEven_le ?_⟩)
    (le_max_right _ _)
  · rw [le_div_iff₀ hpos]
    push_cast
    linarith
  · rw [div_le_iff₀ hpos]
    push_cast
    linarith

theorem round_neg (value : ℚ) : format.round (-value) = -format.round value := by
  rw [round, round, lastExponent_neg, neg_div, roundHalfEven_neg]
  push_cast
  ring

theorem round_zero : format.round 0 = 0 := by
  have hzero : roundHalfEven 0 = 0 := by
    rw [roundHalfEven]
    norm_num
  rw [round, zero_div, hzero, Int.cast_zero, zero_mul]

/-- A multiple of the last digit is no nearer than the rounded value. -/
theorem abs_round_sub_le_multiple (value : ℚ) (multiple : ℤ) :
    |format.round value - value| ≤ |multiple * 2 ^ format.lastExponent value - value| := by
  have hpos : (0 : ℚ) < 2 ^ format.lastExponent value := by positivity
  have hscale : ∀ number : ℤ, |(number : ℚ) * 2 ^ format.lastExponent value - value| =
      |(number : ℚ) - value / 2 ^ format.lastExponent value| *
        2 ^ format.lastExponent value := by
    intro number
    rw [← abs_of_pos hpos, ← abs_mul, abs_of_pos hpos, sub_mul, div_mul_cancel₀ _ hpos.ne']
  rw [round, hscale, hscale]
  exact mul_le_mul_of_nonneg_right (abs_roundHalfEven_sub_le _ _) hpos.le

/-- No number of the format is nearer. -/
theorem abs_round_sub_le (value : ℚ) (hother : format.Represents other) :
    |format.round value - value| ≤ |other - value| := by
  rcases le_total value other with hle | hle
  · obtain ⟨multiple, hvalue, hmultiple⟩ := exists_multiple_between hother hle
    refine (abs_round_sub_le_multiple value multiple).trans ?_
    rw [abs_of_nonneg (by linarith), abs_of_nonneg (by linarith)]
    linarith
  · obtain ⟨multiple, hvalue, hmultiple⟩ := exists_multiple_between hother.neg (neg_le_neg hle)
    rw [lastExponent_neg] at hvalue hmultiple
    refine (abs_round_sub_le_multiple value (-multiple)).trans ?_
    push_cast
    rw [abs_of_nonpos (by linarith), abs_of_nonpos (by linarith)]
    linarith

theorem monotone_round : Monotone format.round := by
  intro low high hle
  by_contra hpassed
  rw [not_le] at hpassed
  -- Both would round past each other, although neither goes to the nearer one.
  have hlow : format.round high < low := by
    by_contra hbound
    exact absurd (round_le (represents_round high) (not_lt.mp hbound)) (not_le.mpr hpassed)
  have hhigh : high < format.round low := by
    by_contra hbound
    exact absurd (le_round (represents_round low) (not_lt.mp hbound)) (not_le.mpr hpassed)
  have hnearLow := abs_round_sub_le low (format.represents_round high)
  have hnearHigh := abs_round_sub_le high (format.represents_round low)
  rw [abs_of_pos (by linarith), abs_of_neg (by linarith)] at hnearLow
  rw [abs_of_neg (by linarith), abs_of_pos (by linarith)] at hnearHigh
  obtain rfl : low = high := le_antisymm hle (by linarith)
  exact lt_irrefl _ hpassed

/-- What is twice as large as a number of the format is rounded to another one. -/
theorem round_ne_of_double_le (hvalue : format.Represents value) (hpos : 0 < value)
    (hle : 2 * value ≤ other) : format.round other ≠ value := by
  obtain ⟨mantissa, exponent, hmantissa, hexponent, hsame⟩ := hvalue
  have hdouble : format.Represents (2 * value) :=
    ⟨mantissa, exponent + 1, hmantissa, by omega, by
      rw [hsame, zpow_add_one₀ two_ne_zero]
      ring⟩
  have hround := le_round hdouble hle
  exact fun hequal => by linarith

/-- Integers are rounded to integers. -/
theorem exists_int_round (hlowest : format.lowest ≤ 0) (number : ℤ) :
    ∃ rounded : ℤ, format.round number = rounded := by
  by_cases hlast : 0 ≤ format.lastExponent number
  · obtain ⟨exponent, hexponent⟩ := Int.eq_ofNat_of_zero_le hlast
    refine ⟨roundHalfEven (number / 2 ^ format.lastExponent number) * 2 ^ exponent, ?_⟩
    rw [round, hexponent, zpow_natCast]
    push_cast
    rfl
  · refine ⟨number, round_eq_self (represents_intCast hlowest ?_)⟩
    have hsize := format.abs_lt_lastExponent (number : ℚ)
    have hsmall : (2 : ℚ) ^ format.lastExponent number ≤ 1 :=
      zpow_le_one_of_nonpos₀ one_le_two (by omega)
    have hless : |(number : ℚ)| < 2 ^ format.digits :=
      hsize.trans_le (mul_le_of_le_one_right (by positivity) hsmall)
    exact_mod_cast hless.le

end BinaryFormat

end StellarSettle.BinaryRounding
