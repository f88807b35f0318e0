import Mathlib.Algebra.Order.Group.Unbundled.Int
import Mathlib.Order.Monotone.Basic
import StellarSettle.Core.DecimalRounding

/-!
# The shortest decimal that reads back

A value that a rounding keeps is written with as few digits as read back as it, and of
those decimals as the one that is nearest to it.  The search goes through the grids of
decimals from the one above the value's first digit down to the finest one.
-/

namespace StellarSettle.ShortestDecimal

open StellarSettle.DecimalRounding

/-! ## The search -/

section Search

variable (round : ℚ → ℚ) (value : ℚ)

/-- Of the multiples of a power of ten that read back as the value the nearest one, and of
two the even one; only the two next to the value can be. -/
def closest (exponent : ℤ) : Option ℚ :=
  let low := ⌊value / 10 ^ exponent⌋
  let high := ⌈value / 10 ^ exponent⌉
  let below := value - low * 10 ^ exponent
  let above := high * 10 ^ exponent - value
  if round (low * 10 ^ exponent) = value ∧
      (round (high * 10 ^ exponent) = value → below < above ∨ below = above ∧ Even low) then
    some (low * 10 ^ exponent)
  else if round (high * 10 ^ exponent) = value then some (high * 10 ^ exponent)
  else none

/-- The search on a number of grids, from a coarsest one on. -/
def search : (exponent : ℤ) → (grids : ℕ) → ℚ
  | _, 0 => value
  | exponent, grids + 1 =>
      match closest round value exponent with
      | some number => number
      | none => search (exponent - 1) grids

def shortest (finest : ℤ) : ℚ :=
  search round value (leadingExponent value + 1) (leadingExponent value + 2 - finest).toNat

/-- The multiple of a power of ten that `closest` looks for. -/
def IsClosest (exponent coefficient : ℤ) : Prop :=
  round (coefficient * 10 ^ exponent) = value ∧
    ∀ other : ℤ, round (other * 10 ^ exponent) = value → other = coefficient ∨
      |coefficient * 10 ^ exponent - value| < |other * 10 ^ exponent - value| ∨
      |coefficient * 10 ^ exponent - value| = |other * 10 ^ exponent - value| ∧ Even coefficient

end Search

/-- No decimal with fewer digits reads as the value, and none with as many is nearer to it. -/
def IsShortest (round : ℚ → ℚ) (value number : ℚ) : Prop :=
  ∃ exponent coefficient : ℤ, number = coefficient * 10 ^ exponent ∧
    (∀ other : ℤ, round (other * 10 ^ (exponent + 1)) ≠ value) ∧
    IsClosest round value exponent coefficient

/-! ## One grid -/

section Grid

variable {round : ℚ → ℚ} {value number : ℚ} {exponent coefficient other : ℤ}

theorem le_floor_or_ceil_le (value : ℚ) (other : ℤ) : other ≤ ⌊value⌋ ∨ ⌈value⌉ ≤ other := by
  rcases le_or_gt (other : ℚ) value with hle | hlt
  · exact .inl (Int.le_floor.mpr hle)
  · exact .inr (Int.ceil_le.mpr hlt.le)

theorem floor_mul_le (value : ℚ) (exponent : ℤ) :
    ⌊value / 10 ^ exponent⌋ * 10 ^ exponent ≤ value :=
  (le_div_iff₀ (by positivity)).mp (Int.floor_le _)

theorem le_ceil_mul (value : ℚ) (exponent : ℤ) :
    value ≤ ⌈value / 10 ^ exponent⌉ * 10 ^ exponent :=
  (div_le_iff₀ (by positivity)).mp (Int.le_ceil _)

theorem mul_pow_le {low high : ℤ} (hle : low ≤ high) (exponent : ℤ) :
    (low : ℚ) * 10 ^ exponent ≤ high * 10 ^ exponent :=
  mul_le_mul_of_nonneg_right (by exact_mod_cast hle) (by positivity)

section Reads

variable (hmono : Monotone round) (hvalue : round value = value)

include hmono hvalue

/-- What lies between a decimal that reads as the value and the value reads as it too. -/
theorem reads_of_le {low : ℚ} (hlow : round low = value) (hle : low ≤ number)
    (hnumber : number ≤ value) : round number = value :=
  le_antisymm ((hmono hnumber).trans hvalue.le) (hlow.symm.le.trans (hmono hle))

theorem reads_of_ge {high : ℚ} (hhigh : round high = value) (hle : number ≤ high)
    (hnumber : value ≤ number) : round number = value :=
  le_antisymm ((hmono hle).trans hhigh.le) (hvalue.symm.le.trans (hmono hnumber))

/-- A multiple that reads as the value is no nearer than the one next to the value on its
side, which reads as it too. -/
theorem reads_next (hother : round (other * 10 ^ exponent) = value) :
    (round (⌊value / 10 ^ exponent⌋ * 10 ^ exponent) = value ∧
      other ≤ ⌊value / 10 ^ exponent⌋) ∨
    (round (⌈value / 10 ^ exponent⌉ * 10 ^ exponent) = value ∧
      ⌈value / 10 ^ exponent⌉ ≤ other) := by
  rcases le_floor_or_ceil_le (value / 10 ^ exponent) other with hle | hle
  · exact .inl ⟨reads_of_le hmono hvalue hother (mul_pow_le hle exponent)
      (floor_mul_le value exponent), hle⟩
  · exact .inr ⟨reads_of_ge hmono hvalue hother (mul_pow_le hle exponent)
      (le_ceil_mul value exponent), hle⟩

theorem closest_eq_none (hnone : closest round value exponent = none) (other : ℤ) :
    round (other * 10 ^ exponent) ≠ value := by
  intro hother
  simp only [closest] at hnone
  split at hnone
  · cases hnone
  · rename_i hlow
    split at hnone
    · cases hnone
    · rename_i hhigh
      rcases reads_next hmono hvalue hother with ⟨hreads, -⟩ | ⟨hreads, -⟩
      · exact hlow ⟨hreads, fun hreadsHigh => absurd hreadsHigh hhigh⟩
      · exact hhigh hreads

/-- What the search finds on a grid is the nearest multiple that reads as the value. -/
theorem exists_isClosest (hfound : closest round value exponent = some number) :
    ∃ coefficient : ℤ, number = coefficient * 10 ^ exponent ∧
      IsClosest round value exponent coefficient := by
  have hbelow := floor_mul_le value exponent
  have habove := le_ceil_mul value exponent
  have hlowSize : |(⌊value / 10 ^ exponent⌋ : ℚ) * 10 ^ exponent - value| =
      value - ⌊value / 10 ^ exponent⌋ * 10 ^ exponent := by
    rw [abs_sub_comm, abs_of_nonneg (by linarith)]
  have hhighSize : |(⌈value / 10 ^ exponent⌉ : ℚ) * 10 ^ exponent - value| =
      ⌈value / 10 ^ exponent⌉ * 10 ^ exponent - value :=
    abs_of_nonneg (by linarith)
  have hpos : (0 : ℚ) < 10 ^ exponent := by positivity
  -- A multiple beyond one of the two is farther than it.
  have hfartherLow : ∀ other : ℤ, other < ⌊value / 10 ^ exponent⌋ →
      value - ⌊value / 10 ^ exponent⌋ * 10 ^ exponent < |(other : ℚ) * 10 ^ exponent - value| := by
    intro other hless
    have hmultiple : (other : ℚ) * 10 ^ exponent < ⌊value / 10 ^ exponent⌋ * 10 ^ exponent :=
      mul_lt_mul_of_pos_right (by exact_mod_cast hless) hpos
    rw [abs_sub_comm, abs_of_nonneg (by linarith)]
    linarith
  have hfartherHigh : ∀ other : ℤ, ⌈value / 10 ^ exponent⌉ < other →
      ⌈value / 10 ^ exponent⌉ * 10 ^ exponent - value < |(other : ℚ) * 10 ^ exponent - value| := by
    intro other hless
    have hmultiple : (⌈value / 10 ^ exponent⌉ : ℚ) * 10 ^ exponent < other * 10 ^ exponent :=
      mul_lt_mul_of_pos_right (by exact_mod_cast hless) hpos
    rw [abs_of_nonneg (by linarith)]
    linarith
  simp only [closest] at hfound
  split at hfound
  · rename_i hlow
    obtain rfl := Option.some.inj hfound
    refine ⟨_, rfl, hlow.1, fun other hother => ?_⟩
    rw [hlowSize]
    rcases reads_next hmono hvalue hother with ⟨-, hle⟩ | ⟨hreads, hle⟩
    · rcases hle.eq_or_lt with hsame | hless
      · exact .inl hsame
      · exact .inr (.inl (hfartherLow other hless))
    · have hnearer := hlow.2 hreads
      rcases hle.eq_or_lt with rfl | hless
      · rw [hhighSize]
        exact .inr hnearer
      · have hfarther := hfartherHigh other hless
        refine .inr (.inl ?_)
        rcases hnearer with hnearer | ⟨hnearer, -⟩ <;> linarith
  · rename_i hlow
    split at hfound
    · rename_i hhigh
      obtain rfl := Option.some.inj hfound
      refine ⟨_, rfl, hhigh, fun other hother => ?_⟩
      rw [hhighSize]
      rcases reads_next hmono hvalue hother with ⟨hreads, hle⟩ | ⟨-, hle⟩
      · have hnearer : ¬(value - ⌊value / 10 ^ exponent⌋ * 10 ^ exponent <
            ⌈value / 10 ^ exponent⌉ * 10 ^ exponent - value ∨
            value - ⌊value / 10 ^ exponent⌋ * 10 ^ exponent =
              ⌈value / 10 ^ exponent⌉ * 10 ^ exponent - value ∧
            Even ⌊value / 10 ^ exponent⌋) := fun hlower => hlow ⟨hreads, fun _ => hlower⟩
        rw [not_or, not_lt] at hnearer
        rcases hle.lt_or_eq with hless | rfl
        · exact .inr (.inl (hnearer.1.trans_lt (hfartherLow other hless)))
        · rw [hlowSize]
          rcases hnearer.1.lt_or_eq with hless | hsame
          · exact .inr (.inl hless)
          · have hodd : ¬Even ⌊value / 10 ^ exponent⌋ := fun heven => hnearer.2 ⟨hsame.symm, heven⟩
            have hlowHigh := Int.floor_le_ceil (value / 10 ^ exponent)
            have hhighLow := Int.ceil_le_floor_add_one (value / 10 ^ exponent)
            rcases hlowHigh.eq_or_lt with hequal | hless
            · exact .inl hequal
            · have hnext : ⌈value / 10 ^ exponent⌉ = ⌊value / 10 ^ exponent⌋ + 1 := by omega
              exact .inr (.inr ⟨hsame, hnext ▸ (Int.not_even_iff_odd.mp hodd).add_one⟩)
      · rcases hle.eq_or_lt with hsame | hless
        · exact .inl hsame.symm
        · exact .inr (.inl (hfartherHigh other hless))
    · cases hfound

/-- There is only one nearest multiple. -/
theorem IsClosest.unique (hcoefficient : IsClosest round value exponent coefficient)
    (hother : IsClosest round value exponent other) : coefficient = other := by
  wlog hless : coefficient < other generalizing coefficient other
  · rcases (not_lt.mp hless).eq_or_lt with hsame | hless
    · exact hsame.symm
    · exact (this hother hcoefficient hless).symm
  have hpos : (0 : ℚ) < 10 ^ exponent := by positivity
  rcases hcoefficient.2 other hother.1 with hsame | hnearer | ⟨htie, heven⟩
  · exact hsame.symm
  · rcases hother.2 coefficient hcoefficient.1 with hsame | hfarther | ⟨htie, -⟩
    · exact hsame
    · exact absurd hfarther (not_lt.mpr hnearer.le)
    · exact absurd htie hnearer.ne'
  · rcases hother.2 coefficient hcoefficient.1 with hsame | hfarther | ⟨-, hevenOther⟩
    · exact hsame
    · exact absurd htie hfarther.ne'
    · -- Both are even, so a nearer multiple lies between them.
      have hgap : coefficient + 1 < other := by
        rcases heven with ⟨half, rfl⟩
        rcases hevenOther with ⟨otherHalf, rfl⟩
        omega
      have hlow : (coefficient : ℚ) * 10 ^ exponent < ((coefficient + 1 : ℤ) : ℚ) * 10 ^ exponent :=
        mul_lt_mul_of_pos_right (by exact_mod_cast Int.lt_succ coefficient) hpos
      have hhigh : ((coefficient + 1 : ℤ) : ℚ) * 10 ^ exponent < other * 10 ^ exponent :=
        mul_lt_mul_of_pos_right (by exact_mod_cast hgap) hpos
      have hmiddle : value - coefficient * 10 ^ exponent = other * 10 ^ exponent - value := by
        rcases abs_eq_abs.mp htie with hsame | hopposite
        · linarith
        · linarith
      have hreads : round (((coefficient + 1 : ℤ) : ℚ) * 10 ^ exponent) = value := by
        rcases le_total (((coefficient + 1 : ℤ) : ℚ) * 10 ^ exponent) value with hle | hle
        · exact reads_of_le hmono hvalue hcoefficient.1 hlow.le hle
        · exact reads_of_ge hmono hvalue hother.1 hhigh.le hle
      have hsize : |((coefficient + 1 : ℤ) : ℚ) * 10 ^ exponent - value| <
          |(coefficient : ℚ) * 10 ^ exponent - value| := by
        rw [abs_of_neg (by linarith : (coefficient : ℚ) * 10 ^ exponent - value < 0), abs_lt]
        constructor <;> linarith
      rcases hcoefficient.2 _ hreads with hsame | hnearer | ⟨hequal, -⟩
      · omega
      · exact absurd hsize (not_lt.mpr hnearer.le)
      · exact absurd hsize hequal.not_gt

end Reads

end Grid

/-! ## All grids -/

section Grids

variable {round : ℚ → ℚ} {value : ℚ} {finest : ℤ} (hmono : Monotone round)
  (hvalue : round value = value) (hpos : 0 < value) (hzero : round 0 = 0)
  (hlarger : ∀ number, 10 * value ≤ number → round number ≠ value)

include hmono hpos hzero hlarger in
/-- No multiple of a power of ten above ten times the value reads as it. -/
theorem round_ne_of_coarse {exponent : ℤ} (hexponent : leadingExponent value + 2 ≤ exponent)
    (coefficient : ℤ) : round (coefficient * 10 ^ exponent) ≠ value := by
  have hpower : (0 : ℚ) < 10 ^ exponent := by positivity
  rcases le_or_gt coefficient 0 with hle | hlt
  · have hnegative : (coefficient : ℚ) * 10 ^ exponent ≤ 0 :=
      mul_nonpos_of_nonpos_of_nonneg (by exact_mod_cast hle) hpower.le
    have hround : round (coefficient * 10 ^ exponent) ≤ 0 := (hmono hnegative).trans hzero.le
    exact (hround.trans_lt hpos).ne
  · refine hlarger _ ?_
    have hlog : |value| < (10 : ℚ) ^ (leadingExponent value + 1) :=
      Int.lt_zpow_succ_log_self (by norm_num) |value|
    rw [abs_of_pos hpos] at hlog
    have hone : (1 : ℚ) ≤ coefficient := by exact_mod_cast hlt
    calc 10 * value ≤ 10 * 10 ^ (leadingExponent value + 1) := by linarith
      _ = 10 ^ (leadingExponent value + 2) := by
        rw [show leadingExponent value + 2 = leadingExponent value + 1 + 1 by ring,
          zpow_add_one₀ (by norm_num) (leadingExponent value + 1), mul_comm]
      _ ≤ 10 ^ exponent := zpow_le_zpow_right₀ (by norm_num) hexponent
      _ ≤ coefficient * 10 ^ exponent := le_mul_of_one_le_left hpower.le hone

/-- Multiples of a power of ten are multiples of the lower ones. -/
theorem exists_finer {coarse fine : ℤ} (hle : fine ≤ coarse) (coefficient : ℤ) :
    ∃ other : ℤ, (coefficient : ℚ) * 10 ^ coarse = other * 10 ^ fine := by
  obtain ⟨extra, rfl⟩ := Int.le.dest hle
  refine ⟨coefficient * 10 ^ extra, ?_⟩
  rw [zpow_add₀ (by norm_num), zpow_natCast]
  push_cast
  ring

/-- A coarser grid has none that reads as the value, and on one grid only one is nearest. -/
theorem IsShortest.unique (hmono : Monotone round) (hvalue : round value = value)
    {number other : ℚ} (hnumber : IsShortest round value number)
    (hother : IsShortest round value other) : number = other := by
  obtain ⟨exponent, coefficient, rfl, hcoarse, hclosest⟩ := hnumber
  obtain ⟨grid, multiple, rfl, hgrid, hmultiple⟩ := hother
  rcases lt_trichotomy grid exponent with hless | rfl | hless
  · obtain ⟨finer, hfiner⟩ := exists_finer (show grid + 1 ≤ exponent by omega) coefficient
    exact absurd (hfiner ▸ hclosest.1) (hgrid finer)
  · rw [hclosest.unique hmono hvalue hmultiple]
  · obtain ⟨finer, hfiner⟩ := exists_finer (show exponent + 1 ≤ grid by omega) multiple
    exact absurd (hfiner ▸ hmultiple.1) (hcoarse finer)

/-- An integer is written as an integer. -/
theorem IsShortest.exists_int (hvalue : round value = value) {whole : ℤ} (hwhole : value = whole)
    {number : ℚ} (hnumber : IsShortest round value number) : ∃ written : ℤ, number = written := by
  obtain ⟨exponent, coefficient, rfl, hcoarse, -⟩ := hnumber
  have hexponent : 0 ≤ exponent := by
    by_contra hfine
    obtain ⟨finer, hfiner⟩ := exists_finer (show exponent + 1 ≤ 0 by omega) whole
    rw [zpow_zero, mul_one, ← hwhole] at hfiner
    exact hcoarse finer (by rw [← hfiner, hvalue])
  obtain ⟨other, hother⟩ := exists_finer hexponent coefficient
  exact ⟨other, by rw [hother, zpow_zero, mul_one]⟩

/-- A value on the finest grid is found there at last. -/
theorem search_isShortest (hmono : Monotone round) (hvalue : round value = value)
    (hfinest : ∃ multiple : ℤ, value = multiple * 10 ^ finest) {exponent : ℤ} {grids : ℕ}
    (hstart : finest ≤ exponent) (hend : exponent - grids < finest)
    (hcoarse : ∀ other : ℤ, round (other * 10 ^ (exponent + 1)) ≠ value) :
    IsShortest round value (search round value exponent grids) := by
  induction grids generalizing exponent with
  | zero => omega
  | succ grids ih =>
      rw [search]
      cases hfound : closest round value exponent with
      | none =>
          have hnone := closest_eq_none hmono hvalue hfound
          have hbelow : finest ≤ exponent - 1 := by
            by_contra hlast
            obtain rfl : finest = exponent := by omega
            obtain ⟨multiple, hmultiple⟩ := hfinest
            exact hnone multiple (by rw [← hmultiple, hvalue])
          exact ih hbelow (by omega) (by rwa [sub_add_cancel])
      | some written =>
          obtain ⟨coefficient, hwritten, hclosest⟩ := exists_isClosest hmono hvalue hfound
          exact ⟨exponent, coefficient, hwritten, hcoarse, hclosest⟩

include hmono hvalue hpos hzero hlarger

/-- A value is written as the shortest decimal that reads as it. -/
theorem isShortest_shortest (hfinest : ∃ multiple : ℤ, value = multiple * 10 ^ finest) :
    IsShortest round value (shortest round value finest) := by
  have hstart : finest ≤ leadingExponent value + 1 := by
    by_contra hcoarse
    obtain ⟨multiple, hmultiple⟩ := hfinest
    have hmiss := round_ne_of_coarse hmono hpos hzero hlarger
      (show leadingExponent value + 2 ≤ finest by omega) multiple
    rw [← hmultiple, hvalue] at hmiss
    exact hmiss rfl
  refine search_isShortest hmono hvalue hfinest hstart (by omega) fun other => ?_
  exact round_ne_of_coarse hmono hpos hzero hlarger (by omega) other

theorem shortest_eq_iff (hfinest : ∃ multiple : ℤ, value = multiple * 10 ^ finest) {number : ℚ} :
    shortest round value finest = number ↔ IsShortest round value number := by
  have hshortest := isShortest_shortest hmono hvalue hpos hzero hlarger hfinest
  exact ⟨fun hsame => hsame ▸ hshortest, fun hnumber => hshortest.unique hmono hvalue hnumber⟩

end Grids

end StellarSettle.ShortestDecimal
