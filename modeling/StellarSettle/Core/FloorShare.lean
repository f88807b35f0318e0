import Mathlib.Algebra.BigOperators.Group.List.Basic
import Mathlib.Algebra.Order.BigOperators.Group.List
import Mathlib.Algebra.Order.Ring.Int
import Mathlib.Data.Int.Basic
import Mathlib.Tactic.Linarith
import Mathlib.Tactic.Ring

/-!
# Floored proportional shares

A pool is divided over a list of weighted holders, and every share is floored.
The floors never exceed the pool, they lose less than one unit for each holder,
and they lose nothing exactly when every share is whole.
-/

namespace StellarSettle.FloorShare

variable {Holder : Type*}

/-- The floored share of `pool` that belongs to `weight` out of `total`. -/
def floorShare (pool total weight : ℤ) : ℤ := weight * pool / total

/-- Sum of the weights of a list of holders. -/
def weightSum (weight : Holder → ℤ) (holders : List Holder) : ℤ :=
  (holders.map weight).sum

/-- Sum of the floored shares of a list of holders. -/
def shareSum (pool total : ℤ) (weight : Holder → ℤ) (holders : List Holder) : ℤ :=
  (holders.map fun holder => floorShare pool total (weight holder)).sum

@[simp]
theorem weightSum_nil (weight : Holder → ℤ) : weightSum weight [] = 0 := rfl

@[simp]
theorem weightSum_cons (weight : Holder → ℤ) (holder : Holder) (rest : List Holder) :
    weightSum weight (holder :: rest) = weight holder + weightSum weight rest := by
  simp [weightSum]

@[simp]
theorem shareSum_nil (pool total : ℤ) (weight : Holder → ℤ) :
    shareSum pool total weight [] = 0 := rfl

@[simp]
theorem shareSum_cons (pool total : ℤ) (weight : Holder → ℤ) (holder : Holder)
    (rest : List Holder) :
    shareSum pool total weight (holder :: rest) =
      floorShare pool total (weight holder) + shareSum pool total weight rest := by
  simp [shareSum]

theorem weightSum_perm (weight : Holder → ℤ) {left right : List Holder}
    (hperm : left.Perm right) : weightSum weight left = weightSum weight right :=
  (hperm.map weight).sum_eq

theorem shareSum_perm (pool total : ℤ) (weight : Holder → ℤ) {left right : List Holder}
    (hperm : left.Perm right) :
    shareSum pool total weight left = shareSum pool total weight right :=
  (hperm.map _).sum_eq

theorem weightSum_nonneg {weight : Holder → ℤ} {holders : List Holder}
    (hweight : ∀ holder ∈ holders, 0 ≤ weight holder) : 0 ≤ weightSum weight holders := by
  apply List.sum_nonneg
  intro value hvalue
  obtain ⟨holder, hmem, rfl⟩ := List.mem_map.mp hvalue
  exact hweight holder hmem

theorem weightSum_pos {weight : Holder → ℤ} {holders : List Holder}
    (hne : holders ≠ []) (hweight : ∀ holder ∈ holders, 0 < weight holder) :
    0 < weightSum weight holders := by
  cases holders with
  | nil => exact absurd rfl hne
  | cons holder rest =>
      have hhead := hweight holder (by simp)
      have htail : 0 ≤ weightSum weight rest :=
        weightSum_nonneg fun other hmem => (hweight other (by simp [hmem])).le
      rw [weightSum_cons]
      omega

/-! ## One share -/

/-- A floored share is at most the exact share. -/
theorem total_mul_floorShare_le {total : ℤ} (htotal : 0 < total) (pool weight : ℤ) :
    total * floorShare pool total weight ≤ weight * pool := by
  rw [mul_comm]
  exact Int.ediv_mul_le _ htotal.ne'

/-- A floored share is less than one unit below the exact share. -/
theorem lt_total_mul_floorShare {total : ℤ} (htotal : 0 < total) (pool weight : ℤ) :
    weight * pool < total * floorShare pool total weight + total := by
  have hlt := Int.lt_ediv_add_one_mul_self (weight * pool) htotal
  rw [floorShare]
  linarith

theorem total_mul_floorShare_eq_iff {pool total weight : ℤ} :
    total * floorShare pool total weight = weight * pool ↔ total ∣ weight * pool := by
  constructor
  · intro heq
    exact ⟨floorShare pool total weight, heq.symm⟩
  · exact fun hdvd => Int.mul_ediv_cancel' hdvd

/-! ## All shares together -/

theorem total_mul_shareSum_le {total : ℤ} (htotal : 0 < total) (pool : ℤ)
    (weight : Holder → ℤ) (holders : List Holder) :
    total * shareSum pool total weight holders ≤ weightSum weight holders * pool := by
  induction holders with
  | nil => simp
  | cons holder rest ih =>
      have hhead := total_mul_floorShare_le htotal pool (weight holder)
      rw [shareSum_cons, weightSum_cons, mul_add, add_mul]
      linarith

theorem lt_total_mul_shareSum {total : ℤ} (htotal : 0 < total) (pool : ℤ)
    (weight : Holder → ℤ) {holders : List Holder} (hne : holders ≠ []) :
    weightSum weight holders * pool <
      total * (shareSum pool total weight holders + holders.length) := by
  induction holders with
  | nil => exact absurd rfl hne
  | cons holder rest ih =>
      have hhead := lt_total_mul_floorShare htotal pool (weight holder)
      rw [shareSum_cons, weightSum_cons, List.length_cons]
      push_cast
      rcases rest.eq_nil_or_concat with rfl | ⟨front, last, rfl⟩
      · simp only [weightSum_nil, shareSum_nil, List.length_nil]
        push_cast
        linarith
      · have htail := ih (by simp)
        linarith

/-- The floors lose nothing exactly when every share is whole. -/
theorem total_mul_shareSum_eq_iff {pool total : ℤ} (htotal : 0 < total)
    (weight : Holder → ℤ) (holders : List Holder) :
    total * shareSum pool total weight holders = weightSum weight holders * pool ↔
      ∀ holder ∈ holders, total ∣ weight holder * pool := by
  induction holders with
  | nil => simp
  | cons holder rest ih =>
      have hhead := total_mul_floorShare_le htotal pool (weight holder)
      have htail := total_mul_shareSum_le htotal pool weight rest
      rw [shareSum_cons, weightSum_cons, mul_add, add_mul, List.forall_mem_cons, ← ih,
        ← total_mul_floorShare_eq_iff]
      constructor
      · intro heq
        constructor <;> linarith
      · rintro ⟨hfirst, hrest⟩
        linarith

section WholePool

/-! ## Holders that own the whole pool -/

variable {total : ℤ} {weight : Holder → ℤ} {holders : List Holder}

theorem shareSum_le_pool (pool : ℤ) (htotal : 0 < total)
    (hsum : weightSum weight holders = total) :
    shareSum pool total weight holders ≤ pool := by
  have hle := total_mul_shareSum_le htotal pool weight holders
  rw [hsum] at hle
  exact le_of_mul_le_mul_left hle htotal

theorem pool_lt_shareSum_add_length (pool : ℤ) (htotal : 0 < total)
    (hsum : weightSum weight holders = total) (hne : holders ≠ []) :
    pool < shareSum pool total weight holders + holders.length := by
  have hlt := lt_total_mul_shareSum htotal pool weight hne
  rw [hsum] at hlt
  exact lt_of_mul_lt_mul_left hlt htotal.le

theorem shareSum_eq_pool_iff (pool : ℤ) (htotal : 0 < total)
    (hsum : weightSum weight holders = total) :
    shareSum pool total weight holders = pool ↔
      ∀ holder ∈ holders, total ∣ weight holder * pool := by
  rw [← total_mul_shareSum_eq_iff htotal, hsum]
  exact (mul_right_inj' htotal.ne').symm

end WholePool

end StellarSettle.FloorShare
