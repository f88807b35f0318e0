import Mathlib.Algebra.Order.Ring.Nat
import Mathlib.Data.List.Induction
import StellarSettle.Core.FloorShare

/-!
# Shares that leave nothing

A pool is divided over weighted holders in floored shares, and what the floors leave goes to
one holder.  The shares then make up the pool, and when that holder has the largest weight no
smaller weight has a larger share.
-/

namespace StellarSettle.WholeShares

open StellarSettle.FloorShare

variable {Holder Weight : Type*}

theorem sum_modify_add {values : List ℤ} {index : ℕ} (hindex : index < values.length)
    (rest : ℤ) : (values.modify index (· + rest)).sum = values.sum + rest := by
  induction values generalizing index with
  | nil => cases hindex
  | cons value values ih =>
      cases index with
      | zero =>
          rw [List.modify_zero_cons, List.sum_cons, List.sum_cons]
          ring
      | succ index =>
          rw [List.modify_succ_cons, List.sum_cons, List.sum_cons,
            ih (Nat.lt_of_succ_lt_succ hindex)]
          ring

/-! ## The shares -/

/-- Floored shares, with the rest for the holder at `top`. -/
def wholeShares (pool total : ℤ) (weight : Holder → ℤ) (top : ℕ) (holders : List Holder) :
    List ℤ :=
  (holders.map fun holder => floorShare pool total (weight holder)).modify top
    (· + (pool - shareSum pool total weight holders))

section Shares

variable {pool total : ℤ} {weight : Holder → ℤ} {top : ℕ} {holders : List Holder}

@[simp]
theorem length_wholeShares :
    (wholeShares pool total weight top holders).length = holders.length := by
  rw [wholeShares, List.length_modify, List.length_map]

theorem getElem_wholeShares {index : ℕ}
    (hindex : index < (wholeShares pool total weight top holders).length) :
    (wholeShares pool total weight top holders)[index] =
      floorShare pool total (weight (holders.get ⟨index, by simpa using hindex⟩)) +
        if top = index then pool - shareSum pool total weight holders else 0 := by
  simp only [wholeShares, List.getElem_modify, List.getElem_map]
  split
  · rfl
  · exact (add_zero _).symm

theorem sum_wholeShares (htop : top < holders.length) :
    (wholeShares pool total weight top holders).sum = pool := by
  rw [wholeShares, sum_modify_add (by rwa [List.length_map])]
  change shareSum pool total weight holders + _ = pool
  ring

theorem floorShare_le_wholeShares (htotal : 0 < total)
    (hsum : weightSum weight holders = total) {index : ℕ}
    (hindex : index < (wholeShares pool total weight top holders).length) :
    floorShare pool total (weight (holders.get ⟨index, by simpa using hindex⟩)) ≤
      (wholeShares pool total weight top holders)[index] := by
  have hrest := shareSum_le_pool pool htotal hsum
  rw [getElem_wholeShares]
  split <;> omega

/-- No smaller weight than the largest one, which gets the rest, has a larger share. -/
theorem wholeShares_le_of_lt (hpool : 0 ≤ pool) (htotal : 0 < total)
    (hsum : weightSum weight holders = total) (htop : top < holders.length)
    (hlargest : ∀ holder ∈ holders, weight holder ≤ weight holders[top]) {small large : ℕ}
    (hsmall : small < (wholeShares pool total weight top holders).length)
    (hlarge : large < (wholeShares pool total weight top holders).length)
    (hless : weight (holders.get ⟨small, by simpa using hsmall⟩) <
      weight (holders.get ⟨large, by simpa using hlarge⟩)) :
    (wholeShares pool total weight top holders)[small] ≤
      (wholeShares pool total weight top holders)[large] := by
  have hne : top ≠ small := by
    rintro rfl
    exact absurd (hlargest _ (List.getElem_mem _)) (not_le.mpr hless)
  calc
    (wholeShares pool total weight top holders)[small] =
        floorShare pool total (weight (holders.get ⟨small, by simpa using hsmall⟩)) := by
      rw [getElem_wholeShares, if_neg hne, add_zero]
    _ ≤ floorShare pool total (weight (holders.get ⟨large, by simpa using hlarge⟩)) :=
      Int.ediv_le_ediv htotal (mul_le_mul_of_nonneg_right hless.le hpool)
    _ ≤ (wholeShares pool total weight top holders)[large] :=
      floorShare_le_wholeShares htotal hsum hlarge

end Shares

/-! ## The first largest weight -/

section Largest

variable [LinearOrder Weight] {weight : Holder → Weight} {holders : List Holder}

/-- A loop over the holders that keeps the largest weight so far with its index. -/
def scanLargest (weight : Holder → Weight) (start : Weight × ℕ) (holders : List Holder) :
    Weight × ℕ :=
  holders.zipIdx.foldl (fun best entry =>
    if best.1 < weight entry.1 then (weight entry.1, entry.2) else best) start

/-- The weight is that of the holder at the index, and no holder has a larger one. -/
def IsLargest (weight : Holder → Weight) (holders : List Holder) (best : Weight × ℕ) : Prop :=
  (∀ holder ∈ holders, weight holder ≤ best.1) ∧
    ∃ hindex : best.2 < holders.length, weight holders[best.2] = best.1

theorem scanLargest_append (weight : Holder → Weight) (start : Weight × ℕ)
    (holders : List Holder) (last : Holder) :
    scanLargest weight start (holders ++ [last]) =
      if (scanLargest weight start holders).1 < weight last then
        (weight last, holders.length)
      else scanLargest weight start holders := by
  rw [scanLargest, List.zipIdx_append, List.foldl_append, Nat.zero_add]
  rfl

theorem IsLargest.append_of_lt {best : Weight × ℕ} {last : Holder}
    (hbest : ∀ holder ∈ holders, weight holder ≤ best.1) (hless : best.1 < weight last) :
    IsLargest weight (holders ++ [last]) (weight last, holders.length) := by
  refine ⟨?_, by simp, by simp⟩
  intro holder hmem
  rcases List.mem_append.mp hmem with hold | hlast
  · exact (hbest holder hold).trans hless.le
  · rw [List.mem_singleton.mp hlast]

theorem IsLargest.append_of_le {best : Weight × ℕ} {last : Holder}
    (hbest : IsLargest weight holders best) (hle : weight last ≤ best.1) :
    IsLargest weight (holders ++ [last]) best := by
  obtain ⟨hall, hindex, hweight⟩ := hbest
  refine ⟨?_, by simp; omega, ?_⟩
  · intro holder hmem
    rcases List.mem_append.mp hmem with hold | hlast
    · exact hall holder hold
    · rwa [List.mem_singleton.mp hlast]
  · rwa [List.getElem_append_left hindex]

/-- From below all weights, the loop finds the largest one. -/
theorem isLargest_scanLargest {start : Weight × ℕ} (hne : holders ≠ [])
    (hstart : ∀ holder ∈ holders, start.1 < weight holder) :
    IsLargest weight holders (scanLargest weight start holders) := by
  induction holders using List.reverseRecOn with
  | nil => exact absurd rfl hne
  | append_singleton holders last ih =>
      have hlast : start.1 < weight last := hstart last (by simp)
      rw [scanLargest_append]
      by_cases hempty : holders = []
      · subst hempty
        have hscan : scanLargest weight start [] = start := rfl
        rw [hscan, if_pos hlast]
        exact IsLargest.append_of_lt nofun hlast
      · have hbest := ih hempty fun holder hmem => hstart holder (List.mem_append_left _ hmem)
        split
        · rename_i hless
          exact IsLargest.append_of_lt hbest.1 hless
        · rename_i hge
          exact hbest.append_of_le (not_lt.mp hge)

end Largest

end StellarSettle.WholeShares
