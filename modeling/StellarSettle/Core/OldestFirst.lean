import StellarSettle.Core.OrderedRows
import StellarSettle.Core.UniqueColumns

/-!
# Batches of the first rows

A batch holds the first rows of a table in an order, where rows that compare equal come as they
are stored.  A row that is left out has a full batch before it, and a row that is taken has fewer
rows before it than the batch may hold.
-/

namespace StellarSettle.OldestFirst

open Std
open StellarSettle.OrderedRows
open StellarSettle.UniqueColumns (StorageOrder)

variable {Row : Type*} {order : Row → Row → Ordering} {storage : StorageOrder Row}
  {rows : List Row} {row : Row} {size : ℕ}

def batch (order : Row → Row → Ordering) (storage : StorageOrder Row) (rows : List Row)
    (size : ℕ) : List Row :=
  (sortRows order (storage.list rows)).take size

theorem sorted_perm (order : Row → Row → Ordering) (storage : StorageOrder Row)
    (rows : List Row) : (sortRows order (storage.list rows)).Perm rows :=
  (sortRows_perm order _).trans (storage.perm rows)

theorem mem_of_mem_batch (hrow : row ∈ batch order storage rows size) : row ∈ rows :=
  (sorted_perm order storage rows).mem_iff.mp (List.mem_of_mem_take hrow)

theorem nodup_batch (hdistinct : rows.Nodup) : (batch order storage rows size).Nodup :=
  ((sorted_perm order storage rows).nodup_iff.mpr hdistinct).sublist (List.take_sublist _ _)

variable [TransCmp order]

/-- A row that is left out comes after the rows of a full batch. -/
theorem full_of_not_mem_batch (hrow : row ∈ rows)
    (hleft : row ∉ batch order storage rows size) :
    (batch order storage rows size).length = size ∧
      ∀ taken ∈ batch order storage rows size, (order taken row).isLE := by
  have hmem : row ∈ (sortRows order (storage.list rows)).drop size := by
    have hsorted := (sorted_perm order storage rows).mem_iff.mpr hrow
    rw [← List.take_append_drop size (sortRows order (storage.list rows)),
      List.mem_append] at hsorted
    exact hsorted.resolve_left hleft
  have hlonger : 0 < ((sortRows order (storage.list rows)).drop size).length :=
    List.length_pos_of_mem hmem
  rw [List.length_drop] at hlonger
  have hsplit : (batch order storage rows size ++
      (sortRows order (storage.list rows)).drop size).Pairwise
        fun left right => (order left right).isLE := by
    rw [batch, List.take_append_drop]
    exact sortRows_pairwise
  refine ⟨List.length_take_of_le (by omega), fun taken htaken => ?_⟩
  exact (List.pairwise_append.mp hsplit).2.2 taken htaken row hmem

/-- What comes strictly before a row of a sorted list stands before it. -/
theorem countP_lt_of_mem_take {sorted : List Row}
    (hsorted : sorted.Pairwise fun left right => (order left right).isLE)
    (hrow : row ∈ sorted.take size) :
    sorted.countP (fun other => order other row = .lt) < size := by
  have hself : order row row = .eq := ReflCmp.compare_self
  obtain ⟨before, after, hsplit⟩ := List.append_of_mem hrow
  have hwhole : sorted = before ++ row :: (after ++ sorted.drop size) := by
    rw [← List.cons_append, ← List.append_assoc, ← hsplit, List.take_append_drop]
  have hlater : (row :: (after ++ sorted.drop size)).countP
      (fun other => order other row = .lt) = 0 := by
    rw [hwhole, List.pairwise_append] at hsorted
    have htail := List.pairwise_cons.mp hsorted.2.1
    rw [List.countP_eq_zero]
    intro other hother
    rcases List.mem_cons.mp hother with rfl | hrest
    · simp [hself]
    · have hle := htail.1 other hrest
      have hswap : order other row = (order row other).swap := OrientedCmp.eq_swap
      rw [hswap]
      cases hcompare : order row other with
      | lt => simp
      | eq => simp
      | gt =>
          rw [hcompare] at hle
          cases hle
  have hbefore : before.length < size := by
    have hlength := congrArg List.length hsplit
    rw [List.length_take, List.length_append, List.length_cons] at hlength
    omega
  rw [hwhole, List.countP_append, hlater]
  exact Nat.lt_of_le_of_lt List.countP_le_length hbefore

/-- A row that is taken has fewer rows strictly before it than the batch may hold. -/
theorem countP_lt_of_mem_batch (hrow : row ∈ batch order storage rows size) :
    rows.countP (fun other => order other row = .lt) < size := by
  have hcount : (sortRows order (storage.list rows)).countP (fun other => order other row = .lt) <
      size := countP_lt_of_mem_take sortRows_pairwise hrow
  rwa [(sorted_perm order storage rows).countP_eq] at hcount

end StellarSettle.OldestFirst
