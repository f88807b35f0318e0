import Mathlib.Algebra.Order.Group.Basic
import Mathlib.Data.List.Perm.Basic

/-!
# Sliding windows

Times are collected in a list, and of each half-open window of a width it is asked how many of
them it contains.  A store that keeps the recent times of such a list, and perhaps some that
are older, counts a window that ends now.
-/

namespace StellarSettle.SlidingWindows

variable {Time : Type*} [AddCommGroup Time] [LinearOrder Time] [IsOrderedAddMonoid Time]
variable {width now next : Time} {bound : ℕ} {times stored : List Time}

/-- The times in the window that ends at `last`. -/
def within (width last : Time) (times : List Time) : List Time :=
  times.filter fun time => last - width < time ∧ time ≤ last

/-- The times that a window which ends at `now` has not left behind. -/
def recent (width now : Time) (times : List Time) : List Time :=
  times.filter fun time => now - width < time

/-- No window contains more than `bound` of the times. -/
def Bounded (width : Time) (bound : ℕ) (times : List Time) : Prop :=
  ∀ last, (within width last times).length ≤ bound

/-- The store has the recent ones of the times. -/
def Holds (width now : Time) (stored times : List Time) : Prop :=
  (recent width now stored).Perm (recent width now times)

omit [IsOrderedAddMonoid Time] in
theorem bounded_nil : Bounded width bound [] := fun _ => Nat.zero_le _

omit [IsOrderedAddMonoid Time] in
theorem recent_eq_within (hpast : ∀ time ∈ times, time ≤ now) :
    recent width now times = within width now times := by
  apply List.filter_congr
  intro time hmem
  simp [hpast time hmem]

omit [IsOrderedAddMonoid Time] in
theorem length_recent_le (hpast : ∀ time ∈ times, time ≤ now)
    (hbounded : Bounded width bound times) : (recent width now times).length ≤ bound := by
  rw [recent_eq_within hpast]
  exact hbounded now

theorem recent_recent (hle : now ≤ next) :
    recent width next (recent width now times) = recent width next times := by
  rw [recent, recent, recent, List.filter_filter]
  apply List.filter_congr
  intro time _
  rw [Bool.and_eq_left_iff_imp, decide_eq_true_iff, decide_eq_true_iff]
  exact (sub_le_sub_right hle width).trans_lt

/-- What a later window contains, the one that ends now has not left behind. -/
theorem length_within_le (hle : now ≤ next) :
    (within width next times).length ≤ (recent width now times).length := by
  apply List.Sublist.length_le
  apply List.monotone_filter_right
  intro time htime
  rw [decide_eq_true_iff] at htime ⊢
  exact (sub_le_sub_right hle width).trans_lt htime.1

/-- Where the recent times leave room, another one fits into every window. -/
theorem Bounded.cons (hbounded : Bounded width bound times)
    (hroom : (recent width now times).length < bound) : Bounded width bound (now :: times) := by
  intro last
  rw [within, List.filter_cons]
  split
  · rename_i hcontains
    rw [decide_eq_true_iff] at hcontains
    exact (Nat.succ_le_succ (length_within_le hcontains.2)).trans hroom
  · exact hbounded last

omit [IsOrderedAddMonoid Time] in
theorem holds_nil : Holds width now [] [] := List.Perm.refl _

theorem Holds.later (hholds : Holds width now stored times) (hle : now ≤ next) :
    Holds width next stored times := by
  have hlater : ∀ list, recent width next list = recent width next (recent width now list) :=
    fun _ => (recent_recent hle).symm
  rw [Holds, hlater stored, hlater times]
  exact hholds.filter fun time => next - width < time

/-- A store that drops what it need not keep. -/
theorem Holds.prune (hholds : Holds width now stored times) :
    Holds width now (recent width now stored) times := by
  rw [Holds, recent_recent (le_refl now)]
  exact hholds

omit [IsOrderedAddMonoid Time] in
theorem Holds.cons (hholds : Holds width now stored times) (time : Time) :
    Holds width now (time :: stored) (time :: times) := by
  rw [Holds, recent, recent, List.filter_cons, List.filter_cons]
  split
  · exact List.Perm.cons time hholds
  · exact hholds

omit [IsOrderedAddMonoid Time] in
/-- An empty store has all that it needs when everything has been left behind. -/
theorem holds_of_left (hleft : ∀ time ∈ times, time ≤ now - width) :
    Holds width now [] times := by
  have hnothing : recent width now times = [] := by
    apply List.filter_eq_nil_iff.mpr
    intro time hmem
    rw [decide_eq_true_iff]
    exact not_lt.mpr (hleft time hmem)
  rw [Holds, hnothing]
  exact List.Perm.refl _

omit [IsOrderedAddMonoid Time] in
/-- When a time has been left behind, fewer are recent. -/
theorem length_recent_lt {time : Time} (hmem : time ∈ times) (hleft : time ≤ now - width) :
    (recent width now times).length < times.length := by
  apply List.length_filter_lt_length_iff_exists.mpr
  refine ⟨time, hmem, ?_⟩
  rw [decide_eq_true_iff]
  exact not_lt.mpr hleft

end StellarSettle.SlidingWindows
