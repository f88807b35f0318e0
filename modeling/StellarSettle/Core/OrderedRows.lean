import Mathlib.Data.List.Sort

/-!
# Ordered rows

Rows are sorted by a comparison.  Where the comparison tells the rows of a table apart, there
is one sorted list of them, and a filter may be applied before or after the sort.
-/

namespace StellarSettle.OrderedRows

open Std

variable {Row : Type*} {order : Row → Row → Ordering} {rows : List Row}

/-- Sorts rows by a comparison.  Rows that compare equal keep their places. -/
def sortRows (order : Row → Row → Ordering) (rows : List Row) : List Row :=
  rows.insertionSort fun left right => (order left right).isLE

/-- A column in descending order: the missing values come first. -/
def compareDescending {Column : Type*} [Ord Column] : Option Column → Option Column → Ordering
  | none, none => .eq
  | none, some _ => .lt
  | some _, none => .gt
  | some left, some right => compare right left

/-- No two of the rows compare equal. -/
def Separates (order : Row → Row → Ordering) (rows : List Row) : Prop :=
  ∀ left ∈ rows, ∀ right ∈ rows, order left right = .eq → left = right

theorem sortRows_perm (order : Row → Row → Ordering) (rows : List Row) :
    (sortRows order rows).Perm rows :=
  List.perm_insertionSort _ rows

@[simp]
theorem mem_sortRows {row : Row} : row ∈ sortRows order rows ↔ row ∈ rows :=
  (sortRows_perm order rows).mem_iff

theorem nodup_sortRows (hdistinct : rows.Nodup) : (sortRows order rows).Nodup :=
  (sortRows_perm order rows).nodup_iff.mpr hdistinct

section Ordered

variable [TransCmp order]

theorem sortRows_pairwise : (sortRows order rows).Pairwise fun left right =>
    (order left right).isLE := by
  have : Std.Total fun left right : Row => ((order left right).isLE : Prop) :=
    ⟨fun left right => by
      have hswap : order right left = (order left right).swap := OrientedCmp.eq_swap
      rw [hswap]
      cases order left right <;> simp⟩
  have : IsTrans Row fun left right => ((order left right).isLE : Prop) :=
    ⟨fun _ _ _ => TransCmp.isLE_trans⟩
  exact List.pairwise_insertionSort _ rows

/-- There is one sorted list of rows that are told apart. -/
theorem eq_of_sorted {left right : List Row} (hseparates : Separates order left)
    (hleft : left.Pairwise fun first second => (order first second).isLE)
    (hright : right.Pairwise fun first second => (order first second).isLE)
    (hperm : left.Perm right) : left = right := by
  apply List.Perm.eq_of_pairwise _ hleft hright hperm
  intro first second hfirst hsecond hle hge
  apply hseparates first hfirst second (hperm.mem_iff.mpr hsecond)
  exact OrientedCmp.isLE_antisymm hle hge

theorem filter_sortRows (hseparates : Separates order rows) (accepts : Row → Bool) :
    (sortRows order rows).filter accepts = sortRows order (rows.filter accepts) := by
  have hkept : Separates order ((sortRows order rows).filter accepts) := by
    intro left hleft right hright
    exact hseparates left (mem_sortRows.mp (List.mem_of_mem_filter hleft)) right
      (mem_sortRows.mp (List.mem_of_mem_filter hright))
  apply eq_of_sorted hkept
  · exact sortRows_pairwise.filter accepts
  · exact sortRows_pairwise
  · calc
      ((sortRows order rows).filter accepts).Perm (rows.filter accepts) :=
        (sortRows_perm order rows).filter accepts
      (rows.filter accepts).Perm (sortRows order (rows.filter accepts)) :=
        (sortRows_perm order (rows.filter accepts)).symm

/-- The rows of a sorted list that tells them apart lie strictly before and after each other. -/
theorem sortRows_strict (hdistinct : rows.Nodup) (hseparates : Separates order rows) :
    (sortRows order rows).Pairwise fun left right => order left right = .lt := by
  have hkept : (sortRows order rows).Nodup := nodup_sortRows hdistinct
  apply (sortRows_pairwise.and hkept).imp_of_mem
  intro left right hleft hright hpair
  apply Ordering.isLE_iff_eq_lt_or_eq_eq.mp hpair.1 |>.resolve_right
  intro hsame
  exact hpair.2 (hseparates left (mem_sortRows.mp hleft) right (mem_sortRows.mp hright) hsame)

variable {before rest : List Row} {last : Row}

theorem lt_of_mem_rest (hdistinct : rows.Nodup) (hseparates : Separates order rows)
    (hrows : sortRows order rows = before ++ last :: rest) {row : Row} (hrow : row ∈ rest) :
    order last row = .lt := by
  have hstrict := sortRows_strict hdistinct hseparates
  rw [hrows] at hstrict
  exact List.rel_of_pairwise_cons (List.pairwise_append.mp hstrict).2.1 hrow

theorem lt_of_mem_before (hdistinct : rows.Nodup) (hseparates : Separates order rows)
    (hrows : sortRows order rows = before ++ last :: rest) {row : Row} (hrow : row ∈ before) :
    order row last = .lt := by
  have hstrict := sortRows_strict hdistinct hseparates
  rw [hrows] at hstrict
  exact (List.pairwise_append.mp hstrict).2.2 row hrow last List.mem_cons_self

/-- What is left from the first row on that passes are the rows with such a row before them. -/
theorem mem_dropWhile_iff {sorted : List Row} {passes : Row → Bool}
    (hsorted : sorted.Pairwise fun left right => order left right = .lt) {row : Row} :
    row ∈ sorted.dropWhile (fun row => ! passes row) ↔
      row ∈ sorted ∧ ∃ first ∈ sorted, (order first row).isLE ∧ passes first := by
  induction sorted with
  | nil => simp
  | cons head others ih =>
      obtain ⟨hhead, hothers⟩ := List.pairwise_cons.mp hsorted
      rw [List.dropWhile_cons]
      by_cases hpasses : passes head
      · rw [if_neg (by simp [hpasses])]
        constructor
        · intro hrow
          refine ⟨hrow, head, List.mem_cons_self, ?_, hpasses⟩
          rcases List.mem_cons.mp hrow with rfl | hlater
          · exact ReflCmp.isLE_rfl
          · rw [hhead row hlater]
            rfl
        · exact And.left
      · rw [if_pos (by simp [hpasses]), ih hothers]
        constructor
        · rintro ⟨hrow, first, hfirst, hle, hpass⟩
          exact ⟨List.mem_cons_of_mem _ hrow, first, List.mem_cons_of_mem _ hfirst, hle, hpass⟩
        · rintro ⟨hrow, first, hfirst, hle, hpass⟩
          rcases List.mem_cons.mp hfirst with rfl | hlater
          · exact absurd hpass hpasses
          · refine ⟨?_, first, hlater, hle, hpass⟩
            rcases List.mem_cons.mp hrow with rfl | hrest
            · exact absurd (hhead first hlater) (OrientedCmp.not_lt_of_isLE hle)
            · exact hrest

end Ordered

/-- Rows are left from one of them on exactly when it is the first that passes. -/
theorem dropWhile_eq_rest_iff {before rest : List Row} {last first : Row} {passes : Row → Bool}
    (hdistinct : (before ++ last :: first :: rest).Nodup) :
    (before ++ last :: first :: rest).dropWhile (fun row => ! passes row) = first :: rest ↔
      (∀ row ∈ before, ¬ passes row) ∧ ¬ passes last ∧ passes first := by
  constructor
  · intro hdrop
    have hmem {row : Row} (hrow : row ∈ before ++ last :: first :: rest) :
        passes row → row ∈ first :: rest := by
      intro hpasses
      rw [← List.takeWhile_append_dropWhile (p := fun row => ! passes row)
        (l := before ++ last :: first :: rest)] at hrow
      rcases List.mem_append.mp hrow with htaken | hdropped
      · have hfails := List.all_eq_true.mp List.all_takeWhile row htaken
        rw [hpasses] at hfails
        cases hfails
      · rwa [hdrop] at hdropped
    obtain ⟨-, hrest, hapart⟩ := List.nodup_append.mp hdistinct
    refine ⟨?_, ?_, ?_⟩
    · intro row hrow hpasses
      have hlater := hmem (List.mem_append_left _ hrow) hpasses
      exact hapart row hrow row (List.mem_cons_of_mem _ hlater) rfl
    · intro hpasses
      have hlater := hmem (List.mem_append_right _ List.mem_cons_self) hpasses
      exact (List.nodup_cons.mp hrest).1 hlater
    · have hhead := List.head?_dropWhile_not (fun row => ! passes row)
        (before ++ last :: first :: rest)
      rw [hdrop] at hhead
      simpa using hhead
  · rintro ⟨hbefore, hlast, hfirst⟩
    rw [List.dropWhile_append_of_pos (by simpa using hbefore), List.dropWhile_cons_of_pos
      (by simpa using hlast), List.dropWhile_cons_of_neg (by simpa using hfirst)]

end StellarSettle.OrderedRows
