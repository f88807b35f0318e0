import Mathlib.Data.List.Basic
import Mathlib.Tactic.Ring

/-!
# Pages by offset

A loop reads a list page by page, each page from where the rows that were collected end.  It
stops at a short page, when as many rows were collected as were counted, and after so many
pages; of a list that does not change it collects what so many pages hold.
-/

namespace StellarSettle.OffsetPages

variable {Row : Type*} {listPage : ℕ → List Row} {pageSize : ℕ} {rows : List Row}

/-- Reads at most so many more pages. -/
def collectPages (listPage : ℕ → List Row) (pageSize expectedTotal : ℕ) :
    ℕ → List Row → List Row
  | 0, collected => collected
  | pages + 1, collected =>
    let batch := listPage collected.length
    let extended := collected ++ batch
    if batch.length < pageSize ∨ expectedTotal ≤ extended.length then extended
    else collectPages listPage pageSize expectedTotal pages extended

theorem take_append_page {start : ℕ} (hpage : ∀ offset, listPage offset =
    (rows.drop offset).take pageSize) :
    rows.take start ++ listPage (rows.take start).length = rows.take (start + pageSize) := by
  rw [hpage, List.length_take]
  rcases le_total start rows.length with hle | hge
  · rw [min_eq_left hle, List.take_add]
  · rw [min_eq_right hge, List.drop_length, List.take_nil, List.append_nil,
      List.take_of_length_le hge, List.take_of_length_le (hge.trans (Nat.le_add_right _ _))]

/-- Pages that are parts of one list are collected up to the bound on their number. -/
theorem collectPages_take (hpage : ∀ offset, listPage offset = (rows.drop offset).take pageSize)
    (pages start : ℕ) :
    collectPages listPage pageSize rows.length pages (rows.take start) =
      rows.take (start + pages * pageSize) := by
  induction pages generalizing start with
  | zero => rw [collectPages, zero_mul, add_zero]
  | succ pages ih =>
      rw [collectPages]
      rw [take_append_page hpage]
      split
      · rename_i hends
        have hall : rows.length ≤ start + pageSize := by
          rw [hpage, List.length_take, List.length_drop, List.length_take, List.length_take]
            at hends
          omega
        have hmore : rows.length ≤ start + (pages + 1) * pageSize := by
          calc
            rows.length ≤ start + pageSize := hall
            _ ≤ start + pageSize + pages * pageSize := Nat.le_add_right _ _
            _ = start + (pages + 1) * pageSize := by ring
        rw [List.take_of_length_le hall, List.take_of_length_le hmore]
      · rw [ih]
        congr 1
        ring

theorem collectPages_nil (hpage : ∀ offset, listPage offset = (rows.drop offset).take pageSize)
    (pages : ℕ) :
    collectPages listPage pageSize rows.length pages [] = rows.take (pages * pageSize) := by
  calc
    collectPages listPage pageSize rows.length pages [] =
        collectPages listPage pageSize rows.length pages (rows.take 0) := by rw [List.take_zero]
    _ = rows.take (0 + pages * pageSize) := collectPages_take hpage pages 0
    _ = rows.take (pages * pageSize) := by rw [zero_add]

/-- A page without a limit holds the list. -/
theorem collectPages_unlimited (hpage : ∀ offset, listPage offset = rows.drop offset)
    (pages : ℕ) : collectPages listPage pageSize rows.length (pages + 1) [] = rows := by
  have hfirst : listPage ([] : List Row).length = rows := by
    rw [hpage, List.length_nil, List.drop_zero]
  rw [collectPages]
  rw [hfirst, List.nil_append, if_pos (.inr le_rfl)]

end StellarSettle.OffsetPages
