import Mathlib.Algebra.BigOperators.Group.List.Basic
import Mathlib.Data.List.Nodup
import Mathlib.Tactic.Abel
import Mathlib.Tactic.Ring

/-!
# Rows with a key

A table as the list of its rows.  Saving an entity gives the row with its key the
entity's values, and inserts it when there is no such row.
-/

namespace StellarSettle.KeyedRows

variable {Row Key : Type*} [DecidableEq Key]

def findRow (key : Row → Key) (rows : List Row) (wanted : Key) : Option Row :=
  rows.find? fun row => key row == wanted

def saveRow (key : Row → Key) (rows : List Row) (entity : Row) : List Row :=
  if rows.any fun row => key row == key entity then
    rows.map fun row => if key row = key entity then entity else row
  else rows ++ [entity]

section Rows

variable {key : Row → Key} {rows : List Row} {entity row : Row} {wanted : Key}

theorem findRow_eq_none : findRow key rows wanted = none ↔ ∀ row ∈ rows, key row ≠ wanted := by
  simp [findRow]

theorem mem_of_findRow (hfound : findRow key rows wanted = some row) :
    row ∈ rows ∧ key row = wanted :=
  ⟨List.mem_of_find?_eq_some hfound, by simpa using List.find?_some hfound⟩

/-- With distinct keys, a row is found under its key. -/
theorem findRow_of_mem (hkeys : (rows.map key).Nodup) (hmem : row ∈ rows) :
    findRow key rows (key row) = some row := by
  induction rows with
  | nil => cases hmem
  | cons first rest ih =>
      obtain ⟨hfresh, hrest⟩ := List.nodup_cons.mp hkeys
      rcases List.mem_cons.mp hmem with rfl | htail
      · simp [findRow]
      · have hother : key first ≠ key row := fun hsame =>
          hfresh (hsame ▸ List.mem_map_of_mem htail)
        simpa [findRow, hother] using ih hrest htail

theorem findRow_append (added : List Row) :
    findRow key (rows ++ added) wanted =
      (findRow key rows wanted).or (findRow key added wanted) := by
  simp only [findRow, List.find?_append]

/-- A saved row is the entity, or an old row with another key. -/
theorem mem_saveRow :
    row ∈ saveRow key rows entity ↔ row = entity ∨ row ∈ rows ∧ key row ≠ key entity := by
  unfold saveRow
  split
  · rename_i hexists
    obtain ⟨old, hold, hkey⟩ := List.any_eq_true.mp hexists
    rw [List.mem_map]
    constructor
    · rintro ⟨source, hsource, rfl⟩
      split
      · exact .inl rfl
      · rename_i hother
        exact .inr ⟨hsource, hother⟩
    · rintro (rfl | ⟨hmem, hother⟩)
      · exact ⟨old, hold, if_pos (by simpa using hkey)⟩
      · exact ⟨row, hmem, if_neg hother⟩
  · rename_i hmissing
    have hother : ∀ old ∈ rows, key old ≠ key entity := by simpa using hmissing
    rw [List.mem_append, List.mem_singleton]
    constructor
    · rintro (hmem | rfl)
      · exact .inr ⟨hmem, hother row hmem⟩
      · exact .inl rfl
    · rintro (rfl | ⟨hmem, _⟩)
      · exact .inr rfl
      · exact .inl hmem

theorem mem_saveRow_self : entity ∈ saveRow key rows entity := mem_saveRow.mpr (.inl rfl)

theorem saveRow_of_mem (hmem : row ∈ rows) (hkey : key entity = key row) :
    saveRow key rows entity = rows.map fun old => if key old = key entity then entity else old :=
  if_pos (List.any_eq_true.mpr ⟨row, hmem, by simp [hkey]⟩)

theorem findRow_map_self (hexists : ∃ row ∈ rows, key row = key entity) :
    findRow key (rows.map fun row => if key row = key entity then entity else row)
      (key entity) = some entity := by
  induction rows with
  | nil =>
      obtain ⟨row, hmem, _⟩ := hexists
      cases hmem
  | cons first rest ih =>
      by_cases hfirst : key first = key entity
      · simp [findRow, hfirst]
      · obtain ⟨row, hmem, hkey⟩ := hexists
        rcases List.mem_cons.mp hmem with rfl | htail
        · exact absurd hkey hfirst
        · simpa [findRow, hfirst] using ih ⟨row, htail, hkey⟩

theorem findRow_saveRow_self :
    findRow key (saveRow key rows entity) (key entity) = some entity := by
  unfold saveRow
  split
  · rename_i hexists
    obtain ⟨row, hmem, hkey⟩ := List.any_eq_true.mp hexists
    exact findRow_map_self ⟨row, hmem, by simpa using hkey⟩
  · rename_i hmissing
    rw [findRow_append, findRow_eq_none.mpr (by simpa using hmissing), Option.none_or]
    simp [findRow]

theorem findRow_map_other (hother : wanted ≠ key entity) :
    findRow key (rows.map fun row => if key row = key entity then entity else row) wanted =
      findRow key rows wanted := by
  induction rows with
  | nil => rfl
  | cons first rest ih =>
      by_cases hfirst : key first = key entity
      · have hne : key first ≠ wanted := fun hsame => hother (hsame.symm.trans hfirst)
        simpa [findRow, hfirst, hother.symm, hne] using ih
      · by_cases hwanted : key first = wanted
        · simp [findRow, hwanted, hother]
        · simpa [findRow, hfirst, hwanted] using ih

theorem findRow_saveRow_other (hother : wanted ≠ key entity) :
    findRow key (saveRow key rows entity) wanted = findRow key rows wanted := by
  unfold saveRow
  split
  · exact findRow_map_other hother
  · rw [findRow_append]
    have hnone : findRow key [entity] wanted = none :=
      findRow_eq_none.mpr fun row hmem => by
        obtain rfl := List.mem_singleton.mp hmem
        exact hother.symm
    rw [hnone, Option.or_none]

theorem mem_foldl_saveRow {entities : List Row}
    (hmem : row ∈ entities.foldl (saveRow key) rows) :
    row ∈ entities ∨ row ∈ rows ∧ ∀ entity ∈ entities, key row ≠ key entity := by
  induction entities generalizing rows with
  | nil => exact .inr ⟨hmem, fun _ hnone => by cases hnone⟩
  | cons first rest ih =>
      rcases ih hmem with hlater | ⟨hsaved, hothers⟩
      · exact .inl (List.mem_cons_of_mem _ hlater)
      · rcases mem_saveRow.mp hsaved with rfl | ⟨hold, hother⟩
        · exact .inl List.mem_cons_self
        · exact .inr ⟨hold, List.forall_mem_cons.mpr ⟨hother, hothers⟩⟩

/-- Replacing a row leaves the keys. -/
theorem map_key_replace :
    (rows.map fun row => if key row = key entity then entity else row).map key = rows.map key := by
  rw [List.map_map]
  refine List.map_congr_left fun row _ => ?_
  change key (if key row = key entity then entity else row) = key row
  split
  · rename_i hkey
    exact hkey.symm
  · rfl

theorem nodup_saveRow (hkeys : (rows.map key).Nodup) :
    ((saveRow key rows entity).map key).Nodup := by
  unfold saveRow
  split
  · rwa [map_key_replace]
  · rename_i hmissing
    rw [List.map_append, List.nodup_append]
    refine ⟨hkeys, List.nodup_singleton _, fun old hold new hnew hsame => ?_⟩
    obtain ⟨row, hrow, rfl⟩ := List.mem_map.mp hold
    obtain rfl := List.mem_singleton.mp hnew
    exact hmissing (List.any_eq_true.mpr ⟨row, hrow, by simpa using hsame⟩)

/-- A save that has nothing to do with a selection of rows leaves it as it is. -/
theorem filter_saveRow_other {selected : Row → Bool} (hentity : selected entity = false)
    (hrows : ∀ row ∈ rows, key row = key entity → selected row = false) :
    (saveRow key rows entity).filter selected = rows.filter selected := by
  unfold saveRow
  split
  · clear * - hentity hrows
    induction rows with
    | nil => rfl
    | cons first rest ih =>
        have hrest := ih fun row hmem => hrows row (List.mem_cons_of_mem _ hmem)
        by_cases hfirst : key first = key entity
        · have hnot := hrows first List.mem_cons_self hfirst
          simpa [hfirst, hentity, hnot] using hrest
        · simpa [hfirst, List.filter_cons] using congrArg
            (fun tail => if selected first then first :: tail else tail) hrest
  · simp [hentity]

/-- Saves that have nothing to do with a selection of rows leave it as it is. -/
theorem filter_foldl_saveRow_other {selected : Row → Bool} {entities : List Row}
    (hentities : ∀ entity ∈ entities, selected entity = false)
    (hrows : ∀ entity ∈ entities, ∀ row ∈ rows, key row = key entity → selected row = false) :
    (entities.foldl (saveRow key) rows).filter selected = rows.filter selected := by
  induction entities generalizing rows with
  | nil => rfl
  | cons first rest ih =>
      obtain ⟨hfirst, hrest⟩ := List.forall_mem_cons.mp hentities
      obtain ⟨hrowsFirst, hrowsRest⟩ := List.forall_mem_cons.mp hrows
      refine (ih hrest fun entity hentity row hrow hkey => ?_).trans
        (filter_saveRow_other hfirst hrowsFirst)
      rcases mem_saveRow.mp hrow with rfl | ⟨hold, _⟩
      · exact hfirst
      · exact hrowsRest entity hentity row hold hkey

/-! ## Sums -/

/-- The sum of a column over the selected rows. -/
def selectedSum (selected : Row → Bool) (column : Row → ℤ) (rows : List Row) : ℤ :=
  ((rows.filter selected).map column).sum

theorem selectedSum_cons {selected : Row → Bool} {column : Row → ℤ} :
    selectedSum selected column (row :: rows) =
      (if selected row then column row else 0) + selectedSum selected column rows := by
  rw [selectedSum, selectedSum, List.filter_cons]
  split <;> simp

theorem selectedSum_append {selected : Row → Bool} {column : Row → ℤ} (left right : List Row) :
    selectedSum selected column (left ++ right) =
      selectedSum selected column left + selectedSum selected column right := by
  rw [selectedSum, List.filter_append, List.map_append, List.sum_append, selectedSum, selectedSum]

/-- What a row adds to the sum. -/
def selectedPart (selected : Row → Bool) (column : Row → ℤ) (row : Row) : ℤ :=
  if selected row then column row else 0

/-- A save under the key of a stored row replaces what that row adds to the sum. -/
theorem selectedSum_saveRow {selected : Row → Bool} {column : Row → ℤ}
    (hkeys : (rows.map key).Nodup) (hmem : row ∈ rows) (hkey : key entity = key row) :
    selectedSum selected column (saveRow key rows entity) =
      selectedSum selected column rows - selectedPart selected column row +
        selectedPart selected column entity := by
  rw [saveRow_of_mem hmem hkey]
  induction rows with
  | nil => cases hmem
  | cons first rest ih =>
      obtain ⟨hfresh, hrest⟩ := List.nodup_cons.mp hkeys
      rw [List.map_cons, selectedSum_cons, selectedSum_cons]
      rcases List.mem_cons.mp hmem with rfl | htail
      · -- No later row has the key.
        have hothers : (rest.map fun old => if key old = key entity then entity else old) =
            rest := by
          refine (List.map_congr_left fun old hold => if_neg fun hsame => ?_).trans
            (List.map_id rest)
          exact hfresh (hkey ▸ hsame ▸ List.mem_map_of_mem hold)
        rw [hothers, if_pos hkey.symm, selectedPart, selectedPart]
        abel
      · have hother : key first ≠ key entity := fun hsame =>
          hfresh (hsame.trans hkey ▸ List.mem_map_of_mem htail)
        rw [if_neg hother, ih hrest htail]
        abel

theorem selectedSum_saveRow_of_mem {selected : Row → Bool} {column : Row → ℤ}
    (hkeys : (rows.map key).Nodup) (hmem : row ∈ rows) (hkey : key entity = key row)
    (hrow : selected row = true) (hentity : selected entity = true) :
    selectedSum selected column (saveRow key rows entity) =
      selectedSum selected column rows - column row + column entity := by
  rw [selectedSum_saveRow hkeys hmem hkey, selectedPart, selectedPart, if_pos hrow,
    if_pos hentity]

/-- A row that is not selected adds nothing, and what it replaces is lost. -/
theorem selectedSum_map_le {selected : Row → Bool} {column : Row → ℤ}
    (hentity : selected entity = false) (hnonneg : ∀ row ∈ rows, 0 ≤ column row) :
    selectedSum selected column (rows.map fun row => if key row = key entity then entity else row) ≤
      selectedSum selected column rows := by
  induction rows with
  | nil => exact le_rfl
  | cons first rest ih =>
      obtain ⟨hfirst, hrest⟩ := List.forall_mem_cons.mp hnonneg
      rw [List.map_cons, selectedSum_cons, selectedSum_cons]
      refine add_le_add ?_ (ih hrest)
      by_cases hkey : key first = key entity
      · rw [if_pos hkey, if_neg (by simp [hentity])]
        split
        · exact hfirst
        · exact le_rfl
      · rw [if_neg hkey]

/-- Without the row of a key, the sum is less what that row adds. -/
theorem selectedSum_remove {selected : Row → Bool} {column : Row → ℤ}
    (hkeys : (rows.map key).Nodup) :
    selectedSum selected column (rows.filter fun row => key row != wanted) =
      selectedSum selected column rows -
        ((findRow key rows wanted).map (selectedPart selected column)).getD 0 := by
  induction rows with
  | nil => rfl
  | cons first rest ih =>
      obtain ⟨hfresh, hrest⟩ := List.nodup_cons.mp hkeys
      rw [selectedSum_cons]
      by_cases hfirst : key first = wanted
      · have hothers : (rest.filter fun row => key row != wanted) = rest := by
          rw [List.filter_eq_self]
          intro row hrow
          have hother : key row ≠ wanted := fun hsame =>
            hfresh (hfirst.trans hsame.symm ▸ List.mem_map_of_mem hrow)
          simpa using hother
        rw [List.filter_cons_of_neg (by simp [hfirst]), hothers]
        simp [findRow, hfirst, selectedPart]
      · rw [List.filter_cons_of_pos (by simpa using hfirst), selectedSum_cons, ih hrest]
        have hfound : findRow key (first :: rest) wanted = findRow key rest wanted := by
          simp [findRow, hfirst]
        rw [hfound]
        ring

/-- A save under a new key adds its own part. -/
theorem selectedSum_saveRow_of_fresh {selected : Row → Bool} {column : Row → ℤ}
    (hfresh : ∀ row ∈ rows, key row ≠ key entity) (hentity : selected entity = true) :
    selectedSum selected column (saveRow key rows entity) =
      selectedSum selected column rows + column entity := by
  have hmissing : ¬(rows.any fun old => key old == key entity) = true := by
    simpa using hfresh
  rw [saveRow, if_neg hmissing, selectedSum_append, selectedSum_cons, if_pos hentity]
  simp [selectedSum]

end Rows

end StellarSettle.KeyedRows
