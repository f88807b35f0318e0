import StellarSettle.Core.KeyedRows
import StellarSettle.Core.OrderedRows

/-!
# Tables with unique columns

A table tells its rows apart by their key and by every unique column that has a value.  A save
that would repeat a value of another row in such a column fails, and a missing value may be
repeated.
-/

namespace StellarSettle.UniqueColumns

open StellarSettle.KeyedRows

variable {Row Key Value : Type*}

/-- The order in which a database returns rows where none is asked for. -/
structure StorageOrder (Row : Type*) where
  list : List Row → List Row
  perm : ∀ rows, (list rows).Perm rows

/-- The rows as they were first stored. -/
def StorageOrder.asStored : StorageOrder Row where
  list rows := rows
  perm rows := List.Perm.refl rows

structure UniqueTable (key : Row → Key) (columns : List (Row → Option Value)) where
  rows : List Row
  keys : (rows.map key).Nodup
  unique : ∀ column ∈ columns, ∀ left ∈ rows, ∀ right ∈ rows,
    column left ≠ none → column left = column right → left = right

/-- Another row has a value of the entity in a unique column. -/
def Clashes (key : Row → Key) (columns : List (Row → Option Value)) (rows : List Row)
    (entity : Row) : Prop :=
  ∃ column ∈ columns, ∃ row ∈ rows,
    key row ≠ key entity ∧ column row ≠ none ∧ column row = column entity

instance decidableClashes [DecidableEq Key] [DecidableEq Value] (key : Row → Key)
    (columns : List (Row → Option Value)) (rows : List Row) (entity : Row) :
    Decidable (Clashes key columns rows entity) := by
  unfold Clashes
  infer_instance

namespace UniqueTable

variable {key : Row → Key} {columns : List (Row → Option Value)}

def empty : UniqueTable key columns where
  rows := []
  keys := List.nodup_nil
  unique _ _ _ hleft := nomatch hleft

theorem eq_of_key (table : UniqueTable key columns) {left right : Row}
    (hleft : left ∈ table.rows) (hright : right ∈ table.rows) (hsame : key left = key right) :
    left = right :=
  List.inj_on_of_nodup_map table.keys hleft hright hsame

section Saves

variable [DecidableEq Key] [DecidableEq Value]

omit [DecidableEq Value] in
theorem unique_saveRow (table : UniqueTable key columns) {entity : Row}
    (hfree : ¬Clashes key columns table.rows entity) {column : Row → Option Value}
    (hcolumn : column ∈ columns) :
    ∀ left ∈ saveRow key table.rows entity, ∀ right ∈ saveRow key table.rows entity,
      column left ≠ none → column left = column right → left = right := by
  have hother : ∀ row ∈ table.rows, key row ≠ key entity → column row ≠ none →
      column row ≠ column entity := by
    intro row hrow hkey hvalue hsame
    exact hfree ⟨column, hcolumn, row, hrow, hkey, hvalue, hsame⟩
  intro left hleft right hright hvalue hsame
  rcases mem_saveRow.mp hleft with hnew | ⟨hold, hleftKey⟩
  · rcases mem_saveRow.mp hright with hrightNew | ⟨hrightOld, hrightKey⟩
    · rw [hnew, hrightNew]
    · rw [hnew] at hsame hvalue
      exact absurd hsame.symm (hother right hrightOld hrightKey (hsame ▸ hvalue))
  · rcases mem_saveRow.mp hright with hrightNew | ⟨hrightOld, -⟩
    · rw [hrightNew] at hsame
      exact absurd hsame (hother left hold hleftKey hvalue)
    · exact table.unique column hcolumn left hold right hrightOld hvalue hsame

/-- Saves an entity under its key, unless it clashes. -/
def save (table : UniqueTable key columns) (entity : Row) : Option (UniqueTable key columns) :=
  if hclash : Clashes key columns table.rows entity then none
  else some
    { rows := saveRow key table.rows entity
      keys := nodup_saveRow table.keys
      unique := fun _ hcolumn => table.unique_saveRow hclash hcolumn }

variable {table saved : UniqueTable key columns} {entity : Row}

theorem save_eq_none : table.save entity = none ↔ Clashes key columns table.rows entity := by
  rw [save]
  split
  · rename_i hclash
    exact iff_of_true rfl hclash
  · rename_i hfree
    exact iff_of_false (Option.some_ne_none _) hfree

theorem rows_of_save (hsave : table.save entity = some saved) :
    ¬Clashes key columns table.rows entity ∧ saved.rows = saveRow key table.rows entity := by
  rw [save] at hsave
  split at hsave
  · cases hsave
  · rename_i hfree
    obtain rfl := Option.some.inj hsave
    exact ⟨hfree, rfl⟩

end Saves

end UniqueTable

/-! ## New keys -/

/-- A key that no row has. -/
def freshKey (key : Row → ℕ) (rows : List Row) : ℕ := (rows.map key).foldr max 0 + 1

theorem key_lt_freshKey {key : Row → ℕ} {rows : List Row} {row : Row} (hrow : row ∈ rows) :
    key row < freshKey key rows := by
  rw [freshKey, Nat.lt_succ_iff]
  induction rows with
  | nil => cases hrow
  | cons first rest ih =>
      rw [List.map_cons, List.foldr_cons]
      rcases List.mem_cons.mp hrow with rfl | hrest
      · exact le_max_left _ _
      · exact (ih hrest).trans (le_max_right _ _)

theorem key_ne_freshKey {key : Row → ℕ} {rows : List Row} {row : Row} (hrow : row ∈ rows) :
    key row ≠ freshKey key rows :=
  (key_lt_freshKey hrow).ne

/-- A row with a new key is inserted after the others. -/
theorem saveRow_freshKey {key : Row → ℕ} {rows : List Row} {entity : Row}
    (hfresh : key entity = freshKey key rows) : saveRow key rows entity = rows ++ [entity] := by
  have hmissing : ¬(rows.any fun row => key row == key entity) = true := by
    have hothers : ∀ row ∈ rows, key row ≠ freshKey key rows := fun _ => key_ne_freshKey
    simpa [hfresh] using hothers
  rw [saveRow, if_neg hmissing]

end StellarSettle.UniqueColumns
