import StellarSettle.Core.PageWalk
import StellarSettle.Model.Entities
import StellarSettle.Pagination.SelectQuery

/-!
# Stored times and dates

The database keeps a time to the microsecond, and a `Date` to the millisecond: the driver drops
the digits below.  A cursor is made from a `Date`, so it names the start of the millisecond in
which its row was stored.
-/

namespace StellarSettle.StoredTimes

open StellarSettle.Entities (Timestamp Uuid)
open StellarSettle.OrderedRows
open StellarSettle.PageWalk
open StellarSettle.SelectQuery
open Std

/-- Microseconds since the epoch. -/
abbrev StoredTime := ℤ

/-- The `Date` of a stored time. -/
def toDate (stored : StoredTime) : Timestamp := stored / 1000

/-- A `Date` as the database compares it. -/
def fromDate (date : Timestamp) : StoredTime := date * 1000

/-- The stored time that the `Date` of a stored time names. -/
def millisecondStart (stored : StoredTime) : StoredTime := fromDate (toDate stored)

theorem millisecondStart_le (stored : StoredTime) : millisecondStart stored ≤ stored :=
  Int.ediv_mul_le stored (by decide)

/-- Rows with the primary key that tells them apart. -/
structure UniqueRows {Row : Type} (key : Row → Uuid) where
  rows : List Row
  unique : (rows.map key).Nodup

namespace UniqueRows

variable {Row : Type} {key : Row → Uuid} (table : UniqueRows key)

theorem distinct (condition : Row → Bool) : (table.rows.filter condition).Nodup :=
  table.unique.of_map.filter condition

theorem eq_of_key {left right : Row} (hleft : left ∈ table.rows) (hright : right ∈ table.rows)
    (hsame : key left = key right) : left = right :=
  List.inj_on_of_nodup_map table.unique hleft hright hsame

end UniqueRows

/-! ## Columns -/

section Columns

variable {Row Value : Type} [LinearOrder Value]

theorem compareOn_eq_lt {value : Row → Value} {left right : Row} :
    compareOn value left right = .lt ↔ value left < value right :=
  compare_lt_iff_lt

theorem compareOn_eq_eq {value : Row → Value} {left right : Row} :
    compareOn value left right = .eq ↔ value left = value right :=
  Std.compare_eq_iff_eq

variable {columns : Columns Row} {column : String} {value : Row → Value} {left right : Row}

theorem along_desc_lt (hcolumn : columns.compareBy column = compareOn value) :
    columns.along column .desc left right = .lt ↔ value right < value left := by
  rw [Columns.along, hcolumn, compareOn_eq_lt]

theorem along_asc_lt (hcolumn : columns.compareBy column = compareOn value) :
    columns.along column .asc left right = .lt ↔ value left < value right := by
  rw [Columns.along, hcolumn, compareOn_eq_lt]

theorem along_eq (hcolumn : columns.compareBy column = compareOn value) {direction : Direction} :
    columns.along column direction left right = .eq ↔ value left = value right := by
  cases direction with
  | asc => rw [Columns.along, hcolumn, compareOn_eq_eq]
  | desc => rw [Columns.along, hcolumn, compareOn_eq_eq, eq_comm]

end Columns

/-! ## Rows past a cursor -/

/-- What a cursor that names a row carries. -/
structure Place where
  date : Timestamp
  id : Uuid
  deriving DecidableEq, Repr

/-- `time < date OR (time = date AND id < cursorId)`. -/
def Place.precedes (place : Place) (time : StoredTime) (id : Uuid) : Bool :=
  decide (time < fromDate place.date ∨ (time = fromDate place.date ∧ id < place.id))

/-- The place that the cursor of a row names. -/
def placeOf (time : StoredTime) (id : Uuid) : Place := ⟨toDate time, id⟩

theorem precedes_placeOf {time lastTime : StoredTime} {id lastId : Uuid} :
    (placeOf lastTime lastId).precedes time id ↔
      time < millisecondStart lastTime ∨ (time = millisecondStart lastTime ∧ id < lastId) := by
  rw [Place.precedes, decide_eq_true_iff]
  rfl

/-- What the place of a later row precedes, the place of an earlier row precedes too. -/
theorem precedes_trans {lastTime nextTime time : StoredTime} {lastId nextId id : Uuid}
    (hnext : (placeOf lastTime lastId).precedes nextTime nextId)
    (hrow : (placeOf nextTime nextId).precedes time id) :
    (placeOf lastTime lastId).precedes time id := by
  rw [precedes_placeOf] at hnext hrow ⊢
  have hle := millisecondStart_le nextTime
  rcases hnext with hnext | ⟨hnext, hnextId⟩
  · apply Or.inl
    rcases hrow with hrow | ⟨hrow, -⟩
    · exact hrow.trans (hle.trans_lt hnext)
    · exact hrow.trans_lt (hle.trans_lt hnext)
  · rcases hrow with hrow | ⟨hrow, hid⟩
    · exact .inl (hrow.trans_le (hle.trans_eq hnext))
    · rcases (hle.trans_eq hnext).lt_or_eq with hlt | heq
      · exact .inl (hrow.trans_lt hlt)
      · exact .inr ⟨hrow.trans heq, hid.trans hnextId⟩

end StellarSettle.StoredTimes
