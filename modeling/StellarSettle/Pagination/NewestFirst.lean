import StellarSettle.Pagination.StoredTimes

/-!
# Newest first

A table is listed by descending stored times, and by descending ids within one time.  A cursor
carries the date of a row and its id, and the rows that it precedes are listed after it.
-/

namespace StellarSettle.NewestFirst

open StellarSettle.Entities (Timestamp Uuid)
open StellarSettle.OrderedRows
open StellarSettle.PageWalk
open StellarSettle.SelectQuery
open StellarSettle.StoredTimes
open Std (TransCmp)

/-- A table with the columns of the times and of the ids of its rows. -/
structure TimedTable (Row : Type) where
  columns : Columns Row
  timeColumn : String
  idColumn : String
  time : Row → StoredTime
  id : Row → Uuid
  time_column : columns.compareBy timeColumn = compareOn time
  id_column : columns.compareBy idColumn = compareOn id
  columns_differ : timeColumn ≠ idColumn

namespace TimedTable

variable {Row : Type} (table : TimedTable Row)

def newestOrder : Row → Row → Ordering :=
  table.columns.compareRows [(table.timeColumn, .desc), (table.idColumn, .desc)]

instance : TransCmp table.newestOrder :=
  inferInstanceAs (TransCmp (table.columns.compareRows _))

/-- The query in the order of the listing, with one row more than the page. -/
def newestPage (query : SelectQueryBuilder Row) (limit : ℕ) : SelectQueryBuilder Row :=
  ((query.orderBy table.timeColumn .desc).addOrderBy table.idColumn .desc).take (limit + 1)

/-- `time < cursorTime OR (time = cursorTime AND id < cursorId)`. -/
def after (place : Place) (row : Row) : Bool := place.precedes (table.time row) (table.id row)

def place (row : Row) : Place := placeOf (table.time row) (table.id row)

variable {table} {condition : Row → Bool} {rows : UniqueRows table.id} {limit : ℕ}
variable {hpositive : 0 < limit}

theorem newestOrder_lt {left right : Row} : table.newestOrder left right = .lt ↔
    table.time right < table.time left ∨
      (table.time left = table.time right ∧ table.id right < table.id left) := by
  rw [newestOrder, Columns.compareRows_pair, Ordering.then_eq_lt, along_desc_lt table.time_column,
    along_eq table.time_column, along_desc_lt table.id_column]

theorem separates_newestOrder (condition : Row → Bool) :
    Separates table.newestOrder (rows.rows.filter condition) := by
  intro left hleft right hright hsame
  rw [newestOrder, Columns.compareRows_pair, Ordering.then_eq_eq, along_eq table.time_column,
    along_eq table.id_column] at hsame
  exact rows.eq_of_key (List.mem_of_mem_filter hleft) (List.mem_of_mem_filter hright) hsame.2

/-- The rows that a query selects, as they are listed. -/
def listed (table : TimedTable Row) (condition : Row → Bool) (rows : UniqueRows table.id) :
    List Row :=
  sortRows table.newestOrder (rows.rows.filter condition)

theorem nodup_listed : (table.listed condition rows).Nodup :=
  nodup_sortRows (rows.distinct condition)

/-- What the query in its order returns. -/
theorem getMany_newestPage {query : SelectQueryBuilder Row} (hoffset : query.offset = 0)
    (rows : List Row) : (table.newestPage query limit).getMany table.columns rows =
      (sortRows table.newestOrder (rows.filter query.accepts)).take (limit + 1) := by
  have hzero : ((query.orderBy table.timeColumn .desc).addOrderBy table.idColumn .desc).offset =
      0 := hoffset
  rw [newestPage, SelectQueryBuilder.getMany_take _ _ _ hzero, SelectQueryBuilder.selected,
    SelectQueryBuilder.orderBys_orderBy_addOrderBy table.columns_differ]
  rfl

/-- A filter past a cursor keeps the order of the listing. -/
theorem sortRows_andWhere {query : SelectQueryBuilder Row} (hplain : query.alternatives = [])
    (accepts : Row → Bool) :
    sortRows table.newestOrder (rows.rows.filter (query.andWhere accepts).accepts) =
      (table.listed query.accepts rows).filter accepts := by
  calc
    sortRows table.newestOrder (rows.rows.filter (query.andWhere accepts).accepts) =
        sortRows table.newestOrder ((rows.rows.filter query.accepts).filter accepts) := by
      rw [funext (SelectQueryBuilder.accepts_andWhere accepts hplain), List.filter_filter]
      simp only [Bool.and_comm]
    _ = (table.listed query.accepts rows).filter accepts :=
      (filter_sortRows (separates_newestOrder _) _).symm

/-- An earlier row of the listing was not stored before a later one. -/
theorem time_le_of_mem_before {before rest : List Row} {last earlier : Row}
    (hrows : table.listed condition rows = before ++ last :: rest) (hearlier : earlier ∈ before) :
    table.time last ≤ table.time earlier ∧
      (table.time earlier = table.time last → table.id last < table.id earlier) := by
  have hlt := lt_of_mem_before (rows.distinct condition) (separates_newestOrder condition) hrows
    hearlier
  rcases newestOrder_lt.mp hlt with hlt | ⟨heq, hid⟩
  · exact ⟨hlt.le, fun hsame => absurd hsame hlt.ne'⟩
  · exact ⟨heq.ge, fun _ => hid⟩

/-! ## The listing and the calls that serve it -/

/-- The listing, continued with the rows that pass the place of a row. -/
def newestListing (table : TimedTable Row) (condition : Row → Bool) (rows : UniqueRows table.id)
    (limit : ℕ) (hpositive : 0 < limit) (passes : Place → Row → Bool) : Listing Row Place :=
  .ofFilter (table.listed condition rows) nodup_listed limit hpositive false table.place passes

section Served

variable {Text Error : Type} {encode : Place → Text} {passes : Place → Row → Bool}
variable {serve : ℕ → Option Text → Except Error (Page Row Text)}

/-- Calls that filter past the place of a cursor, and cut what the query returns. -/
theorem servedBy_newestListing
    (filterPast : Option Text → Except Error (SelectQueryBuilder Row))
    (hfirst : filterPast none = .ok (.whereOnly condition))
    (hpast : ∀ place, filterPast (some (encode place)) =
      .ok ((SelectQueryBuilder.whereOnly condition).andWhere (passes place)))
    (hserve : ∀ call cursor query, filterPast cursor = .ok query →
      serve call cursor = .ok (cutPage limit (encode ∘ table.place)
        ((table.newestPage query limit).getMany table.columns rows.rows))) :
    (table.newestListing condition rows limit hpositive passes).ServedBy encode serve := by
  intro call cursor _
  rw [Listing.encode_page rfl]
  cases cursor with
  | none =>
      refine (hserve call none _ hfirst).trans ?_
      rw [getMany_newestPage rfl]
      rfl
  | some place =>
      refine (hserve call _ _ (hpast place)).trans ?_
      rw [getMany_newestPage rfl, sortRows_andWhere rfl]
      rfl

end Served

/-! ## Cursors by date and id -/

/-- Where a page is cut, the later rows were stored before its millisecond, or at its start with
smaller ids. -/
def CutsByMillisecond (table : TimedTable Row) (condition : Row → Bool)
    (rows : UniqueRows table.id) (limit : ℕ) : Prop :=
  ∀ before last rest, table.listed condition rows = before ++ last :: rest →
    limit ∣ before.length + 1 → ∀ later ∈ rest,
      table.time later < millisecondStart (table.time last) ∨
        (table.time later = millisecondStart (table.time last) ∧ table.id later < table.id last)

theorem newestListing_closed :
    (table.newestListing condition rows limit hpositive table.after).Closed := by
  apply Listing.closed_ofFilter
  intro last next row hnext hrow
  exact precedes_trans hnext hrow

theorem newestListing_clean_iff :
    (table.newestListing condition rows limit hpositive table.after).Clean ↔
      table.CutsByMillisecond condition rows limit := by
  have hforward : ∀ before last rest, table.listed condition rows = before ++ last :: rest →
      (∀ row ∈ before, ¬ table.after (table.place last) row) ∧
        ¬ table.after (table.place last) last := by
    intro before last rest hrows
    have hstart := millisecondStart_le (table.time last)
    simp only [after, place, precedes_placeOf]
    constructor
    · rintro earlier hearlier (hlt | ⟨heq, hid⟩)
      · exact absurd hlt (hstart.trans (time_le_of_mem_before hrows hearlier).1).not_gt
      · obtain ⟨hle, hids⟩ := time_le_of_mem_before hrows hearlier
        have hsame : table.time earlier = table.time last :=
          le_antisymm (heq.le.trans hstart) hle
        exact absurd hid (hids hsame).not_gt
    · rintro (hlt | ⟨-, hid⟩)
      · exact absurd hlt hstart.not_gt
      · exact absurd hid (lt_irrefl _)
  rw [newestListing, Listing.clean_lazy_ofFilter_iff hforward]
  simp only [after, place, precedes_placeOf]
  rfl

end TimedTable

end StellarSettle.NewestFirst
