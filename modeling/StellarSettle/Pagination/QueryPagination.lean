import Mathlib.Data.Rat.Defs
import StellarSettle.Core.PageWalk
import StellarSettle.Model.Entities
import StellarSettle.Pagination.SelectQuery

/-!
# Keyset pagination over a query

`paginateQuery` orders a query by a column and an id, cuts it after `limit` rows, and filters it
past the row that a cursor names.  A cursor is the base64 text of a JSON value; it is known here
by the value that `JSON.parse` reads from it.
-/

namespace StellarSettle.QueryPagination

open StellarSettle.Entities (Timestamp)
open StellarSettle.OrderedRows
open StellarSettle.PageWalk
open StellarSettle.SelectQuery
open Std (OrientedCmp ReflCmp TransCmp)

/-! ## Cursors -/

inductive Json where
  | null
  | boolean (value : Bool)
  | number (value : ℚ)
  | string (text : String)
  | array (items : List Json)
  | object (members : List (String × Json))

/-- A member of an object.  Of members with one name, the last one is read. -/
def Json.member? (name : String) : Json → Option Json
  | .object members =>
    (members.reverse.find? fun entry => decide (entry.1 = name)).map Prod.snd
  | _ => none

/-- The text of a cursor. -/
inductive CursorText where
  | empty
  | malformed
  | encoded (value : Json)

inductive PaginationError where
  | invalidCursor (message : String)
  | plain (message : String)
  deriving DecidableEq, Repr

/-- A value that a cursor may be made from.  A number that is not finite is none. -/
inductive ScalarValue where
  | string (text : String)
  | number (value : Option ℚ)
  | date (time : Timestamp)
  deriving DecidableEq, Repr

/-- What a property of an entity holds, or the name of its type where no cursor is made of it. -/
inductive PropertyValue where
  | scalar (value : ScalarValue)
  | other (typeOf : String)
  deriving DecidableEq, Repr

inductive CursorValue where
  | string (text : String)
  | number (value : ℚ)
  deriving DecidableEq, Repr

structure DecodedCursor where
  field : String
  value : CursorValue
  id : Option String
  deriving DecidableEq, Repr

/-- The year, month and day of a day that is counted from the epoch. -/
def civilDate (day : ℤ) : ℤ × ℤ × ℤ :=
  let shifted := day + 719468
  let era := shifted / 146097
  let dayOfEra := shifted % 146097
  let yearOfEra :=
    (dayOfEra - dayOfEra / 1460 + dayOfEra / 36524 - dayOfEra / 146096) / 365
  let dayOfYear := dayOfEra - (365 * yearOfEra + yearOfEra / 4 - yearOfEra / 100)
  let march := (5 * dayOfYear + 2) / 153
  let month := if march < 10 then march + 3 else march - 9
  let year := yearOfEra + era * 400 + if month ≤ 2 then 1 else 0
  (year, month, dayOfYear - (153 * march + 2) / 5 + 1)

/-- The digits of a number, padded with zeros. -/
def padded (width : ℕ) (value : ℤ) : String :=
  String.ofList (List.leftpad width '0' (Nat.toDigits 10 value.natAbs))

/-- A year outside four digits is written with its sign and six digits. -/
def yearText (year : ℤ) : String :=
  if 0 ≤ year ∧ year ≤ 9999 then padded 4 year
  else (if year < 0 then "-" else "+") ++ padded 6 year

def toISOString (time : Timestamp) : String :=
  let (year, month, day) := civilDate (time / 86400000)
  let clock := time % 86400000
  yearText year ++ "-" ++ padded 2 month ++ "-" ++ padded 2 day ++ "T"
    ++ padded 2 (clock / 3600000) ++ ":" ++ padded 2 (clock / 60000 % 60) ++ ":"
    ++ padded 2 (clock / 1000 % 60) ++ "." ++ padded 3 (clock % 1000) ++ "Z"

example : toISOString 1709210096007 = "2024-02-29T12:34:56.007Z" := by decide +kernel

/-- `JSON.stringify` writes a number that is not finite as null. -/
def ScalarValue.toJson : ScalarValue → Json
  | .string text => .string text
  | .number (some value) => .number value
  | .number none => .null
  | .date time => .string (toISOString time)

/-- The JSON value of a cursor. -/
def cursorJson (field : String) (value : ScalarValue) (id : Option String) : Json :=
  .object ([("field", .string field), ("value", value.toJson)]
    ++ (id.map fun id => ("id", Json.string id)).toList)

def encodeQueryCursor (field : String) (value : ScalarValue) (id : Option String) : CursorText :=
  .encoded (cursorJson field value id)

def Json.cursorValue? : Json → Option CursorValue
  | .string text => some (.string text)
  | .number value => some (.number value)
  | _ => none

def decodeQueryCursor : CursorText → Except PaginationError DecodedCursor
  | .empty | .malformed =>
    .error (.invalidCursor "Invalid cursor: not valid base64-encoded JSON")
  | .encoded decoded =>
    match decoded.member? "field", decoded.member? "value" with
    | some field, some value =>
      match field, value.cursorValue? with
      | .string field, some value =>
        match decoded.member? "id" with
        | none => .ok ⟨field, value, none⟩
        | some (.string id) => .ok ⟨field, value, some id⟩
        | some _ => .error (.invalidCursor "Invalid cursor: 'id' must be a string when present")
      | _, _ =>
        .error (.invalidCursor
          "Invalid cursor: 'field' must be a string and 'value' a string or number")
    | _, _ => .error (.invalidCursor "Invalid cursor: missing 'field' or 'value'")

section CursorJson

variable {field : String} {value : ScalarValue} {id : Option String}

@[simp]
theorem field_cursorJson : (cursorJson field value id).member? "field" = some (.string field) := by
  cases id <;> simp [cursorJson, Json.member?]

@[simp]
theorem value_cursorJson : (cursorJson field value id).member? "value" = some value.toJson := by
  cases id <;> simp [cursorJson, Json.member?]

@[simp]
theorem id_cursorJson : (cursorJson field value id).member? "id" = id.map .string := by
  cases id <;> simp [cursorJson, Json.member?]

/-- A cursor is read back, unless its value is a number that is not finite. -/
theorem decode_encode {carried : CursorValue}
    (hcarried : value.toJson.cursorValue? = some carried) :
    decodeQueryCursor (encodeQueryCursor field value id) = .ok ⟨field, carried, id⟩ := by
  simp only [encodeQueryCursor, decodeQueryCursor, field_cursorJson, value_cursorJson,
    id_cursorJson, hcarried]
  cases id with
  | none => rfl
  | some id => rfl

end CursorJson

/-! ## Fields -/

/-- The alias and the column of a field. -/
def splitCursorField (cursorField : String) : Except PaginationError (String × String) :=
  match cursorField.toList.splitOn '.' with
  | [first, second] =>
    if first = [] ∨ second = [] then .error (invalidField cursorField)
    else .ok (String.ofList first, String.ofList second)
  | _ => .error (invalidField cursorField)
where
  invalidField (cursorField : String) : PaginationError :=
    .invalidCursor (s!"Invalid cursorField \"{cursorField}\": " ++
      "expected \"<alias>.<column>\" (e.g. \"invoice.createdAt\")")

/-- What follows the first dot of a field. -/
def columnOf (cursorField : String) : String :=
  match cursorField.toList.dropWhile fun letter => letter ≠ '.' with
  | [] => cursorField
  | _ :: column => String.ofList column

example : splitCursorField "invoice.createdAt" = .ok ("invoice", "createdAt")
    ∧ columnOf "invoice.createdAt" = "createdAt" := by
  decide +kernel

/-! ## Pages of a query -/

/-- A table as the database orders it, as it compares a column with a value that is bound to a
parameter, and as the entities of its rows show it. -/
structure Table (Row : Type) where
  columns : Columns Row
  compareWith : String → Row → CursorValue → Ordering
  property : Row → String → PropertyValue

structure PaginateQueryOptions (Row : Type) where
  queryBuilder : SelectQueryBuilder Row
  cursorField : String
  order : Option Direction
  limit : ℚ
  cursor : Option CursorText
  tiebreakerField : Option String

structure PaginateQueryResult (Row : Type) where
  items : List Row
  nextCursor : Option CursorText
  hasMore : Bool

variable {Row : Type}

/-- A column lies past a value in the direction of the query. -/
def beyond : Direction → Ordering → Bool
  | .desc, comparison => comparison == .lt
  | .asc, comparison => comparison == .gt

/-- The rows past a cursor.  A cursor without an id filters by the value alone. -/
def Table.pastCursor (table : Table Row) (cursorField tiebreakerField : String)
    (order : Direction) (decoded : DecodedCursor) (row : Row) : Bool :=
  match decoded.id with
  | none => beyond order (table.compareWith cursorField row decoded.value)
  | some id =>
    beyond order (table.compareWith cursorField row decoded.value)
      || (table.compareWith cursorField row decoded.value == .eq
        && table.compareWith tiebreakerField row (.string id) == .gt)

/-- The query, filtered past its cursor where it has one. -/
def Table.filterPast (table : Table Row) (query : SelectQueryBuilder Row)
    (cursorField tiebreakerField : String) (order : Direction) :
    Option CursorText → Except PaginationError (SelectQueryBuilder Row)
  | none | some .empty => .ok query
  | some cursor => do
    let decoded ← decodeQueryCursor cursor
    if decoded.field = cursorField then
      .ok (query.andWhere (table.pastCursor cursorField tiebreakerField order decoded))
    else
      .error (.invalidCursor (s!"Invalid cursor: was encoded for field \"{decoded.field}\" " ++
        s!"but query is paginating on \"{cursorField}\""))

/-- The cursor of the last row of a page. -/
def Table.cursorAfter (table : Table Row) (cursorField idColumn : String) (last : Row) :
    Except PaginationError CursorText :=
  match table.property last (columnOf cursorField) with
  | .scalar value =>
    .ok (encodeQueryCursor cursorField value
      (match table.property last idColumn with
      | .scalar (.string id) => some id
      | _ => none))
  | .other typeOf =>
    .error (.invalidCursor (s!"paginateQuery: cursor column \"{columnOf cursorField}\" " ++
      s!"must resolve to a string, number, or Date (got {typeOf})"))

/-- The page of the rows that were found, of which one more than the page was asked for. -/
def Table.pageOf (table : Table Row) (cursorField idColumn : String) (limit : ℕ)
    (found : List Row) : Except PaginationError (PaginateQueryResult Row) :=
  if limit < found.length then
    match (found.take limit).getLast? with
    | some last => do
      let nextCursor ← table.cursorAfter cursorField idColumn last
      .ok ⟨found.take limit, some nextCursor, true⟩
    | none => .ok ⟨found.take limit, none, true⟩
  else .ok ⟨found, none, false⟩

def PaginateQueryOptions.direction (options : PaginateQueryOptions Row) : Direction :=
  options.order.getD .desc

/-- The field that breaks ties. -/
def PaginateQueryOptions.tiebreaker (options : PaginateQueryOptions Row) (tableAlias : String) :
    String :=
  options.tiebreakerField.getD s!"{tableAlias}.id"

/-- The query in its order, with one row more than the page. -/
def PaginateQueryOptions.sent (options : PaginateQueryOptions Row) (tiebreakerField : String)
    (limit : ℕ) (query : SelectQueryBuilder Row) : SelectQueryBuilder Row :=
  ((query.orderBy options.cursorField options.direction).addOrderBy tiebreakerField .asc).take
    (limit + 1)

def paginateQuery (table : Table Row) (rows : List Row) (options : PaginateQueryOptions Row) :
    Except PaginationError (PaginateQueryResult Row) := do
  let (tableAlias, _) ← splitCursorField options.cursorField
  let tiebreakerField := options.tiebreaker tableAlias
  let (_, idColumn) ← splitCursorField tiebreakerField
  if options.limit.den = 1 ∧ 0 < options.limit.num then
    let limit := options.limit.num.toNat
    let query ← table.filterPast options.queryBuilder options.cursorField tiebreakerField
      options.direction options.cursor
    table.pageOf options.cursorField idColumn limit
      ((options.sent tiebreakerField limit query).getMany table.columns rows)
  else
    .error (.plain "paginateQuery: 'limit' must be a positive integer")

/-! ## What a page holds -/

section Pages

variable {table : Table Row} {rows : List Row} {options : PaginateQueryOptions Row}
variable {fieldParts tiebreakerParts : String × String} {encode : Row → CursorText}
variable {found : List Row} {limit : ℕ}

theorem pageOf_overfetch {cursorField idColumn : String} (hpositive : 0 < limit)
    (hencode : ∀ last ∈ found, table.cursorAfter cursorField idColumn last = .ok (encode last)) :
    table.pageOf cursorField idColumn limit (found.take (limit + 1)) = .ok
      ⟨found.take limit,
        if limit < found.length then (found.take limit).getLast?.map encode else none,
        decide (limit < found.length)⟩ := by
  rw [Table.pageOf, take_overfetch]
  by_cases hmore : limit < found.length
  · rw [if_pos (lt_length_overfetch.mpr hmore), if_pos hmore, decide_eq_true hmore]
    have hsome : found.take limit ≠ [] := by
      apply List.ne_nil_of_length_pos
      rw [List.length_take]
      omega
    have hlast := List.getLast?_eq_some_getLast hsome
    generalize (found.take limit).getLast hsome = last at hlast
    have hmem := List.mem_of_mem_take (List.mem_of_getLast? hlast)
    rw [hlast, Option.map_some]
    dsimp only
    rw [hencode last hmem]
    rfl
  · rw [if_neg (mt lt_length_overfetch.mp hmore), if_neg hmore, decide_eq_false hmore,
      overfetch_of_le hmore]

/-- A page is the start of what the filtered query selects. -/
theorem paginateQuery_ok {query : SelectQueryBuilder Row}
    (hfield : splitCursorField options.cursorField = .ok fieldParts)
    (htiebreaker : splitCursorField (options.tiebreaker fieldParts.1) = .ok tiebreakerParts)
    (hlimit : options.limit = limit) (hpositive : 0 < limit)
    (hquery : table.filterPast options.queryBuilder options.cursorField
      (options.tiebreaker fieldParts.1) options.direction options.cursor = .ok query)
    (hfound : (options.sent (options.tiebreaker fieldParts.1) limit query).getMany table.columns
      rows = found.take (limit + 1))
    (hencode : ∀ last ∈ found,
      table.cursorAfter options.cursorField tiebreakerParts.2 last = .ok (encode last)) :
    paginateQuery table rows options = .ok
      ⟨found.take limit,
        if limit < found.length then (found.take limit).getLast?.map encode else none,
        decide (limit < found.length)⟩ := by
  have hvalid : options.limit.den = 1 ∧ 0 < options.limit.num := by
    rw [hlimit, Rat.den_natCast, Rat.num_natCast]
    exact ⟨rfl, Int.natCast_pos.mpr hpositive⟩
  have hcount : options.limit.num.toNat = limit := by
    rw [hlimit, Rat.num_natCast, Int.toNat_natCast]
  calc
    paginateQuery table rows options = table.pageOf options.cursorField tiebreakerParts.2 limit
        ((options.sent (options.tiebreaker fieldParts.1) limit query).getMany table.columns
          rows) := by
      simp only [paginateQuery, hfield, htiebreaker, hquery, if_pos hvalid, hcount, bind,
        Except.bind]
    _ = _ := by rw [hfound, pageOf_overfetch hpositive hencode]

end Pages

/-! ## Walks -/

/-- The calls that follow `nextCursor`. -/
def followCursor (table : Table Row) (rows : List Row) (options : PaginateQueryOptions Row)
    (_ : ℕ) (cursor : Option CursorText) : Except PaginationError (Page Row CursorText) :=
  (paginateQuery table rows { options with cursor := cursor }).map fun result =>
    ⟨result.items, result.nextCursor⟩

/-- The order of a query by a column and then by a second one, ascending. -/
def Table.ordering (table : Table Row) (cursorField tiebreakerField : String)
    (order : Direction) : Row → Row → Ordering :=
  table.columns.compareRows [(cursorField, order), (tiebreakerField, .asc)]

/-- The database compares its columns exactly with the values that a cursor carries. -/
structure ComparesCarried (table : Table Row) (rows : List Row)
    (cursorField tiebreakerField idColumn : String) : Prop where
  value : ∀ last ∈ rows, ∃ value carried,
    table.property last (columnOf cursorField) = .scalar value ∧
      value.toJson.cursorValue? = some carried ∧
        ∀ row ∈ rows, table.compareWith cursorField row carried =
          table.columns.compareBy cursorField row last
  id : ∀ last ∈ rows, ∃ id, table.property last idColumn = .scalar (.string id) ∧
    ∀ row ∈ rows, table.compareWith tiebreakerField row (.string id) =
      table.columns.compareBy tiebreakerField row last

section Walks

variable {table : Table Row} {rows : List Row} {cursorField tiebreakerField idColumn : String}
variable {order : Direction}

/-- The rows past a cursor are the rows that the order puts after its row. -/
theorem beyond_or_iff {last row : Row} {comparison tie : Ordering}
    (hcomparison : comparison = table.columns.compareBy cursorField row last)
    (htie : tie = table.columns.compareBy tiebreakerField row last) :
    (beyond order comparison || (comparison == .eq && tie == .gt)) =
      (table.ordering cursorField tiebreakerField order last row == .lt) := by
  have := table.columns.ordered cursorField
  have := table.columns.ordered tiebreakerField
  have hid : table.columns.compareBy tiebreakerField last row = tie.swap := by
    rw [htie]
    exact OrientedCmp.eq_swap
  rw [Table.ordering, Columns.compareRows_pair]
  cases order with
  | asc =>
      have hvalue : table.columns.compareBy cursorField last row = comparison.swap := by
        rw [hcomparison]
        exact OrientedCmp.eq_swap
      simp only [Columns.along, hvalue, hid]
      cases comparison <;> cases tie <;> rfl
  | desc =>
      simp only [Columns.along, ← hcomparison, hid]
      cases comparison <;> cases tie <;> rfl

/-- Unique ids tell the rows apart in every order that ends with them. -/
theorem separates_ordering (hunique : Separates (table.columns.compareBy tiebreakerField) rows) :
    Separates (table.ordering cursorField tiebreakerField order) rows := by
  intro left hleft right hright hsame
  rw [Table.ordering, Columns.compareRows_pair, Ordering.then_eq_eq] at hsame
  exact hunique left hleft right hright hsame.2

instance : TransCmp (table.ordering cursorField tiebreakerField order) :=
  inferInstanceAs (TransCmp (table.columns.compareRows _))

/-- The rows in their order.  A cursor names one of them. -/
def sortedListing (table : Table Row) (rows : List Row) (hdistinct : rows.Nodup)
    (cursorField tiebreakerField : String) (order : Direction) (limit : ℕ)
    (hpositive : 0 < limit) : Listing Row Row :=
  .ofFilter (sortRows (table.ordering cursorField tiebreakerField order) rows)
    (nodup_sortRows hdistinct) limit hpositive false id
    fun last row => table.ordering cursorField tiebreakerField order last row == .lt

variable {hdistinct : rows.Nodup} {limit : ℕ} {hpositive : 0 < limit}

theorem sortedListing_clean
    (hunique : Separates (table.columns.compareBy tiebreakerField) rows) :
    (sortedListing table rows hdistinct cursorField tiebreakerField order limit
      hpositive).Clean := by
  have hseparates : Separates (table.ordering cursorField tiebreakerField order) rows :=
    separates_ordering hunique
  apply Listing.clean_ofFilter_iff.mpr
  intro before last rest hrows _
  refine ⟨?_, ?_, ?_⟩
  · intro row hrow
    rw [beq_iff_eq]
    exact lt_of_mem_rest hdistinct hseparates hrows hrow
  · intro row hrow
    rw [beq_iff_eq]
    exact OrientedCmp.not_lt_of_lt (lt_of_mem_before hdistinct hseparates hrows hrow)
  · have hself : table.ordering cursorField tiebreakerField order last last = .eq :=
      ReflCmp.compare_self
    rw [beq_iff_eq, id_eq, hself]
    exact Ordering.noConfusion

/-- The text of the cursor that names a row. -/
def cursorText (table : Table Row) (cursorField idColumn : String) (last : Row) : CursorText :=
  (table.cursorAfter cursorField idColumn last).toOption.getD .malformed

theorem exists_cursor (order : Direction)
    (hcompares : ComparesCarried table rows cursorField tiebreakerField idColumn) {last : Row}
    (hlast : last ∈ rows) : ∃ value id,
      table.cursorAfter cursorField idColumn last =
          .ok (encodeQueryCursor cursorField value (some id)) ∧
        cursorText table cursorField idColumn last =
            encodeQueryCursor cursorField value (some id) ∧
          ∃ carried, value.toJson.cursorValue? = some carried ∧ ∀ row ∈ rows,
            table.pastCursor cursorField tiebreakerField order ⟨cursorField, carried, some id⟩ row =
              (table.ordering cursorField tiebreakerField order last row == .lt) := by
  obtain ⟨value, carried, hproperty, hcarried, hvalues⟩ := hcompares.value last hlast
  obtain ⟨id, hid, hids⟩ := hcompares.id last hlast
  have hafter : table.cursorAfter cursorField idColumn last =
      .ok (encodeQueryCursor cursorField value (some id)) := by
    rw [Table.cursorAfter, hproperty, hid]
  refine ⟨value, id, hafter, ?_, carried, hcarried, ?_⟩
  · rw [cursorText, hafter]
    rfl
  · intro row hrow
    exact beyond_or_iff (hvalues row hrow) (hids row hrow)

/-- What the ordered query returns. -/
theorem getMany_sent {options : PaginateQueryOptions Row} {query : SelectQueryBuilder Row}
    (hoffset : query.offset = 0) (hdiffer : options.cursorField ≠ tiebreakerField) :
    (options.sent tiebreakerField limit query).getMany table.columns rows =
      (sortRows (table.ordering options.cursorField tiebreakerField options.direction)
        (rows.filter query.accepts)).take (limit + 1) := by
  have hzero : ((query.orderBy options.cursorField options.direction).addOrderBy tiebreakerField
      .asc).offset = 0 := hoffset
  rw [PaginateQueryOptions.sent, SelectQueryBuilder.getMany_take _ _ _ hzero,
    SelectQueryBuilder.selected, SelectQueryBuilder.orderBys_orderBy_addOrderBy hdiffer]
  rfl

variable {condition : Row → Bool} {fieldParts tiebreakerParts : String × String}
variable {options : PaginateQueryOptions Row}

/-- A call returns the start of the rows past its cursor, in their order. -/
theorem followCursor_ok {call : ℕ} {text : Option CursorText} {query : SelectQueryBuilder Row}
    {found : List Row} {encode : Row → CursorText}
    (hfield : splitCursorField options.cursorField = .ok fieldParts)
    (htiebreaker : splitCursorField (options.tiebreaker fieldParts.1) = .ok tiebreakerParts)
    (hdiffer : options.cursorField ≠ options.tiebreaker fieldParts.1)
    (hlimit : options.limit = limit) (hpositive : 0 < limit) (hoffset : query.offset = 0)
    (hfilter : table.filterPast options.queryBuilder options.cursorField
      (options.tiebreaker fieldParts.1) options.direction text = .ok query)
    (hselected : sortRows (table.ordering options.cursorField (options.tiebreaker fieldParts.1)
      options.direction) (rows.filter query.accepts) = found)
    (hencode : ∀ last ∈ found,
      table.cursorAfter options.cursorField tiebreakerParts.2 last = .ok (encode last)) :
    followCursor table rows options call text = .ok
      ⟨found.take limit,
        if limit < found.length then (found.take limit).getLast?.map encode else none⟩ := by
  have hmany : (options.sent (options.tiebreaker fieldParts.1) limit query).getMany table.columns
      rows = found.take (limit + 1) := by
    rw [← hselected]
    exact getMany_sent hoffset hdiffer
  have hpage : paginateQuery table rows { options with cursor := text } = .ok _ :=
    paginateQuery_ok hfield htiebreaker hlimit hpositive hfilter hmany hencode
  rw [followCursor, hpage]
  rfl

/-- The calls serve the sorted rows. -/
theorem servedBy_sortedListing (hquery : options.queryBuilder = .whereOnly condition)
    (hfield : splitCursorField options.cursorField = .ok fieldParts)
    (htiebreaker : splitCursorField (options.tiebreaker fieldParts.1) = .ok tiebreakerParts)
    (hdiffer : options.cursorField ≠ options.tiebreaker fieldParts.1)
    (hlimit : options.limit = limit) (hdistinct : (rows.filter condition).Nodup)
    (hunique : Separates (table.columns.compareBy (options.tiebreaker fieldParts.1))
      (rows.filter condition))
    (hcompares : ComparesCarried table (rows.filter condition) options.cursorField
      (options.tiebreaker fieldParts.1) tiebreakerParts.2) :
    (sortedListing table (rows.filter condition) hdistinct options.cursorField
      (options.tiebreaker fieldParts.1) options.direction limit hpositive).ServedBy
        (cursorText table options.cursorField tiebreakerParts.2)
        (followCursor table rows options) := by
  intro call cursor hcursor
  have hencode : ∀ last ∈ rows.filter condition,
      table.cursorAfter options.cursorField tiebreakerParts.2 last =
        .ok (cursorText table options.cursorField tiebreakerParts.2 last) := by
    intro last hlast
    obtain ⟨value, id, hafter, htext, -⟩ := exists_cursor options.direction hcompares hlast
    rw [hafter, htext]
  rw [Listing.encode_page rfl, cutPage_overfetch]
  generalize hfound : (sortedListing table (rows.filter condition) hdistinct options.cursorField
    (options.tiebreaker fieldParts.1) options.direction limit hpositive).foundAt call cursor = found
  have hsubset : found ⊆ rows.filter condition := by
    intro row hrow
    rw [← hfound] at hrow
    cases cursor with
    | none => exact mem_sortRows.mp hrow
    | some last => exact mem_sortRows.mp (List.mem_of_mem_filter hrow)
  change _ = Except.ok (Page.mk (found.take limit) (if limit < found.length then
    (found.take limit).getLast?.map (cursorText table options.cursorField tiebreakerParts.2)
    else none))
  have hsent : ∀ last ∈ found, table.cursorAfter options.cursorField tiebreakerParts.2 last =
      .ok (cursorText table options.cursorField tiebreakerParts.2 last) :=
    fun last hlast => hencode last (hsubset hlast)
  cases cursor with
  | none =>
      have hfilter : table.filterPast options.queryBuilder options.cursorField
          (options.tiebreaker fieldParts.1) options.direction none =
            .ok (.whereOnly condition) := by
        rw [hquery]
        rfl
      exact followCursor_ok hfield htiebreaker hdiffer hlimit hpositive rfl hfilter hfound hsent
  | some last =>
      obtain ⟨_, row, hrow, rfl⟩ := hcursor _ rfl
      obtain ⟨value, id, -, htext, carried, hcarried, hpast⟩ :=
        exists_cursor options.direction hcompares (mem_sortRows.mp hrow)
      have hfilter : table.filterPast options.queryBuilder options.cursorField
          (options.tiebreaker fieldParts.1) options.direction
          (some (cursorText table options.cursorField tiebreakerParts.2 row)) =
            .ok ((SelectQueryBuilder.whereOnly condition).andWhere
              (table.pastCursor options.cursorField (options.tiebreaker fieldParts.1)
                options.direction ⟨options.cursorField, carried, some id⟩)) := by
        rw [htext, hquery]
        change (decodeQueryCursor (encodeQueryCursor options.cursorField value (some id)) >>= _) = _
        rw [decode_encode hcarried]
        exact if_pos rfl
      refine followCursor_ok hfield htiebreaker hdiffer hlimit hpositive rfl hfilter ?_ hsent
      rw [← hfound, funext (SelectQueryBuilder.accepts_andWhere _ rfl)]
      calc
        sortRows _ (rows.filter fun other => condition other && table.pastCursor
            options.cursorField (options.tiebreaker fieldParts.1) options.direction _ other) =
            sortRows _ ((rows.filter condition).filter fun other =>
              table.ordering options.cursorField (options.tiebreaker fieldParts.1)
                options.direction row other == .lt) := by
          rw [← List.filter_congr hpast, List.filter_filter]
          simp only [Bool.and_comm]
        _ = (sortRows _ (rows.filter condition)).filter fun other =>
              table.ordering options.cursorField (options.tiebreaker fieldParts.1)
                options.direction row other == .lt :=
          (filter_sortRows (separates_ordering hunique) _).symm

/-- Following `nextCursor` ends, and the pages are the rows in their order, each of them once. -/
theorem pages_sorted (table : Table Row) (rows : List Row) (condition : Row → Bool)
    (options : PaginateQueryOptions Row) (hquery : options.queryBuilder = .whereOnly condition)
    (hlimit : options.limit = limit) (hpositive : 1 ≤ limit)
    (hfield : splitCursorField options.cursorField = .ok fieldParts)
    (htiebreaker : splitCursorField (options.tiebreaker fieldParts.1) = .ok tiebreakerParts)
    (hdiffer : options.cursorField ≠ options.tiebreaker fieldParts.1)
    (hdistinct : (rows.filter condition).Nodup)
    (hunique : Separates (table.columns.compareBy (options.tiebreaker fieldParts.1))
      (rows.filter condition))
    (hcompares : ComparesCarried table (rows.filter condition) options.cursorField
      (options.tiebreaker fieldParts.1) tiebreakerParts.2) :
    ReturnsInOrder (followCursor table rows options)
      (sortRows (table.ordering options.cursorField (options.tiebreaker fieldParts.1)
        options.direction) (rows.filter condition)) := by
  have hserved : (sortedListing table (rows.filter condition) hdistinct options.cursorField
      (options.tiebreaker fieldParts.1) options.direction limit hpositive).ServedBy _ _ :=
    servedBy_sortedListing hquery hfield htiebreaker hdiffer hlimit hdistinct hunique hcompares
  exact Listing.returnsInOrder_of_servedBy hserved (sortedListing_clean hunique)

end Walks

/-- A row with a score. -/
structure ScoredRow where
  score : ℕ
  id : String
  deriving DecidableEq

def ScoredRow.compareBy : String → ScoredRow → ScoredRow → Ordering
  | "row.score" => compareOn ScoredRow.score
  | _ => compareOn ScoredRow.id

def ScoredRow.compareWith : String → ScoredRow → CursorValue → Ordering
  | "row.score", row, .number value => compare (row.score : ℚ) value
  | "row.id", row, .string id => compare row.id id
  | _, _, _ => .lt

def scoredRows : Table ScoredRow where
  columns := ⟨ScoredRow.compareBy, by
    intro column
    unfold ScoredRow.compareBy
    split <;> infer_instance⟩
  compareWith := ScoredRow.compareWith
  property row column :=
    if column = "score" then .scalar (.number (some row.score)) else .scalar (.string row.id)

/-- Two rows tie where the first page ends. -/
def tiedRows : List ScoredRow := [⟨5, "b"⟩, ⟨7, "c"⟩, ⟨5, "a"⟩]

def scoredOptions : PaginateQueryOptions ScoredRow :=
  ⟨.whereOnly fun row => row.score < 9, "row.score", none, (2 : ℕ), none, none⟩

theorem tiedRows_sorted :
    ReturnsInOrder (followCursor scoredRows tiedRows scoredOptions)
      (sortRows (scoredRows.ordering scoredOptions.cursorField (scoredOptions.tiebreaker "row")
        scoredOptions.direction) (tiedRows.filter fun row => row.score < 9)) := by
  have hfield : splitCursorField scoredOptions.cursorField = .ok ("row", "score") := by
    decide +kernel
  have htiebreaker : splitCursorField (scoredOptions.tiebreaker "row") = .ok ("row", "id") := by
    decide +kernel
  have hunique : ∀ left ∈ tiedRows.filter fun row => row.score < 9,
      ∀ right ∈ tiedRows.filter fun row => row.score < 9,
        scoredRows.columns.compareBy (scoredOptions.tiebreaker "row") left right = .eq →
          left = right := by decide +kernel
  have hvalues : ∀ last ∈ tiedRows.filter fun row => row.score < 9,
      scoredRows.property last (columnOf scoredOptions.cursorField) =
          .scalar (.number (some last.score)) ∧
        ∀ row ∈ tiedRows.filter fun row => row.score < 9,
          scoredRows.compareWith scoredOptions.cursorField row (.number last.score) =
            scoredRows.columns.compareBy scoredOptions.cursorField row last := by decide +kernel
  have hids : ∀ last ∈ tiedRows.filter fun row => row.score < 9,
      scoredRows.property last "id" = .scalar (.string last.id) ∧
        ∀ row ∈ tiedRows.filter fun row => row.score < 9,
          scoredRows.compareWith (scoredOptions.tiebreaker "row") row (.string last.id) =
            scoredRows.columns.compareBy (scoredOptions.tiebreaker "row") row last := by
    decide +kernel
  apply pages_sorted scoredRows tiedRows (fun row => row.score < 9) scoredOptions rfl rfl
    (by decide) hfield htiebreaker
  · decide +kernel
  · decide +kernel
  · exact hunique
  · constructor
    · intro last hlast
      exact ⟨_, .number last.score, (hvalues last hlast).1, rfl, (hvalues last hlast).2⟩
    · intro last hlast
      exact ⟨last.id, hids last hlast⟩

end StellarSettle.QueryPagination
