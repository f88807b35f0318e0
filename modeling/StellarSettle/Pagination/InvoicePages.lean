import StellarSettle.Pagination.QueryPagination
import StellarSettle.Pagination.StoredTimes

/-!
# Pages of invoices

`queryInvoicesPage` filters past its own cursor and leaves the ordering to `paginateQuery`, which
starts it anew: invoices of one time are ordered by ascending ids, while the filter keeps the
smaller ids.  Each page that has invoices hands out a cursor, the last one too.
-/

namespace StellarSettle.InvoicePages

open StellarSettle.Entities (InvoiceStatus Timestamp Uuid)
open StellarSettle.OrderedRows
open StellarSettle.PageWalk
open StellarSettle.QueryPagination
open StellarSettle.SelectQuery
open StellarSettle.StoredTimes
open Std (TransCmp)

structure Invoice where
  id : Uuid
  sellerId : Uuid
  status : InvoiceStatus
  createdAt : StoredTime
  deletedAt : Option StoredTime
  deriving DecidableEq, Repr

inductive StatusFilter where
  | one (status : InvoiceStatus)
  | among (statuses : List InvoiceStatus)
  deriving DecidableEq, Repr

/-- An empty seller id is none. -/
structure InvoiceFilters where
  sellerId : Option Uuid
  status : Option StatusFilter
  deriving DecidableEq, Repr

/-- The second part of a cursor, where the text has one. -/
inductive IdPart where
  | uuid (id : Uuid)
  | missing
  | other
  deriving DecidableEq, Repr

/-- A cursor is the base64 text of a date, a bar and an id; a first part that is no date is
none. -/
structure InvoiceCursor where
  createdAt : Option Timestamp
  id : IdPart
  deriving DecidableEq, Repr

inductive InvoicePageError where
  | pagination (error : PaginationError)
  | queryFailed
  deriving DecidableEq, Repr

structure InvoicePage where
  data : List Invoice
  hasMore : Bool
  nextCursor : Option InvoiceCursor
  deriving DecidableEq, Repr

def compareInvoices : String → Invoice → Invoice → Ordering
  | "invoice.createdAt" => compareOn Invoice.createdAt
  | "invoice.id" => compareOn Invoice.id
  | _ => fun _ _ => .eq

def invoiceColumns : Columns Invoice where
  compareBy := compareInvoices
  ordered column := by
    unfold compareInvoices
    split <;> infer_instance

/-- The canonical text of a uuid. -/
def uuidText (id : Uuid) : String :=
  let digits := List.leftpad 32 '0' (Nat.toDigits 16 id)
  String.ofList (digits.take 8 ++ '-' :: (digits.drop 8).take 4 ++ '-' :: (digits.drop 12).take 4
    ++ '-' :: (digits.drop 16).take 4 ++ '-' :: digits.drop 20)

/-- The invoices' table.  No cursor is passed to `paginateQuery`, so it compares no value. -/
def invoiceTable : Table Invoice where
  columns := invoiceColumns
  compareWith _ _ _ := .eq
  property invoice
    | "createdAt" => .scalar (.date (toDate invoice.createdAt))
    | "id" => .scalar (.string (uuidText invoice.id))
    | _ => .other "undefined"

/-- The filters of the listing. -/
def InvoiceFilters.query (filters : InvoiceFilters) : SelectQueryBuilder Invoice :=
  let live := SelectQueryBuilder.whereOnly fun invoice : Invoice => invoice.deletedAt.isNone
  let owned :=
    match filters.sellerId with
    | some sellerId => live.andWhere fun invoice => decide (invoice.sellerId = sellerId)
    | none => live
  match filters.status with
  | some (.among []) | none => owned
  | some (.among statuses) => owned.andWhere fun invoice => decide (invoice.status ∈ statuses)
  | some (.one status) => owned.andWhere fun invoice => decide (invoice.status = status)

/-- The filter past a cursor.  A cursor without an id keeps the earlier times alone. -/
def filterPast (query : SelectQueryBuilder Invoice) :
    Option InvoiceCursor → Except InvoicePageError (SelectQueryBuilder Invoice)
  | none => .ok query
  | some ⟨some createdAt, .uuid id⟩ =>
    .ok (query.andWhere fun invoice =>
      (Place.mk createdAt id).precedes invoice.createdAt invoice.id)
  | some ⟨some createdAt, .missing⟩ =>
    .ok (query.andWhere fun invoice => decide (invoice.createdAt < fromDate createdAt))
  | some _ => .error .queryFailed

def cursorOf (place : Place) : InvoiceCursor := ⟨some place.date, .uuid place.id⟩

def queryInvoicesPage (filters : InvoiceFilters) (cursor : Option InvoiceCursor) (limit : ℚ)
    (invoices : List Invoice) : Except InvoicePageError InvoicePage := do
  let query ← filterPast filters.query cursor
  let result ← (paginateQuery invoiceTable invoices
    ⟨query.addOrderBy "invoice.id" .desc, "invoice.createdAt", some .desc, limit, none, none⟩
    ).mapError .pagination
  .ok
    { data := result.items
      hasMore := result.hasMore
      nextCursor := result.items.getLast?.map fun last =>
        cursorOf (placeOf last.createdAt last.id) }

/-! ## The listing -/

/-- The calls that follow `next_cursor`. -/
def followInvoices (filters : InvoiceFilters) (limit : ℚ) (invoices : List Invoice) (_ : ℕ)
    (cursor : Option InvoiceCursor) : Except InvoicePageError (Page Invoice InvoiceCursor) :=
  (queryInvoicesPage filters cursor limit invoices).map fun page => ⟨page.data, page.nextCursor⟩

/-- The invoices that match, which are those that are not deleted and pass the filters. -/
def matching (filters : InvoiceFilters) (invoices : List Invoice) : List Invoice :=
  invoices.filter fun invoice =>
    invoice.deletedAt.isNone
      && (match filters.sellerId with
        | some sellerId => decide (invoice.sellerId = sellerId)
        | none => true)
      && (match filters.status with
        | some (.among []) | none => true
        | some (.among statuses) => decide (invoice.status ∈ statuses)
        | some (.one status) => decide (invoice.status = status))

theorem alternatives_query (filters : InvoiceFilters) : filters.query.alternatives = [] := by
  unfold InvoiceFilters.query
  cases filters.sellerId <;> rcases filters.status with - | (_ | (_ | _)) <;> rfl

theorem offset_query (filters : InvoiceFilters) : filters.query.offset = 0 := by
  unfold InvoiceFilters.query
  cases filters.sellerId <;> rcases filters.status with - | (_ | (_ | _)) <;> rfl

theorem matching_eq (filters : InvoiceFilters) (invoices : List Invoice) :
    matching filters invoices = invoices.filter filters.query.accepts := by
  apply List.filter_congr
  intro invoice _
  unfold InvoiceFilters.query
  cases filters.sellerId <;> rcases filters.status with - | (_ | (_ | _)) <;>
    simp [SelectQueryBuilder.accepts, SelectQueryBuilder.andWhere, SelectQueryBuilder.whereOnly]

/-- Newest first, and by ascending ids within one time. -/
def invoiceOrder : Invoice → Invoice → Ordering :=
  invoiceTable.ordering "invoice.createdAt" "invoice.id" .desc

instance : TransCmp invoiceOrder :=
  inferInstanceAs (TransCmp (invoiceTable.columns.compareRows _))

/-- The matching invoices as they are listed. -/
def listed (filters : InvoiceFilters) (invoices : UniqueRows Invoice.id) : List Invoice :=
  sortRows invoiceOrder (matching filters invoices.rows)

theorem nodup_listed (filters : InvoiceFilters) (invoices : UniqueRows Invoice.id) :
    (listed filters invoices).Nodup :=
  nodup_sortRows (invoices.distinct _)

/-- The listing: every page that has invoices is followed by another one. -/
def invoiceListing (filters : InvoiceFilters) (limit : ℕ) (hpositive : 0 < limit)
    (invoices : UniqueRows Invoice.id) : Listing Invoice Place :=
  .ofFilter (listed filters invoices) (nodup_listed filters invoices) limit hpositive true
    (fun invoice => placeOf invoice.createdAt invoice.id)
    fun place invoice => place.precedes invoice.createdAt invoice.id

section Listing

variable {filters : InvoiceFilters} {invoices : UniqueRows Invoice.id} {limit : ℕ}
variable {hpositive : 0 < limit}

theorem invoiceOrder_lt {left right : Invoice} : invoiceOrder left right = .lt ↔
    right.createdAt < left.createdAt ∨ (left.createdAt = right.createdAt ∧ left.id < right.id) := by
  rw [invoiceOrder, Table.ordering, Columns.compareRows_pair, Ordering.then_eq_lt,
    along_desc_lt rfl, along_eq rfl, along_asc_lt rfl]

theorem separates_invoiceOrder (condition : Invoice → Bool) :
    Separates invoiceOrder (invoices.rows.filter condition) := by
  intro left hleft right hright hsame
  rw [invoiceOrder, Table.ordering, Columns.compareRows_pair, Ordering.then_eq_eq,
    along_eq rfl, along_eq rfl] at hsame
  exact invoices.eq_of_key (List.mem_of_mem_filter hleft) (List.mem_of_mem_filter hright) hsame.2

theorem cursorAfter_invoice (last : Invoice) :
    invoiceTable.cursorAfter "invoice.createdAt" "id" last =
      .ok (encodeQueryCursor "invoice.createdAt" (.date (toDate last.createdAt))
        (some (uuidText last.id))) := by
  have hcolumn : columnOf "invoice.createdAt" = "createdAt" := by decide +kernel
  rw [Table.cursorAfter, hcolumn]
  rfl

/-- `paginateQuery` cuts the invoices in its own order, not in the one that was added first. -/
theorem paginateQuery_invoices {query : SelectQueryBuilder Invoice} (rows : List Invoice)
    (hpositive : 0 < limit) (hoffset : query.offset = 0) : ∃ nextCursor hasMore,
    paginateQuery invoiceTable rows
        ⟨query.addOrderBy "invoice.id" .desc, "invoice.createdAt", some .desc, limit, none, none⟩ =
      .ok ⟨(sortRows invoiceOrder (rows.filter query.accepts)).take limit, nextCursor,
        hasMore⟩ := by
  have hfield : splitCursorField "invoice.createdAt" = .ok ("invoice", "createdAt") := by
    decide +kernel
  have hid : splitCursorField "invoice.id" = .ok ("invoice", "id") := by decide +kernel
  have hdiffer : "invoice.createdAt" ≠ "invoice.id" := by decide
  have hpage : paginateQuery invoiceTable rows
      ⟨query.addOrderBy "invoice.id" .desc, "invoice.createdAt", some .desc, limit, none, none⟩ =
        .ok _ :=
    paginateQuery_ok hfield hid rfl hpositive rfl (getMany_sent hoffset hdiffer) fun last _ =>
      cursorAfter_invoice last
  exact ⟨_, _, hpage⟩

theorem followInvoices_ok {query : SelectQueryBuilder Invoice} {rows found : List Invoice}
    {call : ℕ} {cursor : Option InvoiceCursor} (hpositive : 0 < limit)
    (hfilter : filterPast filters.query cursor = .ok query) (hoffset : query.offset = 0)
    (hfound : sortRows invoiceOrder (rows.filter query.accepts) = found) :
    followInvoices filters limit rows call cursor = .ok ⟨found.take limit,
      (found.take limit).getLast?.map fun last => cursorOf (placeOf last.createdAt last.id)⟩ := by
  obtain ⟨nextCursor, hasMore, hpage⟩ := paginateQuery_invoices rows hpositive hoffset
  simp only [followInvoices, queryInvoicesPage, hfilter, hpage, hfound, bind, Except.bind,
    Except.mapError, Except.map]

theorem servedBy_invoiceListing :
    (invoiceListing filters limit hpositive invoices).ServedBy cursorOf
      (followInvoices filters limit invoices.rows) := by
  intro call cursor _
  rw [Listing.encode_eager_page rfl]
  have hoffset := offset_query filters
  cases cursor with
  | none =>
      apply followInvoices_ok hpositive rfl hoffset
      rw [← matching_eq]
      rfl
  | some place =>
      have hfilter : filterPast filters.query (some (cursorOf place)) =
          .ok (filters.query.andWhere fun invoice =>
            place.precedes invoice.createdAt invoice.id) := rfl
      apply followInvoices_ok hpositive hfilter hoffset
      rw [funext (SelectQueryBuilder.accepts_andWhere _ (alternatives_query filters))]
      calc
        sortRows invoiceOrder (invoices.rows.filter fun invoice =>
            filters.query.accepts invoice && place.precedes invoice.createdAt invoice.id) =
            sortRows invoiceOrder ((matching filters invoices.rows).filter fun invoice =>
              place.precedes invoice.createdAt invoice.id) := by
          rw [matching_eq, List.filter_filter]
          simp only [Bool.and_comm]
        _ = (listed filters invoices).filter fun invoice =>
              place.precedes invoice.createdAt invoice.id :=
          (filter_sortRows (separates_invoiceOrder _) _).symm

/-- Where a page ends, the later invoices were stored before its millisecond, or at its start
with smaller ids, and no earlier invoice was stored there with a smaller id. -/
def CutsBetween (filters : InvoiceFilters) (limit : ℕ) (invoices : UniqueRows Invoice.id) : Prop :=
  ∀ before last rest, listed filters invoices = before ++ last :: rest →
    (limit ∣ before.length + 1 ∨ rest = []) →
      (∀ later ∈ rest, later.createdAt < millisecondStart last.createdAt ∨
        (later.createdAt = millisecondStart last.createdAt ∧ later.id < last.id)) ∧
      ∀ earlier ∈ before, earlier.createdAt = millisecondStart last.createdAt →
        last.id ≤ earlier.id

theorem clean_iff_cutsBetween : (invoiceListing filters limit hpositive invoices).Clean ↔
    CutsBetween filters limit invoices := by
  rw [invoiceListing, Listing.clean_ofFilter_iff]
  apply forall₄_congr
  intro before last rest hrows
  have hcuts : (limit ∣ before.length + 1 ∧ rest ≠ []) ∨ (true ∧ rest = []) ↔
      limit ∣ before.length + 1 ∨ rest = [] := by
    by_cases hrest : rest = [] <;> simp [hrest]
  rw [Listing.cuts_ofFilter_iff, hcuts]
  apply imp_congr_right; intro _
  simp only [precedes_placeOf]
  have hlast := millisecondStart_le last.createdAt
  have hbefore (earlier : Invoice) (hearlier : earlier ∈ before) :
      last.createdAt ≤ earlier.createdAt := by
    have hlt := lt_of_mem_before (invoices.distinct _) (separates_invoiceOrder _) hrows hearlier
    rcases invoiceOrder_lt.mp hlt with hlt | ⟨heq, -⟩
    · exact hlt.le
    · exact heq.ge
  apply and_congr_right; intro _
  constructor
  · rintro ⟨hnone, -⟩ earlier hearlier hstart
    exact not_lt.mp fun hid => hnone earlier hearlier (.inr ⟨hstart, hid⟩)
  · intro hids
    constructor
    · rintro earlier hearlier (hlt | ⟨hstart, hid⟩)
      · exact absurd hlt (hlast.trans (hbefore earlier hearlier)).not_gt
      · exact absurd hid (hids earlier hearlier hstart).not_gt
    · rintro (hlt | ⟨-, hid⟩)
      · exact absurd hlt hlast.not_gt
      · exact absurd hid (lt_irrefl _)

theorem invoiceListing_closed : (invoiceListing filters limit hpositive invoices).Closed := by
  apply Listing.closed_ofFilter
  intro last next row hnext hrow
  exact precedes_trans hnext hrow

/-- Each matching invoice is returned once exactly when every page ends between such times. -/
theorem returnsOnce_iff_cutsBetween (filters : InvoiceFilters) (limit : ℕ) (hlimit : 1 ≤ limit)
    (invoices : UniqueRows Invoice.id) :
    ReturnsOnce (followInvoices filters limit invoices.rows) (matching filters invoices.rows) ↔
      CutsBetween filters limit invoices := by
  calc
    ReturnsOnce (followInvoices filters limit invoices.rows) (matching filters invoices.rows) ↔
        ReturnsOnce (followInvoices filters limit invoices.rows) (listed filters invoices) :=
      returnsOnce_congr (sortRows_perm _ _).symm
    _ ↔ (invoiceListing filters limit hlimit invoices).Clean :=
      Listing.returnsOnce_iff_of_servedBy servedBy_invoiceListing invoiceListing_closed
    _ ↔ CutsBetween filters limit invoices := clean_iff_cutsBetween

end Listing

/-- Two invoices that one statement inserted. -/
def insertedTogether : UniqueRows Invoice.id where
  rows := [⟨1, 9, .published, 1767225600000000, none⟩, ⟨2, 9, .published, 1767225600000000, none⟩]
  unique := by decide

/-- The second invoice has the greater id, so the cursor of the first one passes over it. -/
theorem insertedTogether_skipped :
    ¬ ReturnsOnce (followInvoices ⟨none, none⟩ (1 : ℕ) insertedTogether.rows)
      (matching ⟨none, none⟩ insertedTogether.rows) := by
  have hfollow : follow (followInvoices ⟨none, none⟩ (1 : ℕ) insertedTogether.rows) 2 0 none =
      some [[⟨1, 9, .published, 1767225600000000, none⟩], []] := by decide +kernel
  exact not_returnsOnce_of_follow hfollow (by decide +kernel)

/-- Invoices of different milliseconds. -/
def insertedApart : UniqueRows Invoice.id where
  rows :=
    [⟨1, 9, .published, 1767225600000000, none⟩, ⟨2, 9, .published, 1767225600001250, none⟩,
      ⟨3, 8, .published, 1767225600002000, none⟩]
  unique := by decide

theorem insertedApart_cutsBetween :
    CutsBetween ⟨some 9, some (.one .published)⟩ 1 insertedApart := by
  have hfollow : follow (followInvoices ⟨some 9, some (.one .published)⟩ (1 : ℕ)
      insertedApart.rows) 3 0 none =
        some [[⟨2, 9, .published, 1767225600001250, none⟩],
          [⟨1, 9, .published, 1767225600000000, none⟩], []] := by decide +kernel
  apply (returnsOnce_iff_cutsBetween ⟨some 9, some (.one .published)⟩ 1 (by decide)
    insertedApart).mp
  exact returnsOnce_of_follow hfollow (by decide +kernel)

end StellarSettle.InvoicePages
