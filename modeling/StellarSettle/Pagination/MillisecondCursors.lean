import StellarSettle.Model.DecimalJs
import StellarSettle.Pagination.NewestFirst

/-!
# Portfolio pages and seller pages

`getPortfolio` lists the investments of an investor, and `getInvoicesBySellerId` the invoices of
a seller.  Both cut a newest-first listing and continue it from the date and the id of the last
row of a page.
-/

namespace StellarSettle.MillisecondCursors

open StellarSettle.DecimalJs
open StellarSettle.Entities (InvestmentStatus InvoiceStatus Timestamp Uuid)
open StellarSettle.NewestFirst
open StellarSettle.NewestFirst.TimedTable (newestListing_clean_iff newestListing_closed
  servedBy_newestListing)
open StellarSettle.OrderedRows
open StellarSettle.PageWalk
open StellarSettle.SelectQuery
open StellarSettle.StoredTimes

inductive ListingError where
  | service (code message : String) (statusCode : ℕ)
  | queryFailed
  deriving DecidableEq, Repr

/-- The second part of a cursor.  A text that is no uuid fails as a parameter of a query. -/
inductive IdPart where
  | uuid (id : Uuid)
  | empty
  | other
  deriving DecidableEq, Repr

def IdPart.uuid? : IdPart → Except ListingError Uuid
  | .uuid id => .ok id
  | _ => .error .queryFailed

/-! ## The portfolio of an investor -/

structure InvestedInvoice where
  status : InvoiceStatus
  fundingDeadline : Option Timestamp
  deriving DecidableEq, Repr

/-- Amounts are kept in units of four decimals, as their columns are. -/
structure Investment where
  id : Uuid
  investorId : Uuid
  invoiceId : Uuid
  status : InvestmentStatus
  investmentAmount : ℤ
  expectedReturn : ℤ
  actualReturn : Option ℤ
  createdAt : StoredTime
  deletedAt : Option StoredTime
  invoice : Option InvestedInvoice
  deriving DecidableEq, Repr

structure PortfolioPosition where
  investmentId : Uuid
  invoiceId : Uuid
  invoiceStatus : Option InvoiceStatus
  status : InvestmentStatus
  amountInvested : ℤ
  expectedReturn : ℤ
  currentValue : ℤ
  settlementAmount : Option ℤ
  realisedPnl : Option ℤ
  fundingDeadline : Option Timestamp
  createdAt : Timestamp
  deriving DecidableEq, Repr

structure PortfolioSummary where
  totalInvested : ℤ
  currentPortfolioValue : ℤ
  realisedReturns : ℤ
  realisedPnl : ℤ
  deriving DecidableEq, Repr

/-- The base64 text of a date, a bar and an id.  A first part that is no date is none. -/
structure PortfolioCursor where
  createdAt : Option Timestamp
  id : IdPart
  deriving DecidableEq, Repr

structure PortfolioPage where
  summary : PortfolioSummary
  positions : List PortfolioPosition
  nextCursor : Option PortfolioCursor
  hasMore : Bool
  deriving DecidableEq, Repr

def encodeCursor (createdAt : Timestamp) (id : Uuid) : PortfolioCursor := ⟨some createdAt, .uuid id⟩

def decodeCursor : PortfolioCursor → Except ListingError (Timestamp × IdPart)
  | ⟨_, .empty⟩ | ⟨none, _⟩ => .error (.service "INVALID_CURSOR" "Invalid portfolio cursor" 400)
  | ⟨some createdAt, id⟩ => .ok (createdAt, id)

def compareInvestments : String → Investment → Investment → Ordering
  | "investment.createdAt" => compareOn Investment.createdAt
  | "investment.id" => compareOn Investment.id
  | _ => fun _ _ => .eq

def investmentTable : TimedTable Investment where
  columns :=
    { compareBy := compareInvestments
      ordered := fun column => by
        unfold compareInvestments
        split <;> infer_instance }
  timeColumn := "investment.createdAt"
  idColumn := "investment.id"
  time := Investment.createdAt
  id := Investment.id
  time_column := rfl
  id_column := rfl
  columns_differ := by decide

/-- The sums over the whole portfolio, not over a page. -/
structure PortfolioSums where
  totalInvested : Decimal
  currentPortfolioValue : Decimal
  realisedReturns : Decimal
  realisedPnl : Decimal

def PortfolioSums.add (sums : PortfolioSums) (investment : Investment) : PortfolioSums :=
  let principal := ofUnits investment.investmentAmount
  let invested := { sums with totalInvested := plus sums.totalInvested principal }
  match investment.status with
  | .pending | .confirmed =>
    { invested with
      currentPortfolioValue :=
        plus sums.currentPortfolioValue (ofUnits investment.expectedReturn) }
  | .settled =>
    let settlement := ofUnits (investment.actualReturn.getD investment.expectedReturn)
    { invested with
      realisedReturns := plus sums.realisedReturns settlement
      realisedPnl := plus sums.realisedPnl (minus settlement principal) }
  | .cancelled =>
    { invested with realisedPnl := plus sums.realisedPnl (minus 0 principal) }

def PortfolioSums.summary (sums : PortfolioSums) : PortfolioSummary where
  totalInvested := toFixed4 sums.totalInvested
  currentPortfolioValue := toFixed4 sums.currentPortfolioValue
  realisedReturns := toFixed4 sums.realisedReturns
  realisedPnl := toFixed4 sums.realisedPnl

def toPosition (investment : Investment) : PortfolioPosition :=
  let principal := ofUnits investment.investmentAmount
  let settlementAmount := match investment.status with
    | .settled => some (toFixed4 (ofUnits (investment.actualReturn.getD investment.expectedReturn)))
    | .cancelled => some 0
    | _ => none
  { investmentId := investment.id
    invoiceId := investment.invoiceId
    invoiceStatus := investment.invoice.map InvestedInvoice.status
    status := investment.status
    amountInvested := toFixed4 principal
    expectedReturn := toFixed4 (ofUnits investment.expectedReturn)
    currentValue := match investment.status with
      | .pending | .confirmed => toFixed4 (ofUnits investment.expectedReturn)
      | _ => 0
    settlementAmount := settlementAmount
    realisedPnl := settlementAmount.map fun amount =>
      toFixed4 (minus (ofUnits amount) principal)
    fundingDeadline := investment.invoice.bind InvestedInvoice.fundingDeadline
    createdAt := toDate investment.createdAt }

/-- The rows of the investor.  A query leaves out the rows that are deleted. -/
def ownedBy (investorId : Uuid) (investment : Investment) : Bool :=
  investment.deletedAt.isNone && decide (investment.investorId = investorId)

/-- `Math.min(Math.max(limit ?? 20, 1), 100)`. -/
def pageLimit (limit : Option ℤ) : ℕ := (min (max (limit.getD 20) 1) 100).toNat

def portfolioQuery (investorId : Uuid) :
    Option PortfolioCursor → Except ListingError (SelectQueryBuilder Investment)
  | none => .ok (.whereOnly (ownedBy investorId))
  | some cursor => do
    let (createdAt, id) ← decodeCursor cursor
    let id ← id.uuid?
    .ok ((SelectQueryBuilder.whereOnly (ownedBy investorId)).andWhere
      (investmentTable.after ⟨createdAt, id⟩))

def getPortfolio (investments : List Investment) (investorId : Uuid) (limit : Option ℤ)
    (cursor : Option PortfolioCursor) : Except ListingError PortfolioPage := do
  let limit := pageLimit limit
  let query ← portfolioQuery investorId cursor
  let rows := (investmentTable.newestPage query limit).getMany investmentTable.columns investments
  let page := cutPage limit (fun last => encodeCursor (toDate last.createdAt) last.id) rows
  let all := investments.filter (ownedBy investorId)
  .ok
    { summary := (all.foldl PortfolioSums.add ⟨0, 0, 0, 0⟩).summary
      positions := page.items.map toPosition
      nextCursor := page.next
      hasMore := decide (limit < rows.length) }

/-! ## The invoices of a seller -/

structure Invoice where
  id : Uuid
  sellerId : Uuid
  status : InvoiceStatus
  createdAt : StoredTime
  deletedAt : Option StoredTime
  deriving DecidableEq, Repr

/-- A cursor's text by the form that it is decoded from: the base64 of a JSON object or of a date,
a bar and an id, the text of a uuid, the text of a date, or something else.  A missing part, and
one that is no date or an empty id, is none. -/
inductive InvoiceCursorText where
  | json (createdAt : Option Timestamp) (id : Option IdPart)
  | piped (createdAt : Option Timestamp) (id : Option IdPart)
  | uuid (id : Uuid)
  | date (createdAt : Timestamp)
  | other
  deriving DecidableEq, Repr

structure DecodedInvoiceCursor where
  createdAt : Option Timestamp
  id : Option IdPart
  deriving DecidableEq, Repr

/-- The id is uuid, so it is not empty. -/
def encodeInvoiceCursor (invoice : Invoice) : InvoiceCursorText :=
  .piped (some (toDate invoice.createdAt)) (some (.uuid invoice.id))

def decodeInvoiceCursor : InvoiceCursorText → Except ListingError DecodedInvoiceCursor
  | .json none none | .piped none _ | .other =>
    .error (.service "invalid_cursor" "Invalid cursor format" 400)
  | .json createdAt id => .ok ⟨createdAt, id⟩
  | .piped (some createdAt) id => .ok ⟨some createdAt, id⟩
  | .uuid id => .ok ⟨none, some (.uuid id)⟩
  | .date createdAt => .ok ⟨some createdAt, none⟩

/-- The cursor is none where it is undefined, and its text is none where it is null or blank.  The
status is none where its text, trimmed and in lower case, names no status. -/
structure GetInvoicesOptions where
  sellerId : Option Uuid
  status : Option InvoiceStatus
  skip : Option ℤ
  take : Option ℤ
  cursor : Option (Option InvoiceCursorText)
  limit : Option ℤ

structure InvoiceList where
  invoices : List Invoice
  total : ℕ
  nextCursor : Option InvoiceCursorText
  hasMore : Bool
  deriving DecidableEq, Repr

def compareInvoices : String → Invoice → Invoice → Ordering
  | "invoice.createdAt" => compareOn Invoice.createdAt
  | "invoice.id" => compareOn Invoice.id
  | _ => fun _ _ => .eq

def invoiceTable : TimedTable Invoice where
  columns :=
    { compareBy := compareInvoices
      ordered := fun column => by
        unfold compareInvoices
        split <;> infer_instance }
  timeColumn := "invoice.createdAt"
  idColumn := "invoice.id"
  time := Invoice.createdAt
  id := Invoice.id
  time_column := rfl
  id_column := rfl
  columns_differ := by decide

/-- The seller's invoices that are not deleted and, where a status is given, have it. -/
def soldBy (sellerId : Uuid) (status : Option InvoiceStatus) (invoice : Invoice) : Bool :=
  decide (invoice.sellerId = sellerId) && invoice.deletedAt.isNone
    && status.all fun status => decide (invoice.status = status)

/-- The date and the id that the listing continues from.  An id alone is looked up. -/
def cursorPlace (invoices : List Invoice) :
    Option InvoiceCursorText → Except ListingError DecodedInvoiceCursor
  | none => .ok ⟨none, none⟩
  | some text => do
    let decoded ← decodeInvoiceCursor text
    match decoded.createdAt, decoded.id with
    | none, some id => do
      let id ← id.uuid?
      match invoices.find? fun invoice => decide (invoice.id = id ∧ invoice.deletedAt = none) with
      | some invoice => .ok ⟨some (toDate invoice.createdAt), some (.uuid invoice.id)⟩
      | none =>
        .error (.service "invalid_cursor" "Invoice referenced by cursor not found" 400)
    | _, _ => .ok decoded

def filterFrom (query : SelectQueryBuilder Invoice) :
    DecodedInvoiceCursor → Except ListingError (SelectQueryBuilder Invoice)
  | ⟨some createdAt, some id⟩ => do
    let id ← id.uuid?
    .ok (query.andWhere (invoiceTable.after ⟨createdAt, id⟩))
  | ⟨some createdAt, none⟩ =>
    .ok (query.andWhere fun invoice => decide (invoice.createdAt < fromDate createdAt))
  | ⟨none, some id⟩ => do
    let id ← id.uuid?
    .ok (query.andWhere fun invoice => decide (invoice.id < id))
  | ⟨none, none⟩ => .ok query

/-- An error that is no `ServiceError` is replaced. -/
def replaceFailure : ListingError → ListingError
  | .queryFailed => .service "invoice_list_failed" "Failed to fetch invoices" 500
  | failure => failure

/-- `Math.max(1, Math.min(limit ?? take ?? 20, 100))`. -/
def listLimit (first second : Option ℤ) : ℕ := (max 1 (min ((first.or second).getD 20) 100)).toNat

def getInvoicesBySellerId (invoices : List Invoice) (options : GetInvoicesOptions) :
    Except ListingError InvoiceList :=
  match options.sellerId with
  | none => .error (.service "invalid_seller_id" "Seller id is required" 400)
  | some sellerId =>
    let wanted := soldBy sellerId options.status
    let total := (invoices.filter wanted).length
    match options.cursor with
    | some cursor => Except.mapError replaceFailure do
      let limit := listLimit options.limit options.take
      let place ← cursorPlace invoices cursor
      let query ← filterFrom (.whereOnly wanted) place
      let found := (invoiceTable.newestPage query limit).getMany invoiceTable.columns invoices
      let page := cutPage limit encodeInvoiceCursor found
      .ok
        { invoices := page.items
          total := total
          nextCursor := page.next
          hasMore := decide (limit < found.length) }
    | none =>
      let skip := (max 0 (min (options.skip.getD 0) 10000)).toNat
      let page := ((((SelectQueryBuilder.whereOnly wanted).orderBy invoiceTable.timeColumn
        .desc).skip skip).take (listLimit options.take options.limit)).getMany
          invoiceTable.columns invoices
      .ok
        { invoices := page
          total := total
          nextCursor := none
          hasMore := decide (skip + page.length < total) }

/-! ## Walks -/

/-- The investments of the pages that `nextCursor` leads to. -/
def followPortfolio (investments : List Investment) (investorId : Uuid) (limit : Option ℤ)
    (_ : ℕ) (cursor : Option PortfolioCursor) :
    Except ListingError (Page PortfolioPosition PortfolioCursor) :=
  (getPortfolio investments investorId limit cursor).map fun page =>
    ⟨page.positions, page.nextCursor⟩

/-- The invoices of the pages that `nextCursor` leads to, from the null cursor on. -/
def followSeller (invoices : List Invoice) (sellerId : Uuid) (status : Option InvoiceStatus)
    (limit : Option ℤ) (_ : ℕ) (cursor : Option InvoiceCursorText) :
    Except ListingError (Page Invoice InvoiceCursorText) :=
  (getInvoicesBySellerId invoices ⟨some sellerId, status, none, none, some cursor, limit⟩).map
    fun page => ⟨page.invoices, page.nextCursor⟩

/-! ## The investments of the pages -/

def portfolioCursor (place : Place) : PortfolioCursor := encodeCursor place.date place.id

/-- The investments behind the positions. -/
def followInvestments (investments : List Investment) (investorId : Uuid) (limit : Option ℤ)
    (_ : ℕ) (cursor : Option PortfolioCursor) :
    Except ListingError (Page Investment PortfolioCursor) :=
  (portfolioQuery investorId cursor).map fun query =>
    cutPage (pageLimit limit) (fun last => encodeCursor (toDate last.createdAt) last.id)
      ((investmentTable.newestPage query (pageLimit limit)).getMany investmentTable.columns
        investments)

theorem followPortfolio_eq (investments : List Investment) (investorId : Uuid)
    (limit : Option ℤ) : followPortfolio investments investorId limit =
      presented toPosition (followInvestments investments investorId limit) := by
  funext call cursor
  rw [followPortfolio, presented, followInvestments, getPortfolio]
  cases portfolioQuery investorId cursor <;> rfl

theorem pageLimit_pos (limit : Option ℤ) : 0 < pageLimit limit := by
  rw [pageLimit]
  omega

section Portfolio

variable {investments : UniqueRows Investment.id} {investorId : Uuid} {limit : Option ℤ}

theorem servedBy_portfolio :
    (investmentTable.newestListing (ownedBy investorId) investments (pageLimit limit)
      (pageLimit_pos limit) investmentTable.after).ServedBy portfolioCursor
        (followInvestments investments.rows investorId limit) := by
  apply servedBy_newestListing (portfolioQuery investorId) rfl fun place => rfl
  intro call cursor query hquery
  rw [followInvestments, hquery]
  rfl

theorem portfolio_returnsOnce_iff : ReturnsOnce
    (followPortfolio investments.rows investorId limit)
      ((investments.rows.filter (ownedBy investorId)).map toPosition) ↔
    investmentTable.CutsByMillisecond (ownedBy investorId) investments (pageLimit limit) := by
  have hdistinct := investments.distinct (ownedBy investorId)
  calc
    ReturnsOnce (followPortfolio investments.rows investorId limit) _ ↔
        ReturnsOnce (followInvestments investments.rows investorId limit)
          (investments.rows.filter (ownedBy investorId)) := by
      rw [followPortfolio_eq]
      apply returnsOnce_presented_iff hdistinct (List.Subset.refl _)
      · intro left hleft right hright hsame
        exact investments.eq_of_key (List.mem_of_mem_filter hleft) (List.mem_of_mem_filter hright)
          (congrArg PortfolioPosition.investmentId hsame)
      · intro pages hwalk row hrow
        exact mem_sortRows.mp (Listing.mem_rows_of_servedBy servedBy_portfolio hwalk row hrow)
    _ ↔ ReturnsOnce (followInvestments investments.rows investorId limit)
          (investmentTable.listed (ownedBy investorId) investments) :=
      returnsOnce_congr (sortRows_perm _ _).symm
    _ ↔ _ := Listing.returnsOnce_iff_of_servedBy servedBy_portfolio newestListing_closed
    _ ↔ _ := newestListing_clean_iff

end Portfolio

section Seller

variable {invoices : UniqueRows Invoice.id} {sellerId : Uuid} {status : Option InvoiceStatus}
variable {limit : Option ℤ}

def sellerCursor (place : Place) : InvoiceCursorText :=
  .piped (some place.date) (some (.uuid place.id))

def sellerQuery (invoices : List Invoice) (sellerId : Uuid) (status : Option InvoiceStatus)
    (cursor : Option InvoiceCursorText) : Except ListingError (SelectQueryBuilder Invoice) := do
  let place ← cursorPlace invoices cursor
  filterFrom (.whereOnly (soldBy sellerId status)) place

theorem listLimit_pos (first second : Option ℤ) : 0 < listLimit first second := by
  rw [listLimit]
  omega

theorem servedBy_seller :
    (invoiceTable.newestListing (soldBy sellerId status) invoices (listLimit limit none)
      (listLimit_pos limit none) invoiceTable.after).ServedBy sellerCursor
        (followSeller invoices.rows sellerId status limit) := by
  apply servedBy_newestListing (sellerQuery invoices.rows sellerId status) rfl fun place => rfl
  intro call cursor query hquery
  rw [sellerQuery] at hquery
  cases hplace : cursorPlace invoices.rows cursor with
  | error failure =>
      rw [hplace] at hquery
      cases hquery
  | ok place =>
      rw [hplace] at hquery
      change filterFrom (.whereOnly (soldBy sellerId status)) place = .ok query at hquery
      simp only [followSeller, getInvoicesBySellerId, hplace, hquery, bind, Except.bind,
        Except.mapError, Except.map]
      rfl

theorem seller_returnsOnce_iff : ReturnsOnce (followSeller invoices.rows sellerId status limit)
      (invoices.rows.filter (soldBy sellerId status)) ↔
    invoiceTable.CutsByMillisecond (soldBy sellerId status) invoices (listLimit limit none) := by
  calc
    ReturnsOnce (followSeller invoices.rows sellerId status limit) _ ↔
        ReturnsOnce (followSeller invoices.rows sellerId status limit)
          (invoiceTable.listed (soldBy sellerId status) invoices) :=
      returnsOnce_congr (sortRows_perm _ _).symm
    _ ↔ _ := Listing.returnsOnce_iff_of_servedBy servedBy_seller newestListing_closed
    _ ↔ _ := newestListing_clean_iff

end Seller

/-- Either listing returns each of its rows once exactly when no page is cut inside a
millisecond, but for rows at its start with smaller ids. -/
theorem returnsOnce_iff_cutsByMillisecond (investments : UniqueRows Investment.id)
    (invoices : UniqueRows Invoice.id) (investorId sellerId : Uuid)
    (status : Option InvoiceStatus) (limit : Option ℤ) :
    (ReturnsOnce (followPortfolio investments.rows investorId limit)
        ((investments.rows.filter (ownedBy investorId)).map toPosition) ↔
      investmentTable.CutsByMillisecond (ownedBy investorId) investments (pageLimit limit)) ∧
    (ReturnsOnce (followSeller invoices.rows sellerId status limit)
        (invoices.rows.filter (soldBy sellerId status)) ↔
      invoiceTable.CutsByMillisecond (soldBy sellerId status) invoices (listLimit limit none)) :=
  ⟨portfolio_returnsOnce_iff, seller_returnsOnce_iff⟩

/-- Two investments that one statement inserted, within a millisecond. -/
def investedTogether : List Investment :=
  [⟨1, 7, 5, .confirmed, 1000000, 1100000, none, 1767225600000250, none, none⟩,
    ⟨2, 7, 5, .confirmed, 2000000, 2200000, none, 1767225600000250, none, none⟩]

/-- The time of both is later than the cursor, so the first one is never returned. -/
theorem investedTogether_skipped :
    ¬ ReturnsOnce (followPortfolio investedTogether 7 (some 1))
      ((investedTogether.filter (ownedBy 7)).map toPosition) := by
  have hfollow : follow (followPortfolio investedTogether 7 (some 1)) 2 0 none =
      some [[toPosition
        ⟨2, 7, 5, .confirmed, 2000000, 2200000, none, 1767225600000250, none, none⟩], []] := by
    decide +kernel
  exact not_returnsOnce_of_follow hfollow (by decide +kernel)

end StellarSettle.MillisecondCursors
