import StellarSettle.Core.KeyedViews
import StellarSettle.Pagination.QueryPagination
import StellarSettle.Projections.AuctionBids
import StellarSettle.Projections.EventReplay
import StellarSettle.Projections.ReadModelCaches

/-!
# The views of cancelled orders and of pool rebalances

Both services keep views in a map of the process and delete keys when an event was ingested.
The keys of a page have its number and its limit, and those that are deleted do not.

A page and its limit are at least one, as the routes make them.  The texts of an event are
taken to fit their columns.
-/

namespace StellarSettle.EventViews

open StellarSettle.AuctionBids (toColumn)
open StellarSettle.DecimalJs
open StellarSettle.Entities
open StellarSettle.EventReplay
open StellarSettle.KeyedRows
open StellarSettle.KeyedViews
open StellarSettle.OrderedRows
open StellarSettle.QueryPagination (toISOString)
open StellarSettle.ReadModelCaches (keyPart_injective)
open StellarSettle.UniqueColumns

/-! ## Cancelled orders -/

structure BulkCancelledOrder where
  id : Uuid
  orderId : String
  wallet : String
  invoiceId : Option String
  refundAmount : ℤ
  eventId : Option String
  cancelledAt : Option Timestamp
  deriving DecidableEq, Repr

abbrev CancelledTable : Type :=
  UniqueTable BulkCancelledOrder.id [fun order => some order.orderId]

structure CancelledOrderInput where
  orderId : String
  wallet : String
  invoiceId : Option String
  refundAmount : Decimal
  deriving DecidableEq, Repr

structure BulkCancellationInput where
  orders : List CancelledOrderInput
  eventId : Option String
  occurredAt : Option Timestamp
  deriving DecidableEq, Repr

/-- The row of one order, unless its amount overflows the column. -/
def saveCancelled (table : CancelledTable) (order : CancelledOrderInput)
    (eventId : Option String) (cancelledAt : Timestamp) : Option CancelledTable :=
  (toColumn order.refundAmount).bind fun refundAmount =>
    table.save
      { id := freshKey BulkCancelledOrder.id table.rows
        orderId := order.orderId
        wallet := order.wallet.toLower
        invoiceId := order.invoiceId
        refundAmount := refundAmount
        eventId := eventId
        cancelledAt := some cancelledAt }

/-- Orders that are there are skipped; a save that fails leaves the rows before it. -/
def ingestOrders (eventId : Option String) (cancelledAt : Timestamp) :
    CancelledTable → List CancelledOrderInput → CancelledTable × Bool
  | table, [] => (table, true)
  | table, order :: orders =>
      if table.rows.any fun row => row.orderId = order.orderId then
        ingestOrders eventId cancelledAt table orders
      else
        match saveCancelled table order eventId cancelledAt with
        | none => (table, false)
        | some saved => ingestOrders eventId cancelledAt saved orders

/-- `invalidateWallet`. -/
def walletKey (wallet : String) : String := "cancelled" ++ ":" ++ wallet

def ingestBulkCancellation (table : CancelledTable) (input : BulkCancellationInput)
    (now : Timestamp) : CancelledTable × Option (List String) :=
  match ingestOrders input.eventId (input.occurredAt.getD now) table input.orders with
  | (saved, true) =>
      (saved, some (input.orders.map fun order => walletKey order.wallet.toLower))
  | (saved, false) => (saved, none)

/-- `cancelledAt DESC`. -/
def newestCancelled (left right : BulkCancelledOrder) : Ordering :=
  compareDescending left.cancelledAt right.cancelledAt

structure CancelledOrderView where
  order_id : String
  wallet : String
  invoice_id : Option String
  refund_amount : ℤ
  cancelled_at : Option String
  deriving DecidableEq, Repr

/-- A page of views, as both services answer it. -/
structure ViewPage (View : Type*) where
  entries : List View
  total : ℕ
  page : ℕ+
  limit : ℕ+
  deriving DecidableEq

/-- `findAndCount` with an order, `skip` and `take`. -/
def pageOf {Row View : Type*} (compareRows : Row → Row → Ordering) (listed : List Row)
    (page limit : ℕ+) (view : Row → View) : ViewPage View where
  entries := (((sortRows compareRows listed).drop ((page - 1 : ℕ) * limit)).take limit).map view
  total := listed.length
  page := page
  limit := limit

/-- A query, and how the database lists the rows then. -/
structure CancelledQuery where
  wallet : String
  page : ℕ+
  limit : ℕ+
  order : StorageOrder BulkCancelledOrder

def cancelledKey (query : CancelledQuery) : String :=
  "cancelled" ++ ":" ++ (query.wallet.toLower ++ ":" ++
    (toString (query.page : ℕ) ++ ":" ++ toString (query.limit : ℕ)))

def getCancelledOrders (table : CancelledTable) (query : CancelledQuery) :
    ViewPage CancelledOrderView :=
  let rows := query.order.list (table.rows.filter fun row => row.wallet = query.wallet.toLower)
  pageOf newestCancelled rows query.page query.limit fun row =>
    { order_id := row.orderId
      wallet := row.wallet
      invoice_id := row.invoiceId
      refund_amount := row.refundAmount
      cancelled_at := row.cancelledAt.map toISOString }

/-- The service of cancelled orders; `CACHE_TTL_MS` is thirty seconds. -/
def bulkCancellation : Service CancelledTable CancelledQuery BulkCancellationInput
    (ViewPage CancelledOrderView) String where
  key := cancelledKey
  owner query := query.wallet.toLower
  serves _ := true
  lifetime := 30 * 1000
  compute table query _ := some (getCancelledOrders table query)
  ingest := ingestBulkCancellation
  owners input := input.orders.map fun order => order.wallet.toLower

/-! ## Pool rebalances -/

structure PendingRebalanceView where
  pool_id : String
  new_weights : Weights
  eta : Option String
  eta_seconds : Option ℤ
  proposed_at : Option String
  deriving DecidableEq, Repr

structure RebalanceHistoryEntry where
  id : Uuid
  pool_id : String
  status : RebalanceStatus
  old_weights : Weights
  new_weights : Weights
  eta : Option String
  proposed_at : Option String
  executed_at : Option String
  deriving DecidableEq, Repr

/-- What the pools are asked for, and how the database lists the rows then. -/
inductive RebalanceQuery where
  | pending (poolId : String) (order : StorageOrder PoolRebalance)
  | history (poolId : String) (page limit : ℕ+) (order : StorageOrder PoolRebalance)

def RebalanceQuery.poolId : RebalanceQuery → String
  | .pending poolId _ => poolId
  | .history poolId _ _ _ => poolId

inductive RebalanceView where
  | pending (view : Option PendingRebalanceView)
  | history (page : ViewPage RebalanceHistoryEntry)
  deriving DecidableEq

def pendingKey (poolId : String) : String := "pending" ++ ":" ++ poolId

def historyKey (poolId : String) : String := "history" ++ ":" ++ poolId

def rebalanceKey : RebalanceQuery → String
  | .pending poolId _ => pendingKey poolId
  | .history poolId page limit _ =>
      "history" ++ ":" ++ (poolId ++ ":" ++ (toString (page : ℕ) ++ ":" ++ toString (limit : ℕ)))

/-- `Math.max(0, Math.round((etaMs - nowMs) / 1000))`. -/
def etaSeconds (eta now : Timestamp) : ℤ := max 0 ((eta - now + 500) / 1000)

def pendingView (now : Timestamp) (row : PoolRebalance) : PendingRebalanceView where
  pool_id := row.poolId
  new_weights := row.newWeights
  eta := row.eta.map toISOString
  eta_seconds := row.eta.map fun eta => etaSeconds eta now
  proposed_at := row.proposedAt.map toISOString

def historyEntry (row : PoolRebalance) : RebalanceHistoryEntry where
  id := row.id
  pool_id := row.poolId
  status := row.status
  old_weights := row.oldWeights
  new_weights := row.newWeights
  eta := row.eta.map toISOString
  proposed_at := row.proposedAt.map toISOString
  executed_at := row.executedAt.map toISOString

/-- `getPending` and `getHistory`, past the cache. -/
def computeRebalances (table : RebalanceTable) (query : RebalanceQuery) (now : Timestamp) :
    RebalanceView :=
  match query with
  | .pending poolId order => .pending ((findPending order table.rows poolId).map (pendingView now))
  | .history poolId page limit order =>
      .history (pageOf newestProposed
        (order.list (table.rows.filter fun row => row.poolId = poolId)) page limit historyEntry)

/-- An event, and how the database lists the rows then. -/
inductive RebalanceEvent where
  | proposed (input : ProposedInput)
  | executed (input : ExecutedInput) (order : StorageOrder PoolRebalance)

def RebalanceEvent.poolId : RebalanceEvent → String
  | .proposed input => input.poolId
  | .executed input _ => input.poolId

/-- An execution that finds nothing pending in its pool. -/
def RebalanceEvent.findsNothing (rows : List PoolRebalance) : RebalanceEvent → Bool
  | .proposed _ => false
  | .executed input order => (findPending order rows input.poolId).isNone

/-- `invalidatePool`. -/
def poolKeys (poolId : String) : List String := [pendingKey poolId, historyKey poolId]

/-- An execution that finds nothing pending returns before it deletes a key. -/
def ingestRebalance (table : RebalanceTable) (event : RebalanceEvent) (now : Timestamp) :
    RebalanceTable × Option (List String) :=
  match event with
  | .proposed input =>
      match ingestProposed table input now with
      | none => (table, none)
      | some saved => (saved, some (poolKeys input.poolId))
  | .executed input order =>
      match findPending order table.rows input.poolId with
      | none => (table, some [])
      | some _ =>
          match ingestExecuted order table input now with
          | none => (table, none)
          | some saved => (saved, some (poolKeys input.poolId))

/-- The service of pool rebalances; `CACHE_TTL_MS` is a minute.  That nothing is pending is
stored, but not served. -/
def poolRebalances :
    Service RebalanceTable RebalanceQuery RebalanceEvent RebalanceView String where
  key := rebalanceKey
  owner := RebalanceQuery.poolId
  serves
    | .pending none => false
    | _ => true
  lifetime := 60 * 1000
  compute table query now := some (computeRebalances table query now)
  ingest := ingestRebalance
  owners event := [event.poolId]

/-! ## After an event -/

/-- When an ingest returns, no page of its wallets is live but under the key of a wallet that
is spelled like the rest of that key. -/
def NoPageLeft (world : World CancelledTable (ViewPage CancelledOrderView) String) :
    Call CancelledQuery BulkCancellationInput → Prop
  | .ingest input elapsed =>
      (ingestBulkCancellation world.tables input (world.now + elapsed)).2 ≠ none →
        ∀ order ∈ input.orders, ∀ query : CancelledQuery,
          query.wallet.toLower = order.wallet.toLower →
            (served bulkCancellation world query (world.now + elapsed)).isSome = true →
              ∃ other ∈ input.orders, other.wallet.toLower = query.wallet.toLower ++ ":" ++
                (toString (query.page : ℕ) ++ ":" ++ toString (query.limit : ℕ))
  | .read _ _ _ => True

/-- When an ingest returns, no page of the history of its pool is live, and no pending view
either where nothing was pending to execute. -/
def NoHistoryLeft (world : World RebalanceTable RebalanceView String) :
    Call RebalanceQuery RebalanceEvent → Prop
  | .ingest event elapsed =>
      (ingestRebalance world.tables event (world.now + elapsed)).2 ≠ none →
        ∀ query : RebalanceQuery, query.poolId = event.poolId →
          (served poolRebalances world query (world.now + elapsed)).isSome = true →
            (∃ poolId order, query = .pending poolId order) ∧
              event.findsNothing world.tables.rows = false
  | .read _ _ _ => True

section Keys

variable {wallet poolId : String}

theorem cancelledKey_eq_walletKey {query : CancelledQuery} : cancelledKey query = walletKey wallet ↔
    wallet = query.wallet.toLower ++ ":" ++
      (toString (query.page : ℕ) ++ ":" ++ toString (query.limit : ℕ)) := by
  rw [cancelledKey, walletKey, String.append_right_inj, eq_comm]

/-- The keys that are deleted for a pool are the one of its pending view and one of no page. -/
theorem mem_poolKeys {query : RebalanceQuery} :
    rebalanceKey query ∈ poolKeys query.poolId ↔ ∃ poolId order, query = .pending poolId order := by
  cases query with
  | pending poolId order => exact iff_of_true List.mem_cons_self ⟨poolId, order, rfl⟩
  | history poolId page limit order =>
      refine iff_of_false ?_ (by rintro ⟨_, _, hquery⟩; cases hquery)
      rw [poolKeys, List.mem_pair, rebalanceKey, pendingKey, historyKey, RebalanceQuery.poolId]
      rintro (hpending | hhistory)
      · exact absurd (keyPart_injective (by decide) (by decide) hpending).1 (by decide)
      · obtain ⟨-, hpool⟩ := keyPart_injective (by decide) (by decide) hhistory
        have hlength := congrArg String.length hpool
        simp only [String.length_append] at hlength
        have hcolon : (":" : String).length = 1 := rfl
        omega

/-- The keys that an ingest of orders deletes when it returns. -/
theorem keys_of_ingestBulk {table : CancelledTable} {input : BulkCancellationInput}
    {now : Timestamp} {keys : List String}
    (hreturns : (ingestBulkCancellation table input now).2 = some keys) :
    keys = input.orders.map fun order => walletKey order.wallet.toLower := by
  rw [ingestBulkCancellation] at hreturns
  split at hreturns
  · exact (Option.some.inj hreturns).symm
  · cases hreturns

/-- The keys that an event of a pool deletes when it returns. -/
theorem keys_of_ingestRebalance {table : RebalanceTable} {event : RebalanceEvent}
    {now : Timestamp} {keys : List String}
    (hreturns : (ingestRebalance table event now).2 = some keys) :
    keys = if event.findsNothing table.rows then [] else poolKeys event.poolId := by
  cases event with
  | proposed input =>
      rw [ingestRebalance] at hreturns
      split at hreturns
      · cases hreturns
      · exact (Option.some.inj hreturns).symm
  | executed input order =>
      rw [ingestRebalance] at hreturns
      rw [RebalanceEvent.findsNothing]
      split at hreturns
      · rename_i hnone
        rw [hnone]
        exact (Option.some.inj hreturns).symm
      · rename_i pending hfound
        split at hreturns
        · cases hreturns
        · rw [hfound]
          exact (Option.some.inj hreturns).symm

end Keys

theorem deletesLive_iff_noPageLeft
    (world : World CancelledTable (ViewPage CancelledOrderView) String)
    (call : Call CancelledQuery BulkCancellationInput) :
    DeletesLive bulkCancellation world call ↔ NoPageLeft world call := by
  cases call with
  | read query elapsed loading => exact Iff.rfl
  | ingest input elapsed =>
      constructor
      · intro hdeletes hreturns order horder query hwallet hserved
        obtain ⟨keys, hkeys⟩ := Option.ne_none_iff_exists'.mp hreturns
        have howner : query.wallet.toLower ∈ input.orders.map fun order => order.wallet.toLower :=
          List.mem_map.mpr ⟨order, horder, hwallet.symm⟩
        have hkey := hdeletes keys hkeys query howner hserved
        rw [keys_of_ingestBulk hkeys] at hkey
        obtain ⟨other, hother, hsame⟩ := List.mem_map.mp hkey
        exact ⟨other, hother, cancelledKey_eq_walletKey.mp hsame.symm⟩
      · intro hleft keys hkeys query howner hserved
        obtain ⟨order, horder, hwallet⟩ := List.mem_map.mp howner
        have hreturns :
            (ingestBulkCancellation world.tables input (world.now + elapsed)).2 ≠ none :=
          Option.ne_none_iff_exists'.mpr ⟨keys, hkeys⟩
        obtain ⟨other, hother, hsame⟩ := hleft hreturns order horder query hwallet.symm hserved
        rw [keys_of_ingestBulk hkeys]
        exact List.mem_map.mpr ⟨other, hother, (cancelledKey_eq_walletKey.mpr hsame).symm⟩

theorem deletesLive_iff_noHistoryLeft (world : World RebalanceTable RebalanceView String)
    (call : Call RebalanceQuery RebalanceEvent) :
    DeletesLive poolRebalances world call ↔ NoHistoryLeft world call := by
  cases call with
  | read query elapsed loading => exact Iff.rfl
  | ingest event elapsed =>
      have hkeyIff : ∀ {keys}, (ingestRebalance world.tables event (world.now + elapsed)).2 =
          some keys → ∀ query : RebalanceQuery, query.poolId = event.poolId →
            (rebalanceKey query ∈ keys ↔ (∃ poolId order, query = .pending poolId order) ∧
              event.findsNothing world.tables.rows = false) := by
        intro keys hkeys query hpool
        rw [keys_of_ingestRebalance hkeys, ← hpool]
        cases event.findsNothing world.tables.rows with
        | true => simp
        | false => simpa using mem_poolKeys
      constructor
      · intro hdeletes hreturns query hpool hserved
        obtain ⟨keys, hkeys⟩ := Option.ne_none_iff_exists'.mp hreturns
        exact (hkeyIff hkeys query hpool).mp
          (hdeletes keys hkeys query (List.mem_singleton.mpr hpool) hserved)
      · intro hleft keys hkeys query howner hserved
        have hpool := List.mem_singleton.mp howner
        exact (hkeyIff hkeys query hpool).mpr
          (hleft (Option.ne_none_iff_exists'.mpr ⟨keys, hkeys⟩) query hpool hserved)

/-- After every part of a run no query of either service is served a view from before an event
of its wallet or pool, exactly when no event leaves a live page. -/
theorem views_reflect_iff (cancelled : CancelledTable) (rebalances : RebalanceTable)
    (now : Timestamp) (cancellations : List (Call CancelledQuery BulkCancellationInput))
    (changes : List (Call RebalanceQuery RebalanceEvent)) :
    ((∀ front, front <+: cancellations →
        ServesFresh bulkCancellation (worldAfter bulkCancellation cancelled now front)) ∧
      ∀ front, front <+: changes →
        ServesFresh poolRebalances (worldAfter poolRebalances rebalances now front)) ↔
      (∀ front call rest, cancellations = front ++ call :: rest →
        NoPageLeft (worldAfter bulkCancellation cancelled now front) call) ∧
      ∀ front call rest, changes = front ++ call :: rest →
        NoHistoryLeft (worldAfter poolRebalances rebalances now front) call := by
  rw [servesFresh_iff, servesFresh_iff]
  simp only [deletesLive_iff_noPageLeft, deletesLive_iff_noHistoryLeft]

/-! ## A page that is left -/

def firstPage : CancelledQuery where
  wallet := "G"
  page := 1
  limit := 20
  order := .asStored

def oneCancellation : BulkCancellationInput where
  orders := [{ orderId := "1", wallet := "G", invoiceId := none, refundAmount := 5 }]
  eventId := none
  occurredAt := none

def leftPage : World CancelledTable (ViewPage CancelledOrderView) String :=
  worldAfter bulkCancellation .empty 0 [.read firstPage 0 0, .ingest oneCancellation 0]

/-- The first page of a wallet stays when an order of the wallet is cancelled. -/
theorem firstPage_stays : ¬ServesFresh bulkCancellation leftPage := by
  intro hfresh
  have hserved : (served bulkCancellation leftPage firstPage (leftPage.now + (0 : ℕ))).map
      Entry.storedAt = some 0 := by decide +kernel
  obtain ⟨entry, hentry, hstored⟩ := Option.map_eq_some_iff.mp hserved
  have hlast := hfresh firstPage 0 entry hentry
  rw [hstored] at hlast
  exact absurd hlast (by decide +kernel)

end StellarSettle.EventViews
