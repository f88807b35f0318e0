import StellarSettle.Core.OffsetPages
import StellarSettle.Pagination.QueryPagination
import StellarSettle.Pagination.StoredTimes
import StellarSettle.Projections.Amounts
import StellarSettle.Projections.Numbers

/-!
# The breakdown of a creator's earnings

`getEarnings` counts and adds up the royalty events of a creator, reads them again page by
page, and returns each of them as a transfer.  A `take` of zero leaves a query without a limit
or returns nothing, which is up to the ORM.
-/

namespace StellarSettle.EarningsBreakdown

open StellarSettle.Amounts
open StellarSettle.Entities
open StellarSettle.Numbers
open StellarSettle.OffsetPages
open StellarSettle.OrderedRows
open StellarSettle.QueryPagination
open StellarSettle.StoredTimes
open Std

/-! ## Rows and views -/

structure RoyaltyEvent where
  id : Uuid
  keyAddress : String
  creatorWallet : String
  buyerWallet : Option String
  amount : Amount
  txHash : Option String
  ledgerSequence : Option ℕ
  paidAt : Option StoredTime
  deriving DecidableEq, Repr

/-- A row of `royalty_claims`, as far as the totals read it. -/
structure RoyaltyClaim where
  creatorWallet : String
  amount : Amount
  deriving DecidableEq, Repr

structure Tables where
  royaltyEvents : UniqueRows RoyaltyEvent.id
  royaltyClaims : List RoyaltyClaim

structure RoyaltyTransferView where
  id : Uuid
  keyAddress : String
  buyerWallet : Option String
  amount : Amount
  txHash : Option String
  ledgerSequence : Option ℕ
  paidAt : Option String
  deriving DecidableEq, Repr

structure RoyaltyEarningsView where
  creatorWallet : String
  totalEarned : Amount
  totalClaimed : Amount
  pending : Amount
  transferCount : ℕ
  claimCount : ℕ
  transfers : List RoyaltyTransferView
  computedAt : String
  deriving DecidableEq, Repr

/-! ## The repository -/

def Tables.eventsOf (tables : Tables) (creatorWallet : String) : List RoyaltyEvent :=
  tables.royaltyEvents.rows.filter fun event => event.creatorWallet = creatorWallet

def Tables.claimsOf (tables : Tables) (creatorWallet : String) : List RoyaltyClaim :=
  tables.royaltyClaims.filter fun claim => claim.creatorWallet = creatorWallet

/-- `paidAt DESC, id DESC`. -/
def transferOrder (left right : RoyaltyEvent) : Ordering :=
  (compareDescending left.paidAt right.paidAt).then (compare right.id left.id)

def listTransfers (takesAll : Bool) (tables : Tables) (creatorWallet : String)
    (limit offset : ℕ) : List RoyaltyEvent :=
  let skipped := (sortRows transferOrder (tables.eventsOf creatorWallet)).drop offset
  if limit = 0 ∧ takesAll then skipped else skipped.take limit

/-! ## The service -/

def defaultTransferPageSize : ℕ := 100

def maxTransferPageSize : ℕ := 200

def maxTransferPages : ℕ := 20

def normalizeLimit (value : Option JsNumber) (fallback max : ℕ) : ℕ :=
  match value with
  | some (.finite value) => if value.val ≤ 0 then fallback else min max ⌊value.val⌋.toNat
  | _ => fallback

def transferPageSize (transferLimit : Option JsNumber) : ℕ :=
  normalizeLimit transferLimit defaultTransferPageSize maxTransferPageSize

def listAllTransfers (takesAll : Bool) (tables : Tables) (creatorWallet : String)
    (expectedTotal pageSize : ℕ) : List RoyaltyEvent :=
  collectPages (listTransfers takesAll tables creatorWallet pageSize) pageSize expectedTotal
    maxTransferPages []

/-- The text of a numeric value, read and printed again. -/
def toAmount (amount : Amount) : Amount := amount.value.toFixed

def subtract (minuend subtrahend : Amount) : Amount :=
  let result := minuend.value.minus subtrahend.value
  (if result.isNegative then .number 0 else result).toFixed

def toTransferView (transfer : RoyaltyEvent) : RoyaltyTransferView where
  id := transfer.id
  keyAddress := transfer.keyAddress
  buyerWallet := transfer.buyerWallet
  amount := toAmount transfer.amount
  txHash := transfer.txHash
  ledgerSequence := transfer.ledgerSequence
  paidAt := transfer.paidAt.map fun paidAt => toISOString (toDate paidAt)

/-- The view that `getEarnings` builds when none is cached. -/
def computeEarnings (takesAll : Bool) (tables : Tables) (creatorWallet : String)
    (pageSize : ℕ) (now : Timestamp) : RoyaltyEarningsView :=
  let earned := tables.eventsOf creatorWallet
  let claimed := tables.claimsOf creatorWallet
  let totalEarned := toAmount (columnSum (earned.map RoyaltyEvent.amount))
  let totalClaimed := toAmount (columnSum (claimed.map RoyaltyClaim.amount))
  { creatorWallet := creatorWallet
    totalEarned := totalEarned
    totalClaimed := totalClaimed
    pending := subtract totalEarned totalClaimed
    transferCount := earned.length
    claimCount := claimed.length
    transfers := (listAllTransfers takesAll tables creatorWallet earned.length pageSize).map
      toTransferView
    computedAt := toISOString now }

/-- `cached` is what the cache has under the creator and the page size. -/
def getEarnings (takesAll : Bool) (tables : Tables) (cached : Option RoyaltyEarningsView)
    (creatorWallet : String) (transferLimit : Option JsNumber) (now : Timestamp) :
    RoyaltyEarningsView :=
  match cached with
  | some view => view
  | none =>
    computeEarnings takesAll tables creatorWallet (transferPageSize transferLimit) now

/-! ## Complete breakdowns -/

/-- The transfers that a complete view of the creator's events has. -/
def Tables.transfersOf (tables : Tables) (creatorWallet : String) : List RoyaltyTransferView :=
  (tables.eventsOf creatorWallet).map toTransferView

/-- Every event of the creator is one transfer, and the transfers are what was earned. -/
structure Complete (tables : Tables) (creatorWallet : String) (view : RoyaltyEarningsView) :
    Prop where
  length_eq : view.transfers.length = (tables.eventsOf creatorWallet).length
  distinct : (view.transfers.map RoyaltyTransferView.id).Nodup
  transfers : view.transfers.Perm (tables.transfersOf creatorWallet)
  transferCount : view.transferCount = (tables.eventsOf creatorWallet).length
  totalEarned : columnSum (view.transfers.map RoyaltyTransferView.amount) = view.totalEarned

/-- The pages hold so many events; one page without a limit holds them all. -/
def PagesHold (takesAll : Bool) (count pageSize : ℕ) : Prop :=
  count ≤ maxTransferPages * pageSize ∨ (pageSize = 0 ∧ takesAll)

section Breakdown

variable {takesAll : Bool} {tables : Tables} {creatorWallet : String} {pageSize : ℕ}

theorem listAllTransfers_eq :
    listAllTransfers takesAll tables creatorWallet (tables.eventsOf creatorWallet).length
        pageSize =
      if pageSize = 0 ∧ takesAll then sortRows transferOrder (tables.eventsOf creatorWallet)
      else (sortRows transferOrder (tables.eventsOf creatorWallet)).take
        (maxTransferPages * pageSize) := by
  have hlength := (sortRows_perm transferOrder (tables.eventsOf creatorWallet)).length_eq
  rw [listAllTransfers, ← hlength]
  split
  · rename_i hall
    apply collectPages_unlimited
    intro offset
    rw [listTransfers, if_pos hall]
  · rename_i hlimited
    apply collectPages_nil
    intro offset
    rw [listTransfers, if_neg hlimited]

/-- Where the pages hold the events, they are all collected. -/
theorem listAllTransfers_of_pagesHold
    (hhold : PagesHold takesAll (tables.eventsOf creatorWallet).length pageSize) :
    listAllTransfers takesAll tables creatorWallet (tables.eventsOf creatorWallet).length
        pageSize = sortRows transferOrder (tables.eventsOf creatorWallet) := by
  rw [listAllTransfers_eq]
  split
  · rfl
  · rename_i hlimited
    apply List.take_of_length_le
    rw [(sortRows_perm transferOrder _).length_eq]
    exact hhold.resolve_right hlimited

/-- No other list of pages has as many transfers as there are events. -/
theorem pagesHold_of_length
    (hlength : (listAllTransfers takesAll tables creatorWallet
      (tables.eventsOf creatorWallet).length pageSize).length =
        (tables.eventsOf creatorWallet).length) :
    PagesHold takesAll (tables.eventsOf creatorWallet).length pageSize := by
  rw [listAllTransfers_eq] at hlength
  split at hlength
  · rename_i hall
    exact .inr hall
  · rw [List.length_take, (sortRows_perm transferOrder _).length_eq] at hlength
    exact .inl (min_eq_right_iff.mp hlength)

end Breakdown

/-! ## Totals -/

theorem add_right_comm (total left right : Amount) :
    (total.add left).add right = (total.add right).add left := by
  -- Infinities and NaN absorb numbers whatever these are, so only sums of numbers compute.
  rcases total with count | - | (- | -) <;> rcases left with first | - | (- | -) <;>
    rcases right with second | - | (- | -) <;>
    first
    | rfl
    | exact congrArg Amount.units (Int.add_right_comm count first second)

theorem columnSum_perm {left right : List Amount} (hperm : left.Perm right) :
    columnSum left = columnSum right := by
  have : RightCommutative Amount.add := ⟨add_right_comm⟩
  exact hperm.foldl_eq _

theorem toAmount_eq (amount : Amount) : toAmount amount = amount := by
  cases amount with
  | units count => exact toFixed_ofUnits count
  | nan => rfl
  | infinity negative => rfl

/-! ## Exactly when the breakdown is complete -/

section Views

variable {takesAll : Bool} {tables snapshot : Tables} {creatorWallet : String} {pageSize : ℕ}
variable {now : Timestamp}

theorem length_transfersOf :
    (tables.transfersOf creatorWallet).length = (tables.eventsOf creatorWallet).length :=
  List.length_map _

theorem nodup_transfersOf :
    ((tables.transfersOf creatorWallet).map RoyaltyTransferView.id).Nodup := by
  rw [Tables.transfersOf, List.map_map]
  exact tables.royaltyEvents.unique.sublist (List.filter_sublist.map _)

theorem amounts_transfersOf :
    (tables.transfersOf creatorWallet).map RoyaltyTransferView.amount =
      (tables.eventsOf creatorWallet).map RoyaltyEvent.amount := by
  rw [Tables.transfersOf, List.map_map]
  apply List.map_congr_left
  intro event _
  exact toAmount_eq event.amount

theorem transfers_perm_of_pagesHold
    (hhold : PagesHold takesAll (tables.eventsOf creatorWallet).length pageSize) :
    (computeEarnings takesAll tables creatorWallet pageSize now).transfers.Perm
      (tables.transfersOf creatorWallet) := by
  rw [computeEarnings]
  dsimp only
  rw [listAllTransfers_of_pagesHold hhold]
  exact (sortRows_perm _ _).map _

/-- A view of the same events is complete when the pages hold them. -/
theorem complete_of_pagesHold
    (hhold : PagesHold takesAll (tables.eventsOf creatorWallet).length pageSize)
    (hsame : (snapshot.transfersOf creatorWallet).Perm (tables.transfersOf creatorWallet)) :
    Complete tables creatorWallet
      (computeEarnings takesAll snapshot creatorWallet pageSize now) := by
  have hcount : (snapshot.eventsOf creatorWallet).length =
      (tables.eventsOf creatorWallet).length := by
    rw [← length_transfersOf, hsame.length_eq, length_transfersOf]
  have hview : (computeEarnings takesAll snapshot creatorWallet pageSize now).transfers.Perm
      (snapshot.transfersOf creatorWallet) := transfers_perm_of_pagesHold (hcount ▸ hhold)
  exact
    { length_eq := by rw [hview.length_eq, length_transfersOf, hcount]
      distinct := (hview.map _).nodup_iff.mpr nodup_transfersOf
      transfers := hview.trans hsame
      transferCount := hcount
      totalEarned := by
        rw [columnSum_perm (hview.map _), amounts_transfersOf]
        exact (toAmount_eq _).symm }

/-- A complete view was computed from the same events, and the pages held them. -/
theorem pagesHold_of_complete
    (hcomplete : Complete tables creatorWallet
      (computeEarnings takesAll snapshot creatorWallet pageSize now)) :
    PagesHold takesAll (tables.eventsOf creatorWallet).length pageSize ∧
      (snapshot.transfersOf creatorWallet).Perm (tables.transfersOf creatorWallet) := by
  have hcount : (snapshot.eventsOf creatorWallet).length =
      (tables.eventsOf creatorWallet).length := hcomplete.transferCount
  have hlength := hcomplete.length_eq
  rw [computeEarnings] at hlength
  dsimp only at hlength
  rw [List.length_map, ← hcount] at hlength
  have hhold := pagesHold_of_length hlength
  have hview : (computeEarnings takesAll snapshot creatorWallet pageSize now).transfers.Perm
      (snapshot.transfersOf creatorWallet) := transfers_perm_of_pagesHold hhold
  exact ⟨hcount ▸ hhold, hview.symm.trans hcomplete.transfers⟩

end Views

/-- What the cache has under a creator and a page size was computed by an earlier call, from
the tables as they were then. -/
def cachedEarnings (takesAll : Bool) (snapshot : Option (Tables × Timestamp))
    (creatorWallet : String) (pageSize : ℕ) : Option RoyaltyEarningsView :=
  snapshot.map fun earlier =>
    computeEarnings takesAll earlier.1 creatorWallet pageSize earlier.2

/-- The breakdown is complete exactly when twenty pages hold the events, and a cached view was
computed from the same ones. -/
theorem getEarnings_complete_iff (takesAll : Bool) (tables : Tables)
    (snapshot : Option (Tables × Timestamp)) (creatorWallet : String)
    (transferLimit : Option JsNumber) (now : Timestamp) :
    Complete tables creatorWallet
        (getEarnings takesAll tables
          (cachedEarnings takesAll snapshot creatorWallet (transferPageSize transferLimit))
          creatorWallet transferLimit now) ↔
      PagesHold takesAll (tables.eventsOf creatorWallet).length
          (transferPageSize transferLimit) ∧
        ∀ earlier ∈ snapshot,
          (earlier.1.transfersOf creatorWallet).Perm (tables.transfersOf creatorWallet) := by
  cases snapshot with
  | none =>
      rw [cachedEarnings, Option.map_none, getEarnings]
      constructor
      · intro hcomplete
        exact ⟨(pagesHold_of_complete hcomplete).1, fun _ hnone => nomatch hnone⟩
      · rintro ⟨hhold, -⟩
        exact complete_of_pagesHold hhold (List.Perm.refl _)
  | some earlier =>
      rw [cachedEarnings, Option.map_some, getEarnings]
      constructor
      · intro hcomplete
        obtain ⟨hhold, hsame⟩ := pagesHold_of_complete hcomplete
        refine ⟨hhold, ?_⟩
        intro other hother
        rw [← Option.mem_some.mp hother]
        exact hsame
      · rintro ⟨hhold, hsame⟩
        exact complete_of_pagesHold hhold (hsame earlier rfl)

/-- So many events of one creator, of one unit each. -/
def royaltiesOf (creatorWallet : String) (count : ℕ) : Tables where
  royaltyEvents :=
    { rows := (List.range count).map fun id =>
        ⟨id, "key", creatorWallet, none, .units 10000, none, some id, some id⟩
      unique := by
        rw [List.map_map]
        exact List.nodup_range.map fun _ _ hsame => hsame }
  royaltyClaims := []

/-- With one transfer a page, the last of twenty-one events is left out. -/
theorem royalties_truncated :
    ¬Complete (royaltiesOf "creator" 21) "creator"
      (getEarnings true (royaltiesOf "creator" 21) none "creator"
        (some (.finite (Double.ofInt 1 (by decide)))) 0) := by
  intro hcomplete
  exact absurd hcomplete.length_eq (by decide +kernel)

end StellarSettle.EarningsBreakdown
