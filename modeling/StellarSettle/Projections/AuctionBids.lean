import StellarSettle.Core.FoldedRuns
import StellarSettle.Core.UniqueColumns
import StellarSettle.Model.DecimalJs
import StellarSettle.Model.Entities
import StellarSettle.Projections.Numbers

/-!
# Auctions on the secondary market

The state of an auction is assembled from the events that create it, place bids and settle it.
An amount is the value of its text: a column rounds it to four decimals, and the comparison of
two bids rounds both to doubles.  `eventId` is optional in the source; what is said of events
that are delivered again is about events that have one.
-/

namespace StellarSettle.AuctionBids

open StellarSettle.DecimalJs
open StellarSettle.Entities
open StellarSettle.FoldedRuns
open StellarSettle.KeyedRows
open StellarSettle.Numbers
open StellarSettle.UniqueColumns

/-! ## Events and rows -/

structure AuctionCreatedEvent where
  auctionId : String
  seller : String
  invoiceId : Option Uuid
  reservePrice : Decimal
  startsAt : Option Timestamp
  endsAt : Option Timestamp
  eventId : String
  occurredAt : Option Timestamp
  deriving DecidableEq, Repr

structure BidPlacedEvent where
  auctionId : String
  bidder : String
  amount : Decimal
  eventId : String
  occurredAt : Option Timestamp
  deriving DecidableEq, Repr

structure AuctionSettledEvent where
  auctionId : String
  winner : Option String
  settlementAmount : Option Decimal
  eventId : String
  occurredAt : Option Timestamp
  deriving DecidableEq, Repr

inductive AuctionStatus where
  | active
  | settled
  | cancelled
  deriving DecidableEq, Repr

/-- A row of `secondary_auctions`; prices are in units of the column. -/
structure SecondaryAuction where
  auctionId : String
  seller : String
  invoiceId : Option Uuid
  status : AuctionStatus
  highestBid : ℤ
  highestBidder : Option String
  reservePrice : ℤ
  bidCount : ℕ
  startsAt : Option Timestamp
  endsAt : Option Timestamp
  settledAt : Option Timestamp
  winner : Option String
  settlementAmount : Option ℤ
  createdEventId : Option String
  deriving DecidableEq, Repr

/-- A row of `secondary_bids`; `placedAmount` is the amount of the event, and nothing reads
it. -/
structure SecondaryBid where
  id : Uuid
  auctionId : String
  bidder : String
  amount : ℤ
  eventId : Option String
  placedAt : Option Timestamp
  placedAmount : Decimal
  deriving DecidableEq, Repr

structure Tables where
  auctions : List SecondaryAuction
  bids : UniqueTable SecondaryBid.id [SecondaryBid.eventId]

def findAuction (tables : Tables) (auctionId : String) : Option SecondaryAuction :=
  findRow SecondaryAuction.auctionId tables.auctions auctionId

def saveAuction (tables : Tables) (row : SecondaryAuction) : Tables :=
  { tables with auctions := saveRow SecondaryAuction.auctionId tables.auctions row }

/-- What a `decimal(18,4)` column makes of an amount, unless it overflows. -/
def toColumn (amount : Decimal) : Option ℤ :=
  if |toFixed4 amount| < 10 ^ 18 then some (toFixed4 amount) else none

/-! ## Ingestion -/

/-- The row of an auction that is created, or created again. -/
def createdRow (old : Option SecondaryAuction) (event : AuctionCreatedEvent) (reservePrice : ℤ)
    (now : Timestamp) : SecondaryAuction where
  auctionId := event.auctionId
  seller := event.seller
  invoiceId := event.invoiceId
  status := (old.map SecondaryAuction.status).getD .active
  highestBid := (old.map SecondaryAuction.highestBid).getD 0
  highestBidder := old.bind SecondaryAuction.highestBidder
  reservePrice := reservePrice
  bidCount := (old.map SecondaryAuction.bidCount).getD 0
  startsAt := some (event.startsAt.getD (event.occurredAt.getD now))
  endsAt := event.endsAt
  settledAt := old.bind SecondaryAuction.settledAt
  winner := old.bind SecondaryAuction.winner
  settlementAmount := old.bind SecondaryAuction.settlementAmount
  createdEventId :=
    if event.eventId = "" then old.bind SecondaryAuction.createdEventId else some event.eventId

def ingestAuctionCreated (tables : Tables) (event : AuctionCreatedEvent) (now : Timestamp) :
    Option Tables :=
  (toColumn event.reservePrice).map fun reservePrice =>
    saveAuction tables
      (createdRow (findAuction tables event.auctionId) event reservePrice now)

/-- The bids with the row of a bid, unless its amount overflows or its id is taken. -/
def saveBid (tables : Tables) (event : BidPlacedEvent) (now : Timestamp) :
    Option (UniqueTable SecondaryBid.id [SecondaryBid.eventId]) :=
  (toColumn event.amount).bind fun amount =>
    tables.bids.save
      { id := freshKey SecondaryBid.id tables.bids.rows
        auctionId := event.auctionId
        bidder := event.bidder
        amount := amount
        eventId := some event.eventId
        placedAt := some (event.occurredAt.getD now)
        placedAmount := event.amount }

/-- `bidCount === 1 || amount > currentHighest`, with the count before the bid. -/
def Overtakes (auction : SecondaryAuction) (event : BidPlacedEvent) : Bool :=
  auction.bidCount = 0 ∨
    (JsNumber.ofRat (ofUnits auction.highestBid)).lt (JsNumber.ofRat event.amount)

def bidRow (auction : SecondaryAuction) (event : BidPlacedEvent) : SecondaryAuction :=
  let counted := { auction with bidCount := auction.bidCount + 1 }
  if Overtakes auction event then
    { counted with
      highestBid := toFixed4 event.amount
      highestBidder := some event.bidder }
  else counted

def ingestBidPlaced (tables : Tables) (event : BidPlacedEvent) (now : Timestamp) :
    Option Tables :=
  match findAuction tables event.auctionId with
  | none => none
  | some auction =>
    (saveBid tables event now).map fun bids =>
      saveAuction { tables with bids := bids } (bidRow auction event)

/-- `settlementAmount ?? highestBid`, as the column keeps it. -/
def settlementUnits (old : SecondaryAuction) (event : AuctionSettledEvent) : Option ℤ :=
  match event.settlementAmount with
  | some amount => toColumn amount
  | none => some old.highestBid

def settledRow (old : SecondaryAuction) (event : AuctionSettledEvent) (settlementAmount : ℤ)
    (now : Timestamp) : SecondaryAuction :=
  { old with
    status := .settled
    settledAt := some (event.occurredAt.getD now)
    winner := event.winner.or old.highestBidder
    settlementAmount := some settlementAmount }

def ingestAuctionSettled (tables : Tables) (event : AuctionSettledEvent) (now : Timestamp) :
    Option Tables :=
  match findAuction tables event.auctionId with
  | none => none
  | some old =>
    (settlementUnits old event).map fun settlementAmount =>
      saveAuction tables (settledRow old event settlementAmount now)

/-! ## Deliveries -/

inductive Event where
  | created (event : AuctionCreatedEvent)
  | bid (event : BidPlacedEvent)
  | settled (event : AuctionSettledEvent)
  deriving DecidableEq, Repr

structure Delivery where
  event : Event
  now : Timestamp
  deriving DecidableEq, Repr

def ingest (tables : Tables) (delivery : Delivery) : Option Tables :=
  match delivery.event with
  | .created event => ingestAuctionCreated tables event delivery.now
  | .bid event => ingestBidPlaced tables event delivery.now
  | .settled event => ingestAuctionSettled tables event delivery.now

/-- A call that throws changes nothing. -/
def deliver (tables : Tables) (delivery : Delivery) : Tables :=
  (ingest tables delivery).getD tables

def noAuctions : Tables := ⟨[], UniqueTable.empty⟩

/-- The tables after the deliveries, from empty ones. -/
def deliverAll (deliveries : List Delivery) : Tables := deliveries.foldl deliver noAuctions

/-! ## What the state of an auction should be -/

/-- The bid events of an auction that were ingested; no two of them have one event id. -/
def Tables.bidsOf (tables : Tables) (auctionId : String) : List SecondaryBid :=
  tables.bids.rows.filter fun bid => bid.auctionId = auctionId

/-- The highest bid and its bidder are those of a bid that no other exceeds. -/
def HasHighest (bids : List SecondaryBid) (auction : SecondaryAuction) : Prop :=
  ∃ bid ∈ bids, ofUnits auction.highestBid = bid.placedAmount ∧
    auction.highestBidder = some bid.bidder ∧
    ∀ other ∈ bids, other.placedAmount ≤ bid.placedAmount

instance (bids : List SecondaryBid) (auction : SecondaryAuction) :
    Decidable (HasHighest bids auction) := by
  unfold HasHighest
  infer_instance

structure Tallied (bids : List SecondaryBid) (auction : SecondaryAuction) : Prop where
  bidCount : auction.bidCount = bids.length
  highest : bids ≠ [] → HasHighest bids auction

def AllTallied (tables : Tables) : Prop :=
  ∀ auction ∈ tables.auctions, Tallied (tables.bidsOf auction.auctionId) auction

/-- What is settled stays as it is. -/
def SettledKept (before after : Tables) : Prop :=
  ∀ auction ∈ before.auctions, auction.status = .settled → auction ∈ after.auctions

/-- After each front of the deliveries every auction is tallied, and what is settled by then is
the same after every longer front. -/
def StateRight (deliveries : List Delivery) : Prop :=
  ∀ front later, front ++ later <+: deliveries →
    AllTallied (deliverAll front) ∧ SettledKept (deliverAll front) (deliverAll (front ++ later))

/-! ## Deliveries that keep it -/

/-- A bid that is the first or exceeds the highest has at most four decimals, and exceeds it as
a double too. -/
def Distinguished (auction : SecondaryAuction) (event : BidPlacedEvent) : Prop :=
  auction.bidCount = 0 ∨ ofUnits auction.highestBid < event.amount →
    decimalPlacesAtMost 4 event.amount ∧ Overtakes auction event

/-- An event on a settled auction repeats what is stored, and a bid that is taken is placed
before the settlement and told apart from the highest one. -/
def Sparing (tables : Tables) (delivery : Delivery) : Prop :=
  match delivery.event with
  | .created event =>
    ∀ old ∈ findAuction tables event.auctionId, old.status = .settled →
      ∀ reservePrice ∈ toColumn event.reservePrice,
        createdRow (some old) event reservePrice delivery.now = old
  | .bid event =>
    ∀ auction ∈ findAuction tables event.auctionId, (saveBid tables event delivery.now).isSome →
      auction.status ≠ .settled ∧ Distinguished auction event
  | .settled event =>
    ∀ old ∈ findAuction tables event.auctionId, old.status = .settled →
      ∀ settlementAmount ∈ settlementUnits old event,
        settledRow old event settlementAmount delivery.now = old

/-! ## Saving the row of an auction -/

/-- Auctions have an id each, and only known auctions have bids. -/
structure Sound (tables : Tables) : Prop where
  keys : (tables.auctions.map SecondaryAuction.auctionId).Nodup
  known : ∀ bid ∈ tables.bids.rows,
    ∃ auction ∈ tables.auctions, auction.auctionId = bid.auctionId

section Saves

variable {tables : Tables} {row old auction : SecondaryAuction} {auctionId : String}

theorem mem_of_findAuction (hfound : findAuction tables auctionId = some auction) :
    auction ∈ tables.auctions ∧ auction.auctionId = auctionId :=
  mem_of_findRow hfound

theorem findAuction_of_mem (hsound : Sound tables) (hmem : auction ∈ tables.auctions) :
    findAuction tables auction.auctionId = some auction :=
  findRow_of_mem hsound.keys hmem

theorem bidsOf_eq_nil (hsound : Sound tables) (hmissing : findAuction tables auctionId = none) :
    tables.bidsOf auctionId = [] := by
  rw [Tables.bidsOf, List.filter_eq_nil_iff]
  intro bid hbid hsame
  obtain ⟨auction, hmem, hid⟩ := hsound.known bid hbid
  exact findRow_eq_none.mp hmissing auction hmem (hid.trans (of_decide_eq_true hsame))

theorem sound_saveAuction (hsound : Sound tables) : Sound (saveAuction tables row) where
  keys := nodup_saveRow hsound.keys
  known := by
    intro bid hbid
    obtain ⟨auction, hmem, hid⟩ := hsound.known bid hbid
    by_cases hsame : auction.auctionId = row.auctionId
    · exact ⟨row, mem_saveRow_self, hsame.symm.trans hid⟩
    · exact ⟨auction, mem_saveRow.mpr (.inr ⟨hmem, hsame⟩), hid⟩

/-- The settled auctions are kept exactly when the row of one is saved as it is. -/
theorem settledKept_saveAuction (hsound : Sound tables) (bids) (hid : row.auctionId = auctionId) :
    SettledKept tables (saveAuction { tables with bids := bids } row) ↔
      ∀ old ∈ findAuction tables auctionId, old.status = .settled → row = old := by
  subst hid
  constructor
  · intro hkept old hold hsettled
    obtain ⟨hmem, hid⟩ := mem_of_findAuction hold
    rcases mem_saveRow.mp (hkept old hmem hsettled) with hsame | ⟨-, hother⟩
    · exact hsame.symm
    · exact absurd hid hother
  · intro hsame auction hmem hsettled
    apply mem_saveRow.mpr
    by_cases hid : auction.auctionId = row.auctionId
    · have hfound := findAuction_of_mem hsound hmem
      rw [hid] at hfound
      exact .inl (hsame auction hfound hsettled).symm
    · exact .inr ⟨hmem, hid⟩

theorem Tallied.congr {bids : List SecondaryBid} (htallied : Tallied bids old)
    (hcount : row.bidCount = old.bidCount) (hhighest : row.highestBid = old.highestBid)
    (hbidder : row.highestBidder = old.highestBidder) : Tallied bids row where
  bidCount := hcount.trans htallied.bidCount
  highest := by
    intro hsome
    obtain ⟨bid, hbid, hamount, hname, hothers⟩ := htallied.highest hsome
    exact ⟨bid, hbid, by rw [hhighest, hamount], by rw [hbidder, hname], hothers⟩

theorem tallied_nil (hcount : row.bidCount = 0) : Tallied [] row :=
  ⟨hcount, fun hsome => absurd rfl hsome⟩

/-- Saving a row that is tallied leaves every auction tallied. -/
theorem allTallied_saveAuction (htallied : AllTallied tables)
    (hrow : Tallied (tables.bidsOf row.auctionId) row) : AllTallied (saveAuction tables row) := by
  intro auction hmem
  rcases mem_saveRow.mp hmem with rfl | ⟨hother, -⟩
  · exact hrow
  · exact htallied auction hother

end Saves

/-! ## Creations and settlements -/

section Steps

variable {tables after : Tables} {now : Timestamp}

theorem tallied_createdRow (hsound : Sound tables) (htallied : AllTallied tables)
    (event : AuctionCreatedEvent) (reservePrice : ℤ) :
    Tallied (tables.bidsOf event.auctionId)
      (createdRow (findAuction tables event.auctionId) event reservePrice now) := by
  cases hfound : findAuction tables event.auctionId with
  | none =>
      rw [bidsOf_eq_nil hsound hfound]
      exact tallied_nil rfl
  | some old =>
      obtain ⟨hmem, hid⟩ := mem_of_findAuction hfound
      have hold := htallied old hmem
      rw [hid] at hold
      exact hold.congr rfl rfl rfl

theorem created_iff (hsound : Sound tables) (htallied : AllTallied tables)
    {event : AuctionCreatedEvent} (hingest : ingestAuctionCreated tables event now = some after) :
    AllTallied after ∧ SettledKept tables after ↔
      ∀ old ∈ findAuction tables event.auctionId, old.status = .settled →
        ∀ reservePrice ∈ toColumn event.reservePrice,
          createdRow (some old) event reservePrice now = old := by
  obtain ⟨reservePrice, hcolumn, rfl⟩ := Option.map_eq_some_iff.mp hingest
  have hall : AllTallied (saveAuction tables
      (createdRow (findAuction tables event.auctionId) event reservePrice now)) :=
    allTallied_saveAuction htallied (tallied_createdRow hsound htallied event reservePrice)
  have hid : (createdRow (findAuction tables event.auctionId) event reservePrice now).auctionId =
      event.auctionId := rfl
  have hkept := settledKept_saveAuction hsound tables.bids hid
  constructor
  · rintro ⟨-, hsettled⟩ old hold hstatus other hother
    have hsame := hkept.mp hsettled old hold hstatus
    rw [Option.mem_def] at hold hother
    rw [hold] at hsame
    rwa [← Option.some.inj (hcolumn.symm.trans hother)]
  · intro hguard
    refine ⟨hall, hkept.mpr ?_⟩
    intro old hold hstatus
    have hsame := hguard old hold hstatus reservePrice hcolumn
    rw [Option.mem_def.mp hold]
    exact hsame

theorem settled_iff (hsound : Sound tables) (htallied : AllTallied tables)
    {event : AuctionSettledEvent} (hingest : ingestAuctionSettled tables event now = some after) :
    AllTallied after ∧ SettledKept tables after ↔
      ∀ old ∈ findAuction tables event.auctionId, old.status = .settled →
        ∀ settlementAmount ∈ settlementUnits old event,
          settledRow old event settlementAmount now = old := by
  rw [ingestAuctionSettled] at hingest
  cases hfound : findAuction tables event.auctionId with
  | none =>
      rw [hfound] at hingest
      cases hingest
  | some old =>
      rw [hfound] at hingest
      obtain ⟨settlementAmount, hunits, rfl⟩ := Option.map_eq_some_iff.mp hingest
      obtain ⟨hmem, hid⟩ := mem_of_findAuction hfound
      have hall : AllTallied (saveAuction tables (settledRow old event settlementAmount now)) :=
        allTallied_saveAuction htallied ((htallied old hmem).congr rfl rfl rfl)
      have hkept : SettledKept tables (saveAuction tables
          (settledRow old event settlementAmount now)) ↔ _ :=
        settledKept_saveAuction hsound tables.bids hid
      rw [hfound] at hkept
      constructor
      · rintro ⟨-, hsettled⟩ stored hstored hstatus other hother
        obtain rfl := Option.mem_some.mp hstored
        rw [← Option.some.inj (hunits.symm.trans hother)]
        exact hkept.mp hsettled old rfl hstatus
      · intro hguard
        refine ⟨hall, hkept.mpr ?_⟩
        intro stored hstored hstatus
        obtain rfl := Option.mem_some.mp hstored
        exact hguard old rfl hstatus settlementAmount hunits

end Steps

/-! ## Bids -/

section Bids

variable {auction : SecondaryAuction} {event : BidPlacedEvent} {bids : List SecondaryBid}
variable {placed : SecondaryBid}

/-- The auction's highest bid is a maximal one after a bid exactly when the bid is distinguished
from those before it. -/
theorem hasHighest_bidRow_iff (htallied : Tallied bids auction)
    (hamount : placed.placedAmount = event.amount) (hbidder : placed.bidder = event.bidder) :
    HasHighest (bids ++ [placed]) (bidRow auction event) ↔ Distinguished auction event := by
  by_cases hovertakes : Overtakes auction event = true
  · rw [bidRow, if_pos hovertakes, Distinguished]
    have hbelow : ∀ other ∈ bids, other.placedAmount < event.amount := by
      intro other hother
      obtain ⟨bid, -, hvalue, -, hothers⟩ := htallied.highest (List.ne_nil_of_mem hother)
      apply (hothers other hother).trans_lt
      rw [← hvalue]
      rcases of_decide_eq_true hovertakes with hfirst | hless
      · rw [htallied.bidCount, List.length_eq_zero_iff] at hfirst
        rw [hfirst] at hother
        cases hother
      · exact JsNumber.lt_of_ofRat_lt hless
    constructor
    · rintro ⟨bid, hbid, hvalue, -, hothers⟩ -
      refine ⟨?_, hovertakes⟩
      have hplaced : event.amount ≤ bid.placedAmount := by
        rw [← hamount]
        exact hothers placed (List.mem_append_right _ List.mem_cons_self)
      rcases List.mem_append.mp hbid with hold | hnew
      · exact absurd (hbelow bid hold) hplaced.not_gt
      · obtain rfl := List.mem_singleton.mp hnew
        rw [← hamount, ← hvalue]
        exact decimalPlacesAtMost_ofUnits _
    · intro hdistinguished
      have hexceeds : auction.bidCount = 0 ∨ ofUnits auction.highestBid < event.amount := by
        apply (of_decide_eq_true hovertakes).imp_right
        exact JsNumber.lt_of_ofRat_lt
      refine ⟨placed, List.mem_append_right _ List.mem_cons_self, ?_, congrArg some hbidder.symm,
        ?_⟩
      · rw [hamount]
        exact ofUnits_toFixed4 (hdistinguished hexceeds).1
      · intro other hother
        rcases List.mem_append.mp hother with hold | hnew
        · rw [hamount]
          exact (hbelow other hold).le
        · rw [List.mem_singleton.mp hnew]
  · rw [bidRow, if_neg hovertakes, Distinguished]
    have hsome : bids ≠ [] := by
      intro hnone
      apply hovertakes
      apply decide_eq_true
      left
      rw [htallied.bidCount, hnone]
      rfl
    have hcount : auction.bidCount ≠ 0 := by
      rw [htallied.bidCount]
      exact fun hzero => hsome (List.length_eq_zero_iff.mp hzero)
    constructor
    · rintro ⟨bid, -, hvalue, -, hothers⟩ hexceeds
      have hplaced := hothers placed (List.mem_append_right _ List.mem_cons_self)
      rw [hamount, ← hvalue] at hplaced
      exact absurd (hexceeds.resolve_left hcount) (not_lt.mpr hplaced)
    · intro hdistinguished
      obtain ⟨bid, hbid, hvalue, hname, hothers⟩ := htallied.highest hsome
      refine ⟨bid, List.mem_append_left _ hbid, hvalue, hname, ?_⟩
      intro other hother
      rcases List.mem_append.mp hother with hold | hnew
      · exact hothers other hold
      · rw [List.mem_singleton.mp hnew, hamount, ← hvalue]
        by_contra hless
        exact hovertakes (hdistinguished (.inr (not_le.mp hless))).2

theorem tallied_bidRow_iff (htallied : Tallied bids auction)
    (hamount : placed.placedAmount = event.amount) (hbidder : placed.bidder = event.bidder) :
    Tallied (bids ++ [placed]) (bidRow auction event) ↔ Distinguished auction event := by
  rw [← hasHighest_bidRow_iff htallied hamount hbidder]
  constructor
  · intro htally
    exact htally.highest (List.append_ne_nil_of_right_ne_nil _ (List.cons_ne_nil _ _))
  · intro hhighest
    refine ⟨?_, fun _ => hhighest⟩
    rw [List.length_append, ← htallied.bidCount, bidRow]
    split <;> rfl

end Bids

section BidSteps

variable {tables after : Tables} {now : Timestamp} {event : BidPlacedEvent}

/-- What a bid that is taken adds to the bids. -/
theorem rows_of_saveBid {bids} (hsave : saveBid tables event now = some bids) :
    ∃ placed, bids.rows = tables.bids.rows ++ [placed] ∧ placed.auctionId = event.auctionId ∧
      placed.placedAmount = event.amount ∧ placed.bidder = event.bidder := by
  obtain ⟨amount, -, hsaved⟩ := Option.bind_eq_some_iff.mp hsave
  obtain ⟨-, hrows⟩ := UniqueTable.rows_of_save hsaved
  exact ⟨_, hrows.trans (saveRow_freshKey rfl), rfl, rfl, rfl⟩

theorem bidsOf_append {bids} {placed : SecondaryBid}
    (hrows : bids.rows = tables.bids.rows ++ [placed]) (auctionId : String) :
    Tables.bidsOf { tables with bids := bids } auctionId =
      tables.bidsOf auctionId ++ if placed.auctionId = auctionId then [placed] else [] := by
  rw [Tables.bidsOf, hrows, List.filter_append, Tables.bidsOf]
  congr 1
  by_cases hsame : placed.auctionId = auctionId
  · rw [if_pos hsame]
    exact List.filter_cons_of_pos (decide_eq_true hsame)
  · rw [if_neg hsame]
    exact List.filter_cons_of_neg (by simpa using hsame)

theorem auctionId_bidRow (auction : SecondaryAuction) :
    (bidRow auction event).auctionId = auction.auctionId := by
  rw [bidRow]
  split <;> rfl

theorem bidRow_ne (auction : SecondaryAuction) : bidRow auction event ≠ auction := by
  intro hsame
  have hcount := congrArg SecondaryAuction.bidCount hsame
  rw [bidRow] at hcount
  split at hcount <;> exact absurd hcount (Nat.succ_ne_self _)

/-- Only the auction of the bid has its tally to keep. -/
theorem allTallied_bidRow_iff (htallied : AllTallied tables) {auction : SecondaryAuction}
    (hmem : auction ∈ tables.auctions) {bids} {placed : SecondaryBid}
    (hrows : bids.rows = tables.bids.rows ++ [placed])
    (hplaced : placed.auctionId = auction.auctionId)
    (hamount : placed.placedAmount = event.amount) (hbidder : placed.bidder = event.bidder) :
    AllTallied (saveAuction { tables with bids := bids } (bidRow auction event)) ↔
      Distinguished auction event := by
  have hown : Tables.bidsOf { tables with bids := bids } auction.auctionId =
      tables.bidsOf auction.auctionId ++ [placed] := by
    rw [bidsOf_append hrows, if_pos hplaced]
  rw [← tallied_bidRow_iff (htallied auction hmem) hamount hbidder, ← hown]
  constructor
  · intro hall
    have hrow := hall (bidRow auction event) mem_saveRow_self
    rwa [auctionId_bidRow] at hrow
  · intro hrow other hother
    rcases mem_saveRow.mp hother with rfl | ⟨hold, hid⟩
    · rw [auctionId_bidRow]
      exact hrow
    · rw [auctionId_bidRow, ← hplaced] at hid
      have hsame : Tables.bidsOf { tables with bids := bids } other.auctionId =
          tables.bidsOf other.auctionId := by
        rw [bidsOf_append hrows, if_neg (Ne.symm hid), List.append_nil]
      change Tallied (Tables.bidsOf { tables with bids := bids } other.auctionId) other
      rw [hsame]
      exact htallied other hold

theorem bid_iff (hsound : Sound tables) (htallied : AllTallied tables)
    (hingest : ingestBidPlaced tables event now = some after) :
    AllTallied after ∧ SettledKept tables after ↔
      ∀ auction ∈ findAuction tables event.auctionId, (saveBid tables event now).isSome →
        auction.status ≠ .settled ∧ Distinguished auction event := by
  rw [ingestBidPlaced] at hingest
  cases hfound : findAuction tables event.auctionId with
  | none =>
      rw [hfound] at hingest
      cases hingest
  | some auction =>
      rw [hfound] at hingest
      obtain ⟨bids, hsave, rfl⟩ := Option.map_eq_some_iff.mp hingest
      obtain ⟨placed, hrows, hplaced, hamount, hbidder⟩ := rows_of_saveBid hsave
      obtain ⟨hmem, hid⟩ := mem_of_findAuction hfound
      have hrow : (bidRow auction event).auctionId = event.auctionId :=
        (auctionId_bidRow auction).trans hid
      have hkept := settledKept_saveAuction hsound bids hrow
      rw [allTallied_bidRow_iff htallied hmem hrows (hplaced.trans hid.symm) hamount hbidder,
        hkept, hfound]
      constructor
      · rintro ⟨hdistinguished, hsame⟩ stored hstored -
        obtain rfl := Option.mem_some.mp hstored
        exact ⟨fun hsettled => bidRow_ne auction (hsame auction rfl hsettled), hdistinguished⟩
      · intro hguard
        obtain ⟨hopen, hdistinguished⟩ := hguard auction rfl (hsave ▸ rfl)
        refine ⟨hdistinguished, ?_⟩
        intro stored hstored hsettled
        obtain rfl := Option.mem_some.mp hstored
        exact absurd hsettled hopen

end BidSteps

/-! ## Runs -/

section Runs

variable {tables : Tables} {delivery : Delivery}

theorem sound_deliver (hsound : Sound tables) (delivery : Delivery) :
    Sound (deliver tables delivery) := by
  rw [deliver]
  cases hingest : ingest tables delivery with
  | none => exact hsound
  | some after =>
      rw [Option.getD_some]
      rw [ingest] at hingest
      cases hevent : delivery.event with
      | created event =>
          rw [hevent] at hingest
          obtain ⟨reservePrice, -, rfl⟩ := Option.map_eq_some_iff.mp hingest
          exact sound_saveAuction hsound
      | settled event =>
          rw [hevent] at hingest
          dsimp only at hingest
          rw [ingestAuctionSettled] at hingest
          split at hingest
          · cases hingest
          · obtain ⟨settlementAmount, -, rfl⟩ := Option.map_eq_some_iff.mp hingest
            exact sound_saveAuction hsound
      | bid event =>
          rw [hevent] at hingest
          dsimp only at hingest
          rw [ingestBidPlaced] at hingest
          split at hingest
          · cases hingest
          · rename_i auction hfound
            obtain ⟨bids, hsave, rfl⟩ := Option.map_eq_some_iff.mp hingest
            obtain ⟨placed, hrows, hplaced, -, -⟩ := rows_of_saveBid hsave
            obtain ⟨hmem, hid⟩ := mem_of_findAuction hfound
            apply sound_saveAuction
            refine ⟨hsound.keys, ?_⟩
            intro bid hbid
            rw [hrows] at hbid
            rcases List.mem_append.mp hbid with hold | hnew
            · exact hsound.known bid hold
            · rw [List.mem_singleton.mp hnew]
              exact ⟨auction, hmem, hid.trans hplaced.symm⟩

theorem settledKept_refl (tables : Tables) : SettledKept tables tables :=
  fun _ hmem _ => hmem

theorem SettledKept.trans {first second third : Tables} (hfirst : SettledKept first second)
    (hsecond : SettledKept second third) : SettledKept first third :=
  fun auction hmem hsettled => hsecond auction (hfirst auction hmem hsettled) hsettled

/-- A call that throws spares the tables. -/
theorem sparing_of_thrown (hthrown : ingest tables delivery = none) : Sparing tables delivery := by
  rw [ingest] at hthrown
  rw [Sparing]
  cases hevent : delivery.event with
  | created event =>
      rw [hevent] at hthrown
      intro _ _ _ reservePrice hcolumn
      rw [Option.map_eq_none_iff.mp hthrown] at hcolumn
      cases hcolumn
  | bid event =>
      rw [hevent] at hthrown
      intro auction hfound hsaved
      dsimp only at hthrown
      rw [ingestBidPlaced, Option.mem_def.mp hfound] at hthrown
      rw [Option.map_eq_none_iff.mp hthrown] at hsaved
      cases hsaved
  | settled event =>
      rw [hevent] at hthrown
      intro old hfound _ settlementAmount hunits
      dsimp only at hthrown
      rw [ingestAuctionSettled, Option.mem_def.mp hfound] at hthrown
      rw [Option.map_eq_none_iff.mp hthrown] at hunits
      cases hunits

/-- A delivery keeps the tallies and the settled auctions exactly when it is sparing. -/
theorem sparing_iff (hsound : Sound tables) (htallied : AllTallied tables) :
    AllTallied (deliver tables delivery) ∧ SettledKept tables (deliver tables delivery) ↔
      Sparing tables delivery := by
  rw [deliver]
  cases hingest : ingest tables delivery with
  | none => exact iff_of_true ⟨htallied, settledKept_refl tables⟩ (sparing_of_thrown hingest)
  | some after =>
      rw [Option.getD_some, Sparing]
      rw [ingest] at hingest
      cases hevent : delivery.event with
      | created event =>
          rw [hevent] at hingest
          exact created_iff hsound htallied hingest
      | bid event =>
          rw [hevent] at hingest
          exact bid_iff hsound htallied hingest
      | settled event =>
          rw [hevent] at hingest
          exact settled_iff hsound htallied hingest

theorem sound_deliverAll (deliveries : List Delivery) : Sound (deliverAll deliveries) := by
  induction deliveries using List.reverseRecOn with
  | nil => exact ⟨List.nodup_nil, fun _ hnone => nomatch hnone⟩
  | append_singleton front delivery ih =>
      rw [deliverAll, List.foldl_append]
      exact sound_deliver ih delivery

end Runs

/-- The tables of a run whose auctions are tallied. -/
def Regular (tables : Tables) : Prop := Sound tables ∧ AllTallied tables

theorem regular_iff {tables : Tables} {delivery : Delivery} (hregular : Regular tables) :
    Regular (deliver tables delivery) ∧ SettledKept tables (deliver tables delivery) ↔
      Sparing tables delivery := by
  rw [← sparing_iff hregular.1 hregular.2, Regular, and_assoc]
  exact and_iff_right (sound_deliver hregular.1 delivery)

def lot : AuctionCreatedEvent := ⟨"lot", "GSELLER", none, 0, none, none, "created", some 1⟩

/-- The second bid exceeds the first by one unit of the column. -/
def closeBids : List Delivery :=
  [⟨.created lot, 1⟩,
    ⟨.bid ⟨"lot", "GFIRST", 90000000000000, "bid-1", some 2⟩, 2⟩,
    ⟨.bid ⟨"lot", "GSECOND", 90000000000000 + 1 / 10000, "bid-2", some 3⟩, 3⟩]

/-- The lot after both bids. -/
def closeLot : SecondaryAuction where
  auctionId := "lot"
  seller := "GSELLER"
  invoiceId := none
  status := .active
  highestBid := 900000000000000000
  highestBidder := some "GFIRST"
  reservePrice := 0
  bidCount := 2
  startsAt := some 1
  endsAt := none
  settledAt := none
  winner := none
  settlementAmount := none
  createdEventId := some "created"

end StellarSettle.AuctionBids
