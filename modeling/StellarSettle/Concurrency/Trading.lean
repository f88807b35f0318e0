import StellarSettle.Core.RowLock
import StellarSettle.Concurrency.Machine
import StellarSettle.Investments.MarketQuantity

/-!
# Trading on one invoice

Listings, purchases, cancellations and refunds as processes over one database.
`createListing` and `buyListing` hold the invoice row, and `buyListing` its listing's
row before that; `cancelListing` reads its listing without a lock and saves the whole
entity later, when the row is free.  The clock never goes back.
-/

namespace StellarSettle.Trading

open StellarSettle.Checks
open StellarSettle.Entities
open StellarSettle.InvoiceRefund
open StellarSettle.Machine
open StellarSettle.MarketQuantity
open StellarSettle.RowLock
open StellarSettle.SecondaryMarket
open StellarSettle.TransitionSystem

/-! ## Cancelling a listing -/

structure CancelListingInput where
  listingId : Uuid
  sellerWallet : String
  sellerId : Option Uuid
  deriving DecidableEq, Repr

def storedListing (db : Database) (id : Uuid) : Option SecondaryListing :=
  db.listings.find? fun listing => listing.id == id

/-- The read of the listing, and the entity that is saved later. -/
def readToCancel (db : Database) (input : CancelListingInput) :
    Except Thrown SecondaryListing := do
  let listing ← orThrow (storedListing db input.listingId)
    (marketError .listingNotFound "Listing not found" 404)
  throwIf (¬(listing.sellerWallet = input.sellerWallet ∨
      input.sellerId ≠ none ∧ listing.sellerId = input.sellerId))
    (marketError .forbidden "Only the listing owner can cancel this listing" 403)
  throwIf (listing.status ≠ .active)
    (marketError .listingNotActive "Only active listings can be cancelled" 400)
  return { listing with status := .cancelled }

/-- `repository.save(listing)`: every column of the row is brought to its value in
memory. -/
def saveListing (db : Database) (entity : SecondaryListing) : Database :=
  { db with
    listings := db.listings.map fun listing =>
      if listing.id = entity.id then entity else listing }

/-! ## Processes -/

inductive CreateStage where
  | check
  | insert (listing : ListingResult)

inductive BuyStage where
  | lock
  | transfer (listing : SecondaryListing)
  | commit (listing : SecondaryListing) (purchase : PurchaseResult)

inductive CancelStage where
  | find
  | save (entity : SecondaryListing)

inductive Process where
  | idle
  | finished (thrown : Option Thrown)
  | createListing (input : CreateListingInput) (quantity : QuantityText) (stage : CreateStage)
  | buyListing (input : PurchaseInput) (stage : BuyStage)
  | cancelListing (input : CancelListingInput) (stage : CancelStage)
  | refundInvestment (walletAddress : String) (stage : RefundStage)

inductive Request where
  | createListing (input : CreateListingInput) (quantity : QuantityText)
  | buyListing (input : PurchaseInput)
  | cancelListing (input : CancelListingInput)
  | refundInvestment (walletAddress : String)

def Request.process : Request → Process
  | .createListing input quantity => .createListing input quantity .check
  | .buyListing input => .buyListing input .lock
  | .cancelListing input => .cancelListing input .find
  | .refundInvestment walletAddress => .refundInvestment walletAddress .find

/-! ## Steps of one process -/

/-- A committed purchase of a number. -/
structure Sale where
  listingId : Uuid
  quantity : ℤ
  deriving DecidableEq, Repr

/-- The database, the clock, the committed purchases, and whether a NaN has been stored:
from then on the amounts are not followed any further. -/
structure Market where
  db : Database
  now : Timestamp
  sales : List Sale := []
  notANumber : Bool := false

structure Outcome where
  market : Market
  process : Process

/-- Go on with the value, or end the call with the error. -/
def Outcome.attempt {α : Type} (market : Market) (result : Except Thrown α)
    (next : α → Outcome) : Outcome :=
  match result with
  | .error thrown => { market := market, process := .finished (some thrown) }
  | .ok value => next value

theorem Outcome.attempt_rule {α : Type} {P : Outcome → Prop} {market : Market}
    {result : Except Thrown α} {next : α → Outcome}
    (hfail : ∀ thrown, P { market := market, process := .finished (some thrown) })
    (hnext : ∀ value, result = .ok value → P (next value)) : P (.attempt market result next) := by
  cases result with
  | error thrown => exact hfail thrown
  | ok value => exact hnext value rfl

/-- The amounts fit their `decimal(18,4)` columns. -/
def checkColumns (amounts : List ℤ) : Except Thrown Unit :=
  throwIf (¬∀ amount ∈ amounts, |amount| < 10 ^ 18)
    (.error "QueryFailedError: numeric field overflow")

def advanceCreate (input : CreateListingInput) (quantity : QuantityText) (newId : Uuid)
    (market : Market) : CreateStage → Outcome
  | .check =>
      .attempt market (MarketQuantity.createListing market.db input quantity newId market.now)
        fun listing =>
          { market := market, process := .createListing input quantity (.insert listing) }
  | .insert (.listed listing) =>
      .attempt market (checkColumns [listing.quantity, listing.pricePerFraction,
          listing.totalPrice]) fun _ =>
        { market := { market with db := insertListing market.db listing }
          process := .finished none }
  | .insert .notANumber =>
      { market := { market with notANumber := true }, process := .finished none }

def advanceBuy (input : PurchaseInput) (newId : Uuid) (market : Market) : BuyStage → Outcome
  | .lock =>
      .attempt market (lockListing market.db input market.now) fun listing =>
        { market := market, process := .buyListing input (.transfer listing) }
  | .transfer listing =>
      .attempt market (MarketQuantity.transfer market.db input listing newId market.now)
        fun purchase =>
          { market := market, process := .buyListing input (.commit listing purchase) }
  | .commit listing (.transferred writes quantity) =>
      .attempt market (checkColumns (writes.investments.map Investment.investmentAmount))
        fun _ =>
          { market :=
              { market with
                db := commitPurchase market.db writes
                sales := market.sales ++ [⟨listing.id, quantity⟩] }
            process := .finished none }
  | .commit _ (.notANumber _ _) =>
      { market := { market with notANumber := true }, process := .finished none }

def advanceCancel (input : CancelListingInput) (market : Market) : CancelStage → Outcome
  | .find =>
      .attempt market (readToCancel market.db input) fun entity =>
        { market := market, process := .cancelListing input (.save entity) }
  | .save entity =>
      { market := { market with db := saveListing market.db entity }
        process := .finished none }

def advanceRefund (walletAddress : String) (market : Market) : RefundStage → Outcome
  | .find =>
      .attempt market (orThrow market.db.invoice (.service InvoiceRefund.invoiceNotFound))
        fun invoice =>
          { market := market
            process := .refundInvestment walletAddress (.findInvestment invoice) }
  | .findInvestment invoice =>
      .attempt market
        (orThrow (findWalletInvestment market.db walletAddress) (.service investmentNotFound))
        fun investment =>
          { market := market
            process := .refundInvestment walletAddress (.check invoice investment) }
  | .check invoice investment =>
      match canRefund market.db market.now with
      | some reason =>
          { market := market, process := .finished (some (.service (refundNotAllowed reason))) }
      | none =>
          { market := market
            process := .refundInvestment walletAddress (.remove invoice investment) }
  | .remove invoice investment =>
      { market := { market with db := removeInvestment market.db investment }
        process := .refundInvestment walletAddress (.count invoice) }
  | .count invoice =>
      if market.db.investments = [] then
        { market := market, process := .refundInvestment walletAddress (.cancel invoice) }
      else { market := market, process := .finished none }
  | .cancel invoice =>
      .attempt market (cancelInvoice market.db invoice) fun cancelled =>
        { market := { market with db := cancelled }, process := .finished none }

/-- The next step of a process, if it has one. -/
def advance (newId : Uuid) (market : Market) : Process → Option Outcome
  | .idle => none
  | .finished _ => none
  | .createListing input quantity stage =>
      some (advanceCreate input quantity newId market stage)
  | .buyListing input stage => some (advanceBuy input newId market stage)
  | .cancelListing input stage => some (advanceCancel input market stage)
  | .refundInvestment walletAddress stage => some (advanceRefund walletAddress market stage)

/-! ## Locks -/

/-- The process holds the invoice row. -/
def holdsInvoice : Process → Bool
  | .createListing _ _ (.insert _) => true
  | .buyListing _ (.commit _ _) => true
  | _ => false

/-- The next step waits for the invoice row. -/
def needsInvoice : Process → Bool
  | .createListing _ _ _ => true
  | .buyListing _ (.transfer _) => true
  | .buyListing _ (.commit _ _) => true
  | .refundInvestment _ (.cancel _) => true
  | _ => false

/-- The process holds the listing's row. -/
def holdsListing (id : Uuid) : Process → Bool
  | .buyListing _ (.transfer listing) => listing.id == id
  | .buyListing _ (.commit listing _) => listing.id == id
  | _ => false

/-- The listing whose row the next step waits for. -/
def neededListing : Process → Option Uuid
  | .buyListing input .lock => some input.listingId
  | .buyListing _ (.transfer listing) => some listing.id
  | .buyListing _ (.commit listing _) => some listing.id
  | .cancelListing _ (.save entity) => some entity.id
  | _ => none

/-! ## The system -/

structure World where
  market : Market
  holder : Option ℕ := none
  listingHolder : Uuid → Option ℕ := fun _ => none
  process : ℕ → Process := fun _ => .idle

inductive Action where
  | start (request : Request)
  | advance (newId : Uuid)
  | fail (thrown : Thrown)

structure Event where
  process : ℕ
  now : Timestamp
  action : Action

/-- The database generates new ids. -/
def Unused (db : Database) (newId : Uuid) : Prop :=
  (∀ investment ∈ db.investments, investment.id ≠ newId) ∧
    ∀ listing ∈ db.listings, listing.id ≠ newId

instance (db : Database) (newId : Uuid) : Decidable (Unused db newId) :=
  inferInstanceAs (Decidable (_ ∧ _))

def World.apply (world : World) (index : ℕ) (outcome : Outcome) : World :=
  { market := outcome.market
    holder := nextHolder world.holder index (holdsInvoice outcome.process)
    listingHolder := fun id =>
      nextHolder (world.listingHolder id) index (holdsListing id outcome.process)
    process := setProcess world.process index outcome.process }

/-- The rows that the next step waits for are free. -/
def Ready (world : World) (index : ℕ) : Prop :=
  (needsInvoice (world.process index) = true → Available world.holder index) ∧
    ∀ id ∈ neededListing (world.process index), Available (world.listingHolder id) index

instance (world : World) (index : ℕ) : Decidable (Ready world index) :=
  inferInstanceAs (Decidable ((_ → _) ∧ ∀ id ∈ neededListing _, _))

def step (world : World) (event : Event) : Option World :=
  if event.now < world.market.now then none
  else
    let market := { world.market with now := event.now }
    match event.action with
    | .start request =>
        match world.process event.process with
        | .idle =>
            some (world.apply event.process { market := market, process := request.process })
        | _ => none
    | .advance newId =>
        if Ready world event.process ∧ Unused world.market.db newId then
          (advance newId market (world.process event.process)).map (world.apply event.process)
        else none
    | .fail thrown =>
        some (world.apply event.process
          { market := market, process := .finished (some thrown) })

/-! ## What a step does -/

/-- Every step of every process, read off once. -/
inductive Moves (newId : Uuid) (market : Market) : Process → Outcome → Prop
  | ended (process : Process) (thrown : Option Thrown) :
      Moves newId market process { market := market, process := .finished thrown }
  | listingChecked {input : CreateListingInput} {quantity : QuantityText}
      {listing : ListingResult}
      (hcheck : MarketQuantity.createListing market.db input quantity newId market.now =
        .ok listing) :
      Moves newId market (.createListing input quantity .check)
        { market := market, process := .createListing input quantity (.insert listing) }
  | listed {input : CreateListingInput} {quantity : QuantityText} {listing : SecondaryListing}
      (hcolumn : |listing.quantity| < 10 ^ 18) :
      Moves newId market (.createListing input quantity (.insert (.listed listing)))
        { market := { market with db := insertListing market.db listing }
          process := .finished none }
  | listedNotANumber {input : CreateListingInput} {quantity : QuantityText} :
      Moves newId market (.createListing input quantity (.insert .notANumber))
        { market := { market with notANumber := true }, process := .finished none }
  | listingLocked {input : PurchaseInput} {listing : SecondaryListing}
      (hlock : lockListing market.db input market.now = .ok listing) :
      Moves newId market (.buyListing input .lock)
        { market := market, process := .buyListing input (.transfer listing) }
  | purchaseChecked {input : PurchaseInput} {listing : SecondaryListing}
      {purchase : PurchaseResult}
      (htransfer : MarketQuantity.transfer market.db input listing newId market.now =
        .ok purchase) :
      Moves newId market (.buyListing input (.transfer listing))
        { market := market, process := .buyListing input (.commit listing purchase) }
  | purchased {input : PurchaseInput} {listing : SecondaryListing} {writes : PurchaseWrites}
      {quantity : ℤ} (hcolumns : ∀ row ∈ writes.investments, |row.investmentAmount| < 10 ^ 18) :
      Moves newId market (.buyListing input (.commit listing (.transferred writes quantity)))
        { market :=
            { market with
              db := commitPurchase market.db writes
              sales := market.sales ++ [⟨listing.id, quantity⟩] }
          process := .finished none }
  | purchasedNotANumber {input : PurchaseInput} {listing found : SecondaryListing}
      {investments : List Investment} :
      Moves newId market (.buyListing input (.commit listing (.notANumber found investments)))
        { market := { market with notANumber := true }, process := .finished none }
  | cancelRead {input : CancelListingInput} {entity : SecondaryListing}
      (hread : readToCancel market.db input = .ok entity) :
      Moves newId market (.cancelListing input .find)
        { market := market, process := .cancelListing input (.save entity) }
  | cancelled {input : CancelListingInput} {entity : SecondaryListing} :
      Moves newId market (.cancelListing input (.save entity))
        { market := { market with db := saveListing market.db entity }
          process := .finished none }
  | refundRead {walletAddress : String} {stage : RefundStage} {invoice : Invoice}
      (hnext : stage = .findInvestment invoice ∨ ∃ investment, stage = .check invoice investment)
      (before : RefundStage) :
      Moves newId market (.refundInvestment walletAddress before)
        { market := market, process := .refundInvestment walletAddress stage }
  | refundChecked {walletAddress : String} {invoice : Invoice} {investment : Investment}
      (hallowed : canRefund market.db market.now = none) :
      Moves newId market (.refundInvestment walletAddress (.check invoice investment))
        { market := market
          process := .refundInvestment walletAddress (.remove invoice investment) }
  | removed {walletAddress : String} {invoice : Invoice} {investment : Investment} :
      Moves newId market (.refundInvestment walletAddress (.remove invoice investment))
        { market := { market with db := removeInvestment market.db investment }
          process := .refundInvestment walletAddress (.count invoice) }
  | counted {walletAddress : String} {invoice : Invoice} :
      Moves newId market (.refundInvestment walletAddress (.count invoice))
        { market := market, process := .refundInvestment walletAddress (.cancel invoice) }
  | invoiceCancelled {walletAddress : String} {invoice : Invoice} {db : Database}
      (hcancel : cancelInvoice market.db invoice = .ok db) :
      Moves newId market (.refundInvestment walletAddress (.cancel invoice))
        { market := { market with db := db }, process := .finished none }

theorem moves_of_advance {newId : Uuid} {market : Market} {process : Process} {outcome : Outcome}
    (hadvance : advance newId market process = some outcome) :
    Moves newId market process outcome := by
  cases process with
  | idle => cases hadvance
  | finished thrown => cases hadvance
  | createListing input quantity stage =>
      obtain rfl := Option.some.inj hadvance
      cases stage with
      | check =>
          exact Outcome.attempt_rule (fun _ => .ended _ _) fun _ hcheck => .listingChecked hcheck
      | insert listing =>
          cases listing with
          | notANumber => exact .listedNotANumber
          | listed listing =>
              refine Outcome.attempt_rule (fun _ => .ended _ _) fun _ hcolumns => .listed ?_
              exact not_not.mp (throwIf_eq_ok.mp hcolumns) _ List.mem_cons_self
  | buyListing input stage =>
      obtain rfl := Option.some.inj hadvance
      cases stage with
      | lock =>
          exact Outcome.attempt_rule (fun _ => .ended _ _) fun _ hlock => .listingLocked hlock
      | transfer listing =>
          exact Outcome.attempt_rule (fun _ => .ended _ _) fun _ htransfer =>
            .purchaseChecked htransfer
      | commit listing purchase =>
          cases purchase with
          | notANumber found investments => exact .purchasedNotANumber
          | transferred writes quantity =>
              refine Outcome.attempt_rule (fun _ => .ended _ _) fun _ hcolumns =>
                .purchased fun row hrow => ?_
              exact not_not.mp (throwIf_eq_ok.mp hcolumns) _ (List.mem_map_of_mem hrow)
  | cancelListing input stage =>
      obtain rfl := Option.some.inj hadvance
      cases stage with
      | find => exact Outcome.attempt_rule (fun _ => .ended _ _) fun _ hread => .cancelRead hread
      | save entity => exact .cancelled
  | refundInvestment walletAddress stage =>
      obtain rfl := Option.some.inj hadvance
      cases stage with
      | find =>
          exact Outcome.attempt_rule (fun _ => .ended _ _) fun invoice _ =>
            .refundRead (.inl rfl) _
      | findInvestment invoice =>
          exact Outcome.attempt_rule (fun _ => .ended _ _) fun investment _ =>
            .refundRead (.inr ⟨investment, rfl⟩) _
      | check invoice investment =>
          dsimp only [advanceRefund]
          split
          · exact .ended _ _
          · rename_i hallowed
            exact .refundChecked hallowed
      | remove invoice investment => exact .removed
      | count invoice =>
          dsimp only [advanceRefund]
          split
          · exact .counted
          · exact .ended _ _
      | cancel invoice =>
          exact Outcome.attempt_rule (fun _ => .ended _ _) fun _ hcancel =>
            .invoiceCancelled hcancel

/-- The market at the time of an event. -/
def Market.at (market : Market) (now : Timestamp) : Market := { market with now := now }

/-- Every step starts a call, ends it with an error, or makes its next move. -/
theorem step_cases {world after : World} {event : Event}
    (hstep : step world event = some after) :
    world.market.now ≤ event.now ∧
      ((∃ request : Request, event.action = .start request ∧ after = world.apply event.process
          { market := world.market.at event.now, process := request.process }) ∨
        (∃ thrown, after = world.apply event.process
          { market := world.market.at event.now, process := .finished (some thrown) }) ∨
        ∃ newId outcome, Ready world event.process ∧ Unused world.market.db newId ∧
          event.action = .advance newId ∧
          Moves newId (world.market.at event.now) (world.process event.process) outcome ∧
          after = world.apply event.process outcome) := by
  rw [step] at hstep
  split at hstep
  · cases hstep
  · rename_i htime
    refine ⟨not_lt.mp htime, ?_⟩
    dsimp only at hstep
    split at hstep
    · rename_i request haction
      split at hstep
      · exact .inl ⟨request, haction, (Option.some.inj hstep).symm⟩
      · cases hstep
    · rename_i newId haction
      split at hstep
      · rename_i hready
        obtain ⟨outcome, houtcome, rfl⟩ := Option.map_eq_some_iff.mp hstep
        exact .inr (.inr ⟨newId, outcome, hready.1, hready.2, haction,
          moves_of_advance houtcome, rfl⟩)
      · cases hstep
    · rename_i thrown haction
      exact .inr (.inl ⟨thrown, (Option.some.inj hstep).symm⟩)

end StellarSettle.Trading
