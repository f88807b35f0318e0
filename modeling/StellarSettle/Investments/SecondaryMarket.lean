import StellarSettle.Core.Checks
import StellarSettle.Model.InvoiceLifecycle

/-!
# The secondary market

`createListing` and `buyListing` lock the invoice and consult its settlement
intent before they look at the holdings.  Each is split into what it reads and
what it writes.
-/

namespace StellarSettle.SecondaryMarket

open StellarSettle.Checks
open StellarSettle.DecimalJs
open StellarSettle.Entities
open StellarSettle.InvoiceLifecycle

/-! ## Inputs and errors -/

/-- `quantityText` is the requested quantity as it was sent. -/
structure CreateListingInput where
  sellerWallet : String
  sellerId : Option Uuid
  quantity : Decimal
  quantityText : String
  pricePerFraction : Decimal
  expiresAt : Option Timestamp := none
  deriving DecidableEq, Repr

structure BuyListingInput where
  listingId : Uuid
  buyerWallet : String
  buyerId : Uuid
  quantity : Option Decimal := none
  deriving DecidableEq, Repr

def marketError (code : ErrorCode) (message : String) (statusCode : ℕ) : Thrown :=
  .service { code := code, message := message, statusCode := statusCode }

def invoiceNotFound : Thrown := marketError .invoiceNotFound "Invoice not found" 404

def invalidQuantity : Thrown :=
  marketError .invalidQuantity "Quantity must be greater than zero" 400

def invalidExpiry : Thrown :=
  marketError .invalidExpiry "Expiry date must be in the future" 400

/-! ## Listings -/

/-- The rows that `where: [{ wallet }, { id }]` selects; without either, the
condition is empty and selects every row. -/
def sellerInvestments (investments : List Investment) (sellerWallet : String)
    (sellerId : Option Uuid) : List Investment :=
  if sellerWallet = "" ∧ sellerId = none then investments
  else investments.filter fun investment =>
    investment.status == .confirmed &&
      ((sellerWallet != "" && investment.investorWallet == some sellerWallet) ||
        sellerId == some investment.investorId)

/-- The seller's active listings: of either identity when both are given. -/
def activeListings (listings : List SecondaryListing) (sellerWallet : String)
    (sellerId : Option Uuid) : List SecondaryListing :=
  listings.filter fun listing =>
    listing.status == .active &&
      match sellerWallet == "", sellerId with
      | true, none => true
      | true, some id => listing.sellerId == some id
      | false, none => listing.sellerWallet == sellerWallet
      | false, some id => listing.sellerWallet == sellerWallet || listing.sellerId == some id

def isExpired (listing : SecondaryListing) (now : Timestamp) : Bool :=
  decide (listing.expiresAt < now)

def isMatured (invoice : Invoice) (now : Timestamp) : Bool :=
  invoice.status == .settled || invoice.status == .failed ||
    match invoice.dueDate with
    | none => false
    | some day => isPastDueDate day now || decide (startOfDayUTC day ≤ now)

def DEFAULT_LISTING_LIFETIME_MS : ℤ := 30 * MS_PER_DAY

def effectiveExpiry (input : CreateListingInput) (invoice : Invoice) (now : Timestamp) :
    Timestamp :=
  match input.expiresAt, invoice.dueDate with
  | some requested, _ => requested
  | none, some day => startOfDayUTC day
  | none, none => now + DEFAULT_LISTING_LIFETIME_MS

/-- `createListing`, up to the insert of the listing it returns. -/
def createListing (db : Database) (input : CreateListingInput) (listingId : Uuid)
    (now : Timestamp) : Except Thrown SecondaryListing := do
  throwIf (input.quantity ≤ 0) invalidQuantity
  throwIf (input.pricePerFraction ≤ 0)
    (marketError .invalidPrice "Price per fraction must be greater than zero" 400)
  throwIf (input.expiresAt.any fun requested => requested ≤ now) invalidExpiry
  let invoice ← orThrow db.invoice invoiceNotFound
  throwIf (isMatured invoice now)
    (marketError .invoiceMatured "Cannot list shares on an invoice that is past maturity" 422)
  throwIf (invoice.status ≠ .funded)
    (marketError .invalidInvoiceStatus
      "Only funded invoices can be listed on secondary market" 400)
  throwIf db.intentInFlight
    (marketError .settlementInProgress
      "Invoice settlement is in progress; holdings cannot be listed" 409)
  let expiresAt := effectiveExpiry input invoice now
  throwIf (expiresAt ≤ now) invalidExpiry
  let investments := sellerInvestments db.investments input.sellerWallet input.sellerId
  throwIf (investments = [])
    (marketError .noHoldings "Seller has no confirmed investments in this invoice" 400)
  let totalHoldings := sumAmounts (investments.map fun investment => investment.investmentAmount)
  let currentlyListed := sumAmounts
    (((activeListings db.listings input.sellerWallet input.sellerId).filter fun listing =>
      !isExpired listing now).map fun listing => listing.quantity)
  let availableHoldings := minus totalHoldings currentlyListed
  throwIf (availableHoldings < input.quantity)
    (marketError .insufficientHoldings
      (s!"Requested quantity {input.quantityText} exceeds available holdings " ++
        fixed4Text (toFixed4 availableHoldings)) 400)
  return {
    id := listingId
    sellerWallet := input.sellerWallet
    sellerId := input.sellerId
    quantity := toFixed4 input.quantity
    pricePerFraction := toFixed4 input.pricePerFraction
    totalPrice := toFixed4 (times input.quantity input.pricePerFraction)
    status := .active
    expiresAt := expiresAt }

def insertListing (db : Database) (listing : SecondaryListing) : Database :=
  { db with listings := db.listings ++ [listing] }

/-! ## Purchases -/

/-- The loop that takes the bought quantity from the seller's holdings: the
entities it saves, in order. -/
def deductHoldings : List Investment → Decimal → List Investment
  | [], _ => []
  | investment :: rest, remainingToDeduct =>
      if remainingToDeduct ≤ 0 then []
      else
        let currentAmount := ofUnits investment.investmentAmount
        if currentAmount ≤ remainingToDeduct then
          { investment with investmentAmount := 0 } ::
            deductHoldings rest (minus remainingToDeduct currentAmount)
        else
          { investment with
            investmentAmount := toFixed4 (minus currentAmount remainingToDeduct) } ::
            deductHoldings rest 0

/-- The buyer's holding after the purchase, from the investments as the
transaction left them. -/
def creditBuyer (investments : List Investment) (input : BuyListingInput)
    (buyQuantity : Decimal) (investmentId : Uuid) : Investment :=
  match investments.find? fun investment =>
    investment.investorId == input.buyerId && investment.status == .confirmed with
  | some held =>
      { held with
        investmentAmount := toFixed4 (plus (ofUnits held.investmentAmount) buyQuantity)
        investorWallet :=
          if input.buyerWallet ≠ "" ∧ held.investorWallet = none then some input.buyerWallet
          else held.investorWallet }
  | none =>
      { id := investmentId
        investorId := input.buyerId
        investorWallet := some input.buyerWallet
        fundingBlock := none
        investmentAmount := toFixed4 buyQuantity
        expectedReturn := toFixed4 buyQuantity
        actualReturn := none
        status := .confirmed
        transactionHash := none
        stellarOperationIndex := none }

/-- The listing after the purchase: sold, or with the rest of its quantity. -/
def soldListing (listing : SecondaryListing) (buyQuantity : Decimal) : SecondaryListing :=
  if buyQuantity = ofUnits listing.quantity then { listing with status := .sold }
  else
    let remainingQuantity := minus (ofUnits listing.quantity) buyQuantity
    { listing with
      quantity := toFixed4 remainingQuantity
      totalPrice := toFixed4 (times remainingQuantity (ofUnits listing.pricePerFraction)) }

/-- The rows that a purchase saves, in order. -/
structure PurchaseWrites where
  listing : SecondaryListing
  investments : List Investment
  transactions : List Transaction
  deriving DecidableEq, Repr

def purchaseTransaction (userId : Uuid) (investmentId : Option Uuid) (amount : ℤ)
    (now : Timestamp) : Transaction :=
  { userId := some userId
    investmentId := investmentId
    type := .payment
    amount := amount
    stellarTxHash := some s!"simulated_{now}"
    stellarOperationIndex := none
    status := .completed }

/-- The checks of `buyListing` on the locked listing and the locked invoice. -/
def checkPurchase (db : Database) (input : BuyListingInput) (now : Timestamp) :
    Except Thrown (SecondaryListing × Decimal) := do
  let listing ← orThrow (db.listings.find? fun listing => listing.id == input.listingId)
    (marketError .listingNotFound "Listing not found" 404)
  throwIf (listing.status ≠ .active) (marketError .listingNotActive "Listing is not active" 400)
  throwIf (isExpired listing now) (marketError .listingExpired "Listing has expired" 400)
  throwIf (listing.sellerWallet = input.buyerWallet ∨ listing.sellerId = some input.buyerId)
    (marketError .selfPurchase "Cannot buy your own listing" 400)
  let invoice ← orThrow db.invoice invoiceNotFound
  throwIf (invoice.status ≠ .funded)
    (marketError .invalidInvoiceStatus
      "Only funded invoices can be purchased on the secondary market" 400)
  throwIf db.intentInFlight
    (marketError .settlementInProgress
      "Invoice settlement is in progress; holdings cannot be transferred" 409)
  let buyQuantity := input.quantity.getD (ofUnits listing.quantity)
  throwIf (buyQuantity ≤ 0) invalidQuantity
  throwIf (ofUnits listing.quantity < buyQuantity)
    (marketError .overPurchase
      (s!"Requested quantity {fixed4Text (toFixed4 buyQuantity)} exceeds available " ++
        fixed4Text listing.quantity) 409)
  return (listing, buyQuantity)

/-- `buyListing`, up to its writes. -/
def buyListing (db : Database) (input : BuyListingInput) (investmentId : Uuid)
    (now : Timestamp) : Except Thrown PurchaseWrites := do
  let (listing, buyQuantity) ← checkPurchase db input now
  let totalPrice := toFixed4 (times buyQuantity (ofUnits listing.pricePerFraction))
  let deducted := deductHoldings
    (sellerInvestments db.investments listing.sellerWallet listing.sellerId) buyQuantity
  let buyerInvestment := creditBuyer (deducted.foldl saveInvestment db.investments) input
    buyQuantity investmentId
  return {
    listing := soldListing listing buyQuantity
    investments := deducted ++ [buyerInvestment]
    transactions :=
      purchaseTransaction input.buyerId (some buyerInvestment.id) totalPrice now ::
        (listing.sellerId.map fun sellerId =>
          purchaseTransaction sellerId none totalPrice now).toList }

def commitPurchase (db : Database) (writes : PurchaseWrites) : Database :=
  { db with
    listings := db.listings.map fun listing =>
      if listing.id = writes.listing.id then writes.listing else listing
    investments := writes.investments.foldl saveInvestment db.investments
    transactions := db.transactions ++ writes.transactions }

/-- A purchase and a listing both need a funded invoice without a payout under
way. -/
theorem checkPurchase_eq_ok {db : Database} {input : BuyListingInput} {now : Timestamp}
    {purchase : SecondaryListing × Decimal} (hok : checkPurchase db input now = .ok purchase) :
    (∃ invoice, db.invoice = some invoice ∧ invoice.status = .funded) ∧
      db.intentInFlight = false := by
  simp only [checkPurchase, bind_eq_ok, orThrow_eq_ok, throwIf_eq_ok, exists_const] at hok
  obtain ⟨_, _, _, _, _, invoice, hinvoice, hfunded, hflight, _⟩ := hok
  exact ⟨⟨invoice, hinvoice, by simpa using hfunded⟩, by simpa using hflight⟩

theorem buyListing_eq_ok {db : Database} {input : BuyListingInput} {investmentId : Uuid}
    {now : Timestamp} {writes : PurchaseWrites}
    (hok : buyListing db input investmentId now = .ok writes) :
    (∃ invoice, db.invoice = some invoice ∧ invoice.status = .funded) ∧
      db.intentInFlight = false := by
  obtain ⟨purchase, hcheck, _⟩ := bind_eq_ok.mp hok
  exact checkPurchase_eq_ok hcheck

end StellarSettle.SecondaryMarket
