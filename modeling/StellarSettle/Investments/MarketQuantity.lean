import StellarSettle.Investments.SecondaryMarket

/-!
# Quantities as they are sent

`createListing` and `buyListing` read their quantity with `new Decimal(text)`, which
also takes NaN and the infinities.  Every comparison with NaN is false, so NaN passes
the checks that keep a number out.
-/

namespace StellarSettle.MarketQuantity

open StellarSettle.Checks
open StellarSettle.DecimalJs
open StellarSettle.Entities
open StellarSettle.SecondaryMarket

/-- What `new Decimal(text)` makes of the text. -/
inductive QuantityText where
  | number (value : Decimal)
  | nan
  | infinity (negative : Bool)
  | invalid (text : String)
  deriving DecidableEq, Repr

/-- `quantity.lte(0)`. -/
def QuantityText.notPositive : QuantityText → Bool
  | .number value => decide (value ≤ 0)
  | .infinity negative => negative
  | _ => false

/-- `quantity.gt(available)`. -/
def QuantityText.exceeds (available : Decimal) : QuantityText → Bool
  | .number value => decide (available < value)
  | .infinity negative => !negative
  | _ => false

def invalidArgument (text : String) : Thrown :=
  .error s!"[DecimalError] Invalid argument: {text}"

/-! ## Listings -/

/-- The listing that is inserted; a quantity that is not a number is stored as NaN. -/
inductive ListingResult where
  | listed (listing : SecondaryListing)
  | notANumber
  deriving DecidableEq, Repr

/-- Everything that `createListing` checks before it looks at the quantity: what the seller
has left to list, and when the listing expires. -/
def checkSeller (db : Database) (input : CreateListingInput) (now : Timestamp) :
    Except Thrown (Decimal × Timestamp) := do
  throwIf (input.pricePerFraction ≤ 0)
    (marketError .invalidPrice "Price per fraction must be greater than zero" 400)
  throwIf (input.expiresAt.any fun requested => requested ≤ now) invalidExpiry
  let invoice ← orThrow db.invoice invoiceNotFound
  throwIf (isMatured invoice now)
    (marketError .invoiceMatured "Cannot list shares on an invoice that is past maturity" 422)
  throwIf (invoice.status ≠ .funded)
    (marketError .invalidInvoiceStatus
      "Only funded invoices can be listed on secondary market" 400)
  throwIf db.intentInFlight
    (marketError .settlementInProgress
      "Invoice settlement is in progress; holdings cannot be listed" 409)
  let expiresAt := effectiveExpiry input invoice now
  throwIf (expiresAt ≤ now) invalidExpiry
  let investments := sellerInvestments db.investments input.sellerWallet input.sellerId
  throwIf (investments = [])
    (marketError .noHoldings "Seller has no confirmed investments in this invoice" 400)
  let totalHoldings := sumAmounts (investments.map fun investment => investment.investmentAmount)
  let currentlyListed := sumAmounts
    (((activeListings db.listings input.sellerWallet input.sellerId).filter fun listing =>
      !isExpired listing now).map fun listing => listing.quantity)
  return (minus totalHoldings currentlyListed, expiresAt)

def insufficientHoldings (input : CreateListingInput) (availableHoldings : Decimal) : Thrown :=
  marketError .insufficientHoldings
    (s!"Requested quantity {input.quantityText} exceeds available holdings " ++
      fixed4Text (toFixed4 availableHoldings)) 400

/-- The listing of a number. -/
def numberListing (input : CreateListingInput) (value : Decimal) (expiresAt : Timestamp)
    (listingId : Uuid) : SecondaryListing :=
  { id := listingId
    sellerWallet := input.sellerWallet
    sellerId := input.sellerId
    quantity := toFixed4 value
    pricePerFraction := toFixed4 input.pricePerFraction
    totalPrice := toFixed4 (times value input.pricePerFraction)
    status := .active
    expiresAt := expiresAt }

def createListing (db : Database) (input : CreateListingInput) (quantity : QuantityText)
    (listingId : Uuid) (now : Timestamp) : Except Thrown ListingResult :=
  match quantity with
  | .invalid text => .error (invalidArgument text)
  | quantity => do
      throwIf (quantity.notPositive = true) invalidQuantity
      let (availableHoldings, expiresAt) ← checkSeller db input now
      throwIf (quantity.exceeds availableHoldings = true)
        (insufficientHoldings input availableHoldings)
      match quantity with
      | .number value => return .listed (numberListing input value expiresAt listingId)
      | _ => return .notANumber

/-- With a number this is the listing of the input. -/
theorem createListing_eq_number (db : Database) (input : CreateListingInput) (listingId : Uuid)
    (now : Timestamp) :
    createListing db input (.number input.quantity) listingId now =
      .listed <$> SecondaryMarket.createListing db input listingId now := by
  simp only [createListing, SecondaryMarket.createListing, checkSeller, QuantityText.notPositive,
    QuantityText.exceeds, decide_eq_true_eq, bind_assoc, pure_bind, map_bind, map_pure]
  rfl

/-- A listing is of a positive number within what the seller has left, or of NaN. -/
theorem createListing_eq_ok {db : Database} {input : CreateListingInput} {quantity : QuantityText}
    {listingId : Uuid} {now : Timestamp} {result : ListingResult}
    (hok : createListing db input quantity listingId now = .ok result) :
    (∃ value availableHoldings expiresAt, quantity = .number value ∧ 0 < value ∧
        checkSeller db input now = .ok (availableHoldings, expiresAt) ∧
        value ≤ availableHoldings ∧
        result = .listed (numberListing input value expiresAt listingId)) ∨
      result = .notANumber := by
  cases quantity with
  | invalid text => cases hok
  | number value =>
      obtain ⟨_, hpositive, hrest⟩ := bind_eq_ok.mp hok
      obtain ⟨⟨availableHoldings, expiresAt⟩, hseller, hrest⟩ := bind_eq_ok.mp hrest
      obtain ⟨_, hexceeds, hresult⟩ := bind_eq_ok.mp hrest
      have hpos := throwIf_eq_ok.mp hpositive
      have hle := throwIf_eq_ok.mp hexceeds
      simp only [QuantityText.notPositive, QuantityText.exceeds, decide_eq_true_eq, not_le,
        not_lt] at hpos hle
      exact .inl ⟨value, availableHoldings, expiresAt, rfl, hpos, hseller, hle,
        pure_eq_ok.mp hresult⟩
  | nan =>
      obtain ⟨_, _, hrest⟩ := bind_eq_ok.mp hok
      obtain ⟨_, _, hrest⟩ := bind_eq_ok.mp hrest
      obtain ⟨_, _, hresult⟩ := bind_eq_ok.mp hrest
      exact .inr (pure_eq_ok.mp hresult)
  | infinity negative =>
      obtain ⟨_, _, hrest⟩ := bind_eq_ok.mp hok
      obtain ⟨_, _, hrest⟩ := bind_eq_ok.mp hrest
      obtain ⟨_, _, hresult⟩ := bind_eq_ok.mp hrest
      exact .inr (pure_eq_ok.mp hresult)

/-! ## Purchases -/

/-- A missing or empty quantity is `none`. -/
structure PurchaseInput where
  listingId : Uuid
  buyerWallet : String
  buyerId : Uuid
  quantity : Option QuantityText := none
  deriving DecidableEq, Repr

def PurchaseInput.withQuantity (input : PurchaseInput) (quantity : Option Decimal) :
    BuyListingInput :=
  { listingId := input.listingId
    buyerWallet := input.buyerWallet
    buyerId := input.buyerId
    quantity := quantity }

/-- What a purchase writes, and the quantity it returns.  A quantity that is not a number
makes the listing's quantity, the seller's first row and the buyer's row NaN. -/
inductive PurchaseResult where
  | transferred (writes : PurchaseWrites) (quantity : ℤ)
  | notANumber (listing : SecondaryListing) (investments : List Investment)
  deriving DecidableEq, Repr

/-- The locked read of the listing, and the checks on it. -/
def lockListing (db : Database) (input : PurchaseInput) (now : Timestamp) :
    Except Thrown SecondaryListing := do
  let listing ← orThrow (db.listings.find? fun listing => listing.id == input.listingId)
    (marketError .listingNotFound "Listing not found" 404)
  throwIf (listing.status ≠ .active) (marketError .listingNotActive "Listing is not active" 400)
  throwIf (isExpired listing now) (marketError .listingExpired "Listing has expired" 400)
  throwIf (listing.sellerWallet = input.buyerWallet ∨ listing.sellerId = some input.buyerId)
    (marketError .selfPurchase "Cannot buy your own listing" 400)
  return listing

/-- The locked read of the invoice and of its settlement intent. -/
def lockInvoice (db : Database) : Except Thrown Unit := do
  let invoice ← orThrow db.invoice invoiceNotFound
  throwIf (invoice.status ≠ .funded)
    (marketError .invalidInvoiceStatus
      "Only funded invoices can be purchased on the secondary market" 400)
  throwIf db.intentInFlight
    (marketError .settlementInProgress
      "Invoice settlement is in progress; holdings cannot be transferred" 409)

/-- The checks on the quantity. -/
def checkQuantity (listing : SecondaryListing) (buyQuantity : Decimal) : Except Thrown Unit := do
  throwIf (buyQuantity ≤ 0) invalidQuantity
  throwIf (ofUnits listing.quantity < buyQuantity)
    (marketError .overPurchase
      (s!"Requested quantity {fixed4Text (toFixed4 buyQuantity)} exceeds available " ++
        fixed4Text listing.quantity) 409)

/-- The writes of a purchase of a number. -/
def numberWrites (db : Database) (input : PurchaseInput) (listing : SecondaryListing)
    (buyQuantity : Decimal) (investmentId : Uuid) (now : Timestamp) : PurchaseWrites :=
  let totalPrice := toFixed4 (times buyQuantity (ofUnits listing.pricePerFraction))
  let deducted := deductHoldings
    (sellerInvestments db.investments listing.sellerWallet listing.sellerId) buyQuantity
  let buyerInvestment := creditBuyer (deducted.foldl saveInvestment db.investments)
    (input.withQuantity none) buyQuantity investmentId
  { listing := soldListing listing buyQuantity
    investments := deducted ++ [buyerInvestment]
    transactions :=
      purchaseTransaction input.buyerId (some buyerInvestment.id) totalPrice now ::
        (listing.sellerId.map fun sellerId =>
          purchaseTransaction sellerId none totalPrice now).toList }

def transferNumber (db : Database) (input : PurchaseInput) (listing : SecondaryListing)
    (buyQuantity : Decimal) (investmentId : Uuid) (now : Timestamp) :
    Except Thrown PurchaseResult := do
  checkQuantity listing buyQuantity
  return .transferred (numberWrites db input listing buyQuantity investmentId now)
    (toFixed4 buyQuantity)

/-- The rest of the transaction, on the locked listing.  Every comparison with NaN is
false: the checks pass, the listing is not sold out, the loop stops at the seller's first
row, and the buyer is credited. -/
def transfer (db : Database) (input : PurchaseInput) (listing : SecondaryListing)
    (investmentId : Uuid) (now : Timestamp) : Except Thrown PurchaseResult := do
  lockInvoice db
  match input.quantity with
  | none => transferNumber db input listing (ofUnits listing.quantity) investmentId now
  | some (.number value) => transferNumber db input listing value investmentId now
  | some .nan =>
      let deducted :=
        (sellerInvestments db.investments listing.sellerWallet listing.sellerId).take 1
      return .notANumber listing (deducted ++
        [creditBuyer db.investments (input.withQuantity none) 0 investmentId])
  | some (.infinity true) => .error invalidQuantity
  | some (.infinity false) =>
      .error (marketError .overPurchase
        s!"Requested quantity Infinity exceeds available {fixed4Text listing.quantity}" 409)
  | some (.invalid text) => .error (invalidArgument text)

def buyListing (db : Database) (input : PurchaseInput) (investmentId : Uuid) (now : Timestamp) :
    Except Thrown PurchaseResult := do
  let listing ← lockListing db input now
  transfer db input listing investmentId now

/-- With a number, or without a quantity, these are the writes of the purchase. -/
theorem buyListing_eq_number {db : Database} {input : PurchaseInput} {quantity : Option Decimal}
    (hquantity : input.quantity = quantity.map .number) (investmentId : Uuid)
    (now : Timestamp) :
    buyListing db input investmentId now = (do
      let (_, buyQuantity) ← checkPurchase db (input.withQuantity quantity) now
      let writes ← SecondaryMarket.buyListing db (input.withQuantity quantity) investmentId now
      return .transferred writes (toFixed4 buyQuantity)) := by
  have htransfer : ∀ listing, transfer db input listing investmentId now = (do
      lockInvoice db
      transferNumber db input listing (quantity.getD (ofUnits listing.quantity)) investmentId
        now) := by
    intro listing
    rw [transfer, hquantity]
    cases quantity <;> rfl
  have hcheck : checkPurchase db (input.withQuantity quantity) now = (do
      let listing ← lockListing db input now
      lockInvoice db
      checkQuantity listing (quantity.getD (ofUnits listing.quantity))
      return (listing, quantity.getD (ofUnits listing.quantity))) := by
    simp only [checkPurchase, lockListing, lockInvoice, checkQuantity,
      PurchaseInput.withQuantity, bind_assoc, pure_bind]
    rfl
  simp only [buyListing, htransfer, SecondaryMarket.buyListing, hcheck, transferNumber]
  cases lockListing db input now with
  | error thrown => rfl
  | ok listing =>
      cases hinvoice : lockInvoice db with
      | error thrown => rfl
      | ok checked =>
          simp only [ok_bind]
          cases checkQuantity listing (quantity.getD (ofUnits listing.quantity)) with
          | error thrown => rfl
          | ok checked => rfl

theorem transferNumber_eq_ok {db : Database} {input : PurchaseInput} {listing : SecondaryListing}
    {buyQuantity : Decimal} {investmentId : Uuid} {now : Timestamp} {purchase : PurchaseResult}
    (hok : transferNumber db input listing buyQuantity investmentId now = .ok purchase) :
    0 < buyQuantity ∧ buyQuantity ≤ ofUnits listing.quantity ∧
      purchase = .transferred (numberWrites db input listing buyQuantity investmentId now)
        (toFixed4 buyQuantity) := by
  obtain ⟨_, hquantity, hpurchase⟩ := bind_eq_ok.mp hok
  simp only [checkQuantity, bind_eq_ok, throwIf_eq_ok, exists_const, not_le, not_lt] at hquantity
  exact ⟨hquantity.1, hquantity.2, pure_eq_ok.mp hpurchase⟩

/-- The number that a purchase asks for. -/
def requestedQuantity (input : PurchaseInput) (listing : SecondaryListing) : Option Decimal :=
  match input.quantity with
  | none => some (ofUnits listing.quantity)
  | some (.number value) => some value
  | some _ => none

/-- A purchase is of the requested number, or of NaN, on a funded invoice. -/
theorem transfer_eq_ok {db : Database} {input : PurchaseInput} {listing : SecondaryListing}
    {investmentId : Uuid} {now : Timestamp} {purchase : PurchaseResult}
    (hok : transfer db input listing investmentId now = .ok purchase) :
    (∃ invoice, db.invoice = some invoice ∧ invoice.status = .funded) ∧
      ((∃ buyQuantity, requestedQuantity input listing = some buyQuantity ∧ 0 < buyQuantity ∧
          buyQuantity ≤ ofUnits listing.quantity ∧
          purchase = .transferred (numberWrites db input listing buyQuantity investmentId now)
            (toFixed4 buyQuantity)) ∨
        requestedQuantity input listing = none ∧
          ∃ found investments, purchase = .notANumber found investments) := by
  obtain ⟨_, hinvoice, hrest⟩ := bind_eq_ok.mp hok
  simp only [lockInvoice, bind_eq_ok, orThrow_eq_ok, throwIf_eq_ok, exists_const] at hinvoice
  obtain ⟨invoice, hstored, hfunded, _⟩ := hinvoice
  refine ⟨⟨invoice, hstored, by simpa using hfunded⟩, ?_⟩
  rw [requestedQuantity]
  split at hrest
  · rename_i hquantity
    rw [hquantity]
    exact .inl ⟨_, rfl, transferNumber_eq_ok hrest⟩
  · rename_i value hquantity
    rw [hquantity]
    exact .inl ⟨value, rfl, transferNumber_eq_ok hrest⟩
  · rename_i hquantity
    rw [hquantity]
    exact .inr ⟨rfl, _, _, pure_eq_ok.mp hrest⟩
  · cases hrest
  · cases hrest
  · cases hrest

theorem lockListing_eq_ok {db : Database} {input : PurchaseInput} {now : Timestamp}
    {listing : SecondaryListing} (hok : lockListing db input now = .ok listing) :
    (db.listings.find? fun listing => listing.id == input.listingId) = some listing ∧
      listing.status = .active ∧ isExpired listing now = false ∧
      listing.sellerWallet ≠ input.buyerWallet ∧ listing.sellerId ≠ some input.buyerId := by
  simp only [lockListing, bind_eq_ok, orThrow_eq_ok, throwIf_eq_ok, exists_const, pure_eq_ok,
    ne_eq, not_not, not_or] at hok
  obtain ⟨_, hfound, hactive, hexpired, hself, rfl⟩ := hok
  exact ⟨hfound, hactive, by simpa using hexpired, hself.1, hself.2⟩

end StellarSettle.MarketQuantity
