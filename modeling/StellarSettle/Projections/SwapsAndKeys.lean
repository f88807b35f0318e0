import StellarSettle.Core.KeyedRows
import StellarSettle.Projections.EventNumbers

/-!
# Atomic swaps and creator keys

A swap event is recorded once under its swap id.  A configuration event changes the caps of
a creator key that is known.  Both read their amounts as numbers.
-/

namespace StellarSettle.SwapsAndKeys

open StellarSettle.Entities
open StellarSettle.EventNumbers
open StellarSettle.EventReader
open StellarSettle.KeyedRows
open StellarSettle.Numbers

/-! ## Swaps -/

structure AtomicSwapInput where
  swapId : String
  buyerAddress : String
  sellerAddress : String
  buyerInvoiceId : Option String
  sellerInvoiceId : Option String
  buyerAmount : AmountText
  sellerAmount : AmountText
  feeAmount : AmountText
  feeRecipient : Option String
  txHash : Option String
  ledgerSequence : ℕ
  executedAt : Timestamp
  deriving DecidableEq

structure AtomicSwap where
  swapId : String
  buyerAddress : String
  sellerAddress : String
  buyerInvoiceId : Option String
  sellerInvoiceId : Option String
  buyerAmount : ColumnValue
  sellerAmount : ColumnValue
  feeAmount : ColumnValue
  feeRecipient : Option String
  txHash : Option String
  ledgerSequence : ℕ
  executedAt : Timestamp
  deriving DecidableEq

/-- `value === null ? "0" : String(value)`. -/
def amountOrZero : Option JsNumber → AmountText
  | some value => .number value
  | none => .text "0"

def buyerAmountNames : List String := ["buyer_amount", "amount_from", "from_amount"]

def sellerAmountNames : List String := ["seller_amount", "amount_to", "to_amount"]

def feeNames : List String := ["fee", "fee_amount", "platform_fee"]

def readSwap (delivery : Delivery) : Option AtomicSwapInput := do
  let event := delivery.event
  let buyer ← readEventString event ["buyer", "buyer_address", "from", "0"] (some 1)
  let seller ← readEventString event ["seller", "seller_address", "to", "1"] (some 2)
  return {
    swapId := ((readEventString event ["swap_id", "swapId", "id"] (some 3)).or event.txHash).getD
      s!"{event.ledger}:{buyer}:{seller}"
    buyerAddress := buyer
    sellerAddress := seller
    buyerInvoiceId := readEventString event ["buyer_invoice_id", "from_invoice_id"]
    sellerInvoiceId := readEventString event ["seller_invoice_id", "to_invoice_id"]
    buyerAmount := amountOrZero (readEventNumber event buyerAmountNames)
    sellerAmount := amountOrZero (readEventNumber event sellerAmountNames)
    feeAmount := amountOrZero (readEventNumber event feeNames)
    feeRecipient := readEventString event ["fee_recipient", "recipient"]
    txHash := event.txHash
    ledgerSequence := event.ledger
    executedAt := eventTimestamp delivery }

/-- The row of a swap, or nothing where an amount does not fit its column. -/
def swapRow (input : AtomicSwapInput) : Option AtomicSwap := do
  return {
    swapId := input.swapId
    buyerAddress := input.buyerAddress
    sellerAddress := input.sellerAddress
    buyerInvoiceId := input.buyerInvoiceId
    sellerInvoiceId := input.sellerInvoiceId
    buyerAmount := ← input.buyerAmount.column
    sellerAmount := ← input.sellerAmount.column
    feeAmount := ← input.feeAmount.column
    feeRecipient := input.feeRecipient
    txHash := input.txHash
    ledgerSequence := input.ledgerSequence
    executedAt := input.executedAt }

def findSwap (swaps : List AtomicSwap) (swapId : String) : Option AtomicSwap :=
  findRow AtomicSwap.swapId swaps swapId

/-- Idempotent on the swap id. -/
def recordSwap (swaps : List AtomicSwap) (input : AtomicSwapInput) : List AtomicSwap :=
  match findSwap swaps input.swapId with
  | some _ => swaps
  | none =>
      match swapRow input with
      | some swap => swaps ++ [swap]
      | none => swaps

def mentionsSwap (topic : String) : Bool := "swap".toList <:+: topic.toLower.toList

def handleSwap (swaps : List AtomicSwap) (delivery : Delivery) : List AtomicSwap :=
  if mentionsSwap delivery.event.topic then
    match readSwap delivery with
    | some input => recordSwap swaps input
    | none => swaps
  else swaps

/-! ## Creator keys -/

/-- The columns that a configuration event changes. -/
structure CreatorKey where
  id : String
  maxBuyPerTx : ColumnValue
  maxBuyPerDay : ColumnValue
  currentSupply : ColumnValue
  configVersion : ℕ
  deriving DecidableEq

structure ConfigUpdate where
  maxBuyPerTx : Option AmountText
  maxBuyPerDay : Option AmountText
  currentSupply : Option AmountText
  deriving DecidableEq

def maxBuyPerTxNames : List String := ["max_buy_per_tx", "maxBuyPerTx"]

def maxBuyPerDayNames : List String := ["max_buy_per_day", "maxBuyPerDay"]

def currentSupplyNames : List String := ["current_supply", "currentSupply", "supply"]

def readKeyId (event : Event) : Option String :=
  readEventString event ["key_id", "keyId", "id", "0"] (some 1)

def readConfigUpdate (event : Event) : ConfigUpdate where
  maxBuyPerTx := (readEventNumber event maxBuyPerTxNames).map .number
  maxBuyPerDay := (readEventNumber event maxBuyPerDayNames).map .number
  currentSupply := (readEventNumber event currentSupplyNames).map .number

/-- An amount that an update leaves out keeps its column. -/
def updatedColumn (column : ColumnValue) : Option AmountText → Option ColumnValue
  | some text => text.column
  | none => some column

def updatedKey (key : CreatorKey) (update : ConfigUpdate) : Option CreatorKey := do
  return {
    id := key.id
    maxBuyPerTx := ← updatedColumn key.maxBuyPerTx update.maxBuyPerTx
    maxBuyPerDay := ← updatedColumn key.maxBuyPerDay update.maxBuyPerDay
    currentSupply := ← updatedColumn key.currentSupply update.currentSupply
    configVersion := key.configVersion + 1 }

def findKey (keys : List CreatorKey) (id : String) : Option CreatorKey :=
  findRow CreatorKey.id keys id

def applyConfigUpdate (keys : List CreatorKey) (keyId : String) (update : ConfigUpdate) :
    List CreatorKey :=
  match findKey keys keyId with
  | none => keys
  | some key =>
      match updatedKey key update with
      | some updated => saveRow CreatorKey.id keys updated
      | none => keys

def handleConfig (keys : List CreatorKey) (delivery : Delivery) : List CreatorKey :=
  match readKeyId delivery.event with
  | some keyId => applyConfigUpdate keys keyId (readConfigUpdate delivery.event)
  | none => keys

end StellarSettle.SwapsAndKeys
