import StellarSettle.Core.Recording
import StellarSettle.Projections.EventReader

/-!
# The royalty projection

`RoyaltyPaid` events accrue earnings of a creator.  A save is taken to succeed.
-/

namespace StellarSettle.RoyaltyEarnings

open StellarSettle.Amounts
open StellarSettle.ContractEventBus
open StellarSettle.Entities
open StellarSettle.EventReader
open StellarSettle.Recording

/-- A row of `royalty_events`; `source` is the event that it was recorded for, and nothing
reads it. -/
structure RoyaltyEvent where
  source : String
  keyAddress : String
  creatorWallet : String
  buyerWallet : Option String
  amount : Amount
  txHash : Option String
  ledgerSequence : ℕ
  paidAt : Timestamp
  deriving DecidableEq, Repr

/-- The transaction and the ledger are the idempotency key; a missing hash is looked up as
the empty one, but stored as none. -/
def findsRoyalty (input row : RoyaltyEvent) : Bool :=
  row.txHash = some (input.txHash.getD "") ∧ row.ledgerSequence = input.ledgerSequence

def recordRoyaltyPaid (events : List RoyaltyEvent) (input : RoyaltyEvent) : List RoyaltyEvent :=
  record findsRoyalty events input

section Handlers

variable (parse : String → Option DecimalValue)

/-- The first of the keys' values that is a Decimal, at the entity's scale. -/
def readAmount (event : Event) (keys : List String) : Option Amount :=
  let candidates :=
    match event.data with
    | .object fields => keys.map fun key => property fields key
    | .array elements => keys.filterMap fun key => elements[keyIndex key]?
    | _ => []
  (candidates.findSome? (tryDecimal parse)).map DecimalValue.toFixed

def readKeyAddress (event : Event) : Option String :=
  readEventString event ["key_address", "keyAddress", "key", "0"] (some 1)

def readCreatorWallet (event : Event) : Option String :=
  readEventString event
    ["creator_wallet", "creatorWallet", "creator", "rights_holder", "1"] (some 2)

def readRoyaltyAmount (event : Event) : Option Amount :=
  readAmount parse event ["amount", "royalty", "royalty_amount", "2"]

def readRoyaltyPaid (delivery : Delivery) : Option RoyaltyEvent := do
  let event := delivery.event
  let keyAddress ← readKeyAddress event
  let creatorWallet ← readCreatorWallet event
  let amount ← readRoyaltyAmount parse event
  return {
    source := delivery.source
    keyAddress := keyAddress
    creatorWallet := creatorWallet
    buyerWallet := readEventString event ["buyer_wallet", "buyerWallet", "buyer", "payer", "3"]
    amount := amount
    txHash := event.txHash
    ledgerSequence := event.ledger
    paidAt := eventTimestamp delivery }

def handleRoyaltyPaid (events : List RoyaltyEvent) (delivery : Delivery) : List RoyaltyEvent :=
  match readRoyaltyPaid parse delivery with
  | none => events
  | some input => recordRoyaltyPaid events input

def royaltyPaidTopic : String := "royalty_paid"

def handle (events : List RoyaltyEvent) (delivery : Delivery) : List RoyaltyEvent :=
  if normalizeTopic delivery.event.topic = royaltyPaidTopic then
    handleRoyaltyPaid parse events delivery
  else events

/-- The projection after the deliveries. -/
def project (deliveries : List Delivery) : List RoyaltyEvent := deliveries.foldl (handle parse) []

end Handlers

/-! ## Totals -/

structure RoyaltyTotals where
  totalEarned : Amount
  transferCount : ℕ
  deriving DecidableEq, Repr

def totalsByCreator (events : List RoyaltyEvent) (creatorWallet : String) : RoyaltyTotals :=
  let own := events.filter fun event => event.creatorWallet = creatorWallet
  { totalEarned := columnSum (own.map RoyaltyEvent.amount), transferCount := own.length }

/-- What `getEarnings` takes from the royalty events. -/
def getEarnings (events : List RoyaltyEvent) (creatorWallet : String) : RoyaltyTotals :=
  let earned := totalsByCreator events creatorWallet
  { earned with totalEarned := earned.totalEarned.value.toFixed }

theorem toFixed_value (amount : Amount) : amount.value.toFixed = amount := by
  cases amount with
  | units count => exact toFixed_ofUnits count
  | nan => rfl
  | infinity negative => rfl

theorem getEarnings_eq {events : List RoyaltyEvent} {creatorWallet : String}
    (hnumbers : ∀ amount ∈ ((events.filter fun event => event.creatorWallet = creatorWallet).map
      RoyaltyEvent.amount), amount.IsNumber) :
    getEarnings events creatorWallet =
      { totalEarned := .units (unitsTotal
          ((events.filter fun event => event.creatorWallet = creatorWallet).map
            RoyaltyEvent.amount))
        transferCount :=
          ((events.filter fun event => event.creatorWallet = creatorWallet).map
            RoyaltyEvent.amount).length } := by
  rw [getEarnings, totalsByCreator]
  dsimp only
  rw [toFixed_value, columnSum_eq hnumbers, List.length_map]

end StellarSettle.RoyaltyEarnings
