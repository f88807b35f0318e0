import StellarSettle.Core.Recording
import StellarSettle.Projections.EventReader

/-!
# The dividend projection

`DividendDistributed` events give allocations, `DividendClaimed` events give claims.  What a
holder can claim is summed up by cycle.  A save is taken to succeed.
-/

namespace StellarSettle.DividendDistribution

open StellarSettle.Amounts
open StellarSettle.ContractEventBus
open StellarSettle.Entities
open StellarSettle.EventReader
open StellarSettle.Recording

/-! ## Tables -/

/-- In every row, `source` is the event that it was recorded for; nothing reads it. -/
structure Distribution where
  source : String
  issuerWallet : String
  totalAmount : Amount
  recipientCount : ℕ
  cycleFrequency : Option String
  txHash : Option String
  distributedAt : Timestamp
  deriving DecidableEq, Repr

structure Allocation where
  source : String
  allocationId : String
  distributionId : Option String
  issuerWallet : String
  recipientWallet : String
  amount : Amount
  cycleFrequency : Option String
  txHash : Option String
  ledgerSequence : ℕ
  distributedAt : Timestamp
  deriving DecidableEq, Repr

structure Claim where
  source : String
  claimId : String
  distributionId : Option String
  issuerWallet : Option String
  recipientWallet : String
  amount : Amount
  cycleFrequency : Option String
  txHash : Option String
  ledgerSequence : ℕ
  claimedAt : Timestamp
  deriving DecidableEq, Repr

structure Tables where
  distributions : List Distribution := []
  allocations : List Allocation := []
  claims : List Claim := []
  deriving DecidableEq, Repr

/-! ## The repository -/

/-- `dividend_distributions` has no ledger column: the cycle is keyed on its transaction, its
issuer and its time.  A missing hash is looked up as the empty one. -/
def findsDistribution (input row : Distribution) : Bool :=
  row.txHash = some (input.txHash.getD "") ∧ row.issuerWallet = input.issuerWallet ∧
    row.distributedAt = input.distributedAt

def findsAllocation (input row : Allocation) : Bool := row.allocationId = input.allocationId

def findsClaim (input row : Claim) : Bool := row.claimId = input.claimId

def recordDistribution (tables : Tables) (input : Distribution) : Tables :=
  { tables with distributions := record findsDistribution tables.distributions input }

def recordAllocations (tables : Tables) (inputs : List Allocation) : Tables :=
  { tables with allocations := recordAll findsAllocation tables.allocations inputs }

def recordClaim (tables : Tables) (input : Claim) : Tables :=
  { tables with claims := record findsClaim tables.claims input }

/-! ## Handlers -/

section Handlers

variable (parse : String → Option DecimalValue)

/-- Fixes an allocation amount to the entity's decimal scale. -/
def normalizeAmount (value : String) : Amount :=
  ((tryDecimal parse (.string value)).getD (.number 0)).toFixed

def holderKeys : List String := ["recipients", "allocations", "holders", "beneficiaries", "payouts"]

/-- One entry of the recipients: a wallet with its amount beside it, or a record. -/
def recipientRecord (amounts : Option (List String)) (entry : EventValue) (index : ℕ) :
    Option (String × Amount) :=
  match entry with
  | .string wallet =>
      ((amounts.bind fun texts => texts[index]?).filter (· ≠ "")).map fun amount =>
        (wallet, normalizeAmount parse amount)
  | .object holder => do
      let wallet ← firstString holder ["wallet", "address", "recipient", "holder", "account"]
      let amount ← tryDecimal parse
        (firstProperty holder ["amount", "value", "share", "allocated", "payout"])
      return (wallet, amount.toFixed)
  | _ => none

/-- Either a list of records or two parallel arrays. -/
def extractRecipientRecords : EventValue → List (String × Amount)
  | .object record =>
      let entries := holderKeys.findSome? fun key =>
        match property record key with
        | .array elements => some elements
        | _ => none
      let wallets := toStringArray (firstProperty record ["wallets", "holders"])
      let amounts := toStringArray (property record "amounts")
      match entries with
      | none =>
          match wallets, amounts with
          | some wallets, some amounts =>
              ((wallets.zip amounts).filter fun entry => entry.1 ≠ "" ∧ entry.2 ≠ "").map
                fun entry => (entry.1, normalizeAmount parse entry.2)
          | _, _ => []
      | some entries =>
          entries.zipIdx.filterMap fun entry => recipientRecord parse amounts entry.1 entry.2
  | _ => []

def readIssuer (event : Event) : Option String :=
  readEventString event ["issuer_wallet", "issuerWallet", "issuer", "0"] (some 1)

def readCycleFrequency (event : Event) : Option String :=
  readEventString event ["cycle_frequency", "cycleFrequency", "frequency"]

/-- `eventAllocationId ?? event.txHash ?? event.id`. -/
def allocationKey (event : Event) : String :=
  ((readEventString event ["allocation_id", "allocationId"]).or event.txHash).getD event.id

/-- The allocations of an event; the recipient's index is part of each id. -/
def readAllocations (delivery : Delivery) (issuerWallet : String) : List Allocation :=
  let event := delivery.event
  (extractRecipientRecords parse event.data).zipIdx.map fun entry =>
    { source := delivery.source
      allocationId := s!"{allocationKey event}:{entry.2}"
      distributionId := readEventString event ["distribution_id", "distributionId"]
      issuerWallet := issuerWallet
      recipientWallet := entry.1.1
      amount := entry.1.2
      cycleFrequency := readCycleFrequency event
      txHash := event.txHash
      ledgerSequence := event.ledger
      distributedAt := eventTimestamp delivery }

def handleDistributed (tables : Tables) (delivery : Delivery) : Tables :=
  match readIssuer delivery.event with
  | none => tables
  | some issuerWallet =>
      let allocations := readAllocations parse delivery issuerWallet
      let recorded := recordDistribution tables
        { source := delivery.source
          issuerWallet := issuerWallet
          totalAmount := (sumDecimals (allocations.map Allocation.amount)).toFixed
          recipientCount := allocations.length
          cycleFrequency := readCycleFrequency delivery.event
          txHash := delivery.event.txHash
          distributedAt := eventTimestamp delivery }
      if allocations = [] then recorded else recordAllocations recorded allocations

def readAmount (event : Event) (keys : List String) : Option Amount :=
  ((readEventString event keys).bind fun text => tryDecimal parse (.string text)).map
    DecimalValue.toFixed

/-- `event.txHash ? ... : ...`: the empty hash is none. -/
def claimKey (event : Event) : String :=
  match event.txHash.filter (· ≠ "") with
  | some txHash => s!"claim:{txHash}"
  | none => s!"claim:{event.id}"

def readRecipient (event : Event) : Option String :=
  readEventString event
    ["recipient_wallet", "recipientWallet", "recipient", "claimer", "holder", "0"] (some 1)

def readClaimAmount (event : Event) : Option Amount :=
  readAmount parse event ["amount", "claimed", "claim_amount", "1"]

def readClaimId (event : Event) : String :=
  (readEventString event ["claim_id", "claimId", "claim", "2"]).getD (claimKey event)

def readClaim (delivery : Delivery) : Option Claim := do
  let event := delivery.event
  let recipientWallet ← readRecipient event
  let amount ← readClaimAmount parse event
  return {
    source := delivery.source
    claimId := readClaimId event
    distributionId :=
      readEventString event ["distribution_id", "distributionId", "cycle_id", "cycleId"]
    issuerWallet := readEventString event ["issuer_wallet", "issuerWallet", "issuer"]
    recipientWallet := recipientWallet
    amount := amount
    cycleFrequency := readCycleFrequency event
    txHash := event.txHash
    ledgerSequence := event.ledger
    claimedAt := eventTimestamp delivery }

def handleClaimed (tables : Tables) (delivery : Delivery) : Tables :=
  match readClaim parse delivery with
  | none => tables
  | some claim => recordClaim tables claim

def distributedTopic : String := "dividend_distributed"

def claimedTopic : String := "dividend_claimed"

def handle (tables : Tables) (delivery : Delivery) : Tables :=
  if normalizeTopic delivery.event.topic = distributedTopic then
    handleDistributed parse tables delivery
  else if normalizeTopic delivery.event.topic = claimedTopic then
    handleClaimed parse tables delivery
  else tables

/-- The projection after the deliveries. -/
def project (deliveries : List Delivery) : Tables := deliveries.foldl (handle parse) {}

end Handlers

end StellarSettle.DividendDistribution
