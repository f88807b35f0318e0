import StellarSettle.Model.DecimalJs

/-!
# Stored rows and service errors

The columns of the entities that the modelled services read or write, and the
slice of the database that belongs to one invoice.  A `uuid` column is its
128-bit value: only equality and the order of its text are ever used, and the
canonical text orders as the value does.  A missing, null or empty optional id is
`none`, because the services only test such a value for truth.
-/

namespace StellarSettle.Entities

open StellarSettle.DecimalJs

abbrev Uuid := ℕ

/-- Milliseconds since the epoch, as `Date.now()` counts them. -/
abbrev Timestamp := ℤ

/-! ## Enumerations -/

inductive InvoiceStatus where
  | draft
  | pending
  | published
  | funded
  | settled
  | cancelled
  | rejected
  | failed
  deriving DecidableEq, Repr

def InvoiceStatus.text : InvoiceStatus → String
  | draft => "draft"
  | pending => "pending"
  | published => "published"
  | funded => "funded"
  | settled => "settled"
  | cancelled => "cancelled"
  | rejected => "rejected"
  | failed => "failed"

inductive InvestmentStatus where
  | pending
  | confirmed
  | settled
  | cancelled
  deriving DecidableEq, Repr

inductive SettlementIntentStatus where
  | prepared
  | submitting
  | distributed
  | completed
  deriving DecidableEq, Repr

inductive TransactionType where
  | investment
  | payment
  | withdrawal
  | refund
  deriving DecidableEq, Repr

inductive TransactionStatus where
  | pending
  | completed
  | failed
  deriving DecidableEq, Repr

inductive ListingStatus where
  | active
  | sold
  | cancelled
  | expired
  deriving DecidableEq, Repr

inductive ExtensionRequestStatus where
  | pending
  | approved
  | rejected
  deriving DecidableEq, Repr

def ExtensionRequestStatus.text : ExtensionRequestStatus → String
  | pending => "pending"
  | approved => "approved"
  | rejected => "rejected"

inductive InvoiceTransitionActorRole where
  | seller
  | admin
  | system
  deriving DecidableEq, Repr

inductive InvoiceTransitionReason where
  | sellerSubmitted
  | sellerPublished
  | sellerBatchPublished
  | sellerCancelled
  | adminApproved
  | adminCancelled
  | fullyFunded
  | adminSettled
  | onChainSettled
  | adminRejected
  | maturitySettled
  | maturityUnderfunded
  deriving DecidableEq, Repr

/-! ## Errors -/

inductive ErrorCode where
  | invalidProceeds
  | invalidFundedAmount
  | invalidRepaymentAmount
  | distributorConfigurationMissing
  | invalidDistributorFee
  | settlementReconciliationRequired
  | invoiceNotFound
  | forbidden
  | invoiceAlreadySettled
  | invalidInvoiceStatus
  | noConfirmedInvestments
  | settlementSnapshotChanged
  | settlementIntentConflict
  | settlementIntentNotFound
  | settlementIntentInvalid
  | settlementInProgress
  | onChainSettlementError
  | invalidStatusTransition
  | transitionNotPermitted
  | invoiceNotPublishable
  | transitionPreconditionFailed
  | invalidAmount
  | invalidAmountOrDiscount
  | invalidDiscountRate
  | invoiceNotOpenForInvestment
  | invoiceExpired
  | fundingDeadlinePassed
  | selfDealing
  | insufficientCapacity
  | duplicateInvestment
  | concurrentInvestmentConflict
  | investmentNotFound
  | refundNotAllowed
  | reconciliationConflict
  | invalidPayment
  | stellarPaymentAlreadyUsed
  | listingNotFound
  | listingNotActive
  | listingExpired
  | selfPurchase
  | invalidQuantity
  | overPurchase
  | invalidPrice
  | invalidExpiry
  | invoiceMatured
  | noHoldings
  | insufficientHoldings
  | invoiceMissing
  | unauthorizedInvoiceAccess
  | invoiceStatusRejected
  | kycApprovalRequired
  | batchPublishRejected
  | invoicePublishFailed
  | invalidRejectionReason
  | invoiceAlreadyRejected
  | invoiceAmountInvalid
  | invoiceUpdateFailed
  | invalidInput
  | emptyFile
  | ipfsUploadFailed
  | documentUploadFailed
  | extensionNotFound
  | extensionNotPending
  | extensionNotAllowed
  | invalidInvestmentState
  | sorobanContractNotConfigured
  | invalidFeeRate
  | noChanges
  | noActiveFeeSchedule
  | invalidDeadline
  | extensionPending
  | emptyBatch
  | batchPublishUnavailable
  | batchFetchFailed
  deriving DecidableEq, Repr

/-- The code as the API reports it. -/
def ErrorCode.text : ErrorCode → String
  | invalidProceeds => "INVALID_PROCEEDS"
  | invalidFundedAmount => "INVALID_FUNDED_AMOUNT"
  | invalidRepaymentAmount => "INVALID_REPAYMENT_AMOUNT"
  | distributorConfigurationMissing => "DISTRIBUTOR_CONFIGURATION_MISSING"
  | invalidDistributorFee => "INVALID_DISTRIBUTOR_FEE"
  | settlementReconciliationRequired => "SETTLEMENT_RECONCILIATION_REQUIRED"
  | invoiceNotFound => "INVOICE_NOT_FOUND"
  | forbidden => "FORBIDDEN"
  | invoiceAlreadySettled => "invoice_already_settled"
  | invalidInvoiceStatus => "INVALID_INVOICE_STATUS"
  | noConfirmedInvestments => "NO_CONFIRMED_INVESTMENTS"
  | settlementSnapshotChanged => "SETTLEMENT_SNAPSHOT_CHANGED"
  | settlementIntentConflict => "SETTLEMENT_INTENT_CONFLICT"
  | settlementIntentNotFound => "SETTLEMENT_INTENT_NOT_FOUND"
  | settlementIntentInvalid => "SETTLEMENT_INTENT_INVALID"
  | settlementInProgress => "SETTLEMENT_IN_PROGRESS"
  | onChainSettlementError => "ON_CHAIN_SETTLEMENT_ERROR"
  | invalidStatusTransition => "invalid_status_transition"
  | transitionNotPermitted => "transition_not_permitted"
  | invoiceNotPublishable => "invoice_not_publishable"
  | transitionPreconditionFailed => "transition_precondition_failed"
  | invalidAmount => "INVALID_AMOUNT"
  | invalidAmountOrDiscount => "INVALID_AMOUNT_OR_DISCOUNT"
  | invalidDiscountRate => "INVALID_DISCOUNT_RATE"
  | invoiceNotOpenForInvestment => "INVOICE_NOT_OPEN_FOR_INVESTMENT"
  | invoiceExpired => "invoice_expired"
  | fundingDeadlinePassed => "funding_deadline_passed"
  | selfDealing => "SELF_DEALING"
  | insufficientCapacity => "INSUFFICIENT_CAPACITY"
  | duplicateInvestment => "DUPLICATE_INVESTMENT"
  | concurrentInvestmentConflict => "CONCURRENT_INVESTMENT_CONFLICT"
  | investmentNotFound => "investment_not_found"
  | refundNotAllowed => "REFUND_NOT_ALLOWED"
  | reconciliationConflict => "reconciliation_conflict"
  | invalidPayment => "invalid_payment"
  | stellarPaymentAlreadyUsed => "stellar_payment_already_used"
  | listingNotFound => "LISTING_NOT_FOUND"
  | listingNotActive => "LISTING_NOT_ACTIVE"
  | listingExpired => "LISTING_EXPIRED"
  | selfPurchase => "SELF_PURCHASE"
  | invalidQuantity => "INVALID_QUANTITY"
  | overPurchase => "OVER_PURCHASE"
  | invalidPrice => "INVALID_PRICE"
  | invalidExpiry => "INVALID_EXPIRY"
  | invoiceMatured => "INVOICE_MATURED"
  | noHoldings => "NO_HOLDINGS"
  | insufficientHoldings => "INSUFFICIENT_HOLDINGS"
  | invoiceMissing => "invoice_not_found"
  | unauthorizedInvoiceAccess => "unauthorized_invoice_access"
  | invoiceStatusRejected => "invalid_invoice_status"
  | kycApprovalRequired => "kyc_approval_required"
  | batchPublishRejected => "batch_publish_rejected"
  | invoicePublishFailed => "invoice_publish_failed"
  | invalidRejectionReason => "invalid_rejection_reason"
  | invoiceAlreadyRejected => "invoice_already_rejected"
  | invoiceAmountInvalid => "invalid_amount"
  | invoiceUpdateFailed => "invoice_update_failed"
  | invalidInput => "invalid_input"
  | emptyFile => "empty_file"
  | ipfsUploadFailed => "ipfs_upload_failed"
  | documentUploadFailed => "document_upload_failed"
  | extensionNotFound => "EXTENSION_NOT_FOUND"
  | extensionNotPending => "EXTENSION_NOT_PENDING"
  | extensionNotAllowed => "EXTENSION_NOT_ALLOWED"
  | invalidInvestmentState => "invalid_investment_state"
  | sorobanContractNotConfigured => "soroban_contract_not_configured"
  | invalidFeeRate => "INVALID_FEE_RATE"
  | noChanges => "NO_CHANGES"
  | noActiveFeeSchedule => "NO_ACTIVE_FEE_SCHEDULE"
  | invalidDeadline => "INVALID_DEADLINE"
  | extensionPending => "EXTENSION_PENDING"
  | emptyBatch => "empty_batch"
  | batchPublishUnavailable => "batch_publish_unavailable"
  | batchFetchFailed => "batch_fetch_failed"

/-- The `details` argument of a service error.  `invoiceId` is the id of the
invoice that the rows below belong to. -/
inductive ErrorDetails where
  | absent
  | invoiceId
  | remainingCapacity (units : ℤ)
  | fundingBlock (block : ℕ)
  | transition (source target : InvoiceStatus)
  | originalError (message : String)
  | rejection (code : ErrorCode) (message : String)
  deriving DecidableEq, Repr

structure ServiceError where
  code : ErrorCode
  message : String
  statusCode : ℕ := 400
  details : ErrorDetails := .absent
  deriving DecidableEq, Repr

/-- An error of the RPC or of a contract, already mapped.  The services only look
at its class. -/
structure ChainError where
  isServiceError : Bool
  message : String
  deriving DecidableEq, Repr

/-- Everything the modelled code throws. -/
inductive Thrown where
  | service (error : ServiceError)
  | appError (statusCode : ℕ) (message : String) (code : ErrorCode)
  | rangeError (message : String)
  | error (message : String)
  | chain (error : ChainError)
  deriving DecidableEq, Repr

/-- Whether a service error carries this code. -/
def Thrown.hasCode (thrown : Thrown) (code : ErrorCode) : Bool :=
  match thrown with
  | service raised => decide (raised.code = code)
  | _ => false

/-! ## Rows -/

/-- Hash of a submitted Stellar transaction.  The RPC never reports an empty
one, and the services read an empty text as a missing hash. -/
structure TransactionHash where
  text : String
  nonempty : text ≠ ""
  deriving DecidableEq, Repr

/-- What happens outside the services during one contract call. -/
inductive ChainOutcome where
  /-- RPC, signer or wiring are not configured: thrown before any check. -/
  | unconfigured (thrown : ChainError)
  /-- Nothing landed: simulation failed, or the transaction was rejected or
  reverted. -/
  | failed (thrown : ChainError)
  /-- The transaction landed but its confirmation never came back. -/
  | lost (thrown : ChainError)
  | confirmed (hash : TransactionHash)
  deriving DecidableEq, Repr

structure User where
  id : Uuid
  stellarAddress : Option String
  deriving DecidableEq, Repr

/-- Amounts in units of `10 ^ -4`, the discount rate in units of `10 ^ -2`, the
due date as a day number and the funding deadline as a timestamp. -/
structure Invoice where
  id : Uuid
  sellerId : Option Uuid
  amount : ℤ
  discountRate : ℤ
  netAmount : ℤ
  fundedAmount : ℤ
  settlementRemainder : ℤ
  status : InvoiceStatus
  dueDate : Option ℤ
  fundingDeadline : Option Timestamp
  ipfsHash : Option String
  rejectionReason : Option String
  version : ℕ
  deriving DecidableEq, Repr

structure Investment where
  id : Uuid
  investorId : Uuid
  investorWallet : Option String
  fundingBlock : Option ℕ
  investmentAmount : ℤ
  expectedReturn : ℤ
  actualReturn : Option ℤ
  status : InvestmentStatus
  transactionHash : Option String
  stellarOperationIndex : Option ℕ
  deriving DecidableEq, Repr

/-- `investment.investor?.stellarAddress ?? investment.investorId`. -/
inductive PayoutAddress where
  | account (address : String)
  | investor (id : Uuid)
  deriving DecidableEq, Repr

structure SettlementIntentInvestment where
  id : Uuid
  investorId : Uuid
  investmentAmount : ℤ
  recipientAddress : PayoutAddress
  returnAmountStroops : ℤ
  deriving DecidableEq, Repr

/-- The JSON document in `settlement_intents.payload`. -/
structure SettlementIntentPayload where
  proceeds : ℤ
  actorWallet : String
  sellerId : Option Uuid
  trigger : InvoiceTransitionReason
  feeRecipient : String
  feeBps : ℤ
  investments : List SettlementIntentInvestment
  deriving DecidableEq, Repr

structure SettlementIntent where
  id : Uuid
  status : SettlementIntentStatus
  payload : SettlementIntentPayload
  transactionHash : Option TransactionHash
  deriving DecidableEq, Repr

structure Transaction where
  userId : Option Uuid
  investmentId : Option Uuid
  type : TransactionType
  amount : ℤ
  stellarTxHash : Option String
  stellarOperationIndex : Option ℕ
  status : TransactionStatus
  deriving DecidableEq, Repr

structure InvestorReturn where
  investmentId : Uuid
  investorId : Uuid
  returnAmount : ℤ
  amount : ℤ
  deriving DecidableEq, Repr

structure SettlementRemainder where
  remainderAmount : ℤ
  totalSettlementAmount : ℤ
  totalDistributedAmount : ℤ
  deriving DecidableEq, Repr

inductive InvestorPayoutStatus where
  | pending
  | completed
  | failed
  deriving DecidableEq, Repr

structure InvestorPayout where
  investorId : Uuid
  investmentId : Uuid
  amount : ℤ
  status : InvestorPayoutStatus
  stellarTxHash : TransactionHash
  deriving DecidableEq, Repr

structure InvoiceStatusHistory where
  fromStatus : InvoiceStatus
  toStatus : InvoiceStatus
  actorRole : InvoiceTransitionActorRole
  actorId : Option String
  trigger : InvoiceTransitionReason
  reason : Option String
  deriving DecidableEq, Repr

structure SecondaryListing where
  id : Uuid
  sellerWallet : String
  sellerId : Option Uuid
  quantity : ℤ
  pricePerFraction : ℤ
  totalPrice : ℤ
  status : ListingStatus
  expiresAt : Timestamp
  deriving DecidableEq, Repr

structure InvoiceExtensionRequest where
  id : Uuid
  proposedDeadline : Timestamp
  previousDeadline : Option Timestamp
  status : ExtensionRequestStatus
  reviewedBy : Option String
  reviewedAt : Option Timestamp
  reviewNote : Option String
  deriving DecidableEq, Repr

/-- The rows that belong to one invoice id.  The unique index on
`settlement_intents.invoice_id` leaves room for one intent. -/
structure Database where
  invoice : Option Invoice
  users : List User := []
  investments : List Investment := []
  settlementIntent : Option SettlementIntent := none
  transactions : List Transaction := []
  investorReturns : List InvestorReturn := []
  settlementRemainders : List SettlementRemainder := []
  investorPayouts : List InvestorPayout := []
  statusHistory : List InvoiceStatusHistory := []
  listings : List SecondaryListing := []
  extensionRequests : List InvoiceExtensionRequest := []
  deriving DecidableEq, Repr

/-! ## Queries and row updates -/

def Database.findUser (db : Database) (id : Uuid) : Option User :=
  db.users.find? fun user => user.id == id

/-- `find(Investment, { where: { invoiceId, status: CONFIRMED } })`. -/
def confirmedInvestments (investments : List Investment) : List Investment :=
  investments.filter fun investment => investment.status == .confirmed

/-- `findOne(Investment, { where: { id } })`. -/
def Database.findInvestment (db : Database) (id : Uuid) : Option Investment :=
  db.investments.find? fun investment => investment.id == id

/-- `manager.save(Investment, investment)`: every column of the row with this id
is brought to its value in memory, and a row that is gone is inserted again. -/
def saveInvestment (investments : List Investment) (entity : Investment) : List Investment :=
  if investments.any fun row => row.id == entity.id then
    investments.map fun row => if row.id = entity.id then entity else row
  else investments ++ [entity]

/-- Statuses in which a payout may have been promised but is not recorded yet. -/
def SettlementIntentStatus.inFlight : SettlementIntentStatus → Bool
  | prepared => true
  | submitting => true
  | distributed => true
  | completed => false

/-- `findOne(SettlementIntent, { where: { invoiceId, status: In([...]) } })`. -/
def Database.intentInFlight (db : Database) : Bool :=
  match db.settlementIntent with
  | none => false
  | some intent => intent.status.inFlight

def Database.payoutAddress (db : Database) (investment : Investment) : PayoutAddress :=
  match (db.findUser investment.investorId).bind fun user => user.stellarAddress with
  | some address => .account address
  | none => .investor investment.investorId

/-! ## A funded invoice with one holder

The concrete runs of the later modules start from this database. -/

def fundedInvoice : Invoice :=
  { id := 1, sellerId := some 2, amount := 1000000, discountRate := 0, netAmount := 1000000
    fundedAmount := 1000000, settlementRemainder := 0, status := .funded, dueDate := none
    fundingDeadline := none, ipfsHash := none, rejectionReason := none, version := 1 }

def soleHolding : Investment :=
  { id := 3, investorId := 4, investorWallet := some "GINVESTOR", fundingBlock := none
    investmentAmount := 1000000, expectedReturn := 1000000, actualReturn := none
    status := .confirmed, transactionHash := none, stellarOperationIndex := none }

def fundedDatabase : Database :=
  { invoice := some fundedInvoice
    users := [⟨2, some "GSELLER"⟩, ⟨4, some "GINVESTOR"⟩]
    investments := [soleHolding] }

def firstHash : TransactionHash := ⟨"a1b2", by decide⟩

def secondHash : TransactionHash := ⟨"c3d4", by decide⟩

end StellarSettle.Entities
