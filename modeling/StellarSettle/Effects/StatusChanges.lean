import StellarSettle.Core.TransactionScript
import StellarSettle.Investments.InvestmentService
import StellarSettle.Invoices.InvoiceService
import StellarSettle.Kyc.KycService
import StellarSettle.Settlement.AdminSettlement

/-!
# Status changes with their effects

The operations that change the status of an invoice or of a verification in a transaction, one
step for each statement, call and effect.  What a step sees is up to the other requests; where a
source step catches an error, so does its script.
-/

namespace StellarSettle.StatusChanges

open StellarSettle.AdminSettlement
open StellarSettle.Checks
open StellarSettle.DecimalJs
open StellarSettle.Entities
open StellarSettle.InvestmentService (CreateInvestmentInput InvestInInvoiceInput advanceFundedAmount
  checkCapacity checkCreateAmount checkDuplicate checkInvestAmount concurrentInvestmentConflict
  createdInvestment fullyFunded insertInvestment investedInvoice investedShare
  lockInvoiceToInvest newFunded readInvoiceToInvest)
open StellarSettle.EventReader (trimText)
open StellarSettle.InvestorReturn
open StellarSettle.InvoiceLifecycle
open StellarSettle.InvoiceService (StatusRequest readToPublish)
open StellarSettle.KycService (Key KycReviewInput KycTables findForWebhook firstText
  reviewDecision userNotFound verificationNotFound)
open StellarSettle.KycWebhook (Documents IdText KYCStatus KYCVerification KycWebhookPayload
  WebhookError isDecision queryId)
open StellarSettle.PaymentDistributor
open StellarSettle.SettleInvoice
open StellarSettle.SettlementIntents
open StellarSettle.TransactionScript
open StellarSettle.TransactionScript.Script

/-! ## Steps -/

/-- What the surroundings give to one step: the rows it sees, and the hash, verdict, id or time
it asks for. -/
structure Answer where
  db : Database
  kyc : KycTables
  transactionHash : TransactionHash
  suitable : Bool
  id : Uuid
  now : Timestamp

inductive Raised where
  | thrown (thrown : Thrown)
  | http (error : WebhookError)
  | fundingConflict
  | optimisticLockVersionMismatch
  | suitabilityCheckFailed
  deriving DecidableEq, Repr

inductive Change where
  | moved (transition : InvoiceTransition)
  | invested (investment : Investment)
  | decided (userId : Uuid) (kycStatus : KYCStatus)
  deriving DecidableEq, Repr

inductive Effect where
  | dispatch (transition : InvoiceTransition)
  | emitSettlement (transition : InvoiceTransition)
  | updateReputationOnSettlement (transition : InvoiceTransition)
  | settlementReceived (investorId : Uuid) (transition : InvoiceTransition)
  | notifyInvestors (investorIds : List Uuid) (transition : InvoiceTransition)
  | investmentCreated (investment : Investment)
  | createNotification (userId : Uuid) (kycStatus : KYCStatus)
  deriving DecidableEq, Repr

/-- The change that an effect tells others about. -/
def announced : Effect → Change
  | .dispatch transition => .moved transition
  | .emitSettlement transition => .moved transition
  | .updateReputationOnSettlement transition => .moved transition
  | .settlementReceived _ transition => .moved transition
  | .notifyInvestors _ transition => .moved transition
  | .investmentCreated investment => .invested investment
  | .createNotification userId kycStatus => .decided userId kycStatus

abbrev StatusScript := Script Answer Change Effect Raised

abbrev StepReply := Reply Answer Raised

/-- A computation on what was read. -/
def check {Result : Type} (result : Except Thrown Result) : StatusScript Result :=
  Script.ofExcept (result.mapError .thrown)

def checkHttp {Result : Type} (result : Except WebhookError Result) : StatusScript Result :=
  Script.ofExcept (result.mapError .http)

/-- A statement whose answer is not used. -/
def write : StatusScript Unit := do
  let _ ← statement

/-- The locked read, or a plain one where the driver has no row locks. -/
def lockInvoice : StatusScript Answer :=
  tryCatch statement fun _ => statement

/-- `InvoiceStateMachine.transition` with the store of the transaction: the invoice, and then its
history row. -/
def moveInvoice (entity : Invoice) (target : InvoiceStatus) (options : TransitionOptions) :
    StatusScript InvoiceTransition := do
  check (assertTransition entity target options.actor options.context)
  let stored ← statement
  let row ← check (orThrow stored.db.invoice (.service SettlementIntents.invoiceNotFound))
  let moved ← check (transition stored.db.intentInFlight row entity target options)
  act (.change (.moved moved))
  return moved

/-- `InvoiceStateMachine.dispatch`: a failing effect is logged. -/
def dispatch (transition : InvoiceTransition) : StatusScript Unit := tell (.dispatch transition)

/-! ## `SettlementService.settleInvoice` -/

structure SettlementDependencies where
  service : SettlementService
  notificationService : Bool
  issuerReputationService : Bool
  deriving DecidableEq, Repr

/-- The comparison of the caller with the wallet of the seller, when it is made at all. -/
def checkSellerWallet (compared : Bool) (actorWallet : String) (invoice : Invoice) :
    StatusScript Unit :=
  if compared && actorWallet != "" && invoice.sellerId.isSome then do
    let found ← statement
    check (throwIf (walletMismatch found.db actorWallet invoice) (.service forbiddenWallet))
  else return ()

def insertIntent (input : PrepareSettlementIntentInput) : StatusScript SettlementIntent := do
  let held ← statement
  let investments := confirmedInvestments held.db.investments
  check (throwIf (investments = []) (.service noConfirmedInvestments))
  let payload ← check (settlementIntentPayload held.db input investments)
  let saved ← statement
  let _ ← check (insertSettlementIntent saved.db saved.id payload)
  return { id := saved.id, status := .prepared, payload := payload, transactionHash := none }

def findOrInsertIntent (input : PrepareSettlementIntentInput) : StatusScript SettlementIntent := do
  let locked ← lockInvoice
  let invoice ← check (orThrow locked.db.invoice (.service SettlementIntents.invoiceNotFound))
  check (throwIf (sellerMismatch input.sellerId invoice) (.service forbiddenSeller))
  checkSellerWallet true input.actorWallet invoice
  check (throwIf (invoice.status ≠ .funded) (.service (cannotSettle invoice.status)))
  let found ← statement
  match found.db.settlementIntent with
  | some existing => do
      check (throwIf (¬samePayload existing.payload input) (.service settlementIntentConflict))
      return existing
  | none => insertIntent input

def prepareSettlementIntent (input : PrepareSettlementIntentInput) :
    StatusScript SettlementIntent := do
  check (checkDistributorFee input.feeBps)
  transaction (findOrInsertIntent input)

def claimIntent (intentId : Uuid) : StatusScript Unit := do
  let found ← statement
  let _ ← check (claimSettlementIntent found.db intentId)
  write

def markDistributed (intentId : Uuid) (transactionHash : TransactionHash) :
    StatusScript Unit := do
  let found ← statement
  let _ ← check (markSettlementDistributed found.db intentId transactionHash)
  write

def submitPayouts (input : DistributePayoutsInput) : StatusScript TransactionHash := do
  check (checkPayouts input)
  let submitted ← statement
  return submitted.transactionHash

/-- The payout of a prepared intent. -/
def claimAndPay (intent : SettlementIntent) : StatusScript TransactionHash := do
  transaction (claimIntent intent.id)
  let transactionHash ← submitPayouts (distributionInput intent.payload)
  transaction (markDistributed intent.id transactionHash)
  return transactionHash

def payIntent (intent : SettlementIntent) : StatusScript TransactionHash := do
  match ← check (payoutRoute intent) with
  | .recorded transactionHash => return transactionHash
  | .claim => claimAndPay intent

def distributeIntent (prepare : PrepareSettlementIntentInput) :
    StatusScript (Option DistributedIntent) := do
  let intent ← prepareSettlementIntent prepare
  let transactionHash ← payIntent intent
  return some ⟨intent.id, intent.payload, transactionHash⟩

def handleIntent (service : SettlementService) (input : SettleInvoiceInput) :
    StatusScript (Option DistributedIntent) := do
  match ← check (enterSettlement service input) with
  | none => return none
  | some prepare => distributeIntent prepare

/-- `if (this.paymentDistributor && !transactionHash) { ... }`. -/
def payDirectly (service : SettlementService) (db : Database) (investments : List Investment)
    (proceedsScaled totalFundedScaled distributableScaled : ℤ)
    (transactionHash : Option TransactionHash) : StatusScript (Option TransactionHash) :=
  if service.paymentDistributor ∧ transactionHash = none then do
    let config ← check
      (orThrow service.distributorConfig (.service distributorConfigurationMissing))
    let arguments ← check (directDistributionInput db config investments proceedsScaled
      totalFundedScaled distributableScaled)
    let submitted ← submitPayouts arguments
    return some submitted
  else return transactionHash

def savePayment (transactionHash : Option TransactionHash) : StatusScript Unit :=
  if transactionHash.isSome then write else return ()

/-- The body of the loop over the investments: the investment and its return are saved. -/
def settleHolding (totalFundedScaled distributableScaled : ℤ) (investment : Investment) :
    StatusScript Investment := do
  let actualReturnScaled ← check
    (computeInvestorReturn investment.investmentAmount totalFundedScaled distributableScaled)
  write
  write
  return { investment with actualReturn := some actualReturnScaled, status := .settled }

/-- `if (settlementIntent) { ... }`. -/
def completeIntent (plan : SettlementPlan) : StatusScript Unit :=
  if plan.intentId.isSome then do
    let found ← statement
    let _ ← check (completeSettlementIntent found.db plan.intentId plan.transactionHash)
    write
  else return ()

/-- What the transaction returns: the transition, and the investments for their holders. -/
structure RecordedSettlement where
  transition : InvoiceTransition
  investments : List Investment

def RecordedSettlement.changes (recorded : RecordedSettlement) : List Change :=
  [.moved recorded.transition]

/-- From the confirmed investments on. -/
def recordHoldings (service : SettlementService) (input : SettleInvoiceInput)
    (distributed : Option DistributedIntent) (invoice : Invoice) (db : Database)
    (investments : List Investment) : StatusScript RecordedSettlement := do
  let totalFundedScaled :=
    toFixed4 (sumAmounts (investments.map fun investment => investment.investmentAmount))
  let proceedsScaled := toFixed4 input.proceeds
  let distributableScaled := proceedsScaled - settlementFee service proceedsScaled
  let transactionHash ← payDirectly service db investments proceedsScaled totalFundedScaled
    distributableScaled (input.settlementTransactionHash.or
      (distributed.map fun intent => intent.transactionHash))
  savePayment transactionHash
  let settled ← investments.mapM (settleHolding totalFundedScaled distributableScaled)
  write
  let plan := settlementPlan input distributed invoice proceedsScaled distributableScaled
    transactionHash (settled.map fun investment => investment.actualReturn.getD 0).sum settled
  let moved ← moveInvoice plan.invoice .settled
    { actor := { role := .system, wallet := some plan.actorWallet }, trigger := plan.trigger }
  completeIntent plan
  return ⟨moved, settled⟩

/-- The settlement transaction. -/
def recordSettlement (service : SettlementService) (input : SettleInvoiceInput)
    (distributed : Option DistributedIntent) : StatusScript RecordedSettlement := do
  let locked ← lockInvoice
  let invoice ← check (orThrow locked.db.invoice (.service SettlementIntents.invoiceNotFound))
  check (throwIf (sellerMismatch input.sellerId invoice) (.service forbiddenSeller))
  checkSellerWallet (!input.authorizedForAutomatedSettlement) input.actorWallet invoice
  check (throwIf (invoice.status = .settled) (.service invoiceAlreadySettled))
  check (throwIf (invoice.status ≠ .funded) (.service (invalidInvoiceStatus invoice.status)))
  let held ← statement
  let investments := confirmedInvestments held.db.investments
  check (throwIf (investments = []) (.service noConfirmedInvestments))
  check (checkSnapshot distributed investments)
  recordHoldings service input distributed invoice held.db investments

/-- The reads and the call are caught. -/
def updateReputation (dependencies : SettlementDependencies) (transition : InvoiceTransition) :
    StatusScript Unit :=
  if dependencies.issuerReputationService && transition.invoice.sellerId.isSome then
    tryCatch (do
      write
      write
      act (.announce (.updateReputationOnSettlement transition))) fun _ => pure ()
  else return ()

/-- One notification for each holder; the first failure ends the loop. -/
def notifyHolders (dependencies : SettlementDependencies) (recorded : RecordedSettlement) :
    StatusScript Unit :=
  if dependencies.notificationService then
    tryCatch (recorded.investments.forM fun investment =>
      act (.announce (.settlementReceived investment.investorId recorded.transition)))
      fun _ => pure ()
  else return ()

def settleInvoice (dependencies : SettlementDependencies) (input : SettleInvoiceInput) :
    StatusScript RecordedSettlement := do
  let distributed ← handleIntent dependencies.service input
  let recorded ← transaction (recordSettlement dependencies.service input distributed)
  dispatch recorded.transition
  act (.announce (.emitSettlement recorded.transition))
  updateReputation dependencies recorded.transition
  notifyHolders dependencies recorded
  return recorded

/-! ## `AdminSettlementService.settleInvoice` -/

/-- Service errors of the escrow pass through, everything else is wrapped. -/
def escrowFailure : Raised → Raised
  | .thrown (.chain raised) => .thrown (escrowError raised)
  | raised => raised

/-- The repayment is checked, and the escrow is settled on chain. -/
def settleEscrow (input : AdminSettleInvoiceInput) : StatusScript TransactionHash := do
  check (checkRepaymentAmount input.repaymentAmount)
  let settled ← tryCatch statement fun raised => throw (escrowFailure raised)
  return settled.transactionHash

/-- The body of the loop over the investments: the payout and the investment are saved. -/
def payHolding (totalFundedScaled repaymentAmountScaled : ℤ) (investment : Investment) :
    StatusScript Investment := do
  let paid ← check (adminSettledInvestment totalFundedScaled repaymentAmountScaled investment)
  write
  write
  return paid

/-- The transaction up to its transition. -/
def recordAdminSettlement (input : AdminSettleInvoiceInput) : StatusScript RecordedSettlement := do
  let locked ← lockInvoice
  let invoice ← check (orThrow locked.db.invoice (.service SettlementIntents.invoiceNotFound))
  check (throwIf (invoice.status ≠ .funded) (.service (notFunded invoice.status)))
  let held ← statement
  let investments := confirmedInvestments held.db.investments
  check (throwIf (investments = []) (.service { noConfirmedInvestments with statusCode := 400 }))
  write
  let totalFundedScaled :=
    toFixed4 (sumAmounts (investments.map fun investment => investment.investmentAmount))
  let payouts ← investments.mapM (payHolding totalFundedScaled (toFixed4 input.repaymentAmount))
  let moved ← moveInvoice invoice .settled
    { actor := { role := .admin, wallet := some input.actorWallet }, trigger := .adminSettled }
  return ⟨moved, payouts⟩

def notifyInvestors (recorded : RecordedSettlement) : StatusScript Unit :=
  tell (.notifyInvestors (recorded.investments.map fun investment => investment.investorId)
    recorded.transition)

/-- The transition is dispatched before its transaction commits. -/
def adminSettleInvoice (input : AdminSettleInvoiceInput) : StatusScript RecordedSettlement := do
  let _ ← settleEscrow input
  let recorded ← transaction do
    let recorded ← recordAdminSettlement input
    dispatch recorded.transition
    return recorded
  notifyInvestors recorded
  return recorded

/-! ## `InvestmentService` -/

structure RecordedInvestment where
  investment : Investment
  fundedTransition : Option InvoiceTransition

def RecordedInvestment.changes (recorded : RecordedInvestment) : List Change :=
  .invested recorded.investment :: (recorded.fundedTransition.map Change.moved).toList

/-- `assertAccreditationAcknowledged`: a step that fails without the acknowledgement. -/
def assertAccreditationAcknowledged : StatusScript Unit := write

def notifyInvestment (investmentNotifier : Bool) (investment : Investment) : StatusScript Unit :=
  if investmentNotifier then act (.announce (.investmentCreated investment)) else return ()

/-- The notification of the investment, and the dispatch of the transition if there is one. -/
def announceInvestment (investmentNotifier : Bool) (recorded : RecordedInvestment) :
    StatusScript Investment := do
  notifyInvestment investmentNotifier recorded.investment
  recorded.fundedTransition.toList.forM dispatch
  return recorded.investment

/-- The attempts that are left.  Only an error of `conflict` is followed by another one. -/
def retrying {Result : Type} (conflict : Raised → Bool) (attempt : StatusScript Result) :
    ℕ → StatusScript Result
  | 0 => throw (.thrown (.service concurrentInvestmentConflict))
  | attempts + 1 =>
      tryCatch attempt fun raised =>
        if conflict raised then retrying conflict attempt attempts else throw raised

/-! ### `investInInvoice` -/

/-- The insert; what is violated is told by the statement itself. -/
def storeInvestment (investment : Uuid → Investment) : StatusScript Investment := do
  let saved ← statement
  check (insertInvestment saved.db.investments (investment saved.id))
  act (.change (.invested (investment saved.id)))
  return investment saved.id

/-- The move to FUNDED when the invoice fills up. -/
def fundWhenFull (input : InvestInInvoiceInput) (invoice : Invoice) (investment : Investment) :
    StatusScript RecordedInvestment :=
  if ofUnits invoice.netAmount ≤ newFunded invoice input.amount then do
    let moved ← moveInvoice (investedInvoice invoice input.amount) .funded
      (fullyFunded input.walletAddress (newFunded invoice input.amount))
    return ⟨investment, some moved⟩
  else return ⟨investment, none⟩

/-- The conditional update matched a row, or another request was faster. -/
def advance (invoice : Invoice) (amount : Decimal) : StatusScript Unit := do
  let updated ← statement
  let row ← check (advanceFundedAmount updated.db.invoice invoice.version amount)
  if row.isSome then return () else throw .fundingConflict

def recordInvestment (input : InvestInInvoiceInput) (fundingBlock : ℕ) :
    StatusScript RecordedInvestment := do
  let read ← statement
  let invoice ← check (readInvoiceToInvest read.db input read.now)
  let found ← statement
  check (checkDuplicate found.db input.walletAddress fundingBlock)
  advance invoice input.amount
  let investment ← storeInvestment (investedShare input fundingBlock invoice)
  fundWhenFull input invoice investment

def isInvestConflict (raised : Raised) : Bool :=
  decide (raised = .fundingConflict ∨ raised = .optimisticLockVersionMismatch)

def investInInvoice (investmentNotifier : Bool) (input : InvestInInvoiceInput)
    (now : Timestamp) : StatusScript Investment := do
  assertAccreditationAcknowledged
  check (checkInvestAmount input.amount)
  retrying isInvestConflict (do
    let recorded ← transaction (recordInvestment input (input.fundingBlock now))
    announceInvestment investmentNotifier recorded) InvestmentService.MAX_ATTEMPTS

/-! ### `createInvestment` -/

/-- The counter, and the move to FUNDED when the invoice fills up. -/
def fundOrSave (input : CreateInvestmentInput) (invoice : Invoice) (totalInvested : Decimal)
    (investment : Investment) : StatusScript RecordedInvestment :=
  let newTotalInvested := plus totalInvested input.investmentAmount
  let funded := { invoice with fundedAmount := toFixed4 newTotalInvested }
  if ofUnits invoice.netAmount ≤ newTotalInvested then do
    let moved ← moveInvoice funded .funded (fullyFunded input.investorWallet newTotalInvested)
    return ⟨investment, some moved⟩
  else do
    let stored ← statement
    let row ← check (orThrow stored.db.invoice (.service InvestmentService.invoiceNotFound))
    let _ ← check (persistInvoice row funded)
    return ⟨investment, none⟩

def recordCreatedInvestment (input : CreateInvestmentInput) : StatusScript RecordedInvestment := do
  let locked ← lockInvoice
  let invoice ← check (lockInvoiceToInvest locked.db input locked.now)
  let held ← statement
  let totalInvested ← check (checkCapacity held.db invoice input.investmentAmount)
  let investment ← storeInvestment (createdInvestment input invoice)
  fundOrSave input invoice totalInvested investment

/-- An error of the lookups is logged, a verdict against the investment is thrown. -/
def checkSuitability (riskProfileService : Bool) : StatusScript Unit :=
  if riskProfileService then
    tryCatch (do
      write
      let checked ← statement
      if checked.suitable then return () else throw .suitabilityCheckFailed) fun raised =>
        if raised = .suitabilityCheckFailed then throw raised else return ()
  else return ()

def isCreateConflict (raised : Raised) : Bool :=
  decide (raised = .optimisticLockVersionMismatch)

def createInvestment (investmentNotifier riskProfileService : Bool)
    (input : CreateInvestmentInput) : StatusScript Investment := do
  assertAccreditationAcknowledged
  checkSuitability riskProfileService
  check (checkCreateAmount input.investmentAmount)
  retrying isCreateConflict (do
    let recorded ← transaction (recordCreatedInvestment input)
    announceInvestment investmentNotifier recorded) InvestmentService.MAX_RETRIES

/-! ## `InvoiceService.publishInvoice` -/

def publishFailure (sellerId : Uuid) : Raised → Raised
  | .thrown raised => .thrown ((StatusRequest.publishInvoice sellerId).caught raised)
  | raised => raised

def isApproved (kyc : KycTables) (userId : Uuid) : Bool :=
  (kyc.findUser userId).any fun user => decide (user.kycStatus = .approved)

def applyTransition (invoice : Invoice) (target : InvoiceStatus) (options : TransitionOptions) :
    StatusScript Invoice := do
  let moved ← transaction (moveInvoice invoice target options)
  dispatch moved
  return moved.invoice

def publishInvoice (sellerId : Uuid) : StatusScript Invoice :=
  tryCatch (do
    let found ← statement
    let (invoice, change) ← check
      (readToPublish found.db sellerId (isApproved found.kyc sellerId))
    applyTransition invoice change.target (change.options found.now)) fun raised =>
      throw (publishFailure sellerId raised)

/-! ## `KycService` -/

/-- What a decision leaves, and whose it is. -/
structure RecordedDecision where
  verification : KYCVerification
  userId : Uuid
  kycStatus : KYCStatus

def RecordedDecision.changes (recorded : RecordedDecision) : List Change :=
  [.decided recorded.userId recorded.kycStatus]

/-- The verification is saved and archived, and its user gets the status. -/
def recordDecision (verification : Answer → KYCVerification) (userId : Uuid)
    (kycStatus : KYCStatus) : StatusScript RecordedDecision := do
  let saved ← statement
  write
  act (.change (.decided userId kycStatus))
  return ⟨verification saved, userId, kycStatus⟩

/-- The notification service keeps its rows on a connection of its own. -/
def notifyDecision (notificationService : Bool) (recorded : RecordedDecision) :
    StatusScript Unit :=
  if notificationService then tell (.createNotification recorded.userId recorded.kycStatus)
  else return ()

/-! ### `processWebhook` -/

def checkPayload (payload : KycWebhookPayload) : Except WebhookError (IdText × KYCStatus) := do
  let userText ← orThrow payload.userId (.http 400 "Webhook userId is required.")
  let status ← orThrow (payload.status.filter isDecision)
    (.http 400 "Webhook status must be approved or rejected.")
  return (userText, status)

def recordWebhook (userText : IdText) (status : KYCStatus) (verificationId : Option IdText) :
    StatusScript RecordedDecision := do
  let read ← statement
  let userId ← checkHttp (queryId userText)
  let user ← checkHttp (orThrow (read.kyc.findUser userId) userNotFound)
  let found ← statement
  let named ← checkHttp (findForWebhook found.kyc user.id verificationId)
  let verification ← checkHttp (orThrow named verificationNotFound)
  recordDecision (fun saved => { verification with
    status := status
    verifiedAt := some saved.now }) user.id status

def processWebhook (notificationService : Bool) (payload : KycWebhookPayload) :
    StatusScript Unit := do
  let (userText, status) ← checkHttp (checkPayload payload)
  let recorded ← transaction (recordWebhook userText status payload.verificationId)
  notifyDecision notificationService recorded

/-! ### `reviewKyc` -/

def checkReview (input : KycReviewInput) : Except WebhookError KYCStatus := do
  let decision ← orThrow (reviewDecision input)
    (.http 400 "Status must be either 'approved' or 'rejected'.")
  throwIf (decision = .rejected ∧ trimText (firstText [input.reason, input.rejectionReason]) = "")
    (.http 400 "Rejection reason is required when rejecting KYC verification.")
  return decision

/-- The verification by id, else the latest one of the user or wallet. -/
def findForReview (idOrUserId : Key) : StatusScript (Option KYCVerification) := do
  let read ← statement
  let id ← checkHttp idOrUserId.queryUuid
  match read.kyc.findVerification id with
  | some verification => return some verification
  | none => do
      let found ← statement
      return found.kyc.findLatest fun verification =>
        decide (verification.userId = id ∨ verification.wallet = some idOrUserId.text)

/-- The user of the verification, else the user that is named. -/
def findReviewed (idOrUserId : Key) (verification : Option KYCVerification) :
    StatusScript KycService.User := do
  let read ← statement
  match verification with
  | some verification =>
      checkHttp (orThrow (read.kyc.users.find? fun user =>
        decide (user.id = verification.userId ∨
          user.stellarAddress = verification.wallet.getD "")) verificationNotFound)
  | none => do
      let user ← checkHttp (read.kyc.findUserByKey idOrUserId)
      checkHttp (orThrow user verificationNotFound)

/-- The stored verification with the decision, or a new one. -/
def reviewedVerification (found : Option KYCVerification) (user : KycService.User)
    (decision : KYCStatus) (reviewed : Option Documents → Documents) (saved : Answer) :
    KYCVerification :=
  match found with
  | some verification =>
      { verification with
        status := decision
        verifiedAt := some saved.now
        documents := some (reviewed verification.documents) }
  | none =>
      { id := saved.id
        userId := user.id
        verificationType := .identity
        status := decision
        documents := some (reviewed none)
        wallet := some user.stellarAddress
        verifiedAt := some saved.now }

def recordReview (idOrUserId : Key) (decision : KYCStatus)
    (reviewed : Option Documents → Documents) : StatusScript RecordedDecision := do
  let found ← findForReview idOrUserId
  let user ← findReviewed idOrUserId found
  recordDecision (reviewedVerification found user decision reviewed) user.id decision

/-- The user is notified before the transaction commits. -/
def reviewKyc (notificationService : Bool) (idOrUserId : Key) (input : KycReviewInput)
    (reviewed : Option Documents → Documents) : StatusScript RecordedDecision := do
  let decision ← checkHttp (checkReview input)
  transaction do
    let recorded ← recordReview idOrUserId decision reviewed
    notifyDecision notificationService recorded
    return recorded

/-! ## Operations -/

inductive Operation where
  | settleInvoice (dependencies : SettlementDependencies) (input : SettleInvoiceInput)
  | adminSettleInvoice (input : AdminSettleInvoiceInput)
  | investInInvoice (investmentNotifier : Bool) (input : InvestInInvoiceInput) (now : Timestamp)
  | createInvestment (investmentNotifier riskProfileService : Bool)
      (input : CreateInvestmentInput)
  | publishInvoice (sellerId : Uuid)
  | reviewKyc (notificationService : Bool) (idOrUserId : Key) (input : KycReviewInput)
      (reviewed : Option Documents → Documents)
  | processWebhook (notificationService : Bool) (payload : KycWebhookPayload)

/-- The transactions of one call and their effects, where its steps get these replies. -/
def Operation.ledger (operation : Operation) (replies : List StepReply) : Ledger Change Effect :=
  match operation with
  | .settleInvoice dependencies input =>
      ((StatusChanges.settleInvoice dependencies input).play replies {}).ledger
  | .adminSettleInvoice input =>
      ((StatusChanges.adminSettleInvoice input).play replies {}).ledger
  | .investInInvoice investmentNotifier input now =>
      ((StatusChanges.investInInvoice investmentNotifier input now).play replies {}).ledger
  | .createInvestment investmentNotifier riskProfileService input =>
      ((StatusChanges.createInvestment investmentNotifier riskProfileService input).play
        replies {}).ledger
  | .publishInvoice sellerId =>
      ((StatusChanges.publishInvoice sellerId).play replies {}).ledger
  | .reviewKyc notificationService idOrUserId input reviewed =>
      ((StatusChanges.reviewKyc notificationService idOrUserId input reviewed).play
        replies {}).ledger
  | .processWebhook notificationService payload =>
      ((StatusChanges.processWebhook notificationService payload).play replies {}).ledger

end StellarSettle.StatusChanges
