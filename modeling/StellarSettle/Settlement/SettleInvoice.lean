import StellarSettle.Model.InvoiceLifecycle
import StellarSettle.Settlement.SettlementIntent

/-!
# Settling an invoice

`SettlementService.settleInvoice`: the intent handling with its payout, and the
settlement transaction, split into what it reads and what it writes so that
other requests can run between the two.
-/

namespace StellarSettle.SettleInvoice

open StellarSettle.Checks
open StellarSettle.DecimalJs
open StellarSettle.Entities
open StellarSettle.FloorShare
open StellarSettle.InvestorReturn
open StellarSettle.InvoiceLifecycle
open StellarSettle.PaymentDistributor
open StellarSettle.SettlementIntents

/-! ## Inputs -/

/-- The configuration is read once at startup, where the fee is validated. -/
structure PaymentDistributorSettlementConfig where
  feeRecipient : String
  feeBps : ℤ
  feeBps_nonneg : 0 ≤ feeBps
  feeBps_le : feeBps ≤ 10000
  deriving DecidableEq, Repr

structure SettlementService where
  paymentDistributor : Bool
  distributorConfig : Option PaymentDistributorSettlementConfig
  deriving DecidableEq, Repr

/-- 250 basis points. -/
def standardFee : PaymentDistributorSettlementConfig :=
  ⟨"GFEE", 250, by decide, by decide⟩

structure SettleInvoiceInput where
  proceeds : Decimal
  actorWallet : String
  settlementTransactionHash : Option TransactionHash := none
  trigger : SettlementTrigger := .reason .adminSettled
  systemTrigger : Option SystemSettlementTrigger := none
  sellerId : Option Uuid := none
  deriving DecidableEq, Repr

def SettleInvoiceInput.authorizedForAutomatedSettlement (input : SettleInvoiceInput) : Bool :=
  isSystemSettlementActor input.actorWallet || input.systemTrigger.isSome

def SettleInvoiceInput.prepareInput (input : SettleInvoiceInput)
    (config : PaymentDistributorSettlementConfig) : PrepareSettlementIntentInput :=
  { proceeds := toFixed4 input.proceeds
    actorWallet := input.actorWallet
    sellerId := input.sellerId
    trigger := input.trigger.transitionReason
    feeRecipient := config.feeRecipient
    feeBps := config.feeBps }

/-! ## Errors -/

def distributorConfigurationMissing : ServiceError :=
  { code := .distributorConfigurationMissing
    message := "Payment distributor fee configuration is required" }

def invoiceAlreadySettled : ServiceError :=
  { code := .invoiceAlreadySettled
    message := "Cannot settle an invoice with status settled"
    statusCode := 409 }

def invalidInvoiceStatus (status : InvoiceStatus) : ServiceError :=
  { code := .invalidInvoiceStatus
    message := s!"INVALID_INVOICE_STATUS: Cannot settle an invoice with status {status.text}" }

def settlementSnapshotChanged : ServiceError :=
  { code := .settlementSnapshotChanged
    message := "Confirmed investment holdings changed after payout preparation; " ++
      "reconciliation is required"
    statusCode := 409
    details := .invoiceId }

def settlementIntentInvalid : ServiceError :=
  { code := .settlementIntentInvalid
    message := "Confirmed settlement intent is missing or inconsistent"
    statusCode := 409
    details := .invoiceId }

/-! ## Intent handling -/

/-- The checks before any database access; a configured distributor needs an
intent. -/
def enterSettlement (service : SettlementService) (input : SettleInvoiceInput) :
    Except Thrown (Option PrepareSettlementIntentInput) := do
  throwIf (input.proceeds < 0 ∨ input.proceeds = 0) (.service invalidProceeds)
  if service.paymentDistributor then
    let config ← orThrow service.distributorConfig (.service distributorConfigurationMissing)
    return some (input.prepareInput config)
  else return none

/-- How a prepared intent goes on. -/
inductive PayoutRoute where
  | claim
  | recorded (transactionHash : TransactionHash)
  deriving DecidableEq, Repr

def payoutRoute (intent : SettlementIntent) : Except Thrown PayoutRoute :=
  match intent.status with
  | .submitting => .error (.service (reconciliationRequired
      ("A payout submission is already in progress or has an unknown outcome; " ++
        "reconcile it before retrying")))
  | .prepared => .ok .claim
  | .distributed =>
      match intent.transactionHash with
      | none => .error (.service (reconciliationRequired
          "The confirmed payout transaction hash is missing; reconcile it before retrying"))
      | some transactionHash => .ok (.recorded transactionHash)
  | .completed => .error (.service (reconciliationRequired
      "Settlement intent is not in a retryable state"))

/-- What the intent handling hands to the settlement transaction. -/
structure DistributedIntent where
  intentId : Uuid
  payload : SettlementIntentPayload
  transactionHash : TransactionHash
  deriving DecidableEq, Repr

/-! ## The settlement transaction: reads -/

/-- Id and amount of each holding, sorted by id. -/
def currentSnapshot (investments : List Investment) : List (Uuid × ℤ) :=
  (investments.map fun investment => (investment.id, investment.investmentAmount)).insertionSort
    fun left right => left.1 ≤ right.1

def intentSnapshot (payload : SettlementIntentPayload) : List (Uuid × ℤ) :=
  (payload.investments.map fun investment =>
    (investment.id, investment.investmentAmount)).insertionSort fun left right => left.1 ≤ right.1

/-- `if (settlementIntentPayload) { ... }`. -/
def checkSnapshot (distributed : Option DistributedIntent) (investments : List Investment) :
    Except Thrown Unit :=
  match distributed with
  | none => .ok ()
  | some intent =>
      throwIf (currentSnapshot investments ≠ intentSnapshot intent.payload)
        (.service settlementSnapshotChanged)

/-- Authorisation, status and holdings, on the locked invoice. -/
def checkSettlement (input : SettleInvoiceInput) (distributed : Option DistributedIntent)
    (db : Database) : Except Thrown (Invoice × List Investment) := do
  let invoice ← orThrow db.invoice (.service invoiceNotFound)
  throwIf (sellerMismatch input.sellerId invoice) (.service forbiddenSeller)
  throwIf (!input.authorizedForAutomatedSettlement &&
    walletMismatch db input.actorWallet invoice) (.service forbiddenWallet)
  throwIf (invoice.status = .settled) (.service invoiceAlreadySettled)
  throwIf (invoice.status ≠ .funded) (.service (invalidInvoiceStatus invoice.status))
  let investments := confirmedInvestments db.investments
  throwIf (investments = []) (.service noConfirmedInvestments)
  checkSnapshot distributed investments
  return (invoice, investments)

/-- The fee is withheld whenever it is configured, with or without a
distributor. -/
def settlementFee (service : SettlementService) (proceedsScaled : ℤ) : ℤ :=
  match service.distributorConfig with
  | none => 0
  | some config => protocolFee proceedsScaled config.feeBps

/-- The argument of the payout submitted from inside the transaction. -/
def directDistributionInput (db : Database) (config : PaymentDistributorSettlementConfig)
    (investments : List Investment)
    (proceedsScaled totalFundedScaled distributableScaled : ℤ) :
    Except Thrown DistributePayoutsInput := do
  let recipients ← investments.mapM fun investment => do
    let returnScaled ←
      computeInvestorReturn investment.investmentAmount totalFundedScaled distributableScaled
    return ⟨db.payoutAddress investment, returnScaled * DECIMAL_SCALE_TO_STROOP_FACTOR⟩
  return {
    recipients := recipients
    totalAmountStroops := proceedsScaled * DECIMAL_SCALE_TO_STROOP_FACTOR
    feeRecipient := config.feeRecipient
    feeBps := config.feeBps }

/-- `if (this.paymentDistributor && !transactionHash) { ... }`: the payouts it
submits, and the hash the transaction goes on with. -/
def directDistribution (service : SettlementService) (transactionHash : Option TransactionHash)
    (payoutInput : PaymentDistributorSettlementConfig → Except Thrown DistributePayoutsInput)
    (chain : ChainOutcome) : List PayoutCall × Except Thrown (Option TransactionHash) :=
  if service.paymentDistributor ∧ transactionHash = none then
    match service.distributorConfig with
    | none => ([], .error (.service distributorConfigurationMissing))
    | some config =>
        match payoutInput config with
        | .error thrown => ([], .error thrown)
        | .ok arguments =>
            let call := distributePayouts arguments chain
            ([call], call.result.map some)
  else ([], .ok transactionHash)

/-- The loop over the investments: the sum of the returns and the entities to
save. -/
def settlementLoop (totalFundedScaled distributableScaled : ℤ) :
    List Investment → ℤ → List Investment → Except Thrown (ℤ × List Investment)
  | [], sumOfReturnsScaled, settled => .ok (sumOfReturnsScaled, settled)
  | investment :: rest, sumOfReturnsScaled, settled => do
      let actualReturnScaled ←
        computeInvestorReturn investment.investmentAmount totalFundedScaled distributableScaled
      settlementLoop totalFundedScaled distributableScaled rest
        (sumOfReturnsScaled + actualReturnScaled)
        (settled ++ [{ investment with
          actualReturn := some actualReturnScaled
          status := .settled }])

/-- Everything the transaction is going to write. -/
structure SettlementPlan where
  invoice : Invoice
  investments : List Investment
  proceedsScaled : ℤ
  totalDistributedScaled : ℤ
  remainderScaled : ℤ
  transactionHash : Option TransactionHash
  intentId : Option Uuid
  actorWallet : String
  trigger : InvoiceTransitionReason
  deriving DecidableEq, Repr

/-- The fee rate the transaction works with. -/
def SettlementService.feeBps (service : SettlementService) : ℤ :=
  service.distributorConfig.elim 0 fun config => config.feeBps

theorem settlementFee_eq (service : SettlementService) (proceedsScaled : ℤ) :
    settlementFee service proceedsScaled = protocolFee proceedsScaled service.feeBps := by
  unfold settlementFee SettlementService.feeBps
  cases service.distributorConfig with
  | none => simp
  | some config => rfl

def settlementPlan (input : SettleInvoiceInput) (distributed : Option DistributedIntent)
    (invoice : Invoice) (proceedsScaled distributableScaled : ℤ)
    (transactionHash : Option TransactionHash) (sumOfReturnsScaled : ℤ)
    (settled : List Investment) : SettlementPlan :=
  let remainderScaled := distributableScaled - sumOfReturnsScaled
  { invoice := { invoice with settlementRemainder := remainderScaled }
    investments := settled
    proceedsScaled := proceedsScaled
    totalDistributedScaled := sumOfReturnsScaled
    remainderScaled := remainderScaled
    transactionHash := transactionHash
    intentId := distributed.map fun intent => intent.intentId
    actorWallet := input.actorWallet
    trigger := input.trigger.transitionReason }

/-- The transaction up to its writes: the payouts it submits, and its plan. -/
def readSettlement (service : SettlementService) (input : SettleInvoiceInput)
    (distributed : Option DistributedIntent) (db : Database) (chain : ChainOutcome) :
    List PayoutCall × Except Thrown SettlementPlan :=
  match checkSettlement input distributed db with
  | .error thrown => ([], .error thrown)
  | .ok (invoice, investments) =>
      let totalFunded :=
        sumAmounts (investments.map fun investment => investment.investmentAmount)
      let totalFundedScaled := toFixed4 totalFunded
      let proceedsScaled := toFixed4 input.proceeds
      let distributableScaled := proceedsScaled - settlementFee service proceedsScaled
      let direct := directDistribution service
        (input.settlementTransactionHash.or
          (distributed.map fun intent => intent.transactionHash))
        (fun config => directDistributionInput db config investments proceedsScaled
          totalFundedScaled distributableScaled)
        chain
      (direct.1, do
        let transactionHash ← direct.2
        let (sumOfReturnsScaled, settled) ←
          settlementLoop totalFundedScaled distributableScaled investments 0 []
        return settlementPlan input distributed invoice proceedsScaled distributableScaled
          transactionHash sumOfReturnsScaled settled)

/-- The transaction goes on without a payout of its own: it has a hash, or no
distributor. -/
def NoDirectPayout (service : SettlementService) (input : SettleInvoiceInput)
    (distributed : Option DistributedIntent) : Prop :=
  service.paymentDistributor = false ∨
    (input.settlementTransactionHash.or
      (distributed.map fun intent => intent.transactionHash)) ≠ none

theorem directDistribution_of_noDirectPayout {service : SettlementService}
    {input : SettleInvoiceInput} {distributed : Option DistributedIntent}
    (hnone : NoDirectPayout service input distributed)
    (payoutInput : PaymentDistributorSettlementConfig → Except Thrown DistributePayoutsInput)
    (chain : ChainOutcome) :
    directDistribution service (input.settlementTransactionHash.or
      (distributed.map fun intent => intent.transactionHash)) payoutInput chain =
        ([], .ok (input.settlementTransactionHash.or
          (distributed.map fun intent => intent.transactionHash))) := by
  rw [directDistribution, if_neg]
  rintro ⟨hdistributor, hhash⟩
  rcases hnone with hservice | hknown
  · rw [hdistributor] at hservice
    cases hservice
  · exact hknown hhash

theorem readSettlement_payouts {service : SettlementService} {input : SettleInvoiceInput}
    {distributed : Option DistributedIntent} (db : Database) (chain : ChainOutcome)
    (hnone : NoDirectPayout service input distributed) :
    (readSettlement service input distributed db chain).1 = [] := by
  unfold readSettlement
  split
  · rfl
  · dsimp only
    rw [directDistribution_of_noDirectPayout hnone]

theorem checkSettlement_eq_ok {input : SettleInvoiceInput}
    {distributed : Option DistributedIntent} {db : Database} {invoice : Invoice}
    {investments : List Investment} :
    checkSettlement input distributed db = .ok (invoice, investments) ↔
      db.invoice = some invoice ∧ sellerMismatch input.sellerId invoice = false ∧
        (input.authorizedForAutomatedSettlement = true ∨
          walletMismatch db input.actorWallet invoice = false) ∧
        invoice.status = .funded ∧ confirmedInvestments db.investments ≠ [] ∧
        checkSnapshot distributed (confirmedInvestments db.investments) = .ok () ∧
        investments = confirmedInvestments db.investments := by
  simp only [checkSettlement, bind_eq_ok, orThrow_eq_ok, throwIf_eq_ok, pure_eq_ok,
    Prod.mk.injEq, exists_const, Bool.not_eq_true, Bool.and_eq_false_iff, Bool.not_eq_false',
    ne_eq, Decidable.not_not]
  constructor
  · rintro ⟨found, hfound, hseller, hwallet, _, hfunded, hne, _, hsnapshot, rfl, rfl⟩
    exact ⟨hfound, hseller, hwallet, hfunded, hne, hsnapshot, rfl⟩
  · rintro ⟨hfound, hseller, hwallet, hfunded, hne, hsnapshot, rfl⟩
    exact ⟨invoice, hfound, hseller, hwallet, by simp [hfunded], hfunded, hne, (), hsnapshot,
      rfl, rfl⟩

/-- An investment as the settlement saves it. -/
def settledInvestment (totalFundedScaled distributableScaled : ℤ) (investment : Investment) :
    Investment :=
  { investment with
    actualReturn :=
      some (floorShare distributableScaled totalFundedScaled investment.investmentAmount)
    status := .settled }

theorem settlementLoop_eq_ok {totalFundedScaled distributableScaled : ℤ}
    (htotal : 0 < totalFundedScaled) (hdistributable : 0 ≤ distributableScaled)
    {investments : List Investment}
    (hnonneg : ∀ investment ∈ investments, 0 ≤ investment.investmentAmount)
    (sumOfReturnsScaled : ℤ) (settled : List Investment) :
    settlementLoop totalFundedScaled distributableScaled investments sumOfReturnsScaled settled =
      .ok (sumOfReturnsScaled + shareSum distributableScaled totalFundedScaled
          Investment.investmentAmount investments,
        settled ++ investments.map
          (settledInvestment totalFundedScaled distributableScaled)) := by
  induction investments generalizing sumOfReturnsScaled settled with
  | nil => simp [settlementLoop]
  | cons investment rest ih =>
      rw [settlementLoop,
        computeInvestorReturn_eq_ok htotal (hnonneg investment (by simp)) hdistributable,
        ok_bind, ih fun other hmem => hnonneg other (by simp [hmem])]
      simp [settledInvestment, add_assoc]

/-- A loop that ends has settled every investment at its floored share. -/
theorem settled_of_settlementLoop_eq_ok {totalFundedScaled distributableScaled : ℤ}
    {investments : List Investment} {sumOfReturnsScaled : ℤ} {settled : List Investment}
    {result : ℤ × List Investment}
    (hok : settlementLoop totalFundedScaled distributableScaled investments sumOfReturnsScaled
      settled = .ok result) :
    result.2 = settled ++ investments.map
      (settledInvestment totalFundedScaled distributableScaled) := by
  induction investments generalizing sumOfReturnsScaled settled with
  | nil =>
      obtain rfl := Except.ok.inj hok
      simp
  | cons investment rest ih =>
      obtain ⟨actualReturn, hreturn, hrest⟩ := bind_eq_ok.mp hok
      rw [ih hrest, (eq_floorShare_of_computeInvestorReturn hreturn).2.2.2]
      simp [settledInvestment]

/-- What a settlement plan is made of. -/
theorem readSettlement_eq_ok {service : SettlementService} {input : SettleInvoiceInput}
    {distributed : Option DistributedIntent} {db : Database} {chain : ChainOutcome}
    {payouts : List PayoutCall} {plan : SettlementPlan}
    (hok : readSettlement service input distributed db chain = (payouts, .ok plan)) :
    ∃ invoice, checkSettlement input distributed db =
        .ok (invoice, confirmedInvestments db.investments) ∧
      plan.invoice = { invoice with settlementRemainder := plan.remainderScaled } ∧
      plan.investments = (confirmedInvestments db.investments).map
        (settledInvestment (totalFundedScaled (confirmedInvestments db.investments))
          (toFixed4 input.proceeds - settlementFee service (toFixed4 input.proceeds))) ∧
      plan.intentId = (distributed.map fun intent => intent.intentId) := by
  unfold readSettlement at hok
  split at hok
  · cases hok
  · rename_i invoice investments hcheck
    obtain ⟨_, _, _, _, _, _, rfl⟩ := checkSettlement_eq_ok.mp hcheck
    obtain ⟨_, hplan⟩ := Prod.mk.inj hok
    obtain ⟨transactionHash, _, hloop⟩ := bind_eq_ok.mp hplan
    obtain ⟨loop, hsettled, hresult⟩ := bind_eq_ok.mp hloop
    obtain rfl := pure_eq_ok.mp hresult
    refine ⟨invoice, hcheck, rfl, ?_, rfl⟩
    exact settled_of_settlementLoop_eq_ok hsettled

/-! ## The settlement transaction: writes -/

def completeSettlementIntent (db : Database) (intentId : Option Uuid)
    (transactionHash : Option TransactionHash) : Except Thrown (Option SettlementIntent) :=
  match intentId with
  | none => .ok db.settlementIntent
  | some id => do
      let completedIntent ← orThrow (Database.findSettlementIntent db id)
        (.service settlementIntentInvalid)
      throwIf (completedIntent.status ≠ .distributed ∨ completedIntent.transactionHash = none ∨
        completedIntent.transactionHash ≠ transactionHash) (.service settlementIntentInvalid)
      return some { completedIntent with status := .completed }

def paymentRow (plan : SettlementPlan) (transactionHash : TransactionHash) : Transaction :=
  { userId := plan.invoice.sellerId
    investmentId := none
    type := .payment
    amount := plan.proceedsScaled
    stellarTxHash := some transactionHash.text
    stellarOperationIndex := some 0
    status := .completed }

def investorReturnRow (settled : Investment) : InvestorReturn :=
  { investmentId := settled.id
    investorId := settled.investorId
    returnAmount := settled.actualReturn.getD 0
    amount := settled.actualReturn.getD 0 }

/-- The writes and the commit.  The invoice row is locked since it was read. -/
def commitSettlement (db : Database) (plan : SettlementPlan) : Except Thrown Database := do
  let row ← orThrow db.invoice (.service invoiceNotFound)
  let moved ← transition db.intentInFlight row plan.invoice .settled
    { actor := { role := .system, wallet := some plan.actorWallet }, trigger := plan.trigger }
  let settlementIntent ← completeSettlementIntent db plan.intentId plan.transactionHash
  return { db with
    invoice := some moved.invoice
    investments := plan.investments.foldl saveInvestment db.investments
    settlementIntent := settlementIntent
    transactions := db.transactions ++ (plan.transactionHash.map (paymentRow plan)).toList
    investorReturns := db.investorReturns ++ plan.investments.map investorReturnRow
    settlementRemainders := db.settlementRemainders ++
      [{ remainderAmount := plan.remainderScaled
         totalSettlementAmount := plan.proceedsScaled
         totalDistributedAmount := plan.totalDistributedScaled }]
    statusHistory := db.statusHistory ++ [moved.history] }

/-- A settlement that commits found the invoice, and moved it and the intent. -/
theorem commitSettlement_eq_ok {db after : Database} {plan : SettlementPlan}
    (hok : commitSettlement db plan = .ok after) :
    ∃ row moved settlementIntent, db.invoice = some row ∧
      transition db.intentInFlight row plan.invoice .settled
        { actor := { role := .system, wallet := some plan.actorWallet }
          trigger := plan.trigger } = .ok moved ∧
      completeSettlementIntent db plan.intentId plan.transactionHash = .ok settlementIntent ∧
      after.invoice = some moved.invoice ∧ after.settlementIntent = settlementIntent ∧
      after.investments = plan.investments.foldl saveInvestment db.investments ∧
      after.users = db.users ∧ after.listings = db.listings := by
  obtain ⟨row, hrow, hrest⟩ := bind_eq_ok.mp hok
  obtain ⟨moved, hmoved, hrest⟩ := bind_eq_ok.mp hrest
  obtain ⟨settlementIntent, hintent, hafter⟩ := bind_eq_ok.mp hrest
  obtain rfl := pure_eq_ok.mp hafter
  exact ⟨row, moved, settlementIntent, orThrow_eq_ok.mp hrow, hmoved, hintent, rfl, rfl, rfl,
    rfl, rfl⟩

/-- The history row of a settlement is written with the settled invoice. -/
theorem history_of_commitSettlement {db after : Database} {plan : SettlementPlan}
    (hok : commitSettlement db plan = .ok after) :
    ∃ row moved, db.invoice = some row ∧
      transition db.intentInFlight row plan.invoice .settled
        { actor := { role := .system, wallet := some plan.actorWallet }
          trigger := plan.trigger } = .ok moved ∧
      after.invoice = some moved.invoice ∧
      after.statusHistory = db.statusHistory ++ [moved.history] := by
  obtain ⟨row, hrow, hrest⟩ := bind_eq_ok.mp hok
  obtain ⟨moved, hmoved, hrest⟩ := bind_eq_ok.mp hrest
  obtain ⟨settlementIntent, _, hafter⟩ := bind_eq_ok.mp hrest
  obtain rfl := pure_eq_ok.mp hafter
  exact ⟨row, moved, orThrow_eq_ok.mp hrow, hmoved, rfl, rfl⟩

/-- Completing an intent needs it to be distributed with the same hash. -/
theorem completeSettlementIntent_eq_ok {db : Database} {intentId : Option Uuid}
    {transactionHash : Option TransactionHash} {settlementIntent : Option SettlementIntent} :
    completeSettlementIntent db intentId transactionHash = .ok settlementIntent ↔
      (intentId = none ∧ settlementIntent = db.settlementIntent) ∨
        ∃ intent, intentId = some intent.id ∧ db.settlementIntent = some intent ∧
          intent.status = .distributed ∧ intent.transactionHash ≠ none ∧
          intent.transactionHash = transactionHash ∧
          settlementIntent = some { intent with status := .completed } := by
  cases intentId with
  | none => simp [completeSettlementIntent, eq_comm]
  | some id =>
      simp only [completeSettlementIntent, bind_eq_ok, orThrow_eq_ok, throwIf_eq_ok, pure_eq_ok,
        findSettlementIntent_eq_some, exists_const, ne_eq, not_or, Decidable.not_not,
        Option.some.injEq, reduceCtorEq, false_and, false_or]
      constructor
      · rintro ⟨intent, ⟨hintent, rfl⟩, ⟨hstatus, hhash, hequal⟩, hresult⟩
        exact ⟨intent, rfl, hintent, hstatus, hhash, hequal, hresult⟩
      · rintro ⟨intent, rfl, hintent, hstatus, hhash, hequal, hresult⟩
        exact ⟨intent, ⟨hintent, rfl⟩, ⟨hstatus, hhash, hequal⟩, hresult⟩

/-! ## One call on its own -/

/-- What a call asks of its surroundings: the id of an inserted intent, and what
the chain does with the payouts. -/
structure SettleEnvironment where
  intentId : Uuid
  payout : ChainOutcome
  directPayout : ChainOutcome

/-- The payouts a call submitted, the database it leaves and what it returns. -/
structure SettleInvoiceCall where
  payouts : List PayoutCall
  db : Database
  result : Except Thrown SettlementPlan

def settlementTransaction (service : SettlementService) (input : SettleInvoiceInput)
    (distributed : Option DistributedIntent) (db : Database) (chain : ChainOutcome) :
    SettleInvoiceCall :=
  match readSettlement service input distributed db chain with
  | (payouts, .error thrown) => ⟨payouts, db, .error thrown⟩
  | (payouts, .ok plan) =>
      match commitSettlement db plan with
      | .error thrown => ⟨payouts, db, .error thrown⟩
      | .ok after => ⟨payouts, after, .ok plan⟩

/-- The payout of an intent that this call claims, and the settlement after it. -/
def settleClaimedIntent (service : SettlementService) (input : SettleInvoiceInput)
    (environment : SettleEnvironment) (intent : SettlementIntent) (claimed : Database) :
    SettleInvoiceCall :=
  let call := distributePayouts (distributionInput intent.payload) environment.payout
  match call.result with
  | .error thrown => ⟨[call], claimed, .error thrown⟩
  | .ok transactionHash =>
      match markSettlementDistributed claimed intent.id transactionHash with
      | .error thrown => ⟨[call], claimed, .error thrown⟩
      | .ok marked =>
          let settled := settlementTransaction service input
            (some ⟨intent.id, intent.payload, transactionHash⟩) marked environment.directPayout
          { settled with payouts := call :: settled.payouts }

/-- From the prepared intent on. -/
def settleIntent (service : SettlementService) (input : SettleInvoiceInput)
    (environment : SettleEnvironment) (prepared : Database) (intent : SettlementIntent) :
    SettleInvoiceCall :=
  match payoutRoute intent with
  | .error thrown => ⟨[], prepared, .error thrown⟩
  | .ok (.recorded transactionHash) =>
      settlementTransaction service input
        (some ⟨intent.id, intent.payload, transactionHash⟩) prepared environment.directPayout
  | .ok .claim =>
      match claimSettlementIntent prepared intent.id with
      | .error thrown => ⟨[], prepared, .error thrown⟩
      | .ok claimed => settleClaimedIntent service input environment intent claimed

def settleInvoice (service : SettlementService) (input : SettleInvoiceInput)
    (environment : SettleEnvironment) (db : Database) : SettleInvoiceCall :=
  match enterSettlement service input with
  | .error thrown => ⟨[], db, .error thrown⟩
  | .ok none => settlementTransaction service input none db environment.directPayout
  | .ok (some prepare) =>
      match prepareSettlementIntent db environment.intentId prepare with
      | .error thrown => ⟨[], db, .error thrown⟩
      | .ok (prepared, intent) => settleIntent service input environment prepared intent

end StellarSettle.SettleInvoice
