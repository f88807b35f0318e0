import Mathlib.Algebra.BigOperators.Ring.List
import Mathlib.Data.List.Sort
import StellarSettle.Settlement.InvestorReturn
import StellarSettle.Settlement.PaymentDistributor

/-!
# Settlement intents

The authorisation of a settlement and the three transactions that move an
intent: preparation, which freezes the confirmed holdings into a payload, the
claim before the payout is submitted, and the record of its hash.
-/

namespace StellarSettle.SettlementIntents

open StellarSettle.Checks
open StellarSettle.DecimalJs
open StellarSettle.Entities
open StellarSettle.FloorShare
open StellarSettle.InvestorReturn
open StellarSettle.PaymentDistributor

/-- Amounts carry four decimals and stroops carry seven. -/
def DECIMAL_SCALE_TO_STROOP_FACTOR : ℤ := 10 ^ 3

/-! ## Actors -/

def SYSTEM_SETTLEMENT_ACTOR : String := "system"

inductive SystemSettlementTrigger where
  | systemMatured
  deriving DecidableEq, Repr

inductive SettlementTrigger where
  | reason (reason : InvoiceTransitionReason)
  | system (trigger : SystemSettlementTrigger)
  deriving DecidableEq, Repr

/-- `trigger === "system_matured" ? "maturity_settled" : trigger`. -/
def SettlementTrigger.transitionReason : SettlementTrigger → InvoiceTransitionReason
  | reason recorded => recorded
  | system .systemMatured => .maturitySettled

def isSystemSettlementActor (actorWallet : String) : Bool :=
  if actorWallet = "" then false
  else actorWallet == SYSTEM_SETTLEMENT_ACTOR ||
    actorWallet.startsWith (SYSTEM_SETTLEMENT_ACTOR ++ ":")

/-- `sellerId && invoice.sellerId && invoice.sellerId !== sellerId`. -/
def sellerMismatch (sellerId : Option Uuid) (invoice : Invoice) : Bool :=
  match sellerId, invoice.sellerId with
  | some requested, some owner => requested != owner
  | _, _ => false

/-- The wallet comparison against the invoice's seller; a wallet that is missing
on either side compares as equal. -/
def walletMismatch (db : Database) (actorWallet : String) (invoice : Invoice) : Bool :=
  actorWallet != "" &&
    match (invoice.sellerId.bind db.findUser).bind fun seller => seller.stellarAddress with
    | none => false
    | some stellarAddress => stellarAddress != "" && stellarAddress != actorWallet

/-! ## Errors -/

def invoiceNotFound : ServiceError :=
  { code := .invoiceNotFound, message := "Invoice not found", statusCode := 404 }

def forbiddenSeller : ServiceError :=
  { code := .forbidden, message := "Only the seller can settle this invoice", statusCode := 403 }

def forbiddenWallet : ServiceError :=
  { code := .forbidden
    message := "Only the invoice seller can settle this invoice"
    statusCode := 403 }

def noConfirmedInvestments : ServiceError :=
  { code := .noConfirmedInvestments
    message := "Invoice has no confirmed investments to settle" }

def invalidDistributorFee : ServiceError :=
  { code := .invalidDistributorFee
    message := "Distributor fee must be an integer between 0 and 10000 basis points"
    statusCode := 400 }

/-- The status check of the preparation. -/
def cannotSettle (status : InvoiceStatus) : ServiceError :=
  { code := if status = .settled then .invoiceAlreadySettled else .invalidInvoiceStatus
    message := s!"Cannot settle an invoice with status {status.text}"
    statusCode := if status = .settled then 409 else 400 }

def settlementIntentConflict : ServiceError :=
  { code := .settlementIntentConflict
    message := "A settlement intent already exists with different parameters"
    statusCode := 409
    details := .invoiceId }

def reconciliationRequired (message : String) : ServiceError :=
  { code := .settlementReconciliationRequired
    message := message
    statusCode := 409
    details := .invoiceId }

def settlementIntentNotFound : ServiceError :=
  { code := .settlementIntentNotFound
    message := "Settlement intent not found"
    statusCode := 404 }

def cannotBeDistributed : ServiceError :=
  { code := .settlementIntentInvalid
    message := "Settlement intent cannot be marked as distributed"
    statusCode := 409 }

/-! ## Preparation -/

/-- `proceeds` is the text `toFixed(4)` gave, in units of `10 ^ -4`. -/
structure PrepareSettlementIntentInput where
  proceeds : ℤ
  actorWallet : String
  sellerId : Option Uuid
  trigger : InvoiceTransitionReason
  feeRecipient : String
  feeBps : ℤ
  deriving DecidableEq, Repr

def checkDistributorFee (feeBps : ℤ) : Except Thrown Unit :=
  throwIf (feeBps < 0 ∨ 10000 < feeBps) (.service invalidDistributorFee)

/-- The stored parameters are the ones asked for again. -/
def samePayload (payload : SettlementIntentPayload) (input : PrepareSettlementIntentInput) :
    Bool :=
  payload.proceeds == input.proceeds && payload.actorWallet == input.actorWallet &&
    payload.sellerId == input.sellerId && payload.trigger == input.trigger &&
    payload.feeRecipient == input.feeRecipient && payload.feeBps == input.feeBps

/-- One element of the payload's `investments`. -/
def payloadInvestment (db : Database) (totalFundedScaled distributableScaled : ℤ)
    (investment : Investment) : Except Thrown SettlementIntentInvestment := do
  let returnScaled ←
    computeInvestorReturn investment.investmentAmount totalFundedScaled distributableScaled
  return {
    id := investment.id
    investorId := investment.investorId
    investmentAmount := investment.investmentAmount
    recipientAddress := db.payoutAddress investment
    returnAmountStroops := returnScaled * DECIMAL_SCALE_TO_STROOP_FACTOR }

def settlementIntentPayload (db : Database) (input : PrepareSettlementIntentInput)
    (investments : List Investment) : Except Thrown SettlementIntentPayload := do
  let totalFunded := sumAmounts (investments.map fun investment => investment.investmentAmount)
  let totalFundedScaled := toFixed4 totalFunded
  let feeScaled := protocolFee input.proceeds input.feeBps
  let distributableScaled := input.proceeds - feeScaled
  let lines ← investments.mapM (payloadInvestment db totalFundedScaled distributableScaled)
  return {
    proceeds := input.proceeds
    actorWallet := input.actorWallet
    sellerId := input.sellerId
    trigger := input.trigger
    feeRecipient := input.feeRecipient
    feeBps := input.feeBps
    investments := lines.insertionSort fun left right => left.id ≤ right.id }

/-- What the preparation finds under its locks: an intent with the same
parameters, or a payload to store. -/
inductive PreparedSettlement where
  | existing (intent : SettlementIntent)
  | fresh (payload : SettlementIntentPayload)
  deriving DecidableEq, Repr

/-- The reads and checks of the preparation's transaction. -/
def readSettlementIntent (db : Database) (input : PrepareSettlementIntentInput) :
    Except Thrown PreparedSettlement := do
  let invoice ← orThrow db.invoice (.service invoiceNotFound)
  throwIf (sellerMismatch input.sellerId invoice) (.service forbiddenSeller)
  throwIf (walletMismatch db input.actorWallet invoice) (.service forbiddenWallet)
  throwIf (invoice.status ≠ .funded) (.service (cannotSettle invoice.status))
  match db.settlementIntent with
  | some existing =>
      throwIf (¬samePayload existing.payload input) (.service settlementIntentConflict)
      return .existing existing
  | none =>
      let investments := confirmedInvestments db.investments
      throwIf (investments = []) (.service noConfirmedInvestments)
      let payload ← settlementIntentPayload db input investments
      return .fresh payload

/-- The insert that ends the preparation, against the unique index. -/
def insertSettlementIntent (db : Database) (id : Uuid) (payload : SettlementIntentPayload) :
    Except Thrown Database := do
  throwIf db.settlementIntent.isSome
    (.error "QueryFailedError: duplicate key value violates unique constraint")
  return { db with
    settlementIntent := some
      { id := id, status := .prepared, payload := payload, transactionHash := none } }

/-- `prepareSettlementIntent` when nothing runs next to it. -/
def prepareSettlementIntent (db : Database) (id : Uuid) (input : PrepareSettlementIntentInput) :
    Except Thrown (Database × SettlementIntent) := do
  checkDistributorFee input.feeBps
  let prepared ← readSettlementIntent db input
  match prepared with
  | .existing intent => return (db, intent)
  | .fresh payload =>
      let saved ← insertSettlementIntent db id payload
      let intent ← orThrow saved.settlementIntent (.service settlementIntentNotFound)
      return (saved, intent)

/-! ## Claim and record -/

/-- `findOne(SettlementIntent, { where: { id } })`. -/
def Database.findSettlementIntent (db : Database) (id : Uuid) : Option SettlementIntent :=
  db.settlementIntent.filter fun intent => intent.id == id

def claimSettlementIntent (db : Database) (intentId : Uuid) : Except Thrown Database := do
  let intent ← orThrow (Database.findSettlementIntent db intentId)
    (.service settlementIntentNotFound)
  throwIf (intent.status ≠ .prepared) (.service (reconciliationRequired
    "Settlement payout has already been claimed; reconcile it before retrying"))
  return { db with settlementIntent := some { intent with status := .submitting } }

def markSettlementDistributed (db : Database) (intentId : Uuid)
    (transactionHash : TransactionHash) : Except Thrown Database := do
  let intent ← orThrow (Database.findSettlementIntent db intentId)
    (.service cannotBeDistributed)
  throwIf (intent.status ≠ .submitting) (.service cannotBeDistributed)
  return { db with
    settlementIntent := some
      { intent with status := .distributed, transactionHash := some transactionHash } }

/-- The argument of the payout submitted for a claimed intent. -/
def distributionInput (payload : SettlementIntentPayload) : DistributePayoutsInput :=
  { recipients := payload.investments.map fun investment =>
      ⟨investment.recipientAddress, investment.returnAmountStroops⟩
    totalAmountStroops := payload.proceeds * DECIMAL_SCALE_TO_STROOP_FACTOR
    feeRecipient := payload.feeRecipient
    feeBps := payload.feeBps }

/-! ## What each transaction does -/

theorem findSettlementIntent_eq_some {db : Database} {id : Uuid} {intent : SettlementIntent} :
    Database.findSettlementIntent db id = some intent ↔
      db.settlementIntent = some intent ∧ intent.id = id := by
  simp [Database.findSettlementIntent, Option.filter_eq_some_iff]

theorem claimSettlementIntent_eq_ok {db after : Database} {intentId : Uuid} :
    claimSettlementIntent db intentId = .ok after ↔
      ∃ intent, db.settlementIntent = some intent ∧ intent.id = intentId ∧
        intent.status = .prepared ∧
        after = { db with settlementIntent := some { intent with status := .submitting } } := by
  simp [claimSettlementIntent, findSettlementIntent_eq_some, and_assoc]

theorem markSettlementDistributed_eq_ok {db after : Database} {intentId : Uuid}
    {transactionHash : TransactionHash} :
    markSettlementDistributed db intentId transactionHash = .ok after ↔
      ∃ intent, db.settlementIntent = some intent ∧ intent.id = intentId ∧
        intent.status = .submitting ∧
        after = { db with
          settlementIntent := some
            { intent with status := .distributed, transactionHash := some transactionHash } } := by
  simp [markSettlementDistributed, findSettlementIntent_eq_some, and_assoc]

theorem insertSettlementIntent_eq_ok {db after : Database} {id : Uuid}
    {payload : SettlementIntentPayload} :
    insertSettlementIntent db id payload = .ok after ↔
      db.settlementIntent = none ∧
        after = { db with
          settlementIntent := some
            { id := id, status := .prepared, payload := payload, transactionHash := none } } := by
  simp [insertSettlementIntent]

/-- What a preparation that does not throw has seen. -/
theorem readSettlementIntent_eq_ok {db : Database} {input : PrepareSettlementIntentInput}
    {prepared : PreparedSettlement} :
    readSettlementIntent db input = .ok prepared ↔
      ∃ invoice, db.invoice = some invoice ∧ sellerMismatch input.sellerId invoice = false ∧
        walletMismatch db input.actorWallet invoice = false ∧ invoice.status = .funded ∧
        ((∃ existing, db.settlementIntent = some existing ∧
            samePayload existing.payload input = true ∧ prepared = .existing existing) ∨
          (db.settlementIntent = none ∧ confirmedInvestments db.investments ≠ [] ∧
            ∃ payload, settlementIntentPayload db input
              (confirmedInvestments db.investments) = .ok payload ∧
              prepared = .fresh payload)) := by
  unfold readSettlementIntent
  cases hintent : db.settlementIntent with
  | none => simp
  | some existing => simp

theorem payloadInvestment_eq_ok {db : Database} {totalFundedScaled distributableScaled : ℤ}
    {investment : Investment} {line : SettlementIntentInvestment} :
    payloadInvestment db totalFundedScaled distributableScaled investment = .ok line ↔
      ∃ returnScaled, computeInvestorReturn investment.investmentAmount totalFundedScaled
          distributableScaled = .ok returnScaled ∧
        line =
          { id := investment.id
            investorId := investment.investorId
            investmentAmount := investment.investmentAmount
            recipientAddress := db.payoutAddress investment
            returnAmountStroops := returnScaled * DECIMAL_SCALE_TO_STROOP_FACTOR } := by
  simp [payloadInvestment]

/-! ## The payload -/

/-- The running total of the holdings, as the payload's code reads it back. -/
def totalFundedScaled (investments : List Investment) : ℤ :=
  toFixed4 (sumAmounts (investments.map fun investment => investment.investmentAmount))

/-- The line of the payload for one investment. -/
def payloadLine (db : Database) (total distributable : ℤ) (investment : Investment) :
    SettlementIntentInvestment :=
  { id := investment.id
    investorId := investment.investorId
    investmentAmount := investment.investmentAmount
    recipientAddress := db.payoutAddress investment
    returnAmountStroops :=
      floorShare distributable total investment.investmentAmount *
        DECIMAL_SCALE_TO_STROOP_FACTOR }

/-- The parameters of the payload are those of the input, and its lines are those
of the investments, sorted by id. -/
theorem settlementIntentPayload_eq_ok {db : Database} {input : PrepareSettlementIntentInput}
    {investments : List Investment} {payload : SettlementIntentPayload}
    (hok : settlementIntentPayload db input investments = .ok payload) :
    payload =
      { proceeds := input.proceeds
        actorWallet := input.actorWallet
        sellerId := input.sellerId
        trigger := input.trigger
        feeRecipient := input.feeRecipient
        feeBps := input.feeBps
        investments := (investments.map (payloadLine db (totalFundedScaled investments)
          (input.proceeds - protocolFee input.proceeds input.feeBps))).insertionSort
            fun left right => left.id ≤ right.id } := by
  obtain ⟨lines, hlines, hpayload⟩ := bind_eq_ok.mp hok
  have hmap : lines = investments.map (payloadLine db (totalFundedScaled investments)
      (input.proceeds - protocolFee input.proceeds input.feeBps)) := by
    refine eq_map_of_mapM_eq_ok hlines fun investment line hline => ?_
    obtain ⟨returnScaled, hreturn, rfl⟩ := payloadInvestment_eq_ok.mp hline
    rw [(eq_floorShare_of_computeInvestorReturn hreturn).2.2.2]
    rfl
  rw [pure_eq_ok.mp hpayload, hmap]

/-- A payload with lines was computed from a positive total, a distributable
amount and amounts that are not negative. -/
theorem nonneg_of_settlementIntentPayload_eq_ok {db : Database}
    {input : PrepareSettlementIntentInput} {investments : List Investment}
    {payload : SettlementIntentPayload} {investment : Investment}
    (hok : settlementIntentPayload db input investments = .ok payload)
    (hmem : investment ∈ investments) :
    0 < totalFundedScaled investments ∧ 0 ≤ investment.investmentAmount ∧
      0 ≤ input.proceeds - protocolFee input.proceeds input.feeBps := by
  obtain ⟨lines, hlines, _⟩ := bind_eq_ok.mp hok
  obtain ⟨line, hline⟩ := exists_of_mapM_eq_ok hlines hmem
  obtain ⟨returnScaled, hreturn, _⟩ := payloadInvestment_eq_ok.mp hline
  obtain ⟨htotal, hamount, hdistributable, _⟩ := eq_floorShare_of_computeInvestorReturn hreturn
  exact ⟨htotal, hamount, hdistributable⟩

/-- Amounts that are not negative, with a positive total, have a payload. -/
theorem exists_settlementIntentPayload (db : Database) {input : PrepareSettlementIntentInput}
    {investments : List Investment} (htotal : 0 < totalFundedScaled investments)
    (hnonneg : ∀ investment ∈ investments, 0 ≤ investment.investmentAmount)
    (hdistributable : 0 ≤ input.proceeds - protocolFee input.proceeds input.feeBps) :
    ∃ payload, settlementIntentPayload db input investments = .ok payload := by
  have hlines : investments.mapM (payloadInvestment db (totalFundedScaled investments)
      (input.proceeds - protocolFee input.proceeds input.feeBps)) =
        .ok (investments.map (payloadLine db (totalFundedScaled investments)
          (input.proceeds - protocolFee input.proceeds input.feeBps))) :=
    mapM_eq_ok fun investment hmem => payloadInvestment_eq_ok.mpr
      ⟨_, computeInvestorReturn_eq_ok htotal (hnonneg investment hmem) hdistributable, rfl⟩
  exact ⟨_, bind_eq_ok.mpr ⟨_, hlines, rfl⟩⟩

theorem payload_investments_perm {db : Database} {input : PrepareSettlementIntentInput}
    {investments : List Investment} {payload : SettlementIntentPayload}
    (hok : settlementIntentPayload db input investments = .ok payload) :
    payload.investments.Perm (investments.map (payloadLine db (totalFundedScaled investments)
      (input.proceeds - protocolFee input.proceeds input.feeBps))) := by
  rw [settlementIntentPayload_eq_ok hok]
  exact List.perm_insertionSort _ _

/-- The recipients' amounts of a prepared payout add up to the floored shares, in
stroops. -/
theorem recipientTotal_distributionInput {db : Database}
    {input : PrepareSettlementIntentInput} {investments : List Investment}
    {payload : SettlementIntentPayload}
    (hok : settlementIntentPayload db input investments = .ok payload) :
    (distributionInput payload).recipientTotal =
      shareSum (input.proceeds - protocolFee input.proceeds input.feeBps)
        (totalFundedScaled investments) Investment.investmentAmount investments *
        DECIMAL_SCALE_TO_STROOP_FACTOR := by
  have hperm := (payload_investments_perm hok).map fun line => line.returnAmountStroops
  have hamounts : ((distributionInput payload).recipients.map
      fun recipient => recipient.amountStroops) =
        payload.investments.map fun line => line.returnAmountStroops := by
    simp [distributionInput, Function.comp_def]
  rw [recipientTotal_eq_sum, hamounts, hperm.sum_eq, List.map_map, shareSum,
    ← List.sum_map_mul_right]
  rfl

/-- A preparation returns the stored intent of the same payload, or stores and
returns a new one. -/
theorem prepareSettlementIntent_eq_ok {db prepared : Database} {id : Uuid}
    {input : PrepareSettlementIntentInput} {intent : SettlementIntent} :
    prepareSettlementIntent db id input = .ok (prepared, intent) ↔
      (0 ≤ input.feeBps ∧ input.feeBps ≤ 10000) ∧
        prepared = { db with settlementIntent := some intent } ∧
        ∃ invoice, db.invoice = some invoice ∧ sellerMismatch input.sellerId invoice = false ∧
          walletMismatch db input.actorWallet invoice = false ∧ invoice.status = .funded ∧
          ((db.settlementIntent = some intent ∧ samePayload intent.payload input = true) ∨
            (db.settlementIntent = none ∧ confirmedInvestments db.investments ≠ [] ∧
              ∃ payload, settlementIntentPayload db input
                (confirmedInvestments db.investments) = .ok payload ∧
                intent =
                  { id := id, status := .prepared, payload := payload
                    transactionHash := none })) := by
  constructor
  · intro hok
    obtain ⟨_, hfee, hread⟩ := bind_eq_ok.mp hok
    obtain ⟨found, hfound, hinsert⟩ := bind_eq_ok.mp hread
    simp only [checkDistributorFee, throwIf_eq_ok, not_or, not_lt] at hfee
    obtain ⟨invoice, hinvoice, hseller, hwallet, hfunded,
      ⟨existing, hexisting, hsame, rfl⟩ | ⟨hnone, hne, payload, hpayload, rfl⟩⟩ :=
      readSettlementIntent_eq_ok.mp hfound
    · obtain ⟨rfl, rfl⟩ := Prod.mk.inj (pure_eq_ok.mp hinsert)
      exact ⟨hfee, by rw [← hexisting], invoice, hinvoice, hseller, hwallet, hfunded,
        .inl ⟨hexisting, hsame⟩⟩
    · obtain ⟨saved, hsaved, hstored⟩ := bind_eq_ok.mp hinsert
      obtain ⟨_, rfl⟩ := insertSettlementIntent_eq_ok.mp hsaved
      obtain ⟨stored, hsome, hpair⟩ := bind_eq_ok.mp hstored
      obtain ⟨rfl, rfl⟩ := Prod.mk.inj (pure_eq_ok.mp hpair)
      obtain rfl := Option.some.inj (orThrow_eq_ok.mp hsome)
      exact ⟨hfee, rfl, invoice, hinvoice, hseller, hwallet, hfunded,
        .inr ⟨hnone, hne, payload, hpayload, rfl⟩⟩
  · rintro ⟨hfee, rfl, invoice, hinvoice, hseller, hwallet, hfunded,
      ⟨hexisting, hsame⟩ | ⟨hnone, hne, payload, hpayload, rfl⟩⟩
    · have hfound : readSettlementIntent db input = .ok (.existing intent) :=
        readSettlementIntent_eq_ok.mpr ⟨invoice, hinvoice, hseller, hwallet, hfunded,
          .inl ⟨intent, hexisting, hsame, rfl⟩⟩
      rw [prepareSettlementIntent, checkDistributorFee, throwIf_neg (by omega), hfound,
        ← hexisting]
      rfl
    · have hfound : readSettlementIntent db input = .ok (.fresh payload) :=
        readSettlementIntent_eq_ok.mpr ⟨invoice, hinvoice, hseller, hwallet, hfunded,
          .inr ⟨hnone, hne, payload, hpayload, rfl⟩⟩
      have hsaved : insertSettlementIntent db id payload =
          .ok { db with settlementIntent := some ⟨id, .prepared, payload, none⟩ } :=
        insertSettlementIntent_eq_ok.mpr ⟨hnone, rfl⟩
      exact bind_eq_ok.mpr ⟨(), throwIf_neg (by omega), bind_eq_ok.mpr ⟨_, hfound,
        bind_eq_ok.mpr ⟨_, hsaved, rfl⟩⟩⟩

theorem prepareSettlementIntent_stored {db prepared : Database} {id : Uuid}
    {input : PrepareSettlementIntentInput} {intent : SettlementIntent}
    (hok : prepareSettlementIntent db id input = .ok (prepared, intent)) :
    prepared = { db with settlementIntent := some intent } :=
  (prepareSettlementIntent_eq_ok.mp hok).2.1

/-- A new intent stores the payload of the confirmed holdings. -/
theorem prepareSettlementIntent_fresh {db prepared : Database} {id : Uuid}
    {input : PrepareSettlementIntentInput} {intent : SettlementIntent}
    (hok : prepareSettlementIntent db id input = .ok (prepared, intent))
    (hfresh : db.settlementIntent = none) :
    (0 ≤ input.feeBps ∧ input.feeBps ≤ 10000) ∧
      confirmedInvestments db.investments ≠ [] ∧
      settlementIntentPayload db input (confirmedInvestments db.investments) =
        .ok intent.payload := by
  obtain ⟨hfee, _, _, _, _, _, _, ⟨hexisting, _⟩ | ⟨_, hne, payload, hpayload, rfl⟩⟩ :=
    prepareSettlementIntent_eq_ok.mp hok
  · rw [hfresh] at hexisting
    cases hexisting
  · exact ⟨hfee, hne, hpayload⟩

end StellarSettle.SettlementIntents
