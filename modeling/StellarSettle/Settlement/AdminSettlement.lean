import StellarSettle.Settlement.SettleInvoice

/-!
# Settlement by an administrator

`AdminSettlementService.settleInvoice` settles the escrow on chain first and
checks the invoice afterwards, in the transaction that records the payouts.
-/

namespace StellarSettle.AdminSettlement

open StellarSettle.Checks
open StellarSettle.DecimalJs
open StellarSettle.Entities
open StellarSettle.FloorShare
open StellarSettle.InvestorReturn
open StellarSettle.InvoiceLifecycle
open StellarSettle.SettleInvoice
open StellarSettle.SettlementIntents

structure AdminSettleInvoiceInput where
  repaymentAmount : Decimal
  actorWallet : String
  deriving DecidableEq, Repr

/-! ## Errors -/

def invalidRepaymentAmount : ServiceError :=
  { code := .invalidRepaymentAmount
    message := "Repayment amount must be greater than zero"
    statusCode := 400 }

def onChainSettlementError (message : String) : ServiceError :=
  { code := .onChainSettlementError
    message := "Failed to execute on-chain settlement"
    statusCode := 502
    details := .originalError message }

def notFunded (status : InvoiceStatus) : ServiceError :=
  { code := .invalidInvoiceStatus
    message := s!"Cannot settle an invoice with status {status.text}. Invoice must be FUNDED."
    statusCode := 400 }

/-! ## The escrow -/

/-- One call of `settleEscrowOnChain`. -/
structure EscrowCall where
  landed : Bool
  result : Except ChainError TransactionHash

def settleEscrowOnChain (chain : ChainOutcome) : EscrowCall :=
  match chain with
  | .unconfigured thrown => ⟨false, .error thrown⟩
  | .failed thrown => ⟨false, .error thrown⟩
  | .lost thrown => ⟨true, .error thrown⟩
  | .confirmed hash => ⟨true, .ok hash⟩

/-- Service errors pass through, everything else is wrapped. -/
def escrowError (thrown : ChainError) : Thrown :=
  if thrown.isServiceError then .chain thrown
  else .service (onChainSettlementError thrown.message)

/-! ## The transaction -/

/-- Everything the transaction is going to write. -/
structure AdminSettlementPlan where
  invoice : Invoice
  investments : List Investment
  repaymentScaled : ℤ
  transactionHash : TransactionHash
  actorWallet : String
  deriving DecidableEq, Repr

/-- The body of the loop over the investments. -/
def adminSettledInvestment (totalFundedScaled repaymentAmountScaled : ℤ)
    (investment : Investment) : Except Thrown Investment := do
  let actualReturnScaled ←
    computeInvestorReturn investment.investmentAmount totalFundedScaled repaymentAmountScaled
  return { investment with actualReturn := some actualReturnScaled, status := .settled }

/-- The checks on the locked invoice. -/
def checkAdminSettlement (db : Database) : Except Thrown (Invoice × List Investment) := do
  let invoice ← orThrow db.invoice (.service invoiceNotFound)
  throwIf (invoice.status ≠ .funded) (.service (notFunded invoice.status))
  let investments := confirmedInvestments db.investments
  throwIf (investments = [])
    (.service { noConfirmedInvestments with statusCode := 400 })
  return (invoice, investments)

def readAdminSettlement (input : AdminSettleInvoiceInput) (transactionHash : TransactionHash)
    (db : Database) : Except Thrown AdminSettlementPlan := do
  let (invoice, investments) ← checkAdminSettlement db
  let totalFunded := sumAmounts (investments.map fun investment => investment.investmentAmount)
  let totalFundedScaled := toFixed4 totalFunded
  let repaymentAmountScaled := toFixed4 input.repaymentAmount
  let settled ← investments.mapM (adminSettledInvestment totalFundedScaled repaymentAmountScaled)
  return {
    invoice := invoice
    investments := settled
    repaymentScaled := repaymentAmountScaled
    transactionHash := transactionHash
    actorWallet := input.actorWallet }

def adminPaymentRow (plan : AdminSettlementPlan) : Transaction :=
  { userId := plan.invoice.sellerId
    investmentId := none
    type := .payment
    amount := plan.repaymentScaled
    stellarTxHash := some plan.transactionHash.text
    stellarOperationIndex := some 0
    status := .completed }

def investorPayoutRow (plan : AdminSettlementPlan) (settled : Investment) : InvestorPayout :=
  { investorId := settled.investorId
    investmentId := settled.id
    amount := settled.actualReturn.getD 0
    status := .completed
    stellarTxHash := plan.transactionHash }

/-- The writes and the commit.  The invoice row is locked since it was read. -/
def commitAdminSettlement (db : Database) (plan : AdminSettlementPlan) :
    Except Thrown Database := do
  let row ← orThrow db.invoice (.service invoiceNotFound)
  let moved ← transition db.intentInFlight row plan.invoice .settled
    { actor := { role := .admin, wallet := some plan.actorWallet }, trigger := .adminSettled }
  return { db with
    invoice := some moved.invoice
    investments := plan.investments.foldl saveInvestment db.investments
    transactions := db.transactions ++ [adminPaymentRow plan]
    investorPayouts := db.investorPayouts ++ plan.investments.map (investorPayoutRow plan)
    statusHistory := db.statusHistory ++ [moved.history] }

theorem commitAdminSettlement_eq_ok {db after : Database} {plan : AdminSettlementPlan}
    (hok : commitAdminSettlement db plan = .ok after) :
    ∃ row moved, db.invoice = some row ∧
      transition db.intentInFlight row plan.invoice .settled
        { actor := { role := .admin, wallet := some plan.actorWallet }
          trigger := .adminSettled } = .ok moved ∧
      after.invoice = some moved.invoice ∧ after.settlementIntent = db.settlementIntent ∧
      after.investments = plan.investments.foldl saveInvestment db.investments ∧
      after.users = db.users ∧ after.listings = db.listings := by
  obtain ⟨row, hrow, hrest⟩ := bind_eq_ok.mp hok
  obtain ⟨moved, hmoved, hafter⟩ := bind_eq_ok.mp hrest
  obtain rfl := pure_eq_ok.mp hafter
  exact ⟨row, moved, orThrow_eq_ok.mp hrow, hmoved, rfl, rfl, rfl, rfl, rfl⟩

/-- The history row of a settlement is written with the settled invoice. -/
theorem history_of_commitAdminSettlement {db after : Database} {plan : AdminSettlementPlan}
    (hok : commitAdminSettlement db plan = .ok after) :
    ∃ row moved, db.invoice = some row ∧
      transition db.intentInFlight row plan.invoice .settled
        { actor := { role := .admin, wallet := some plan.actorWallet }
          trigger := .adminSettled } = .ok moved ∧
      after.invoice = some moved.invoice ∧
      after.statusHistory = db.statusHistory ++ [moved.history] := by
  obtain ⟨row, hrow, hrest⟩ := bind_eq_ok.mp hok
  obtain ⟨moved, hmoved, hafter⟩ := bind_eq_ok.mp hrest
  obtain rfl := pure_eq_ok.mp hafter
  exact ⟨row, moved, orThrow_eq_ok.mp hrow, hmoved, rfl, rfl⟩

/-! ## One call on its own -/

/-- The escrow call, if there was one, the database the call leaves and what it
returns. -/
structure AdminSettleCall where
  escrow : Option EscrowCall
  db : Database
  result : Except Thrown AdminSettlementPlan

def checkRepaymentAmount (repaymentAmount : Decimal) : Except Thrown Unit :=
  throwIf (repaymentAmount < 0 ∨ repaymentAmount = 0) (.service invalidRepaymentAmount)

def adminSettlementTransaction (input : AdminSettleInvoiceInput)
    (transactionHash : TransactionHash) (escrow : EscrowCall) (db : Database) :
    AdminSettleCall :=
  match readAdminSettlement input transactionHash db with
  | .error thrown => ⟨some escrow, db, .error thrown⟩
  | .ok plan =>
      match commitAdminSettlement db plan with
      | .error thrown => ⟨some escrow, db, .error thrown⟩
      | .ok after => ⟨some escrow, after, .ok plan⟩

def adminSettleInvoice (input : AdminSettleInvoiceInput) (chain : ChainOutcome)
    (db : Database) : AdminSettleCall :=
  match checkRepaymentAmount input.repaymentAmount with
  | .error thrown => ⟨none, db, .error thrown⟩
  | .ok () =>
      let escrow := settleEscrowOnChain chain
      match escrow.result with
      | .error thrown => ⟨some escrow, db, .error (escrowError thrown)⟩
      | .ok transactionHash => adminSettlementTransaction input transactionHash escrow db

/-! ## The escrow and the checks -/

/-- The checks of the transaction accept the invoice. -/
def Accepted (db : Database) : Prop :=
  ∃ invoice, db.invoice = some invoice ∧ invoice.status = .funded ∧
    confirmedInvestments db.investments ≠ []

/-- The call ends with one of the three errors of the checks. -/
def RejectedByChecks (result : Except Thrown AdminSettlementPlan) : Prop :=
  ∃ thrown, result = .error thrown ∧
    (thrown.hasCode .invoiceNotFound = true ∨ thrown.hasCode .invalidInvoiceStatus = true ∨
      thrown.hasCode .noConfirmedInvestments = true)

/-- The escrow is settled only for an invoice that the checks accept. -/
def EscrowAfterChecks (call : AdminSettleCall) (db : Database) : Prop :=
  (RejectedByChecks call.result → call.escrow = none) ∧
    ∀ escrow, call.escrow = some escrow → escrow.landed = true → Accepted db

theorem checkAdminSettlement_of_accepted {db : Database} (haccepted : Accepted db) :
    ∃ invoice, db.invoice = some invoice ∧
      checkAdminSettlement db = .ok (invoice, confirmedInvestments db.investments) := by
  obtain ⟨invoice, hinvoice, hfunded, hne⟩ := haccepted
  refine ⟨invoice, hinvoice, ?_⟩
  rw [checkAdminSettlement, hinvoice, orThrow_some, ok_bind, throwIf_neg (by simpa using hfunded),
    ok_bind]
  dsimp only
  rw [throwIf_neg hne]
  rfl

theorem rejected_of_not_accepted {db : Database} (hrejected : ¬Accepted db)
    (input : AdminSettleInvoiceInput) (transactionHash : TransactionHash) (escrow : EscrowCall) :
    RejectedByChecks
      (adminSettlementTransaction input transactionHash escrow db).result := by
  unfold adminSettlementTransaction readAdminSettlement checkAdminSettlement
  cases hinvoice : db.invoice with
  | none => exact ⟨.service invoiceNotFound, rfl, .inl (by decide)⟩
  | some invoice =>
      by_cases hfunded : invoice.status = .funded
      · have hnil : confirmedInvestments db.investments = [] := by
          by_contra hne
          exact hrejected ⟨invoice, hinvoice, hfunded, hne⟩
        rw [orThrow_some, ok_bind, throwIf_neg (by simpa using hfunded), ok_bind]
        dsimp only
        rw [throwIf_pos hnil]
        exact ⟨_, rfl, .inr (.inr (by decide))⟩
      · rw [orThrow_some, ok_bind, throwIf_pos hfunded]
        exact ⟨_, rfl, .inr (.inl (by simp [Thrown.hasCode, notFunded]))⟩

theorem not_rejected_of_accepted {db : Database} (haccepted : Accepted db)
    (input : AdminSettleInvoiceInput) (transactionHash : TransactionHash) (escrow : EscrowCall) :
    ¬RejectedByChecks
      (adminSettlementTransaction input transactionHash escrow db).result := by
  obtain ⟨invoice, hinvoice, hcheck⟩ := checkAdminSettlement_of_accepted haccepted
  -- What can still be thrown is a range error or an error of the transition.
  have hread : ∀ thrown, readAdminSettlement input transactionHash db = .error thrown →
      ∀ code, thrown.hasCode code = false := by
    intro thrown herror code
    rcases bind_eq_error.mp herror with hnever | ⟨checked, hchecked, hrest⟩
    · rw [hcheck] at hnever
      cases hnever
    · rcases bind_eq_error.mp hrest with hloop | ⟨_, _, hnever⟩
      · obtain ⟨item, _, hitem⟩ := exists_of_mapM_eq_error hloop
        rcases bind_eq_error.mp hitem with hreturn | ⟨_, _, hnever⟩
        · exact computeInvestorReturn_error_code hreturn
        · cases hnever
      · cases hnever
  have hcommit : ∀ plan thrown, commitAdminSettlement db plan = .error thrown →
      ∀ code, thrown.hasCode code = true → code ∈ transitionCodes := by
    intro plan thrown herror code hcode
    rcases bind_eq_error.mp herror with hnever | ⟨row, _, hrest⟩
    · rw [hinvoice] at hnever
      cases hnever
    · rcases bind_eq_error.mp hrest with hmoved | ⟨_, _, hnever⟩
      · exact transition_error_code hmoved hcode
      · cases hnever
  rintro ⟨thrown, hresult, hcodes⟩
  have hcode : ∃ code, thrown.hasCode code = true ∧ code ∉ transitionCodes := by
    rcases hcodes with hcode | hcode | hcode <;> exact ⟨_, hcode, by decide⟩
  obtain ⟨code, hcode, hforeign⟩ := hcode
  unfold adminSettlementTransaction at hresult
  cases hplan : readAdminSettlement input transactionHash db with
  | error raised =>
      rw [hplan] at hresult
      obtain rfl := Except.error.inj hresult
      rw [hread _ hplan code] at hcode
      cases hcode
  | ok plan =>
      rw [hplan] at hresult
      dsimp only at hresult
      cases hafter : commitAdminSettlement db plan with
      | error raised =>
          rw [hafter] at hresult
          obtain rfl := Except.error.inj hresult
          exact hforeign (hcommit plan _ hafter code hcode)
      | ok after =>
          rw [hafter] at hresult
          cases hresult

/-- The three errors say exactly that the invoice is not acceptable. -/
theorem rejectedByChecks_iff (db : Database) (input : AdminSettleInvoiceInput)
    (transactionHash : TransactionHash) (escrow : EscrowCall) :
    RejectedByChecks (adminSettlementTransaction input transactionHash escrow db).result ↔
      ¬Accepted db :=
  ⟨fun hrejected haccepted =>
      not_rejected_of_accepted haccepted input transactionHash escrow hrejected,
    fun hrejected => rejected_of_not_accepted hrejected input transactionHash escrow⟩

/-- The order of the escrow and the checks matters exactly when the escrow lands
for an invoice that the checks reject. -/
theorem escrowAfterChecks_iff (input : AdminSettleInvoiceInput) (chain : ChainOutcome)
    (db : Database) :
    EscrowAfterChecks (adminSettleInvoice input chain db) db ↔
      input.repaymentAmount ≤ 0 ∨ Accepted db ∨ (settleEscrowOnChain chain).landed = false := by
  unfold adminSettleInvoice checkRepaymentAmount
  by_cases hamount : input.repaymentAmount ≤ 0
  · rw [throwIf_pos hamount.lt_or_eq]
    simp [EscrowAfterChecks, hamount]
  · rw [throwIf_neg (by rintro (h | h) <;> linarith)]
    simp only [hamount, false_or]
    have hchain : ∀ raised, ¬RejectedByChecks (.error (escrowError raised)) := by
      rintro raised ⟨thrown, hthrown, hcodes⟩
      obtain rfl := Except.error.inj hthrown
      unfold escrowError at hcodes
      split at hcodes <;> simp [Thrown.hasCode, onChainSettlementError] at hcodes
    cases chain with
    | unconfigured raised => simp [EscrowAfterChecks, settleEscrowOnChain, hchain]
    | failed raised => simp [EscrowAfterChecks, settleEscrowOnChain, hchain]
    | lost raised => simp [EscrowAfterChecks, settleEscrowOnChain, hchain]
    | confirmed hash =>
        have hescrow : ∀ escrow, (adminSettlementTransaction input hash escrow db).escrow =
            some escrow := by
          intro escrow
          unfold adminSettlementTransaction
          split
          · rfl
          · split <;> rfl
        simp only [EscrowAfterChecks, settleEscrowOnChain, hescrow, rejectedByChecks_iff,
          reduceCtorEq, imp_false, not_not, Option.some.injEq, forall_eq', forall_true_left,
          Bool.true_eq_false, or_false, and_self]

/-- The escrow of a cancelled invoice is settled before the status is looked at. -/
theorem cancelled_escrow_settled :
    let cancelled : Database :=
      { fundedDatabase with invoice := some { fundedInvoice with status := .cancelled } }
    let call := adminSettleInvoice ⟨100, "GADMIN"⟩ (.confirmed firstHash) cancelled
    call.escrow.map EscrowCall.landed = some true ∧
      call.result = .error (.service (notFunded .cancelled)) := by
  decide +kernel

end StellarSettle.AdminSettlement
