import StellarSettle.Concurrency.System

/-!
# What the steps commit

Every step of every process, read off once: it leaves the rows of the invoice as
they are, or it is one of a few kinds of commit.  All later results use this list
and never look at a process again.
-/

namespace StellarSettle.SystemWrites

open StellarSettle.AdminSettlement
open StellarSettle.Checks
open StellarSettle.Entities
open StellarSettle.EventIndexer
open StellarSettle.InvestmentService
open StellarSettle.InvoiceExtension
open StellarSettle.InvoiceLifecycle
open StellarSettle.InvoiceMaturity
open StellarSettle.InvoiceRefund
open StellarSettle.InvoiceService
open StellarSettle.SecondaryMarket
open StellarSettle.SettleInvoice
open StellarSettle.SettlementIntents
open StellarSettle.System

/-- The rows that the results are about. -/
structure Rows where
  invoice : Option Invoice
  investments : List Investment
  settlementIntent : Option SettlementIntent
  statusHistory : List InvoiceStatusHistory

def rows (db : Database) : Rows :=
  { invoice := db.invoice
    investments := db.investments
    settlementIntent := db.settlementIntent
    statusHistory := db.statusHistory }

section Rows

variable {db : Database} {stored : Rows}

theorem invoice_of_rows (hrows : rows db = stored) : db.invoice = stored.invoice :=
  congrArg Rows.invoice hrows

theorem investments_of_rows (hrows : rows db = stored) : db.investments = stored.investments :=
  congrArg Rows.investments hrows

theorem settlementIntent_of_rows (hrows : rows db = stored) :
    db.settlementIntent = stored.settlementIntent :=
  congrArg Rows.settlementIntent hrows

theorem statusHistory_of_rows (hrows : rows db = stored) :
    db.statusHistory = stored.statusHistory :=
  congrArg Rows.statusHistory hrows

end Rows

/-! ## The data of a commit -/

/-- The invoice and the holdings that a settlement is about to save. -/
def settling : Process → Option (Invoice × List Investment)
  | .service (.settleInvoice _ _ (.commit plan)) => some (plan.invoice, plan.investments)
  | .service (.adminSettleInvoice _ (.commit plan)) => some (plan.invoice, plan.investments)
  | _ => none

/-- The writes that a funding transaction is about to commit. -/
def fundingWrites : Process → Option FundingWrites
  | .funding (.investInInvoice _ _ _ (.commit writes)) => some writes
  | .funding (.createInvestment _ _ (.commit writes)) => some writes
  | _ => none

/-- The entity that the state machine is about to save without having locked its row
first, and its new status. -/
def changing : Process → Option (Invoice × InvoiceStatus)
  | .changeStatus _ (.save entity change) => some (entity, change.target)
  | .cancelInvoice _ (.save entity) => some (entity, .cancelled)
  | _ => none

/-- The invoice that is about to be marked as underfunded. -/
def failing : Process → Option Invoice
  | .markUnderfunded (.commit invoice) => some invoice
  | _ => none

/-- The entity that is about to be saved outside the state machine. -/
def savingInvoice : Process → Option Invoice
  | .service (.refundInvestment _ (.cancel invoice)) => some { invoice with status := .cancelled }
  | .invoiceEvent _ (.save entity) => some entity
  | .uploadDocument _ (.save entity) => some entity
  | .updateInvoice _ (.save entity) => some entity
  | .reviewExtension _ (.commit (.approved entity _)) => some entity
  | _ => none

/-- The investment that a payment or an event is about to save. -/
def savingInvestment : Process → Option Investment
  | .service (.verifyPayment _ (.write writes)) => some writes.investment
  | .service (.investmentFunded _ (.save entity)) => some entity
  | _ => none

/-- The holdings that a purchase is about to save. -/
def purchasing : Process → Option (List Investment)
  | .service (.buyListing _ (.write writes)) => some writes.investments
  | _ => none

/-- The process is about to insert a settlement intent. -/
def inserting : Process → Bool
  | .service (.settleInvoice _ _ (.insert _)) => true
  | _ => false

/-! ## The kinds of commit -/

/-- What a step of `process` leaves: `hneeds` says that it waited for the row. -/
inductive Write (now : Timestamp) (db : Database) (process : Process) : Database → Prop
  | quiet {after : Database} (hrows : rows after = rows db) : Write now db process after
  | inserted {after : Database} {intent : SettlementIntent}
      (hneeds : needsInvoice process = true) (hprocess : inserting process = true)
      (hrows : rows after = { rows db with settlementIntent := some intent }) :
      Write now db process after
  | forwarded {after : Database} {before intent : SettlementIntent}
      (hintent : db.settlementIntent = some before)
      (hflight : before.status.inFlight = intent.status.inFlight)
      (hrows : rows after = { rows db with settlementIntent := some intent }) :
      Write now db process after
  | settled {after : Database} {entity saved : Invoice} {holdings : List Investment}
      {history : InvoiceStatusHistory} {settlementIntent : Option SettlementIntent}
      (hneeds : needsInvoice process = true)
      (hprocess : settling process = some (entity, holdings))
      (hadmitted : Admitted now saved history)
      (hfrom : history.fromStatus = entity.status) (hto : history.toStatus = .settled)
      (hintent : db.settlementIntent = none → settlementIntent = none)
      (hrows : rows after =
        { invoice := some saved
          investments := holdings.foldl saveInvestment db.investments
          settlementIntent := settlementIntent
          statusHistory := db.statusHistory ++ [history] }) :
      Write now db process after
  | funded {writes : FundingWrites} (hneeds : needsInvoice process = true)
      (hprocess : fundingWrites process = some writes) :
      Write now db process (commitFunding db writes)
  | changed {after : Database} {entity saved : Invoice} {history : InvoiceStatusHistory}
      (hneeds : needsInvoice process = true)
      (hprocess : changing process = some (entity, history.toStatus) ∨
        failing process = some entity ∧ history.toStatus = .failed)
      (hadmitted : Admitted now saved history) (hfrom : history.fromStatus = entity.status)
      (hrows : rows after =
        { rows db with
          invoice := some saved
          statusHistory := db.statusHistory ++ [history] }) :
      Write now db process after
  | saved {after : Database} {entity row saved : Invoice}
      (hneeds : needsInvoice process = true)
      (hprocess : savingInvoice process = some entity) (hrow : db.invoice = some row)
      (hsave : persistInvoice row entity = .ok saved)
      (hrows : rows after = { rows db with invoice := some saved }) :
      Write now db process after
  | confirmed {after : Database} {entity : Investment}
      (hprocess : savingInvestment process = some entity)
      (hrows : rows after =
        { rows db with investments := saveInvestment db.investments entity }) :
      Write now db process after
  | removed {after : Database} {investment : Investment}
      (hrows : rows after =
        { rows db with
          investments := db.investments.filter fun row => row.id != investment.id }) :
      Write now db process after
  | purchased {after : Database} {holdings : List Investment}
      (hneeds : needsInvoice process = true)
      (hprocess : purchasing process = some holdings)
      (hrows : rows after =
        { rows db with investments := holdings.foldl saveInvestment db.investments }) :
      Write now db process after

/-! ## Every step is one of them -/

/-- The rule for a settlement has no precondition. -/
theorem admitted_of_settling {now : Timestamp} {intentInFlight : Bool} {row entity : Invoice}
    {options : TransitionOptions} {moved : InvoiceTransition}
    (hok : transition intentInFlight row entity .settled options = .ok moved) :
    Admitted now moved.invoice moved.history ∧ moved.history.fromStatus = entity.status ∧
      moved.history.toStatus = .settled :=
  admitted_of_transition (fun hnever => by cases hnever) (fun hnever => by simp at hnever) hok

theorem write_settle {service : SettlementService} {input : SettleInvoiceInput}
    {environment : Machine.Environment} {db : Database} {stage : Machine.SettleStage} :
    Write environment.now db (.service (.settleInvoice service input stage))
      (Machine.advanceSettle service input environment db stage).db := by
  have hfail : ∀ thrown, Write environment.now db (.service (.settleInvoice service input stage))
      (⟨db, .finished (some thrown), false, [], [], 0⟩ : Machine.Outcome).db :=
    fun _ => .quiet rfl
  cases stage with
  | enter =>
      simp only [Machine.advanceSettle]
      cases enterSettlement service input with
      | error thrown => exact hfail thrown
      | ok prepare => cases prepare <;> exact .quiet rfl
  | prepare prepare =>
      simp only [Machine.advanceSettle]
      cases checkDistributorFee prepare.feeBps with
      | error thrown => exact hfail thrown
      | ok _ =>
          cases readSettlementIntent db prepare with
          | error thrown => exact hfail thrown
          | ok prepared =>
              cases prepared with
              | fresh payload => exact .quiet rfl
              | existing intent =>
                  simp only [Machine.Outcome.attempt]
                  cases payoutRoute intent with
                  | error thrown => exact hfail thrown
                  | ok route => cases route <;> exact .quiet rfl
  | insert payload =>
      simp only [Machine.advanceSettle]
      cases hinsert : insertSettlementIntent db environment.newId payload with
      | error thrown => exact hfail thrown
      | ok inserted =>
          obtain ⟨_, rfl⟩ := insertSettlementIntent_eq_ok.mp hinsert
          exact .inserted rfl rfl rfl
  | claim intent =>
      simp only [Machine.advanceSettle]
      cases hclaim : claimSettlementIntent db intent.id with
      | error thrown => exact hfail thrown
      | ok claimed =>
          obtain ⟨stored, hstored, _, hstatus, rfl⟩ := claimSettlementIntent_eq_ok.mp hclaim
          exact .forwarded hstored (by rw [hstatus]; rfl) rfl
  | submit intent =>
      simp only [Machine.advanceSettle]
      exact .quiet rfl
  | record intent transactionHash =>
      simp only [Machine.advanceSettle]
      cases hmark : markSettlementDistributed db intent.id transactionHash with
      | error thrown => exact hfail thrown
      | ok marked =>
          obtain ⟨stored, hstored, _, hstatus, rfl⟩ := markSettlementDistributed_eq_ok.mp hmark
          exact .forwarded hstored (by rw [hstatus]; rfl) rfl
  | settle distributed =>
      simp only [Machine.advanceSettle]
      cases (readSettlement service input distributed db environment.chain).2 <;>
        exact .quiet rfl
  | commit plan =>
      simp only [Machine.advanceSettle]
      cases hcommit : commitSettlement db plan with
      | error thrown => exact hfail thrown
      | ok after =>
          obtain ⟨row, moved, hrow, hmoved, hinvoice, hhistory⟩ :=
            history_of_commitSettlement hcommit
          obtain ⟨_, _, settlementIntent, _, _, hintent, _, hafterIntent, hinvestments, _, _⟩ :=
            commitSettlement_eq_ok hcommit
          obtain ⟨hadmitted, hfrom, hto⟩ := admitted_of_settling hmoved
          have hrows : rows after =
              { invoice := some moved.invoice
                investments := plan.investments.foldl saveInvestment db.investments
                settlementIntent := settlementIntent
                statusHistory := db.statusHistory ++ [moved.history] } := by
            simp only [rows, hinvoice, hinvestments, hhistory, hafterIntent]
          refine .settled rfl rfl hadmitted hfrom hto (fun hnone => ?_) hrows
          rcases completeSettlementIntent_eq_ok.mp hintent with ⟨_, hsame⟩ | ⟨_, _, hsome, _⟩
          · rw [hsame, hnone]
          · rw [hnone] at hsome
            cases hsome

theorem write_admin {input : AdminSettleInvoiceInput} {environment : Machine.Environment}
    {db : Database} {stage : Machine.AdminStage} :
    Write environment.now db (.service (.adminSettleInvoice input stage))
      (Machine.advanceAdmin input environment db stage).db := by
  cases stage with
  | enter =>
      simp only [Machine.advanceAdmin]
      cases checkRepaymentAmount input.repaymentAmount <;> exact .quiet rfl
  | escrow => exact .quiet rfl
  | transact transactionHash =>
      simp only [Machine.advanceAdmin]
      cases readAdminSettlement input transactionHash db <;> exact .quiet rfl
  | commit plan =>
      simp only [Machine.advanceAdmin]
      cases hcommit : commitAdminSettlement db plan with
      | error thrown => exact .quiet rfl
      | ok after =>
          obtain ⟨row, moved, hrow, hmoved, hinvoice, hhistory⟩ :=
            history_of_commitAdminSettlement hcommit
          obtain ⟨_, _, _, _, _, hintent, hinvestments, _, _⟩ :=
            commitAdminSettlement_eq_ok hcommit
          obtain ⟨hadmitted, hfrom, hto⟩ := admitted_of_settling hmoved
          exact .settled rfl rfl hadmitted hfrom hto id
            (by simp only [Machine.Outcome.attempt, rows, hinvoice, hinvestments, hhistory,
              hintent])

theorem write_verify {input : VerifyPayment.PaymentVerificationInput}
    {environment : Machine.Environment} {db : Database} {stage : Machine.VerifyStage} :
    Write environment.now db (.service (.verifyPayment input stage))
      (Machine.advanceVerify input environment db stage).db := by
  cases stage with
  | find =>
      simp only [Machine.advanceVerify]
      cases VerifyPayment.needsVerification db input <;> exact .quiet rfl
  | fetched =>
      simp only [Machine.advanceVerify]
      cases VerifyPayment.readVerification db input environment.matchedPayment
          environment.claimedElsewhere with
      | error thrown => exact .quiet rfl
      | ok writes => cases writes <;> exact .quiet rfl
  | write writes => exact .confirmed rfl rfl

theorem write_refund {walletAddress : String} {environment : Machine.Environment}
    {db : Database} {stage : Machine.RefundStage} :
    Write environment.now db (.service (.refundInvestment walletAddress stage))
      (Machine.advanceRefund walletAddress environment db stage).db := by
  cases stage with
  | find =>
      simp only [Machine.advanceRefund]
      cases db.invoice <;> exact .quiet rfl
  | findInvestment invoice =>
      simp only [Machine.advanceRefund]
      cases findWalletInvestment db walletAddress <;> exact .quiet rfl
  | check invoice investment =>
      simp only [Machine.advanceRefund]
      cases canRefund db environment.now <;> exact .quiet rfl
  | remove invoice investment => exact .removed rfl
  | count invoice =>
      simp only [Machine.advanceRefund]
      split <;> exact .quiet rfl
  | cancel invoice =>
      simp only [Machine.advanceRefund]
      cases hcancel : InvoiceRefund.cancelInvoice db invoice with
      | error thrown => exact .quiet rfl
      | ok cancelled =>
          obtain ⟨row, saved, hrow, hsave, rfl⟩ := cancelInvoice_eq_ok hcancel
          exact .saved rfl rfl hrow hsave rfl

theorem write_service {environment : Machine.Environment} {db : Database}
    {process : Machine.Process} {outcome : Machine.Outcome}
    (hadvance : Machine.advance environment db process = some outcome) :
    Write environment.now db (.service process) outcome.db := by
  cases process with
  | idle => cases hadvance
  | finished thrown => cases hadvance
  | settleInvoice service input stage =>
      obtain rfl := Option.some.inj hadvance
      exact write_settle
  | adminSettleInvoice input stage =>
      obtain rfl := Option.some.inj hadvance
      exact write_admin
  | verifyPayment input stage =>
      obtain rfl := Option.some.inj hadvance
      exact write_verify
  | investmentFunded event stage =>
      obtain rfl := Option.some.inj hadvance
      cases stage with
      | find =>
          simp only [Machine.advanceFunded]
          cases findInvestmentForEvent db event <;> exact .quiet rfl
      | save entity => exact .confirmed rfl rfl
  | refundInvestment walletAddress stage =>
      obtain rfl := Option.some.inj hadvance
      exact write_refund
  | createListing input stage =>
      obtain rfl := Option.some.inj hadvance
      cases stage with
      | check =>
          simp only [Machine.advanceListing]
          cases SecondaryMarket.createListing db input environment.newId environment.now <;>
            exact .quiet rfl
      | insert listing => exact .quiet rfl
  | buyListing input stage =>
      obtain rfl := Option.some.inj hadvance
      cases stage with
      | check =>
          simp only [Machine.advancePurchase]
          cases SecondaryMarket.buyListing db input environment.newId environment.now <;>
            exact .quiet rfl
      | write writes => exact .purchased rfl rfl rfl

theorem write_funding {environment : Funding.Environment} {db : Database}
    {process : Funding.Process} {outcome : Funding.Outcome}
    (hadvance : Funding.advance environment db process = some outcome) :
    Write environment.now db (.funding process) outcome.db := by
  have hquiet : ∀ {after : Database}, after = db →
      Write environment.now db (.funding process) after := fun hsame => .quiet (hsame ▸ rfl)
  cases process with
  | idle => cases hadvance
  | finished thrown => cases hadvance
  | investInInvoice input fundingBlock attempt stage =>
      obtain rfl := Option.some.inj hadvance
      cases stage with
      | read =>
          simp only [Funding.advanceInvest]
          cases readInvoiceToInvest db input environment.now <;> exact hquiet rfl
      | duplicate invoice =>
          simp only [Funding.advanceInvest]
          cases checkDuplicate db input.walletAddress fundingBlock <;> exact hquiet rfl
      | update invoice =>
          simp only [Funding.advanceInvest]
          cases advanceFundedAmount db.invoice invoice.version input.amount with
          | error thrown => exact hquiet rfl
          | ok updated => cases updated <;> exact hquiet rfl
      | insert invoice row =>
          simp only [Funding.advanceInvest]
          cases insertInvestment db.investments
            (investedShare input fundingBlock invoice environment.newId) <;> exact hquiet rfl
      | fund invoice row investment =>
          simp only [Funding.advanceInvest]
          cases fundInvestedInvoice db.intentInFlight input invoice row investment <;>
            exact hquiet rfl
      | commit writes => exact .funded rfl rfl
  | createInvestment input attempt stage =>
      obtain rfl := Option.some.inj hadvance
      cases stage with
      | lock =>
          simp only [Funding.advanceCreate]
          cases lockInvoiceToInvest db input environment.now <;> exact hquiet rfl
      | capacity invoice =>
          simp only [Funding.advanceCreate]
          cases checkCapacity db invoice input.investmentAmount <;> exact hquiet rfl
      | insert invoice totalInvested =>
          simp only [Funding.advanceCreate]
          cases insertInvestment db.investments
            (createdInvestment input invoice environment.newId) <;> exact hquiet rfl
      | save invoice totalInvested investment =>
          simp only [Funding.advanceCreate]
          cases saveCreatedFunding db.intentInFlight input invoice invoice totalInvested
            investment <;> exact hquiet rfl
      | commit writes => exact .funded rfl rfl

/-- A request that passes its error on keeps what a successful one wrote. -/
theorem mapError_eq_ok {α : Type} {caught : Thrown → Thrown} {result : Except Thrown α}
    {value : α} : mapError caught result = .ok value ↔ result = .ok value := by
  cases result <;> simp [mapError]

/-- An attempt leaves the database, or what its success leaves. -/
theorem write_attempt {α : Type} {now : Timestamp} {db : Database} {process : Process}
    {result : Except Thrown α} {next : α → Outcome}
    (hnext : ∀ value, result = .ok value → Write now db process (next value).db) :
    Write now db process (Outcome.attempt db result next).db :=
  Outcome.attempt_rule (P := fun outcome => Write now db process outcome.db)
    (fun _ => .quiet rfl) hnext

theorem write_applyTransition {now : Timestamp} {intentInFlight : Bool}
    {db after : Database} {process : Process}
    {entity : Invoice} {target : InvoiceStatus} {options : TransitionOptions}
    (hneeds : needsInvoice process = true)
    (hprocess : changing process = some (entity, target) ∨
      failing process = some entity ∧ target = .failed)
    (hfunded : target = .funded →
      ∀ funded ∈ options.context.fundedAmount, funded = entity.fundedAmount)
    (hnow : target = .pending ∨ target = .published → options.context.now = now)
    (hok : applyTransition intentInFlight db entity target options = .ok after) :
    Write now db process after := by
  obtain ⟨row, moved, _, hmoved, rfl⟩ := applyTransition_eq_ok.mp hok
  obtain ⟨hadmitted, hfrom, hto⟩ := admitted_of_transition hfunded hnow hmoved
  exact .changed hneeds (hto ▸ hprocess) hadmitted hfrom rfl

theorem write_saveEntity {now : Timestamp} {db after : Database} {process : Process}
    {entity : Invoice} (hneeds : needsInvoice process = true)
    (hprocess : savingInvoice process = some entity)
    (hok : saveEntity db entity = .ok after) : Write now db process after := by
  obtain ⟨row, saved, hrow, hsave, rfl⟩ := saveEntity_eq_ok.mp hok
  exact .saved hneeds hprocess hrow hsave rfl

theorem write_review {input : ReviewExtensionInput} {environment : Environment}
    {db : Database} {stage : ReviewStage} :
    Write environment.now db (.reviewExtension input stage)
      (advanceReview input environment db stage).db := by
  cases stage with
  | read => exact write_attempt fun _ _ => .quiet rfl
  | commit writes =>
      refine write_attempt fun reviewed hreviewed => ?_
      cases writes with
      | rejected request =>
          obtain rfl := Except.ok.inj hreviewed
          exact .quiet rfl
      | approved invoice request =>
          obtain ⟨saved, hsaved, hafter⟩ := bind_eq_ok.mp hreviewed
          obtain rfl := pure_eq_ok.mp hafter
          obtain ⟨row, stored, hrow, hsave, rfl⟩ := saveEntity_eq_ok.mp hsaved
          exact .saved rfl rfl hrow hsave rfl

/-- Every step commits one of the listed writes. -/
theorem write_of_advance {environment : Environment} {db : Database} {process : Process}
    {outcome : Outcome} (hadvance : advance environment db process = some outcome) :
    Write environment.now db process outcome.db := by
  cases process with
  | idle => cases hadvance
  | finished thrown => cases hadvance
  | service process =>
      obtain ⟨served, hserved, rfl⟩ := Option.map_eq_some_iff.mp hadvance
      exact write_service hserved
  | funding process =>
      obtain ⟨funded, hfunded, rfl⟩ := Option.map_eq_some_iff.mp hadvance
      exact write_funding hfunded
  | changeStatus request stage =>
      obtain rfl := Option.some.inj hadvance
      cases stage with
      | read => exact write_attempt fun _ _ => .quiet rfl
      | save entity change =>
          exact write_attempt fun _ hchanged =>
            write_applyTransition rfl (.inl rfl) (fun _ _ hnone => by cases hnone) (fun _ => rfl)
              (mapError_eq_ok.mp hchanged)
  | cancelInvoice options stage =>
      obtain rfl := Option.some.inj hadvance
      cases stage with
      | save entity =>
          exact write_attempt fun _ hchanged =>
            write_applyTransition rfl (.inl rfl) (fun hnever => by cases hnever)
              (fun hnever => by simp at hnever) hchanged
      | _ => exact write_attempt fun _ _ => .quiet rfl
  | markUnderfunded stage =>
      obtain rfl := Option.some.inj hadvance
      cases stage with
      | lock =>
          simp only [advanceUnderfunded]
          cases readUnderfunded db <;> exact .quiet rfl
      | commit invoice =>
          exact write_attempt fun _ hchanged =>
            write_applyTransition rfl (.inr ⟨rfl, rfl⟩) (fun hnever => by cases hnever)
              (fun hnever => by simp at hnever) hchanged
  | invoiceEvent topic stage =>
      obtain rfl := Option.some.inj hadvance
      cases stage with
      | find =>
          simp only [advanceInvoiceEvent]
          cases findInvoiceForEvent db topic <;> exact .quiet rfl
      | save entity => exact write_attempt fun _ hsaved => write_saveEntity rfl rfl hsaved
  | uploadDocument input stage =>
      obtain rfl := Option.some.inj hadvance
      cases stage with
      | save entity =>
          exact write_attempt fun _ hsaved => write_saveEntity rfl rfl (mapError_eq_ok.mp hsaved)
      | _ => exact write_attempt fun _ _ => .quiet rfl
  | updateInvoice input stage =>
      obtain rfl := Option.some.inj hadvance
      cases stage with
      | find => exact write_attempt fun _ _ => .quiet rfl
      | save entity =>
          exact write_attempt fun _ hsaved => write_saveEntity rfl rfl (mapError_eq_ok.mp hsaved)
  | reviewExtension input stage =>
      obtain rfl := Option.some.inj hadvance
      exact write_review

end StellarSettle.SystemWrites
