import StellarSettle.Concurrency.SystemWrites
import StellarSettle.Core.KeyedRows
import StellarSettle.Core.RowLock

/-!
# What every run keeps

What the processes know of the data they are about to commit, in every run of
the system: some of it for good, because it was checked when the data was
computed, and some of it while they hold the invoice row.
-/

namespace StellarSettle.SystemInvariant

open StellarSettle.AdminSettlement
open StellarSettle.Checks
open StellarSettle.Entities
open StellarSettle.EventIndexer
open StellarSettle.InvestmentService
open StellarSettle.InvoiceLifecycle
open StellarSettle.InvoiceMaturity
open StellarSettle.InvoiceService
open StellarSettle.KeyedRows
open StellarSettle.RowLock
open StellarSettle.SecondaryMarket
open StellarSettle.SettleInvoice
open StellarSettle.SettlementIntents
open StellarSettle.System
open StellarSettle.SystemWrites
open StellarSettle.TransitionSystem
open StellarSettle.VerifyPayment

/-! ## What holds for good -/

/-- The holdings as a settlement saves them: settled, with a recorded return. -/
def SettledRows (holdings : List Investment) : Prop :=
  ∀ holding ∈ holdings, holding.status = .settled ∧ holding.actualReturn.isSome = true

/-- A funding transaction adds a pending investment to a published invoice, which
stays published or moves on through the state machine. -/
structure FundingWritten (writes : FundingWrites) : Prop where
  pending : writes.investment.status = .pending
  moved : (writes.history = [] ∧ writes.invoice.status = .published) ∨
    ∃ history, writes.history = [history] ∧ history.fromStatus = .published ∧
      history.toStatus = .funded ∧ ∀ now, Admitted now writes.invoice history

def ServiceWellFormed : Machine.Process → Prop
  | .settleInvoice _ _ (.commit plan) =>
      plan.invoice.status = .funded ∧ SettledRows plan.investments
  | .adminSettleInvoice _ (.commit plan) =>
      plan.invoice.status = .funded ∧ SettledRows plan.investments
  | .verifyPayment _ (.write writes) => writes.investment.status = .confirmed
  | .investmentFunded _ (.save entity) => entity.status = .confirmed
  | _ => True

def FundingWellFormed : Funding.Process → Prop
  | .investInInvoice _ _ _ (.duplicate invoice) => invoice.status = .published
  | .investInInvoice _ _ _ (.update invoice) => invoice.status = .published
  | .investInInvoice _ _ _ (.insert invoice row) =>
      invoice.status = .published ∧ row.status = .published
  | .investInInvoice _ _ _ (.fund invoice row investment) =>
      (invoice.status = .published ∧ row.status = .published) ∧ investment.status = .pending
  | .investInInvoice _ _ _ (.commit writes) => FundingWritten writes
  | .createInvestment _ _ (.capacity invoice) => invoice.status = .published
  | .createInvestment _ _ (.insert invoice _) => invoice.status = .published
  | .createInvestment _ _ (.save invoice _ investment) =>
      invoice.status = .published ∧ investment.status = .pending
  | .createInvestment _ _ (.commit writes) => FundingWritten writes
  | _ => True

/-- The data of the process is as the code that computed it left it. -/
def WellFormed : Process → Prop
  | .service process => ServiceWellFormed process
  | .funding process => FundingWellFormed process
  | .changeStatus _ (.save _ change) => change.target ≠ .cancelled
  | .markUnderfunded (.commit invoice) => invoice.status = .published
  | _ => True

/-! ## What holds while the row is locked -/

def storedStatus (db : Database) : Option InvoiceStatus := db.invoice.map Invoice.status

theorem storedStatus_of_rows {db : Database} {stored : Rows} (hrows : rows db = stored) :
    storedStatus db = stored.invoice.map Invoice.status := by
  rw [storedStatus, invoice_of_rows hrows]

def serviceStatus : Machine.Process → Option InvoiceStatus
  | .settleInvoice _ _ (.insert _) => some .funded
  | .settleInvoice _ _ (.commit _) => some .funded
  | .adminSettleInvoice _ (.commit _) => some .funded
  | _ => none

/-- The status that the process has found on the row it holds. -/
def lockedStatus : Process → Option InvoiceStatus
  | .service process => serviceStatus process
  | .funding process => if Funding.locked process then some .published else none
  | .markUnderfunded (.commit _) => some .published
  | _ => none

/-- The process is about to cancel the invoice. -/
def cancelling : Process → Bool
  | .cancelInvoice _ (.save _) => true
  | _ => false

/-- A row with this id is confirmed, or all of them are pending. -/
def Confirmable (investments : List Investment) (id : Uuid) : Prop :=
  (∃ row ∈ investments, row.id = id ∧ row.status = .confirmed) ∨
    ∀ row ∈ investments, row.id = id → row.status = .pending

structure KnowsLocked (db : Database) (process : Process) : Prop where
  status : ∀ status ∈ lockedStatus process, storedStatus db = some status
  intents : cancelling process = true → db.intentInFlight = false
  purchase : ∀ holdings ∈ purchasing process, ∀ holding ∈ holdings,
    holding.status = .confirmed → Confirmable db.investments holding.id

/-- The transaction of the process relies on the row it holds. -/
def holding (process : Process) : Bool :=
  (lockedStatus process).isSome || cancelling process || (purchasing process).isSome

def knowledge : Knowledge Database Process where
  always := fun _ process => WellFormed process
  holding := holding
  locked := KnowsLocked

/-- In every state of every run. -/
abbrev Invariant (world : World) : Prop :=
  Known knowledge world.db world.holder world.process

/-! ## What a step without the lock leaves -/

/-- What a transaction relies on is not changed. -/
structure Frame (db after : Database) : Prop where
  status : storedStatus after = storedStatus db
  flight : db.intentInFlight = false → after.intentInFlight = false
  confirmable : ∀ id, Confirmable db.investments id → Confirmable after.investments id

theorem KnowsLocked.frame {db after : Database} {process : Process}
    (hknows : KnowsLocked db process) (hframe : Frame db after) : KnowsLocked after process where
  status := fun status hstatus => hframe.status.trans (hknows.status status hstatus)
  intents := fun hcancelling => hframe.flight (hknows.intents hcancelling)
  purchase := fun holdings hholdings holding hmem hconfirmed =>
    hframe.confirmable _ (hknows.purchase holdings hholdings holding hmem hconfirmed)

theorem saveInvestment_eq (investments : List Investment) (entity : Investment) :
    saveInvestment investments entity = saveRow Investment.id investments entity := rfl

/-- Saving a confirmed row leaves the others confirmable. -/
theorem Confirmable.save {investments : List Investment} {entity : Investment} {id : Uuid}
    (hconfirmable : Confirmable investments id) (hconfirmed : entity.status = .confirmed) :
    Confirmable (saveInvestment investments entity) id := by
  rw [saveInvestment_eq]
  by_cases hid : entity.id = id
  · exact .inl ⟨entity, mem_saveRow_self, hid, hconfirmed⟩
  · rcases hconfirmable with ⟨row, hmem, hrow, hstatus⟩ | hpending
    · refine .inl ⟨row, mem_saveRow.mpr (.inr ⟨hmem, fun hsame => hid ?_⟩), hrow, hstatus⟩
      exact hsame.symm.trans hrow
    · refine .inr fun row hmem hrow => ?_
      rcases mem_saveRow.mp hmem with rfl | ⟨hold, _⟩
      · exact absurd hrow hid
      · exact hpending row hold hrow

theorem Confirmable.remove {investments : List Investment} {removed : Investment} {id : Uuid}
    (hconfirmable : Confirmable investments id) :
    Confirmable (investments.filter fun row => row.id != removed.id) id := by
  rcases hconfirmable with ⟨row, hmem, hrow, hstatus⟩ | hpending
  · by_cases hid : removed.id = id
    · refine .inr fun other hother hsame => ?_
      have hkept := (List.mem_filter.mp hother).2
      rw [hsame, hid] at hkept
      simp at hkept
    · refine .inl ⟨row, List.mem_filter.mpr ⟨hmem, ?_⟩, hrow, hstatus⟩
      simpa [hrow] using Ne.symm hid
  · exact .inr fun row hmem => hpending row (List.mem_of_mem_filter hmem)

/-- The investment that a payment or an event saves is confirmed. -/
theorem confirmed_of_savingInvestment {process : Process} {entity : Investment}
    (hwellFormed : WellFormed process) (hsaving : savingInvestment process = some entity) :
    entity.status = .confirmed := by
  unfold savingInvestment at hsaving
  split at hsaving
  · obtain rfl := Option.some.inj hsaving
    exact hwellFormed
  · obtain rfl := Option.some.inj hsaving
    exact hwellFormed
  · cases hsaving

theorem intentInFlight_congr {db after : Database}
    (hintent : after.settlementIntent = db.settlementIntent) :
    after.intentInFlight = db.intentInFlight := by
  rw [Database.intentInFlight, hintent, Database.intentInFlight]

/-- A step that touches neither the invoice nor the intent. -/
theorem Frame.of_rows {db after : Database} {investments : List Investment}
    (hrows : rows after = { rows db with investments := investments })
    (hconfirmable : ∀ id, Confirmable db.investments id → Confirmable investments id) :
    Frame db after where
  status := storedStatus_of_rows hrows
  flight := fun hflight =>
    (intentInFlight_congr (settlementIntent_of_rows hrows)).trans hflight
  confirmable := fun id hrow => by
    rw [investments_of_rows hrows]
    exact hconfirmable id hrow

/-- A step that did not wait for the row leaves what the others rely on. -/
theorem frame_of_write {now : Timestamp} {db after : Database} {process : Process}
    (hwrite : Write now db process after) (hwellFormed : WellFormed process)
    (hneedless : needsInvoice process = false) : Frame db after := by
  have hnever : needsInvoice process ≠ true := by simp [hneedless]
  cases hwrite with
  | quiet hrows => exact .of_rows hrows fun _ hrow => hrow
  | inserted hneeds _ _ => exact absurd hneeds hnever
  | forwarded hintent hflight hrows =>
      have hinvestments := investments_of_rows hrows
      have hafter := settlementIntent_of_rows hrows
      refine ⟨storedStatus_of_rows hrows,
        fun hnone => ?_, fun id hrow => ?_⟩
      · rw [Database.intentInFlight, hintent] at hnone
        rw [Database.intentInFlight, show after.settlementIntent = some _ from hafter]
        exact hflight.symm.trans hnone
      · rwa [show after.investments = db.investments from hinvestments]
  | settled hneeds _ _ _ _ _ _ => exact absurd hneeds hnever
  | funded hneeds _ => exact absurd hneeds hnever
  | changed hneeds _ _ _ _ => exact absurd hneeds hnever
  | saved hneeds _ _ _ _ => exact absurd hneeds hnever
  | confirmed hprocess hrows =>
      exact .of_rows hrows fun _ hrow =>
        hrow.save (confirmed_of_savingInvestment hwellFormed hprocess)
  | removed hrows => exact .of_rows hrows fun _ hrow => hrow.remove
  | purchased hneeds _ _ => exact absurd hneeds hnever

/-! ## What a step leaves for its own process -/

/-- The process knows what it should after its step, and holds the row when it relies
on it; it takes the row only after waiting for it. -/
structure Moved (process : Process) (outcome : Outcome) : Prop where
  wellFormed : WellFormed outcome.process
  holding : holding outcome.process = true →
    outcome.holdsInvoice = true ∧ KnowsLocked outcome.db outcome.process
  waited : outcome.holdsInvoice = true → needsInvoice process = true

/-- A step that goes on without the row. -/
theorem Moved.released {process next : Process} {db : Database} (hwellFormed : WellFormed next)
    (hfree : SystemInvariant.holding next = false) :
    Moved process { db := db, process := next } where
  wellFormed := hwellFormed
  holding := fun hholding => by
    rw [hfree] at hholding
    cases hholding
  waited := fun hholds => by cases hholds

/-- A step that goes on with the row it waited for. -/
theorem Moved.taken {process next : Process} {db : Database}
    (hneeds : needsInvoice process = true) (hwellFormed : WellFormed next)
    (hknows : KnowsLocked db next) :
    Moved process { db := db, process := next, holdsInvoice := true } where
  wellFormed := hwellFormed
  holding := fun _ => ⟨rfl, hknows⟩
  waited := fun _ => hneeds

/-- A process that relies on the status of the row only. -/
theorem KnowsLocked.of_status {db : Database} {process : Process} {status : InvoiceStatus}
    (hstatus : storedStatus db = some status) (hlocked : lockedStatus process = some status)
    (hcancelling : cancelling process = false) (hpurchasing : purchasing process = none) :
    KnowsLocked db process where
  status := fun other hother => by
    rw [hlocked] at hother
    rw [hstatus, hother]
  intents := fun hcancel => by
    rw [hcancelling] at hcancel
    cases hcancel
  purchase := fun holdings hholdings => by
    rw [hpurchasing] at hholdings
    cases hholdings

theorem storedStatus_eq {db : Database} {invoice : Invoice} {status : InvoiceStatus}
    (hinvoice : db.invoice = some invoice) (hstatus : invoice.status = status) :
    storedStatus db = some status := by
  rw [storedStatus, hinvoice, Option.map_some, hstatus]

section Services

variable {environment : Machine.Environment} {db : Database}

theorem settledRows_map {total distributable : ℤ} (investments : List Investment) :
    SettledRows (investments.map (settledInvestment total distributable)) := by
  intro holding hmem
  obtain ⟨investment, _, rfl⟩ := List.mem_map.mp hmem
  exact ⟨rfl, rfl⟩

theorem moved_settle {service : SettlementService} {input : SettleInvoiceInput}
    {stage : Machine.SettleStage} :
    Moved (.service (.settleInvoice service input stage))
      (.ofService (Machine.advanceSettle service input environment db stage)) := by
  have hdone : ∀ thrown, Moved (.service (.settleInvoice service input stage))
      (.ofService { db := db, process := .finished thrown }) := fun _ => .released trivial rfl
  cases stage with
  | enter =>
      simp only [Machine.advanceSettle]
      cases enterSettlement service input with
      | error thrown => exact hdone _
      | ok prepare => cases prepare <;> exact .released trivial rfl
  | prepare prepare =>
      simp only [Machine.advanceSettle]
      cases checkDistributorFee prepare.feeBps with
      | error thrown => exact hdone _
      | ok _ =>
          cases hread : readSettlementIntent db prepare with
          | error thrown => exact hdone _
          | ok prepared =>
              obtain ⟨invoice, hinvoice, _, _, hfunded, _⟩ := readSettlementIntent_eq_ok.mp hread
              cases prepared with
              | fresh payload =>
                  exact .taken rfl trivial
                    (.of_status (storedStatus_eq hinvoice hfunded) rfl rfl rfl)
              | existing intent =>
                  simp only [Machine.Outcome.attempt]
                  cases payoutRoute intent with
                  | error thrown => exact hdone _
                  | ok route => cases route <;> exact .released trivial rfl
  | insert payload =>
      simp only [Machine.advanceSettle]
      cases insertSettlementIntent db environment.newId payload <;> exact .released trivial rfl
  | claim intent =>
      simp only [Machine.advanceSettle]
      cases claimSettlementIntent db intent.id <;> exact .released trivial rfl
  | submit intent =>
      simp only [Machine.advanceSettle]
      cases (PaymentDistributor.distributePayouts (distributionInput intent.payload)
        environment.chain).result <;>
        exact .released trivial rfl
  | record intent transactionHash =>
      simp only [Machine.advanceSettle]
      cases markSettlementDistributed db intent.id transactionHash <;>
        exact .released trivial rfl
  | settle distributed =>
      simp only [Machine.advanceSettle]
      cases hread : readSettlement service input distributed db environment.chain with
      | mk payouts result =>
          cases result with
          | error thrown => exact .released trivial rfl
          | ok plan =>
              obtain ⟨invoice, hcheck, hplan, hinvestments, _⟩ := readSettlement_eq_ok hread
              obtain ⟨hinvoice, _, _, hfunded, _⟩ := checkSettlement_eq_ok.mp hcheck
              refine .taken rfl ⟨?_, ?_⟩
                (.of_status (storedStatus_eq hinvoice hfunded) rfl rfl rfl)
              · rw [hplan]
                exact hfunded
              · rw [hinvestments]
                exact settledRows_map _
  | commit plan =>
      simp only [Machine.advanceSettle]
      cases commitSettlement db plan <;> exact .released trivial rfl

/-- The plan of an administrator's settlement settles what it found confirmed. -/
theorem readAdminSettlement_eq_ok {input : AdminSettleInvoiceInput}
    {transactionHash : TransactionHash} {plan : AdminSettlementPlan}
    (hread : readAdminSettlement input transactionHash db = .ok plan) :
    db.invoice = some plan.invoice ∧ plan.invoice.status = .funded ∧
      SettledRows plan.investments := by
  obtain ⟨⟨invoice, investments⟩, hcheck, hrest⟩ := bind_eq_ok.mp hread
  obtain ⟨settled, hsettled, hplan⟩ := bind_eq_ok.mp hrest
  obtain rfl := pure_eq_ok.mp hplan
  obtain ⟨found, hfound, hrest⟩ := bind_eq_ok.mp hcheck
  obtain ⟨_, hfunded, hrest⟩ := bind_eq_ok.mp hrest
  obtain ⟨_, _, hpair⟩ := bind_eq_ok.mp hrest
  obtain ⟨rfl, rfl⟩ := Prod.mk.inj (pure_eq_ok.mp hpair)
  refine ⟨orThrow_eq_ok.mp hfound, not_not.mp (throwIf_eq_ok.mp hfunded), ?_⟩
  refine forall_of_mapM_eq_ok hsettled fun investment holding hitem => ?_
  obtain ⟨_, _, hresult⟩ := bind_eq_ok.mp hitem
  rw [pure_eq_ok.mp hresult]
  exact ⟨rfl, rfl⟩

theorem moved_admin {input : AdminSettleInvoiceInput} {stage : Machine.AdminStage} :
    Moved (.service (.adminSettleInvoice input stage))
      (.ofService (Machine.advanceAdmin input environment db stage)) := by
  cases stage with
  | enter =>
      simp only [Machine.advanceAdmin]
      cases checkRepaymentAmount input.repaymentAmount <;> exact .released trivial rfl
  | escrow =>
      simp only [Machine.advanceAdmin]
      cases (settleEscrowOnChain environment.chain).result <;> exact .released trivial rfl
  | transact transactionHash =>
      simp only [Machine.advanceAdmin]
      cases hread : readAdminSettlement input transactionHash db with
      | error thrown => exact .released trivial rfl
      | ok plan =>
          obtain ⟨hinvoice, hfunded, hsettled⟩ := readAdminSettlement_eq_ok hread
          exact .taken rfl ⟨hfunded, hsettled⟩
            (.of_status (storedStatus_eq hinvoice hfunded) rfl rfl rfl)
  | commit plan =>
      simp only [Machine.advanceAdmin]
      cases commitAdminSettlement db plan <;> exact .released trivial rfl

theorem moved_verify {input : PaymentVerificationInput} {stage : Machine.VerifyStage} :
    Moved (.service (.verifyPayment input stage))
      (.ofService (Machine.advanceVerify input environment db stage)) := by
  cases stage with
  | find =>
      simp only [Machine.advanceVerify]
      cases needsVerification db input with
      | error thrown => exact .released trivial rfl
      | ok needed => cases needed <;> exact .released trivial rfl
  | fetched =>
      simp only [Machine.advanceVerify]
      cases hread : readVerification db input environment.matchedPayment
          environment.claimedElsewhere with
      | error thrown => exact .released trivial rfl
      | ok writes =>
          cases writes with
          | none => exact .released trivial rfl
          | some writes => exact .released (confirmed_of_readVerification hread) rfl
  | write writes => exact .released trivial rfl

/-- The seller's rows keep their ids and their statuses. -/
theorem exists_of_mem_deductHoldings {investments : List Investment}
    {quantity : DecimalJs.Decimal} {holding : Investment}
    (hmem : holding ∈ deductHoldings investments quantity) :
    ∃ row ∈ investments, holding.id = row.id ∧ holding.status = row.status := by
  induction investments generalizing quantity with
  | nil => cases hmem
  | cons first rest ih =>
      have hrest : ∀ left, holding ∈ deductHoldings rest left →
          ∃ row ∈ first :: rest, holding.id = row.id ∧ holding.status = row.status := by
        intro left hlater
        obtain ⟨row, hrow, hsame⟩ := ih hlater
        exact ⟨row, List.mem_cons_of_mem _ hrow, hsame⟩
      rw [deductHoldings] at hmem
      split at hmem
      · cases hmem
      · dsimp only at hmem
        split at hmem <;> rcases List.mem_cons.mp hmem with rfl | htail
        · exact ⟨first, List.mem_cons_self, rfl, rfl⟩
        · exact hrest _ htail
        · exact ⟨first, List.mem_cons_self, rfl, rfl⟩
        · exact hrest _ htail

/-- What a purchase saves as confirmed was confirmed, or it is a new row. -/
theorem confirmable_of_buyListing {input : BuyListingInput} {now : Timestamp} {newId : Uuid}
    {writes : PurchaseWrites} (hunused : Unused db newId)
    (hread : SecondaryMarket.buyListing db input newId now = .ok writes) :
    ∀ holding ∈ writes.investments, holding.status = .confirmed →
      Confirmable db.investments holding.id := by
  obtain ⟨⟨listing, buyQuantity⟩, _, hwrites⟩ := bind_eq_ok.mp hread
  obtain rfl := pure_eq_ok.mp hwrites
  have hseller : ∀ holding ∈ deductHoldings
      (sellerInvestments db.investments listing.sellerWallet listing.sellerId) buyQuantity,
      holding.status = .confirmed → Confirmable db.investments holding.id := by
    intro holding hmem hconfirmed
    obtain ⟨row, hrow, hid, hstatus⟩ := exists_of_mem_deductHoldings hmem
    refine .inl ⟨row, ?_, hid.symm, hstatus.symm.trans hconfirmed⟩
    unfold sellerInvestments at hrow
    split at hrow
    · exact hrow
    · exact List.mem_of_mem_filter hrow
  intro holding hmem hconfirmed
  rcases List.mem_append.mp hmem with hsold | hbought
  · exact hseller holding hsold hconfirmed
  · obtain rfl := List.mem_singleton.mp hbought
    unfold creditBuyer
    split
    · rename_i held hheld
      have hstatus := List.find?_some hheld
      rw [Bool.and_eq_true] at hstatus
      rcases mem_foldl_saveRow (List.mem_of_find?_eq_some hheld) with hsold | ⟨hold, _⟩
      · exact hseller held hsold (eq_of_beq hstatus.2)
      · exact .inl ⟨held, hold, rfl, eq_of_beq hstatus.2⟩
    · exact .inr fun row hrow hsame => absurd hsame (hunused row hrow)

theorem moved_service {process : Machine.Process} {outcome : Machine.Outcome}
    (hunused : Unused db environment.newId)
    (hadvance : Machine.advance environment db process = some outcome) :
    Moved (.service process) (.ofService outcome) := by
  cases process with
  | idle => cases hadvance
  | finished thrown => cases hadvance
  | settleInvoice service input stage =>
      obtain rfl := Option.some.inj hadvance
      exact moved_settle
  | adminSettleInvoice input stage =>
      obtain rfl := Option.some.inj hadvance
      exact moved_admin
  | verifyPayment input stage =>
      obtain rfl := Option.some.inj hadvance
      exact moved_verify
  | investmentFunded event stage =>
      obtain rfl := Option.some.inj hadvance
      cases stage with
      | find =>
          simp only [Machine.advanceFunded]
          cases findInvestmentForEvent db event with
          | none => exact .released trivial rfl
          | some investment => exact .released rfl rfl
      | save entity => exact .released trivial rfl
  | refundInvestment walletAddress stage =>
      obtain rfl := Option.some.inj hadvance
      cases stage with
      | find =>
          simp only [Machine.advanceRefund]
          cases db.invoice <;> exact .released trivial rfl
      | findInvestment invoice =>
          simp only [Machine.advanceRefund]
          cases InvoiceRefund.findWalletInvestment db walletAddress <;>
            exact .released trivial rfl
      | check invoice investment =>
          simp only [Machine.advanceRefund]
          cases InvoiceRefund.canRefund db environment.now <;> exact .released trivial rfl
      | remove invoice investment => exact .released trivial rfl
      | count invoice =>
          simp only [Machine.advanceRefund]
          split <;> exact .released trivial rfl
      | cancel invoice =>
          simp only [Machine.advanceRefund]
          cases InvoiceRefund.cancelInvoice db invoice <;> exact .released trivial rfl
  | createListing input stage =>
      obtain rfl := Option.some.inj hadvance
      cases stage with
      | check =>
          simp only [Machine.advanceListing]
          cases SecondaryMarket.createListing db input environment.newId environment.now with
          | error thrown => exact .released trivial rfl
          | ok listing =>
              exact ⟨trivial, (fun hholding => by cases hholding), fun _ => rfl⟩
      | insert listing => exact .released trivial rfl
  | buyListing input stage =>
      obtain rfl := Option.some.inj hadvance
      cases stage with
      | check =>
          simp only [Machine.advancePurchase]
          cases hread : SecondaryMarket.buyListing db input environment.newId environment.now with
          | error thrown => exact .released trivial rfl
          | ok writes =>
              refine .taken rfl trivial ⟨(fun _ hstatus => by cases hstatus),
                (fun hcancel => by cases hcancel), fun holdings hholdings => ?_⟩
              obtain rfl := Option.some.inj hholdings
              exact confirmable_of_buyListing hunused hread
      | write writes => exact .released trivial rfl

end Services

section FundingCalls

variable {environment : Funding.Environment} {db : Database}

theorem published_of_readInvoiceToInvest {input : InvestInInvoiceInput} {now : Timestamp}
    {invoice : Invoice} (hread : readInvoiceToInvest db input now = .ok invoice) :
    invoice.status = .published := by
  simp only [readInvoiceToInvest, bind_eq_ok, throwIf_eq_ok, pure_eq_ok] at hread
  obtain ⟨_, _, _, hpublished, _, _, _, _, _, _, rfl⟩ := hread
  exact not_not.mp hpublished

theorem published_of_lockInvoiceToInvest {input : CreateInvestmentInput} {now : Timestamp}
    {invoice : Invoice} (hread : lockInvoiceToInvest db input now = .ok invoice) :
    invoice.status = .published := by
  simp only [lockInvoiceToInvest, bind_eq_ok, throwIf_eq_ok, pure_eq_ok] at hread
  obtain ⟨_, _, _, hpublished, _, _, _, _, rfl⟩ := hread
  exact not_not.mp hpublished

/-- The conditional update finds a published row and leaves it published. -/
theorem published_of_advanceFundedAmount {version : ℕ} {amount : DecimalJs.Decimal}
    {updated : Invoice} (hok : advanceFundedAmount db.invoice version amount = .ok (some updated)) :
    storedStatus db = some .published ∧ updated.status = .published := by
  unfold advanceFundedAmount at hok
  cases hinvoice : db.invoice with
  | none =>
      rw [hinvoice] at hok
      cases hok
  | some row =>
      rw [hinvoice] at hok
      dsimp only at hok
      split at hok
      · rename_i hmatches
        obtain ⟨_, hwrite, hsome⟩ := bind_eq_ok.mp hok
        obtain ⟨_, rfl⟩ := writeInvoice_eq_ok.mp hwrite
        obtain rfl := Option.some.inj (pure_eq_ok.mp hsome)
        exact ⟨storedStatus_eq hinvoice hmatches.2.1, hmatches.2.1⟩
      · cases hok

theorem fundingWritten_of_transition {intentInFlight : Bool} {row entity : Invoice}
    {wallet : String} {newFunded : DecimalJs.Decimal} {moved : InvoiceTransition}
    {investment : Investment} (hpublished : entity.status = .published)
    (hfunded : entity.fundedAmount = DecimalJs.toFixed4 newFunded)
    (hpending : investment.status = .pending)
    (hmoved : transition intentInFlight row entity .funded (fullyFunded wallet newFunded) =
      .ok moved) :
    FundingWritten
      { invoice := moved.invoice, investment := investment, history := [moved.history] } := by
  have hcontext : ∀ funded ∈ (fullyFunded wallet newFunded).context.fundedAmount,
      funded = entity.fundedAmount := fun funded hmem =>
    (Option.some.inj hmem).symm.trans hfunded.symm
  have hadmitted : ∀ now, Admitted now moved.invoice moved.history := fun now =>
    (admitted_of_transition (fun _ => hcontext) (fun hnever => by simp at hnever) hmoved).1
  obtain ⟨_, _, hfrom, hto⟩ := transition_eq_ok hmoved
  exact ⟨hpending, .inr ⟨moved.history, rfl, hfrom.trans hpublished, hto, hadmitted⟩⟩

theorem fundingWritten_of_fundInvestedInvoice {intentInFlight : Bool}
    {input : InvestInInvoiceInput} {invoice row : Invoice} {investment : Investment}
    {writes : FundingWrites} (hinvoice : invoice.status = .published)
    (hrow : row.status = .published) (hpending : investment.status = .pending)
    (hok : fundInvestedInvoice intentInFlight input invoice row investment = .ok writes) :
    FundingWritten writes := by
  rw [fundInvestedInvoice] at hok
  split at hok
  · obtain ⟨moved, hmoved, hwrites⟩ := bind_eq_ok.mp hok
    obtain rfl := pure_eq_ok.mp hwrites
    have hentity : (investedInvoice invoice input.amount).status = .published := hinvoice
    exact fundingWritten_of_transition hentity rfl hpending hmoved
  · obtain rfl := Except.ok.inj hok
    exact ⟨hpending, .inl ⟨rfl, hrow⟩⟩

theorem fundingWritten_of_saveCreatedFunding {intentInFlight : Bool}
    {input : CreateInvestmentInput} {invoice row : Invoice} {totalInvested : DecimalJs.Decimal}
    {investment : Investment} {writes : FundingWrites} (hinvoice : invoice.status = .published)
    (hpending : investment.status = .pending)
    (hok : saveCreatedFunding intentInFlight input invoice row totalInvested investment =
      .ok writes) : FundingWritten writes := by
  unfold saveCreatedFunding at hok
  dsimp only at hok
  split at hok
  · obtain ⟨moved, hmoved, hwrites⟩ := bind_eq_ok.mp hok
    obtain rfl := pure_eq_ok.mp hwrites
    refine fundingWritten_of_transition ?_ rfl hpending hmoved
    exact hinvoice
  · obtain ⟨saved, hsaved, hwrites⟩ := bind_eq_ok.mp hok
    obtain rfl := pure_eq_ok.mp hwrites
    exact ⟨hpending, .inl ⟨rfl, (status_of_persistInvoice hsaved).trans hinvoice⟩⟩

/-- A funding call that goes on with the published row it holds. -/
theorem Moved.funding {process next : Funding.Process}
    (hneeds : Funding.needsInvoice process = true) (hwellFormed : FundingWellFormed next)
    (hlocked : Funding.locked next = true) (hstatus : storedStatus db = some .published) :
    Moved (.funding process)
      (.ofFunding { db := db, process := next, holdsInvoice := true }) := by
  refine .taken hneeds hwellFormed (.of_status hstatus ?_ rfl ?_)
  · rw [lockedStatus, if_pos hlocked]
  · rfl

/-- A funding call that goes on without the row. -/
theorem Moved.fundingReleased {process next : Funding.Process}
    (hwellFormed : FundingWellFormed next) (hfree : Funding.locked next = false) :
    Moved (.funding process) (.ofFunding { db := db, process := next }) := by
  refine .released hwellFormed ?_
  rw [SystemInvariant.holding, lockedStatus, hfree]
  rfl

/-- A call that fails is made again from the start, or ends. -/
theorem fundingReleased_of_failed (failure : Funding.Failure) (process : Funding.Process) :
    FundingWellFormed (process.failed failure) ∧
      Funding.locked (process.failed failure) = false := by
  cases process with
  | idle => exact ⟨trivial, rfl⟩
  | finished thrown => exact ⟨trivial, rfl⟩
  | investInInvoice input fundingBlock attempt stage =>
      cases failure with
      | raised thrown => exact ⟨trivial, rfl⟩
      | conflict =>
          simp only [Funding.Process.failed]
          split <;> exact ⟨trivial, rfl⟩
  | createInvestment input attempt stage =>
      cases failure with
      | raised thrown => exact ⟨trivial, rfl⟩
      | conflict =>
          simp only [Funding.Process.failed]
          split <;> exact ⟨trivial, rfl⟩

theorem moved_funding {process : Funding.Process} {outcome : Funding.Outcome}
    (hwellFormed : FundingWellFormed process)
    (hlocked : Funding.locked process = true → storedStatus db = some .published)
    (hadvance : Funding.advance environment db process = some outcome) :
    Moved (.funding process) (.ofFunding outcome) := by
  cases process with
  | idle => cases hadvance
  | finished thrown => cases hadvance
  | investInInvoice input fundingBlock attempt stage =>
      obtain rfl := Option.some.inj hadvance
      cases stage with
      | read =>
          simp only [Funding.advanceInvest]
          cases hread : readInvoiceToInvest db input environment.now with
          | error thrown => exact .fundingReleased trivial rfl
          | ok invoice => exact .fundingReleased (published_of_readInvoiceToInvest hread) rfl
      | duplicate invoice =>
          simp only [Funding.advanceInvest]
          cases checkDuplicate db input.walletAddress fundingBlock with
          | error thrown => exact .fundingReleased trivial rfl
          | ok _ => exact .fundingReleased hwellFormed rfl
      | update invoice =>
          simp only [Funding.advanceInvest]
          cases hupdated : advanceFundedAmount db.invoice invoice.version input.amount with
          | error thrown => exact .fundingReleased trivial rfl
          | ok updated =>
              cases updated with
              | none =>
                  obtain ⟨hretried, hfree⟩ := fundingReleased_of_failed .conflict
                    (.investInInvoice input fundingBlock attempt (.update invoice))
                  exact .fundingReleased hretried hfree
              | some row =>
                  obtain ⟨hstatus, hrow⟩ := published_of_advanceFundedAmount hupdated
                  exact .funding rfl ⟨hwellFormed, hrow⟩ rfl hstatus
      | insert invoice row =>
          simp only [Funding.advanceInvest]
          cases insertInvestment db.investments
              (investedShare input fundingBlock invoice environment.newId) with
          | error thrown => exact .fundingReleased trivial rfl
          | ok _ => exact .funding rfl ⟨hwellFormed, rfl⟩ rfl (hlocked rfl)
      | fund invoice row investment =>
          simp only [Funding.advanceInvest]
          cases hwrites : fundInvestedInvoice db.intentInFlight input invoice row investment with
          | error thrown => exact .fundingReleased trivial rfl
          | ok writes =>
              exact .funding rfl (fundingWritten_of_fundInvestedInvoice hwellFormed.1.1
                hwellFormed.1.2 hwellFormed.2 hwrites) rfl (hlocked rfl)
      | commit writes => exact .fundingReleased trivial rfl
  | createInvestment input attempt stage =>
      obtain rfl := Option.some.inj hadvance
      cases stage with
      | lock =>
          simp only [Funding.advanceCreate]
          cases hread : lockInvoiceToInvest db input environment.now with
          | error thrown => exact .fundingReleased trivial rfl
          | ok invoice =>
              have hpublished := published_of_lockInvoiceToInvest hread
              exact .funding rfl hpublished rfl
                (storedStatus_eq (invoice_of_lockInvoiceToInvest hread) hpublished)
      | capacity invoice =>
          simp only [Funding.advanceCreate]
          cases checkCapacity db invoice input.investmentAmount with
          | error thrown => exact .fundingReleased trivial rfl
          | ok totalInvested => exact .funding rfl hwellFormed rfl (hlocked rfl)
      | insert invoice totalInvested =>
          simp only [Funding.advanceCreate]
          cases insertInvestment db.investments
              (createdInvestment input invoice environment.newId) with
          | error thrown => exact .fundingReleased trivial rfl
          | ok _ => exact .funding rfl ⟨hwellFormed, rfl⟩ rfl (hlocked rfl)
      | save invoice totalInvested investment =>
          simp only [Funding.advanceCreate]
          cases hwrites : saveCreatedFunding db.intentInFlight input invoice invoice totalInvested
              investment with
          | error thrown => exact .fundingReleased trivial rfl
          | ok writes =>
              exact .funding rfl (fundingWritten_of_saveCreatedFunding hwellFormed.1
                hwellFormed.2 hwrites) rfl (hlocked rfl)
      | commit writes => exact .fundingReleased trivial rfl

end FundingCalls

/-! ## The invariant -/

/-- An attempt ends the call, or goes on with what its success says. -/
theorem moved_attempt {α : Type} {db : Database} {process : Process}
    {result : Except Thrown α} {next : α → Outcome}
    (hnext : ∀ value, result = .ok value → Moved process (next value)) :
    Moved process (Outcome.attempt db result next) :=
  Outcome.attempt_rule (fun _ => .released trivial rfl) hnext

theorem moved_cancel {options : TransitionOptions} {db : Database} {stage : CancelStage} :
    Moved (.cancelInvoice options stage) (advanceCancel options db stage) := by
  cases stage with
  | read => exact moved_attempt fun _ _ => .released trivial rfl
  | lock entity =>
      exact moved_attempt fun _ _ => ⟨trivial, (fun hholding => by cases hholding), fun _ => rfl⟩
  | check entity =>
      refine moved_attempt fun _ hchecked => .taken rfl trivial
        ⟨(fun _ hstatus => by cases hstatus), fun _ => ?_, fun _ hholdings => by cases hholdings⟩
      exact Bool.eq_false_iff.mpr (throwIf_eq_ok.mp hchecked)
  | save entity => exact moved_attempt fun _ _ => .released trivial rfl

theorem moved_of_advance {environment : Environment} {db : Database} {process : Process}
    {outcome : Outcome} (hunused : Unused db environment.newId)
    (hwellFormed : WellFormed process)
    (hlocked : holding process = true → KnowsLocked db process)
    (hadvance : advance environment db process = some outcome) : Moved process outcome := by
  cases process with
  | idle => cases hadvance
  | finished thrown => cases hadvance
  | service process =>
      obtain ⟨served, hserved, rfl⟩ := Option.map_eq_some_iff.mp hadvance
      exact moved_service hunused hserved
  | funding process =>
      obtain ⟨funded, hfunded, rfl⟩ := Option.map_eq_some_iff.mp hadvance
      refine moved_funding hwellFormed (fun hheld => ?_) hfunded
      have hstatus : lockedStatus (.funding process) = some .published := by
        rw [lockedStatus, if_pos hheld]
      exact (hlocked (by rw [holding, hstatus]; rfl)).status .published hstatus
  | changeStatus request stage =>
      obtain rfl := Option.some.inj hadvance
      cases stage with
      | read =>
          exact moved_attempt fun _ hread =>
            .released (target_of_read (mapError_eq_ok.mp hread)) rfl
      | save entity change => exact moved_attempt fun _ _ => .released trivial rfl
  | cancelInvoice options stage =>
      obtain rfl := Option.some.inj hadvance
      exact moved_cancel
  | markUnderfunded stage =>
      obtain rfl := Option.some.inj hadvance
      cases stage with
      | lock =>
          simp only [advanceUnderfunded]
          cases hread : readUnderfunded db with
          | none => exact .released trivial rfl
          | some invoice =>
              obtain ⟨hinvoice, hpublished⟩ := readUnderfunded_eq_some hread
              exact .taken rfl hpublished
                (.of_status (storedStatus_eq hinvoice hpublished) rfl rfl rfl)
      | commit invoice => exact moved_attempt fun _ _ => .released trivial rfl
  | invoiceEvent topic stage =>
      obtain rfl := Option.some.inj hadvance
      cases stage with
      | find =>
          simp only [advanceInvoiceEvent]
          cases findInvoiceForEvent db topic <;> exact .released trivial rfl
      | save entity => exact moved_attempt fun _ _ => .released trivial rfl
  | uploadDocument input stage =>
      obtain rfl := Option.some.inj hadvance
      cases stage <;> exact moved_attempt fun _ _ => .released trivial rfl
  | updateInvoice input stage =>
      obtain rfl := Option.some.inj hadvance
      cases stage <;> exact moved_attempt fun _ _ => .released trivial rfl
  | reviewExtension input stage =>
      obtain rfl := Option.some.inj hadvance
      cases stage <;> exact moved_attempt fun _ _ => .released trivial rfl

/-- A process that starts, or that stops, relies on nothing. -/
theorem invariant_quiet {world : World} {index : ℕ} {next : Process}
    (hinvariant : Invariant world) (hwellFormed : WellFormed next)
    (hfree : holding next = false) :
    Invariant (world.apply index { db := world.db, process := next }) := by
  have hneedless : false = true → Available world.holder index := fun hneeds => by cases hneeds
  exact hinvariant.step hneedless (.released hwellFormed hfree)

theorem released_of_start (now : Timestamp) (request : Request) :
    WellFormed (Request.process now request) ∧ holding (Request.process now request) = false := by
  cases request with
  | service request => cases request <;> exact ⟨trivial, rfl⟩
  | funding request =>
      cases request with
      | investInInvoice input =>
          simp only [Request.process, Funding.Request.process]
          split <;> exact ⟨trivial, rfl⟩
      | createInvestment input =>
          simp only [Request.process, Funding.Request.process]
          split <;> exact ⟨trivial, rfl⟩
  | invoiceEvent topic =>
      simp only [Request.process]
      split <;> exact ⟨trivial, rfl⟩
  | _ => exact ⟨trivial, rfl⟩

theorem released_of_failed (failure : Funding.Failure) (process : Process) :
    WellFormed (process.failed failure) ∧ holding (process.failed failure) = false := by
  cases process with
  | funding process =>
      obtain ⟨hretried, hfree⟩ := fundingReleased_of_failed failure process
      refine ⟨hretried, ?_⟩
      rw [Process.failed, holding, lockedStatus, hfree]
      rfl
  | _ => exact ⟨trivial, rfl⟩

theorem Invariant.step {world after : World} {event : Event} (hinvariant : Invariant world)
    (hstep : System.step world event = some after) : Invariant after := by
  rcases step_cases hstep with ⟨request, now, _, _, rfl⟩ |
    ⟨environment, outcome, _, havailable, hunused, hadvance, rfl⟩ | ⟨failure, _, rfl⟩
  · obtain ⟨hwellFormed, hfree⟩ := released_of_start now request
    exact invariant_quiet hinvariant hwellFormed hfree
  · have hwellFormed := hinvariant.always event.process
    have hmoved := moved_of_advance hunused hwellFormed (hinvariant.locked event.process) hadvance
    exact Known.step hinvariant havailable
      { always := hmoved.wellFormed
        holding := hmoved.holding
        waited := hmoved.waited
        others := fun _ halways => halways
        frame := fun hneedless _ _ hknows =>
          hknows.frame (frame_of_write (write_of_advance hadvance) hwellFormed hneedless) }
  · obtain ⟨hwellFormed, hfree⟩ := released_of_failed failure (world.process event.process)
    exact invariant_quiet hinvariant hwellFormed hfree

theorem invariant_of_initial {world : World} (hinitial : Initial world) : Invariant world where
  always := fun index => by
    rw [hinitial.allIdle]
    trivial
  holds := fun index hholding => by
    rw [hinitial.allIdle] at hholding
    cases hholding
  locked := fun index hholding => by
    rw [hinitial.allIdle] at hholding
    cases hholding

/-- A step changes nothing, or it commits what an advancing process has to write. -/
theorem write_of_step {world after : World} {event : Event}
    (hstep : System.step world event = some after) :
    after.db = world.db ∨
      event.advances = true ∧
        Write event.now world.db (world.process event.process) after.db := by
  rcases step_cases hstep with ⟨request, now, _, _, rfl⟩ |
    ⟨environment, outcome, haction, _, _, hadvance, rfl⟩ | ⟨failure, _, rfl⟩
  · exact .inl rfl
  · rw [Event.advances, Event.now, haction]
    exact .inr ⟨rfl, write_of_advance hadvance⟩
  · exact .inl rfl

/-- A process that relies on a status finds it stored. -/
theorem Invariant.storedStatus {world : World} {index : ℕ} {status : InvoiceStatus}
    (hinvariant : Invariant world)
    (hlocked : lockedStatus (world.process index) = some status) :
    SystemInvariant.storedStatus world.db = some status :=
  (hinvariant.locked index (by
    change holding _ = true
    rw [holding, hlocked]
    rfl)).status status hlocked

/-! ## What is known of a commit -/

theorem lockedStatus_of_settling {process : Process} {entity : Invoice}
    {holdings : List Investment} (hprocess : settling process = some (entity, holdings)) :
    lockedStatus process = some .funded := by
  unfold settling at hprocess
  split at hprocess
  · rfl
  · rfl
  · cases hprocess

theorem lockedStatus_of_fundingWrites {process : Process} {writes : FundingWrites}
    (hprocess : fundingWrites process = some writes) :
    lockedStatus process = some .published := by
  unfold fundingWrites at hprocess
  split at hprocess
  · rfl
  · rfl
  · cases hprocess

theorem lockedStatus_of_failing {process : Process} {entity : Invoice}
    (hprocess : failing process = some entity) : lockedStatus process = some .published := by
  unfold failing at hprocess
  split at hprocess
  · rfl
  · cases hprocess

/-- The data of a locked commit has the status that the row was found in. -/
theorem funded_of_settling {process : Process} {entity : Invoice} {holdings : List Investment}
    (hwellFormed : WellFormed process) (hprocess : settling process = some (entity, holdings)) :
    entity.status = .funded ∧ SettledRows holdings := by
  unfold settling at hprocess
  split at hprocess
  · obtain ⟨rfl, rfl⟩ := Prod.mk.inj (Option.some.inj hprocess)
    exact hwellFormed
  · obtain ⟨rfl, rfl⟩ := Prod.mk.inj (Option.some.inj hprocess)
    exact hwellFormed
  · cases hprocess

theorem fundingWritten_of_fundingWrites {process : Process}
    {writes : FundingWrites} (hwellFormed : WellFormed process)
    (hprocess : fundingWrites process = some writes) : FundingWritten writes := by
  unfold fundingWrites at hprocess
  split at hprocess
  · obtain rfl := Option.some.inj hprocess
    exact hwellFormed
  · obtain rfl := Option.some.inj hprocess
    exact hwellFormed
  · cases hprocess

theorem published_of_failing {process : Process} {entity : Invoice}
    (hwellFormed : WellFormed process) (hprocess : failing process = some entity) :
    entity.status = .published := by
  unfold failing at hprocess
  split at hprocess
  · obtain rfl := Option.some.inj hprocess
    exact hwellFormed
  · cases hprocess

end StellarSettle.SystemInvariant
