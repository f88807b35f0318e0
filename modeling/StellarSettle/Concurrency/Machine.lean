import StellarSettle.Core.TransitionSystem
import StellarSettle.Investments.EventIndexer
import StellarSettle.Investments.InvoiceRefund
import StellarSettle.Investments.SecondaryMarket
import StellarSettle.Investments.VerifyPayment
import StellarSettle.Settlement.AdminSettlement

/-!
# Concurrent requests on one invoice

Every request is a process that moves from one await point to the next.  A
database transaction that locks the invoice row is two steps, its reads and its
writes, and no other such transaction runs in between; its writes appear together
when it commits.  A process may stop at any await point, which rolls an open
transaction back.  What the outside world answers is part of the step.
-/

namespace StellarSettle.Machine

open StellarSettle.AdminSettlement
open StellarSettle.Entities
open StellarSettle.EventIndexer
open StellarSettle.InvoiceRefund
open StellarSettle.PaymentDistributor
open StellarSettle.SecondaryMarket
open StellarSettle.SettleInvoice
open StellarSettle.SettlementIntents
open StellarSettle.TransitionSystem
open StellarSettle.VerifyPayment

/-! ## Processes -/

inductive SettleStage where
  | enter
  | prepare (input : PrepareSettlementIntentInput)
  | insert (payload : SettlementIntentPayload)
  | claim (intent : SettlementIntent)
  | submit (intent : SettlementIntent)
  | record (intent : SettlementIntent) (transactionHash : TransactionHash)
  | settle (distributed : Option DistributedIntent)
  | commit (plan : SettlementPlan)

inductive AdminStage where
  | enter
  | escrow
  | transact (transactionHash : TransactionHash)
  | commit (plan : AdminSettlementPlan)

inductive VerifyStage where
  | find
  | fetched
  | write (writes : VerificationWrites)

inductive FundedStage where
  | find
  | save (entity : Investment)

inductive RefundStage where
  | find
  | findInvestment (invoice : Invoice)
  | check (invoice : Invoice) (investment : Investment)
  | remove (invoice : Invoice) (investment : Investment)
  | count (invoice : Invoice)
  | cancel (invoice : Invoice)

inductive ListingStage where
  | check
  | insert (listing : SecondaryListing)

inductive PurchaseStage where
  | check
  | write (writes : PurchaseWrites)

inductive Process where
  | idle
  | finished (thrown : Option Thrown)
  | settleInvoice (service : SettlementService) (input : SettleInvoiceInput)
      (stage : SettleStage)
  | adminSettleInvoice (input : AdminSettleInvoiceInput) (stage : AdminStage)
  | verifyPayment (input : PaymentVerificationInput) (stage : VerifyStage)
  | investmentFunded (event : InvestmentFundedEvent) (stage : FundedStage)
  | refundInvestment (walletAddress : String) (stage : RefundStage)
  | createListing (input : CreateListingInput) (stage : ListingStage)
  | buyListing (input : BuyListingInput) (stage : PurchaseStage)

/-- The calls that can be made. -/
inductive Request where
  | settleInvoice (service : SettlementService) (input : SettleInvoiceInput)
  | adminSettleInvoice (input : AdminSettleInvoiceInput)
  | verifyPayment (input : PaymentVerificationInput)
  | investmentFunded (event : InvestmentFundedEvent)
  | refundInvestment (walletAddress : String)
  | createListing (input : CreateListingInput)
  | buyListing (input : BuyListingInput)

def Request.process : Request → Process
  | settleInvoice service input => .settleInvoice service input .enter
  | adminSettleInvoice input => .adminSettleInvoice input .enter
  | verifyPayment input => .verifyPayment input .find
  | investmentFunded event => .investmentFunded event .find
  | refundInvestment walletAddress => .refundInvestment walletAddress .find
  | createListing input => .createListing input .check
  | buyListing input => .buyListing input .check

/-- What a step takes from outside: the chain's answer, the id of an inserted row,
the time, and the payment that Horizon reports. -/
structure Environment where
  chain : ChainOutcome := .failed ⟨false, ""⟩
  newId : Uuid := 0
  now : Timestamp := 0
  matchedPayment : PaymentMatch := ⟨0, ""⟩
  claimedElsewhere : Bool := false

/-! ## Steps of one process -/

/-- What a step leaves: the database, the process, whether the process holds the
invoice row, and the contract calls and committed administrator settlements it
added. -/
structure Outcome where
  db : Database
  process : Process
  holdsInvoice : Bool := false
  payouts : List PayoutCall := []
  escrows : List EscrowCall := []
  adminCommits : ℕ := 0

/-- Go on with the value, or end the call with the error. -/
def Outcome.attempt {α : Type} (db : Database) (result : Except Thrown α)
    (next : α → Outcome) : Outcome :=
  match result with
  | .error thrown => { db := db, process := .finished (some thrown) }
  | .ok value => next value

/-- What holds of a call that ends with an error and of one that goes on, holds. -/
theorem Outcome.attempt_rule {α : Type} {P : Outcome → Prop} {db : Database}
    {result : Except Thrown α} {next : α → Outcome}
    (hfail : ∀ thrown, P { db := db, process := .finished (some thrown) })
    (hnext : ∀ value, result = .ok value → P (next value)) : P (.attempt db result next) := by
  cases result with
  | error thrown => exact hfail thrown
  | ok value => exact hnext value rfl

def advanceSettle (service : SettlementService) (input : SettleInvoiceInput)
    (environment : Environment) (db : Database) : SettleStage → Outcome
  | .enter =>
      .attempt db (enterSettlement service input) fun prepare =>
        match prepare with
        | none => { db := db, process := .settleInvoice service input (.settle none) }
        | some prepare => { db := db, process := .settleInvoice service input (.prepare prepare) }
  | .prepare prepare =>
      .attempt db (checkDistributorFee prepare.feeBps) fun _ =>
        .attempt db (readSettlementIntent db prepare) fun prepared =>
          match prepared with
          | .fresh payload =>
              { db := db
                process := .settleInvoice service input (.insert payload)
                holdsInvoice := true }
          | .existing intent =>
              .attempt db (payoutRoute intent) fun route =>
                match route with
                | .claim => { db := db, process := .settleInvoice service input (.claim intent) }
                | .recorded transactionHash =>
                    { db := db
                      process := .settleInvoice service input (.settle (some
                        ⟨intent.id, intent.payload, transactionHash⟩)) }
  | .insert payload =>
      .attempt db (insertSettlementIntent db environment.newId payload) fun inserted =>
        { db := inserted
          process := .settleInvoice service input (.claim
            { id := environment.newId
              status := .prepared
              payload := payload
              transactionHash := none }) }
  | .claim intent =>
      .attempt db (claimSettlementIntent db intent.id) fun claimed =>
        { db := claimed, process := .settleInvoice service input (.submit intent) }
  | .submit intent =>
      let call := distributePayouts (distributionInput intent.payload) environment.chain
      { db := db
        process :=
          match call.result with
          | .error thrown => .finished (some thrown)
          | .ok transactionHash => .settleInvoice service input (.record intent transactionHash)
        payouts := [call] }
  | .record intent transactionHash =>
      .attempt db (markSettlementDistributed db intent.id transactionHash) fun marked =>
        { db := marked
          process := .settleInvoice service input (.settle (some
            ⟨intent.id, intent.payload, transactionHash⟩)) }
  | .settle distributed =>
      let read := readSettlement service input distributed db environment.chain
      match read.2 with
      | .error thrown => { db := db, process := .finished (some thrown), payouts := read.1 }
      | .ok plan =>
          { db := db
            process := .settleInvoice service input (.commit plan)
            holdsInvoice := true
            payouts := read.1 }
  | .commit plan =>
      .attempt db (commitSettlement db plan) fun settled =>
        { db := settled, process := .finished none }

def advanceAdmin (input : AdminSettleInvoiceInput) (environment : Environment)
    (db : Database) : AdminStage → Outcome
  | .enter =>
      .attempt db (checkRepaymentAmount input.repaymentAmount) fun _ =>
        { db := db, process := .adminSettleInvoice input .escrow }
  | .escrow =>
      let call := settleEscrowOnChain environment.chain
      { db := db
        process :=
          match call.result with
          | .error thrown => .finished (some (escrowError thrown))
          | .ok transactionHash => .adminSettleInvoice input (.transact transactionHash)
        escrows := [call] }
  | .transact transactionHash =>
      .attempt db (readAdminSettlement input transactionHash db) fun plan =>
        { db := db, process := .adminSettleInvoice input (.commit plan), holdsInvoice := true }
  | .commit plan =>
      .attempt db (commitAdminSettlement db plan) fun settled =>
        { db := settled, process := .finished none, adminCommits := 1 }

def advanceVerify (input : PaymentVerificationInput) (environment : Environment)
    (db : Database) : VerifyStage → Outcome
  | .find =>
      .attempt db (needsVerification db input) fun needed =>
        { db := db, process := if needed then .verifyPayment input .fetched else .finished none }
  | .fetched =>
      .attempt db (readVerification db input environment.matchedPayment
        environment.claimedElsewhere) fun writes =>
          match writes with
          | none => { db := db, process := .finished none }
          | some writes => { db := db, process := .verifyPayment input (.write writes) }
  | .write writes => { db := commitVerification db writes, process := .finished none }

def advanceFunded (event : InvestmentFundedEvent) (db : Database) : FundedStage → Outcome
  | .find =>
      match findInvestmentForEvent db event with
      | none => { db := db, process := .finished none }
      | some investment =>
          { db := db
            process := .investmentFunded event (.save (fundedInvestment event investment)) }
  | .save entity => { db := saveFundedInvestment db entity, process := .finished none }

def advanceRefund (walletAddress : String) (environment : Environment) (db : Database) :
    RefundStage → Outcome
  | .find =>
      match db.invoice with
      | none =>
          { db := db, process := .finished (some (.service InvoiceRefund.invoiceNotFound)) }
      | some invoice =>
          { db := db, process := .refundInvestment walletAddress (.findInvestment invoice) }
  | .findInvestment invoice =>
      match findWalletInvestment db walletAddress with
      | none =>
          { db := db, process := .finished (some (.service InvoiceRefund.investmentNotFound)) }
      | some investment =>
          { db := db, process := .refundInvestment walletAddress (.check invoice investment) }
  | .check invoice investment =>
      match canRefund db environment.now with
      | some reason =>
          { db := db, process := .finished (some (.service (refundNotAllowed reason))) }
      | none =>
          { db := db, process := .refundInvestment walletAddress (.remove invoice investment) }
  | .remove invoice investment =>
      { db := removeInvestment db investment
        process := .refundInvestment walletAddress (.count invoice) }
  | .count invoice =>
      if db.investments = [] then
        { db := db, process := .refundInvestment walletAddress (.cancel invoice) }
      else { db := db, process := .finished none }
  | .cancel invoice =>
      .attempt db (cancelInvoice db invoice) fun cancelled =>
        { db := cancelled, process := .finished none }

def advanceListing (input : CreateListingInput) (environment : Environment) (db : Database) :
    ListingStage → Outcome
  | .check =>
      .attempt db (SecondaryMarket.createListing db input environment.newId environment.now)
        fun listing =>
          { db := db, process := .createListing input (.insert listing), holdsInvoice := true }
  | .insert listing => { db := insertListing db listing, process := .finished none }

def advancePurchase (input : BuyListingInput) (environment : Environment) (db : Database) :
    PurchaseStage → Outcome
  | .check =>
      .attempt db (SecondaryMarket.buyListing db input environment.newId environment.now)
        fun writes =>
          { db := db, process := .buyListing input (.write writes), holdsInvoice := true }
  | .write writes => { db := commitPurchase db writes, process := .finished none }

/-- The next step of a process, if it has one. -/
def advance (environment : Environment) (db : Database) : Process → Option Outcome
  | .idle => none
  | .finished _ => none
  | .settleInvoice service input stage =>
      some (advanceSettle service input environment db stage)
  | .adminSettleInvoice input stage => some (advanceAdmin input environment db stage)
  | .verifyPayment input stage => some (advanceVerify input environment db stage)
  | .investmentFunded event stage => some (advanceFunded event db stage)
  | .refundInvestment walletAddress stage =>
      some (advanceRefund walletAddress environment db stage)
  | .createListing input stage => some (advanceListing input environment db stage)
  | .buyListing input stage => some (advancePurchase input environment db stage)

/-- The next step needs the invoice row, so it waits for the transaction that
holds it. -/
def needsInvoice : Process → Bool
  | .settleInvoice _ _ (.prepare _) => true
  | .settleInvoice _ _ (.insert _) => true
  | .settleInvoice _ _ (.settle _) => true
  | .settleInvoice _ _ (.commit _) => true
  | .adminSettleInvoice _ (.transact _) => true
  | .adminSettleInvoice _ (.commit _) => true
  | .refundInvestment _ (.cancel _) => true
  | .createListing _ _ => true
  | .buyListing _ _ => true
  | _ => false

/-! ## The system -/

/-- The contract calls made so far and the number of committed administrator
settlements only record what happened. -/
structure World where
  db : Database
  holder : Option ℕ := none
  process : ℕ → Process := fun _ => .idle
  payouts : List PayoutCall := []
  escrows : List EscrowCall := []
  adminCommits : ℕ := 0

inductive Action where
  | start (request : Request)
  | advance (environment : Environment)
  | crash

structure Event where
  process : ℕ
  action : Action

def World.apply (world : World) (index : ℕ) (outcome : Outcome) : World :=
  { db := outcome.db
    holder := nextHolder world.holder index outcome.holdsInvoice
    process := setProcess world.process index outcome.process
    payouts := world.payouts ++ outcome.payouts
    escrows := world.escrows ++ outcome.escrows
    adminCommits := world.adminCommits + outcome.adminCommits }

def step (world : World) (event : Event) : Option World :=
  match event.action with
  | .start request =>
      match world.process event.process with
      | .idle => some (world.apply event.process { db := world.db, process := request.process })
      | _ => none
  | .advance environment =>
      if needsInvoice (world.process event.process) = true ∧
          ¬Available world.holder event.process then
        none
      else
        (advance environment world.db (world.process event.process)).map
          (world.apply event.process)
  | .crash =>
      some (world.apply event.process { db := world.db, process := .finished none })

/-- Nothing has happened on the invoice yet. -/
structure Initial (world : World) : Prop where
  noIntent : world.db.settlementIntent = none
  noHolder : world.holder = none
  allIdle : ∀ index, world.process index = .idle
  noPayouts : world.payouts = []
  noEscrows : world.escrows = []
  noCommits : world.adminCommits = 0

/-- Every step applies an outcome: of a start, of a stop, or of the process's next
piece of code. -/
theorem step_cases {world after : World} {event : Event} (hstep : step world event = some after) :
    (∃ request, event.action = .start request ∧ world.process event.process = .idle ∧
      after = world.apply event.process { db := world.db, process := request.process }) ∨
    (∃ environment outcome, event.action = .advance environment ∧
      (needsInvoice (world.process event.process) = true → Available world.holder event.process) ∧
      advance environment world.db (world.process event.process) = some outcome ∧
      after = world.apply event.process outcome) ∨
    (event.action = .crash ∧
      after = world.apply event.process { db := world.db, process := .finished none }) := by
  rw [step] at hstep
  split at hstep
  · rename_i request haction
    split at hstep
    · rename_i hidle
      exact .inl ⟨request, haction, hidle, (Option.some.inj hstep).symm⟩
    · cases hstep
  · rename_i environment haction
    split at hstep
    · cases hstep
    · rename_i hfree
      obtain ⟨outcome, houtcome, hafter⟩ := Option.map_eq_some_iff.mp hstep
      refine .inr (.inl ⟨environment, outcome, haction, fun hneeds => ?_, houtcome, hafter.symm⟩)
      by_contra hheld
      exact hfree ⟨hneeds, hheld⟩
  · rename_i haction
    exact .inr (.inr ⟨haction, (Option.some.inj hstep).symm⟩)

end StellarSettle.Machine
