import StellarSettle.Model.Entities

/-!
# Events of the contracts

`applyEventStateTransition` finds the row that an event names and saves it with
its new status, outside the state machine.  The look-up and the save are separate
statements, without a transaction.
-/

namespace StellarSettle.EventIndexer

open StellarSettle.Entities

/-- The parts of a decoded event that the transition reads. -/
structure InvestmentFundedEvent where
  investmentId : Option Uuid
  txHash : String
  ledger : ℕ
  deriving DecidableEq, Repr

def findInvestmentForEvent (db : Database) (event : InvestmentFundedEvent) : Option Investment :=
  event.investmentId.bind db.findInvestment

/-- The entity as `applyEventStateTransition` saves it. -/
def fundedInvestment (event : InvestmentFundedEvent) (investment : Investment) : Investment :=
  { investment with
    status := .confirmed
    transactionHash := some event.txHash
    fundingBlock := some event.ledger }

def saveFundedInvestment (db : Database) (entity : Investment) : Database :=
  { db with investments := saveInvestment db.investments entity }

/-! ## Events about the invoice -/

inductive EscrowTopic where
  | createEscrow
  | fundEscrow
  | paymentRecorded
  | settleEscrow
  deriving DecidableEq, Repr

/-- The topics that change an invoice, in lower case. -/
def EscrowTopic.ofText (topic : String) : Option EscrowTopic :=
  let lowered := topic.toLower
  if lowered = "create_escrow" then some .createEscrow
  else if lowered = "fund_escrow" ∨ lowered = "fund" then some .fundEscrow
  else if lowered = "payment_recorded" ∨ lowered = "payment" then some .paymentRecorded
  else if lowered = "settle_escrow" ∨ lowered = "settle" then some .settleEscrow
  else none

/-- The status that the event gives an invoice in status `status`, if any. -/
def EscrowTopic.target (topic : EscrowTopic) (status : InvoiceStatus) : Option InvoiceStatus :=
  match topic with
  | createEscrow => if status = .draft then some .published else none
  | fundEscrow => if status = .published then some .funded else none
  | paymentRecorded => if status = .funded then some .settled else none
  | settleEscrow => some .settled

/-- The invoice as the event is going to save it. -/
def findInvoiceForEvent (db : Database) (topic : EscrowTopic) : Option Invoice :=
  db.invoice.bind fun invoice =>
    (topic.target invoice.status).map fun status => { invoice with status := status }

end StellarSettle.EventIndexer
