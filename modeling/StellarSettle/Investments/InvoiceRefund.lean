import StellarSettle.Core.Checks
import StellarSettle.Model.InvoiceLifecycle

/-!
# Refunds

`InvoiceRefundService.refundInvestment` runs without a transaction: every
statement commits on its own, and the invoice that it saves last is the one it
read first.
-/

namespace StellarSettle.InvoiceRefund

open StellarSettle.Checks
open StellarSettle.Entities
open StellarSettle.InvoiceLifecycle

def invoiceNotFound : ServiceError :=
  { code := .invoiceNotFound, message := "Invoice not found", statusCode := 404 }

def investmentNotFound : ServiceError :=
  { code := .investmentNotFound, message := "Investment record not found", statusCode := 404 }

def refundNotAllowed (reason : String) : ServiceError :=
  { code := .refundNotAllowed, message := reason, statusCode := 400 }

/-- `canRefund`: the reason of a refusal, or nothing. -/
def canRefund (db : Database) (now : Timestamp) : Option String :=
  match db.invoice with
  | none => some "Invoice not found"
  | some invoice =>
      if invoice.status = .funded then some "Cannot refund funded invoice"
      else if invoice.status = .settled then some "Cannot refund settled invoice"
      else if invoice.fundingDeadline.any fun deadline => now < deadline then
        some "Invoice funding deadline not reached"
      else none

/-- `findOne(Investment, { where: { invoiceId, investorWallet } })`. -/
def findWalletInvestment (db : Database) (walletAddress : String) : Option Investment :=
  db.investments.find? fun investment => investment.investorWallet == some walletAddress

/-- `investmentRepo.remove(investment)`. -/
def removeInvestment (db : Database) (investment : Investment) : Database :=
  { db with investments := db.investments.filter fun row => row.id != investment.id }

/-- `invoice.status = CANCELLED; invoiceRepo.save(invoice)`. -/
def cancelInvoice (db : Database) (invoice : Invoice) : Except Thrown Database := do
  let row ← orThrow db.invoice (.service invoiceNotFound)
  let saved ← persistInvoice row { invoice with status := .cancelled }
  return { db with invoice := some saved }

/-! ## One call on its own -/

/-- The statements of a refund, each of which can fail. -/
inductive RefundStatement where
  | findInvoice
  | findInvestment
  | canRefund
  | remove
  | count
  | save
  deriving DecidableEq, Repr

def RefundStatement.beforeRemoval : RefundStatement → Bool
  | .findInvoice => true
  | .findInvestment => true
  | .canRefund => true
  | .remove => true
  | .count => false
  | .save => false

/-- The statement that fails in a call, if any, and what it throws. -/
abbrev RefundFailure := Option (RefundStatement × Thrown)

def runStatement (failure : RefundFailure) (statement : RefundStatement) :
    Except Thrown Unit :=
  match failure with
  | none => .ok ()
  | some (failing, thrown) => throwIf (failing = statement) thrown

/-- Everything up to the removal, and its failure. -/
def checkRefund (db : Database) (walletAddress : String) (now : Timestamp)
    (failure : RefundFailure) : Except Thrown (Invoice × Investment) := do
  runStatement failure .findInvoice
  let invoice ← orThrow db.invoice (.service invoiceNotFound)
  runStatement failure .findInvestment
  let investment ← orThrow (findWalletInvestment db walletAddress) (.service investmentNotFound)
  runStatement failure .canRefund
  throwIf (canRefund db now).isSome
    (.service (refundNotAllowed ((canRefund db now).getD "Cannot refund invoice")))
  runStatement failure .remove
  return (invoice, investment)

/-- Everything after the removal. -/
def finishRefund (db : Database) (invoice : Invoice) (failure : RefundFailure) :
    Except Thrown Database := do
  runStatement failure .count
  if db.investments = [] then
    runStatement failure .save
    cancelInvoice db invoice
  else return db

/-- The database that a call leaves, and what it returns: every statement that did
not fail has committed. -/
def refundInvestment (db : Database) (walletAddress : String) (now : Timestamp)
    (failure : RefundFailure) : Database × Except Thrown Unit :=
  match checkRefund db walletAddress now failure with
  | .error thrown => (db, .error thrown)
  | .ok (invoice, investment) =>
      let removed := removeInvestment db investment
      match finishRefund removed invoice failure with
      | .error thrown => (removed, .error thrown)
      | .ok after => (after, .ok ())

/-- A refund is allowed only while the invoice is neither funded nor settled. -/
theorem status_of_canRefund {db : Database} {now : Timestamp}
    (hallowed : canRefund db now = none) :
    ∃ invoice, db.invoice = some invoice ∧ invoice.status ≠ .funded ∧
      invoice.status ≠ .settled := by
  unfold canRefund at hallowed
  cases hinvoice : db.invoice with
  | none =>
      rw [hinvoice] at hallowed
      cases hallowed
  | some invoice =>
      rw [hinvoice] at hallowed
      dsimp only at hallowed
      split at hallowed
      · cases hallowed
      · rename_i hfunded
        split at hallowed
        · cases hallowed
        · rename_i hsettled
          exact ⟨invoice, rfl, hfunded, hsettled⟩

/-- The cancellation leaves everything but the invoice as it was. -/
theorem cancelInvoice_eq_ok {db after : Database} {invoice : Invoice}
    (hok : cancelInvoice db invoice = .ok after) :
    ∃ row saved, db.invoice = some row ∧
      persistInvoice row { invoice with status := .cancelled } = .ok saved ∧
      after = { db with invoice := some saved } := by
  obtain ⟨row, hrow, hrest⟩ := bind_eq_ok.mp hok
  obtain ⟨saved, hsaved, hafter⟩ := bind_eq_ok.mp hrest
  exact ⟨row, saved, orThrow_eq_ok.mp hrow, hsaved, pure_eq_ok.mp hafter⟩

end StellarSettle.InvoiceRefund
