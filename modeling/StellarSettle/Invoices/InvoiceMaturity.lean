import StellarSettle.Invoices.InvoiceService

/-!
# Invoices that mature underfunded

`markUnderfunded` of the maturity worker locks the invoice row when it reads it,
and moves a published invoice that is not fully funded to FAILED.  A funded
invoice that matures is settled by `settleInvoice`.
-/

namespace StellarSettle.InvoiceMaturity

open StellarSettle.Entities
open StellarSettle.InvoiceLifecycle

def MATURITY_JOB_ACTOR : String := "system:invoice-maturity-job"

/-- The locked read: the invoice, unless it no longer qualifies. -/
def readUnderfunded (db : Database) : Option Invoice :=
  db.invoice.filter fun invoice =>
    invoice.status == .published && decide (invoice.fundedAmount < invoice.netAmount)

def underfunded : TransitionOptions :=
  { actor := { role := .system, wallet := some MATURITY_JOB_ACTOR }
    trigger := .maturityUnderfunded
    context := { reason := some "Not fully funded by maturity date." } }

/-- The transition to FAILED and the commit. -/
def markUnderfunded (db : Database) (invoice : Invoice) : Except Thrown Database :=
  InvoiceService.applyTransition db.intentInFlight db invoice .failed underfunded

theorem readUnderfunded_eq_some {db : Database} {invoice : Invoice}
    (hread : readUnderfunded db = some invoice) :
    db.invoice = some invoice ∧ invoice.status = .published := by
  obtain ⟨hinvoice, hqualifies⟩ := Option.filter_eq_some_iff.mp hread
  rw [Bool.and_eq_true] at hqualifies
  exact ⟨hinvoice, eq_of_beq hqualifies.1⟩

end StellarSettle.InvoiceMaturity
