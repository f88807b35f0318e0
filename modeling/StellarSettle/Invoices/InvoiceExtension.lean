import StellarSettle.Invoices.InvoiceService

/-!
# Reviewing a deadline extension

`InvoiceExtensionService.reviewExtension` runs in one transaction, which locks
nothing: it reads the request and the invoice, and saves both when the request is
approved.
-/

namespace StellarSettle.InvoiceExtension

open StellarSettle.Checks
open StellarSettle.Entities
open StellarSettle.InvoiceLifecycle

inductive ReviewDecision where
  | approve
  | reject
  deriving DecidableEq, Repr

structure ReviewExtensionInput where
  requestId : Uuid
  decision : ReviewDecision
  reviewedBy : String
  reviewNote : Option String := none
  deriving DecidableEq, Repr

def BLOCKED_STATUSES : List InvoiceStatus := [.funded, .settled, .cancelled, .rejected]

def invoiceNotFound : ServiceError :=
  { code := .invoiceNotFound, message := "Invoice not found", statusCode := 404 }

/-- The rows that the review goes on to save. -/
inductive ReviewWrites where
  | rejected (request : InvoiceExtensionRequest)
  | approved (invoice : Invoice) (request : InvoiceExtensionRequest)
  deriving DecidableEq, Repr

def reviewedRequest (input : ReviewExtensionInput) (now : Timestamp)
    (status : ExtensionRequestStatus) (request : InvoiceExtensionRequest) :
    InvoiceExtensionRequest :=
  { request with
    status := status
    reviewedBy := some input.reviewedBy
    reviewedAt := some now
    reviewNote := input.reviewNote }

/-- The reads and the checks of the transaction. -/
def readReview (db : Database) (input : ReviewExtensionInput) (now : Timestamp) :
    Except Thrown ReviewWrites := do
  let request ← orThrow (db.extensionRequests.find? fun request => request.id == input.requestId)
    (.service
      { code := .extensionNotFound, message := "Extension request not found", statusCode := 404 })
  throwIf (request.status ≠ .pending)
    (.service
      { code := .extensionNotPending
        message := s!"Extension request is already {request.status.text}"
        statusCode := 409 })
  let invoice ← orThrow db.invoice (.service invoiceNotFound)
  match input.decision with
  | .reject => return .rejected (reviewedRequest input now .rejected request)
  | .approve =>
      throwIf (invoice.status ∈ BLOCKED_STATUSES)
        (.service
          { code := .extensionNotAllowed
            message := s!"Extension is not permitted on a {invoice.status.text} invoice"
            statusCode := 422 })
      return .approved
        { invoice with fundingDeadline := some request.proposedDeadline }
        (reviewedRequest input now .approved
          { request with
            previousDeadline := invoice.fundingDeadline.or request.previousDeadline })

def saveRequest (requests : List InvoiceExtensionRequest) (entity : InvoiceExtensionRequest) :
    List InvoiceExtensionRequest :=
  requests.map fun row => if row.id = entity.id then entity else row

/-- The saves and the commit. -/
def commitReview (db : Database) : ReviewWrites → Except Thrown Database
  | .rejected request =>
      .ok { db with extensionRequests := saveRequest db.extensionRequests request }
  | .approved invoice request => do
      let saved ← InvoiceService.saveEntity db invoice
      return { saved with extensionRequests := saveRequest saved.extensionRequests request }

end StellarSettle.InvoiceExtension
