import StellarSettle.Model.InvoiceLifecycle

/-!
# Requests of sellers and administrators

`InvoiceService` reads an invoice without a lock.  A status change goes through
the state machine in a transaction of its own, which saves the entity that was
read; an edit saves it without one.  A batch is modelled by what it does to one of
its invoices.
-/

namespace StellarSettle.InvoiceService

open StellarSettle.Checks
open StellarSettle.Entities
open StellarSettle.InvoiceLifecycle

/-! ## Errors -/

def invoiceNotFound : ServiceError :=
  { code := .invoiceMissing, message := "Invoice not found", statusCode := 404 }

def unauthorizedInvoiceAccess (message : String) : ServiceError :=
  { code := .unauthorizedInvoiceAccess, message := message, statusCode := 403 }

def kycApprovalRequired : ServiceError :=
  { code := .kycApprovalRequired
    message := "KYC approval is required to publish invoices"
    statusCode := 403 }

/-- The batch is rejected for what is wrong with this invoice. -/
def batchPublishRejected (code : ErrorCode) (message : String) : ServiceError :=
  { code := .batchPublishRejected
    message := "1 of 1 invoices cannot be published; no invoices were changed"
    statusCode := 400
    details := .rejection code message }

/-- A handler passes service errors on and replaces all others. -/
def rethrown (fallback : ServiceError) : Thrown → Thrown
  | .service error => .service error
  | _ => .service fallback

/-! ## Status changes -/

/-- What a request asks of the state machine. -/
structure StatusChange where
  target : InvoiceStatus
  actor : TransitionActor
  trigger : InvoiceTransitionReason
  reason : Option String := none
  deriving DecidableEq, Repr

def StatusChange.options (change : StatusChange) (now : Timestamp) : TransitionOptions :=
  { actor := change.actor
    trigger := change.trigger
    context := { reason := change.reason, now := now } }

inductive StatusRequest where
  | publishInvoice (sellerId : Uuid)
  | publishInvoicesBatch (sellerId : Uuid)
  | submitInvoiceForReview (sellerId : Uuid)
  | approveInvoice (actorId : Option Uuid)
  | rejectInvoice (actorId : Option Uuid) (rejectionReason : String)
  deriving DecidableEq, Repr

def Database.sellerWallet (db : Database) (sellerId : Uuid) : Option String :=
  (db.findUser sellerId).bind fun seller => seller.stellarAddress

/-- The invoice to publish.  `kycApproved` is the seller's KYC status. -/
def readToPublish (db : Database) (sellerId : Uuid) (kycApproved : Bool) :
    Except Thrown (Invoice × StatusChange) := do
  let invoice ← orThrow db.invoice (.service invoiceNotFound)
  throwIf (invoice.sellerId ≠ some sellerId)
    (.service (unauthorizedInvoiceAccess "You can only publish your own invoices"))
  throwIf (db.findUser sellerId = none ∨ kycApproved = false) (.service kycApprovalRequired)
  return (invoice,
    { target := .published
      actor := { role := .seller, id := some sellerId, wallet := Database.sellerWallet db sellerId }
      trigger := .sellerPublished })

def readBatchToPublish (db : Database) (sellerId : Uuid) (kycApproved : Bool)
    (now : Timestamp) : Except Thrown (Invoice × StatusChange) := do
  let invoice ← orThrow db.invoice
    (.service (batchPublishRejected .invoiceMissing "Invoice not found"))
  throwIf (invoice.sellerId ≠ some sellerId)
    (.service (batchPublishRejected .unauthorizedInvoiceAccess "Invoice not found"))
  throwIf (db.findUser sellerId = none ∨ kycApproved = false) (.service kycApprovalRequired)
  throwIf (invoice.status ≠ .draft)
    (.service (batchPublishRejected .invalidStatusTransition
      (s!"Cannot publish an invoice in status {invoice.status.text}; " ++
        "only drafts can be published")))
  let validationErrors := validateInvoiceForPublish invoice now
  throwIf (validationErrors ≠ [])
    (.service (batchPublishRejected .invoiceNotPublishable
      ("Invoice failed pre-publish validation: " ++
        " ".intercalate (validationErrors.map fun error => error.message))))
  return (invoice,
    { target := .published
      actor := { role := .seller, id := some sellerId, wallet := Database.sellerWallet db sellerId }
      trigger := .sellerBatchPublished })

def readToSubmit (db : Database) (sellerId : Uuid) : Except Thrown (Invoice × StatusChange) := do
  let invoice ← orThrow db.invoice (.service invoiceNotFound)
  throwIf (invoice.sellerId ≠ some sellerId) (.service invoiceNotFound)
  return (invoice,
    { target := .pending
      actor := { role := .seller, id := some sellerId, wallet := Database.sellerWallet db sellerId }
      trigger := .sellerSubmitted })

def readToApprove (db : Database) (actorId : Option Uuid) :
    Except Thrown (Invoice × StatusChange) := do
  let invoice ← orThrow db.invoice (.service invoiceNotFound)
  return (invoice,
    { target := .published
      actor := { role := .admin, id := actorId }
      trigger := .adminApproved })

def readToReject (db : Database) (actorId : Option Uuid) (rejectionReason : String) :
    Except Thrown (Invoice × StatusChange) := do
  let reason ← orThrow (trimmedReason (some rejectionReason))
    (.service { code := .invalidRejectionReason, message := "Rejection reason is required" })
  let invoice ← orThrow db.invoice (.service invoiceNotFound)
  throwIf (invoice.status = .rejected)
    (.service
      { code := .invoiceAlreadyRejected
        message := "Invoice has already been rejected"
        statusCode := 409 })
  return (invoice,
    { target := .rejected
      actor := { role := .admin, id := actorId }
      trigger := .adminRejected
      reason := some reason })

/-- What a request reads, and the change it goes on with. -/
def StatusRequest.read (db : Database) (kycApproved : Bool) (now : Timestamp) :
    StatusRequest → Except Thrown (Invoice × StatusChange)
  | .publishInvoice sellerId => readToPublish db sellerId kycApproved
  | .publishInvoicesBatch sellerId => readBatchToPublish db sellerId kycApproved now
  | .submitInvoiceForReview sellerId => readToSubmit db sellerId
  | .approveInvoice actorId => readToApprove db actorId
  | .rejectInvoice actorId rejectionReason => readToReject db actorId rejectionReason

/-- No request cancels the invoice. -/
theorem target_of_read {db : Database} {kycApproved : Bool} {now : Timestamp}
    {request : StatusRequest} {found : Invoice × StatusChange}
    (hread : request.read db kycApproved now = .ok found) : found.2.target ≠ .cancelled := by
  cases request with
  | publishInvoice sellerId =>
      obtain ⟨_, _, hrest⟩ := bind_eq_ok.mp hread
      obtain ⟨_, _, hrest⟩ := bind_eq_ok.mp hrest
      obtain ⟨_, _, hfound⟩ := bind_eq_ok.mp hrest
      rw [pure_eq_ok.mp hfound]
      simp
  | publishInvoicesBatch sellerId =>
      obtain ⟨_, _, hrest⟩ := bind_eq_ok.mp hread
      obtain ⟨_, _, hrest⟩ := bind_eq_ok.mp hrest
      obtain ⟨_, _, hrest⟩ := bind_eq_ok.mp hrest
      obtain ⟨_, _, hrest⟩ := bind_eq_ok.mp hrest
      obtain ⟨_, _, hfound⟩ := bind_eq_ok.mp hrest
      rw [pure_eq_ok.mp hfound]
      simp
  | submitInvoiceForReview sellerId =>
      obtain ⟨_, _, hrest⟩ := bind_eq_ok.mp hread
      obtain ⟨_, _, hfound⟩ := bind_eq_ok.mp hrest
      rw [pure_eq_ok.mp hfound]
      simp
  | approveInvoice actorId =>
      obtain ⟨_, _, hfound⟩ := bind_eq_ok.mp hread
      rw [pure_eq_ok.mp hfound]
      simp
  | rejectInvoice actorId rejectionReason =>
      obtain ⟨_, _, hrest⟩ := bind_eq_ok.mp hread
      obtain ⟨_, _, hrest⟩ := bind_eq_ok.mp hrest
      obtain ⟨_, _, hfound⟩ := bind_eq_ok.mp hrest
      rw [pure_eq_ok.mp hfound]
      simp

/-- What the caller of a failed request sees. -/
def StatusRequest.caught : StatusRequest → Thrown → Thrown
  | .publishInvoice _, thrown =>
      rethrown
        { code := .invoicePublishFailed, message := "Failed to publish invoice", statusCode := 500 }
        thrown
  | .rejectInvoice _ _, .service error =>
      if error.code = .invalidStatusTransition then .service { error with statusCode := 409 }
      else .service error
  | _, thrown => thrown

/-- The transaction of `applyTransition`: the entity as it was read, over the stored
row. -/
def applyTransition (intentInFlight : Bool) (db : Database) (entity : Invoice)
    (target : InvoiceStatus) (options : TransitionOptions) : Except Thrown Database := do
  let row ← orThrow db.invoice (.service invoiceNotFound)
  let moved ← transition intentInFlight row entity target options
  return { db with
    invoice := some moved.invoice
    statusHistory := db.statusHistory ++ [moved.history] }

theorem applyTransition_eq_ok {intentInFlight : Bool} {db after : Database} {entity : Invoice}
    {target : InvoiceStatus} {options : TransitionOptions} :
    applyTransition intentInFlight db entity target options = .ok after ↔
      ∃ row moved, db.invoice = some row ∧
        transition intentInFlight row entity target options = .ok moved ∧
        after = { db with
          invoice := some moved.invoice
          statusHistory := db.statusHistory ++ [moved.history] } := by
  simp only [applyTransition, bind_eq_ok, orThrow_eq_ok, pure_eq_ok]
  constructor
  · rintro ⟨row, hrow, moved, hmoved, hafter⟩
    exact ⟨row, moved, hrow, hmoved, hafter⟩
  · rintro ⟨row, moved, hrow, hmoved, hafter⟩
    exact ⟨row, hrow, moved, hmoved, hafter⟩

/-! ## Edits -/

/-- `repository.save(invoice)` outside the state machine. -/
def saveEntity (db : Database) (entity : Invoice) : Except Thrown Database := do
  let row ← orThrow db.invoice (.service invoiceNotFound)
  let saved ← persistInvoice row entity
  return { db with invoice := some saved }

theorem saveEntity_eq_ok {db after : Database} {entity : Invoice} :
    saveEntity db entity = .ok after ↔
      ∃ row saved, db.invoice = some row ∧ persistInvoice row entity = .ok saved ∧
        after = { db with invoice := some saved } := by
  simp only [saveEntity, bind_eq_ok, orThrow_eq_ok, pure_eq_ok]
  constructor
  · rintro ⟨row, hrow, saved, hsaved, hafter⟩
    exact ⟨row, saved, hrow, hsaved, hafter⟩
  · rintro ⟨row, saved, hrow, hsaved, hafter⟩
    exact ⟨row, hrow, saved, hsaved, hafter⟩

structure UploadDocumentInput where
  sellerId : Option Uuid
  fileLength : ℕ
  deriving DecidableEq, Repr

/-- The checks of `uploadDocument` before the upload. -/
def readToUpload (db : Database) (input : UploadDocumentInput) : Except Thrown Invoice := do
  let sellerId ← orThrow input.sellerId
    (.service { code := .invalidInput, message := "Invoice id and seller id are required" })
  throwIf (input.fileLength = 0)
    (.service { code := .emptyFile, message := "File buffer is empty" })
  let invoice ← orThrow db.invoice (.service invoiceNotFound)
  throwIf (invoice.sellerId ≠ some sellerId)
    (.service (unauthorizedInvoiceAccess "You can only upload documents to your own invoices"))
  return invoice

/-- The upload's answer: the hash of the document, or an error. -/
def uploadFile (answer : Except Thrown String) : Except Thrown String :=
  match answer with
  | .ok hash => .ok hash
  | .error thrown => .error (rethrown
      { code := .ipfsUploadFailed
        message := "Failed to upload document to IPFS"
        statusCode := 502 } thrown)

def uploadedInvoice (invoice : Invoice) (hash : String) : Invoice :=
  { invoice with ipfsHash := some hash }

def documentUploadFailed : ServiceError :=
  { code := .documentUploadFailed
    message := "Failed to process document upload"
    statusCode := 500 }

/-- The fields of `updateInvoice` that the modelled columns have; a missing or empty
one is `none`.  Amount and rate are in the units of their columns. -/
structure UpdateInvoiceInput where
  sellerId : Uuid
  amount : Option ℤ := none
  discountRate : Option ℤ := none
  dueDate : Option ℤ := none
  deriving DecidableEq, Repr

def invalidAmountOrRate : ServiceError :=
  { code := .invoiceAmountInvalid, message := "Invalid amount or discount rate" }

/-- The service's own computation, which checks the same ranges. -/
def recomputedNetAmount (amount discountRate : ℤ) : Except Thrown ℤ :=
  match calculateNetAmount amount discountRate with
  | .ok netAmount => .ok netAmount
  | .error _ => .error (.service invalidAmountOrRate)

/-- The new amount and rate, and the net amount they give. -/
def repricedInvoice (input : UpdateInvoiceInput) (invoice : Invoice) : Except Thrown Invoice :=
  if input.amount.isSome ∨ input.discountRate.isSome then do
    let amount := input.amount.getD invoice.amount
    let discountRate := input.discountRate.getD invoice.discountRate
    let netAmount ← recomputedNetAmount amount discountRate
    return { invoice with
      amount := amount
      discountRate := discountRate
      netAmount := netAmount }
  else .ok invoice

/-- The read and the checks of `updateInvoice`, and the entity it saves. -/
def readToUpdate (db : Database) (input : UpdateInvoiceInput) : Except Thrown Invoice := do
  let invoice ← orThrow db.invoice (.service invoiceNotFound)
  throwIf (invoice.sellerId ≠ some input.sellerId)
    (.service (unauthorizedInvoiceAccess "You can only update your own invoices"))
  throwIf (invoice.status ≠ .draft)
    (.service
      { code := .invoiceStatusRejected
        message := s!"Cannot update invoice in {invoice.status.text} status. " ++
          "Only draft invoices can be updated." })
  let repriced ← repricedInvoice input invoice
  return { repriced with dueDate := input.dueDate.or repriced.dueDate }

def invoiceUpdateFailed : ServiceError :=
  { code := .invoiceUpdateFailed, message := "Failed to update invoice", statusCode := 500 }

/-- An edit changes neither the status nor the funded amount of what was read. -/
theorem funding_of_readToUpdate {db : Database} {input : UpdateInvoiceInput}
    {invoice entity : Invoice} (hinvoice : db.invoice = some invoice)
    (hread : readToUpdate db input = .ok entity) :
    entity.status = invoice.status ∧ entity.fundedAmount = invoice.fundedAmount := by
  obtain ⟨found, hfound, hrest⟩ := bind_eq_ok.mp hread
  obtain rfl : invoice = found :=
    Option.some.inj (hinvoice.symm.trans (orThrow_eq_ok.mp hfound))
  obtain ⟨_, _, hrest⟩ := bind_eq_ok.mp hrest
  obtain ⟨_, _, hrest⟩ := bind_eq_ok.mp hrest
  obtain ⟨repriced, hrepriced, hentity⟩ := bind_eq_ok.mp hrest
  obtain rfl := pure_eq_ok.mp hentity
  unfold repricedInvoice at hrepriced
  split at hrepriced
  · obtain ⟨_, _, hpure⟩ := bind_eq_ok.mp hrepriced
    obtain rfl := pure_eq_ok.mp hpure
    exact ⟨rfl, rfl⟩
  · obtain rfl := Except.ok.inj hrepriced
    exact ⟨rfl, rfl⟩

end StellarSettle.InvoiceService
