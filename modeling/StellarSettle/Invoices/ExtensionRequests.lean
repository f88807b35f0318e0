import Mathlib.Data.List.Perm.Basic
import StellarSettle.Core.KeyedRows
import StellarSettle.Core.ReadCommitted
import StellarSettle.Invoices.InvoiceExtension

/-!
# Requesting and reviewing extensions

A seller asks for a later funding deadline of an invoice, and an admin approves or rejects the
request.  Neither operation takes a lock: a request looks for a pending one before it is inserted,
and a review looks at the status of its request before it saves the invoice and the request.
-/

namespace StellarSettle.ExtensionRequests

open StellarSettle.Checks
open StellarSettle.Entities
open StellarSettle.InvoiceExtension (BLOCKED_STATUSES ReviewDecision ReviewExtensionInput
  invoiceNotFound reviewedRequest)
open StellarSettle.InvoiceLifecycle
open StellarSettle.KeyedRows
open StellarSettle.ReadCommitted
open StellarSettle.TransitionSystem

/-! ## Tables -/

/-- The row with the columns that only the request itself sets. -/
structure ExtensionRequest extends InvoiceExtensionRequest where
  requestedBy : Uuid
  reason : Option String
  deriving DecidableEq, Repr

/-- A review that has committed. -/
structure Decision where
  requestId : Uuid
  decision : ReviewDecision
  deriving DecidableEq, Repr

/-- The invoice and its requests, which have a primary key and a foreign key.  No query reads the
record of the decisions, the latest first. -/
structure ExtensionTables where
  invoice : Option Invoice
  requests : List ExtensionRequest
  decisions : List Decision
  uniqueRequests : (requests.map fun request => request.id).Nodup
  owned : ∀ request ∈ requests, ∃ stored, invoice = some stored
  recorded : ∀ decision ∈ decisions, ∃ request ∈ requests, request.id = decision.requestId

namespace ExtensionTables

def findRequest (tables : ExtensionTables) (id : Uuid) : Option ExtensionRequest :=
  findRow (fun request => request.id) tables.requests id

def findPending (tables : ExtensionTables) : Option ExtensionRequest :=
  tables.requests.find? fun request => decide (request.status = .pending)

def fundingDeadline (tables : ExtensionTables) : Option (Option Timestamp) :=
  tables.invoice.map Invoice.fundingDeadline

/-- A query may return the rows in any order. -/
structure Shows (tables seen : ExtensionTables) : Prop where
  invoice : seen.invoice = tables.invoice
  requests : seen.requests.Perm tables.requests

theorem mem_of_findRequest {tables seen : ExtensionTables} {id : Uuid} {request : ExtensionRequest}
    (hshows : tables.Shows seen) (hfind : seen.findRequest id = some request) :
    request ∈ tables.requests ∧ request.id = id :=
  ⟨hshows.requests.subset (List.mem_of_find?_eq_some hfind), by simpa using List.find?_some hfind⟩

theorem findRequest_of_mem {tables seen : ExtensionTables} {request : ExtensionRequest}
    (hshows : tables.Shows seen) (hmem : request ∈ tables.requests) :
    seen.findRequest request.id = some request :=
  findRow_of_mem seen.uniqueRequests (hshows.requests.symm.subset hmem)

theorem eq_of_mem {tables : ExtensionTables} {left right : ExtensionRequest}
    (hleft : left ∈ tables.requests) (hright : right ∈ tables.requests) (hid : left.id = right.id) :
    left = right :=
  List.inj_on_of_nodup_map tables.uniqueRequests hleft hright hid

end ExtensionTables

/-! ## Writes -/

/-- The value of a column that `save` found different from the stored one. -/
def changed {Column : Type} [DecidableEq Column] (stored entity : Column) : Option Column :=
  if entity = stored then none else some entity

theorem changed_of_ne {Column : Type} [DecidableEq Column] {stored entity : Column}
    (hne : entity ≠ stored) : changed stored entity = some entity := if_neg hne

theorem changed_cases {Column : Type} [DecidableEq Column] (stored entity : Column) :
    changed stored entity = some entity ∨ changed stored entity = none ∧ entity = stored := by
  rw [changed]
  split
  · exact .inr ⟨rfl, ‹_›⟩
  · exact .inl rfl

/-- The columns of a request that a review sets. -/
structure Changes where
  previousDeadline : Option (Option Timestamp)
  status : Option ExtensionRequestStatus
  reviewedBy : Option (Option String)
  reviewedAt : Option (Option Timestamp)
  reviewNote : Option (Option String)
  deriving DecidableEq, Repr

namespace Changes

def between (stored entity : ExtensionRequest) : Changes :=
  { previousDeadline := changed stored.previousDeadline entity.previousDeadline
    status := changed stored.status entity.status
    reviewedBy := changed stored.reviewedBy entity.reviewedBy
    reviewedAt := changed stored.reviewedAt entity.reviewedAt
    reviewNote := changed stored.reviewNote entity.reviewNote }

def applied (changes : Changes) (stored : ExtensionRequest) : ExtensionRequest :=
  { stored with
    previousDeadline := changes.previousDeadline.getD stored.previousDeadline
    status := changes.status.getD stored.status
    reviewedBy := changes.reviewedBy.getD stored.reviewedBy
    reviewedAt := changes.reviewedAt.getD stored.reviewedAt
    reviewNote := changes.reviewNote.getD stored.reviewNote }

@[simp]
theorem applied_id (changes : Changes) (stored : ExtensionRequest) :
    (changes.applied stored).id = stored.id := rfl

@[simp]
theorem applied_proposedDeadline (changes : Changes) (stored : ExtensionRequest) :
    (changes.applied stored).proposedDeadline = stored.proposedDeadline := rfl

@[simp]
theorem applied_status (changes : Changes) (stored : ExtensionRequest) :
    (changes.applied stored).status = changes.status.getD stored.status := rfl

end Changes

inductive RequestWrite where
  | insert (request : ExtensionRequest)
  | update (id : Uuid) (changes : Changes)
  deriving DecidableEq, Repr

def RequestWrite.id : RequestWrite → Uuid
  | insert request => request.id
  | update id _ => id

/-- A review changes no other column of the invoice, besides those of its hook. -/
inductive InvoiceWrite where
  | insert (invoice : Invoice)
  | update (fundingDeadline : Option (Option Timestamp))
  deriving DecidableEq, Repr

/-- A new request has no decision. -/
structure Write where
  invoice : Option InvoiceWrite
  request : RequestWrite
  decision : Option ReviewDecision
  deriving DecidableEq, Repr

/-- The hook runs before the row is written. -/
def storeInvoice (entity : Invoice) : Except Thrown Invoice := do
  let formatted ← calculateAndFormatAmounts entity
  writeInvoice formatted

theorem fundingDeadline_storeInvoice {entity stored : Invoice}
    (hstored : (storeInvoice entity).toOption = some stored) :
    stored.fundingDeadline = entity.fundingDeadline := by
  have hstore : storeInvoice entity = .ok stored := by
    cases hresult : storeInvoice entity with
    | error thrown =>
        rw [hresult] at hstored
        cases hstored
    | ok written =>
        rw [hresult] at hstored
        exact congrArg Except.ok (Option.some.inj hstored)
  obtain ⟨formatted, hformat, hwrite⟩ := bind_eq_ok.mp hstore
  obtain ⟨_, _, hformat⟩ := bind_eq_ok.mp hformat
  obtain ⟨_, _, hformat⟩ := bind_eq_ok.mp hformat
  obtain ⟨netAmount, _, hformat⟩ := bind_eq_ok.mp hformat
  obtain rfl := Except.ok.inj hformat
  obtain ⟨_, rfl⟩ := writeInvoice_eq_ok.mp hwrite
  rfl

namespace Write

/-- The invoice as the write leaves it. -/
def invoiceAfter (write : Write) (tables : ExtensionTables) : Option Invoice :=
  match write.invoice, tables.invoice with
  | none, stored => stored
  | some (.insert _), some _ => none
  | some (.insert entity), none => (storeInvoice { entity with version := 1 }).toOption
  | some (.update none), stored => stored
  | some (.update (some _)), none => none
  | some (.update (some fundingDeadline)), some stored =>
      (storeInvoice { stored with
        fundingDeadline := fundingDeadline
        version := stored.version + 1 }).toOption

/-- The request as the write leaves it: a new one has an id of its own, and a stored one is still
there, as none is ever removed. -/
def requestAfter (write : Write) (tables : ExtensionTables) : Option ExtensionRequest :=
  match write.request with
  | .insert request => if (tables.findRequest request.id).isSome then none else some request
  | .update id changes => (tables.findRequest id).map changes.applied

end Write

namespace ExtensionTables

def store (tables : ExtensionTables) (invoice : Invoice) (request : ExtensionRequest)
    (decision : Option ReviewDecision) : ExtensionTables :=
  { invoice := some invoice
    requests := saveRow (fun stored => stored.id) tables.requests request
    decisions := (decision.map (Decision.mk request.id)).toList ++ tables.decisions
    uniqueRequests := nodup_saveRow tables.uniqueRequests
    owned := fun _ _ => ⟨invoice, rfl⟩
    recorded := by
      intro made hmade
      rcases List.mem_append.mp hmade with hnew | hold
      · obtain ⟨_, _, rfl⟩ := Option.map_eq_some_iff.mp (Option.mem_toList.mp hnew)
        exact ⟨request, mem_saveRow_self, rfl⟩
      · obtain ⟨stored, hmem, hid⟩ := tables.recorded made hold
        by_cases hsame : stored.id = request.id
        · exact ⟨request, mem_saveRow_self, hsame.symm.trans hid⟩
        · exact ⟨stored, mem_saveRow.mpr (.inr ⟨hmem, hsame⟩), hid⟩ }

end ExtensionTables

/-- A write that violates a key or a constraint, or whose hook throws, fails. -/
def applyWrite (write : Write) (tables : ExtensionTables) : Option ExtensionTables := do
  let invoice ← write.invoiceAfter tables
  let request ← write.requestAfter tables
  return tables.store invoice request write.decision

/-! ## Operations -/

abbrev ExtensionTransaction := Transaction ExtensionTables Write Thrown

/-- The clock of the operation, and the id of a request that it inserts. -/
structure Environment where
  now : Timestamp
  requestId : Uuid
  deriving DecidableEq, Repr

/-- A proposed deadline that is no valid date is missing here. -/
structure RequestExtensionInput where
  sellerId : Uuid
  proposedDeadline : Option Timestamp
  reason : Option String := none
  deriving DecidableEq, Repr

def notPermitted (status : InvoiceStatus) : ServiceError :=
  { code := .extensionNotAllowed
    message := s!"Extension is not permitted on a {status.text} invoice"
    statusCode := 422 }

def invalidDeadline (message : String) : ServiceError :=
  { code := .invalidDeadline, message := message, statusCode := 400 }

/-- What `requestExtension` checks of the invoice and of the proposed deadline. -/
def checkRequest (environment : Environment) (input : RequestExtensionInput) (invoice : Invoice) :
    Except Thrown Timestamp := do
  throwIf (invoice.sellerId ≠ some input.sellerId)
    (.service
      { code := .forbidden
        message := "Only the invoice seller can request an extension"
        statusCode := 403 })
  throwIf (invoice.status ∈ BLOCKED_STATUSES) (.service (notPermitted invoice.status))
  let proposed ← orThrow input.proposedDeadline
    (.service (invalidDeadline "proposedDeadline must be a valid date"))
  throwIf (proposed ≤ environment.now)
    (.service (invalidDeadline "proposedDeadline must be in the future"))
  return proposed

def newRequest (environment : Environment) (input : RequestExtensionInput) (invoice : Invoice)
    (proposed : Timestamp) : ExtensionRequest :=
  { id := environment.requestId
    requestedBy := input.sellerId
    proposedDeadline := proposed
    previousDeadline := invoice.fundingDeadline
    reason := input.reason
    status := .pending
    reviewedBy := none
    reviewedAt := none
    reviewNote := none }

def requestExtension (environment : Environment) (input : RequestExtensionInput) :
    ExtensionTransaction :=
  .require (fun tables => .ok tables.invoice) (.service invoiceNotFound) fun invoice =>
    match checkRequest environment input invoice with
    | .error thrown => .throw thrown
    | .ok proposed =>
        .lookUp (fun tables => .ok tables.findPending) fun pending =>
          match pending with
          | some _ => .throw (.service
              { code := .extensionPending
                message := "An extension request is already pending for this invoice"
                statusCode := 409 })
          | none => .commit
              { invoice := none
                request := .insert (newRequest environment input invoice proposed)
                decision := none }

/-- What `save` writes once it has loaded the stored row again: the columns that differ. -/
def InvoiceWrite.saving (entity : Invoice) : Option Invoice → InvoiceWrite
  | none => .insert entity
  | some stored => .update (changed stored.fundingDeadline entity.fundingDeadline)

def saveInvoice (entity : Invoice) (next : InvoiceWrite → ExtensionTransaction) :
    ExtensionTransaction :=
  .lookUp (fun tables => .ok tables.invoice) fun stored => next (.saving entity stored)

def saveRequest (decision : ReviewDecision) (entity : ExtensionRequest)
    (invoice : Option InvoiceWrite) : ExtensionTransaction :=
  .lookUp (fun tables => .ok (tables.findRequest entity.id)) fun stored =>
    match stored with
    | none => .commit
        { invoice := invoice
          request := .insert entity
          decision := some decision }
    | some stored => .commit
        { invoice := invoice
          request := .update entity.id (.between stored entity)
          decision := some decision }

def decidedStatus : ReviewDecision → ExtensionRequestStatus
  | .approve => .approved
  | .reject => .rejected

def decidedRequest (environment : Environment) (input : ReviewExtensionInput)
    (request : ExtensionRequest) : ExtensionRequest :=
  { request with
    toInvoiceExtensionRequest := reviewedRequest input environment.now
      (decidedStatus input.decision) request.toInvoiceExtensionRequest }

def reviewExtension (environment : Environment) (input : ReviewExtensionInput) :
    ExtensionTransaction :=
  .require (fun tables => .ok (tables.findRequest input.requestId))
    (.service
      { code := .extensionNotFound, message := "Extension request not found", statusCode := 404 })
    fun request =>
      if request.status ≠ .pending then
        .throw (.service
          { code := .extensionNotPending
            message := s!"Extension request is already {request.status.text}"
            statusCode := 409 })
      else
        .require (fun tables => .ok tables.invoice) (.service invoiceNotFound) fun invoice =>
          match input.decision with
          | .reject => saveRequest .reject (decidedRequest environment input request) none
          | .approve =>
              if invoice.status ∈ BLOCKED_STATUSES then
                .throw (.service (notPermitted invoice.status))
              else
                saveInvoice { invoice with fundingDeadline := some request.proposedDeadline }
                  fun written =>
                    saveRequest .approve
                      (decidedRequest environment input { request with
                        previousDeadline := invoice.fundingDeadline.or request.previousDeadline })
                      (some written)

inductive ExtensionOperation where
  | requestExtension (environment : Environment) (input : RequestExtensionInput)
  | reviewExtension (environment : Environment) (input : ReviewExtensionInput)
  deriving DecidableEq, Repr

def ExtensionOperation.code : ExtensionOperation → ExtensionTransaction
  | requestExtension environment input => ExtensionRequests.requestExtension environment input
  | reviewExtension environment input => ExtensionRequests.reviewExtension environment input

instance (tables seen : ExtensionTables) : Decidable (tables.Shows seen) :=
  decidable_of_iff (seen.invoice = tables.invoice ∧ seen.requests.Perm tables.requests)
    ⟨fun hboth => ⟨hboth.1, hboth.2⟩, fun hshows => ⟨hshows.invoice, hshows.requests⟩⟩

def extensions : Database ExtensionTables Write Thrown ExtensionOperation :=
  { code := ExtensionOperation.code
    shows := ExtensionTables.Shows
    decidableShows := fun _ _ => inferInstance
    apply := applyWrite }

abbrev ExtensionSystem := System ℕ ExtensionTables Write Thrown

abbrev ExtensionEvent := Event ℕ ExtensionTables ExtensionOperation

end StellarSettle.ExtensionRequests
