import StellarSettle.Invoices.InvoiceService
import StellarSettle.Kyc.KycService
import StellarSettle.Model.UuidText

/-!
# Publishing a batch of drafts

`publishInvoicesBatch` fetches all invoices of a batch with one query and checks each of them.  Only
when none is rejected does it publish them, in one transaction.  The invoices that were fetched are
looked up again under the texts of the request.
-/

namespace StellarSettle.BatchPublish

open StellarSettle.Checks
open StellarSettle.Entities (ErrorCode Invoice InvoiceStatusHistory ServiceError Thrown Timestamp
  Uuid)
open StellarSettle.InvoiceLifecycle
open StellarSettle.InvoiceService (kycApprovalRequired)
open StellarSettle.KeyedRows
open StellarSettle.KycService (User)
open StellarSettle.UuidText

/-! ## Tables -/

structure HistoryRow where
  invoiceId : Uuid
  entry : InvoiceStatusHistory
  deriving DecidableEq, Repr

/-- The tables that a batch reads and writes, with the primary key of the invoices. -/
structure BatchTables where
  invoices : List Invoice
  users : List User
  statusHistory : List HistoryRow
  uniqueInvoices : (invoices.map Invoice.id).Nodup
  uuids : ∀ id ∈ invoices.map Invoice.id, id < 2 ^ 128

namespace BatchTables

/-- The relation `seller` of an invoice. -/
def findSeller (tables : BatchTables) (invoice : Invoice) : Option User :=
  tables.users.find? fun user => decide (invoice.sellerId = some user.id)

theorem lt_of_mem {tables : BatchTables} {invoice : Invoice} (hmem : invoice ∈ tables.invoices) :
    invoice.id < 2 ^ 128 :=
  tables.uuids _ (List.mem_map_of_mem hmem)

/-- The invoice is saved, and its history row is inserted. -/
def publish (tables : BatchTables) (moved : InvoiceTransition) : BatchTables :=
  { tables with
    invoices := tables.invoices.map fun row =>
      if row.id = moved.invoice.id then moved.invoice else row
    statusHistory := tables.statusHistory ++ [⟨moved.invoice.id, moved.history⟩]
    uniqueInvoices := by
      rw [map_key_replace]
      exact tables.uniqueInvoices
    uuids := by
      rw [map_key_replace]
      exact tables.uuids }

end BatchTables

/-! ## The surroundings -/

inductive Statement where
  | findInvoices
  | startTransaction
  | saveInvoice (id : Uuid)
  | saveHistory (id : Uuid)
  | commit
  deriving DecidableEq, Repr

/-- Which statements fail, and what the clock shows at the checks of an invoice: before the
transaction, when the text that names it has its turn, and inside. -/
structure Environment where
  dataSource : Bool
  failure : Statement → Option Thrown
  checkedAt : String → Timestamp
  movedAt : Uuid → Timestamp

def Environment.perform (environment : Environment) (statement : Statement) : Except Thrown Unit :=
  match environment.failure statement with
  | none => .ok ()
  | some thrown => .error thrown

structure BatchPublishInvoicesInput where
  invoiceIds : List String
  sellerId : Uuid
  deriving DecidableEq, Repr

structure BatchPublishRejection where
  invoiceId : String
  code : ErrorCode
  message : String
  deriving DecidableEq, Repr

/-- The rejections are the details of their error. -/
inductive BatchError where
  | thrown (thrown : Thrown)
  | rejected (error : ServiceError) (rejections : List BatchPublishRejection)
  deriving DecidableEq, Repr

def emptyBatch : ServiceError :=
  { code := .emptyBatch, message := "At least one invoice id is required", statusCode := 400 }

def batchPublishUnavailable : ServiceError :=
  { code := .batchPublishUnavailable
    message := "Batch publishing requires a database connection"
    statusCode := 503 }

def batchFetchFailed : ServiceError :=
  { code := .batchFetchFailed
    message := "Failed to fetch invoices for batch publish"
    statusCode := 500 }

def batchPublishRejected (rejected requested : ℕ) : ServiceError :=
  { code := .batchPublishRejected
    message := s!"{rejected} of {requested} invoices cannot be published; " ++
      "no invoices were changed"
    statusCode := 400 }

/-! ## Before the transaction -/

/-- `find({ where: { id: In(uniqueIds) } })` fails for a text that is no uuid. -/
def findInvoices (tables : BatchTables) (uniqueIds : List String) :
    Except Thrown (List Invoice) := do
  let ids ← uniqueIds.mapM fun text =>
    orThrow (readUuid text) (.error "QueryFailedError: invalid input syntax for type uuid")
  return tables.invoices.filter fun invoice => decide (invoice.id ∈ ids)

def fetchInvoices (environment : Environment) (tables : BatchTables) (uniqueIds : List String) :
    Except Thrown (List Invoice) := do
  environment.perform .findInvoices
  findInvoices tables uniqueIds

/-- The map `byId` has the invoices under the texts that the database prints. -/
def byId (invoices : List Invoice) (invoiceId : String) : Option Invoice :=
  invoices.find? fun invoice => decide (printUuid invoice.id = invoiceId)

/-- An invoice to publish, and the wallet of its seller. -/
structure Publishable where
  invoice : Invoice
  sellerWallet : String
  deriving DecidableEq, Repr

inductive Checked where
  | rejected (rejection : BatchPublishRejection)
  | publishable (publishable : Publishable)
  deriving DecidableEq, Repr

/-- The body of the loop over the fetched invoices. -/
def checkInvoice (environment : Environment) (tables : BatchTables) (sellerId : Uuid)
    (invoices : List Invoice) (invoiceId : String) : Except Thrown Checked :=
  match byId invoices invoiceId with
  | none => .ok (.rejected
      { invoiceId := invoiceId, code := .invoiceMissing, message := "Invoice not found" })
  | some invoice =>
      if invoice.sellerId ≠ some sellerId then
        .ok (.rejected
          { invoiceId := invoiceId
            code := .unauthorizedInvoiceAccess
            message := "Invoice not found" })
      else
        match (tables.findSeller invoice).filter fun seller => seller.kycStatus = .approved with
        | none => .error (.service kycApprovalRequired)
        | some seller =>
            if invoice.status ≠ .draft then
              .ok (.rejected
                { invoiceId := invoiceId
                  code := .invalidStatusTransition
                  message := s!"Cannot publish an invoice in status {invoice.status.text}; " ++
                    "only drafts can be published" })
            else
              let validationErrors :=
                validateInvoiceForPublish invoice (environment.checkedAt invoiceId)
              if validationErrors ≠ [] then
                .ok (.rejected
                  { invoiceId := invoiceId
                    code := .invoiceNotPublishable
                    message := "Invoice failed pre-publish validation: " ++
                      " ".intercalate (validationErrors.map fun error => error.message) })
              else .ok (.publishable ⟨invoice, seller.stellarAddress⟩)

def rejections (checked : List Checked) : List BatchPublishRejection :=
  checked.filterMap fun
    | .rejected rejection => some rejection
    | .publishable _ => none

def publishables (checked : List Checked) : List Publishable :=
  checked.filterMap fun
    | .rejected _ => none
    | .publishable publishable => some publishable

/-- What comes before the transaction: the invoices that it publishes. -/
def selectInvoices (environment : Environment) (tables : BatchTables)
    (input : BatchPublishInvoicesInput) : Except BatchError (List Publishable) := do
  throwIf (input.invoiceIds = []) (.thrown (.service emptyBatch))
  let uniqueIds := input.invoiceIds.eraseDups
  throwIf (environment.dataSource = false) (.thrown (.service batchPublishUnavailable))
  let invoices ← (fetchInvoices environment tables uniqueIds).mapError fun _ =>
    .thrown (.service batchFetchFailed)
  let checked ← (uniqueIds.mapM
    (checkInvoice environment tables input.sellerId invoices)).mapError .thrown
  throwIf (rejections checked ≠ [])
    (.rejected (batchPublishRejected (rejections checked).length uniqueIds.length)
      (rejections checked))
  return publishables checked

/-! ## The transaction -/

/-- A statement inside a transaction sees and changes the working copy of the tables. -/
abbrev InTransaction := StateT BatchTables (Except Thrown)

/-- `InvoiceStateMachine.transition`.  No settlement intent is looked for, as the invoice is not
cancelled. -/
def publishInvoice (environment : Environment) (sellerId : Uuid) (publishable : Publishable) :
    InTransaction InvoiceTransition := fun tables => do
  let row ← orThrow (findRow Invoice.id tables.invoices publishable.invoice.id)
    (.service InvoiceService.invoiceNotFound)
  let moved ← transition false row publishable.invoice .published
    { actor := { role := .seller, id := some sellerId, wallet := some publishable.sellerWallet }
      trigger := .sellerBatchPublished
      context := { now := environment.movedAt publishable.invoice.id } }
  environment.perform (.saveInvoice publishable.invoice.id)
  environment.perform (.saveHistory publishable.invoice.id)
  return (moved, tables.publish moved)

/-- The working copy becomes the tables with the commit, and is lost with everything that fails
before. -/
def transaction {Result : Type} (environment : Environment) (body : InTransaction Result)
    (tables : BatchTables) : Except BatchError Result × BatchTables :=
  match (do
    environment.perform .startTransaction
    let done ← body.run tables
    environment.perform .commit
    return done : Except Thrown (Result × BatchTables)) with
  | .ok (result, working) => (.ok result, working)
  | .error thrown => (.error (.thrown thrown), tables)

/-- The transitions are dispatched after the commit, where an effect that fails is only logged. -/
def publishInvoicesBatch (environment : Environment) (input : BatchPublishInvoicesInput)
    (tables : BatchTables) : Except BatchError (List InvoiceTransition) × BatchTables :=
  match selectInvoices environment tables input with
  | .error error => (.error error, tables)
  | .ok selected =>
      transaction environment (selected.mapM (publishInvoice environment input.sellerId)) tables

/-! ## What a batch publishes -/

/-- The invoices with these ids have moved from draft to published, each with one history row, and
no other invoice has changed. -/
structure Published (before after : BatchTables) (ids : List Uuid) : Prop where
  drafts : ∀ id ∈ ids, ∃ row ∈ before.invoices, row.id = id ∧ row.status = .draft
  published : ∀ id ∈ ids, ∃ row ∈ after.invoices, row.id = id ∧ row.status = .published
  others : ∀ row : Invoice, row.id ∉ ids → (row ∈ after.invoices ↔ row ∈ before.invoices)
  history : ∃ rows, after.statusHistory = before.statusHistory ++ rows ∧
    rows.map HistoryRow.invoiceId = ids ∧
    ∀ row ∈ rows, row.entry.fromStatus = .draft ∧ row.entry.toStatus = .published

section Publishing

variable {environment : Environment} {sellerId : Uuid} {publishable : Publishable}
  {tables after : BatchTables} {moved : InvoiceTransition}

theorem mem_publish {row : Invoice} (hother : row.id ≠ moved.invoice.id) :
    row ∈ (tables.publish moved).invoices ↔ row ∈ tables.invoices := by
  constructor
  · intro hmem
    obtain ⟨source, hsource, heq⟩ := List.mem_map.mp hmem
    split at heq
    · rw [heq] at hother
      exact absurd rfl hother
    · exact heq ▸ hsource
  · intro hmem
    exact List.mem_map.mpr ⟨row, hmem, if_neg hother⟩

theorem moved_mem_publish {row : Invoice} (hmem : row ∈ tables.invoices)
    (hid : row.id = moved.invoice.id) : moved.invoice ∈ (tables.publish moved).invoices :=
  List.mem_map.mpr ⟨row, hmem, if_pos hid⟩

theorem id_of_transition {row entity : Invoice} {options : TransitionOptions}
    (hmoved : transition false row entity .published options = .ok moved) :
    moved.invoice.id = entity.id := by
  have hpersist := (transition_eq_ok hmoved).2.1
  rcases persistInvoice_cases hpersist with ⟨hsame, hrow⟩ | ⟨_, _, _, hsaved⟩
  · rw [hrow, ← hsame]
  · rw [hsaved]

theorem perform_eq_ok {statement : Statement} {result : Unit} :
    environment.perform statement = .ok result ↔ environment.failure statement = none := by
  rw [Environment.perform]
  cases environment.failure statement <;> simp

/-- What publishing one invoice does to the working copy. -/
theorem publishInvoice_eq_ok
    (hrun : (publishInvoice environment sellerId publishable).run tables = .ok (moved, after)) :
    after = tables.publish moved ∧ moved.invoice.id = publishable.invoice.id ∧
      moved.invoice.status = .published ∧
      moved.history.fromStatus = publishable.invoice.status ∧
      moved.history.toStatus = .published := by
  obtain ⟨row, _, hrest⟩ := bind_eq_ok.mp hrun
  obtain ⟨result, hmoved, hrest⟩ := bind_eq_ok.mp hrest
  obtain ⟨_, _, hrest⟩ := bind_eq_ok.mp hrest
  obtain ⟨_, _, hrest⟩ := bind_eq_ok.mp hrest
  obtain ⟨rfl, rfl⟩ := Prod.mk.inj (pure_eq_ok.mp hrest)
  obtain ⟨_, _, hfrom, hto⟩ := transition_eq_ok hmoved
  exact ⟨rfl, id_of_transition hmoved, status_of_transition hmoved, hfrom, hto⟩

theorem published_nil (tables : BatchTables) : Published tables tables [] where
  drafts := fun _ hnone => absurd hnone List.not_mem_nil
  published := fun _ hnone => absurd hnone List.not_mem_nil
  others := fun _ _ => Iff.rfl
  history := ⟨[], (List.append_nil _).symm, rfl, fun _ hnone => absurd hnone List.not_mem_nil⟩

/-- Publishing a draft, and then others. -/
theorem Published.cons {last : BatchTables} {ids : List Uuid}
    (hmem : publishable.invoice ∈ tables.invoices) (hdraft : publishable.invoice.status = .draft)
    (hid : moved.invoice.id = publishable.invoice.id)
    (hstatus : moved.invoice.status = .published)
    (hfrom : moved.history.fromStatus = publishable.invoice.status)
    (hto : moved.history.toStatus = .published)
    (hfresh : publishable.invoice.id ∉ ids)
    (hrest : Published (tables.publish moved) last ids) :
    Published tables last (publishable.invoice.id :: ids) := by
  refine ⟨?_, ?_, ?_, ?_⟩
  · refine List.forall_mem_cons.mpr ⟨⟨_, hmem, rfl, hdraft⟩, fun id hlater => ?_⟩
    obtain ⟨row, hrow, hrowId, hrowDraft⟩ := hrest.drafts id hlater
    have hother : row.id ≠ moved.invoice.id := by
      rw [hrowId, hid]
      exact fun heq => hfresh (heq ▸ hlater)
    exact ⟨row, (mem_publish hother).mp hrow, hrowId, hrowDraft⟩
  · refine List.forall_mem_cons.mpr ⟨?_, hrest.published⟩
    have hkept := (hrest.others moved.invoice (by rwa [hid])).mpr
      (moved_mem_publish hmem hid.symm)
    exact ⟨moved.invoice, hkept, hid, hstatus⟩
  · intro row hother
    have hfirst : row.id ≠ moved.invoice.id := by
      rw [hid]
      exact List.ne_of_not_mem_cons hother
    rw [hrest.others row (List.not_mem_of_not_mem_cons hother), mem_publish hfirst]
  · obtain ⟨rows, hrows, hids, hmoves⟩ := hrest.history
    refine ⟨⟨moved.invoice.id, moved.history⟩ :: rows, ?_, ?_, ?_⟩
    · rw [hrows, BatchTables.publish, List.append_assoc]
      rfl
    · rw [List.map_cons, hids, hid]
    · exact List.forall_mem_cons.mpr ⟨⟨hfrom.trans hdraft, hto⟩, hmoves⟩

/-- Publishing the drafts of a batch one after the other. -/
theorem published_of_mapM {selected : List Publishable} {transitions : List InvoiceTransition}
    (hrun : (selected.mapM (publishInvoice environment sellerId)).run tables =
      .ok (transitions, after))
    (hdrafts : ∀ publishable ∈ selected,
      publishable.invoice ∈ tables.invoices ∧ publishable.invoice.status = .draft)
    (hids : (selected.map fun publishable => publishable.invoice.id).Nodup) :
    Published tables after (selected.map fun publishable => publishable.invoice.id) := by
  induction selected generalizing tables transitions with
  | nil =>
      obtain ⟨_, rfl⟩ := Prod.mk.inj (Except.ok.inj hrun)
      exact published_nil tables
  | cons first rest ih =>
      rw [List.mapM_cons, StateT.run_bind] at hrun
      obtain ⟨⟨moved, middle⟩, hfirst, hrest⟩ := bind_eq_ok.mp hrun
      rw [StateT.run_bind] at hrest
      obtain ⟨⟨others, last⟩, hothers, hdone⟩ := bind_eq_ok.mp hrest
      obtain ⟨_, rfl⟩ := Prod.mk.inj (Except.ok.inj hdone)
      obtain ⟨rfl, hid, hstatus, hfrom, hto⟩ := publishInvoice_eq_ok hfirst
      obtain ⟨hfresh, hnodup⟩ := List.nodup_cons.mp hids
      obtain ⟨hmem, hdraft⟩ := hdrafts first List.mem_cons_self
      refine Published.cons hmem hdraft hid hstatus hfrom hto hfresh (ih hothers ?_ hnodup)
      intro other hother
      obtain ⟨hotherMem, hotherDraft⟩ := hdrafts other (List.mem_cons_of_mem _ hother)
      refine ⟨(mem_publish ?_).mpr hotherMem, hotherDraft⟩
      rw [hid]
      exact fun heq => hfresh (List.mem_map.mpr ⟨other, hother, heq⟩)

theorem transaction_cases {Result : Type} (environment : Environment) (body : InTransaction Result)
    (tables : BatchTables) :
    (∃ thrown, transaction environment body tables = (.error (.thrown thrown), tables)) ∨
      ∃ result working, body.run tables = .ok (result, working) ∧
        transaction environment body tables = (.ok result, working) := by
  rw [transaction]
  split
  · rename_i result working hrun
    obtain ⟨_, _, hrun⟩ := bind_eq_ok.mp hrun
    obtain ⟨done, hdone, hrun⟩ := bind_eq_ok.mp hrun
    obtain ⟨_, _, hrun⟩ := bind_eq_ok.mp hrun
    exact .inr ⟨result, working, pure_eq_ok.mp hrun ▸ hdone, rfl⟩
  · rename_i thrown _
    exact .inl ⟨thrown, rfl⟩

/-- A transaction rejects nothing. -/
theorem transaction_ne_rejected {Result : Type} (environment : Environment)
    (body : InTransaction Result) (tables : BatchTables) (error : ServiceError)
    (rejected : List BatchPublishRejection) :
    (transaction environment body tables).1 ≠ .error (.rejected error rejected) := by
  intro hresult
  rcases transaction_cases environment body tables with
    ⟨thrown, hfailed⟩ | ⟨result, working, _, hcommitted⟩
  · rw [hfailed] at hresult
    cases hresult
  · rw [hcommitted] at hresult
    cases hresult

end Publishing

end StellarSettle.BatchPublish
