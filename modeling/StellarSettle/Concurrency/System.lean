import StellarSettle.Concurrency.Funding
import StellarSettle.Concurrency.Machine
import StellarSettle.Invoices.InvoiceExtension
import StellarSettle.Invoices.InvoiceMaturity

/-!
# Everything that runs on one invoice

The settlement and trading requests, the funding requests, and the requests that
change the invoice itself, as processes over one database.  Whatever updates the
invoice row waits for the transaction that holds it; a read without a lock waits
for nothing.  A process may stop at any await point, which rolls an open
transaction back.
-/

namespace StellarSettle.System

open StellarSettle.Entities
open StellarSettle.EventIndexer
open StellarSettle.InvoiceExtension
open StellarSettle.InvoiceLifecycle
open StellarSettle.InvoiceMaturity
open StellarSettle.InvoiceService
open StellarSettle.TransitionSystem

/-! ## Processes -/

/-- A request of the state machine: its entity is read before the transaction that
saves it. -/
inductive StatusStage where
  | read
  | save (entity : Invoice) (change : StatusChange)

/-- A transition to CANCELLED through `entityManagerTransitionStore`: the row is
locked and the intents are checked before the entity is saved. -/
inductive CancelStage where
  | read
  | lock (entity : Invoice)
  | check (entity : Invoice)
  | save (entity : Invoice)

inductive UnderfundedStage where
  | lock
  | commit (invoice : Invoice)

inductive InvoiceEventStage where
  | find
  | save (entity : Invoice)

inductive UploadStage where
  | find
  | upload (invoice : Invoice)
  | save (entity : Invoice)

inductive UpdateStage where
  | find
  | save (entity : Invoice)

inductive ReviewStage where
  | read
  | commit (writes : ReviewWrites)

inductive Process where
  | idle
  | finished (thrown : Option Thrown)
  | service (process : Machine.Process)
  | funding (process : Funding.Process)
  | changeStatus (request : StatusRequest) (stage : StatusStage)
  | cancelInvoice (options : TransitionOptions) (stage : CancelStage)
  | markUnderfunded (stage : UnderfundedStage)
  | invoiceEvent (topic : EscrowTopic) (stage : InvoiceEventStage)
  | uploadDocument (input : UploadDocumentInput) (stage : UploadStage)
  | updateInvoice (input : UpdateInvoiceInput) (stage : UpdateStage)
  | reviewExtension (input : ReviewExtensionInput) (stage : ReviewStage)

inductive Request where
  | service (request : Machine.Request)
  | funding (request : Funding.Request)
  | changeStatus (request : StatusRequest)
  | cancelInvoice (options : TransitionOptions)
  | markUnderfunded
  | invoiceEvent (topic : String)
  | uploadDocument (input : UploadDocumentInput)
  | updateInvoice (input : UpdateInvoiceInput)
  | reviewExtension (input : ReviewExtensionInput)

def Request.process (now : Timestamp) : Request → Process
  | service request => .service request.process
  | funding request => .funding (request.process now)
  | changeStatus request => .changeStatus request .read
  | cancelInvoice options => .cancelInvoice options .read
  | markUnderfunded => .markUnderfunded .lock
  | invoiceEvent topic =>
      match EscrowTopic.ofText topic with
      | none => .finished none
      | some topic => .invoiceEvent topic .find
  | uploadDocument input => .uploadDocument input .find
  | updateInvoice input => .updateInvoice input .find
  | reviewExtension input => .reviewExtension input .read

/-- What becomes of a process that stops: only a funding call is made again. -/
def Process.failed (failure : Funding.Failure) : Process → Process
  | .funding process => .funding (process.failed failure)
  | _ => .finished none

/-- What a step takes from outside, next to what the services take: the seller's KYC
status, and the answer to an upload. -/
structure Environment extends Machine.Environment where
  kycApproved : Bool := true
  upload : Except Thrown String := .ok ""

def Environment.funding (environment : Environment) : Funding.Environment :=
  { newId := environment.newId, now := environment.now }

/-! ## Steps of one process -/

structure Outcome where
  db : Database
  process : Process
  holdsInvoice : Bool := false

/-- Go on with the value, or end the call with the error. -/
def Outcome.attempt {α : Type} (db : Database) (result : Except Thrown α)
    (next : α → Outcome) : Outcome :=
  match result with
  | .error thrown => { db := db, process := .finished (some thrown) }
  | .ok value => next value

theorem Outcome.attempt_rule {α : Type} {P : Outcome → Prop} {db : Database}
    {result : Except Thrown α} {next : α → Outcome}
    (hfail : ∀ thrown, P { db := db, process := .finished (some thrown) })
    (hnext : ∀ value, result = .ok value → P (next value)) : P (.attempt db result next) := by
  cases result with
  | error thrown => exact hfail thrown
  | ok value => exact hnext value rfl

def Outcome.ofService (outcome : Machine.Outcome) : Outcome :=
  { db := outcome.db
    process := .service outcome.process
    holdsInvoice := outcome.holdsInvoice }

def Outcome.ofFunding (outcome : Funding.Outcome) : Outcome :=
  { db := outcome.db
    process := .funding outcome.process
    holdsInvoice := outcome.holdsInvoice }

/-- The errors of a request as its caller sees them. -/
def mapError {α : Type} (caught : Thrown → Thrown) : Except Thrown α → Except Thrown α
  | .error thrown => .error (caught thrown)
  | .ok value => .ok value

def advanceStatus (request : StatusRequest) (environment : Environment) (db : Database) :
    StatusStage → Outcome
  | .read =>
      .attempt db (mapError request.caught
          (request.read db environment.kycApproved environment.now)) fun found =>
        { db := db, process := .changeStatus request (.save found.1 found.2) }
  | .save entity change =>
      .attempt db (mapError request.caught (applyTransition db.intentInFlight db entity
          change.target (change.options environment.now))) fun changed =>
        { db := changed, process := .finished none }

def settlementPending : ServiceError :=
  { code := .settlementInProgress
    message := "Invoice cannot be cancelled while a settlement payout is pending"
    statusCode := 409 }

def advanceCancel (options : TransitionOptions) (db : Database) : CancelStage → Outcome
  | .read =>
      .attempt db (Checks.orThrow db.invoice (.service InvoiceService.invoiceNotFound))
        fun invoice => { db := db, process := .cancelInvoice options (.lock invoice) }
  | .lock entity =>
      .attempt db (assertTransition entity .cancelled options.actor options.context) fun _ =>
        { db := db, process := .cancelInvoice options (.check entity), holdsInvoice := true }
  | .check entity =>
      .attempt db (Checks.throwIf (db.intentInFlight = true) (.service settlementPending)) fun _ =>
        { db := db, process := .cancelInvoice options (.save entity), holdsInvoice := true }
  | .save entity =>
      .attempt db (applyTransition false db entity .cancelled options) fun changed =>
        { db := changed, process := .finished none }

def advanceUnderfunded (db : Database) : UnderfundedStage → Outcome
  | .lock =>
      match readUnderfunded db with
      | none => { db := db, process := .finished none }
      | some invoice =>
          { db := db, process := .markUnderfunded (.commit invoice), holdsInvoice := true }
  | .commit invoice =>
      .attempt db (InvoiceMaturity.markUnderfunded db invoice) fun changed =>
        { db := changed, process := .finished none }

def advanceInvoiceEvent (topic : EscrowTopic) (db : Database) : InvoiceEventStage → Outcome
  | .find =>
      match findInvoiceForEvent db topic with
      | none => { db := db, process := .finished none }
      | some entity => { db := db, process := .invoiceEvent topic (.save entity) }
  | .save entity =>
      .attempt db (saveEntity db entity) fun saved => { db := saved, process := .finished none }

def advanceUpload (input : UploadDocumentInput) (environment : Environment) (db : Database) :
    UploadStage → Outcome
  | .find =>
      .attempt db (mapError (rethrown documentUploadFailed) (readToUpload db input))
        fun invoice => { db := db, process := .uploadDocument input (.upload invoice) }
  | .upload invoice =>
      .attempt db (uploadFile environment.upload) fun hash =>
        { db := db, process := .uploadDocument input (.save (uploadedInvoice invoice hash)) }
  | .save entity =>
      .attempt db (mapError (rethrown documentUploadFailed) (saveEntity db entity)) fun saved =>
        { db := saved, process := .finished none }

def advanceUpdate (input : UpdateInvoiceInput) (db : Database) : UpdateStage → Outcome
  | .find =>
      .attempt db (mapError (rethrown invoiceUpdateFailed) (readToUpdate db input)) fun entity =>
        { db := db, process := .updateInvoice input (.save entity) }
  | .save entity =>
      .attempt db (mapError (rethrown invoiceUpdateFailed) (saveEntity db entity)) fun saved =>
        { db := saved, process := .finished none }

def advanceReview (input : ReviewExtensionInput) (environment : Environment) (db : Database) :
    ReviewStage → Outcome
  | .read =>
      .attempt db (readReview db input environment.now) fun writes =>
        { db := db, process := .reviewExtension input (.commit writes) }
  | .commit writes =>
      .attempt db (commitReview db writes) fun reviewed =>
        { db := reviewed, process := .finished none }

/-- The next step of a process, if it has one. -/
def advance (environment : Environment) (db : Database) : Process → Option Outcome
  | .idle => none
  | .finished _ => none
  | .service process =>
      (Machine.advance environment.toEnvironment db process).map Outcome.ofService
  | .funding process => (Funding.advance environment.funding db process).map Outcome.ofFunding
  | .changeStatus request stage => some (advanceStatus request environment db stage)
  | .cancelInvoice options stage => some (advanceCancel options db stage)
  | .markUnderfunded stage => some (advanceUnderfunded db stage)
  | .invoiceEvent topic stage => some (advanceInvoiceEvent topic db stage)
  | .uploadDocument input stage => some (advanceUpload input environment db stage)
  | .updateInvoice input stage => some (advanceUpdate input db stage)
  | .reviewExtension input stage => some (advanceReview input environment db stage)

/-- The next step waits for the invoice row. -/
def needsInvoice : Process → Bool
  | .service process => Machine.needsInvoice process
  | .funding process => Funding.needsInvoice process
  | .changeStatus _ (.save _ _) => true
  | .cancelInvoice _ (.lock _) => true
  | .cancelInvoice _ (.check _) => true
  | .cancelInvoice _ (.save _) => true
  | .markUnderfunded _ => true
  | .invoiceEvent _ (.save _) => true
  | .uploadDocument _ (.save _) => true
  | .updateInvoice _ (.save _) => true
  | .reviewExtension _ (.commit (.approved _ _)) => true
  | _ => false

/-! ## The system -/

structure World where
  db : Database
  holder : Option ℕ := none
  process : ℕ → Process := fun _ => .idle

inductive Action where
  | start (request : Request) (now : Timestamp)
  | advance (environment : Environment)
  | fail (failure : Funding.Failure)

structure Event where
  process : ℕ
  action : Action

/-- The event runs the next piece of code of its process. -/
def Event.advances (event : Event) : Bool :=
  match event.action with
  | .advance _ => true
  | _ => false

/-- The time at which an event runs its piece of code. -/
def Event.now (event : Event) : Timestamp :=
  match event.action with
  | .start _ now => now
  | .advance environment => environment.now
  | .fail _ => 0

def World.apply (world : World) (index : ℕ) (outcome : Outcome) : World :=
  { db := outcome.db
    holder := nextHolder world.holder index outcome.holdsInvoice
    process := setProcess world.process index outcome.process }

/-- No investment has this id: the database generates new ones. -/
def Unused (db : Database) (newId : Uuid) : Prop :=
  ∀ investment ∈ db.investments, investment.id ≠ newId

instance (db : Database) (newId : Uuid) : Decidable (Unused db newId) :=
  inferInstanceAs (Decidable (∀ investment ∈ db.investments, _))

def step (world : World) (event : Event) : Option World :=
  match event.action with
  | .start request now =>
      match world.process event.process with
      | .idle =>
          some (world.apply event.process { db := world.db, process := request.process now })
      | _ => none
  | .advance environment =>
      if needsInvoice (world.process event.process) = true ∧
          ¬Available world.holder event.process then
        none
      else if ¬Unused world.db environment.newId then
        none
      else
        (advance environment world.db (world.process event.process)).map
          (world.apply event.process)
  | .fail failure =>
      some (world.apply event.process
        { db := world.db, process := (world.process event.process).failed failure })

/-- No request is under way. -/
structure Initial (world : World) : Prop where
  noHolder : world.holder = none
  allIdle : ∀ index, world.process index = .idle

theorem initial_of_database (db : Database) : Initial { db := db } := ⟨rfl, fun _ => rfl⟩

/-- Every step applies an outcome: of a start, of a stop, or of the next piece of code
of a process. -/
theorem step_cases {world after : World} {event : Event} (hstep : step world event = some after) :
    (∃ request now, event.action = .start request now ∧
      world.process event.process = .idle ∧
      after = world.apply event.process
        { db := world.db, process := Request.process now request }) ∨
    (∃ environment outcome, event.action = .advance environment ∧
      (needsInvoice (world.process event.process) = true →
        Available world.holder event.process) ∧
      Unused world.db environment.newId ∧
      advance environment world.db (world.process event.process) = some outcome ∧
      after = world.apply event.process outcome) ∨
    (∃ failure, event.action = .fail failure ∧ after = world.apply event.process
      { db := world.db, process := (world.process event.process).failed failure }) := by
  rw [step] at hstep
  split at hstep
  · rename_i request now haction
    split at hstep
    · rename_i hidle
      exact .inl ⟨request, now, haction, hidle, (Option.some.inj hstep).symm⟩
    · cases hstep
  · rename_i environment haction
    split at hstep
    · cases hstep
    · rename_i hfree
      split at hstep
      · cases hstep
      · rename_i hunused
        obtain ⟨outcome, houtcome, hafter⟩ := Option.map_eq_some_iff.mp hstep
        refine .inr (.inl ⟨environment, outcome, haction, fun hneeds => ?_,
          not_not.mp hunused, houtcome, hafter.symm⟩)
        by_contra hheld
        exact hfree ⟨hneeds, hheld⟩
  · rename_i failure haction
    exact .inr (.inr ⟨failure, haction, (Option.some.inj hstep).symm⟩)

end StellarSettle.System
