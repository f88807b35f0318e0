import StellarSettle.Core.Checks
import StellarSettle.Pagination.QueryPagination

/-!
# The notification dispatcher

`NotificationDispatcher` keeps a queue of jobs, runs some of them at a time, retries a job that
fails and gives it up after some attempts.  Its counters and sets are changed by callbacks: of
`setImmediate`, of the promises that a run waits for, of its `finally` and of the retry timers.
These come in any order, and each is one step here.
-/

namespace StellarSettle.NotificationDispatcher

open StellarSettle.Checks
open StellarSettle.Entities (Thrown Timestamp)
open StellarSettle.QueryPagination (toISOString)

/-! ## Events and notifications -/

inductive InvoiceLifecycleEventKind where
  | funded
  | settled
  | rejected
  | approved
  | deadlineExtended
  | matured
  deriving DecidableEq, Repr

def InvoiceLifecycleEventKind.text : InvoiceLifecycleEventKind → String
  | funded => "funded"
  | settled => "settled"
  | rejected => "rejected"
  | approved => "approved"
  | deadlineExtended => "deadline_extended"
  | matured => "matured"

structure InvoiceEventSubject where
  id : String
  sellerId : String
  invoiceNumber : String
  deriving DecidableEq, Repr

/-- A date that is not valid has no time. -/
structure InvoiceLifecycleEvent where
  kind : InvoiceLifecycleEventKind
  invoice : InvoiceEventSubject
  reason : Option String := none
  newDeadline : Option (Option Timestamp) := none
  eventId : Option String := none
  deriving DecidableEq, Repr

inductive NotificationType where
  | invoiceFunded
  | invoiceSettled
  | invoiceRejected
  | invoiceApproved
  | invoiceDeadlineExtended
  | invoiceMatured
  deriving DecidableEq, Repr

structure DedupedNotification where
  userId : String
  type : NotificationType
  title : String
  message : String
  dedupeKey : String
  deriving DecidableEq, Repr

inductive Audience where
  | seller
  | investors
  deriving DecidableEq, Repr

structure EventTemplate where
  type : NotificationType
  audience : List Audience
  title : String
  message : InvoiceLifecycleEvent → Except Thrown String

def dateISOString : Option Timestamp → Except Thrown String
  | none => .error (.rangeError "Invalid time value")
  | some time => .ok (toISOString time)

/-- The end of the message about a deadline. -/
def deadlineText : Option (Option Timestamp) → Except Thrown String
  | none => .ok "."
  | some newDeadline => do
      let text ← dateISOString newDeadline
      return s!" to {String.ofList (text.toList.take 10)}."

def TEMPLATES : InvoiceLifecycleEventKind → EventTemplate
  | .funded =>
      { type := .invoiceFunded
        audience := [.seller, .investors]
        title := "Invoice Funded"
        message := fun event => .ok
          s!"Invoice {event.invoice.invoiceNumber} has been fully funded." }
  | .settled =>
      { type := .invoiceSettled
        audience := [.seller, .investors]
        title := "Invoice Settled"
        message := fun event => .ok
          s!"Invoice {event.invoice.invoiceNumber} has settled and returns have been distributed." }
  | .rejected =>
      { type := .invoiceRejected
        audience := [.seller]
        title := "Invoice Rejected"
        message := fun event => .ok
          (s!"Your invoice {event.invoice.invoiceNumber} has been rejected: " ++
            event.reason.getD "no reason given") }
  | .approved =>
      { type := .invoiceApproved
        audience := [.seller]
        title := "Invoice Approved"
        message := fun event => .ok
          (s!"Your invoice {event.invoice.invoiceNumber} has been approved and is now live on " ++
            "the marketplace.") }
  | .deadlineExtended =>
      { type := .invoiceDeadlineExtended
        audience := [.seller, .investors]
        title := "Invoice Deadline Extended"
        message := fun event => do
          let newDeadline ← deadlineText event.newDeadline
          return s!"The deadline for invoice {event.invoice.invoiceNumber} has been extended" ++
            newDeadline }
  | .matured =>
      { type := .invoiceMatured
        audience := [.seller, .investors]
        title := "Invoice Matured"
        message := fun event => .ok
          s!"Invoice {event.invoice.invoiceNumber} has reached its maturity date." }

/-- An empty id counts as none. -/
def eventIdFor (event : InvoiceLifecycleEvent) : Except Thrown String :=
  match event.eventId.filter (· ≠ "") with
  | some eventId => .ok eventId
  | none =>
      let base := s!"invoice:{event.invoice.id}:{event.kind.text}"
      match event.kind, event.newDeadline with
      | .deadlineExtended, some newDeadline => do
          let text ← dateISOString newDeadline
          return s!"{base}:{text}"
      | _, _ => .ok base

def dedupeKey (eventId userId : String) : String := s!"{eventId}:{userId}"

/-! ## Jobs -/

/-- Jobs are numbered as they are accepted. -/
structure Job where
  number : ℕ
  eventId : String
  event : InvoiceLifecycleEvent
  attempts : ℕ
  deriving DecidableEq, Repr

structure DeadLetter extends Job where
  error : Thrown
  failedAt : Timestamp
  deriving DecidableEq, Repr

def recipients (event : InvoiceLifecycleEvent) (investorIds : List String) : List String :=
  let audience := (TEMPLATES event.kind).audience
  ((if .seller ∈ audience then [event.invoice.sellerId] else []) ++
    if .investors ∈ audience then investorIds else []).eraseDups

/-- What `deliver` writes, once it knows the investors. -/
def entries (job : Job) (investorIds : List String) : Except Thrown (List DedupedNotification) := do
  let template := TEMPLATES job.event.kind
  let message ← template.message job.event
  return (recipients job.event investorIds).map fun userId =>
    { userId := userId
      type := template.type
      title := template.title
      message := message
      dedupeKey := dedupeKey job.eventId userId }

/-- What a run waits for. -/
inductive Phase where
  | findingInvestors
  | writing (entries : List DedupedNotification)
  | failed (error : Thrown)
  | recording
  | finished
  deriving DecidableEq, Repr

/-- The outcome of the job is still open. -/
def Phase.isOpen : Phase → Bool
  | findingInvestors => true
  | writing _ => true
  | failed _ => true
  | recording => false
  | finished => false

structure JobRun where
  job : Job
  phase : Phase
  deriving DecidableEq, Repr

/-- The write begins, unless the message cannot be composed. -/
def writingPhase (job : Job) (investorIds : List String) : Phase :=
  match entries job investorIds with
  | .ok entries => .writing entries
  | .error error => .failed error

/-- `run(job)` as far as it goes at once. -/
def startRun (job : Job) : JobRun :=
  let started := { job with attempts := job.attempts + 1 }
  { job := started
    phase := if .investors ∈ (TEMPLATES job.event.kind).audience then .findingInvestors
      else writingPhase started [] }

/-! ## The store -/

/-- A notification with the event it is about. -/
structure StoredNotification where
  eventId : String
  notification : DedupedNotification
  deriving DecidableEq, Repr

def storedKey (row : StoredNotification) : String := row.notification.dedupeKey

/-- The store has one notification for each dedupe key. -/
structure NotificationStore where
  rows : List StoredNotification
  uniqueKeys : (rows.map storedKey).Nodup

namespace NotificationStore

def insert (store : NotificationStore) (row : StoredNotification) : NotificationStore :=
  if hexists : storedKey row ∈ store.rows.map storedKey then store
  else
    { rows := row :: store.rows
      uniqueKeys := List.nodup_cons.mpr ⟨hexists, store.uniqueKeys⟩ }

def insertIgnoringDuplicates (store : NotificationStore) (eventId : String)
    (entries : List DedupedNotification) : NotificationStore :=
  entries.foldl (fun filled entry => filled.insert ⟨eventId, entry⟩) store

end NotificationStore

/-! ## The dispatcher -/

/-- `retryDelayMs` only sets the pace of the timers. -/
structure Options where
  maxAttempts : ℕ
  concurrency : ℕ
  retryDelayMs : ℕ
  one_le_maxAttempts : 1 ≤ maxAttempts
  one_le_concurrency : 1 ≤ concurrency

/-- A retry timer. -/
structure Retry where
  job : Job
  delayMs : ℕ
  deriving DecidableEq, Repr

/-- What there was when a waiter was resolved. -/
structure Moment where
  waiter : ℕ
  queued : ℕ
  running : ℕ
  retrying : ℕ
  deriving DecidableEq, Repr

/-- The fields of the dispatcher, the callbacks that are outstanding, and what has happened. -/
structure Dispatcher where
  queue : List Job
  pending : List String
  active : ℕ
  idleWaiters : List ℕ
  scheduledRetries : ℕ
  immediates : ℕ
  runs : List JobRun
  retries : List Retry
  store : NotificationStore
  accepted : ℕ
  delivered : List Job
  deadLetters : List DeadLetter
  resolved : List Moment

namespace Dispatcher

def start (store : NotificationStore) : Dispatcher :=
  { queue := [], pending := [], active := 0, idleWaiters := [], scheduledRetries := 0
    immediates := 0, runs := [], retries := [], store := store, accepted := 0
    delivered := [], deadLetters := [], resolved := [] }

def size (dispatcher : Dispatcher) : ℕ :=
  dispatcher.queue.length + dispatcher.active + dispatcher.scheduledRetries

def moment (dispatcher : Dispatcher) (waiter : ℕ) : Moment :=
  { waiter := waiter
    queued := dispatcher.queue.length
    running := dispatcher.runs.length
    retrying := dispatcher.retries.length }

def notifyIfIdle (dispatcher : Dispatcher) : Dispatcher :=
  if 0 < dispatcher.size then dispatcher
  else
    { dispatcher with
      idleWaiters := []
      resolved := dispatcher.resolved ++ dispatcher.idleWaiters.map dispatcher.moment }

/-- The loop of `pump` over the queue. -/
def startJobs (concurrency : ℕ) : List Job → Dispatcher → Dispatcher
  | [], dispatcher => { dispatcher with queue := [] }
  | job :: queue, dispatcher =>
      if dispatcher.active < concurrency then
        startJobs concurrency queue
          { dispatcher with
            active := dispatcher.active + 1
            runs := dispatcher.runs ++ [startRun job] }
      else { dispatcher with queue := job :: queue }

def pump (options : Options) (dispatcher : Dispatcher) : Dispatcher :=
  startJobs options.concurrency dispatcher.queue dispatcher

def enqueue (event : InvoiceLifecycleEvent) (dispatcher : Dispatcher) :
    Except Thrown Dispatcher := do
  let eventId ← eventIdFor event
  if eventId ∈ dispatcher.pending then return dispatcher
  else
    return { dispatcher with
      pending := eventId :: dispatcher.pending
      queue := dispatcher.queue ++
        [{ number := dispatcher.accepted, eventId := eventId, event := event, attempts := 0 }]
      immediates := dispatcher.immediates + 1
      accepted := dispatcher.accepted + 1 }

def drain (waiter : ℕ) (dispatcher : Dispatcher) : Dispatcher :=
  if dispatcher.size = 0 then
    { dispatcher with resolved := dispatcher.resolved ++ [dispatcher.moment waiter] }
  else { dispatcher with idleWaiters := dispatcher.idleWaiters ++ [waiter] }

/-- One run goes on to another phase. -/
def setPhase (index : ℕ) (run : JobRun) (phase : Phase) (dispatcher : Dispatcher) : Dispatcher :=
  { dispatcher with runs := dispatcher.runs.set index { run with phase := phase } }

/-- What `run` does when `deliver` has returned. -/
def finishDelivery (index : ℕ) (run : JobRun) (dispatcher : Dispatcher) : Dispatcher :=
  { dispatcher.setPhase index run .finished with
    pending := dispatcher.pending.filter (· ≠ run.job.eventId)
    delivered := dispatcher.delivered ++ [run.job] }

/-- What `run` does when it has caught an error of `deliver`. -/
def catchFailure (options : Options) (index : ℕ) (run : JobRun) (error : Thrown)
    (now : Timestamp) (dispatcher : Dispatcher) : Dispatcher :=
  if run.job.attempts < options.maxAttempts then
    { dispatcher.setPhase index run .finished with
      scheduledRetries := dispatcher.scheduledRetries + 1
      retries := dispatcher.retries ++
        [⟨run.job, options.retryDelayMs * 2 ^ (run.job.attempts - 1)⟩] }
  else
    { dispatcher.setPhase index run .recording with
      pending := dispatcher.pending.filter (· ≠ run.job.eventId)
      deadLetters := dispatcher.deadLetters ++ [⟨run.job, error, now⟩] }

/-- The `finally` of a run. -/
def settle (options : Options) (index : ℕ) (dispatcher : Dispatcher) : Dispatcher :=
  (pump options { dispatcher with
    active := dispatcher.active - 1
    runs := dispatcher.runs.eraseIdx index }).notifyIfIdle

/-- The callback of a retry timer. -/
def retry (options : Options) (index : ℕ) (timer : Retry) (dispatcher : Dispatcher) : Dispatcher :=
  (pump options { dispatcher with
    scheduledRetries := dispatcher.scheduledRetries - 1
    retries := dispatcher.retries.eraseIdx index
    queue := dispatcher.queue ++ [timer.job] }).notifyIfIdle

end Dispatcher

/-! ## Steps -/

/-- The calls, and the callbacks with what they bring. -/
inductive Callback where
  | enqueue (event : InvoiceLifecycleEvent)
  | drain (waiter : ℕ)
  | immediate
  | investorsFound (index : ℕ) (investorIds : List String)
  | investorsFailed (index : ℕ) (error : Thrown)
  | written (index : ℕ)
  | writeFailed (index : ℕ) (stored : ℕ) (error : Thrown)
  | caught (index : ℕ) (now : Timestamp)
  | recorded (index : ℕ) (sinkError : Option Thrown)
  | settled (index : ℕ)
  | retry (index : ℕ)
  deriving DecidableEq, Repr

/-- Everything but the calls comes from what is outstanding. -/
def Callback.isInternal : Callback → Bool
  | enqueue _ => false
  | drain _ => false
  | _ => true

/-- A write that fails may have stored some of its notifications first.  A failure of the sink is
only logged. -/
def step (options : Options) (dispatcher : Dispatcher) : Callback → Option Dispatcher
  | .enqueue event =>
      match dispatcher.enqueue event with
      | .ok after => some after
      | .error _ => some dispatcher
  | .drain waiter => some (dispatcher.drain waiter)
  | .immediate =>
      if 0 < dispatcher.immediates then
        some (Dispatcher.pump options { dispatcher with immediates := dispatcher.immediates - 1 })
      else none
  | .investorsFound index investorIds =>
      match dispatcher.runs[index]? with
      | some ⟨job, .findingInvestors⟩ =>
          some (dispatcher.setPhase index ⟨job, .findingInvestors⟩ (writingPhase job investorIds))
      | _ => none
  | .investorsFailed index error =>
      match dispatcher.runs[index]? with
      | some ⟨job, .findingInvestors⟩ =>
          some (dispatcher.setPhase index ⟨job, .findingInvestors⟩ (.failed error))
      | _ => none
  | .written index =>
      match dispatcher.runs[index]? with
      | some ⟨job, .writing entries⟩ =>
          some (Dispatcher.finishDelivery index ⟨job, .writing entries⟩
            { dispatcher with
              store := dispatcher.store.insertIgnoringDuplicates job.eventId entries })
      | _ => none
  | .writeFailed index stored error =>
      match dispatcher.runs[index]? with
      | some ⟨job, .writing entries⟩ =>
          some (Dispatcher.setPhase index ⟨job, .writing entries⟩ (.failed error)
            { dispatcher with
              store := dispatcher.store.insertIgnoringDuplicates job.eventId
                (entries.take stored) })
      | _ => none
  | .caught index now =>
      match dispatcher.runs[index]? with
      | some ⟨job, .failed error⟩ =>
          some (dispatcher.catchFailure options index ⟨job, .failed error⟩ error now)
      | _ => none
  | .recorded index _ =>
      match dispatcher.runs[index]? with
      | some ⟨job, .recording⟩ =>
          some (dispatcher.setPhase index ⟨job, .recording⟩ .finished)
      | _ => none
  | .settled index =>
      match dispatcher.runs[index]? with
      | some ⟨_, .finished⟩ => some (dispatcher.settle options index)
      | _ => none
  | .retry index =>
      match dispatcher.retries[index]? with
      | some timer => some (dispatcher.retry options index timer)
      | none => none

end StellarSettle.NotificationDispatcher
