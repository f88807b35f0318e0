import StellarSettle.Core.Checks
import StellarSettle.Core.OldestFirst
import StellarSettle.Core.TransitionSystem
import StellarSettle.Projections.EventReader

/-!
# Confirmation of submitted transactions

A caller polls the RPC server for the transaction it has submitted.  When it gives up, it queues
the transaction in a table, and workers poll for what is queued.  Callers, workers and the ledger
take their steps in any order, and every query and every request may fail.
-/

namespace StellarSettle.PendingConfirmations

open StellarSettle.Checks
open StellarSettle.Entities (Timestamp)
open StellarSettle.EventReader (trimText)
open StellarSettle.OldestFirst (batch)
open StellarSettle.TransitionSystem
open StellarSettle.UniqueColumns (StorageOrder)

/-! ## Data -/

/-- What a ledger records of a transaction. -/
inductive Outcome where
  | success (ledger : ℕ)
  | failed
  deriving DecidableEq, Repr

/-- The transactions that are in a ledger. -/
abbrev Chain := String → Option Outcome

/-- The answer of `getTransaction`: a status that is a text or something else, and the ledger
where the answer has one. -/
structure GetTransaction where
  status : Option String
  ledger : Option ℕ
  deriving DecidableEq, Repr

inductive ConfirmationStatus where
  | success
  | failed
  | notFound
  deriving DecidableEq, Repr

structure Confirmation where
  status : ConfirmationStatus
  ledger : Option ℕ
  deriving DecidableEq, Repr

inductive PendingStellarTransactionStatus where
  | pendingConfirmation
  | completed
  | failed
  deriving DecidableEq, Repr

structure PendingStellarTransaction where
  stellarTxHash : String
  contractId : String
  status : PendingStellarTransactionStatus
  submittedAt : Timestamp
  lastCheckedAt : Option Timestamp
  confirmedLedger : Option String
  failureReason : Option String
  createdAt : Timestamp
  deriving DecidableEq, Repr

inductive ErrorCode where
  | invalidInput
  | rpcNotConfigured
  | transactionConfirmationTimeout
  | pendingConfirmationPersistenceUnavailable
  | pendingConfirmationPersistenceFailed
  | onChainSettlementFailed
  | onChainSettlementTimeout
  deriving DecidableEq, Repr

inductive ErrorDetails where
  | none
  | field (name : String)
  | txHash (txHash : String)
  | timeout (txHash : String) (attempts : ℕ) (pollMs : ℕ) (lastLedger : Option ℕ)
  | transactionHash (transactionHash : String)
  deriving DecidableEq, Repr

structure ServiceError where
  code : ErrorCode
  message : String
  statusCode : ℕ
  details : ErrorDetails := .none
  deriving DecidableEq, Repr

structure EscrowConfig where
  contractId : String
  hasRpcServer : Bool := true
  hasDataSource : Bool := true
  confirmationPollMs : ℕ := 1000
  confirmationAttempts : ℕ := 20
  batchSize : ℕ

/-! ## Reading an answer -/

def isRequired (fieldName : String) : ServiceError :=
  { code := .invalidInput, message := fieldName ++ " is required.", statusCode := 400
    details := .field fieldName }

def sanitizeString (value fieldName : String) : Except ServiceError String :=
  if trimText value = "" then .error (isRequired fieldName) else .ok (trimText value)

def extractStatus (result : GetTransaction) : ConfirmationStatus :=
  if result.status = some "SUCCESS" then .success
  else if result.status = some "FAILED" then .failed
  else .notFound

def rpcNotConfigured : ServiceError :=
  { code := .rpcNotConfigured
    message := "Soroban RPC server is not configured for transaction confirmation polling."
    statusCode := 503 }

/-- `getTransactionStatus`, where `answer` is what the RPC server answers. -/
def getTransactionStatus (config : EscrowConfig) (txHash : String)
    (answer : Option GetTransaction) : Option Confirmation := do
  guard config.hasRpcServer
  let _ ← (sanitizeString txHash "txHash").toOption
  let result ← answer
  let status := extractStatus result
  return ⟨status, if status = .notFound then none else result.ledger⟩

/-! ## Waiting -/

/-- A call of `waitForTransactionConfirmation`. -/
inductive Wait where
  | idle
  | polling (txHash : String) (attempt : ℕ)
  | recording (txHash : String)
  | returned (txHash : String) (confirmation : Confirmation)
  | thrown (error : ServiceError)
  deriving DecidableEq, Repr

def persistenceUnavailable (txHash : String) : ServiceError :=
  { code := .pendingConfirmationPersistenceUnavailable
    message := "The transaction confirmation timed out, but pending state could not be persisted."
    statusCode := 503
    details := .txHash txHash }

def persistenceFailed (txHash : String) : ServiceError :=
  { code := .pendingConfirmationPersistenceFailed
    message :=
      "The transaction confirmation timed out and could not be queued for reconciliation."
    statusCode := 500
    details := .txHash txHash }

def confirmationTimeout (config : EscrowConfig) (txHash : String) : ServiceError :=
  { code := .transactionConfirmationTimeout
    message := "Timed out waiting for transaction confirmation on-chain."
    statusCode := 504
    details := .timeout txHash config.confirmationAttempts config.confirmationPollMs none }

section Waiting

variable (config : EscrowConfig)

/-- `recordPendingConfirmation` before its insertion. -/
def recordPendingConfirmation (txHash : String) : Wait :=
  if config.hasDataSource then .recording txHash else .thrown (persistenceUnavailable txHash)

/-- The head of the polling loop. -/
def pollAgain (txHash : String) (attempt : ℕ) : Wait :=
  if attempt < config.confirmationAttempts then .polling txHash attempt
  else recordPendingConfirmation config txHash

def waitForTransactionConfirmation (txHash : String) : Wait :=
  if config.hasRpcServer then
    match sanitizeString txHash "txHash" with
    | .error error => .thrown error
    | .ok safeTxHash => pollAgain config safeTxHash 0
  else .thrown rpcNotConfigured

/-- The body of the polling loop, once the RPC server has answered or failed. -/
def receive (txHash : String) (attempt : ℕ) : Option GetTransaction → Wait
  | none => pollAgain config txHash (attempt + 1)
  | some result =>
      match extractStatus result with
      | .success => .returned txHash ⟨.success, result.ledger⟩
      | .failed => .returned txHash ⟨.failed, none⟩
      | .notFound => pollAgain config txHash (attempt + 1)

end Waiting

def settlementFailed (txHash : String) : ServiceError :=
  { code := .onChainSettlementFailed
    message := "On-chain settlement transaction failed"
    statusCode := 502
    details := .transactionHash txHash }

def settlementTimeout : ServiceError :=
  { code := .onChainSettlementTimeout
    message := "Timed out waiting for on-chain settlement confirmation"
    statusCode := 504 }

/-- What `settleEscrowOnChain` makes of the confirmation it has waited for. -/
def settlementResult (txHash : String) (confirmation : Confirmation) :
    Except ServiceError (String × Option ℕ) :=
  match confirmation.status with
  | .failed => .error (settlementFailed txHash)
  | .notFound => .error settlementTimeout
  | .success => .ok (txHash, confirmation.ledger)

/-! ## The table -/

structure PendingTable where
  rows : List PendingStellarTransaction
  uniqueHashes : (rows.map PendingStellarTransaction.stellarTxHash).Nodup

namespace PendingTable

def empty : PendingTable := ⟨[], List.nodup_nil⟩

/-- `INSERT ... ON CONFLICT DO NOTHING`. -/
def insertOrIgnore (table : PendingTable) (row : PendingStellarTransaction) : PendingTable :=
  if hstored : row.stellarTxHash ∈ table.rows.map PendingStellarTransaction.stellarTxHash then table
  else
    { rows := table.rows ++ [row]
      uniqueHashes := by
        rw [List.map_append, List.nodup_append]
        refine ⟨table.uniqueHashes, List.nodup_singleton _, ?_⟩
        intro hash hhash other hother hsame
        rw [List.map_cons, List.map_nil, List.mem_singleton] at hother
        exact hstored (hother ▸ hsame ▸ hhash) }

def IsPending (row : PendingStellarTransaction) : Prop := row.status = .pendingConfirmation

instance (row : PendingStellarTransaction) : Decidable (IsPending row) :=
  inferInstanceAs (Decidable (_ = _))

/-- `update({ stellarTxHash, status: "PENDING_CONFIRMATION" }, ...)`, where `change` sets columns
other than the hash. -/
def updatePending (table : PendingTable) (txHash : String)
    (change : PendingStellarTransaction → PendingStellarTransaction)
    (hkey : ∀ row, (change row).stellarTxHash = row.stellarTxHash) : PendingTable where
  rows := table.rows.map fun row =>
    if row.stellarTxHash = txHash ∧ IsPending row then change row else row
  uniqueHashes := by
    have hhashes : (table.rows.map fun row =>
        if row.stellarTxHash = txHash ∧ IsPending row then change row else row).map
          PendingStellarTransaction.stellarTxHash =
        table.rows.map PendingStellarTransaction.stellarTxHash := by
      rw [List.map_map]
      refine List.map_congr_left fun row _ => ?_
      rw [Function.comp_apply]
      split
      · exact hkey row
      · rfl
    rw [hhashes]
    exact table.uniqueHashes

def byCreatedAt (left right : PendingStellarTransaction) : Ordering :=
  compare left.createdAt right.createdAt

/-- `find({ where: { status }, order: { createdAt: "ASC" }, take })`.  Rows of one time come in any
order. -/
def findPending (table : PendingTable) (order : StorageOrder PendingStellarTransaction)
    (batchSize : ℕ) : List PendingStellarTransaction :=
  batch byCreatedAt order (table.rows.filter fun row => IsPending row) batchSize

end PendingTable

/-! ## The worker -/

/-- A worker between and within its ticks. -/
inductive Tick where
  | idle
  | loading
  | checking (transaction : PendingStellarTransaction) (rest : List PendingStellarTransaction)
  | updating (transaction : PendingStellarTransaction) (rest : List PendingStellarTransaction)
      (confirmation : Confirmation)
  deriving DecidableEq, Repr

def nextChecked : List PendingStellarTransaction → Tick
  | [] => .idle
  | transaction :: rest => .checking transaction rest

def failureText : String := "Soroban RPC reported that the transaction failed."

/-- The columns of `update`. -/
def reconciled (confirmation : Confirmation) (now : Timestamp) (row : PendingStellarTransaction) :
    PendingStellarTransaction :=
  match confirmation.status with
  | .success =>
      { row with
        lastCheckedAt := some now
        status := .completed
        confirmedLedger := confirmation.ledger.map Nat.repr }
  | .failed =>
      { row with
        lastCheckedAt := some now
        status := .failed
        failureReason := some failureText }
  | .notFound => { row with lastCheckedAt := some now }

@[simp]
theorem reconciled_stellarTxHash (confirmation : Confirmation) (now : Timestamp)
    (row : PendingStellarTransaction) :
    (reconciled confirmation now row).stellarTxHash = row.stellarTxHash := by
  unfold reconciled
  split <;> rfl

@[simp]
theorem reconciled_createdAt (confirmation : Confirmation) (now : Timestamp)
    (row : PendingStellarTransaction) :
    (reconciled confirmation now row).createdAt = row.createdAt := by
  unfold reconciled
  split <;> rfl

def PendingTable.reconcile (table : PendingTable) (txHash : String) (confirmation : Confirmation)
    (now : Timestamp) : PendingTable :=
  table.updatePending txHash (reconciled confirmation now) (reconciled_stellarTxHash _ _)

/-! ## The system -/

structure World (Index : Type) where
  chain : Chain
  table : PendingTable
  wait : Index → Wait
  tick : Index → Tick

/-- A step of the ledger, of a call or of a worker.  A lost query has run, but its caller sees an
error. -/
inductive Event (Index : Type) where
  | applied (txHash : String) (outcome : Outcome)
  | waitStarts (call : Index) (txHash : String)
  | polled (call : Index) (answer : Option GetTransaction)
  | recorded (call : Index) (submittedAt createdAt : Timestamp)
  | recordFails (call : Index) (submittedAt createdAt : Timestamp) (stored : Bool)
  | tickStarts (worker : Index)
  | tickLoads (worker : Index) (order : StorageOrder PendingStellarTransaction)
  | tickLoadFails (worker : Index)
  | checked (worker : Index) (answer : Option GetTransaction)
  | updated (worker : Index) (now : Timestamp)
  | updateFails (worker : Index) (now : Timestamp) (stored : Bool)

/-- The row that is queued for a transaction. -/
def pendingRow (config : EscrowConfig) (txHash : String) (submittedAt createdAt : Timestamp) :
    PendingStellarTransaction :=
  { stellarTxHash := txHash
    contractId := config.contractId
    status := .pendingConfirmation
    submittedAt := submittedAt
    lastCheckedAt := none
    confirmedLedger := none
    failureReason := none
    createdAt := createdAt }

section Steps

variable {Index : Type} [DecidableEq Index] (config : Index → EscrowConfig)

namespace World

def setWait (world : World Index) (call : Index) (next : Wait) : World Index :=
  { world with wait := setProcess world.wait call next }

def setTick (world : World Index) (worker : Index) (next : Tick) : World Index :=
  { world with tick := setProcess world.tick worker next }

end World

/-- The worker goes on after the answer about `transaction`. -/
def afterCheck (config : EscrowConfig) (transaction : PendingStellarTransaction)
    (rest : List PendingStellarTransaction) (answer : Option GetTransaction) : Tick :=
  match getTransactionStatus config transaction.stellarTxHash answer with
  | none => nextChecked rest
  | some confirmation => .updating transaction rest confirmation

/-- The insertion of a call that has timed out. -/
def stepRecord (world : World Index) (call : Index) (submittedAt createdAt : Timestamp)
    (stored : Bool) (error : String → ServiceError) : Option (World Index) :=
  match world.wait call with
  | .recording txHash =>
      let row := pendingRow (config call) txHash submittedAt createdAt
      let next := world.setWait call (.thrown (error txHash))
      some (if stored then { next with table := world.table.insertOrIgnore row } else next)
  | _ => none

/-- The update of a worker that knows the status. -/
def stepUpdate (world : World Index) (worker : Index) (now : Timestamp) (stored : Bool) :
    Option (World Index) :=
  match world.tick worker with
  | .updating transaction rest confirmation =>
      let next := world.setTick worker (nextChecked rest)
      some (if stored then
        { next with table := world.table.reconcile transaction.stellarTxHash confirmation now }
      else next)
  | _ => none

def step (world : World Index) : Event Index → Option (World Index)
  | .applied txHash outcome =>
      if world.chain txHash = none then
        some { world with chain := Function.update world.chain txHash (some outcome) }
      else none
  | .waitStarts call txHash =>
      if world.wait call = .idle then
        some (world.setWait call (waitForTransactionConfirmation (config call) txHash))
      else none
  | .polled call answer =>
      match world.wait call with
      | .polling txHash attempt =>
          some (world.setWait call (receive (config call) txHash attempt answer))
      | _ => none
  | .recorded call submittedAt createdAt =>
      stepRecord config world call submittedAt createdAt true (confirmationTimeout (config call))
  | .recordFails call submittedAt createdAt stored =>
      stepRecord config world call submittedAt createdAt stored persistenceFailed
  | .tickStarts worker =>
      if world.tick worker = .idle then some (world.setTick worker .loading) else none
  | .tickLoads worker order =>
      if world.tick worker = .loading then
        some (world.setTick worker
          (nextChecked (world.table.findPending order (config worker).batchSize)))
      else none
  | .tickLoadFails worker =>
      if world.tick worker = .loading then some (world.setTick worker .idle) else none
  | .checked worker answer =>
      match world.tick worker with
      | .checking transaction rest =>
          some (world.setTick worker (afterCheck (config worker) transaction rest answer))
      | _ => none
  | .updated worker now => stepUpdate world worker now true
  | .updateFails worker now stored => stepUpdate world worker now stored

end Steps

/-- An answer that says success or failure says what the ledger has recorded. -/
def Reflects : Option Outcome → GetTransaction → Prop
  | none, answer => answer.status ≠ some "SUCCESS" ∧ answer.status ≠ some "FAILED"
  | some (.success ledger), answer => answer.status ≠ some "FAILED" ∧
      (answer.status = some "SUCCESS" → ∀ named ∈ answer.ledger, named = ledger)
  | some .failed, answer => answer.status ≠ some "SUCCESS"

instance : ∀ recorded answer, Decidable (Reflects recorded answer)
  | none, _ => inferInstanceAs (Decidable (_ ∧ _))
  | some (.success _), _ => inferInstanceAs (Decidable (_ ∧ _))
  | some .failed, _ => inferInstanceAs (Decidable (_ ≠ _))

section Honesty

variable {Index : Type}

/-- The transaction that a call or a worker is asking for. -/
def World.asks (world : World Index) : Event Index → Option String
  | .polled call _ =>
      match world.wait call with
      | .polling txHash _ => some txHash
      | _ => none
  | .checked worker _ =>
      match world.tick worker with
      | .checking transaction _ => some (trimText transaction.stellarTxHash)
      | _ => none
  | _ => none

def Event.answer : Event Index → Option GetTransaction
  | .polled _ answer | .checked _ answer => answer
  | _ => none

/-- The RPC server answers from the ledger. -/
def Honest (world : World Index) (event : Event Index) : Prop :=
  ∀ txHash ∈ world.asks event, ∀ result ∈ event.answer, Reflects (world.chain txHash) result

instance (world : World Index) (event : Event Index) : Decidable (Honest world event) :=
  inferInstanceAs (Decidable (∀ txHash ∈ world.asks event, _))

end Honesty

def initial {Index : Type} : World Index where
  chain _ := none
  table := .empty
  wait _ := .idle
  tick _ := .idle

end StellarSettle.PendingConfirmations
