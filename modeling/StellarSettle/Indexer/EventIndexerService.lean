import StellarSettle.Indexer.ContractEventBus

/-!
# The event indexer

`pollContractEvents`, `ingestEvents` and `saveCheckpoint` of one service, each cut at
its awaits.  The fields of the service are shared by all of its calls; the event log
and the checkpoint are shared by all services of the same contracts.
-/

namespace StellarSettle.EventIndexerService

open StellarSettle.ContractEventBus

variable {Value : Type}

/-! ## Tables -/

/-- The columns of `soroban_event_logs` that the service reads back. -/
structure SorobanEventLog where
  contractId : String
  eventId : Option String
  ledgerSequence : ℕ
  processed : Bool
  deriving DecidableEq, Repr

/-- What has been done for an event so far. -/
inductive Effect where
  | transition
  | insights
  | handled (handler : ContractEventHandler) (succeeded : Bool)
  | ingested
  deriving DecidableEq, Repr

/-- The effects so far, oldest first. -/
abbrev History (Value : Type) := List (DecodedSorobanEvent Value × Effect)

/-- The checkpoint is the row of the services' own key.  The history is kept for the
results only; nothing reads it. -/
structure Store (Value : Type) where
  eventLogs : List SorobanEventLog := []
  checkpoint : Option ℕ := none
  history : History Value := []

/-- The fields of the service. -/
structure Indexer where
  lastIndexedLedger : ℕ := 0
  latestObservedLedger : ℕ := 0
  latestLedgerSeen : ℕ := 0
  lagAlertActive : Bool := false
  deriving DecidableEq, Repr

structure Config where
  eventBus : Registry
  lagAlertThresholdLedgers : ℕ := 100

/-- `event.id || ...`, the id of the event's log row. -/
def eventKey (event : DecodedSorobanEvent Value) : String :=
  let txHash := event.txHash.getD "null"
  if event.id ≠ "" then event.id else s!"{txHash}:{event.topic}:{event.ledger}"

theorem eventKey_ne_empty (event : DecodedSorobanEvent Value) : eventKey event ≠ "" := by
  rw [eventKey]
  split
  · assumption
  · intro hempty
    have hlength := congrArg String.length hempty
    simp [String.length_append] at hlength

/-- `findOne({ where: { eventId } })`. -/
def findLog (store : Store Value) (eventId : String) : Option SorobanEventLog :=
  store.eventLogs.find? fun row => row.eventId == some eventId

/-- `findOne({ where: { contractId, eventId } })`. -/
def findContractLog (store : Store Value) (contractId eventId : String) :
    Option SorobanEventLog :=
  store.eventLogs.find? fun row => row.contractId == contractId && row.eventId == some eventId

/-- `update({ eventId }, { processed })`. -/
def updateProcessed (store : Store Value) (eventId : String) (processed : Bool) : Store Value :=
  { store with
    eventLogs := store.eventLogs.map fun row =>
      if row.eventId = some eventId then { row with processed := processed } else row }

def insertLog (store : Store Value) (event : DecodedSorobanEvent Value) : Store Value :=
  { store with
    eventLogs := store.eventLogs ++ [{
      contractId := event.contractId
      eventId := some (eventKey event)
      ledgerSequence := event.ledger
      processed := false }] }

def record (store : Store Value) (event : DecodedSorobanEvent Value) (effect : Effect) :
    Store Value :=
  { store with history := store.history ++ [(event, effect)] }

/-- `findOne({ order: { ledgerSequence: "DESC" } })`. -/
def newestLedger (store : Store Value) : Option ℕ :=
  (store.eventLogs.map SorobanEventLog.ledgerSequence).max?

/-! ## Calls -/

/-- `getLastIndexedLedger`: the field, else the checkpoint, else the newest log row. -/
inductive LedgerRead where
  | memory
  | checkpoint
  | eventLog
  | found (ledger : ℕ)
  deriving DecidableEq, Repr

def readLedger (store : Store Value) (indexer : Indexer) :
    LedgerRead → Indexer × (LedgerRead ⊕ ℕ)
  | .memory =>
      if 0 < indexer.lastIndexedLedger then (indexer, .inr indexer.lastIndexedLedger)
      else (indexer, .inl .checkpoint)
  | .checkpoint =>
      match store.checkpoint with
      | some ledger => (indexer, .inl (.found ledger))
      | none => (indexer, .inl .eventLog)
  | .eventLog =>
      match newestLedger store with
      | some ledger => (indexer, .inl (.found ledger))
      | none => (indexer, .inr 0)
  | .found ledger => ({ indexer with lastIndexedLedger := ledger }, .inr ledger)

structure PollEventsOptions where
  startLedger : Option ℕ := none
  cursor : Option String := none
  deriving DecidableEq, Repr

/-- A page of `getEvents`. -/
structure Response (Value : Type) where
  events : List (DecodedSorobanEvent Value) := []
  latestLedger : Option ℕ := none
  cursor : Option String := none

/-- The pages read so far; `reported` is the largest ledger that they reported. -/
structure Walk (Value : Type) where
  startLedger : ℕ
  cursor : Option String
  seenCursors : List String := []
  decodedEvents : List (DecodedSorobanEvent Value) := []
  reported : ℕ := 0

def Walk.read (walk : Walk Value) (response : Response Value) : Walk Value :=
  { walk with
    decodedEvents := walk.decodedEvents ++ response.events
    reported := max walk.reported (response.latestLedger.getD 0) }

/-- The page has no further cursor, or repeats the one it was asked with. -/
def Walk.Ends (walk : Walk Value) (response : Response Value) : Prop :=
  ∀ nextCursor ∈ response.cursor.filter (· ≠ ""), walk.cursor = some nextCursor

instance (walk : Walk Value) (response : Response Value) : Decidable (walk.Ends response) :=
  inferInstanceAs (Decidable (∀ nextCursor ∈ Option.filter _ _, _))

/-- The service has seen the page's latest ledger. -/
def Indexer.observe (indexer : Indexer) (response : Response Value) : Indexer :=
  { indexer with
    latestObservedLedger := max indexer.latestObservedLedger (response.latestLedger.getD 0)
    latestLedgerSeen := max indexer.latestLedgerSeen (response.latestLedger.getD 0) }

/-- The alert for a service that is behind. -/
def Indexer.checkLag (config : Config) (indexer : Indexer) (lastIndexedLedger : ℕ) : Indexer :=
  if config.lagAlertThresholdLedgers ≤ indexer.latestLedgerSeen - lastIndexedLedger then
    { indexer with lagAlertActive := true }
  else { indexer with lagAlertActive := false }

inductive PollStage (Value : Type) where
  | start (read : LedgerRead)
  | pages (walk : Walk Value)
  | lag (walk : Walk Value) (read : LedgerRead)

/-- A call of `ingestEvents`: its argument, what its own poll reported, what
`lastIndexedLedger` was when it began, and its counters. -/
structure Ingestion (Value : Type) where
  batch : List (DecodedSorobanEvent Value)
  reported : ℕ
  startedAt : ℕ
  processedCount : ℕ
  highestProcessedLedger : ℕ

inductive IngestStage (Value : Type) where
  | next (remaining : List (DecodedSorobanEvent Value))
  | findEvent (existingLog : Option SorobanEventLog) (event : DecodedSorobanEvent Value)
      (remaining : List (DecodedSorobanEvent Value))
  | save (existingLog : Option SorobanEventLog) (event : DecodedSorobanEvent Value)
      (remaining : List (DecodedSorobanEvent Value))
  | transition (event : DecodedSorobanEvent Value)
      (remaining : List (DecodedSorobanEvent Value))
  | insights (event : DecodedSorobanEvent Value) (remaining : List (DecodedSorobanEvent Value))
  | dispatch (handlers : List ContractEventHandler) (event : DecodedSorobanEvent Value)
      (remaining : List (DecodedSorobanEvent Value))
  | mark (event : DecodedSorobanEvent Value) (remaining : List (DecodedSorobanEvent Value))
  | checkpoint (ledger : ℕ)
  | finish (ledger : ℕ)

inductive SaveStage where
  | check
  | find
  | save
  | finish

inductive Result (Value : Type) where
  | polled (events : List (DecodedSorobanEvent Value))
  | ingested (processedCount : ℕ)
  | saved
  | thrown (message : String)

/-- `thenIngest` says that the caller hands what it polled to `ingestEvents`. -/
inductive Process (Value : Type) where
  | idle
  | ended (result : Result Value)
  | pollContractEvents (thenIngest : Bool) (options : PollEventsOptions)
      (stage : PollStage Value)
  | ingestEvents (call : Ingestion Value) (stage : IngestStage Value)
  | saveCheckpoint (ledgerSequence : ℤ) (stage : SaveStage)

/-- The synchronous start of `ingestEvents`. -/
def beginIngest (indexer : Indexer) (reported : ℕ) (events : List (DecodedSorobanEvent Value)) :
    Process Value :=
  .ingestEvents
    { batch := events
      reported := reported
      startedAt := indexer.lastIndexedLedger
      processedCount := 0
      highestProcessedLedger := indexer.lastIndexedLedger } (.next events)

inductive Request (Value : Type) where
  | pollContractEvents (thenIngest : Bool) (options : PollEventsOptions)
  | ingestEvents (events : List (DecodedSorobanEvent Value))
  | saveCheckpoint (ledgerSequence : ℤ)

def Request.process (indexer : Indexer) : Request Value → Process Value
  | .pollContractEvents thenIngest options =>
      .pollContractEvents thenIngest options (.start .memory)
  | .ingestEvents events => beginIngest indexer 0 events
  | .saveCheckpoint ledgerSequence => .saveCheckpoint ledgerSequence .check

/-! ## Steps -/

/-- What the outside answers: the RPC server with a page, a handler with success. -/
structure Environment (Value : Type) where
  response : Response Value := {}
  handlerSucceeds : Bool := true

structure Outcome (Value : Type) where
  store : Store Value
  indexer : Indexer
  process : Process Value

/-- The poll returns. -/
def endPoll (store : Store Value) (indexer : Indexer) (thenIngest : Bool) (walk : Walk Value) :
    Outcome Value :=
  { store := store
    indexer := indexer
    process :=
      if thenIngest ∧ walk.decodedEvents ≠ [] then
        beginIngest indexer walk.reported walk.decodedEvents
      else .ended (.polled walk.decodedEvents) }

def advancePoll (config : Config) (environment : Environment Value) (store : Store Value)
    (indexer : Indexer) (thenIngest : Bool) (options : PollEventsOptions) :
    PollStage Value → Outcome Value
  | .start read =>
      match options.startLedger with
      | some startLedger =>
          { store := store, indexer := indexer
            process := .pollContractEvents thenIngest options
              (.pages { startLedger := startLedger, cursor := options.cursor }) }
      | none =>
          match readLedger store indexer read with
          | (after, .inl next) =>
              { store := store, indexer := after
                process := .pollContractEvents thenIngest options (.start next) }
          | (after, .inr ledger) =>
              { store := store, indexer := after
                process := .pollContractEvents thenIngest options
                  (.pages { startLedger := ledger + 1, cursor := options.cursor }) }
  | .pages walk =>
      let response := environment.response
      let after := indexer.observe response
      let read := walk.read response
      match response.cursor.filter (· ≠ "") with
      | none =>
          { store := store, indexer := after
            process := .pollContractEvents thenIngest options (.lag read .memory) }
      | some nextCursor =>
          if walk.cursor = some nextCursor then
            { store := store, indexer := after
              process := .pollContractEvents thenIngest options (.lag read .memory) }
          else if nextCursor ∈ walk.seenCursors then
            { store := store, indexer := after
              process := .ended (.thrown "Soroban RPC returned a repeated event cursor.") }
          else
            { store := store, indexer := after
              process := .pollContractEvents thenIngest options
                (.pages { read with
                  cursor := some nextCursor
                  seenCursors := nextCursor :: walk.seenCursors }) }
  | .lag walk read =>
      match readLedger store indexer read with
      | (after, .inl next) =>
          { store := store, indexer := after
            process := .pollContractEvents thenIngest options (.lag walk next) }
      | (after, .inr ledger) => endPoll store (after.checkLag config ledger) thenIngest walk

/-- The loop goes on; the event's ledger counts unless only its contract's row was found
processed. -/
def Ingestion.count (call : Ingestion Value) (ledger : Option ℕ) : Ingestion Value :=
  { call with
    processedCount := call.processedCount + 1
    highestProcessedLedger := max call.highestProcessedLedger (ledger.getD 0) }

def duplicateKey : String := "QueryFailedError: duplicate key value violates unique constraint"

def advanceIngest (config : Config) (environment : Environment Value) (store : Store Value)
    (indexer : Indexer) (call : Ingestion Value) : IngestStage Value → Outcome Value
  | .next (event :: remaining) =>
      let existingLog := findLog store (eventKey event)
      if existingLog.any SorobanEventLog.processed then
        { store := record store event .ingested, indexer := indexer
          process := .ingestEvents (call.count (some event.ledger)) (.next remaining) }
      else
        { store := store, indexer := indexer
          process := .ingestEvents call (.findEvent existingLog event remaining) }
  | .findEvent existingLog event remaining =>
      if (findContractLog store event.contractId event.id).any SorobanEventLog.processed then
        { store := record store event .ingested, indexer := indexer
          process := .ingestEvents (call.count none) (.next remaining) }
      else
        { store := store, indexer := indexer
          process := .ingestEvents call (.save existingLog event remaining) }
  | .save (some _) event remaining =>
      { store := updateProcessed store (eventKey event) false, indexer := indexer
        process := .ingestEvents call (.transition event remaining) }
  | .save none event remaining =>
      if (findContractLog store event.contractId (eventKey event)).isSome then
        { store := store, indexer := indexer, process := .ended (.thrown duplicateKey) }
      else
        { store := insertLog store event, indexer := indexer
          process := .ingestEvents call (.transition event remaining) }
  | .transition event remaining =>
      { store := record store event .transition, indexer := indexer
        process := .ingestEvents call (.insights event remaining) }
  | .insights event remaining =>
      { store := record store event .insights, indexer := indexer
        process := .ingestEvents call
          (.dispatch (handlersFor config.eventBus event.topic) event remaining) }
  -- A handler that fails is logged and skipped.
  | .dispatch (handler :: handlers) event remaining =>
      { store := record store event (.handled handler environment.handlerSucceeds)
        indexer := indexer
        process := .ingestEvents call (.dispatch handlers event remaining) }
  | .dispatch [] event remaining =>
      { store := store, indexer := indexer
        process := .ingestEvents call (.mark event remaining) }
  | .mark event remaining =>
      { store := record (updateProcessed store (eventKey event) true) event .ingested
        indexer := indexer
        process := .ingestEvents (call.count (some event.ledger)) (.next remaining) }
  | .next [] =>
      let checkpointLedger := max call.highestProcessedLedger indexer.latestObservedLedger
      { store := store
        indexer := { indexer with lastIndexedLedger := call.highestProcessedLedger }
        process :=
          if 0 < checkpointLedger then .ingestEvents call (.checkpoint checkpointLedger)
          else .ended (.ingested call.processedCount) }
  | .checkpoint ledger =>
      { store := { store with checkpoint := some ledger }, indexer := indexer
        process := .ingestEvents call (.finish ledger) }
  | .finish ledger =>
      { store := store, indexer := { indexer with lastIndexedLedger := ledger }
        process := .ended (.ingested call.processedCount) }

def advanceSave (store : Store Value) (indexer : Indexer) (ledgerSequence : ℤ) :
    SaveStage → Outcome Value
  | .check =>
      if ledgerSequence < 0 then
        { store := store, indexer := indexer
          process := .ended (.thrown "ledgerSequence must be a non-negative integer.") }
      else { store := store, indexer := indexer, process := .saveCheckpoint ledgerSequence .find }
  | .find =>
      if ledgerSequence ≤ store.checkpoint.getD 0 then
        { store := store, indexer := indexer, process := .ended .saved }
      else { store := store, indexer := indexer, process := .saveCheckpoint ledgerSequence .save }
  | .save =>
      { store := { store with checkpoint := some ledgerSequence.toNat }, indexer := indexer
        process := .saveCheckpoint ledgerSequence .finish }
  | .finish =>
      { store := store
        indexer :=
          { indexer with lastIndexedLedger := max indexer.lastIndexedLedger ledgerSequence.toNat }
        process := .ended .saved }

/-- The next step of a call, if it has one. -/
def advance (config : Config) (environment : Environment Value) (store : Store Value)
    (indexer : Indexer) : Process Value → Option (Outcome Value)
  | .idle => none
  | .ended _ => none
  | .pollContractEvents thenIngest options stage =>
      some (advancePoll config environment store indexer thenIngest options stage)
  | .ingestEvents call stage =>
      some (advanceIngest config environment store indexer call stage)
  | .saveCheckpoint ledgerSequence stage =>
      some (advanceSave store indexer ledgerSequence stage)

/-! ## What a call has left -/

/-- The events that the loop has not been through yet. -/
def pending : IngestStage Value → List (DecodedSorobanEvent Value)
  | .next remaining => remaining
  | .findEvent _ event remaining => event :: remaining
  | .save _ event remaining => event :: remaining
  | .transition event remaining => event :: remaining
  | .insights event remaining => event :: remaining
  | .dispatch _ event remaining => event :: remaining
  | .mark event remaining => event :: remaining
  | .checkpoint _ => []
  | .finish _ => []

def isOver : Process Value → Bool
  | .idle => true
  | .ended _ => true
  | _ => false

/-- The ingestion that has handled its events and is about to store a ledger. -/
def finishing : Process Value → Option (Ingestion Value)
  | .ingestEvents call (.next []) => some call
  | _ => none

/-! ## What a step does -/

/-- Every step of a poll, read off once. -/
inductive PollMoves (config : Config) (response : Response Value) (store : Store Value)
    (indexer : Indexer) (thenIngest : Bool) (options : PollEventsOptions) :
    PollStage Value → Indexer → Process Value → Prop
  | started {read : LedgerRead} {startLedger : ℕ}
      (hstart : options.startLedger = some startLedger) :
      PollMoves config response store indexer thenIngest options (.start read) indexer
        (.pollContractEvents thenIngest options
          (.pages { startLedger := startLedger, cursor := options.cursor }))
  | reading {read next : LedgerRead} {after : Indexer}
      (hread : readLedger store indexer read = (after, .inl next)) :
      PollMoves config response store indexer thenIngest options (.start read) after
        (.pollContractEvents thenIngest options (.start next))
  | read {read : LedgerRead} {after : Indexer} {ledger : ℕ}
      (hread : readLedger store indexer read = (after, .inr ledger)) :
      PollMoves config response store indexer thenIngest options (.start read) after
        (.pollContractEvents thenIngest options
          (.pages { startLedger := ledger + 1, cursor := options.cursor }))
  | page {walk : Walk Value} {nextCursor : String} :
      PollMoves config response store indexer thenIngest options (.pages walk)
        (indexer.observe response)
        (.pollContractEvents thenIngest options
          (.pages { walk.read response with
            cursor := some nextCursor
            seenCursors := nextCursor :: walk.seenCursors }))
  | lastPage {walk : Walk Value} (hends : walk.Ends response) :
      PollMoves config response store indexer thenIngest options (.pages walk)
        (indexer.observe response)
        (.pollContractEvents thenIngest options (.lag (walk.read response) .memory))
  | repeatedCursor {walk : Walk Value} {message : String} :
      PollMoves config response store indexer thenIngest options (.pages walk)
        (indexer.observe response)
        (.ended (.thrown message))
  | lagReading {walk : Walk Value} {read next : LedgerRead} {after : Indexer}
      (hread : readLedger store indexer read = (after, .inl next)) :
      PollMoves config response store indexer thenIngest options (.lag walk read) after
        (.pollContractEvents thenIngest options (.lag walk next))
  | polled {walk : Walk Value} {read : LedgerRead} {after : Indexer} {ledger : ℕ}
      (hread : readLedger store indexer read = (after, .inr ledger)) :
      PollMoves config response store indexer thenIngest options (.lag walk read)
        (after.checkLag config ledger)
        (endPoll store (after.checkLag config ledger) thenIngest walk).process

/-- A poll writes nothing to the database. -/
theorem pollMoves_of_advance (config : Config) (environment : Environment Value)
    (store : Store Value) (indexer : Indexer) (thenIngest : Bool) (options : PollEventsOptions)
    (stage : PollStage Value) :
    ∃ after process,
      advancePoll config environment store indexer thenIngest options stage =
        ⟨store, after, process⟩ ∧
      PollMoves config environment.response store indexer thenIngest options stage after
        process := by
  cases stage with
  | start read =>
      rw [advancePoll]
      split
      · rename_i hstart
        exact ⟨_, _, rfl, .started hstart⟩
      · split
        · rename_i hread
          exact ⟨_, _, rfl, .reading hread⟩
        · rename_i hread
          exact ⟨_, _, rfl, .read hread⟩
  | pages walk =>
      rw [advancePoll]
      split
      · rename_i hnone
        refine ⟨_, _, rfl, .lastPage fun nextCursor hcursor => ?_⟩
        rw [hnone] at hcursor
        cases hcursor
      · rename_i nextCursor hsome
        split
        · rename_i hsame
          refine ⟨_, _, rfl, .lastPage fun other hcursor => ?_⟩
          rw [hsome] at hcursor
          obtain rfl := Option.some.inj (Option.mem_def.mp hcursor)
          exact hsame
        · split
          · exact ⟨_, _, rfl, .repeatedCursor⟩
          · exact ⟨_, _, rfl, .page⟩
  | lag walk read =>
      rw [advancePoll]
      split
      · rename_i hread
        exact ⟨_, _, rfl, .lagReading hread⟩
      · rename_i hread
        exact ⟨_, _, rfl, .polled hread⟩

/-- Every step of an ingestion. -/
inductive IngestMoves (config : Config) (store : Store Value) (indexer : Indexer)
    (call : Ingestion Value) : IngestStage Value → Outcome Value → Prop
  | alreadyProcessed {event : DecodedSorobanEvent Value}
      {remaining : List (DecodedSorobanEvent Value)} {row : SorobanEventLog}
      (hfound : findLog store (eventKey event) = some row) (hprocessed : row.processed = true) :
      IngestMoves config store indexer call (.next (event :: remaining))
        ⟨record store event .ingested, indexer,
          .ingestEvents (call.count (some event.ledger)) (.next remaining)⟩
  | notProcessed {event : DecodedSorobanEvent Value}
      {remaining : List (DecodedSorobanEvent Value)}
      (hopen : ∀ row ∈ findLog store (eventKey event), row.processed = false) :
      IngestMoves config store indexer call (.next (event :: remaining))
        ⟨store, indexer,
          .ingestEvents call (.findEvent (findLog store (eventKey event)) event remaining)⟩
  | contractProcessed {existingLog : Option SorobanEventLog} {event : DecodedSorobanEvent Value}
      {remaining : List (DecodedSorobanEvent Value)} {row : SorobanEventLog}
      (hfound : findContractLog store event.contractId event.id = some row)
      (hprocessed : row.processed = true) :
      IngestMoves config store indexer call (.findEvent existingLog event remaining)
        ⟨record store event .ingested, indexer, .ingestEvents (call.count none) (.next remaining)⟩
  | found {existingLog : Option SorobanEventLog} {event : DecodedSorobanEvent Value}
      {remaining : List (DecodedSorobanEvent Value)} :
      IngestMoves config store indexer call (.findEvent existingLog event remaining)
        ⟨store, indexer, .ingestEvents call (.save existingLog event remaining)⟩
  | reopened {row : SorobanEventLog} {event : DecodedSorobanEvent Value}
      {remaining : List (DecodedSorobanEvent Value)} :
      IngestMoves config store indexer call (.save (some row) event remaining)
        ⟨updateProcessed store (eventKey event) false, indexer,
          .ingestEvents call (.transition event remaining)⟩
  | duplicate {event : DecodedSorobanEvent Value} {remaining : List (DecodedSorobanEvent Value)}
      {message : String} :
      IngestMoves config store indexer call (.save none event remaining)
        ⟨store, indexer, .ended (.thrown message)⟩
  | inserted {event : DecodedSorobanEvent Value} {remaining : List (DecodedSorobanEvent Value)}
      (hfresh : findContractLog store event.contractId (eventKey event) = none) :
      IngestMoves config store indexer call (.save none event remaining)
        ⟨insertLog store event, indexer, .ingestEvents call (.transition event remaining)⟩
  | transitioned {event : DecodedSorobanEvent Value}
      {remaining : List (DecodedSorobanEvent Value)} :
      IngestMoves config store indexer call (.transition event remaining)
        ⟨record store event .transition, indexer,
          .ingestEvents call (.insights event remaining)⟩
  | insighted {event : DecodedSorobanEvent Value}
      {remaining : List (DecodedSorobanEvent Value)} :
      IngestMoves config store indexer call (.insights event remaining)
        ⟨record store event .insights, indexer,
          .ingestEvents call
            (.dispatch (handlersFor config.eventBus event.topic) event remaining)⟩
  | handled {handler : ContractEventHandler} {handlers : List ContractEventHandler}
      {event : DecodedSorobanEvent Value} {remaining : List (DecodedSorobanEvent Value)}
      {succeeded : Bool} :
      IngestMoves config store indexer call (.dispatch (handler :: handlers) event remaining)
        ⟨record store event (.handled handler succeeded), indexer,
          .ingestEvents call (.dispatch handlers event remaining)⟩
  | dispatched {event : DecodedSorobanEvent Value}
      {remaining : List (DecodedSorobanEvent Value)} :
      IngestMoves config store indexer call (.dispatch [] event remaining)
        ⟨store, indexer, .ingestEvents call (.mark event remaining)⟩
  | marked {event : DecodedSorobanEvent Value} {remaining : List (DecodedSorobanEvent Value)} :
      IngestMoves config store indexer call (.mark event remaining)
        ⟨record (updateProcessed store (eventKey event) true) event .ingested, indexer,
          .ingestEvents (call.count (some event.ledger)) (.next remaining)⟩
  | counted :
      IngestMoves config store indexer call (.next [])
        ⟨store, { indexer with lastIndexedLedger := call.highestProcessedLedger },
          if 0 < max call.highestProcessedLedger indexer.latestObservedLedger then
            .ingestEvents call
              (.checkpoint (max call.highestProcessedLedger indexer.latestObservedLedger))
          else .ended (.ingested call.processedCount)⟩
  | checkpointed {ledger : ℕ} :
      IngestMoves config store indexer call (.checkpoint ledger)
        ⟨{ store with checkpoint := some ledger }, indexer, .ingestEvents call (.finish ledger)⟩
  | finished {ledger : ℕ} :
      IngestMoves config store indexer call (.finish ledger)
        ⟨store, { indexer with lastIndexedLedger := ledger },
          .ended (.ingested call.processedCount)⟩

theorem ingestMoves_of_advance (config : Config) (environment : Environment Value)
    (store : Store Value) (indexer : Indexer) (call : Ingestion Value) (stage : IngestStage Value) :
    IngestMoves config store indexer call stage
      (advanceIngest config environment store indexer call stage) := by
  cases stage with
  | next events =>
      cases events with
      | nil => exact .counted
      | cons event remaining =>
          rw [advanceIngest]
          split
          · rename_i hprocessed
            obtain ⟨row, hfound, hrow⟩ := Option.any_eq_true _ _ |>.mp hprocessed
            exact .alreadyProcessed hfound hrow
          · rename_i hopen
            refine .notProcessed fun row hrow => ?_
            rw [Option.mem_def.mp hrow] at hopen
            simpa using hopen
  | findEvent existingLog event remaining =>
      rw [advanceIngest]
      split
      · rename_i hprocessed
        obtain ⟨row, hfound, hrow⟩ := Option.any_eq_true _ _ |>.mp hprocessed
        exact .contractProcessed hfound hrow
      · exact .found
  | save existingLog event remaining =>
      cases existingLog with
      | some row => exact .reopened
      | none =>
          rw [advanceIngest]
          split
          · exact .duplicate
          · rename_i hfresh
            exact .inserted (by simpa using hfresh)
  | transition event remaining => exact .transitioned
  | insights event remaining => exact .insighted
  | dispatch handlers event remaining =>
      cases handlers with
      | nil => exact .dispatched
      | cons handler handlers => exact .handled
  | mark event remaining => exact .marked
  | checkpoint ledger => exact .checkpointed
  | finish ledger => exact .finished

/-- What has been done stays done. -/
theorem history_subset_of_ingest {config : Config} {store : Store Value} {indexer : Indexer}
    {call : Ingestion Value} {stage : IngestStage Value} {outcome : Outcome Value}
    (hmoves : IngestMoves config store indexer call stage outcome) :
    store.history ⊆ outcome.store.history := by
  cases hmoves with
  | alreadyProcessed => exact List.subset_append_left _ _
  | contractProcessed => exact List.subset_append_left _ _
  | transitioned => exact List.subset_append_left _ _
  | insighted => exact List.subset_append_left _ _
  | handled => exact List.subset_append_left _ _
  | marked => exact List.subset_append_left _ _
  | _ => exact List.Subset.refl _

/-! ## A plain event -/

/-- A payment that was recorded in the given ledger. -/
def paymentEvent (id : String) (ledger : ℕ) : DecodedSorobanEvent Unit :=
  { id := id, contractId := "CESCROW", ledger := ledger, ledgerClosedAt := none
    txHash := some "a1b2", topic := "payment_recorded", topics := [], data := () }

def noHandlers : Config := { eventBus := createContractEventBus [] }

end StellarSettle.EventIndexerService
