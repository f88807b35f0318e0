import StellarSettle.Core.TransitionSystem
import StellarSettle.Indexer.EventIndexerService

/-!
# Delivery to the handlers

The bus logs a handler that fails and goes on to the next, so the flag of a log row says
that the handlers of its event were called, not that they succeeded.  Any number of
services ingest side by side here, and every await may fail.
-/

namespace StellarSettle.Delivery

open StellarSettle.ContractEventBus
open StellarSettle.EventIndexerService
open StellarSettle.TransitionSystem

variable {Value : Type}

/-! ## Calls side by side -/

/-- A service, and the number of one of its calls. -/
abbrev Call := ℕ × ℕ

structure World (Value : Type) where
  store : Store Value := {}
  indexer : ℕ → Indexer := fun _ => {}
  process : Call → Process Value := fun _ => .idle

inductive Event (Value : Type) where
  | call (call : Call) (request : Request Value)
  | advance (call : Call) (environment : Environment Value)
  | fail (call : Call)
  | restart (service : ℕ)

def World.apply (world : World Value) (call : Call) (outcome : Outcome Value) : World Value :=
  { store := outcome.store
    indexer := setProcess world.indexer call.1 outcome.indexer
    process := setProcess world.process call outcome.process }

def step (config : Config) (world : World Value) : Event Value → Option (World Value)
  | .call call request =>
      if isOver (world.process call) then
        some { world with
          process := setProcess world.process call (request.process (world.indexer call.1)) }
      else none
  | .advance call environment =>
      (advance config environment world.store (world.indexer call.1)
        (world.process call)).map (world.apply call)
  | .fail call =>
      some { world with process := setProcess world.process call (.ended (.thrown "failed")) }
  | .restart service =>
      some { world with
        indexer := setProcess world.indexer service {}
        process := fun call => if call.1 = service then .idle else world.process call }

/-! ## What has been delivered -/

/-- The handler was called for the event, whether it succeeded or not. -/
def Called (history : History Value) (event : DecodedSorobanEvent Value)
    (handler : ContractEventHandler) : Prop :=
  ∃ succeeded, (event, Effect.handled handler succeeded) ∈ history

/-- The event's transition and insights were completed. -/
structure Applied (history : History Value) (event : DecodedSorobanEvent Value) : Prop where
  transition : (event, Effect.transition) ∈ history
  insights : (event, Effect.insights) ∈ history

structure Delivered (config : Config) (history : History Value)
    (event : DecodedSorobanEvent Value) : Prop extends Applied history event where
  called : ∀ handler ∈ handlersFor config.eventBus event.topic, Called history event handler

/-- An event of this id was delivered. -/
def DeliveredAs (config : Config) (history : History Value) (eventId : String) : Prop :=
  ∃ event, eventKey event = eventId ∧ Delivered config history event

/-- Every row that is marked processed is the row of an event that was delivered. -/
def RowsDelivered (config : Config) (rows : List SorobanEventLog) (history : History Value) :
    Prop :=
  ∀ row ∈ rows, row.processed = true →
    ∃ eventId, row.eventId = some eventId ∧ DeliveredAs config history eventId

/-- No run has gone past an event that was not delivered. -/
def PassedDelivered (config : Config) (history : History Value) : Prop :=
  ∀ event, (event, Effect.ingested) ∈ history → DeliveredAs config history (eventKey event)

/-- What a call has done for its current event. -/
def Knows (config : Config) (history : History Value) : Process Value → Prop
  | .ingestEvents _ (.insights event _) => (event, Effect.transition) ∈ history
  | .ingestEvents _ (.dispatch handlers event _) =>
      Applied history event ∧ ∀ handler ∈ handlersFor config.eventBus event.topic,
        handler ∈ handlers ∨ Called history event handler
  | .ingestEvents _ (.mark event _) => Delivered config history event
  | _ => True

structure Invariant (config : Config) (world : World Value) : Prop where
  rows : RowsDelivered config world.store.eventLogs world.store.history
  passed : PassedDelivered config world.store.history
  knows : ∀ call, Knows config world.store.history (world.process call)

/-! ## The history only grows -/

section Growing

variable {config : Config} {history after : History Value} {event : DecodedSorobanEvent Value}
  (hgrows : history ⊆ after)

include hgrows

theorem Called.mono {handler : ContractEventHandler} (hcalled : Called history event handler) :
    Called after event handler :=
  hcalled.imp fun _ hmem => hgrows hmem

theorem Applied.mono (happlied : Applied history event) : Applied after event :=
  ⟨hgrows happlied.transition, hgrows happlied.insights⟩

theorem Delivered.mono (hdelivered : Delivered config history event) :
    Delivered config after event where
  toApplied := hdelivered.toApplied.mono hgrows
  called handler hhandler := (hdelivered.called handler hhandler).mono hgrows

theorem DeliveredAs.mono {eventId : String} (hdelivered : DeliveredAs config history eventId) :
    DeliveredAs config after eventId :=
  hdelivered.imp fun _ hevent => ⟨hevent.1, hevent.2.mono hgrows⟩

theorem Knows.mono {process : Process Value} (hknows : Knows config history process) :
    Knows config after process := by
  cases process with
  | ingestEvents call stage =>
      cases stage with
      | insights event remaining => exact hgrows hknows
      | dispatch handlers event remaining =>
          exact ⟨hknows.1.mono hgrows, fun handler hhandler =>
            (hknows.2 handler hhandler).imp_right (Called.mono hgrows)⟩
      | mark event remaining => exact Delivered.mono hgrows hknows
      | _ => trivial
  | _ => trivial

theorem RowsDelivered.mono {rows : List SorobanEventLog}
    (hrows : RowsDelivered config rows history) : RowsDelivered config rows after := by
  intro row hrow hprocessed
  obtain ⟨eventId, hid, hdelivered⟩ := hrows row hrow hprocessed
  exact ⟨eventId, hid, hdelivered.mono hgrows⟩

end Growing

/-! ## Steps of an ingestion -/

section Rows

variable {config : Config} {store : Store Value} {history : History Value}
  {rows : List SorobanEventLog} {event : DecodedSorobanEvent Value}

/-- A processed row that a run finds stands for an event that was delivered. -/
theorem deliveredAs_of_mem {row : SorobanEventLog} {eventId : String}
    (hrows : RowsDelivered config rows history) (hmem : row ∈ rows)
    (hid : row.eventId = some eventId) (hprocessed : row.processed = true) :
    DeliveredAs config history eventId := by
  obtain ⟨found, hfound, hdelivered⟩ := hrows row hmem hprocessed
  rw [hid] at hfound
  rwa [Option.some.inj hfound]

theorem deliveredAs_of_findLog {row : SorobanEventLog}
    (hrows : RowsDelivered config store.eventLogs history)
    (hfound : findLog store (eventKey event) = some row) (hprocessed : row.processed = true) :
    DeliveredAs config history (eventKey event) :=
  deliveredAs_of_mem hrows (List.mem_of_find?_eq_some hfound)
    (by simpa using List.find?_some hfound) hprocessed

/-- The second look-up goes by the event's own id, which is then its row's. -/
theorem deliveredAs_of_findContractLog {row : SorobanEventLog}
    (hrows : RowsDelivered config store.eventLogs history)
    (hfound : findContractLog store event.contractId event.id = some row)
    (hprocessed : row.processed = true) : DeliveredAs config history (eventKey event) := by
  have hmatch := List.find?_some hfound
  rw [Bool.and_eq_true, beq_iff_eq, beq_iff_eq] at hmatch
  have hdelivered := deliveredAs_of_mem hrows (List.mem_of_find?_eq_some hfound) hmatch.2
    hprocessed
  have hnamed : event.id ≠ "" := by
    obtain ⟨other, hother, -⟩ := hdelivered
    rw [← hother]
    exact eventKey_ne_empty other
  rw [eventKey, if_pos hnamed]
  exact hdelivered

/-- The rows that are marked are those of the event's id. -/
theorem RowsDelivered.marked (hrows : RowsDelivered config store.eventLogs history)
    (hdelivered : DeliveredAs config history (eventKey event)) :
    RowsDelivered config (updateProcessed store (eventKey event) true).eventLogs history := by
  intro row hrow hprocessed
  obtain ⟨old, hold, rfl⟩ := List.mem_map.mp hrow
  by_cases hid : old.eventId = some (eventKey event)
  · rw [if_pos hid]
    exact ⟨eventKey event, hid, hdelivered⟩
  · rw [if_neg hid] at hprocessed ⊢
    exact hrows old hold hprocessed

theorem RowsDelivered.reopened (hrows : RowsDelivered config store.eventLogs history) :
    RowsDelivered config (updateProcessed store (eventKey event) false).eventLogs history := by
  intro row hrow hprocessed
  obtain ⟨old, hold, rfl⟩ := List.mem_map.mp hrow
  split at hprocessed
  · cases hprocessed
  · rename_i hid
    rw [if_neg hid]
    exact hrows old hold hprocessed

theorem RowsDelivered.inserted (hrows : RowsDelivered config store.eventLogs history) :
    RowsDelivered config (insertLog store event).eventLogs history := by
  intro row hrow hprocessed
  rcases List.mem_append.mp hrow with hold | hnew
  · exact hrows row hold hprocessed
  · rw [List.mem_singleton.mp hnew] at hprocessed
    cases hprocessed

theorem PassedDelivered.append (hpassed : PassedDelivered config history) {effect : Effect}
    (hnew : effect = .ingested → DeliveredAs config history (eventKey event)) :
    PassedDelivered config (history ++ [(event, effect)]) := by
  have hgrows : history ⊆ history ++ [(event, effect)] := List.subset_append_left _ _
  intro other hmem
  rcases List.mem_append.mp hmem with hbefore | hadded
  · exact (hpassed other hbefore).mono hgrows
  · obtain ⟨rfl, heffect⟩ := Prod.mk.inj (List.mem_singleton.mp hadded)
    exact (hnew heffect.symm).mono hgrows

end Rows

section Ingesting

variable {config : Config} {store : Store Value} {indexer : Indexer} {call : Ingestion Value}
  {stage : IngestStage Value} {outcome : Outcome Value}

/-- What one step of one call leaves. -/
structure Advanced (config : Config) (store : Store Value) (outcome : Outcome Value) : Prop where
  grows : store.history ⊆ outcome.store.history
  rows : RowsDelivered config outcome.store.eventLogs outcome.store.history
  passed : PassedDelivered config outcome.store.history
  knows : Knows config outcome.store.history outcome.process

theorem advanced_of_ingest (hrows : RowsDelivered config store.eventLogs store.history)
    (hpassed : PassedDelivered config store.history)
    (hknows : Knows config store.history (.ingestEvents call stage))
    (hmoves : IngestMoves config store indexer call stage outcome) :
    Advanced config store outcome := by
  have hgrows := history_subset_of_ingest hmoves
  cases hmoves with
  | alreadyProcessed hfound hprocessed =>
      exact ⟨hgrows, hrows.mono hgrows,
        hpassed.append fun _ => deliveredAs_of_findLog hrows hfound hprocessed, trivial⟩
  | notProcessed hopen => exact ⟨hgrows, hrows, hpassed, trivial⟩
  | contractProcessed hfound hprocessed =>
      exact ⟨hgrows, hrows.mono hgrows,
        hpassed.append fun _ => deliveredAs_of_findContractLog hrows hfound hprocessed, trivial⟩
  | found => exact ⟨hgrows, hrows, hpassed, trivial⟩
  | reopened => exact ⟨hgrows, hrows.reopened, hpassed, trivial⟩
  | duplicate => exact ⟨hgrows, hrows, hpassed, trivial⟩
  | inserted hfresh => exact ⟨hgrows, hrows.inserted, hpassed, trivial⟩
  | transitioned =>
      exact ⟨hgrows, hrows.mono hgrows, hpassed.append (by rintro ⟨⟩),
        List.mem_append_right _ (List.mem_singleton.mpr rfl)⟩
  | insighted =>
      exact ⟨hgrows, hrows.mono hgrows, hpassed.append (by rintro ⟨⟩),
        ⟨hgrows hknows, List.mem_append_right _ (List.mem_singleton.mpr rfl)⟩,
        fun handler hhandler => .inl hhandler⟩
  | @handled handler handlers event remaining succeeded =>
      refine ⟨hgrows, hrows.mono hgrows, hpassed.append (by rintro ⟨⟩),
        hknows.1.mono hgrows, fun other hother => ?_⟩
      rcases hknows.2 other hother with hwaiting | hcalled
      · rcases List.mem_cons.mp hwaiting with rfl | hrest
        · exact .inr ⟨succeeded, List.mem_append_right _ (List.mem_singleton.mpr rfl)⟩
        · exact .inl hrest
      · exact .inr (hcalled.mono hgrows)
  | dispatched =>
      exact ⟨hgrows, hrows, hpassed, hknows.1, fun handler hhandler =>
        (hknows.2 handler hhandler).resolve_left List.not_mem_nil⟩
  | @marked event remaining =>
      have hdelivered : DeliveredAs config store.history (eventKey event) := ⟨event, rfl, hknows⟩
      exact ⟨hgrows, (hrows.marked hdelivered).mono hgrows, hpassed.append fun _ => hdelivered,
        trivial⟩
  | counted =>
      refine ⟨hgrows, hrows, hpassed, ?_⟩
      dsimp only
      split <;> trivial
  | checkpointed => exact ⟨hgrows, hrows, hpassed, trivial⟩
  | finished => exact ⟨hgrows, hrows, hpassed, trivial⟩

end Ingesting

/-! ## Runs -/

/-- Nothing has been done yet, and no call is under way. -/
structure Initial (world : World Value) : Prop where
  rows : ∀ row ∈ world.store.eventLogs, row.processed = false
  history : world.store.history = []
  idle : ∀ call, isOver (world.process call) = true

theorem knows_of_isOver {config : Config} {history : History Value} {process : Process Value}
    (hover : isOver process = true) : Knows config history process := by
  cases process with
  | ingestEvents call stage => cases hover
  | _ => trivial

theorem Initial.invariant {config : Config} {world : World Value} (hinitial : Initial world) :
    Invariant config world where
  rows := by
    intro row hrow hprocessed
    rw [hinitial.rows row hrow] at hprocessed
    cases hprocessed
  passed := by
    intro event hevent
    rw [hinitial.history] at hevent
    cases hevent
  knows call := knows_of_isOver (hinitial.idle call)

theorem knows_request {config : Config} {history : History Value} {indexer : Indexer}
    (request : Request Value) : Knows config history (request.process indexer) := by
  cases request <;> trivial

theorem advanced_of_advance {config : Config} {environment : Environment Value}
    {store : Store Value} {indexer : Indexer} {process : Process Value} {outcome : Outcome Value}
    (hrows : RowsDelivered config store.eventLogs store.history)
    (hpassed : PassedDelivered config store.history) (hknows : Knows config store.history process)
    (hadvance : advance config environment store indexer process = some outcome) :
    Advanced config store outcome := by
  cases process with
  | idle => cases hadvance
  | ended result => cases hadvance
  | pollContractEvents thenIngest options stage =>
      obtain rfl := Option.some.inj hadvance
      obtain ⟨after, process, hafter, hmoves⟩ :=
        pollMoves_of_advance config environment store indexer thenIngest options stage
      rw [hafter]
      refine ⟨List.Subset.refl _, hrows, hpassed, ?_⟩
      cases hmoves with
      | polled hread =>
          rw [endPoll]
          dsimp only
          split <;> trivial
      | _ => trivial
  | ingestEvents call stage =>
      obtain rfl := Option.some.inj hadvance
      exact advanced_of_ingest hrows hpassed hknows
        (ingestMoves_of_advance config environment store indexer call stage)
  | saveCheckpoint ledgerSequence stage =>
      obtain rfl := Option.some.inj hadvance
      cases stage with
      | check =>
          rw [advanceSave]
          split <;> exact ⟨List.Subset.refl _, hrows, hpassed, trivial⟩
      | find =>
          rw [advanceSave]
          split <;> exact ⟨List.Subset.refl _, hrows, hpassed, trivial⟩
      | save => exact ⟨List.Subset.refl _, hrows, hpassed, trivial⟩
      | finish => exact ⟨List.Subset.refl _, hrows, hpassed, trivial⟩

theorem invariant_of_step {config : Config} {before after : World Value} {event : Event Value}
    (hstep : step config before event = some after) (hinvariant : Invariant config before) :
    Invariant config after := by
  obtain ⟨hrows, hpassed, hknows⟩ := hinvariant
  cases event with
  | call call request =>
      dsimp only [step] at hstep
      split at hstep
      · obtain rfl := Option.some.inj hstep
        exact ⟨hrows, hpassed, forall_setProcess (P := fun _ => Knows config before.store.history)
          (knows_request request) fun other _ => hknows other⟩
      · cases hstep
  | advance call environment =>
      obtain ⟨outcome, houtcome, rfl⟩ := Option.map_eq_some_iff.mp hstep
      have hadvanced := advanced_of_advance hrows hpassed (hknows call) houtcome
      exact ⟨hadvanced.rows, hadvanced.passed,
        forall_setProcess (P := fun _ => Knows config outcome.store.history) hadvanced.knows
          fun other _ => (hknows other).mono hadvanced.grows⟩
  | fail call =>
      obtain rfl := Option.some.inj hstep
      exact ⟨hrows, hpassed, forall_setProcess (P := fun _ => Knows config before.store.history)
        trivial fun other _ => hknows other⟩
  | restart service =>
      obtain rfl := Option.some.inj hstep
      refine ⟨hrows, hpassed, fun call => ?_⟩
      dsimp only
      split
      · trivial
      · exact hknows call

/-- In every run, a row is marked only once its event was applied and every subscribed
handler was called for it; and no call goes past an event before that. -/
theorem marked_delivered {config : Config} {first last : World Value} {events : List (Event Value)}
    (hinitial : Initial first) (hrun : Run (step config) first events last) :
    RowsDelivered config last.store.eventLogs last.store.history ∧
      PassedDelivered config last.store.history :=
  have hinvariant : Invariant config last :=
    hrun.invariant (fun _ hstep => invariant_of_step hstep) hinitial.invariant
  ⟨hinvariant.rows, hinvariant.passed⟩

/-! ## A handler that fails -/

def dividendHandler : ContractEventHandler := { name := 1, topics := ["payment_recorded"] }

def oneHandler : Config := { eventBus := createContractEventBus [dividendHandler] }

def freshWorld : World Unit := {}

theorem freshWorld_initial : Initial freshWorld where
  rows row hrow := by cases hrow
  history := rfl
  idle _ := rfl

/-- A call of `ingestEvents` for one event, whose handler succeeds or fails. -/
def ingestOne (call : Call) (succeeds : Bool) (steps : ℕ) : List (Event Unit) :=
  .call call (.ingestEvents [paymentEvent "e1" 10]) ::
    List.replicate steps (.advance call { handlerSucceeds := succeeds })

/-- The flags of the rows, and the calls of the handler. -/
def observeDelivery (world : World Unit) : List Bool × List Bool :=
  (world.store.eventLogs.map SorobanEventLog.processed, world.store.history.filterMap fun entry =>
    match entry.2 with
    | .handled _ succeeded => some succeeded
    | _ => none)

/-- The handler fails once; the same event comes again and the handler is not called. -/
theorem failedHandler_notCalledAgain : ∃ last,
    Run (step oneHandler) freshWorld (ingestOne (0, 0) false 11 ++ ingestOne (0, 1) true 4) last ∧
      handlersFor oneHandler.eventBus "payment_recorded" = [dividendHandler] ∧
      observeDelivery last = ([true], [false]) := by
  have hexec : (exec (step oneHandler) freshWorld
      (ingestOne (0, 0) false 11 ++ ingestOne (0, 1) true 4)).map observeDelivery =
        some ([true], [false]) := by
    decide +kernel
  obtain ⟨last, hrun, hobserved⟩ := exists_run hexec
  exact ⟨last, hrun, by decide +kernel, hobserved⟩

/-- A handler that succeeds is called once, and its event is passed. -/
theorem calledOnce_delivered : ∃ last,
    Run (step oneHandler) freshWorld (ingestOne (0, 0) true 11) last ∧
      observeDelivery last = ([true], [true]) ∧
      RowsDelivered oneHandler last.store.eventLogs last.store.history ∧
      PassedDelivered oneHandler last.store.history := by
  have hexec : (exec (step oneHandler) freshWorld (ingestOne (0, 0) true 11)).map observeDelivery =
      some ([true], [true]) := by
    decide +kernel
  obtain ⟨last, hrun, hobserved⟩ := exists_run hexec
  exact ⟨last, hrun, hobserved, marked_delivered freshWorld_initial hrun⟩

end StellarSettle.Delivery
