import StellarSettle.Core.TransitionSystem
import StellarSettle.Indexer.EventIndexerService

/-!
# Cycles that overlap

The timer of the service and the reconciliation worker each poll and then ingest what
they polled.  An ingestion stores the largest ledger that any poll of the service has
observed, though it has handled the events of its own poll only.
-/

namespace StellarSettle.PollCycles

open StellarSettle.ContractEventBus
open StellarSettle.EventIndexerService
open StellarSettle.TransitionSystem

variable {Value : Type}

/-! ## The chain and the cycles -/

/-- The contracts' events in each ledger.  A ledger that `getEvents` reports is closed, so
its events are final; the first ledger is ledger 1. -/
structure Chain (Value : Type) where
  events : ℕ → List (DecodedSorobanEvent Value)
  ledger_eq : ∀ ledger, ∀ event ∈ events ledger, event.ledger = ledger
  genesis : events 0 = []

/-- Each caller starts its next cycle when its last one is over: `polling` for the timer,
`inFlightTick` for the worker.  Neither looks at the other's. -/
inductive Caller where
  | timer
  | worker
  deriving DecidableEq, Repr

structure World (Value : Type) where
  store : Store Value := {}
  indexer : Indexer := {}
  process : Caller → Process Value := fun _ => .idle

inductive Action (Value : Type) where
  | start
  | advance (environment : Environment Value)
  | fail

structure Event (Value : Type) where
  caller : Caller
  action : Action Value

def cycle : Process Value := .pollContractEvents true {} (.start .memory)

def World.apply (world : World Value) (caller : Caller) (outcome : Outcome Value) : World Value :=
  { store := outcome.store
    indexer := outcome.indexer
    process := setProcess world.process caller outcome.process }

def step (config : Config) (world : World Value) (event : Event Value) : Option (World Value) :=
  match event.action with
  | .start =>
      if isOver (world.process event.caller) then
        some { world with process := setProcess world.process event.caller cycle }
      else none
  | .advance environment =>
      (advance config environment world.store world.indexer
        (world.process event.caller)).map (world.apply event.caller)
  | .fail =>
      some { world with
        process := setProcess world.process event.caller (.ended (.thrown "failed")) }

/-! ## Coverage -/

/-- The event has been through an iteration of `ingestEvents`. -/
def Ingested (store : Store Value) (event : DecodedSorobanEvent Value) : Prop :=
  (event, Effect.ingested) ∈ store.history

/-- Every event up to the ledger has been ingested. -/
def Covered (chain : Chain Value) (store : Store Value) (ledger : ℕ) : Prop :=
  ∀ earlier ≤ ledger, ∀ event ∈ chain.events earlier, Ingested store event

/-- The walk has returned every event from its start up to the ledger that it reports. -/
structure Complete (chain : Chain Value) (walk : Walk Value) : Prop where
  bounded : ∀ event ∈ walk.decodedEvents, event.ledger ≤ walk.reported
  returned : ∀ ledger ≤ walk.reported, walk.startLedger ≤ ledger →
    ∀ event ∈ chain.events ledger, event ∈ walk.decodedEvents

/-- The pages that a process has read, before the next one. -/
def walking : Process Value → Option (Walk Value)
  | .pollContractEvents _ _ (.pages walk) => some walk
  | _ => none

/-- Every walk that comes to its end is complete. -/
def Walks (chain : Chain Value) (world : World Value) (event : Event Value) : Prop :=
  match event.action with
  | .advance environment => ∀ walk ∈ walking (world.process event.caller),
      walk.Ends environment.response → Complete chain (walk.read environment.response)
  | _ => True

/-! ## The condition -/

/-- The process is about to take the newest log row for the last indexed ledger. -/
def fallsBack : Process Value → Bool
  | .pollContractEvents _ _ (.start .eventLog) => true
  | .pollContractEvents _ _ (.lag _ .eventLog) => true
  | _ => false

/-- What other polls of the service have observed beyond the cycle's own poll, and beyond
the ledger that was indexed when it began, leaves no event waiting; and the newest log row is
taken for the last indexed ledger only where everything up to it has been ingested. -/
def NoneWaiting (chain : Chain Value) (world : World Value) (event : Event Value) : Prop :=
  match event.action with
  | .advance _ =>
      (∀ call ∈ finishing (world.process event.caller),
        ∀ ledger ≤ world.indexer.latestObservedLedger, max call.reported call.startedAt < ledger →
          ∀ waiting ∈ chain.events ledger, Ingested world.store waiting) ∧
      (fallsBack (world.process event.caller) = true →
        ∀ ledger ∈ newestLedger world.store, Covered chain world.store ledger)
  | _ => True

/-! ## What a cycle knows -/

/-- A ledger that was read is covered. -/
def ReadCovered (chain : Chain Value) (store : Store Value) : LedgerRead → Prop
  | .found ledger => Covered chain store ledger
  | _ => True

/-- Everything before the walk's start is covered. -/
def StartCovered (chain : Chain Value) (store : Store Value) (walk : Walk Value) : Prop :=
  ∀ ledger < walk.startLedger, ∀ event ∈ chain.events ledger, Ingested store event

/-- Up to what its poll reported, everything is ingested or still to come. -/
structure Handles (chain : Chain Value) (store : Store Value) (call : Ingestion Value)
    (stage : IngestStage Value) : Prop where
  started : Covered chain store call.startedAt
  reached : call.highestProcessedLedger ≤ max call.reported call.startedAt
  bounded : ∀ event ∈ pending stage, event.ledger ≤ call.reported
  handled : ∀ ledger ≤ call.reported, ∀ event ∈ chain.events ledger,
    Ingested store event ∨ event ∈ pending stage

def StageCovered (chain : Chain Value) (store : Store Value) : IngestStage Value → Prop
  | .checkpoint ledger => Covered chain store ledger
  | .finish ledger => Covered chain store ledger
  | _ => True

def Sound (chain : Chain Value) (store : Store Value) : Process Value → Prop
  | .pollContractEvents _ options (.start read) =>
      options.startLedger = none ∧ ReadCovered chain store read
  | .pollContractEvents _ _ (.pages walk) => StartCovered chain store walk
  | .pollContractEvents _ _ (.lag walk read) =>
      StartCovered chain store walk ∧ Complete chain walk ∧ ReadCovered chain store read
  | .ingestEvents call stage => Handles chain store call stage ∧ StageCovered chain store stage
  | .saveCheckpoint _ _ => False
  | _ => True

/-- The ledgers that are remembered and stored are covered. -/
structure Invariant (chain : Chain Value) (world : World Value) : Prop where
  indexed : Covered chain world.store world.indexer.lastIndexedLedger
  stored : ∀ ledger ∈ world.store.checkpoint, Covered chain world.store ledger
  sound : ∀ caller, Sound chain world.store (world.process caller)

/-! ## What is ingested stays ingested -/

section Growing

variable {chain : Chain Value} {store after : Store Value}
  (hgrows : ∀ event, Ingested store event → Ingested after event)

include hgrows

theorem Covered.mono {ledger : ℕ} (hcovered : Covered chain store ledger) :
    Covered chain after ledger :=
  fun earlier hearlier event hevent => hgrows event (hcovered earlier hearlier event hevent)

theorem StartCovered.mono {walk : Walk Value} (hcovered : StartCovered chain store walk) :
    StartCovered chain after walk :=
  fun earlier hearlier event hevent => hgrows event (hcovered earlier hearlier event hevent)

theorem ReadCovered.mono {read : LedgerRead} (hcovered : ReadCovered chain store read) :
    ReadCovered chain after read := by
  cases read with
  | found ledger => exact Covered.mono hgrows hcovered
  | _ => trivial

theorem Sound.mono {process : Process Value} (hsound : Sound chain store process) :
    Sound chain after process := by
  cases process with
  | idle => trivial
  | ended result => trivial
  | saveCheckpoint ledgerSequence stage => exact hsound
  | pollContractEvents thenIngest options stage =>
      cases stage with
      | start read => exact ⟨hsound.1, ReadCovered.mono hgrows hsound.2⟩
      | pages walk => exact StartCovered.mono hgrows hsound
      | lag walk read =>
          exact ⟨StartCovered.mono hgrows hsound.1, hsound.2.1,
            ReadCovered.mono hgrows hsound.2.2⟩
  | ingestEvents call stage =>
      obtain ⟨hhandles, hstage⟩ := hsound
      refine ⟨⟨hhandles.started.mono hgrows, hhandles.reached, hhandles.bounded, ?_⟩, ?_⟩
      · intro ledger hledger event hevent
        exact (hhandles.handled ledger hledger event hevent).imp_left (hgrows event)
      · cases stage with
        | checkpoint ledger => exact Covered.mono hgrows hstage
        | finish ledger => exact Covered.mono hgrows hstage
        | _ => trivial

end Growing

theorem Covered.of_le {chain : Chain Value} {store : Store Value} {ledger lower : ℕ}
    (hcovered : Covered chain store ledger) (hlower : lower ≤ ledger) :
    Covered chain store lower :=
  fun earlier hearlier => hcovered earlier (hearlier.trans hlower)

theorem Covered.max {chain : Chain Value} {store : Store Value} {left right : ℕ}
    (hleft : Covered chain store left) (hright : Covered chain store right) :
    Covered chain store (max left right) := by
  intro ledger hledger
  rcases le_max_iff.mp hledger with hless | hless
  · exact hleft ledger hless
  · exact hright ledger hless

/-- There is nothing to ingest before the first ledger. -/
theorem covered_zero (chain : Chain Value) (store : Store Value) : Covered chain store 0 := by
  intro earlier hearlier event hevent
  obtain rfl := Nat.le_zero.mp hearlier
  rw [chain.genesis] at hevent
  cases hevent

/-! ## Reading the last indexed ledger -/

/-- What a read has come to is covered. -/
def AnswerCovered (chain : Chain Value) (store : Store Value) : LedgerRead ⊕ ℕ → Prop
  | .inl next => ReadCovered chain store next
  | .inr ledger => Covered chain store ledger

theorem covered_of_readLedger {chain : Chain Value} {store : Store Value}
    {indexer after : Indexer} {read : LedgerRead} {answer : LedgerRead ⊕ ℕ}
    (hanswer : readLedger store indexer read = (after, answer))
    (hindexed : Covered chain store indexer.lastIndexedLedger)
    (hstored : ∀ ledger ∈ store.checkpoint, Covered chain store ledger)
    (hread : ReadCovered chain store read)
    (hnewest : read = .eventLog → ∀ ledger ∈ newestLedger store, Covered chain store ledger) :
    Covered chain store after.lastIndexedLedger ∧ AnswerCovered chain store answer := by
  cases read with
  | memory =>
      rw [readLedger] at hanswer
      split at hanswer
      · cases hanswer
        exact ⟨hindexed, hindexed⟩
      · cases hanswer
        exact ⟨hindexed, trivial⟩
  | checkpoint =>
      rw [readLedger] at hanswer
      split at hanswer
      · rename_i ledger hledger
        cases hanswer
        exact ⟨hindexed, hstored ledger hledger⟩
      · cases hanswer
        exact ⟨hindexed, trivial⟩
  | eventLog =>
      rw [readLedger] at hanswer
      split at hanswer
      · rename_i ledger hledger
        cases hanswer
        exact ⟨hindexed, hnewest rfl ledger hledger⟩
      · cases hanswer
        exact ⟨hindexed, covered_zero chain store⟩
  | found ledger =>
      cases hanswer
      exact ⟨hread, hread⟩

/-! ## Ingesting -/

section Ingesting

variable {chain : Chain Value} {config : Config} {store after : Store Value} {indexer : Indexer}
  {call : Ingestion Value} {stage : IngestStage Value} {outcome : Outcome Value}

theorem ingested_record (event : DecodedSorobanEvent Value) :
    Ingested (record store event .ingested) event :=
  List.mem_append_right _ (List.mem_singleton.mpr rfl)

/-- The loop moves on without its current event, which is ingested. -/
theorem Handles.next {event : DecodedSorobanEvent Value}
    {remaining : List (DecodedSorobanEvent Value)} {ledger : Option ℕ}
    (hhandles : Handles chain store call stage) (hpending : pending stage = event :: remaining)
    (hgrows : ∀ other, Ingested store other → Ingested after other)
    (hingested : Ingested after event) (hledger : ∀ counted ∈ ledger, counted = event.ledger) :
    Handles chain after (call.count ledger) (.next remaining) where
  started := hhandles.started.mono hgrows
  reached := by
    have hevent : event.ledger ≤ call.reported :=
      hhandles.bounded event (by rw [hpending]; exact List.mem_cons_self)
    have hcounted : ledger.getD 0 ≤ event.ledger := by
      cases ledger with
      | none => exact Nat.zero_le _
      | some counted => exact (hledger counted rfl).le
    exact max_le hhandles.reached ((hcounted.trans hevent).trans (le_max_left _ _))
  bounded := by
    intro other hother
    exact hhandles.bounded other (by rw [hpending]; exact List.mem_cons_of_mem _ hother)
  handled := by
    intro ledger hledger other hother
    rcases hhandles.handled ledger hledger other hother with hdone | hleft
    · exact .inl (hgrows other hdone)
    · rw [hpending] at hleft
      rcases List.mem_cons.mp hleft with rfl | hrest
      · exact .inl hingested
      · exact .inr hrest

theorem Handles.stay {next : IngestStage Value} (hhandles : Handles chain store call stage)
    (hgrows : ∀ other, Ingested store other → Ingested after other)
    (hpending : pending next = pending stage) : Handles chain after call next where
  started := hhandles.started.mono hgrows
  reached := hhandles.reached
  bounded := by
    rw [hpending]
    exact hhandles.bounded
  handled := by
    intro ledger hledger event hevent
    rw [hpending]
    exact (hhandles.handled ledger hledger event hevent).imp_left (hgrows event)

/-- With no event left, everything that its poll reported is ingested. -/
theorem Handles.covered (hhandles : Handles chain store call stage) (hdone : pending stage = []) :
    Covered chain store (max call.reported call.startedAt) := by
  intro ledger hledger event hevent
  rcases le_max_iff.mp hledger with hreported | hstarted
  · rcases hhandles.handled ledger hreported event hevent with hingested | hleft
    · exact hingested
    · rw [hdone] at hleft
      cases hleft
  · exact hhandles.started ledger hstarted event hevent

/-- What a step of one process leaves covered. -/
structure Advanced (chain : Chain Value) (store : Store Value) (outcome : Outcome Value) :
    Prop where
  grows : ∀ event, Ingested store event → Ingested outcome.store event
  indexed : Covered chain outcome.store outcome.indexer.lastIndexedLedger
  stored : ∀ ledger ∈ outcome.store.checkpoint, Covered chain outcome.store ledger
  sound : Sound chain outcome.store outcome.process

theorem advanced_of_ingest (hindexed : Covered chain store indexer.lastIndexedLedger)
    (hstored : ∀ ledger ∈ store.checkpoint, Covered chain store ledger)
    (hsound : Sound chain store (.ingestEvents call stage))
    (hnone : ∀ finished ∈ finishing (.ingestEvents call stage),
      ∀ ledger ≤ indexer.latestObservedLedger, max finished.reported finished.startedAt < ledger →
        ∀ waiting ∈ chain.events ledger, Ingested store waiting)
    (hmoves : IngestMoves config store indexer call stage outcome) :
    Advanced chain store outcome := by
  obtain ⟨hhandles, hstage⟩ := hsound
  have hgrows : ∀ event, Ingested store event → Ingested outcome.store event :=
    fun _ hingested => history_subset_of_ingest hmoves hingested
  have hkept : ∀ ledger ∈ store.checkpoint, Covered chain outcome.store ledger :=
    fun ledger hledger => (hstored ledger hledger).mono hgrows
  have hsame : Covered chain outcome.store indexer.lastIndexedLedger := hindexed.mono hgrows
  cases hmoves with
  | alreadyProcessed hfound hprocessed =>
      exact ⟨hgrows, hsame, hkept,
        hhandles.next rfl hgrows (ingested_record _) (by rintro _ ⟨⟩; rfl), trivial⟩
  | notProcessed hopen => exact ⟨hgrows, hsame, hkept, hhandles.stay hgrows rfl, trivial⟩
  | contractProcessed hfound hprocessed =>
      exact ⟨hgrows, hsame, hkept,
        hhandles.next rfl hgrows (ingested_record _) (by rintro _ ⟨⟩), trivial⟩
  | found => exact ⟨hgrows, hsame, hkept, hhandles.stay hgrows rfl, trivial⟩
  | reopened => exact ⟨hgrows, hsame, hkept, hhandles.stay hgrows rfl, trivial⟩
  | duplicate => exact ⟨hgrows, hsame, hkept, trivial⟩
  | inserted hfresh => exact ⟨hgrows, hsame, hkept, hhandles.stay hgrows rfl, trivial⟩
  | transitioned => exact ⟨hgrows, hsame, hkept, hhandles.stay hgrows rfl, trivial⟩
  | insighted => exact ⟨hgrows, hsame, hkept, hhandles.stay hgrows rfl, trivial⟩
  | handled => exact ⟨hgrows, hsame, hkept, hhandles.stay hgrows rfl, trivial⟩
  | dispatched => exact ⟨hgrows, hsame, hkept, hhandles.stay hgrows rfl, trivial⟩
  | marked =>
      exact ⟨hgrows, hsame, hkept,
        hhandles.next rfl hgrows (ingested_record _) (by rintro _ ⟨⟩; rfl), trivial⟩
  | counted =>
      have hcovered := hhandles.covered rfl
      have hobserved : Covered chain store indexer.latestObservedLedger := by
        intro ledger hledger event hevent
        by_cases hown : ledger ≤ max call.reported call.startedAt
        · exact hcovered ledger hown event hevent
        · exact hnone call rfl ledger hledger (not_le.mp hown) event hevent
      refine ⟨hgrows, hcovered.of_le hhandles.reached, hstored, ?_⟩
      dsimp only
      split
      · exact ⟨hhandles.stay hgrows rfl, (hcovered.of_le hhandles.reached).max hobserved⟩
      · trivial
  | checkpointed =>
      refine ⟨hgrows, hsame, fun stored hstored => ?_, hhandles.stay hgrows rfl,
        Covered.mono hgrows hstage⟩
      obtain rfl := Option.some.inj (Option.mem_def.mp hstored)
      exact Covered.mono hgrows hstage
  | finished => exact ⟨hgrows, hstage, hstored, trivial⟩

end Ingesting

/-! ## Polling -/

section Polling

variable {chain : Chain Value} {config : Config} {store : Store Value} {indexer : Indexer}

@[simp]
theorem checkLag_lastIndexedLedger (ledger : ℕ) :
    (indexer.checkLag config ledger).lastIndexedLedger = indexer.lastIndexedLedger := by
  rw [Indexer.checkLag]
  split <;> rfl

/-- An ingestion that begins with all the events of a complete walk. -/
theorem sound_beginIngest {walk : Walk Value}
    (hindexed : Covered chain store indexer.lastIndexedLedger)
    (hstart : StartCovered chain store walk) (hcomplete : Complete chain walk) :
    Sound chain store (beginIngest indexer walk.reported walk.decodedEvents) := by
  refine ⟨⟨hindexed, le_max_right _ _, hcomplete.bounded, ?_⟩, trivial⟩
  intro ledger hledger event hevent
  by_cases hbefore : ledger < walk.startLedger
  · exact .inl (hstart ledger hbefore event hevent)
  · exact .inr (hcomplete.returned ledger hledger (not_lt.mp hbefore) event hevent)

theorem advanced_of_poll {environment : Environment Value} {thenIngest : Bool}
    {options : PollEventsOptions} {stage : PollStage Value} {after : Indexer}
    {process : Process Value} (hindexed : Covered chain store indexer.lastIndexedLedger)
    (hstored : ∀ ledger ∈ store.checkpoint, Covered chain store ledger)
    (hsound : Sound chain store (.pollContractEvents thenIngest options stage))
    (hwalks : ∀ walk ∈ walking (.pollContractEvents thenIngest options stage),
      walk.Ends environment.response → Complete chain (walk.read environment.response))
    (hnewest : fallsBack (.pollContractEvents thenIngest options stage) = true →
      ∀ ledger ∈ newestLedger store, Covered chain store ledger)
    (hmoves : PollMoves config environment.response store indexer thenIngest options stage after
      process) :
    Advanced chain store ⟨store, after, process⟩ := by
  have hgrows : ∀ event, Ingested store event → Ingested store event := fun _ hdone => hdone
  cases hmoves with
  | started hstart =>
      rw [hsound.1] at hstart
      cases hstart
  | reading hread =>
      obtain ⟨hafter, hanswer⟩ := covered_of_readLedger hread hindexed hstored hsound.2
        (by rintro rfl; exact hnewest rfl)
      exact ⟨hgrows, hafter, hstored, hsound.1, hanswer⟩
  | read hread =>
      obtain ⟨hafter, hanswer⟩ := covered_of_readLedger hread hindexed hstored hsound.2
        (by rintro rfl; exact hnewest rfl)
      exact ⟨hgrows, hafter, hstored,
        fun ledger hledger => hanswer ledger (Nat.le_of_lt_succ hledger)⟩
  | page => exact ⟨hgrows, hindexed, hstored, hsound⟩
  | lastPage hends => exact ⟨hgrows, hindexed, hstored, hsound, hwalks _ rfl hends, trivial⟩
  | repeatedCursor => exact ⟨hgrows, hindexed, hstored, trivial⟩
  | lagReading hread =>
      obtain ⟨hafter, hanswer⟩ := covered_of_readLedger hread hindexed hstored hsound.2.2
        (by rintro rfl; exact hnewest rfl)
      exact ⟨hgrows, hafter, hstored, hsound.1, hsound.2.1, hanswer⟩
  | @polled walk read after ledger hread =>
      obtain ⟨hafter, -⟩ := covered_of_readLedger hread hindexed hstored hsound.2.2
        (by rintro rfl; exact hnewest rfl)
      have hchecked : Covered chain store (after.checkLag config ledger).lastIndexedLedger := by
        rw [checkLag_lastIndexedLedger]
        exact hafter
      refine ⟨hgrows, hchecked, hstored, ?_⟩
      rw [endPoll]
      dsimp only
      split
      · exact sound_beginIngest hchecked hsound.1 hsound.2.1
      · trivial

end Polling

/-! ## Runs -/

/-- The service has just started, over a checkpoint that is covered. -/
structure Initial (chain : Chain Value) (world : World Value) : Prop where
  started : world.indexer = {}
  stored : ∀ ledger ∈ world.store.checkpoint, Covered chain world.store ledger
  idle : ∀ caller, isOver (world.process caller) = true

theorem sound_of_isOver {chain : Chain Value} {store : Store Value} {process : Process Value}
    (hover : isOver process = true) : Sound chain store process := by
  cases process with
  | idle => trivial
  | ended result => trivial
  | _ => cases hover

theorem Initial.invariant {chain : Chain Value} {world : World Value}
    (hinitial : Initial chain world) : Invariant chain world where
  indexed := by
    rw [hinitial.started]
    exact covered_zero chain world.store
  stored := hinitial.stored
  sound caller := sound_of_isOver (hinitial.idle caller)

/-- The claim's assumption together with the condition. -/
def Guard (chain : Chain Value) (world : World Value) (event : Event Value) : Prop :=
  Walks chain world event ∧ NoneWaiting chain world event

theorem invariant_of_step {chain : Chain Value} {config : Config} {before after : World Value}
    {event : Event Value} (hguard : Guard chain before event)
    (hstep : step config before event = some after) (hinvariant : Invariant chain before) :
    Invariant chain after := by
  obtain ⟨caller, action⟩ := event
  obtain ⟨hindexed, hstored, hsound⟩ := hinvariant
  cases action with
  | start =>
      dsimp only [step] at hstep
      split at hstep
      · obtain rfl := Option.some.inj hstep
        exact ⟨hindexed, hstored, forall_setProcess (P := fun _ => Sound chain before.store)
          ⟨rfl, trivial⟩ fun other _ => hsound other⟩
      · cases hstep
  | advance environment =>
      obtain ⟨hwalks, hnone, hnewest⟩ := hguard
      obtain ⟨outcome, houtcome, rfl⟩ := Option.map_eq_some_iff.mp hstep
      have hadvanced : Advanced chain before.store outcome := by
        have hcaller := hsound caller
        dsimp only [Walks] at hwalks hnone hnewest houtcome
        generalize before.process caller = process at hcaller hwalks hnone hnewest houtcome
        cases process with
        | idle => cases houtcome
        | ended result => cases houtcome
        | saveCheckpoint ledgerSequence stage => cases hcaller
        | pollContractEvents thenIngest options stage =>
            obtain rfl := Option.some.inj houtcome
            obtain ⟨after, process, hafter, hmoves⟩ := pollMoves_of_advance config environment
              before.store before.indexer thenIngest options stage
            rw [hafter]
            exact advanced_of_poll hindexed hstored hcaller hwalks hnewest hmoves
        | ingestEvents call stage =>
            obtain rfl := Option.some.inj houtcome
            exact advanced_of_ingest hindexed hstored hcaller hnone
              (ingestMoves_of_advance config environment before.store before.indexer call stage)
      exact ⟨hadvanced.indexed, hadvanced.stored,
        forall_setProcess (P := fun _ => Sound chain outcome.store) hadvanced.sound
          fun other _ => Sound.mono hadvanced.grows (hsound other)⟩
  | fail =>
      obtain rfl := Option.some.inj hstep
      exact ⟨hindexed, hstored, forall_setProcess (P := fun _ => Sound chain before.store)
        trivial fun other _ => hsound other⟩

/-- In every run under the condition, everything up to the stored ledger is ingested. -/
theorem checkpoint_covered {chain : Chain Value} {config : Config} {first last : World Value}
    {events : List (Event Value)} (hinitial : Initial chain first)
    (hrun : GuardedRun (step config) (Guard chain) first events last) :
    ∀ ledger ∈ last.store.checkpoint, Covered chain last.store ledger :=
  (hrun.invariant invariant_of_step hinitial.invariant).stored

/-! ## Two cycles over one event each -/

instance (store : Store Unit) (event : DecodedSorobanEvent Unit) :
    Decidable (Ingested store event) :=
  inferInstanceAs (Decidable (_ ∈ store.history))

instance (chain : Chain Unit) (store : Store Unit) (ledger : ℕ) :
    Decidable (Covered chain store ledger) :=
  inferInstanceAs (Decidable (∀ earlier ≤ ledger, ∀ event ∈ chain.events earlier,
    (event, Effect.ingested) ∈ store.history))

instance (chain : Chain Unit) (walk : Walk Unit) : Decidable (Complete chain walk) :=
  decidable_of_iff ((∀ event ∈ walk.decodedEvents, event.ledger ≤ walk.reported) ∧
      ∀ ledger ≤ walk.reported, walk.startLedger ≤ ledger →
        ∀ event ∈ chain.events ledger, event ∈ walk.decodedEvents)
    ⟨fun hboth => ⟨hboth.1, hboth.2⟩, fun hcomplete => ⟨hcomplete.bounded, hcomplete.returned⟩⟩

instance (chain : Chain Unit) (world : World Unit) (event : Event Unit) :
    Decidable (Walks chain world event) :=
  match event with
  | ⟨_, .start⟩ => inferInstanceAs (Decidable True)
  | ⟨caller, .advance environment⟩ =>
      inferInstanceAs (Decidable (∀ walk ∈ walking (world.process caller),
        walk.Ends environment.response → Complete chain (walk.read environment.response)))
  | ⟨_, .fail⟩ => inferInstanceAs (Decidable True)

instance (chain : Chain Unit) (world : World Unit) (event : Event Unit) :
    Decidable (Guard chain world event) :=
  match event with
  | ⟨_, .start⟩ => inferInstanceAs (Decidable (True ∧ True))
  | ⟨caller, .advance environment⟩ =>
      inferInstanceAs (Decidable (Walks chain world ⟨caller, .advance environment⟩ ∧
        (∀ call ∈ finishing (world.process caller),
          ∀ ledger ≤ world.indexer.latestObservedLedger,
            max call.reported call.startedAt < ledger → ∀ waiting ∈ chain.events ledger,
              (waiting, Effect.ingested) ∈ world.store.history) ∧
        (fallsBack (world.process caller) = true →
          ∀ ledger ∈ newestLedger world.store, Covered chain world.store ledger)))
  | ⟨_, .fail⟩ => inferInstanceAs (Decidable (True ∧ True))

/-- One event in ledger 5, and one in ledger 8. -/
def twoPayments : Chain Unit where
  events ledger :=
    if ledger = 5 then [paymentEvent "e5" 5] else if ledger = 8 then [paymentEvent "e8" 8] else []
  ledger_eq := by
    intro ledger event hevent
    split at hevent
    · rename_i hledger
      rw [List.mem_singleton.mp hevent, hledger]
      rfl
    · split at hevent
      · rename_i hledger
        rw [List.mem_singleton.mp hevent, hledger]
        rfl
      · cases hevent
  genesis := rfl

/-- A cycle up to its first page. -/
def pollPage (caller : Caller) (response : Response Unit) : List (Event Unit) :=
  ⟨caller, .start⟩ :: List.replicate 3 ⟨caller, .advance {}⟩ ++
    [⟨caller, .advance { response := response }⟩]

/-- The rest of a cycle over one event. -/
def ingestPage (caller : Caller) : List (Event Unit) :=
  List.replicate 13 ⟨caller, .advance {}⟩

def onePayment : Response Unit := { events := [paymentEvent "e5" 5], latestLedger := some 5 }

def bothPayments : Response Unit :=
  { events := [paymentEvent "e5" 5, paymentEvent "e8" 8], latestLedger := some 8 }

def freshWorld : World Unit := {}

theorem freshWorld_initial (chain : Chain Unit) : Initial chain freshWorld :=
  { started := rfl
    stored := fun ledger hledger => by cases hledger
    idle := fun _ => rfl }

/-- The stored ledger, and whether everything up to it is ingested. -/
def observeCheckpoint (world : World Unit) : Option ℕ × Bool :=
  (world.store.checkpoint, decide (Covered twoPayments world.store 8))

/-- The timer polls up to ledger 5; the worker polls up to ledger 8 before the timer has
ingested what it polled, and then fails. -/
def workerPollsBetween : List (Event Unit) :=
  pollPage .timer onePayment ++ pollPage .worker bothPayments ++ ingestPage .timer ++
    [⟨.worker, .fail⟩]

theorem workerPollsBetween_skips : ∃ last,
    GuardedRun (step noHandlers) (Walks twoPayments) freshWorld workerPollsBetween last ∧
      Initial twoPayments freshWorld ∧ last.store.checkpoint = some 8 ∧
      ¬Covered twoPayments last.store 8 := by
  have hexec : (execGuarded (step noHandlers) (Walks twoPayments) freshWorld
      workerPollsBetween).map observeCheckpoint = some (some 8, false) := by
    decide +kernel
  obtain ⟨last, hrun, hobserved⟩ := exists_guardedRun hexec
  obtain ⟨hstored, hskipped⟩ := Prod.mk.inj hobserved
  exact ⟨last, hrun, freshWorld_initial twoPayments, hstored, of_decide_eq_false hskipped⟩

/-- A cycle on its own covers the ledger that it stores. -/
theorem timerAlone_covered : ∃ last,
    GuardedRun (step noHandlers) (Guard twoPayments) freshWorld
        (pollPage .timer onePayment ++ ingestPage .timer) last ∧
      last.store.checkpoint = some 5 ∧ Covered twoPayments last.store 5 := by
  have hexec : (execGuarded (step noHandlers) (Guard twoPayments) freshWorld
      (pollPage .timer onePayment ++ ingestPage .timer)).map observeCheckpoint =
        some (some 5, false) := by
    decide +kernel
  obtain ⟨last, hrun, hobserved⟩ := exists_guardedRun hexec
  have hstored : last.store.checkpoint = some 5 := (Prod.mk.inj hobserved).1
  exact ⟨last, hrun, hstored, checkpoint_covered (freshWorld_initial twoPayments) hrun 5 hstored⟩

end StellarSettle.PollCycles
