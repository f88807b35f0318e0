import StellarSettle.Core.TransitionSystem
import StellarSettle.Indexer.EventIndexerService

/-!
# The durable checkpoint

`saveCheckpoint` compares its ledger with the stored one; `ingestEvents` stores the
largest ledger that the service knows of, which a restart resets.  Calls of any number
of services follow one another here, with restarts in between.
-/

namespace StellarSettle.Checkpoint

open StellarSettle.ContractEventBus
open StellarSettle.EventIndexerService
open StellarSettle.TransitionSystem

variable {Value : Type}

/-! ## Sequences of calls -/

/-- The services over one database, and the call that is under way. -/
structure World (Value : Type) where
  store : Store Value
  indexer : ℕ → Indexer := fun _ => {}
  running : Option (ℕ × Process Value) := none

inductive Event (Value : Type) where
  | call (service : ℕ) (request : Request Value)
  | advance (environment : Environment Value)
  | fail
  | restart (service : ℕ)

/-- The call goes on, or is over. -/
def Process.running (service : ℕ) : Process Value → Option (ℕ × Process Value)
  | .idle => none
  | .ended _ => none
  | process => some (service, process)

def World.apply (world : World Value) (service : ℕ) (outcome : Outcome Value) : World Value :=
  { store := outcome.store
    indexer := setProcess world.indexer service outcome.indexer
    running := Process.running service outcome.process }

def step (config : Config) (world : World Value) : Event Value → Option (World Value)
  | .call service request =>
      match world.running with
      | none =>
          some { world with running := some (service, request.process (world.indexer service)) }
      | some _ => none
  | .advance environment =>
      match world.running with
      | none => none
      | some (service, process) =>
          (advance config environment world.store (world.indexer service) process).map
            (world.apply service)
  | .fail => some { world with running := none }
  | .restart service =>
      match world.running with
      | none => some { world with indexer := setProcess world.indexer service {} }
      | some _ => none

/-! ## The condition -/

/-- The ledger that is about to be stored has reached the stored one: the service began
with a ledger, has observed a ledger, or was handed an event that has. -/
def Reaches (indexer : Indexer) (call : Ingestion Value) (stored : ℕ) : Prop :=
  stored ≤ call.startedAt ∨ stored ≤ indexer.latestObservedLedger ∨
    ∃ event ∈ call.batch, stored ≤ event.ledger

instance (indexer : Indexer) (call : Ingestion Value) (stored : ℕ) :
    Decidable (Reaches indexer call stored) :=
  inferInstanceAs (Decidable (_ ∨ _ ∨ ∃ event ∈ call.batch, _))

def ReachesStored (world : World Value) (_ : Event Value) : Prop :=
  ∀ running ∈ world.running, ∀ call ∈ finishing running.2, ∀ stored ∈ world.store.checkpoint,
    Reaches (world.indexer running.1) call stored

instance (world : World Value) (event : Event Value) : Decidable (ReachesStored world event) :=
  inferInstanceAs (Decidable (∀ running ∈ world.running, ∀ call ∈ finishing running.2,
    ∀ stored ∈ world.store.checkpoint, _))

/-! ## What a call knows -/

/-- No two log rows have one id, and no id is empty. -/
structure OneRowEach (store : Store Value) : Prop where
  distinct : (store.eventLogs.filterMap SorobanEventLog.eventId).Nodup
  named : ∀ row ∈ store.eventLogs, row.eventId ≠ some ""

/-- What has been read for the current event is still so. -/
def Current (store : Store Value) : IngestStage Value → Prop
  | .findEvent existingLog event _ =>
      existingLog = findLog store (eventKey event) ∧
        ∀ row ∈ existingLog, row.processed = false
  | .save existingLog event _ => existingLog = findLog store (eventKey event)
  | .checkpoint ledger => ∀ stored ∈ store.checkpoint, stored ≤ ledger
  | _ => True

structure Counted (call : Ingestion Value) (stage : IngestStage Value) : Prop where
  started : call.startedAt ≤ call.highestProcessedLedger
  counted : ∀ event ∈ call.batch,
    event ∈ pending stage ∨ event.ledger ≤ call.highestProcessedLedger

def Sound (store : Store Value) : Process Value → Prop
  | .ingestEvents call stage => Counted call stage ∧ Current store stage
  | .saveCheckpoint ledgerSequence .save =>
      ∀ stored ∈ store.checkpoint, (stored : ℤ) ≤ ledgerSequence
  | _ => True

structure Invariant (world : World Value) : Prop where
  rows : OneRowEach world.store
  sound : ∀ running ∈ world.running, Sound world.store running.2

/-! ## Log rows -/

section Rows

variable {store : Store Value} {event : DecodedSorobanEvent Value} {eventId : String}

theorem OneRowEach.updateProcessed (hrows : OneRowEach store) (processed : Bool) :
    OneRowEach (updateProcessed store eventId processed) where
  distinct := by
    have hsame : (EventIndexerService.updateProcessed store eventId processed).eventLogs.filterMap
        SorobanEventLog.eventId = store.eventLogs.filterMap SorobanEventLog.eventId := by
      rw [EventIndexerService.updateProcessed, List.filterMap_map]
      refine List.filterMap_congr fun row _ => ?_
      rw [Function.comp_apply]
      split <;> rfl
    rw [hsame]
    exact hrows.distinct
  named := by
    intro row hrow
    obtain ⟨old, hold, rfl⟩ := List.mem_map.mp hrow
    split
    · exact hrows.named old hold
    · exact hrows.named old hold

theorem findLog_eq_none : findLog store eventId = none ↔
    ∀ row ∈ store.eventLogs, row.eventId ≠ some eventId := by
  simp [findLog]

theorem OneRowEach.insertLog (hrows : OneRowEach store)
    (hfresh : findLog store (eventKey event) = none) : OneRowEach (insertLog store event) where
  distinct := by
    rw [EventIndexerService.insertLog, List.filterMap_append, List.nodup_append]
    refine ⟨hrows.distinct, by simp, fun old hold new hnew hsame => ?_⟩
    obtain ⟨row, hrow, hid⟩ := List.mem_filterMap.mp hold
    have hkey : new = eventKey event := by simpa using hnew
    exact findLog_eq_none.mp hfresh row hrow (by rw [hid, hsame, hkey])
  named := by
    intro row hrow
    rcases List.mem_append.mp hrow with hold | hnew
    · exact hrows.named row hold
    · obtain rfl := List.mem_singleton.mp hnew
      exact fun hempty => eventKey_ne_empty event (Option.some.inj hempty)

/-- The only row of an id is the one that is found. -/
theorem OneRowEach.findLog_eq (hrows : OneRowEach store) {row : SorobanEventLog}
    (hmem : row ∈ store.eventLogs) (hid : row.eventId = some eventId) :
    findLog store eventId = some row := by
  have hdistinct := hrows.distinct
  rw [findLog]
  generalize store.eventLogs = rows at hmem hdistinct
  induction rows with
  | nil => cases hmem
  | cons first rest ih =>
      rcases List.mem_cons.mp hmem with rfl | htail
      · simp [hid]
      · have hother : first.eventId ≠ some eventId := by
          intro hsame
          rw [List.filterMap_cons, hsame] at hdistinct
          exact (List.nodup_cons.mp hdistinct).1 (List.mem_filterMap.mpr ⟨row, htail, hid⟩)
        have hrest : (rest.filterMap SorobanEventLog.eventId).Nodup :=
          hdistinct.sublist ((List.sublist_cons_self first rest).filterMap _)
        rw [List.find?_cons_of_neg (by simpa using hother)]
        exact ih htail hrest

/-- With one row for each id, the second look-up finds nothing new. -/
theorem OneRowEach.not_contractProcessed (hrows : OneRowEach store) {row : SorobanEventLog}
    (hopen : ∀ found ∈ findLog store (eventKey event), found.processed = false)
    (hfound : findContractLog store event.contractId event.id = some row) :
    row.processed = false := by
  have hmem := List.mem_of_find?_eq_some hfound
  have hmatch := List.find?_some hfound
  rw [Bool.and_eq_true, beq_iff_eq, beq_iff_eq] at hmatch
  have hnamed : event.id ≠ "" := fun hempty =>
    hrows.named row hmem (by rw [hmatch.2, hempty])
  have hkey : eventKey event = event.id := if_pos hnamed
  refine hopen row ?_
  rw [hkey]
  exact hrows.findLog_eq hmem hmatch.2

end Rows

/-! ## Steps -/

section Steps

variable {config : Config} {store : Store Value} {indexer : Indexer} {call : Ingestion Value}
  {stage : IngestStage Value} {outcome : Outcome Value}

/-- An ingestion that begins has all of its events before it. -/
theorem sound_beginIngest {reported : ℕ} {events : List (DecodedSorobanEvent Value)} :
    Sound store (beginIngest indexer reported events) :=
  ⟨⟨le_rfl, fun _ hevent => .inl hevent⟩, trivial⟩

theorem Counted.next {event : DecodedSorobanEvent Value}
    {remaining : List (DecodedSorobanEvent Value)} (hcounted : Counted call stage)
    (hpending : pending stage = event :: remaining) :
    Counted (call.count (some event.ledger)) (.next remaining) where
  started := hcounted.started.trans (le_max_left _ _)
  counted := by
    intro other hother
    rcases hcounted.counted other hother with hleft | hless
    · rw [hpending] at hleft
      rcases List.mem_cons.mp hleft with rfl | hrest
      · exact .inr (le_max_right _ _)
      · exact .inl hrest
    · exact .inr (hless.trans (le_max_left _ _))

theorem Counted.stay {next : IngestStage Value} (hcounted : Counted call stage)
    (hpending : pending next = pending stage) : Counted call next where
  started := hcounted.started
  counted := by
    rw [hpending]
    exact hcounted.counted

theorem kept_of_ingest (hrows : OneRowEach store) (hsound : Sound store (.ingestEvents call stage))
    (hmoves : IngestMoves config store indexer call stage outcome)
    (hreaches : ∀ finished ∈ finishing (.ingestEvents call stage), ∀ stored ∈ store.checkpoint,
      Reaches indexer finished stored) :
    OneRowEach outcome.store ∧ Sound outcome.store outcome.process ∧
      ∀ stored ∈ store.checkpoint, ∃ kept ∈ outcome.store.checkpoint, stored ≤ kept := by
  obtain ⟨hcounted, hcurrent⟩ := hsound
  have hsame : ∀ stored ∈ store.checkpoint, ∃ kept ∈ store.checkpoint, stored ≤ kept :=
    fun stored hstored => ⟨stored, hstored, le_rfl⟩
  cases hmoves with
  | alreadyProcessed hfound hprocessed =>
      exact ⟨⟨hrows.distinct, hrows.named⟩, ⟨hcounted.next rfl, trivial⟩, hsame⟩
  | notProcessed hopen => exact ⟨hrows, ⟨hcounted.stay rfl, rfl, hopen⟩, hsame⟩
  | contractProcessed hfound hprocessed =>
      obtain ⟨rfl, hopen⟩ := hcurrent
      rw [hrows.not_contractProcessed hopen hfound] at hprocessed
      cases hprocessed
  | found => exact ⟨hrows, ⟨hcounted.stay rfl, hcurrent.1⟩, hsame⟩
  | reopened => exact ⟨hrows.updateProcessed false, ⟨hcounted.stay rfl, trivial⟩, hsame⟩
  | duplicate => exact ⟨hrows, trivial, hsame⟩
  | inserted hfresh =>
      exact ⟨hrows.insertLog hcurrent.symm, ⟨hcounted.stay rfl, trivial⟩, hsame⟩
  | transitioned =>
      exact ⟨⟨hrows.distinct, hrows.named⟩, ⟨hcounted.stay rfl, trivial⟩, hsame⟩
  | insighted => exact ⟨⟨hrows.distinct, hrows.named⟩, ⟨hcounted.stay rfl, trivial⟩, hsame⟩
  | handled => exact ⟨⟨hrows.distinct, hrows.named⟩, ⟨hcounted.stay rfl, trivial⟩, hsame⟩
  | dispatched => exact ⟨hrows, ⟨hcounted.stay rfl, trivial⟩, hsame⟩
  | @marked event remaining =>
      have hmarked : OneRowEach (updateProcessed store (eventKey event) true) :=
        hrows.updateProcessed true
      exact ⟨⟨hmarked.distinct, hmarked.named⟩, ⟨hcounted.next rfl, trivial⟩, hsame⟩
  | counted =>
      refine ⟨hrows, ?_, hsame⟩
      dsimp only
      split
      · refine ⟨hcounted.stay rfl, fun stored hstored => ?_⟩
        rcases hreaches call rfl stored hstored with hstart | hobserved | ⟨event, hevent, hless⟩
        · exact (hstart.trans hcounted.started).trans (le_max_left _ _)
        · exact hobserved.trans (le_max_right _ _)
        · rcases hcounted.counted event hevent with hleft | hcount
          · cases hleft
          · exact (hless.trans hcount).trans (le_max_left _ _)
      · trivial
  | checkpointed =>
      exact ⟨⟨hrows.distinct, hrows.named⟩, ⟨hcounted.stay rfl, trivial⟩,
        fun stored hstored => ⟨_, rfl, hcurrent stored hstored⟩⟩
  | finished => exact ⟨hrows, trivial, hsame⟩

theorem kept_of_save {ledgerSequence : ℤ} {stage : SaveStage} (hrows : OneRowEach store)
    (hsound : Sound store (.saveCheckpoint ledgerSequence stage)) :
    OneRowEach (advanceSave store indexer ledgerSequence stage).store ∧
      Sound (advanceSave store indexer ledgerSequence stage).store
        (advanceSave store indexer ledgerSequence stage).process ∧
      ∀ stored ∈ store.checkpoint,
        ∃ kept ∈ (advanceSave store indexer ledgerSequence stage).store.checkpoint,
          stored ≤ kept := by
  have hsame : ∀ stored ∈ store.checkpoint, ∃ kept ∈ store.checkpoint, stored ≤ kept :=
    fun stored hstored => ⟨stored, hstored, le_rfl⟩
  cases stage with
  | check =>
      rw [advanceSave]
      split
      · exact ⟨hrows, trivial, hsame⟩
      · exact ⟨hrows, trivial, hsame⟩
  | find =>
      rw [advanceSave]
      split
      · exact ⟨hrows, trivial, hsame⟩
      · rename_i hless
        refine ⟨hrows, fun stored hstored => ?_, hsame⟩
        rw [Option.mem_def.mp hstored, Option.getD_some] at hless
        exact (not_le.mp hless).le
  | save =>
      refine ⟨⟨hrows.distinct, hrows.named⟩, trivial, fun stored hstored => ⟨_, rfl, ?_⟩⟩
      have hless : (stored : ℤ) ≤ ledgerSequence := hsound stored hstored
      omega
  | finish => exact ⟨hrows, trivial, hsame⟩

end Steps

/-! ## Runs -/

/-- No call is under way, and the log has one row for each event. -/
structure Initial (world : World Value) : Prop where
  rows : OneRowEach world.store
  idle : world.running = none

/-- What the condition ensures of one step. -/
structure Kept (before after : World Value) : Prop where
  invariant : Invariant after
  stored : ∀ ledger ∈ before.store.checkpoint, ∃ kept ∈ after.store.checkpoint, ledger ≤ kept

theorem Kept.refl {world : World Value} (hinvariant : Invariant world) : Kept world world :=
  ⟨hinvariant, fun ledger hledger => ⟨ledger, hledger, le_rfl⟩⟩

theorem sound_of_running {store : Store Value} {service : ℕ} {process : Process Value}
    (hsound : Sound store process) :
    ∀ running ∈ Process.running service process, Sound store running.2 := by
  intro running hrunning
  cases process with
  | idle => cases hrunning
  | ended result => cases hrunning
  | _ =>
      obtain rfl := Option.some.inj (Option.mem_def.mp hrunning)
      exact hsound

theorem kept_of_advance {config : Config} {environment : Environment Value} {store : Store Value}
    {indexer : Indexer} {process : Process Value} {outcome : Outcome Value}
    (hrows : OneRowEach store) (hsound : Sound store process)
    (hreaches : ∀ call ∈ finishing process, ∀ stored ∈ store.checkpoint,
      Reaches indexer call stored)
    (hadvance : advance config environment store indexer process = some outcome) :
    OneRowEach outcome.store ∧ Sound outcome.store outcome.process ∧
      ∀ stored ∈ store.checkpoint, ∃ kept ∈ outcome.store.checkpoint, stored ≤ kept := by
  cases process with
  | idle => cases hadvance
  | ended result => cases hadvance
  | pollContractEvents thenIngest options stage =>
      obtain rfl := Option.some.inj hadvance
      obtain ⟨after, process, hafter, hmoves⟩ :=
        pollMoves_of_advance config environment store indexer thenIngest options stage
      rw [hafter]
      refine ⟨hrows, ?_, fun stored hstored => ⟨stored, hstored, le_rfl⟩⟩
      cases hmoves with
      | polled hread =>
          rw [endPoll]
          dsimp only
          split
          · exact sound_beginIngest
          · trivial
      | _ => trivial
  | ingestEvents call stage =>
      obtain rfl := Option.some.inj hadvance
      exact kept_of_ingest hrows hsound
        (ingestMoves_of_advance config environment store indexer call stage) hreaches
  | saveCheckpoint ledgerSequence stage =>
      obtain rfl := Option.some.inj hadvance
      exact kept_of_save hrows hsound

theorem kept_of_step {config : Config} {before after : World Value} {event : Event Value}
    (hguard : ReachesStored before event) (hstep : step config before event = some after)
    (hinvariant : Invariant before) : Kept before after := by
  obtain ⟨hrows, hsound⟩ := hinvariant
  have hsame : ∀ stored ∈ before.store.checkpoint, ∃ kept ∈ before.store.checkpoint,
      stored ≤ kept := fun stored hstored => ⟨stored, hstored, le_rfl⟩
  cases event with
  | call service request =>
      dsimp only [step] at hstep
      split at hstep
      · obtain rfl := Option.some.inj hstep
        refine ⟨⟨hrows, fun running hrunning => ?_⟩, hsame⟩
        obtain rfl := Option.some.inj (Option.mem_def.mp hrunning)
        cases request with
        | pollContractEvents thenIngest options => trivial
        | ingestEvents events => exact sound_beginIngest
        | saveCheckpoint ledgerSequence => trivial
      · cases hstep
  | advance environment =>
      dsimp only [step] at hstep
      split at hstep
      · cases hstep
      · rename_i service process hrunning
        obtain ⟨outcome, houtcome, rfl⟩ := Option.map_eq_some_iff.mp hstep
        obtain ⟨hrowsAfter, hsoundAfter, hkept⟩ := kept_of_advance hrows
          (hsound _ hrunning) (hguard _ hrunning) houtcome
        exact ⟨⟨hrowsAfter, sound_of_running hsoundAfter⟩, hkept⟩
  | fail =>
      obtain rfl := Option.some.inj hstep
      exact ⟨⟨hrows, fun running hrunning => by cases hrunning⟩, hsame⟩
  | restart service =>
      dsimp only [step] at hstep
      split at hstep
      · rename_i hidle
        obtain rfl := Option.some.inj hstep
        refine ⟨⟨hrows, fun running hrunning => ?_⟩, hsame⟩
        rw [hidle] at hrunning
        cases hrunning
      · cases hstep

theorem kept_of_run {config : Config} {first last : World Value} {events : List (Event Value)}
    (hrun : GuardedRun (step config) ReachesStored first events last)
    (hinvariant : Invariant first) : Kept first last := by
  induction hrun with
  | nil world => exact .refl hinvariant
  | cons hguard hstep _ ih =>
      have hkept := kept_of_step hguard hstep hinvariant
      have hrest := ih hkept.invariant
      refine ⟨hrest.invariant, fun ledger hledger => ?_⟩
      obtain ⟨middle, hmiddle, hless⟩ := hkept.stored ledger hledger
      obtain ⟨kept, hstored, hmore⟩ := hrest.stored middle hmiddle
      exact ⟨kept, hstored, hless.trans hmore⟩

/-- In every run under the condition, the stored ledger never decreases. -/
theorem checkpoint_never_decreases {config : Config} {first middle last : World Value}
    {before after : List (Event Value)} (hinitial : Initial first)
    (hbefore : GuardedRun (step config) ReachesStored first before middle)
    (hafter : GuardedRun (step config) ReachesStored middle after last) :
    ∀ ledger ∈ middle.store.checkpoint, ∃ kept ∈ last.store.checkpoint, ledger ≤ kept := by
  have hfirst : Invariant first :=
    ⟨hinitial.rows, fun running hrunning => by rw [hinitial.idle] at hrunning; cases hrunning⟩
  exact (kept_of_run hafter (kept_of_run hbefore hfirst).invariant).stored

/-! ## A replay after a restart -/

/-- The call of `ingestEvents` for one event, from its start to its end. -/
def ingestOne (service : ℕ) (event : DecodedSorobanEvent Unit) (steps : ℕ) : List (Event Unit) :=
  .call service (.ingestEvents [event]) :: List.replicate steps (.advance {})

def storedLedger (world : World Unit) : Option ℕ := world.store.checkpoint

def emptyWorld : World Unit := { store := {} }

/-- Two events are ingested, and the older one again after a restart. -/
def replayAfterRestart : List (Event Unit) :=
  ingestOne 0 (paymentEvent "e1" 10) 10 ++ ingestOne 0 (paymentEvent "e2" 20) 10 ++
    .restart 0 :: ingestOne 0 (paymentEvent "e1" 10) 2

theorem replayAfterRestart_decreases : ∃ middle last,
    Run (step noHandlers) emptyWorld replayAfterRestart middle ∧
      Run (step noHandlers) middle [.advance {}] last ∧
      storedLedger middle = some 20 ∧ storedLedger last = some 10 := by
  have hbefore : (exec (step noHandlers) emptyWorld replayAfterRestart).map storedLedger =
      some (some 20) := by
    decide +kernel
  have hafter : (exec (step noHandlers) emptyWorld (replayAfterRestart ++ [.advance {}])).map
      storedLedger = some (some 10) := by
    decide +kernel
  obtain ⟨last, hlast, hless⟩ := exists_run hafter
  obtain ⟨middle, hmiddle, _, hwrite⟩ := hlast.last_event
  rw [hmiddle, Option.map_some, Option.some.injEq] at hbefore
  exact ⟨middle, last, run_of_exec hmiddle, .cons trivial hwrite (.nil last), hbefore, hless⟩

/-- A service that has just started, over a checkpoint at ledger 20. -/
def restartedWorld : World Unit := { store := { checkpoint := some 20 } }

/-- An event of a later ledger moves the checkpoint on. -/
theorem laterEvent_advances : ∃ last,
    GuardedRun (step noHandlers) ReachesStored restartedWorld
        (ingestOne 0 (paymentEvent "e3" 30) 10) last ∧
      ∃ kept ∈ last.store.checkpoint, 20 ≤ kept := by
  have hexec : (execGuarded (step noHandlers) ReachesStored restartedWorld
      (ingestOne 0 (paymentEvent "e3" 30) 10)).map storedLedger = some (some 30) := by
    decide +kernel
  obtain ⟨last, hrun, _⟩ := exists_guardedRun hexec
  have hinitial : Initial restartedWorld :=
    ⟨⟨List.nodup_nil, fun _ hrow => by cases hrow⟩, rfl⟩
  exact ⟨last, hrun, checkpoint_never_decreases hinitial (.nil restartedWorld) hrun 20 rfl⟩

end StellarSettle.Checkpoint
