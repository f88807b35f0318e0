import StellarSettle.Core.BoundedRuns
import StellarSettle.Effects.NotificationDispatcher

/-!
# What becomes of the dispatched jobs

Every accepted job is in one place: in the queue, in a run, at a retry timer, among the delivered
jobs or among the dead letters.  Whatever callback comes next, the counters stay the numbers of
what they count, the pending ids stay those of the jobs that are not done, and while there is one
of these, some callback is outstanding.
-/

namespace StellarSettle.DispatchedJobs

open StellarSettle.BoundedRuns
open StellarSettle.Checks
open StellarSettle.Entities (Thrown Timestamp)
open StellarSettle.NotificationDispatcher
open StellarSettle.TransitionSystem

/-! ## What the dispatcher should do -/

/-- The jobs of the runs that are neither delivered nor given up. -/
def openJobs (runs : List JobRun) : List Job :=
  (runs.filter fun run => run.phase.isOpen).map JobRun.job

def undelivered (dispatcher : Dispatcher) : List Job :=
  dispatcher.queue ++ openJobs dispatcher.runs ++ dispatcher.retries.map Retry.job

/-- The user whom a notification tells of an event. -/
def told (row : StoredNotification) : String × String := (row.eventId, row.notification.userId)

structure Correct (options : Options) (dispatcher : Dispatcher) : Prop where
  outcome : (dispatcher.delivered.map Job.number ++
      dispatcher.deadLetters.map (fun letter => letter.number) ++
      (undelivered dispatcher).map Job.number).Perm (List.range dispatcher.accepted)
  deliveredAttempts : ∀ job ∈ dispatcher.delivered,
    1 ≤ job.attempts ∧ job.attempts ≤ options.maxAttempts
  deadAttempts : ∀ letter ∈ dispatcher.deadLetters, letter.attempts = options.maxAttempts
  oneForEvent : ((undelivered dispatcher).map Job.eventId).Nodup
  concurrent : dispatcher.runs.length ≤ options.concurrency
  idle : ∀ moment ∈ dispatcher.resolved,
    moment.queued = 0 ∧ moment.running = 0 ∧ moment.retrying = 0
  toldOnce : (dispatcher.store.rows.map told).Nodup

/-! ## The invariant -/

def keyed (row : StoredNotification) : Prop :=
  storedKey row = dedupeKey row.eventId row.notification.userId

/-- What holds of a run. -/
structure RunFits (options : Options) (run : JobRun) : Prop where
  attempts : run.phase.isOpen = true →
    1 ≤ run.job.attempts ∧ run.job.attempts ≤ options.maxAttempts
  keyed : ∀ entries, run.phase = .writing entries → ∀ entry ∈ entries,
    keyed ⟨run.job.eventId, entry⟩

/-- Each accepted job is in one place, and the pending ids are those of the jobs that are not
done. -/
structure Ledger (dispatcher : Dispatcher) : Prop where
  census : ∀ number, (dispatcher.delivered.map Job.number).count number +
      (dispatcher.deadLetters.map fun letter => letter.number).count number +
      ((undelivered dispatcher).map Job.number).count number =
    if number < dispatcher.accepted then 1 else 0
  pending : ∀ eventId, ((undelivered dispatcher).map Job.eventId).count eventId =
    if eventId ∈ dispatcher.pending then 1 else 0

structure Kept (options : Options) (dispatcher : Dispatcher) : Prop where
  active : dispatcher.active = dispatcher.runs.length
  scheduled : dispatcher.scheduledRetries = dispatcher.retries.length
  bounded : dispatcher.active ≤ options.concurrency
  ledger : Ledger dispatcher
  queued : ∀ job ∈ dispatcher.queue, job.attempts < options.maxAttempts
  runs : ∀ run ∈ dispatcher.runs, RunFits options run
  retrying : ∀ timer ∈ dispatcher.retries, timer.job.attempts < options.maxAttempts
  deliveredAttempts : ∀ job ∈ dispatcher.delivered,
    1 ≤ job.attempts ∧ job.attempts ≤ options.maxAttempts
  deadAttempts : ∀ letter ∈ dispatcher.deadLetters, letter.attempts = options.maxAttempts
  idle : ∀ moment ∈ dispatcher.resolved,
    moment.queued = 0 ∧ moment.running = 0 ∧ moment.retrying = 0
  stored : ∀ row ∈ dispatcher.store.rows, keyed row

/-- A job that waits in the queue has all places taken before it, or a pump coming. -/
def Busy (options : Options) (dispatcher : Dispatcher) : Prop :=
  dispatcher.queue ≠ [] → options.concurrency ≤ dispatcher.active ∨ 0 < dispatcher.immediates

/-! ## One place in a list -/

theorem exists_split {Item : Type} {items : List Item} {index : ℕ} {item : Item}
    (hitem : items[index]? = some item) :
    ∃ front back, items = front ++ item :: back ∧
      (∀ other, items.set index other = front ++ other :: back) ∧
      items.eraseIdx index = front ++ back := by
  induction items generalizing index with
  | nil => cases hitem
  | cons first rest ih =>
      cases index with
      | zero =>
          obtain rfl := Option.some.inj hitem
          exact ⟨[], rest, rfl, fun _ => rfl, rfl⟩
      | succ index =>
          obtain ⟨front, back, hrest, hset, herase⟩ := ih hitem
          refine ⟨first :: front, back, by rw [hrest]; rfl, fun other => ?_, ?_⟩
          · rw [List.set_cons_succ, hset]
            rfl
          · rw [List.eraseIdx_cons_succ, herase]
            rfl

section Runs

variable {front back : List JobRun} {run : JobRun}

@[simp]
theorem openJobs_append (left right : List JobRun) :
    openJobs (left ++ right) = openJobs left ++ openJobs right := by
  simp [openJobs]

theorem openJobs_cons_open (hopen : run.phase.isOpen = true) :
    openJobs (run :: back) = run.job :: openJobs back := by
  simp [openJobs, hopen]

theorem openJobs_cons_closed (hclosed : run.phase.isOpen = false) :
    openJobs (run :: back) = openJobs back := by
  simp [openJobs, hclosed]

end Runs

/-! ## The ledger -/

def tag (job : Job) : ℕ × String := (job.number, job.eventId)

/-- Jobs that have moved from one place to another are in the ledger as before. -/
theorem Ledger.move {before after : Dispatcher} (hledger : Ledger before)
    (htags : ((undelivered after).map tag).Perm ((undelivered before).map tag))
    (hdelivered : after.delivered = before.delivered)
    (hdead : after.deadLetters = before.deadLetters) (hpending : after.pending = before.pending)
    (haccepted : after.accepted = before.accepted) : Ledger after := by
  have hnumbers :
      ((undelivered after).map Job.number).Perm ((undelivered before).map Job.number) := by
    have hmapped := htags.map Prod.fst
    simpa [Function.comp_def, tag] using hmapped
  have hids :
      ((undelivered after).map Job.eventId).Perm ((undelivered before).map Job.eventId) := by
    have hmapped := htags.map Prod.snd
    simpa [Function.comp_def, tag] using hmapped
  constructor
  · intro number
    rw [hdelivered, hdead, haccepted, hnumbers.count_eq, hledger.census]
  · intro eventId
    rw [hpending, hids.count_eq, hledger.pending]

/-- A new job, whose event is not pending. -/
theorem Ledger.accept {before after : Dispatcher} {job : Job} (hledger : Ledger before)
    (htags : (undelivered after).Perm (job :: undelivered before))
    (hnumber : job.number = before.accepted) (hfresh : job.eventId ∉ before.pending)
    (hdelivered : after.delivered = before.delivered)
    (hdead : after.deadLetters = before.deadLetters)
    (hpending : after.pending = job.eventId :: before.pending)
    (haccepted : after.accepted = before.accepted + 1) : Ledger after := by
  constructor
  · intro number
    have hbefore := hledger.census number
    rw [hdelivered, hdead, haccepted, (htags.map Job.number).count_eq, List.map_cons,
      List.count_cons, hnumber]
    by_cases hnew : before.accepted = number
    · subst hnew
      simp only [lt_irrefl, if_false] at hbefore
      simp
      omega
    · have hsame : (number < before.accepted + 1) = (number < before.accepted) := by
        apply propext
        omega
      simp only [hsame, beq_iff_eq, hnew, if_false]
      omega
  · intro eventId
    have hbefore := hledger.pending eventId
    rw [hpending, (htags.map Job.eventId).count_eq, List.map_cons, List.count_cons, hbefore]
    by_cases hnew : job.eventId = eventId
    · subst hnew
      simp [hfresh]
    · have hother : eventId ≠ job.eventId := Ne.symm hnew
      simp [hnew, hother]

/-- A job that is done leaves the ledger, and its event is no longer pending. -/
theorem Ledger.finish {before after : Dispatcher} {job : Job} (hledger : Ledger before)
    (htags : (undelivered before).Perm (job :: undelivered after))
    (hdone : ∀ number, (after.delivered.map Job.number).count number +
      (after.deadLetters.map fun letter => letter.number).count number =
        (before.delivered.map Job.number).count number +
        (before.deadLetters.map fun letter => letter.number).count number +
        [job.number].count number)
    (hpending : after.pending = before.pending.filter (· ≠ job.eventId))
    (haccepted : after.accepted = before.accepted) : Ledger after := by
  constructor
  · intro number
    have hbefore := hledger.census number
    rw [(htags.map Job.number).count_eq, List.map_cons, List.count_cons] at hbefore
    have hafter := hdone number
    rw [List.count_cons, List.count_nil] at hafter
    rw [haccepted, ← hbefore]
    omega
  · intro eventId
    have hbefore := hledger.pending eventId
    rw [(htags.map Job.eventId).count_eq, List.map_cons, List.count_cons] at hbefore
    rw [hpending]
    by_cases hsame : job.eventId = eventId
    · subst hsame
      have hone : (if job.eventId ∈ before.pending then 1 else 0) ≤ 1 := by split <;> omega
      simp only [beq_self_eq_true, if_true] at hbefore
      simp
      omega
    · have hother : eventId ≠ job.eventId := Ne.symm hsame
      simp only [beq_iff_eq, hsame, if_false, Nat.add_zero] at hbefore
      rw [hbefore]
      simp [hother]

/-! ## Pumping -/

section Pump

variable {options : Options} {dispatcher : Dispatcher}

/-- What the loop of `pump` does: it starts the first jobs of the queue, as many as there are places
for. -/
theorem startJobs_cases (concurrency : ℕ) (queue : List Job) (dispatcher : Dispatcher) :
    ∃ started rest, queue = started ++ rest ∧
      Dispatcher.startJobs concurrency queue dispatcher = { dispatcher with
        queue := rest
        active := dispatcher.active + started.length
        runs := dispatcher.runs ++ started.map startRun } ∧
      (rest ≠ [] → concurrency ≤ dispatcher.active + started.length) ∧
      (dispatcher.active ≤ concurrency → dispatcher.active + started.length ≤ concurrency) := by
  induction queue generalizing dispatcher with
  | nil => exact ⟨[], [], rfl, by simp [Dispatcher.startJobs], nofun, id⟩
  | cons job queue ih =>
      rw [Dispatcher.startJobs]
      split
      · rename_i hplace
        obtain ⟨started, rest, rfl, hstarted, hfull, hbound⟩ := ih
          { dispatcher with
            active := dispatcher.active + 1
            runs := dispatcher.runs ++ [startRun job] }
        refine ⟨job :: started, rest, rfl, ?_, ?_, ?_⟩
        · rw [hstarted]
          simp [Nat.add_assoc, Nat.add_comm 1]
        · intro hrest
          have hthen := hfull hrest
          simp only [List.length_cons] at hthen ⊢
          omega
        · intro _
          have hthen := hbound hplace
          simp only [List.length_cons] at hthen ⊢
          omega
      · rename_i hfull
        refine ⟨[], job :: queue, rfl, by simp, fun _ => ?_, id⟩
        simpa using hfull

theorem pump_cases (options : Options) (dispatcher : Dispatcher) :
    ∃ started rest, dispatcher.queue = started ++ rest ∧
      dispatcher.pump options = { dispatcher with
        queue := rest
        active := dispatcher.active + started.length
        runs := dispatcher.runs ++ started.map startRun } ∧
      (rest ≠ [] → options.concurrency ≤ dispatcher.active + started.length) ∧
      (dispatcher.active ≤ options.concurrency →
        dispatcher.active + started.length ≤ options.concurrency) :=
  startJobs_cases options.concurrency dispatcher.queue dispatcher

theorem isOpen_writingPhase (job : Job) (investorIds : List String) :
    (writingPhase job investorIds).isOpen = true := by
  rw [writingPhase]
  split <;> rfl

theorem isOpen_startRun (job : Job) : (startRun job).phase.isOpen = true := by
  simp only [startRun]
  split
  · rfl
  · exact isOpen_writingPhase _ _

/-- The notifications that a run goes on to write have its event in their keys. -/
theorem keyed_writingPhase {job : Job} {investorIds : List String}
    {written : List DedupedNotification}
    (hphase : writingPhase job investorIds = .writing written) :
    ∀ entry ∈ written, keyed ⟨job.eventId, entry⟩ := by
  rw [writingPhase] at hphase
  split at hphase
  · rename_i composed hentries
    obtain rfl := Phase.writing.inj hphase
    obtain ⟨message, _, hcomposed⟩ := bind_eq_ok.mp hentries
    obtain rfl := pure_eq_ok.mp hcomposed
    intro entry hmem
    obtain ⟨userId, _, rfl⟩ := List.mem_map.mp hmem
    rfl
  · cases hphase

theorem startRun_fits {job : Job} (hattempts : job.attempts < options.maxAttempts) :
    RunFits options (startRun job) where
  attempts := fun _ => ⟨Nat.succ_le_succ (Nat.zero_le _), hattempts⟩
  keyed := by
    intro written hphase
    simp only [startRun] at hphase
    split at hphase
    · cases hphase
    · exact keyed_writingPhase hphase

theorem openJobs_startRun (started : List Job) :
    (openJobs (started.map startRun)).map tag = started.map tag := by
  induction started with
  | nil => rfl
  | cons job started ih =>
      rw [List.map_cons, openJobs_cons_open (isOpen_startRun job), List.map_cons, List.map_cons, ih]
      rfl

/-- Pumping moves jobs from the queue into runs. -/
theorem Kept.pump (hkept : Kept options dispatcher) :
    Kept options (dispatcher.pump options) ∧ Busy options (dispatcher.pump options) := by
  obtain ⟨started, rest, hqueue, hpump, hfull, hbound⟩ := pump_cases options dispatcher
  rw [hpump]
  have hqueued : ∀ job ∈ started ++ rest, job.attempts < options.maxAttempts :=
    hqueue ▸ hkept.queued
  refine ⟨?_, fun hrest => .inl (hfull hrest)⟩
  exact
    { active := by simp [hkept.active]
      scheduled := hkept.scheduled
      bounded := hbound hkept.bounded
      ledger := by
        refine hkept.ledger.move ?_ rfl rfl rfl rfl
        refine List.perm_iff_count.mpr fun found => ?_
        simp only [undelivered, hqueue, openJobs_append, List.map_append, List.count_append,
          openJobs_startRun]
        omega
      queued := fun job hmem => hqueued job (List.mem_append_right _ hmem)
      runs := by
        intro run hmem
        rcases List.mem_append.mp hmem with hold | hnew
        · exact hkept.runs run hold
        · obtain ⟨job, hjob, rfl⟩ := List.mem_map.mp hnew
          exact startRun_fits (hqueued job (List.mem_append_left _ hjob))
      retrying := hkept.retrying
      deliveredAttempts := hkept.deliveredAttempts
      deadAttempts := hkept.deadAttempts
      idle := hkept.idle
      stored := hkept.stored }

/-- Where nothing is queued, active or scheduled, waiters are resolved. -/
theorem Kept.resolve (hkept : Kept options dispatcher) (hidle : ¬0 < dispatcher.size)
    (waiters idleWaiters : List ℕ) :
    Kept options
      { dispatcher with
        idleWaiters := idleWaiters
        resolved := dispatcher.resolved ++ waiters.map dispatcher.moment } := by
  rw [Dispatcher.size, hkept.active, hkept.scheduled] at hidle
  exact
    { hkept with
      ledger := hkept.ledger.move (List.Perm.refl _) rfl rfl rfl rfl
      idle := by
        intro moment hmem
        rcases List.mem_append.mp hmem with hold | hnew
        · exact hkept.idle moment hold
        · obtain ⟨waiter, _, rfl⟩ := List.mem_map.mp hnew
          simp only [Dispatcher.moment]
          omega }

theorem Kept.notifyIfIdle (hkept : Kept options dispatcher) :
    Kept options dispatcher.notifyIfIdle := by
  rw [Dispatcher.notifyIfIdle]
  split
  · exact hkept
  · rename_i hidle
    exact hkept.resolve hidle _ _

theorem Busy.notifyIfIdle (hbusy : Busy options dispatcher) :
    Busy options dispatcher.notifyIfIdle := by
  rw [Dispatcher.notifyIfIdle]
  split
  · exact hbusy
  · exact hbusy

end Pump

/-! ## One run -/

section OneRun

variable {options : Options} {dispatcher : Dispatcher} {index : ℕ} {run : JobRun} {phase : Phase}

/-- A run in another phase is among the runs, the others are as they were. -/
theorem forall_setPhase {P : JobRun → Prop}
    (hall : ∀ other ∈ dispatcher.runs, P other) (hphase : P { run with phase := phase }) :
    ∀ other ∈ (dispatcher.setPhase index run phase).runs, P other := by
  intro other hmem
  rcases List.mem_or_eq_of_mem_set hmem with hold | rfl
  · exact hall other hold
  · exact hphase

theorem undelivered_setPhase (hrun : dispatcher.runs[index]? = some run)
    (hsame : phase.isOpen = run.phase.isOpen) :
    undelivered (dispatcher.setPhase index run phase) = undelivered dispatcher := by
  obtain ⟨front, back, hruns, hset, _⟩ := exists_split hrun
  have hopen : openJobs (dispatcher.setPhase index run phase).runs = openJobs dispatcher.runs := by
    rw [Dispatcher.setPhase, hset, hruns, openJobs_append, openJobs_append]
    cases hphase : run.phase.isOpen with
    | true =>
        rw [openJobs_cons_open hphase, openJobs_cons_open (hsame.trans hphase)]
    | false =>
        rw [openJobs_cons_closed hphase, openJobs_cons_closed (hsame.trans hphase)]
  rw [undelivered, undelivered, hopen]
  rfl

/-- A run that is done with its job. -/
theorem undelivered_close (phase : Phase) (hrun : dispatcher.runs[index]? = some run)
    (hopen : run.phase.isOpen = true) (hclosed : phase.isOpen = false) :
    (undelivered dispatcher).Perm
      (run.job :: undelivered (dispatcher.setPhase index run phase)) := by
  obtain ⟨front, back, hruns, hset, _⟩ := exists_split hrun
  have hbefore : openJobs dispatcher.runs = openJobs front ++ run.job :: openJobs back := by
    rw [hruns, openJobs_append, openJobs_cons_open hopen]
  have hafter : openJobs (dispatcher.setPhase index run phase).runs =
      openJobs front ++ openJobs back := by
    rw [Dispatcher.setPhase, hset, openJobs_append, openJobs_cons_closed hclosed]
  refine List.perm_iff_count.mpr fun job => ?_
  rw [undelivered, undelivered, hbefore, hafter]
  simp only [Dispatcher.setPhase, List.count_append, List.count_cons]
  omega

theorem runFits_closed (hclosed : phase.isOpen = false) :
    RunFits options { run with phase := phase } where
  attempts := by
    intro hopen
    rw [hclosed] at hopen
    cases hopen
  keyed := by
    intro written hphase
    simp only at hphase
    rw [hphase] at hclosed
    cases hclosed

theorem RunFits.fail (hfits : RunFits options run) (hopen : run.phase.isOpen = true)
    (error : Thrown) : RunFits options { run with phase := .failed error } where
  attempts := fun _ => hfits.attempts hopen
  keyed := nofun

theorem Kept.setPhase (hkept : Kept options dispatcher) (hrun : dispatcher.runs[index]? = some run)
    (hsame : phase.isOpen = run.phase.isOpen)
    (hfits : RunFits options { run with phase := phase }) :
    Kept options (dispatcher.setPhase index run phase) :=
  { hkept with
    active := by simp [Dispatcher.setPhase, hkept.active]
    ledger := by
      refine hkept.ledger.move ?_ rfl rfl rfl rfl
      rw [undelivered_setPhase hrun hsame]
    runs := forall_setPhase hkept.runs hfits }

theorem keyed_insert {store : NotificationStore} {row : StoredNotification}
    (hstore : ∀ other ∈ store.rows, keyed other) (hrow : keyed row) :
    ∀ other ∈ (store.insert row).rows, keyed other := by
  unfold NotificationStore.insert
  split
  · exact hstore
  · exact List.forall_mem_cons.mpr ⟨hrow, hstore⟩

/-- The notifications of a run keep their event in their keys when they are stored. -/
theorem keyed_insertIgnoringDuplicates {store : NotificationStore} {eventId : String}
    {written : List DedupedNotification} (hstore : ∀ row ∈ store.rows, keyed row)
    (hwritten : ∀ entry ∈ written, keyed ⟨eventId, entry⟩) :
    ∀ row ∈ (store.insertIgnoringDuplicates eventId written).rows, keyed row := by
  induction written generalizing store with
  | nil => exact hstore
  | cons entry written ih =>
      exact ih (keyed_insert hstore (hwritten entry List.mem_cons_self))
        fun other hmem => hwritten other (List.mem_cons_of_mem _ hmem)

theorem Kept.insert (hkept : Kept options dispatcher) {eventId : String}
    {written : List DedupedNotification} (hwritten : ∀ entry ∈ written, keyed ⟨eventId, entry⟩) :
    Kept options { dispatcher with
      store := dispatcher.store.insertIgnoringDuplicates eventId written } :=
  { hkept with
    ledger := hkept.ledger.move (List.Perm.refl _) rfl rfl rfl rfl
    stored := keyed_insertIgnoringDuplicates hkept.stored hwritten }

theorem Kept.finishDelivery (hkept : Kept options dispatcher)
    (hrun : dispatcher.runs[index]? = some run) (hopen : run.phase.isOpen = true) :
    Kept options (dispatcher.finishDelivery index run) :=
  have hfits := hkept.runs run (List.mem_of_getElem? hrun)
  { hkept with
    active := by simp [Dispatcher.finishDelivery, Dispatcher.setPhase, hkept.active]
    ledger := by
      refine hkept.ledger.finish (undelivered_close _ hrun hopen rfl) ?_ rfl rfl
      intro number
      simp only [Dispatcher.finishDelivery, Dispatcher.setPhase, List.map_append, List.map_cons,
        List.map_nil, List.count_append]
      omega
    runs := forall_setPhase hkept.runs (runFits_closed rfl)
    deliveredAttempts := by
      intro job hmem
      rcases List.mem_append.mp hmem with hold | hnew
      · exact hkept.deliveredAttempts job hold
      · obtain rfl := List.mem_singleton.mp hnew
        exact hfits.attempts hopen }

theorem Kept.catchFailure (hkept : Kept options dispatcher)
    (hrun : dispatcher.runs[index]? = some run) (hopen : run.phase.isOpen = true) (error : Thrown)
    (now : Timestamp) : Kept options (dispatcher.catchFailure options index run error now) := by
  have hfits := hkept.runs run (List.mem_of_getElem? hrun)
  obtain ⟨_, hmost⟩ := hfits.attempts hopen
  rw [Dispatcher.catchFailure]
  split
  · rename_i hmore
    exact
      { hkept with
        active := by simp [Dispatcher.setPhase, hkept.active]
        scheduled := by simp [hkept.scheduled]
        ledger := by
          refine hkept.ledger.move ?_ rfl rfl rfl rfl
          have hclose := (undelivered_close Phase.finished hrun hopen rfl).map tag
          refine List.Perm.trans ?_ hclose.symm
          refine List.perm_iff_count.mpr fun found => ?_
          simp only [undelivered, Dispatcher.setPhase, List.map_append, List.map_cons, List.map_nil,
            List.count_append, List.count_cons, List.count_nil]
          omega
        runs := forall_setPhase hkept.runs (runFits_closed rfl)
        retrying := by
          intro timer hmem
          rcases List.mem_append.mp hmem with hold | hnew
          · exact hkept.retrying timer hold
          · obtain rfl := List.mem_singleton.mp hnew
            exact hmore }
  · rename_i hlast
    exact
      { hkept with
        active := by simp [Dispatcher.setPhase, hkept.active]
        ledger := by
          refine hkept.ledger.finish (undelivered_close _ hrun hopen rfl) ?_ rfl rfl
          intro number
          simp only [Dispatcher.setPhase, List.map_append, List.map_cons, List.map_nil,
            List.count_append]
          omega
        runs := forall_setPhase hkept.runs (runFits_closed rfl)
        deadAttempts := by
          intro letter hmem
          rcases List.mem_append.mp hmem with hold | hnew
          · exact hkept.deadAttempts letter hold
          · obtain rfl := List.mem_singleton.mp hnew
            exact le_antisymm hmost (not_lt.mp hlast) }

/-- A run that ends makes room. -/
theorem Kept.settle (hkept : Kept options dispatcher)
    (hrun : dispatcher.runs[index]? = some run) (hclosed : run.phase.isOpen = false) :
    Kept options (dispatcher.settle options index) ∧
      Busy options (dispatcher.settle options index) := by
  obtain ⟨front, back, hruns, _, herase⟩ := exists_split hrun
  have hlength : dispatcher.active = (front ++ back).length + 1 := by
    rw [hkept.active, hruns]
    simp [Nat.add_assoc]
  have hremoved : Kept options { dispatcher with
      active := dispatcher.active - 1
      runs := dispatcher.runs.eraseIdx index } :=
    { hkept with
      active := by
        simp only [herase]
        omega
      bounded := by
        have hbounded := hkept.bounded
        simp only
        omega
      ledger := by
        refine hkept.ledger.move ?_ rfl rfl rfl rfl
        simp only [undelivered, herase]
        rw [hruns, openJobs_append, openJobs_append, openJobs_cons_closed hclosed]
      runs := fun other hmem => hkept.runs other (List.mem_of_mem_eraseIdx hmem) }
  obtain ⟨hpumped, hbusy⟩ := hremoved.pump
  exact ⟨hpumped.notifyIfIdle, hbusy.notifyIfIdle⟩

/-- The job of a timer that fires is queued again. -/
theorem Kept.retry (hkept : Kept options dispatcher) {timer : Retry}
    (htimer : dispatcher.retries[index]? = some timer) :
    Kept options (dispatcher.retry options index timer) ∧
      Busy options (dispatcher.retry options index timer) := by
  obtain ⟨front, back, hretries, _, herase⟩ := exists_split htimer
  have hqueued : Kept options { dispatcher with
      scheduledRetries := dispatcher.scheduledRetries - 1
      retries := dispatcher.retries.eraseIdx index
      queue := dispatcher.queue ++ [timer.job] } :=
    { hkept with
      scheduled := by
        simp only [herase]
        rw [hkept.scheduled, hretries]
        simp
      ledger := by
        refine hkept.ledger.move ?_ rfl rfl rfl rfl
        refine List.perm_iff_count.mpr fun found => ?_
        simp only [undelivered, herase]
        simp only [hretries, List.map_append, List.map_cons, List.map_nil, List.count_append,
          List.count_cons, List.count_nil]
        omega
      queued := by
        intro job hmem
        rcases List.mem_append.mp hmem with hold | hnew
        · exact hkept.queued job hold
        · obtain rfl := List.mem_singleton.mp hnew
          exact hkept.retrying timer (List.mem_of_getElem? htimer)
      retrying := fun other hmem => hkept.retrying other (List.mem_of_mem_eraseIdx hmem) }
  obtain ⟨hpumped, hbusy⟩ := hqueued.pump
  exact ⟨hpumped.notifyIfIdle, hbusy.notifyIfIdle⟩

end OneRun

/-! ## Calls -/

section Calls

variable {options : Options} {dispatcher after : Dispatcher}

theorem perm_queued (queue running retrying : List Job) (job : Job) :
    (queue ++ [job] ++ running ++ retrying).Perm (job :: (queue ++ running ++ retrying)) := by
  refine List.perm_iff_count.mpr fun found => ?_
  simp only [List.count_append, List.count_cons, List.count_nil]
  omega

theorem Kept.enqueue (hkept : Kept options dispatcher) (hbusy : Busy options dispatcher)
    {event : InvoiceLifecycleEvent} (henqueue : dispatcher.enqueue event = .ok after) :
    Kept options after ∧ Busy options after := by
  obtain ⟨eventId, _, hrest⟩ := bind_eq_ok.mp henqueue
  split at hrest
  · obtain rfl := pure_eq_ok.mp hrest
    exact ⟨hkept, hbusy⟩
  · rename_i hfresh
    obtain rfl := pure_eq_ok.mp hrest
    refine ⟨?_, fun _ => .inr (Nat.succ_pos _)⟩
    exact
      { hkept with
        ledger := by
          have htags := perm_queued dispatcher.queue (openJobs dispatcher.runs)
            (dispatcher.retries.map Retry.job) ⟨dispatcher.accepted, eventId, event, 0⟩
          exact hkept.ledger.accept htags rfl hfresh rfl rfl rfl rfl
        queued := by
          intro job hmem
          rcases List.mem_append.mp hmem with hold | hnew
          · exact hkept.queued job hold
          · obtain rfl := List.mem_singleton.mp hnew
            exact options.one_le_maxAttempts }

theorem Kept.drain (hkept : Kept options dispatcher) (waiter : ℕ) :
    Kept options (dispatcher.drain waiter) := by
  rw [Dispatcher.drain]
  split
  · rename_i hidle
    exact hkept.resolve (by omega) [waiter] dispatcher.idleWaiters
  · exact { hkept with ledger := hkept.ledger.move (List.Perm.refl _) rfl rfl rfl rfl }

end Calls

/-! ## The steps -/

/-- What each callback finds, and what it leaves. -/
inductive Takes (options : Options) (dispatcher : Dispatcher) : Callback → Dispatcher → Prop where
  | accepted {event : InvoiceLifecycleEvent} {after : Dispatcher}
      (henqueue : dispatcher.enqueue event = .ok after) :
      Takes options dispatcher (.enqueue event) after
  | refused (event : InvoiceLifecycleEvent) : Takes options dispatcher (.enqueue event) dispatcher
  | drain (waiter : ℕ) : Takes options dispatcher (.drain waiter) (dispatcher.drain waiter)
  | pump (hscheduled : 0 < dispatcher.immediates) :
      Takes options dispatcher .immediate
        (Dispatcher.pump options { dispatcher with immediates := dispatcher.immediates - 1 })
  | investorsFound {index : ℕ} {job : Job} (investorIds : List String)
      (hrun : dispatcher.runs[index]? = some ⟨job, .findingInvestors⟩) :
      Takes options dispatcher (.investorsFound index investorIds)
        (dispatcher.setPhase index ⟨job, .findingInvestors⟩ (writingPhase job investorIds))
  | investorsFailed {index : ℕ} {job : Job} (error : Thrown)
      (hrun : dispatcher.runs[index]? = some ⟨job, .findingInvestors⟩) :
      Takes options dispatcher (.investorsFailed index error)
        (dispatcher.setPhase index ⟨job, .findingInvestors⟩ (.failed error))
  | written {index : ℕ} {job : Job} {entries : List DedupedNotification}
      (hrun : dispatcher.runs[index]? = some ⟨job, .writing entries⟩) :
      Takes options dispatcher (.written index)
        (Dispatcher.finishDelivery index ⟨job, .writing entries⟩
          { dispatcher with
            store := dispatcher.store.insertIgnoringDuplicates job.eventId entries })
  | writeFailed {index : ℕ} {job : Job} {entries : List DedupedNotification} (stored : ℕ)
      (error : Thrown) (hrun : dispatcher.runs[index]? = some ⟨job, .writing entries⟩) :
      Takes options dispatcher (.writeFailed index stored error)
        (Dispatcher.setPhase index ⟨job, .writing entries⟩ (.failed error)
          { dispatcher with
            store := dispatcher.store.insertIgnoringDuplicates job.eventId
              (entries.take stored) })
  | caught {index : ℕ} {job : Job} {error : Thrown} (now : Timestamp)
      (hrun : dispatcher.runs[index]? = some ⟨job, .failed error⟩) :
      Takes options dispatcher (.caught index now)
        (dispatcher.catchFailure options index ⟨job, .failed error⟩ error now)
  | recorded {index : ℕ} {job : Job} (sinkError : Option Thrown)
      (hrun : dispatcher.runs[index]? = some ⟨job, .recording⟩) :
      Takes options dispatcher (.recorded index sinkError)
        (dispatcher.setPhase index ⟨job, .recording⟩ .finished)
  | settled {index : ℕ} {job : Job} (hrun : dispatcher.runs[index]? = some ⟨job, .finished⟩) :
      Takes options dispatcher (.settled index) (dispatcher.settle options index)
  | retry {index : ℕ} {timer : Retry} (htimer : dispatcher.retries[index]? = some timer) :
      Takes options dispatcher (.retry index) (dispatcher.retry options index timer)

theorem takes_of_step {options : Options} {dispatcher after : Dispatcher} {callback : Callback}
    (hstep : step options dispatcher callback = some after) :
    Takes options dispatcher callback after := by
  revert hstep
  unfold step
  split
  case h_1 event =>
    split
    · rename_i henqueue
      rintro ⟨⟩
      exact .accepted henqueue
    · rintro ⟨⟩
      exact .refused event
  case h_2 waiter =>
    rintro ⟨⟩
    exact .drain waiter
  case h_3 =>
    split
    · rename_i hscheduled
      rintro ⟨⟩
      exact .pump hscheduled
    · rintro ⟨⟩
  -- The others find a run, or a timer, in the state that they belong to.
  all_goals
    split
    · rename_i hfound
      rintro ⟨⟩
      constructor
      exact hfound
    · rintro ⟨⟩

/-! ## Runs of the dispatcher -/

section Steps

variable {options : Options} {dispatcher after : Dispatcher} {callback : Callback}

/-- Every call and every callback keeps the invariant. -/
theorem kept_of_step (hkept : Kept options dispatcher) (hbusy : Busy options dispatcher)
    (hstep : step options dispatcher callback = some after) :
    Kept options after ∧ Busy options after := by
  cases takes_of_step hstep with
  | accepted henqueue => exact hkept.enqueue hbusy henqueue
  | refused event => exact ⟨hkept, hbusy⟩
  | drain waiter =>
      refine ⟨hkept.drain waiter, ?_⟩
      rw [Dispatcher.drain]
      split
      · exact hbusy
      · exact hbusy
  | pump hscheduled =>
      have hcalled : Kept options
          { dispatcher with immediates := dispatcher.immediates - 1 } :=
        { hkept with ledger := hkept.ledger.move (List.Perm.refl _) rfl rfl rfl rfl }
      exact hcalled.pump
  | @investorsFound index job investorIds hrun =>
      refine ⟨hkept.setPhase hrun (isOpen_writingPhase job investorIds) ?_, hbusy⟩
      have hfits := hkept.runs _ (List.mem_of_getElem? hrun)
      exact ⟨fun _ => hfits.attempts rfl, fun _ => keyed_writingPhase⟩
  | investorsFailed error hrun =>
      have hfits := hkept.runs _ (List.mem_of_getElem? hrun)
      exact ⟨hkept.setPhase hrun rfl (hfits.fail rfl error), hbusy⟩
  | @written index job entries hrun =>
      have hkeyed := (hkept.runs _ (List.mem_of_getElem? hrun)).keyed entries rfl
      exact ⟨(hkept.insert hkeyed).finishDelivery hrun rfl, hbusy⟩
  | @writeFailed index job entries stored error hrun =>
      have hfits := hkept.runs _ (List.mem_of_getElem? hrun)
      have hkeyed : ∀ entry ∈ entries.take stored, keyed ⟨job.eventId, entry⟩ :=
        fun entry hmem => hfits.keyed entries rfl entry (List.mem_of_mem_take hmem)
      exact ⟨(hkept.insert hkeyed).setPhase hrun rfl (hfits.fail rfl error), hbusy⟩
  | @caught index job error now hrun =>
      refine ⟨hkept.catchFailure hrun rfl error now, ?_⟩
      rw [Dispatcher.catchFailure]
      split
      · exact hbusy
      · exact hbusy
  | recorded sinkError hrun =>
      exact ⟨hkept.setPhase hrun rfl (runFits_closed rfl), hbusy⟩
  | settled hrun => exact hkept.settle hrun rfl
  | retry htimer => exact hkept.retry htimer

theorem kept_start {store : NotificationStore} (hstore : ∀ row ∈ store.rows, keyed row) :
    Kept options (Dispatcher.start store) where
  active := rfl
  scheduled := rfl
  bounded := Nat.zero_le _
  ledger := ⟨fun _ => rfl, fun _ => rfl⟩
  queued := fun _ hnone => absurd hnone List.not_mem_nil
  runs := fun _ hnone => absurd hnone List.not_mem_nil
  retrying := fun _ hnone => absurd hnone List.not_mem_nil
  deliveredAttempts := fun _ hnone => absurd hnone List.not_mem_nil
  deadAttempts := fun _ hnone => absurd hnone List.not_mem_nil
  idle := fun _ hnone => absurd hnone List.not_mem_nil
  stored := hstore

/-- The invariant says what the dispatcher should do. -/
theorem Kept.correct (hkept : Kept options dispatcher) : Correct options dispatcher where
  outcome := by
    refine List.perm_iff_count.mpr fun number => ?_
    rw [List.count_append, List.count_append, hkept.ledger.census, List.count_range]
  deliveredAttempts := hkept.deliveredAttempts
  deadAttempts := hkept.deadAttempts
  oneForEvent := by
    refine List.nodup_iff_count_le_one.mpr fun eventId => ?_
    rw [hkept.ledger.pending]
    split <;> omega
  concurrent := hkept.active ▸ hkept.bounded
  idle := hkept.idle
  toldOnce := by
    have hkeys : dispatcher.store.rows.map storedKey =
        (dispatcher.store.rows.map told).map fun pair => dedupeKey pair.1 pair.2 := by
      rw [List.map_map]
      exact List.map_congr_left fun row hmem => hkept.stored row hmem
    have hunique := dispatcher.store.uniqueKeys
    rw [hkeys] at hunique
    exact hunique.of_map _

/-- Every run waits for something. -/
theorem exists_callback_of_run {run : JobRun} {others : List JobRun}
    (hruns : dispatcher.runs = run :: others) :
    ∃ callback : Callback, callback.isInternal = true ∧
      step options dispatcher callback ≠ none := by
  obtain ⟨job, phase⟩ := run
  have hrun : dispatcher.runs[0]? = some ⟨job, phase⟩ := by simp [hruns]
  cases phase with
  | findingInvestors => exact ⟨.investorsFound 0 [], rfl, by simp [step, hrun]⟩
  | writing written => exact ⟨.written 0, rfl, by simp [step, hrun]⟩
  | failed error => exact ⟨.caught 0 0, rfl, by simp [step, hrun]⟩
  | recording => exact ⟨.recorded 0 none, rfl, by simp [step, hrun]⟩
  | finished => exact ⟨.settled 0, rfl, by simp [step, hrun]⟩

/-- While a job is undelivered, some callback is outstanding. -/
theorem exists_callback (hkept : Kept options dispatcher) (hbusy : Busy options dispatcher)
    (hopen : undelivered dispatcher ≠ []) :
    ∃ callback : Callback, callback.isInternal = true ∧
      step options dispatcher callback ≠ none := by
  cases hruns : dispatcher.runs with
  | cons run others => exact exists_callback_of_run hruns
  | nil =>
      cases hretries : dispatcher.retries with
      | cons timer others => exact ⟨.retry 0, rfl, by simp [step, hretries]⟩
      | nil =>
          have hqueue : dispatcher.queue ≠ [] := by
            simpa [undelivered, hruns, hretries, openJobs] using hopen
          -- No run takes a place, so a pump is coming.
          have hplaces : dispatcher.active < options.concurrency := by
            rw [hkept.active, hruns]
            exact options.one_le_concurrency
          have himmediate := (hbusy hqueue).resolve_left (not_le.mpr hplaces)
          exact ⟨.immediate, rfl, by simp [step, himmediate]⟩

end Steps

/-! ## How long it takes -/

section Potential

variable {options : Options} {dispatcher after : Dispatcher} {callback : Callback}

/-- At most five callbacks for each attempt that is left. -/
def jobCost (options : Options) (job : Job) : ℕ := 5 * (options.maxAttempts - job.attempts)

def runCost (options : Options) (run : JobRun) : ℕ :=
  match run.phase with
  | .findingInvestors => jobCost options run.job + 5
  | .writing _ => jobCost options run.job + 4
  | .failed _ => jobCost options run.job + 3
  | .recording => 2
  | .finished => 1

def timerCost (options : Options) (timer : Retry) : ℕ := jobCost options timer.job + 1

/-- The callbacks that can still come without another call. -/
def potential (options : Options) (dispatcher : Dispatcher) : ℕ :=
  dispatcher.immediates + (dispatcher.queue.map (jobCost options)).sum +
    (dispatcher.runs.map (runCost options)).sum +
    (dispatcher.retries.map (timerCost options)).sum

/-- What the accepted jobs have supplied. -/
def supplied (options : Options) (dispatcher : Dispatcher) : ℕ :=
  (5 * options.maxAttempts + 1) * dispatcher.accepted

theorem runCost_writingPhase (options : Options) (job : Job) (investorIds : List String) :
    runCost options ⟨job, writingPhase job investorIds⟩ ≤ jobCost options job + 4 := by
  rw [writingPhase]
  split
  · exact le_refl _
  · simp only [runCost]
    omega

theorem runCost_startRun {job : Job} (hattempts : job.attempts < options.maxAttempts) :
    runCost options (startRun job) ≤ jobCost options job := by
  have hnext : jobCost options { job with attempts := job.attempts + 1 } + 5 =
      jobCost options job := by
    simp only [jobCost]
    omega
  simp only [startRun]
  split
  · simp only [runCost]
    omega
  · have hwriting := runCost_writingPhase options
      { job with attempts := job.attempts + 1 } []
    omega

theorem sum_startRun {started : List Job}
    (hattempts : ∀ job ∈ started, job.attempts < options.maxAttempts) :
    ((started.map startRun).map (runCost options)).sum ≤ (started.map (jobCost options)).sum := by
  induction started with
  | nil => exact le_refl _
  | cons job started ih =>
      obtain ⟨hfirst, hrest⟩ := List.forall_mem_cons.mp hattempts
      have hjob := runCost_startRun hfirst
      have hothers := ih hrest
      simp only [List.map_cons, List.sum_cons]
      omega

/-- Pumping and telling the waiters cost nothing. -/
theorem potential_pump (options : Options) (dispatcher : Dispatcher)
    (hqueued : ∀ job ∈ dispatcher.queue, job.attempts < options.maxAttempts) :
    potential options (dispatcher.pump options) ≤ potential options dispatcher ∧
      (dispatcher.pump options).accepted = dispatcher.accepted := by
  obtain ⟨started, rest, hqueue, hpump, _, _⟩ := pump_cases options dispatcher
  have hstarted := sum_startRun fun job hmem =>
    hqueued job (hqueue ▸ List.mem_append_left rest hmem)
  rw [hpump]
  refine ⟨?_, rfl⟩
  simp only [potential, hqueue, List.map_append, List.sum_append]
  omega

theorem potential_pump_notify (options : Options) (dispatcher : Dispatcher)
    (hqueued : ∀ job ∈ dispatcher.queue, job.attempts < options.maxAttempts) :
    potential options (dispatcher.pump options).notifyIfIdle ≤ potential options dispatcher ∧
      (dispatcher.pump options).notifyIfIdle.accepted = dispatcher.accepted := by
  rw [Dispatcher.notifyIfIdle]
  split
  · exact potential_pump options dispatcher hqueued
  · exact potential_pump options dispatcher hqueued

/-- A run in another phase. -/
theorem potential_setPhase (options : Options) {index : ℕ} {run : JobRun} (phase : Phase)
    (hrun : dispatcher.runs[index]? = some run) :
    potential options (dispatcher.setPhase index run phase) + runCost options run =
      potential options dispatcher + runCost options { run with phase := phase } := by
  obtain ⟨front, back, hruns, hset, _⟩ := exists_split hrun
  simp only [potential, Dispatcher.setPhase, hset]
  simp only [hruns, List.map_append, List.map_cons, List.sum_append, List.sum_cons]
  omega

theorem paid_of_setPhase {index : ℕ} {run : JobRun} {phase : Phase}
    (hrun : dispatcher.runs[index]? = some run)
    (hcost : runCost options { run with phase := phase } < runCost options run) :
    1 + potential options (dispatcher.setPhase index run phase) ≤ potential options dispatcher := by
  have hphase := potential_setPhase options phase hrun
  omega

theorem paid_of_settle {index : ℕ} {job : Job} (hkept : Kept options dispatcher)
    (hrun : dispatcher.runs[index]? = some ⟨job, .finished⟩) :
    1 + potential options (dispatcher.settle options index) ≤ potential options dispatcher ∧
      (dispatcher.settle options index).accepted = dispatcher.accepted := by
  obtain ⟨front, back, hruns, _, herase⟩ := exists_split hrun
  obtain ⟨hserved, haccepted⟩ := potential_pump_notify options { dispatcher with
    active := dispatcher.active - 1
    runs := dispatcher.runs.eraseIdx index } hkept.queued
  refine ⟨le_trans (Nat.add_le_add_left hserved 1) ?_, haccepted⟩
  simp only [potential, herase]
  simp only [hruns, List.map_append, List.map_cons, List.sum_append, List.sum_cons, runCost]
  omega

theorem paid_of_retry {index : ℕ} {timer : Retry} (hkept : Kept options dispatcher)
    (htimer : dispatcher.retries[index]? = some timer) :
    1 + potential options (dispatcher.retry options index timer) ≤ potential options dispatcher ∧
      (dispatcher.retry options index timer).accepted = dispatcher.accepted := by
  obtain ⟨front, back, hretries, _, herase⟩ := exists_split htimer
  have hqueued : ∀ job ∈ dispatcher.queue ++ [timer.job], job.attempts < options.maxAttempts := by
    intro job hmem
    rcases List.mem_append.mp hmem with hold | hnew
    · exact hkept.queued job hold
    · obtain rfl := List.mem_singleton.mp hnew
      exact hkept.retrying timer (List.mem_of_getElem? htimer)
  obtain ⟨hserved, haccepted⟩ := potential_pump_notify options { dispatcher with
    scheduledRetries := dispatcher.scheduledRetries - 1
    retries := dispatcher.retries.eraseIdx index
    queue := dispatcher.queue ++ [timer.job] } hqueued
  refine ⟨le_trans (Nat.add_le_add_left hserved 1) ?_, haccepted⟩
  simp only [potential, herase]
  simp only [hretries, List.map_append, List.map_cons, List.map_nil, List.sum_append, List.sum_cons,
    List.sum_nil, timerCost]
  omega

theorem paid_of_catchFailure {index : ℕ} {job : Job} {error : Thrown} (now : Timestamp)
    (hrun : dispatcher.runs[index]? = some ⟨job, .failed error⟩) :
    1 + potential options (dispatcher.catchFailure options index ⟨job, .failed error⟩ error now) ≤
        potential options dispatcher ∧
      (dispatcher.catchFailure options index ⟨job, .failed error⟩ error now).accepted =
        dispatcher.accepted := by
  rw [Dispatcher.catchFailure]
  split
  · have hfinished := potential_setPhase options Phase.finished hrun
    refine ⟨?_, rfl⟩
    simp only [potential, Dispatcher.setPhase, runCost, List.map_append, List.map_cons,
      List.map_nil, List.sum_append, List.sum_cons, List.sum_nil, timerCost] at hfinished ⊢
    omega
  · have hrecording := potential_setPhase options Phase.recording hrun
    refine ⟨?_, rfl⟩
    simp only [potential, Dispatcher.setPhase, runCost] at hrecording ⊢
    omega

theorem paid_of_enqueue {event : InvoiceLifecycleEvent}
    (henqueue : dispatcher.enqueue event = .ok after) :
    potential options after + supplied options dispatcher ≤
      potential options dispatcher + supplied options after := by
  obtain ⟨eventId, _, hrest⟩ := bind_eq_ok.mp henqueue
  split at hrest
  · obtain rfl := pure_eq_ok.mp hrest
    exact le_refl _
  · obtain rfl := pure_eq_ok.mp hrest
    simp only [potential, supplied, List.map_append, List.map_cons, List.map_nil, List.sum_append,
      List.sum_cons, List.sum_nil, jobCost, Nat.mul_add]
    omega

/-- A callback that is outstanding uses up some of the potential and accepts no job. -/
theorem paid_of_internal (hkept : Kept options dispatcher) (hinternal : callback.isInternal = true)
    (hstep : step options dispatcher callback = some after) :
    1 + potential options after ≤ potential options dispatcher ∧
      after.accepted = dispatcher.accepted := by
  cases takes_of_step hstep with
  | accepted henqueue => cases hinternal
  | refused event => cases hinternal
  | drain waiter => cases hinternal
  | pump hscheduled =>
      obtain ⟨hpumped, haccepted⟩ := potential_pump options
        { dispatcher with immediates := dispatcher.immediates - 1 } hkept.queued
      refine ⟨le_trans (Nat.add_le_add_left hpumped 1) ?_, haccepted⟩
      simp only [potential]
      omega
  | @investorsFound index job investorIds hrun =>
      refine ⟨paid_of_setPhase hrun ?_, rfl⟩
      have hwriting := runCost_writingPhase options job investorIds
      have hfinding : runCost options ⟨job, .findingInvestors⟩ = jobCost options job + 5 := rfl
      simp only at hwriting ⊢
      omega
  | investorsFailed error hrun =>
      refine ⟨paid_of_setPhase hrun ?_, rfl⟩
      simp only [runCost]
      omega
  | @written index job entries hrun =>
      have hfinished : 1 + potential options
          (dispatcher.setPhase index ⟨job, .writing entries⟩ .finished) ≤
            potential options dispatcher := by
        refine paid_of_setPhase hrun ?_
        simp only [runCost]
        omega
      exact ⟨hfinished, rfl⟩
  | @writeFailed index job entries stored error hrun =>
      have hfailed : 1 + potential options
          (dispatcher.setPhase index ⟨job, .writing entries⟩ (.failed error)) ≤
            potential options dispatcher := by
        refine paid_of_setPhase hrun ?_
        simp only [runCost]
        omega
      exact ⟨hfailed, rfl⟩
  | caught now hrun => exact paid_of_catchFailure now hrun
  | recorded sinkError hrun =>
      refine ⟨paid_of_setPhase hrun ?_, rfl⟩
      simp only [runCost]
      omega
  | settled hrun => exact paid_of_settle hkept hrun
  | retry htimer => exact paid_of_retry hkept htimer

/-- A call costs nothing, and what it adds it has supplied. -/
theorem paid_of_call (hcall : callback.isInternal = false)
    (hstep : step options dispatcher callback = some after) :
    potential options after + supplied options dispatcher ≤
      potential options dispatcher + supplied options after := by
  cases takes_of_step hstep with
  | accepted henqueue => exact paid_of_enqueue henqueue
  | refused event => exact le_refl _
  | drain waiter =>
      rw [Dispatcher.drain]
      split
      · exact le_refl _
      · exact le_refl _
  | _ => cases hcall

theorem paid_of_step (hkept : Kept options dispatcher)
    (hstep : step options dispatcher callback = some after) :
    cost Callback.isInternal callback + potential options after + supplied options dispatcher ≤
      potential options dispatcher + supplied options after := by
  rw [cost]
  split
  · rename_i hinternal
    obtain ⟨hpaid, haccepted⟩ := paid_of_internal hkept hinternal hstep
    have hsupplied : supplied options after = supplied options dispatcher := by
      rw [supplied, haccepted, supplied]
    omega
  · rename_i hcall
    have hpaid := paid_of_call (Bool.eq_false_iff.mpr hcall) hstep
    omega

end Potential

def emptyStore : NotificationStore := ⟨[], List.nodup_nil⟩

def twoAttempts : Options :=
  { maxAttempts := 2, concurrency := 1, retryDelayMs := 500, one_le_maxAttempts := Nat.le_succ 1
    one_le_concurrency := le_refl 1 }

def approvedEvent : InvoiceLifecycleEvent :=
  { kind := .approved, invoice := { id := "7", sellerId := "2", invoiceNumber := "INV-7" } }

/-- The first write fails, and the second attempt delivers. -/
def secondAttempt : List Callback :=
  [.enqueue approvedEvent, .drain 0, .immediate, .writeFailed 0 0 (.error "down"), .caught 0 900,
    .settled 0, .retry 0, .written 0, .settled 0]

end StellarSettle.DispatchedJobs
