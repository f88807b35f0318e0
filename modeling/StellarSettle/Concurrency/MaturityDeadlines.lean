import StellarSettle.Concurrency.SystemInvariant

/-!
# Deadlines of a matured invoice

A tick of the maturity worker selects a batch of matured invoices and works through it.  When an
invoice's turn comes, `markUnderfunded` looks at the status and the funding of its locked row, and
not at the deadlines again.
-/

namespace StellarSettle.MaturityDeadlines

open StellarSettle.Entities
open StellarSettle.InvoiceLifecycle
open StellarSettle.InvoiceMaturity
open StellarSettle.RowLock
open StellarSettle.SettleInvoice
open StellarSettle.System
open StellarSettle.SystemWrites
open StellarSettle.TransitionSystem

/-! ## The worker -/

def toDateOnly (date : Timestamp) : ℤ := date / MS_PER_DAY

/-- `dueDate: LessThanOrEqual(toDateOnly(asOf))`. -/
def dueDatePassed (invoice : Invoice) (asOf : Timestamp) : Bool :=
  invoice.dueDate.any fun day => decide (day ≤ toDateOnly asOf)

/-- `fundingDeadline: LessThanOrEqual(asOf)`. -/
def fundingDeadlinePassed (invoice : Invoice) (asOf : Timestamp) : Bool :=
  invoice.fundingDeadline.any fun deadline => decide (deadline ≤ asOf)

/-- The `where` of `findMaturedInvoices`. -/
def isMatured (invoice : Invoice) (asOf : Timestamp) : Bool :=
  (decide (invoice.status = .published ∨ invoice.status = .funded) && dueDatePassed invoice asOf) ||
    (decide (invoice.status = .published) && fundingDeadlinePassed invoice asOf)

/-- The invoice as a tick has selected it. -/
structure Selection where
  asOf : Timestamp
  invoice : Invoice
  deriving DecidableEq, Repr

/-- What `runTick` does with a selected invoice. -/
def Selection.request (settler : SettlementService) (selection : Selection) : Request :=
  if selection.invoice.status = .funded then
    .service (.settleInvoice settler
      { proceeds := DecimalJs.ofUnits selection.invoice.amount
        actorWallet := MATURITY_JOB_ACTOR
        trigger := .reason .maturitySettled })
  else .markUnderfunded

/-- The requests on the invoice, the clock, and the selections of the ticks.  A tick works on the
invoice as the process of its own index. -/
structure MaturityWorld where
  world : World
  clock : Timestamp
  selection : ℕ → Option Selection := fun _ => none

/-- A tick that began at `asOf` selects the invoice, or its turn comes; or something else runs. -/
inductive MaturityEvent where
  | select (index : ℕ) (asOf now : Timestamp)
  | work (index : ℕ) (now : Timestamp)
  | request (event : Event)

/-- Only the worker marks an invoice as underfunded. -/
def startsWorker : Action → Bool
  | .start .markUnderfunded _ => true
  | _ => false

/-- The time of an event; a process may stop at any time. -/
def MaturityEvent.now (clock : Timestamp) : MaturityEvent → Timestamp
  | select _ _ now => now
  | work _ now => now
  | request event =>
      match event.action with
      | .fail _ => clock
      | _ => event.now

variable (settler : SettlementService)

/-- A tick selects the invoice before its process begins. -/
def stepSelect (state : MaturityWorld) (index : ℕ) (asOf now : Timestamp) : Option MaturityWorld :=
  match state.world.process index, state.selection index, state.world.db.invoice with
  | .idle, none, some invoice =>
      if asOf ≤ now ∧ isMatured invoice asOf = true then
        some { state with
          clock := now
          selection := setProcess state.selection index (some ⟨asOf, invoice⟩) }
      else none
  | _, _, _ => none

/-- The clock never goes back. -/
def step (state : MaturityWorld) (event : MaturityEvent) : Option MaturityWorld :=
  if event.now state.clock < state.clock then none
  else
    match event with
    | .select index asOf now => stepSelect state index asOf now
    | .work index now =>
        (state.selection index).bind fun selection =>
          (System.step state.world ⟨index, .start (selection.request settler) now⟩).map
            fun world => { state with world := world, clock := now }
    | .request inner =>
        if startsWorker inner.action = true then none
        else
          (System.step state.world inner).map fun world =>
            { state with world := world, clock := event.now state.clock }

/-! ## What the worker may do -/

def DeadlinePassed (invoice : Invoice) (now : Timestamp) : Prop :=
  dueDatePassed invoice now = true ∨ fundingDeadlinePassed invoice now = true

instance (invoice : Invoice) (now : Timestamp) : Decidable (DeadlinePassed invoice now) :=
  inferInstanceAs (Decidable (_ ∨ _))

/-- The stored invoice is published, not fully funded, and past one of its deadlines. -/
def Overdue (db : Database) (now : Timestamp) : Prop :=
  ∃ invoice, db.invoice = some invoice ∧ invoice.status = .published ∧
    invoice.fundedAmount < invoice.netAmount ∧ DeadlinePassed invoice now

/-- The event commits the transition of the tick at `index`, at the time `now`. -/
def CommitsFailed (state : MaturityWorld) (event : MaturityEvent) (index : ℕ) (now : Timestamp) :
    Prop :=
  ∃ environment, event = .request ⟨index, .advance environment⟩ ∧
    (failing (state.world.process index)).isSome = true ∧ environment.now = now

/-- A transition to FAILED commits only for an invoice that is overdue then. -/
def FailsOverdue (state : MaturityWorld) (event : MaturityEvent) : Prop :=
  ∀ index now, CommitsFailed state event index now → Overdue state.world.db now

/-- When its transition commits, the invoice has the deadlines that the tick has selected it by,
or one of its deadlines has passed nevertheless. -/
def DeadlinesStand (state : MaturityWorld) (event : MaturityEvent) : Prop :=
  ∀ index now, CommitsFailed state event index now →
    ∀ selection ∈ state.selection index, ∀ invoice ∈ state.world.db.invoice,
      (invoice.dueDate = selection.invoice.dueDate ∧
        invoice.fundingDeadline = selection.invoice.fundingDeadline) ∨
      DeadlinePassed invoice now

/-! ## The deadline of a selection -/

theorem toDateOnly_mono {earlier later : Timestamp} (hle : earlier ≤ later) :
    toDateOnly earlier ≤ toDateOnly later :=
  Int.ediv_le_ediv (by decide) hle

/-- A deadline that has passed stays passed. -/
theorem DeadlinePassed.mono {invoice : Invoice} {earlier later : Timestamp}
    (hpassed : DeadlinePassed invoice earlier) (hle : earlier ≤ later) :
    DeadlinePassed invoice later := by
  rcases hpassed with hdue | hfunding
  · left
    obtain ⟨day, hday, hbefore⟩ := (Option.any_eq_true _ _).mp hdue
    refine (Option.any_eq_true _ _).mpr ⟨day, hday, decide_eq_true ?_⟩
    exact (of_decide_eq_true hbefore).trans (toDateOnly_mono hle)
  · right
    obtain ⟨deadline, hdeadline, hbefore⟩ := (Option.any_eq_true _ _).mp hfunding
    refine (Option.any_eq_true _ _).mpr ⟨deadline, hdeadline, decide_eq_true ?_⟩
    exact (of_decide_eq_true hbefore).trans hle

theorem DeadlinePassed.congr {invoice other : Invoice} {now : Timestamp}
    (hpassed : DeadlinePassed invoice now) (hdue : other.dueDate = invoice.dueDate)
    (hfunding : other.fundingDeadline = invoice.fundingDeadline) : DeadlinePassed other now := by
  rw [DeadlinePassed, dueDatePassed, fundingDeadlinePassed, hdue, hfunding]
  exact hpassed

theorem deadlinePassed_of_isMatured {invoice : Invoice} {asOf : Timestamp}
    (hmatured : isMatured invoice asOf = true) : DeadlinePassed invoice asOf := by
  rcases Bool.or_eq_true_iff.mp hmatured with hdue | hfunding
  · exact .inl (Bool.and_eq_true_iff.mp hdue).2
  · exact .inr (Bool.and_eq_true_iff.mp hfunding).2

/-! ## What the locked row keeps -/

/-- The row that the worker has locked is as it was read. -/
def LockedRow (db : Database) (process : Process) : Prop :=
  ∀ invoice ∈ failing process, db.invoice = some invoice ∧ invoice.status = .published ∧
    invoice.fundedAmount < invoice.netAmount

def knowledge : Knowledge Database Process where
  always := fun _ _ => True
  holding := fun process => (failing process).isSome
  locked := LockedRow

/-- A step that did not wait for the row leaves the invoice. -/
theorem invoice_of_write {now : Timestamp} {db after : Database} {process : Process}
    (hwrite : Write now db process after) (hneedless : needsInvoice process = false) :
    after.invoice = db.invoice := by
  have hnever : needsInvoice process ≠ true := by simp [hneedless]
  cases hwrite with
  | quiet hrows => exact invoice_of_rows hrows
  | inserted hneeds _ _ => exact absurd hneeds hnever
  | forwarded _ _ hrows => exact invoice_of_rows hrows
  | settled hneeds _ _ _ _ _ _ => exact absurd hneeds hnever
  | funded hneeds _ => exact absurd hneeds hnever
  | changed hneeds _ _ _ _ => exact absurd hneeds hnever
  | saved hneeds _ _ _ _ => exact absurd hneeds hnever
  | confirmed _ hrows => exact invoice_of_rows hrows
  | removed hrows => exact invoice_of_rows hrows
  | purchased hneeds _ _ => exact absurd hneeds hnever

def isUnderfunded : Process → Bool
  | .markUnderfunded _ => true
  | _ => false

theorem failing_of_not_underfunded {process : Process} (hother : isUnderfunded process = false) :
    failing process = none := by
  unfold failing
  split
  · cases hother
  · rfl

/-- Only the worker's own process goes on as the worker's. -/
theorem isUnderfunded_of_advance {environment : Environment} {db : Database} {process : Process}
    {outcome : Outcome} (hadvance : advance environment db process = some outcome)
    (hother : isUnderfunded process = false) : isUnderfunded outcome.process = false := by
  have hattempt : ∀ {α : Type} {result : Except Thrown α} {next : α → Outcome},
      (∀ value, isUnderfunded (next value).process = false) →
        isUnderfunded (Outcome.attempt db result next).process = false :=
    fun hnext => Outcome.attempt_rule (P := fun found => isUnderfunded found.process = false)
      (fun _ => rfl) fun value _ => hnext value
  cases process with
  | idle => cases hadvance
  | finished thrown => cases hadvance
  | service process =>
      obtain ⟨served, _, rfl⟩ := Option.map_eq_some_iff.mp hadvance
      rfl
  | funding process =>
      obtain ⟨served, _, rfl⟩ := Option.map_eq_some_iff.mp hadvance
      rfl
  | markUnderfunded stage => cases hother
  | changeStatus request stage =>
      obtain rfl := Option.some.inj hadvance
      cases stage <;> exact hattempt fun _ => rfl
  | cancelInvoice options stage =>
      obtain rfl := Option.some.inj hadvance
      cases stage <;> exact hattempt fun _ => rfl
  | invoiceEvent topic stage =>
      obtain rfl := Option.some.inj hadvance
      cases stage with
      | find =>
          rw [advanceInvoiceEvent]
          split <;> rfl
      | save entity => exact hattempt fun _ => rfl
  | uploadDocument input stage =>
      obtain rfl := Option.some.inj hadvance
      cases stage <;> exact hattempt fun _ => rfl
  | updateInvoice input stage =>
      obtain rfl := Option.some.inj hadvance
      cases stage <;> exact hattempt fun _ => rfl
  | reviewExtension input stage =>
      obtain rfl := Option.some.inj hadvance
      cases stage <;> exact hattempt fun _ => rfl

/-- After a step of the worker's process it knows the row that it has locked. -/
theorem lockedRow_of_advance {environment : Environment} {db : Database} {process : Process}
    {outcome : Outcome} (hadvance : advance environment db process = some outcome)
    (hfailing : (failing outcome.process).isSome = true) :
    outcome.holdsInvoice = true ∧ LockedRow outcome.db outcome.process := by
  cases hunderfunded : isUnderfunded process with
  | false =>
      rw [failing_of_not_underfunded (isUnderfunded_of_advance hadvance hunderfunded)] at hfailing
      cases hfailing
  | true =>
      cases process with
      | markUnderfunded stage =>
          obtain rfl := Option.some.inj hadvance
          cases stage with
          | lock =>
              rw [advanceUnderfunded] at hfailing ⊢
              cases hread : readUnderfunded db with
              | none =>
                  rw [hread] at hfailing
                  cases hfailing
              | some invoice =>
                  refine ⟨rfl, fun locked hlocked => ?_⟩
                  obtain rfl := Option.some.inj hlocked
                  obtain ⟨hinvoice, hqualifies⟩ := Option.filter_eq_some_iff.mp hread
                  obtain ⟨hstatus, hfunded⟩ := Bool.and_eq_true_iff.mp hqualifies
                  exact ⟨hinvoice, eq_of_beq hstatus, of_decide_eq_true hfunded⟩
          | commit invoice =>
              have hended : failing (Outcome.attempt db (markUnderfunded db invoice)
                  fun changed => { db := changed, process := .finished none }).process = none :=
                Outcome.attempt_rule (P := fun found => failing found.process = none)
                  (fun _ => rfl) fun _ _ => rfl
              rw [advanceUnderfunded, hended] at hfailing
              cases hfailing
      | _ => cases hunderfunded

theorem failing_of_start (now : Timestamp) (request : Request) :
    failing (Request.process now request) = none := by
  cases request with
  | invoiceEvent topic =>
      rw [Request.process]
      split <;> rfl
  | _ => rfl

theorem failing_of_failed (failure : Funding.Failure) (process : Process) :
    failing (process.failed failure) = none := by
  cases process <;> rfl

/-- The locked row stays as it was read, whatever else runs. -/
theorem known_of_step {world after : World} {event : Event}
    (hinvariant : SystemInvariant.Invariant world)
    (hknown : Known knowledge world.db world.holder world.process)
    (hstep : System.step world event = some after) :
    Known knowledge after.db after.holder after.process := by
  have hquiet : ∀ next, failing next = none →
      Known knowledge world.db (nextHolder world.holder event.process false)
        (setProcess world.process event.process next) := by
    intro next hnone
    have hneedless : false = true → Available world.holder event.process :=
      fun hneeds => by cases hneeds
    refine hknown.step hneedless (Keeps.released trivial ?_)
    change (failing next).isSome = false
    rw [hnone]
    rfl
  rcases step_cases hstep with ⟨request, now, _, _, rfl⟩ |
    ⟨environment, outcome, _, havailable, hunused, hadvance, rfl⟩ | ⟨failure, _, rfl⟩
  · exact hquiet _ (failing_of_start now request)
  · have hmoved := SystemInvariant.moved_of_advance hunused (hinvariant.always event.process)
      (hinvariant.locked event.process) hadvance
    exact hknown.step havailable
      { always := trivial
        holding := lockedRow_of_advance hadvance
        waited := hmoved.waited
        others := fun _ halways => halways
        frame := fun hneedless other _ hlocked invoice hinvoice => by
          obtain ⟨hrow, hqualifies⟩ := hlocked invoice hinvoice
          exact ⟨(invoice_of_write (write_of_advance hadvance) hneedless).trans hrow,
            hqualifies⟩ }
  · exact hquiet _ (failing_of_failed failure (world.process event.process))

theorem isUnderfunded_of_start {now : Timestamp} {request : Request}
    (hunderfunded : isUnderfunded (Request.process now request) = true) :
    request = .markUnderfunded := by
  cases request with
  | markUnderfunded => rfl
  | invoiceEvent topic =>
      rw [Request.process] at hunderfunded
      split at hunderfunded <;> cases hunderfunded
  | _ => cases hunderfunded

theorem process_apply_self (world : World) (index : ℕ) (outcome : Outcome) :
    (world.apply index outcome).process index = outcome.process := Function.update_self ..

/-- A process that goes on as the worker's was the worker's, or starts as it. -/
theorem isUnderfunded_of_step {world after : World} {event : Event} {index : ℕ}
    (hstep : System.step world event = some after)
    (hunderfunded : isUnderfunded (after.process index) = true) :
    isUnderfunded (world.process index) = true ∨
      event.process = index ∧ ∃ now, event.action = .start .markUnderfunded now := by
  have hothers : ∀ next, index ≠ event.process →
      isUnderfunded (setProcess world.process event.process next index) = true →
        isUnderfunded (world.process index) = true := by
    intro next hother hnext
    rwa [setProcess, Function.update_of_ne hother] at hnext
  by_cases hindex : index = event.process
  · subst hindex
    rcases step_cases hstep with ⟨request, now, haction, _, rfl⟩ |
      ⟨environment, outcome, _, _, _, hadvance, rfl⟩ | ⟨failure, _, rfl⟩
    · rw [process_apply_self] at hunderfunded
      rw [isUnderfunded_of_start hunderfunded] at haction
      exact .inr ⟨rfl, now, haction⟩
    · rw [process_apply_self] at hunderfunded
      by_contra hneither
      have hbefore : isUnderfunded (world.process event.process) = false := by
        rw [← Bool.not_eq_true]
        exact fun hwas => hneither (.inl hwas)
      rw [isUnderfunded_of_advance hadvance hbefore] at hunderfunded
      cases hunderfunded
    · rw [process_apply_self] at hunderfunded
      cases hprocess : world.process event.process <;> rw [hprocess] at hunderfunded <;>
        cases hunderfunded
  · left
    rcases step_cases hstep with ⟨_, _, _, _, rfl⟩ | ⟨_, _, _, _, _, _, rfl⟩ | ⟨_, _, rfl⟩
    · exact hothers _ hindex hunderfunded
    · exact hothers _ hindex hunderfunded
    · exact hothers _ hindex hunderfunded

/-! ## The invariant of a run -/

/-- A selection is of an invoice that had matured, by a clock that has been reached. -/
structure Inv (state : MaturityWorld) : Prop where
  invariant : SystemInvariant.Invariant state.world
  known : Known knowledge state.world.db state.world.holder state.world.process
  selected : ∀ index, ∀ selection ∈ state.selection index,
    isMatured selection.invoice selection.asOf = true ∧ selection.asOf ≤ state.clock
  worker : ∀ index, isUnderfunded (state.world.process index) = true →
    (state.selection index).isSome = true

theorem inv_initial {db : Database} {clock : Timestamp} :
    Inv { world := { db := db }, clock := clock } where
  invariant := SystemInvariant.invariant_of_initial (initial_of_database db)
  known :=
    { always := fun _ => trivial
      holds := fun _ hholding => by cases hholding
      locked := fun _ hholding => by cases hholding }
  selected := fun _ _ hselection => by cases hselection
  worker := fun _ hunderfunded => by cases hunderfunded

/-- A step of the requests, at a clock that does not go back. -/
theorem Inv.world {state : MaturityWorld} {after : World} {event : Event} {clock : Timestamp}
    (hinv : Inv state) (hclock : state.clock ≤ clock)
    (hstep : System.step state.world event = some after)
    (hstarts : ∀ now, event.action = .start .markUnderfunded now →
      (state.selection event.process).isSome = true) :
    Inv { state with world := after, clock := clock } where
  invariant := hinv.invariant.step hstep
  known := known_of_step hinv.invariant hinv.known hstep
  selected := fun index selection hselection =>
    ⟨(hinv.selected index selection hselection).1,
      (hinv.selected index selection hselection).2.trans hclock⟩
  worker := fun index hunderfunded => by
    rcases isUnderfunded_of_step hstep hunderfunded with hbefore | ⟨rfl, now, haction⟩
    · exact hinv.worker index hbefore
    · exact hstarts now haction

theorem Inv.select {state after : MaturityWorld} {index : ℕ} {asOf now : Timestamp}
    (hinv : Inv state) (hclock : state.clock ≤ now)
    (hselect : stepSelect state index asOf now = some after) : Inv after := by
  unfold stepSelect at hselect
  split at hselect
  · rename_i hidle hnone hinvoice
    split at hselect
    · rename_i hmatured
      obtain rfl := Option.some.inj hselect
      refine ⟨hinv.invariant, hinv.known, ?_, fun other hunderfunded => ?_⟩
      · refine forall_setProcess (P := fun _ (found : Option Selection) => ∀ selection ∈ found,
          isMatured selection.invoice selection.asOf = true ∧ selection.asOf ≤ now) ?_ ?_
        · intro selection hselection
          obtain rfl := Option.some.inj hselection
          exact ⟨hmatured.2, hmatured.1⟩
        · intro other _ selection hselection
          obtain ⟨hbefore, hle⟩ := hinv.selected other selection hselection
          exact ⟨hbefore, hle.trans hclock⟩
      · have hother : other ≠ index := by
          rintro rfl
          rw [hidle] at hunderfunded
          cases hunderfunded
        change (setProcess state.selection index _ other).isSome = true
        rw [setProcess, Function.update_of_ne hother]
        exact hinv.worker other hunderfunded
    · cases hselect
  · cases hselect

variable {settler}

theorem Inv.step {state after : MaturityWorld} {event : MaturityEvent} (hinv : Inv state)
    (hstep : MaturityDeadlines.step settler state event = some after) : Inv after := by
  unfold MaturityDeadlines.step at hstep
  split at hstep
  · cases hstep
  · rename_i hclock
    have hclock := le_of_not_gt hclock
    split at hstep
    · exact hinv.select hclock hstep
    · obtain ⟨selection, hselection, hwork⟩ := Option.bind_eq_some_iff.mp hstep
      obtain ⟨world, hworld, rfl⟩ := Option.map_eq_some_iff.mp hwork
      refine hinv.world hclock hworld fun _ _ => ?_
      rw [hselection]
      rfl
    · split at hstep
      · cases hstep
      · rename_i hother
        obtain ⟨world, hworld, rfl⟩ := Option.map_eq_some_iff.mp hstep
        refine hinv.world hclock hworld fun now haction => ?_
        rw [haction] at hother
        exact absurd rfl hother

/-! ## Exactly when the worker fails overdue invoices only -/

/-- What is known when a transition commits: the row, the selection and its deadline. -/
theorem exists_of_commitsFailed {state after : MaturityWorld} {event : MaturityEvent} {index : ℕ}
    {now : Timestamp} (hinv : Inv state)
    (hstep : MaturityDeadlines.step settler state event = some after)
    (hcommits : CommitsFailed state event index now) :
    ∃ invoice selection, state.world.db.invoice = some invoice ∧ invoice.status = .published ∧
      invoice.fundedAmount < invoice.netAmount ∧ state.selection index = some selection ∧
      DeadlinePassed selection.invoice now := by
  obtain ⟨environment, rfl, hfailing, rfl⟩ := hcommits
  obtain ⟨invoice, hprocess⟩ := Option.isSome_iff_exists.mp hfailing
  obtain ⟨hinvoice, hstatus, hfunded⟩ := hinv.known.locked index hfailing invoice hprocess
  have hworker : isUnderfunded (state.world.process index) = true := by
    rw [← Bool.not_eq_false]
    intro hother
    rw [failing_of_not_underfunded hother] at hprocess
    cases hprocess
  obtain ⟨selection, hselection⟩ := Option.isSome_iff_exists.mp (hinv.worker index hworker)
  obtain ⟨hmatured, hasOf⟩ := hinv.selected index selection hselection
  refine ⟨invoice, selection, hinvoice, hstatus, hfunded, hselection,
    (deadlinePassed_of_isMatured hmatured).mono (hasOf.trans ?_)⟩
  unfold MaturityDeadlines.step at hstep
  split at hstep
  · cases hstep
  · rename_i hclock
    exact le_of_not_gt hclock

/-- A transition commits for an overdue invoice exactly where the deadlines stand. -/
theorem failsOverdue_iff {state after : MaturityWorld} {event : MaturityEvent} (hinv : Inv state)
    (hstep : MaturityDeadlines.step settler state event = some after) :
    FailsOverdue state event ↔ DeadlinesStand state event := by
  constructor
  · intro hoverdue index now hcommits selection _ invoice hinvoice
    obtain ⟨row, hrow, _, _, hpassed⟩ := hoverdue index now hcommits
    obtain rfl := Option.some.inj (hrow.symm.trans hinvoice)
    exact .inr hpassed
  · intro hstand index now hcommits
    obtain ⟨invoice, selection, hinvoice, hstatus, hfunded, hselection, hselected⟩ :=
      exists_of_commitsFailed hinv hstep hcommits
    refine ⟨invoice, hinvoice, hstatus, hfunded, ?_⟩
    rcases hstand index now hcommits selection hselection invoice hinvoice with
      ⟨hdue, hfunding⟩ | hpassed
    · exact hselected.congr hdue hfunding
    · exact hpassed

/-- In every run, the worker fails overdue invoices only if and only if the deadlines stand
whenever it does. -/
theorem failsOverdue_iff_deadlinesStand {db : Database} {clock : Timestamp}
    {events : List MaturityEvent} {last : MaturityWorld} :
    GuardedRun (step settler) FailsOverdue { world := { db := db }, clock := clock } events last ↔
      GuardedRun (step settler) DeadlinesStand { world := { db := db }, clock := clock } events
        last := by
  constructor
  · intro hoverdue
    exact hoverdue.strengthenStep (fun _ hstep hinv => hinv.step hstep)
      (fun hinv hstep => (failsOverdue_iff hinv hstep).mp) inv_initial
  · intro hstand
    exact hstand.strengthenStep (fun _ hstep hinv => hinv.step hstep)
      (fun hinv hstep => (failsOverdue_iff hinv hstep).mpr) inv_initial

/-! ## An extension that comes too late -/

/-- A published invoice with the funding deadline 100, and a request to extend it. -/
def extendable : Database :=
  { invoice := some { fundedInvoice with
      status := .published, fundedAmount := 0, dueDate := some 30, fundingDeadline := some 100 }
    extensionRequests := [⟨5, 1000000, some 100, .pending, none, none, none⟩] }

/-- A tick selects the invoice, the extension is approved, and the invoice's turn comes. -/
def extendedInBetween : List MaturityEvent :=
  [.select 0 200 200,
    .request ⟨1, .start (.reviewExtension ⟨5, .approve, "GADMIN", none⟩) 300⟩,
    .request ⟨1, .advance { now := 310 }⟩, .request ⟨1, .advance { now := 320 }⟩,
    .work 0 400, .request ⟨0, .advance { now := 410 }⟩]

def commitFailed : MaturityEvent := .request ⟨0, .advance { now := 420 }⟩

def noDistributor : SettlementService := ⟨false, none⟩

theorem not_overdue_of_extended {db : Database} {invoice : Invoice} {now deadline : Timestamp}
    (hinvoice : db.invoice = some invoice) (hdue : dueDatePassed invoice now = false)
    (hdeadline : invoice.fundingDeadline = some deadline) (hlater : now < deadline) :
    ¬Overdue db now := by
  rintro ⟨row, hrow, _, _, hpassed⟩
  obtain rfl := Option.some.inj (hinvoice.symm.trans hrow)
  rcases hpassed with hday | hfunding
  · rw [hdue] at hday
    cases hday
  · rw [fundingDeadlinePassed, hdeadline] at hfunding
    exact absurd (of_decide_eq_true hfunding) (not_le_of_gt hlater)

/-- The invoice fails although the extension was committed before. -/
theorem extended_failed : ∃ last,
    Run (step noDistributor) { world := { db := extendable }, clock := 0 }
      (extendedInBetween ++ [commitFailed]) last ∧
      last.world.db.invoice.map Invoice.status = some .failed ∧
      last.world.db.invoice.bind Invoice.fundingDeadline = some 1000000 ∧
      ¬GuardedRun (step noDistributor) FailsOverdue { world := { db := extendable }, clock := 0 }
        (extendedInBetween ++ [commitFailed]) last := by
  have hextended : (exec (step noDistributor) { world := { db := extendable }, clock := 0 }
      extendedInBetween).map (fun state => ((failing (state.world.process 0)).isSome,
        state.world.db.invoice)) = some (true, some { fundedInvoice with
          status := .published, fundedAmount := 0, dueDate := some 30
          fundingDeadline := some 1000000, version := 2 }) := by
    decide +kernel
  have hfailed : (exec (step noDistributor) { world := { db := extendable }, clock := 0 }
      (extendedInBetween ++ [commitFailed])).map (fun state =>
        (state.world.db.invoice.map Invoice.status,
          state.world.db.invoice.bind Invoice.fundingDeadline)) =
        some (some .failed, some 1000000) := by
    decide +kernel
  obtain ⟨last, hrun, hlast⟩ := exists_run hfailed
  obtain ⟨hstatus, hdeadline⟩ := Prod.mk.inj hlast
  refine ⟨last, hrun, hstatus, hdeadline, fun hguarded => ?_⟩
  obtain ⟨middle, hmiddle, hoverdue, _⟩ := hguarded.last_event
  rw [hmiddle, Option.map_some] at hextended
  obtain ⟨hcommits, hinvoice⟩ := Prod.mk.inj (Option.some.inj hextended)
  exact not_overdue_of_extended hinvoice (by decide) rfl (by decide)
    (hoverdue 0 420 ⟨_, rfl, hcommits, rfl⟩)

end StellarSettle.MaturityDeadlines
