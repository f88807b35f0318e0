import StellarSettle.Concurrency.SystemInvariant
import Mathlib.Data.List.Chain

/-!
# The status of the invoice and its history

Every step leaves the stored status alone, moves it through the state machine, or
saves an entity that was read earlier.  An entity saved outside the state machine
writes no history row, and one saved by the state machine starts its history row
at the status that was read, not at the stored one.
-/

namespace StellarSettle.StatusHistory

open StellarSettle.Entities
open StellarSettle.EventIndexer
open StellarSettle.InvoiceLifecycle
open StellarSettle.InvoiceService
open StellarSettle.System
open StellarSettle.SystemInvariant
open StellarSettle.SystemWrites
open StellarSettle.TransitionSystem

/-! ## What a step does to the status -/

/-- A step of `process` at time `now`, by the status of the invoice. -/
inductive StatusStep (now : Timestamp) (process : Process) (db after : Database) : Prop
  | kept (hstatus : storedStatus after = storedStatus db)
      (hhistory : after.statusHistory = db.statusHistory)
  | moved {saved : Invoice} {history : InvoiceStatusHistory}
      (hinvoice : after.invoice = some saved)
      (hfrom : storedStatus db = some history.fromStatus)
      (hadmitted : Admitted now saved history)
      (hhistory : after.statusHistory = db.statusHistory ++ [history])
  | unlocked {entity saved : Invoice} {history : InvoiceStatusHistory}
      (hprocess : changing process = some (entity, history.toStatus))
      (hinvoice : after.invoice = some saved) (hfrom : history.fromStatus = entity.status)
      (hadmitted : Admitted now saved history)
      (hhistory : after.statusHistory = db.statusHistory ++ [history])
  | outside {entity : Invoice} (hprocess : savingInvoice process = some entity)
      (hstatus : storedStatus after = some entity.status)
      (hhistory : after.statusHistory = db.statusHistory)

/-- A step that touches neither the invoice nor the history. -/
theorem StatusStep.of_rows {now : Timestamp} {process : Process} {db after : Database}
    (hinvoice : (rows after).invoice = (rows db).invoice)
    (hhistory : (rows after).statusHistory = (rows db).statusHistory) :
    StatusStep now process db after :=
  .kept (congrArg (Option.map Invoice.status) hinvoice) hhistory

/-- Every step is one of these: what holds the row moves the status it found. -/
theorem statusStep_of_write {now : Timestamp} {process : Process} {db after : Database}
    (hwellFormed : WellFormed process)
    (hlocked : ∀ status, lockedStatus process = some status → storedStatus db = some status)
    (hwrite : Write now db process after) : StatusStep now process db after := by
  cases hwrite with
  | quiet hrows => exact .of_rows (by rw [hrows]) (by rw [hrows])
  | inserted _ _ hrows => exact .of_rows (by rw [hrows]) (by rw [hrows])
  | forwarded _ _ hrows => exact .of_rows (by rw [hrows]) (by rw [hrows])
  | settled _ hprocess hadmitted hfrom _ _ hrows =>
      obtain ⟨hfunded, _⟩ := funded_of_settling hwellFormed hprocess
      refine .moved (invoice_of_rows hrows) ?_ hadmitted (statusHistory_of_rows hrows)
      calc
        storedStatus db = some .funded := hlocked .funded (lockedStatus_of_settling hprocess)
        _ = some _ := by rw [hfrom, hfunded]
  | funded _ hprocess =>
      have hstored := hlocked .published (lockedStatus_of_fundingWrites hprocess)
      rcases (fundingWritten_of_fundingWrites hwellFormed hprocess).moved with
        ⟨hnone, hstatus⟩ | ⟨history, hrow, hfrom, _, hadmitted⟩
      · refine .kept ?_ ?_
        · exact (storedStatus_eq rfl hstatus).trans hstored.symm
        · rw [InvestmentService.commitFunding, hnone, List.append_nil]
      · refine .moved rfl (hfrom ▸ hstored) (hadmitted now) ?_
        rw [InvestmentService.commitFunding, hrow]
  | changed _ hprocess hadmitted hfrom hrows =>
      have hinvoice := invoice_of_rows hrows
      have hhistory := statusHistory_of_rows hrows
      rcases hprocess with hchanging | ⟨hfailing, _⟩
      · exact .unlocked hchanging hinvoice hfrom hadmitted hhistory
      · refine .moved hinvoice ?_ hadmitted hhistory
        have hpublished := published_of_failing hwellFormed hfailing
        calc
          storedStatus db = some .published :=
            hlocked .published (lockedStatus_of_failing hfailing)
          _ = some _ := by rw [hfrom, hpublished]
  | saved _ hprocess _ hsave hrows =>
      refine .outside hprocess ?_ (statusHistory_of_rows hrows)
      rw [← status_of_persistInvoice hsave]
      exact storedStatus_of_rows hrows
  | confirmed _ hrows => exact .of_rows (by rw [hrows]) (by rw [hrows])
  | removed hrows => exact .of_rows (by rw [hrows]) (by rw [hrows])
  | purchased _ _ hrows => exact .of_rows (by rw [hrows]) (by rw [hrows])

theorem statusStep_of_step {world after : World} {event : Event}
    (hinvariant : Invariant world) (hstep : System.step world event = some after) :
    after.db = world.db ∨ event.advances = true ∧
      StatusStep event.now (world.process event.process) world.db after.db := by
  rcases write_of_step hstep with hsame | ⟨hadvances, hwrite⟩
  · exact .inl hsame
  · exact .inr ⟨hadvances, statusStep_of_write (hinvariant.always event.process)
      (fun _ hstatus => hinvariant.storedStatus hstatus) hwrite⟩

/-! ## Changes that the state machine records -/

/-- The stored status stays, or it moves by an admitted transition with one history
row. -/
def Recorded (now : Timestamp) (db after : Database) : Prop :=
  storedStatus after = storedStatus db ∨
    ∃ saved history, after.invoice = some saved ∧
      storedStatus db = some history.fromStatus ∧
      after.statusHistory = db.statusHistory ++ [history] ∧ Admitted now saved history

/-- What the event commits, if it is enabled, is recorded. -/
def Records (world : World) (event : Event) : Prop :=
  ∀ after, System.step world event = some after → Recorded event.now world.db after.db

/-- The next step does not save an entity with another status than the stored one: the
state machine's entity has the stored status, or is to get it, and one that is saved
outside the state machine has it. -/
def SavesStoredStatus (world : World) (event : Event) : Prop :=
  event.advances = true →
    (∀ change ∈ changing (world.process event.process),
      storedStatus world.db = some change.1.status ∨ storedStatus world.db = some change.2) ∧
    ∀ entity ∈ savingInvoice (world.process event.process),
      storedStatus world.db = some entity.status

instance (world : World) (event : Event) : Decidable (SavesStoredStatus world event) :=
  inferInstanceAs (Decidable (_ → _ ∧ _))

theorem records_of_saves {world : World} {event : Event} (hinvariant : Invariant world)
    (hsaves : SavesStoredStatus world event) : Records world event := by
  intro after hstep
  rcases statusStep_of_step hinvariant hstep with hsame | ⟨hadvances, hstatusStep⟩
  · exact .inl (by rw [hsame])
  · obtain ⟨hchanging, houtside⟩ := hsaves hadvances
    cases hstatusStep with
    | kept hstatus _ => exact .inl hstatus
    | moved hinvoice hfrom hadmitted hhistory =>
        exact .inr ⟨_, _, hinvoice, hfrom, hhistory, hadmitted⟩
    | unlocked hprocess hinvoice hfrom hadmitted hhistory =>
        rcases hchanging _ hprocess with hread | htarget
        · exact .inr ⟨_, _, hinvoice, hfrom ▸ hread, hhistory, hadmitted⟩
        · refine .inl ?_
          rw [htarget, storedStatus_eq hinvoice hadmitted.target]
    | outside hprocess hstatus _ =>
        exact .inl (hstatus.trans (houtside _ hprocess).symm)

/-- Where every save finds the status it writes or the one it moves from, the rules
admit and the history records every change of the stored status. -/
theorem statusChanges_recorded {first last : World} {events : List Event}
    (hinitial : Initial first)
    (hrun : GuardedRun System.step SavesStoredStatus first events last) :
    GuardedRun System.step Records first events last :=
  hrun.strengthen (fun _ hstep hinvariant => hinvariant.step hstep) records_of_saves
    (invariant_of_initial hinitial)

/-! ### An event outside the state machine -/

def draftInvoice : Invoice :=
  { fundedInvoice with
    status := .draft
    fundedAmount := 0
    dueDate := some 30
    ipfsHash := some "QmInvoice" }

def draftDatabase : Database :=
  { fundedDatabase with invoice := some draftInvoice, investments := [] }

def publishedDatabase : Database :=
  { draftDatabase with invoice := some { draftInvoice with status := .published } }

/-- The seller publishes the draft, which is not funded when it matures. -/
def publishedThenFailed : List Event :=
  [⟨0, .start (.changeStatus (.publishInvoice 2)) 0⟩, ⟨0, .advance {}⟩, ⟨0, .advance {}⟩,
    ⟨1, .start .markUnderfunded 0⟩, ⟨1, .advance {}⟩, ⟨1, .advance {}⟩]

theorem publishedThenFailed_recorded :
    ∃ last, GuardedRun System.step SavesStoredStatus { db := draftDatabase }
        publishedThenFailed last ∧
      storedStatus last.db = some .failed ∧
      GuardedRun System.step Records { db := draftDatabase } publishedThenFailed last := by
  have hfailed : (execGuarded System.step SavesStoredStatus { db := draftDatabase }
      publishedThenFailed).map (fun world => storedStatus world.db) = some (some .failed) := by
    decide +kernel
  obtain ⟨last, hrun, hlast⟩ := exists_guardedRun hfailed
  exact ⟨last, hrun, hlast, statusChanges_recorded (initial_of_database _) hrun⟩

/-- `settle_escrow` on a published invoice: it finds the invoice, and saves it. -/
def settleEscrow : List Event :=
  [⟨0, .start (.invoiceEvent "settle_escrow") 0⟩, ⟨0, .advance {}⟩] ++ [⟨0, .advance {}⟩]

theorem settleEscrow_not_recorded :
    ∃ first last, Initial first ∧ Run System.step first settleEscrow last ∧
      storedStatus first.db = some .published ∧ storedStatus last.db = some .settled ∧
      last.db.statusHistory = [] ∧ ¬GuardedRun System.step Records first settleEscrow last := by
  have hread : (exec System.step { db := publishedDatabase }
      [⟨0, .start (.invoiceEvent "settle_escrow") 0⟩, ⟨0, .advance {}⟩]).map
        (fun world => storedStatus world.db) = some (some .published) := by
    decide +kernel
  have hsaved : (exec System.step { db := publishedDatabase } settleEscrow).map
      (fun world => (storedStatus world.db, world.db.statusHistory)) =
        some (some .settled, []) := by
    decide +kernel
  obtain ⟨last, hreached, hlast⟩ := exists_run hsaved
  obtain ⟨hstatus, hhistory⟩ := Prod.mk.inj hlast
  refine ⟨_, last, initial_of_database _, hreached, rfl, hstatus, hhistory, fun hrun => ?_⟩
  obtain ⟨middle, hmiddle, hrecords, hstep⟩ := hrun.last_event
  rw [hmiddle, Option.map_some] at hread
  rcases hrecords last hstep with hkept | ⟨_, _, _, _, hrow, _⟩
  · rw [hstatus, Option.some.inj hread] at hkept
    cases hkept
  · rw [hhistory] at hrow
    simp at hrow

/-! ## The history as a chain -/

/-- Each row starts where the row before it ends, and the last one ends at the stored
status. -/
structure Chained (db : Database) : Prop where
  links : db.statusHistory.IsChain fun earlier later => later.fromStatus = earlier.toStatus
  last : ∀ row ∈ db.statusHistory.getLast?, storedStatus db = some row.toStatus

/-- A row that starts at the stored status extends the chain. -/
theorem Chained.append {now : Timestamp} {db after : Database} {saved : Invoice}
    {history : InvoiceStatusHistory} (hchained : Chained db)
    (hinvoice : after.invoice = some saved)
    (hfrom : storedStatus db = some history.fromStatus)
    (hadmitted : Admitted now saved history)
    (hhistory : after.statusHistory = db.statusHistory ++ [history]) : Chained after where
  links := by
    rw [hhistory, List.isChain_append]
    refine ⟨hchained.links, List.isChain_singleton _, fun row hrow next hnext => ?_⟩
    obtain rfl : history = next := Option.some.inj hnext
    exact Option.some.inj (hfrom.symm.trans (hchained.last row hrow))
  last := fun row hrow => by
    rw [hhistory, List.getLast?_concat] at hrow
    obtain rfl : history = row := Option.some.inj hrow
    exact storedStatus_eq hinvoice hadmitted.target

/-- The next step saves no invoice outside the state machine. -/
def ThroughStateMachine (world : World) (event : Event) : Prop :=
  event.advances = true → savingInvoice (world.process event.process) = none

/-- The next step does not save an entity that the state machine checked in another
status than the stored one. -/
def ChecksStoredStatus (world : World) (event : Event) : Prop :=
  event.advances = true → ∀ change ∈ changing (world.process event.process),
    storedStatus world.db = some change.1.status

instance (world : World) (event : Event) : Decidable (ThroughStateMachine world event) :=
  inferInstanceAs (Decidable (_ → _ = _))

instance (world : World) (event : Event) : Decidable (ChecksStoredStatus world event) :=
  inferInstanceAs (Decidable (_ → _))

/-- In every state of every run of such steps. -/
structure HistoryInvariant (world : World) : Prop where
  base : Invariant world
  chained : Chained world.db

theorem Chained.step {world after : World} {event : Event} (hchained : Chained world.db)
    (hinvariant : Invariant world) (hthrough : ThroughStateMachine world event)
    (hchecks : ChecksStoredStatus world event)
    (hstep : System.step world event = some after) : Chained after.db := by
  rcases statusStep_of_step hinvariant hstep with hsame | ⟨hadvances, hstatusStep⟩
  · rwa [hsame]
  · cases hstatusStep with
    | kept hstatus hhistory =>
        exact ⟨hhistory ▸ hchained.links, fun row hrow =>
          hstatus.trans (hchained.last row (hhistory ▸ hrow))⟩
    | moved hinvoice hfrom hadmitted hhistory =>
        exact hchained.append hinvoice hfrom hadmitted hhistory
    | unlocked hprocess hinvoice hfrom hadmitted hhistory =>
        have hread := hchecks hadvances _ hprocess
        exact hchained.append hinvoice (hfrom ▸ hread) hadmitted hhistory
    | outside hprocess _ _ =>
        rw [hthrough hadvances] at hprocess
        cases hprocess

/-- When the state machine checks the stored status, the history stays a chain. -/
theorem history_chained {first last : World} {events : List Event} (hinitial : Initial first)
    (hchained : Chained first.db)
    (hrun : GuardedRun System.step
      (fun world event => ThroughStateMachine world event ∧ ChecksStoredStatus world event)
      first events last) : Chained last.db := by
  have hfirst : HistoryInvariant first := ⟨invariant_of_initial hinitial, hchained⟩
  have hlast : HistoryInvariant last := hrun.invariant (fun hguard hstep hinvariant =>
    ⟨hinvariant.base.step hstep,
      hinvariant.chained.step hinvariant.base hguard.1 hguard.2 hstep⟩) hfirst
  exact hlast.chained

theorem chained_of_empty {db : Database} (hempty : db.statusHistory = []) : Chained db :=
  ⟨hempty ▸ .nil, fun row hrow => by
    rw [hempty] at hrow
    cases hrow⟩

theorem publishedThenFailed_chained :
    ∃ last, GuardedRun System.step
        (fun world event => ThroughStateMachine world event ∧ ChecksStoredStatus world event)
        { db := draftDatabase } publishedThenFailed last ∧
      last.db.statusHistory.length = 2 ∧ Chained last.db := by
  have hrows : (execGuarded System.step
      (fun world event => ThroughStateMachine world event ∧ ChecksStoredStatus world event)
      { db := draftDatabase } publishedThenFailed).map
        (fun world => world.db.statusHistory.length) = some 2 := by
    decide +kernel
  obtain ⟨last, hrun, hlast⟩ := exists_guardedRun hrows
  exact ⟨last, hrun, hlast, history_chained (initial_of_database _) (chained_of_empty rfl) hrun⟩

/-! ### Two requests that read the same status -/

/-- The invoice is published twice, from the same draft. -/
def publishedTwice : List Event :=
  [⟨0, .start (.changeStatus (.publishInvoice 2)) 0⟩,
    ⟨1, .start (.changeStatus (.publishInvoicesBatch 2)) 0⟩,
    ⟨0, .advance {}⟩, ⟨1, .advance {}⟩, ⟨0, .advance {}⟩, ⟨1, .advance {}⟩]

theorem publishedTwice_not_chained :
    ∃ first last, Initial first ∧ Chained first.db ∧
      GuardedRun System.step ThroughStateMachine first publishedTwice last ∧
      (last.db.statusHistory.map fun row => (row.fromStatus, row.toStatus)) =
        [(.draft, .published), (.draft, .published)] ∧ ¬Chained last.db := by
  have hrows : (execGuarded System.step ThroughStateMachine { db := draftDatabase }
      publishedTwice).map
        (fun world => world.db.statusHistory.map fun row => (row.fromStatus, row.toStatus)) =
      some [(.draft, .published), (.draft, .published)] := by
    decide +kernel
  obtain ⟨last, hreached, hlast⟩ := exists_guardedRun hrows
  refine ⟨_, last, initial_of_database _, chained_of_empty rfl, hreached, hlast,
    fun hchained => ?_⟩
  have hlinks : (last.db.statusHistory.map fun row => (row.fromStatus, row.toStatus)).IsChain
      fun earlier later => later.1 = earlier.2 :=
    (List.isChain_map _).mpr hchained.links
  rw [hlast] at hlinks
  revert hlinks
  decide

end StellarSettle.StatusHistory
