import StellarSettle.Concurrency.SinglePayout
import StellarSettle.Concurrency.SystemInvariant

/-!
# Cancellation and payouts

A transition to CANCELLED locks the invoice row before it looks for an intent in
flight, and a settlement locks the row before it looks at the status and inserts its
intent.  The one therefore never acts on what the other has not yet committed.
-/

namespace StellarSettle.Cancellation

open StellarSettle.Entities
open StellarSettle.InvoiceLifecycle
open StellarSettle.System
open StellarSettle.SystemInvariant
open StellarSettle.SystemWrites
open StellarSettle.TransitionSystem

/-- What a step of `process` leaves keeps cancelled invoices and payouts apart: the
state machine cancels no invoice that has an intent in flight, and no intent is
created for a cancelled invoice. -/
structure Apart (process : Process) (db after : Database) : Prop where
  cancelled : savingInvoice process = none → storedStatus db ≠ some .cancelled →
    storedStatus after = some .cancelled →
      db.intentInFlight = false ∧ after.intentInFlight = false
  created : db.settlementIntent = none → after.settlementIntent ≠ none →
    storedStatus db ≠ some .cancelled ∧ storedStatus after ≠ some .cancelled

/-- What the event commits, if it is enabled, keeps them apart. -/
def KeepsApart (world : World) (event : Event) : Prop :=
  ∀ after, System.step world event = some after →
    Apart (world.process event.process) world.db after.db

/-- A step that leaves the invoice and creates no intent. -/
theorem Apart.of_rows {process : Process} {db after : Database}
    (hinvoice : (rows after).invoice = (rows db).invoice)
    (hintent : db.settlementIntent = none → after.settlementIntent = none) :
    Apart process db after where
  cancelled := fun _ hbefore hafter =>
    absurd ((congrArg (Option.map Invoice.status) hinvoice).symm.trans hafter) hbefore
  created := fun hnone hsome => absurd (hintent hnone) hsome

/-- A step that leaves an invoice in another status and creates no intent. -/
theorem Apart.of_status {process : Process} {db after : Database} {status : InvoiceStatus}
    (hstatus : storedStatus after = some status) (hother : status ≠ .cancelled)
    (hintent : db.settlementIntent = none → after.settlementIntent = none) :
    Apart process db after where
  cancelled := fun _ _ hafter => absurd (Option.some.inj (hstatus.symm.trans hafter)) hother
  created := fun hnone hsome => absurd (hintent hnone) hsome

theorem lockedStatus_of_inserting {process : Process} (hprocess : inserting process = true) :
    lockedStatus process = some .funded := by
  unfold inserting at hprocess
  split at hprocess
  · rfl
  · cases hprocess

/-- Whatever the state machine cancels without having locked it was checked for
intents under the lock. -/
theorem cancelling_of_changing {process : Process} {entity : Invoice} {target : InvoiceStatus}
    (hwellFormed : WellFormed process) (hprocess : changing process = some (entity, target))
    (htarget : target = .cancelled) : cancelling process = true := by
  unfold changing at hprocess
  split at hprocess
  · obtain ⟨_, rfl⟩ := Prod.mk.inj (Option.some.inj hprocess)
    exact absurd htarget hwellFormed
  · rfl
  · cases hprocess

theorem apart_of_write {now : Timestamp} {process : Process} {db after : Database}
    (hwellFormed : WellFormed process)
    (hlocked : holding process = true → KnowsLocked db process)
    (hwrite : Write now db process after) : Apart process db after := by
  cases hwrite with
  | quiet hrows =>
      exact .of_rows (by rw [hrows]) fun hnone =>
        (settlementIntent_of_rows hrows).trans hnone
  | inserted _ hprocess hrows =>
      have hstatus := lockedStatus_of_inserting hprocess
      have hfunded := (hlocked (by rw [holding, hstatus]; rfl)).status .funded hstatus
      have hkept : storedStatus after = storedStatus db :=
        storedStatus_of_rows hrows
      refine ⟨fun _ hbefore hafter => absurd (hkept.symm.trans hafter) hbefore, fun _ _ => ?_⟩
      rw [hkept, hfunded]
      simp
  | forwarded hintent _ hrows =>
      exact .of_rows (by rw [hrows]) fun hnone => by
        rw [hintent] at hnone
        cases hnone
  | settled _ _ hadmitted _ hto hintent hrows =>
      exact .of_status (storedStatus_eq (invoice_of_rows hrows) (hadmitted.target.trans hto))
        (by decide) fun hnone =>
          (settlementIntent_of_rows hrows).trans (hintent hnone)
  | funded _ hprocess =>
      rcases (fundingWritten_of_fundingWrites hwellFormed hprocess).moved with
        ⟨_, hstatus⟩ | ⟨history, _, _, hto, hadmitted⟩
      · exact .of_status (storedStatus_eq rfl hstatus) (by decide) id
      · exact .of_status (storedStatus_eq rfl ((hadmitted now).target.trans hto)) (by decide) id
  | changed _ hprocess hadmitted _ hrows =>
      have hstatus := storedStatus_eq (invoice_of_rows hrows) hadmitted.target
      have hintent : after.settlementIntent = db.settlementIntent :=
        settlementIntent_of_rows hrows
      refine ⟨fun _ _ hafter => ?_, fun hnone hsome => absurd (hintent.trans hnone) hsome⟩
      have htarget := Option.some.inj (hstatus.symm.trans hafter)
      rcases hprocess with hchanging | ⟨_, hfailed⟩
      · have hcancelling := cancelling_of_changing hwellFormed hchanging htarget
        have hflight := (hlocked (by rw [holding, hcancelling]; simp)).intents hcancelling
        exact ⟨hflight, (intentInFlight_congr hintent).trans hflight⟩
      · rw [hfailed] at htarget
        cases htarget
  | saved _ hprocess _ _ hrows =>
      refine ⟨fun hnone => ?_, fun hnone hsome => absurd ?_ hsome⟩
      · rw [hprocess] at hnone
        cases hnone
      · exact (settlementIntent_of_rows hrows).trans hnone
  | confirmed _ hrows =>
      exact .of_rows (by rw [hrows]) fun hnone =>
        (settlementIntent_of_rows hrows).trans hnone
  | removed hrows =>
      exact .of_rows (by rw [hrows]) fun hnone =>
        (settlementIntent_of_rows hrows).trans hnone
  | purchased _ _ hrows =>
      exact .of_rows (by rw [hrows]) fun hnone =>
        (settlementIntent_of_rows hrows).trans hnone

theorem keepsApart_of_invariant {world : World} {event : Event} (hinvariant : Invariant world) :
    KeepsApart world event := by
  intro after hstep
  rcases write_of_step hstep with hsame | ⟨_, hwrite⟩
  · exact .of_rows (by rw [hsame]) fun hnone => by rwa [hsame]
  · exact apart_of_write (hinvariant.always event.process) (hinvariant.locked event.process) hwrite

/-- In every run, cancelled invoices and payouts are kept apart. -/
theorem cancellation_apart {first last : World} {events : List Event} (hinitial : Initial first)
    (hrun : Run System.step first events last) :
    GuardedRun System.step KeepsApart first events last := by
  have hapart : ∀ {world : World} {event : Event}, Invariant world → True →
      KeepsApart world event := fun hinvariant _ => keepsApart_of_invariant hinvariant
  exact hrun.strengthen (fun _ hstep hinvariant => hinvariant.step hstep) hapart
    (invariant_of_initial hinitial)

/-! ### A cancellation that waits for a settlement -/

def adminCancellation : TransitionOptions :=
  { actor := { role := .admin }, trigger := .adminCancelled }

/-- The cancellation reads the funded invoice, and gets its row when the settlement
has inserted an intent. -/
def cancelDuringSettlement : List Event :=
  [⟨1, .start (.cancelInvoice adminCancellation) 0⟩, ⟨1, .advance {}⟩,
    ⟨0, .start (.service SinglePayout.manualSettlement) 0⟩, ⟨0, .advance {}⟩, ⟨0, .advance {}⟩,
    ⟨0, .advance { newId := 5 }⟩, ⟨1, .advance {}⟩, ⟨1, .advance {}⟩]

theorem cancelDuringSettlement_apart :
    ∃ last, Run System.step { db := fundedDatabase } cancelDuringSettlement last ∧
      (storedStatus last.db, last.db.intentInFlight) = (some .funded, true) ∧
      GuardedRun System.step KeepsApart { db := fundedDatabase } cancelDuringSettlement last := by
  have hkept : (exec System.step { db := fundedDatabase } cancelDuringSettlement).map
      (fun last => (storedStatus last.db, last.db.intentInFlight)) =
        some (some .funded, true) := by
    decide +kernel
  obtain ⟨last, hrun, hlast⟩ := exists_run hkept
  exact ⟨last, hrun, hlast, cancellation_apart (initial_of_database _) hrun⟩

end StellarSettle.Cancellation
