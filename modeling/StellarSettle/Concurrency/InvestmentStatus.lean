import StellarSettle.Concurrency.CrossService
import StellarSettle.Concurrency.SystemInvariant

/-!
# How investments become confirmed

Settlements save settled rows, funding adds pending ones, and a purchase splits
holdings that it found confirmed.  Only a payment verification and an event confirm
an investment that exists, and neither asks which status it has left.
-/

namespace StellarSettle.InvestmentStatus

open StellarSettle.Entities
open StellarSettle.KeyedRows
open StellarSettle.System
open StellarSettle.SystemInvariant
open StellarSettle.SystemWrites
open StellarSettle.TransitionSystem

/-! ## What a step confirms -/

/-- Some row with this id is confirmed. -/
def HasConfirmed (investments : List Investment) (id : Uuid) : Prop :=
  ∃ row ∈ investments, row.id = id ∧ row.status = .confirmed

/-- There are rows with this id, and all of them are pending. -/
def Pending (investments : List Investment) (id : Uuid) : Prop :=
  (∃ row ∈ investments, row.id = id) ∧ ∀ row ∈ investments, row.id = id → row.status = .pending

/-- The row is a new holding of the purchase that `process` is about to write. -/
def Purchased (process : Process) (db : Database) (row : Investment) : Prop :=
  (∀ earlier ∈ db.investments, earlier.id ≠ row.id) ∧
    ∃ holdings, purchasing process = some holdings ∧ row ∈ holdings

/-- What a step leaves confirmed was confirmed, or it was pending, or it is new. -/
def ConfirmsPending (process : Process) (db after : Database) : Prop :=
  ∀ row ∈ after.investments, row.status = .confirmed →
    HasConfirmed db.investments row.id ∨ Pending db.investments row.id ∨
      Purchased process db row

/-- What the event commits, if it is enabled, confirms pending investments only. -/
def KeepsClosed (world : World) (event : Event) : Prop :=
  ∀ after, System.step world event = some after →
    ConfirmsPending (world.process event.process) world.db after.db

/-- The row that a payment or an event is about to confirm is stored, and it is pending
or confirmed. -/
def ConfirmsOpen (world : World) (event : Event) : Prop :=
  event.advances = true → ∀ entity ∈ savingInvestment (world.process event.process),
    (∃ row ∈ world.db.investments, row.id = entity.id) ∧
      ∀ row ∈ world.db.investments, row.id = entity.id →
        row.status = .pending ∨ row.status = .confirmed

instance (world : World) (event : Event) : Decidable (ConfirmsOpen world event) :=
  inferInstanceAs (Decidable (_ → ∀ _ ∈ _, _ ∧ _))

/-- Rows that a step keeps were confirmed before it. -/
theorem confirmsPending_of_mem {process : Process} {db after : Database}
    (hmem : ∀ row ∈ after.investments, row.status = .confirmed → row ∈ db.investments) :
    ConfirmsPending process db after :=
  fun row hrow hconfirmed => .inl ⟨row, hmem row hrow hconfirmed, rfl, hconfirmed⟩

theorem confirmsPending_of_eq {process : Process} {db after : Database}
    (hsame : (rows after).investments = (rows db).investments) :
    ConfirmsPending process db after :=
  confirmsPending_of_mem fun row hrow _ => by
    rwa [show after.investments = db.investments from hsame] at hrow

/-- Rows that are pending or confirmed are one of the two. -/
theorem confirmed_or_pending {investments : List Investment} {id : Uuid}
    (hexists : ∃ row ∈ investments, row.id = id)
    (hopen : ∀ row ∈ investments, row.id = id →
      row.status = .pending ∨ row.status = .confirmed) :
    HasConfirmed investments id ∨ Pending investments id := by
  by_cases hconfirmed : HasConfirmed investments id
  · exact .inl hconfirmed
  · refine .inr ⟨hexists, fun row hrow hid => ?_⟩
    exact (hopen row hrow hid).resolve_right fun hstatus => hconfirmed ⟨row, hrow, hid, hstatus⟩

/-- A row that a purchase may confirm was confirmed, was pending, or is new. -/
theorem confirmed_of_purchase {process : Process} {db : Database} {row : Investment}
    {holdings : List Investment} (hprocess : purchasing process = some holdings)
    (hrow : row ∈ holdings) (hconfirmable : Confirmable db.investments row.id) :
    HasConfirmed db.investments row.id ∨ Pending db.investments row.id ∨
      Purchased process db row := by
  rcases hconfirmable with hconfirmed | hpending
  · exact .inl hconfirmed
  · by_cases hexists : ∃ earlier ∈ db.investments, earlier.id = row.id
    · exact .inr (.inl ⟨hexists, hpending⟩)
    · refine .inr (.inr ⟨fun earlier hmem hid => hexists ⟨earlier, hmem, hid⟩, ?_⟩)
      exact ⟨holdings, hprocess, hrow⟩

theorem confirmsPending_of_write {now : Timestamp} {process : Process} {db after : Database}
    (hwellFormed : WellFormed process)
    (hlocked : holding process = true → KnowsLocked db process)
    (hopen : ∀ entity ∈ savingInvestment process,
      (∃ row ∈ db.investments, row.id = entity.id) ∧
        ∀ row ∈ db.investments, row.id = entity.id →
          row.status = .pending ∨ row.status = .confirmed)
    (hwrite : Write now db process after) : ConfirmsPending process db after := by
  cases hwrite with
  | quiet hrows => exact confirmsPending_of_eq (by rw [hrows])
  | inserted _ _ hrows => exact confirmsPending_of_eq (by rw [hrows])
  | forwarded _ _ hrows => exact confirmsPending_of_eq (by rw [hrows])
  | settled _ hprocess _ _ _ _ hrows =>
      obtain ⟨_, hsettled⟩ := funded_of_settling hwellFormed hprocess
      refine confirmsPending_of_mem fun row hrow hconfirmed => ?_
      rw [investments_of_rows hrows] at hrow
      rcases mem_foldl_saveRow hrow with hholding | ⟨hold, _⟩
      · rw [(hsettled row hholding).1] at hconfirmed
        cases hconfirmed
      · exact hold
  | funded _ hprocess =>
      have hpending := (fundingWritten_of_fundingWrites hwellFormed hprocess).pending
      refine confirmsPending_of_mem fun row hrow hconfirmed => ?_
      rcases List.mem_append.mp hrow with hold | hnew
      · exact hold
      · rw [List.mem_singleton.mp hnew, hpending] at hconfirmed
        cases hconfirmed
  | changed _ _ _ _ hrows => exact confirmsPending_of_eq (by rw [hrows])
  | saved _ _ _ _ hrows => exact confirmsPending_of_eq (by rw [hrows])
  | confirmed hprocess hrows =>
      intro row hrow hconfirmed
      rw [investments_of_rows hrows] at hrow
      rcases mem_saveRow.mp hrow with rfl | ⟨hold, _⟩
      · obtain ⟨hexists, hstatus⟩ := hopen _ hprocess
        rcases confirmed_or_pending hexists hstatus with hbefore | hbefore
        · exact .inl hbefore
        · exact .inr (.inl hbefore)
      · exact .inl ⟨row, hold, rfl, hconfirmed⟩
  | removed hrows =>
      refine confirmsPending_of_mem fun row hrow _ => ?_
      rw [investments_of_rows hrows] at hrow
      exact List.mem_of_mem_filter hrow
  | purchased _ hprocess hrows =>
      intro row hrow hconfirmed
      rw [investments_of_rows hrows] at hrow
      rcases mem_foldl_saveRow hrow with hholding | ⟨hold, _⟩
      · have hknows := hlocked (by rw [holding, hprocess]; simp)
        exact confirmed_of_purchase hprocess hholding
          (hknows.purchase _ hprocess row hholding hconfirmed)
      · exact .inl ⟨row, hold, rfl, hconfirmed⟩

theorem keepsClosed_of_open {world : World} {event : Event} (hinvariant : Invariant world)
    (hopen : ConfirmsOpen world event) : KeepsClosed world event := by
  intro after hstep
  rcases write_of_step hstep with hsame | ⟨hadvances, hwrite⟩
  · exact confirmsPending_of_eq (by rw [hsame])
  · exact confirmsPending_of_write (hinvariant.always event.process)
      (hinvariant.locked event.process) (hopen hadvances) hwrite

/-- When payments and events find the investment open, nothing but a pending one is
confirmed. -/
theorem confirmed_only_pending {first last : World} {events : List Event}
    (hinitial : Initial first)
    (hrun : GuardedRun System.step ConfirmsOpen first events last) :
    GuardedRun System.step KeepsClosed first events last :=
  hrun.strengthen (fun _ hstep hinvariant => hinvariant.step hstep) keepsClosed_of_open
    (invariant_of_initial hinitial)

/-! ### An event that comes late -/

def pendingHolding : Investment := { soleHolding with status := .pending }

def pendingDatabase : Database := { fundedDatabase with investments := [pendingHolding] }

def fundedEvent : EventIndexer.InvestmentFundedEvent :=
  { investmentId := some 3, txHash := "a1b2", ledger := 1 }

def investmentFunded : Request := .service (.investmentFunded fundedEvent)

/-- The event confirms the investment, and an administrator settles it. -/
def confirmedThenSettled : List Event :=
  [⟨0, .start investmentFunded 0⟩, ⟨0, .advance {}⟩, ⟨0, .advance {}⟩,
    ⟨1, .start (.service CrossService.adminSettlement) 0⟩, ⟨1, .advance {}⟩,
    ⟨1, .advance { chain := .confirmed secondHash }⟩, ⟨1, .advance {}⟩, ⟨1, .advance {}⟩]

def statuses (db : Database) : List (Uuid × InvestmentStatus) :=
  db.investments.map fun row => (row.id, row.status)

theorem status_of_statuses {db : Database} {id : Uuid} {status : InvestmentStatus}
    {row : Investment} (hstatuses : statuses db = [(id, status)])
    (hrow : row ∈ db.investments) : row.id = id ∧ row.status = status := by
  have hmem : (row.id, row.status) ∈ statuses db :=
    List.mem_map_of_mem (f := fun row => (row.id, row.status)) hrow
  rw [hstatuses] at hmem
  exact Prod.mk.inj (List.mem_singleton.mp hmem)

theorem exists_of_statuses {db : Database} {id : Uuid} {status : InvestmentStatus}
    (hstatuses : statuses db = [(id, status)]) :
    ∃ row ∈ db.investments, row.id = id ∧ row.status = status := by
  have hmem : (id, status) ∈ statuses db := hstatuses ▸ List.mem_singleton_self _
  obtain ⟨row, hrow, hpair⟩ := List.mem_map.mp hmem
  exact ⟨row, hrow, Prod.mk.inj hpair⟩

theorem confirmedThenSettled_closed :
    ∃ last, GuardedRun System.step ConfirmsOpen { db := pendingDatabase }
        confirmedThenSettled last ∧
      statuses last.db = [(3, .settled)] ∧
      GuardedRun System.step KeepsClosed { db := pendingDatabase } confirmedThenSettled last := by
  have hsettled : (execGuarded System.step ConfirmsOpen { db := pendingDatabase }
      confirmedThenSettled).map (fun last => statuses last.db) = some [(3, .settled)] := by
    decide +kernel
  obtain ⟨last, hrun, hlast⟩ := exists_guardedRun hsettled
  exact ⟨last, hrun, hlast, confirmed_only_pending (initial_of_database _) hrun⟩

/-- The administrator settles the confirmed investment, and its event comes after. -/
def settledBeforeEvent : List Event :=
  [⟨1, .start (.service CrossService.adminSettlement) 0⟩, ⟨1, .advance {}⟩,
    ⟨1, .advance { chain := .confirmed secondHash }⟩, ⟨1, .advance {}⟩, ⟨1, .advance {}⟩,
    ⟨0, .start investmentFunded 0⟩, ⟨0, .advance {}⟩]

theorem settledBeforeEvent_reopened :
    ∃ first middle last, Initial first ∧ Run System.step first settledBeforeEvent middle ∧
      statuses middle.db = [(3, .settled)] ∧
      System.step middle ⟨0, .advance {}⟩ = some last ∧
      statuses last.db = [(3, .confirmed)] ∧ ¬KeepsClosed middle ⟨0, .advance {}⟩ := by
  have hreopened : (exec System.step { db := fundedDatabase } settledBeforeEvent).bind
      (fun middle => (System.step middle ⟨0, .advance {}⟩).map fun last =>
        (statuses middle.db, statuses last.db)) = some ([(3, .settled)], [(3, .confirmed)]) := by
    decide +kernel
  obtain ⟨middle, hexec, hlast⟩ := Option.bind_eq_some_iff.mp hreopened
  obtain ⟨last, hstep, hstatuses⟩ := Option.map_eq_some_iff.mp hlast
  obtain ⟨hmiddle, hafter⟩ := Prod.mk.inj hstatuses
  refine ⟨_, middle, last, initial_of_database _, run_of_exec hexec, hmiddle, hstep, hafter,
    fun hcloses => ?_⟩
  obtain ⟨row, hrow, hid, hconfirmed⟩ := exists_of_statuses hafter
  obtain ⟨earlier, hearlier, hsame, _⟩ := exists_of_statuses hmiddle
  have hsettled : ∀ row ∈ middle.db.investments, row.status = .settled := fun row hrow =>
    (status_of_statuses hmiddle hrow).2
  rcases hcloses last hstep row hrow hconfirmed with ⟨other, hother, _, hstatus⟩ |
    ⟨_, hpending⟩ | ⟨hnew, _⟩
  · rw [hsettled other hother] at hstatus
    cases hstatus
  · have hstatus := hpending earlier hearlier (hsame.trans hid.symm)
    rw [hsettled earlier hearlier] at hstatus
    cases hstatus
  · exact hnew earlier hearlier (hsame.trans hid.symm)

end StellarSettle.InvestmentStatus
