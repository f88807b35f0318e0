import StellarSettle.Concurrency.InvestmentStatus

/-!
# What a settled invoice has left

Settlements, payment verifications and events mixed.  A settlement settles the
holdings that it found confirmed, so an investment that is confirmed behind its back,
and one on an invoice that an event settles, stays confirmed.
-/

namespace StellarSettle.SettledInvoices

open StellarSettle.Entities
open StellarSettle.InvoiceLifecycle
open StellarSettle.KeyedRows
open StellarSettle.System
open StellarSettle.SystemInvariant
open StellarSettle.SystemWrites
open StellarSettle.TransitionSystem

/-! ## The operations -/

/-- Settlements, payment verifications and the ingestion of events. -/
def mixes : Process → Bool
  | .service (.settleInvoice _ _ _) => true
  | .service (.adminSettleInvoice _ _) => true
  | .service (.verifyPayment _ _) => true
  | .service (.investmentFunded _ _) => true
  | .invoiceEvent _ _ => true
  | _ => false

/-- What the other operations commit. -/
structure NoOthers (process : Process) : Prop where
  fundingWrites : fundingWrites process = none
  changing : changing process = none
  failing : failing process = none
  purchasing : purchasing process = none

theorem noOthers_of_mixes {process : Process} (hmixes : mixes process = true) :
    NoOthers process := by
  unfold mixes at hmixes
  split at hmixes
  all_goals first
    | exact ⟨rfl, rfl, rfl, rfl⟩
    | cases hmixes

/-! ## The rows of a settled invoice -/

/-- No investment of a settled invoice is confirmed, and its settled ones have a
recorded return. -/
def SettledClean (db : Database) : Prop :=
  storedStatus db = some .settled → ∀ row ∈ db.investments,
    row.status ≠ .confirmed ∧ (row.status = .settled → row.actualReturn.isSome = true)

/-- Every settled investment has a recorded return. -/
def Returned (db : Database) : Prop :=
  ∀ row ∈ db.investments, row.status = .settled → row.actualReturn.isSome = true

instance (db : Database) : Decidable (Returned db) :=
  inferInstanceAs (Decidable (∀ _ ∈ _, _ → _))

def NoneConfirmed (db : Database) : Prop :=
  ∀ row ∈ db.investments, row.status ≠ .confirmed

instance (db : Database) : Decidable (NoneConfirmed db) :=
  inferInstanceAs (Decidable (∀ _ ∈ _, _))

/-- What a step that commits finds stored: a settlement, every confirmed investment
among its holdings; an event that settles the invoice, none confirmed; and a payment or
an event that confirms an investment, the invoice not settled. -/
structure FindsClean (process : Process) (db : Database) : Prop where
  settling : ∀ plan ∈ settling process, ∀ row ∈ db.investments, row.status = .confirmed →
    ∃ holding ∈ plan.2, holding.id = row.id
  savingInvoice : ∀ entity ∈ savingInvoice process, entity.status = .settled →
    NoneConfirmed db
  savingInvestment : (savingInvestment process).isSome = true →
    storedStatus db ≠ some .settled

instance (process : Process) (db : Database) : Decidable (FindsClean process db) :=
  decidable_of_iff
    ((∀ plan ∈ settling process, ∀ row ∈ db.investments, row.status = .confirmed →
        ∃ holding ∈ plan.2, holding.id = row.id) ∧
      (∀ entity ∈ savingInvoice process, entity.status = .settled → NoneConfirmed db) ∧
      ((savingInvestment process).isSome = true → storedStatus db ≠ some .settled))
    ⟨fun ⟨hsettling, hinvoice, hinvestment⟩ => ⟨hsettling, hinvoice, hinvestment⟩,
      fun hfinds => ⟨hfinds.settling, hfinds.savingInvoice, hfinds.savingInvestment⟩⟩

/-- Only the mixed operations go on. -/
def Mixed (world : World) (event : Event) : Prop :=
  event.advances = true → mixes (world.process event.process) = true

instance (world : World) (event : Event) : Decidable (Mixed world event) :=
  inferInstanceAs (Decidable (_ → _ = _))

/-- What they commit next finds the rows as it should. -/
def CommitsClean (world : World) (event : Event) : Prop :=
  event.advances = true → FindsClean (world.process event.process) world.db

instance (world : World) (event : Event) : Decidable (CommitsClean world event) :=
  inferInstanceAs (Decidable (_ → _))

/-- In every state of every run of such steps. -/
structure CleanInvariant (db : Database) : Prop where
  returned : Returned db
  clean : storedStatus db = some .settled → NoneConfirmed db

theorem CleanInvariant.settledClean {db : Database} (hclean : CleanInvariant db) :
    SettledClean db := fun hsettled row hrow =>
  ⟨hclean.clean hsettled row hrow, hclean.returned row hrow⟩

/-- A step that leaves the status, and no new row but settled ones with a return. -/
theorem CleanInvariant.of_rows {db after : Database} (hclean : CleanInvariant db)
    (hstatus : storedStatus after = storedStatus db)
    (hrows : ∀ row ∈ after.investments, row ∈ db.investments) : CleanInvariant after where
  returned := fun row hrow => hclean.returned row (hrows row hrow)
  clean := fun hsettled row hrow => hclean.clean (hstatus.symm.trans hsettled) row (hrows row hrow)

theorem CleanInvariant.of_eq {db after : Database} (hclean : CleanInvariant db)
    (hinvoice : (rows after).invoice = (rows db).invoice)
    (hinvestments : (rows after).investments = (rows db).investments) : CleanInvariant after :=
  hclean.of_rows (congrArg (Option.map Invoice.status) hinvoice) fun row hrow => by
    rwa [show after.investments = db.investments from hinvestments] at hrow

/-- A settlement of everything that is confirmed. -/
theorem CleanInvariant.settle {db after : Database} {holdings : List Investment}
    (hclean : CleanInvariant db) (hsettled : SettledRows holdings)
    (hall : ∀ row ∈ db.investments, row.status = .confirmed →
      ∃ holding ∈ holdings, holding.id = row.id)
    (hrows : after.investments = holdings.foldl saveInvestment db.investments) :
    CleanInvariant after := by
  have hcases : ∀ row ∈ after.investments, row ∈ holdings ∨
      row ∈ db.investments ∧ ∀ holding ∈ holdings, row.id ≠ holding.id := fun row hrow => by
    rw [hrows] at hrow
    exact mem_foldl_saveRow hrow
  constructor
  · intro row hrow hstatus
    rcases hcases row hrow with hholding | ⟨hold, _⟩
    · exact (hsettled row hholding).2
    · exact hclean.returned row hold hstatus
  · intro _ row hrow hconfirmed
    rcases hcases row hrow with hholding | ⟨hold, hothers⟩
    · rw [(hsettled row hholding).1] at hconfirmed
      cases hconfirmed
    · obtain ⟨holding, hmem, hid⟩ := hall row hold hconfirmed
      exact hothers holding hmem hid.symm

theorem CleanInvariant.write {now : Timestamp} {process : Process} {db after : Database}
    (hclean : CleanInvariant db) (hwellFormed : WellFormed process)
    (hmixes : mixes process = true) (hfinds : FindsClean process db)
    (hwrite : Write now db process after) : CleanInvariant after := by
  have hothers := noOthers_of_mixes hmixes
  cases hwrite with
  | quiet hrows => exact hclean.of_eq (by rw [hrows]) (by rw [hrows])
  | inserted _ _ hrows => exact hclean.of_eq (by rw [hrows]) (by rw [hrows])
  | forwarded _ _ hrows => exact hclean.of_eq (by rw [hrows]) (by rw [hrows])
  | settled _ hprocess _ _ _ _ hrows =>
      obtain ⟨_, hsettled⟩ := funded_of_settling hwellFormed hprocess
      exact hclean.settle hsettled (hfinds.settling _ hprocess) (investments_of_rows hrows)
  | funded _ hprocess =>
      rw [hothers.fundingWrites] at hprocess
      cases hprocess
  | changed _ hprocess _ _ _ =>
      rw [hothers.changing, hothers.failing] at hprocess
      rcases hprocess with hnever | ⟨hnever, _⟩ <;> cases hnever
  | saved _ hprocess _ hsave hrows =>
      have hinvestments : after.investments = db.investments := investments_of_rows hrows
      refine ⟨fun row hrow => hclean.returned row (hinvestments ▸ hrow),
        fun hsettled row hrow => ?_⟩
      have hstatus := storedStatus_eq (invoice_of_rows hrows) (status_of_persistInvoice hsave)
      exact hfinds.savingInvoice _ hprocess (Option.some.inj (hstatus.symm.trans hsettled)) row
        (hinvestments ▸ hrow)
  | confirmed hprocess hrows =>
      have hinvoice : storedStatus after = storedStatus db :=
        storedStatus_of_rows hrows
      have hopen := hfinds.savingInvestment (by rw [hprocess]; rfl)
      refine ⟨fun row hrow hstatus => ?_,
        fun hsettled => absurd (hinvoice.symm.trans hsettled) hopen⟩
      rw [investments_of_rows hrows] at hrow
      rcases mem_saveRow.mp hrow with rfl | ⟨hold, _⟩
      · rw [confirmed_of_savingInvestment hwellFormed hprocess] at hstatus
        cases hstatus
      · exact hclean.returned row hold hstatus
  | removed hrows =>
      refine hclean.of_rows
        (storedStatus_of_rows hrows) fun row hrow => ?_
      rw [investments_of_rows hrows] at hrow
      exact List.mem_of_mem_filter hrow
  | purchased _ hprocess _ =>
      rw [hothers.purchasing] at hprocess
      cases hprocess

/-- The invariant of the runs, with that of the processes. -/
structure RunInvariant (world : World) : Prop where
  base : Invariant world
  clean : CleanInvariant world.db

theorem RunInvariant.step {world after : World} {event : Event}
    (hinvariant : RunInvariant world) (hmixed : Mixed world event)
    (hcommits : CommitsClean world event) (hstep : System.step world event = some after) :
    RunInvariant after := by
  refine ⟨hinvariant.base.step hstep, ?_⟩
  rcases write_of_step hstep with hsame | ⟨hadvances, hwrite⟩
  · rw [hsame]
    exact hinvariant.clean
  · exact hinvariant.clean.write (hinvariant.base.always event.process) (hmixed hadvances)
      (hcommits hadvances) hwrite

/-- When every commit finds the rows as it should, settled invoices stay clean. -/
theorem settled_clean {first last : World} {events : List Event} (hinitial : Initial first)
    (hreturned : Returned first.db) (hclean : SettledClean first.db)
    (hrun : GuardedRun System.step
      (fun world event => Mixed world event ∧ CommitsClean world event) first events last) :
    SettledClean last.db := by
  have hfirst : RunInvariant first :=
    ⟨invariant_of_initial hinitial, hreturned, fun hsettled row hrow =>
      (hclean hsettled row hrow).1⟩
  have hlast := hrun.invariant (fun hguard hstep hinvariant =>
    RunInvariant.step hinvariant hguard.1 hguard.2 hstep) hfirst
  exact hlast.clean.settledClean

/-! ### An event that settles the invoice -/

theorem confirmedThenSettled_clean :
    ∃ last, GuardedRun System.step
        (fun world event => Mixed world event ∧ CommitsClean world event)
        { db := InvestmentStatus.pendingDatabase } InvestmentStatus.confirmedThenSettled last ∧
      storedStatus last.db = some .settled ∧ SettledClean last.db := by
  have hsettled : (execGuarded System.step
      (fun world event => Mixed world event ∧ CommitsClean world event)
      { db := InvestmentStatus.pendingDatabase } InvestmentStatus.confirmedThenSettled).map
        (fun last => storedStatus last.db) = some (some .settled) := by
    decide +kernel
  obtain ⟨last, hrun, hlast⟩ := exists_guardedRun hsettled
  refine ⟨last, hrun, hlast, settled_clean (initial_of_database _) ?_ ?_ hrun⟩
  · decide
  · intro hnever
    cases hnever

/-- `settle_escrow` on a funded invoice, whose investment is confirmed. -/
def settledByEvent : List Event :=
  [⟨0, .start (.invoiceEvent "settle_escrow") 0⟩, ⟨0, .advance {}⟩, ⟨0, .advance {}⟩]

theorem settledByEvent_not_clean :
    ∃ first last, Initial first ∧ Returned first.db ∧ SettledClean first.db ∧
      GuardedRun System.step Mixed first settledByEvent last ∧
      storedStatus last.db = some .settled ∧
      InvestmentStatus.statuses last.db = [(3, .confirmed)] ∧ ¬SettledClean last.db := by
  have hsaved : (execGuarded System.step Mixed { db := fundedDatabase } settledByEvent).map
      (fun last => (storedStatus last.db, InvestmentStatus.statuses last.db)) =
        some (some .settled, [(3, .confirmed)]) := by
    decide +kernel
  obtain ⟨last, hreached, hlast⟩ := exists_guardedRun hsaved
  obtain ⟨hsettled, hstatuses⟩ := Prod.mk.inj hlast
  refine ⟨{ db := fundedDatabase }, last, initial_of_database _, by decide, fun hnever => ?_,
    hreached, hsettled, hstatuses, fun hclean => ?_⟩
  · cases hnever
  · obtain ⟨row, hrow, _, hconfirmed⟩ := InvestmentStatus.exists_of_statuses hstatuses
    exact (hclean hsettled row hrow).1 hconfirmed

end StellarSettle.SettledInvoices
