import StellarSettle.Concurrency.SystemInvariant

/-!
# Updates that an edit undoes

A document upload, an edit and an extension review read the whole invoice and save
it later, over whatever the row has become.  The runs of the system are watched by
two observers: the status and the funded amount that the other operations committed
last, and those that each edit read.
-/

namespace StellarSettle.LostUpdate

open StellarSettle.Checks
open StellarSettle.Entities
open StellarSettle.InvoiceExtension
open StellarSettle.InvoiceLifecycle
open StellarSettle.InvoiceService
open StellarSettle.System
open StellarSettle.SystemInvariant
open StellarSettle.SystemWrites
open StellarSettle.TransitionSystem

/-! ## What an edit holds -/

structure FundingState where
  status : InvoiceStatus
  fundedAmount : ℤ
  deriving DecidableEq, Repr

def fundingStateOf (invoice : Invoice) : FundingState :=
  { status := invoice.status, fundedAmount := invoice.fundedAmount }

def fundingState (db : Database) : Option FundingState := db.invoice.map fundingStateOf

/-- A document upload, an edit or an extension review. -/
def edits : Process → Bool
  | .uploadDocument _ _ => true
  | .updateInvoice _ _ => true
  | .reviewExtension _ _ => true
  | _ => false

/-- The next step of the edit reads the invoice. -/
def reads : Process → Bool
  | .uploadDocument _ .find => true
  | .updateInvoice _ .find => true
  | .reviewExtension _ .read => true
  | _ => false

/-- The entity that an edit keeps in memory. -/
def editing : Process → Option Invoice
  | .uploadDocument _ (.upload invoice) => some invoice
  | .uploadDocument _ (.save entity) => some entity
  | .updateInvoice _ (.save entity) => some entity
  | .reviewExtension _ (.commit (.approved entity _)) => some entity
  | _ => none

/-- Saving an entity stores its status and its funded amount. -/
theorem fundingState_of_persistInvoice {row entity saved : Invoice}
    (hsave : persistInvoice row entity = .ok saved) :
    fundingStateOf saved = fundingStateOf entity := by
  rcases persistInvoice_cases hsave with ⟨rfl, rfl⟩ | ⟨_, _, netAmount, rfl⟩ <;> rfl

theorem fundingState_of_readToUpload {db : Database} {input : UploadDocumentInput}
    {invoice : Invoice} (hread : readToUpload db input = .ok invoice) :
    fundingState db = some (fundingStateOf invoice) := by
  obtain ⟨_, _, hrest⟩ := bind_eq_ok.mp hread
  obtain ⟨_, _, hrest⟩ := bind_eq_ok.mp hrest
  obtain ⟨found, hfound, hrest⟩ := bind_eq_ok.mp hrest
  obtain ⟨_, _, hinvoice⟩ := bind_eq_ok.mp hrest
  obtain rfl := pure_eq_ok.mp hinvoice
  rw [fundingState, orThrow_eq_ok.mp hfound, Option.map_some]

theorem fundingState_of_readToUpdate {db : Database} {input : UpdateInvoiceInput}
    {entity : Invoice} (hread : readToUpdate db input = .ok entity) :
    fundingState db = some (fundingStateOf entity) := by
  obtain ⟨invoice, hfound, _⟩ := bind_eq_ok.mp hread
  have hinvoice := orThrow_eq_ok.mp hfound
  obtain ⟨hstatus, hamount⟩ := funding_of_readToUpdate hinvoice hread
  rw [fundingState, hinvoice, Option.map_some, fundingStateOf, fundingStateOf, hstatus, hamount]

theorem fundingState_of_readReview {db : Database} {input : ReviewExtensionInput}
    {now : Timestamp} {entity : Invoice} {request : InvoiceExtensionRequest}
    (hread : readReview db input now = .ok (.approved entity request)) :
    fundingState db = some (fundingStateOf entity) := by
  obtain ⟨_, _, hrest⟩ := bind_eq_ok.mp hread
  obtain ⟨_, _, hrest⟩ := bind_eq_ok.mp hrest
  obtain ⟨found, hfound, hrest⟩ := bind_eq_ok.mp hrest
  rw [fundingState, orThrow_eq_ok.mp hfound, Option.map_some]
  split at hrest
  · have hnever := pure_eq_ok.mp hrest
    cases hnever
  · obtain ⟨_, _, hwrites⟩ := bind_eq_ok.mp hrest
    obtain ⟨rfl, _⟩ := ReviewWrites.approved.inj (pure_eq_ok.mp hwrites)
    rfl

/-! ## What a step of an edit does -/

/-- An edit goes on with what the row held, or with what it had in memory. -/
def Carries (db : Database) (process next : Process) : Prop :=
  ∀ entity ∈ editing next,
    (reads process = true ∧ fundingState db = some (fundingStateOf entity)) ∨
      reads process = false ∧
        ∃ earlier ∈ editing process, fundingStateOf entity = fundingStateOf earlier

theorem Carries.none {db : Database} {process next : Process} (hnone : editing next = none) :
    Carries db process next := fun entity hentity => by
  rw [hnone] at hentity
  cases hentity

theorem carries_attempt {α : Type} {db : Database} {process : Process}
    {result : Except Thrown α} {next : α → Outcome}
    (hnext : ∀ value, result = .ok value → Carries db process (next value).process) :
    Carries db process (Outcome.attempt db result next).process :=
  Outcome.attempt_rule (P := fun outcome => Carries db process outcome.process)
    (fun _ => .none rfl) hnext

theorem carries_of_advance {environment : Environment} {db : Database} {process : Process}
    {outcome : Outcome} (hadvance : advance environment db process = some outcome) :
    Carries db process outcome.process := by
  cases process with
  | idle => cases hadvance
  | finished thrown => cases hadvance
  | service process =>
      obtain ⟨served, _, rfl⟩ := Option.map_eq_some_iff.mp hadvance
      exact .none rfl
  | funding process =>
      obtain ⟨funded, _, rfl⟩ := Option.map_eq_some_iff.mp hadvance
      exact .none rfl
  | changeStatus request stage =>
      obtain rfl := Option.some.inj hadvance
      cases stage <;> exact carries_attempt fun _ _ => .none rfl
  | cancelInvoice options stage =>
      obtain rfl := Option.some.inj hadvance
      cases stage <;> exact carries_attempt fun _ _ => .none rfl
  | markUnderfunded stage =>
      obtain rfl := Option.some.inj hadvance
      cases stage with
      | lock =>
          simp only [advanceUnderfunded]
          cases InvoiceMaturity.readUnderfunded db <;> exact .none rfl
      | commit invoice => exact carries_attempt fun _ _ => .none rfl
  | invoiceEvent topic stage =>
      obtain rfl := Option.some.inj hadvance
      cases stage with
      | find =>
          simp only [advanceInvoiceEvent]
          cases EventIndexer.findInvoiceForEvent db topic <;> exact .none rfl
      | save entity => exact carries_attempt fun _ _ => .none rfl
  | uploadDocument input stage =>
      obtain rfl := Option.some.inj hadvance
      cases stage with
      | find =>
          refine carries_attempt fun invoice hread entity hentity => .inl ⟨rfl, ?_⟩
          obtain rfl : invoice = entity := Option.some.inj hentity
          exact fundingState_of_readToUpload (mapError_eq_ok.mp hread)
      | upload invoice =>
          refine carries_attempt fun hash _ entity hentity => .inr ⟨rfl, invoice, rfl, ?_⟩
          obtain rfl : uploadedInvoice invoice hash = entity := Option.some.inj hentity
          rfl
      | save entity => exact carries_attempt fun _ _ => .none rfl
  | updateInvoice input stage =>
      obtain rfl := Option.some.inj hadvance
      cases stage with
      | find =>
          refine carries_attempt fun invoice hread entity hentity => .inl ⟨rfl, ?_⟩
          obtain rfl : invoice = entity := Option.some.inj hentity
          exact fundingState_of_readToUpdate (mapError_eq_ok.mp hread)
      | save entity => exact carries_attempt fun _ _ => .none rfl
  | reviewExtension input stage =>
      obtain rfl := Option.some.inj hadvance
      cases stage with
      | read =>
          refine carries_attempt fun writes hread entity hentity => .inl ⟨rfl, ?_⟩
          cases writes with
          | rejected request => cases hentity
          | approved invoice request =>
              obtain rfl : invoice = entity := Option.some.inj hentity
              exact fundingState_of_readReview hread
      | commit writes => exact carries_attempt fun _ _ => .none rfl

/-- An edit commits nothing but the entity that it has in memory. -/
structure OnlySaves (process : Process) : Prop where
  settling : settling process = none
  fundingWrites : fundingWrites process = none
  changing : changing process = none
  failing : failing process = none
  saving : ∀ entity ∈ savingInvoice process, editing process = some entity

theorem onlySaves_of_edits {process : Process} (hedits : edits process = true) :
    OnlySaves process := by
  have hnone : savingInvoice process = none →
      ∀ entity ∈ savingInvoice process, editing process = some entity := by
    intro hnone entity hentity
    rw [hnone] at hentity
    cases hentity
  cases process with
  | uploadDocument input stage =>
      cases stage with
      | save entity => exact ⟨rfl, rfl, rfl, rfl, fun _ hentity => hentity⟩
      | _ => exact ⟨rfl, rfl, rfl, rfl, hnone rfl⟩
  | updateInvoice input stage =>
      cases stage with
      | save entity => exact ⟨rfl, rfl, rfl, rfl, fun _ hentity => hentity⟩
      | find => exact ⟨rfl, rfl, rfl, rfl, hnone rfl⟩
  | reviewExtension input stage =>
      cases stage with
      | read => exact ⟨rfl, rfl, rfl, rfl, hnone rfl⟩
      | commit writes =>
          cases writes with
          | rejected request => exact ⟨rfl, rfl, rfl, rfl, hnone rfl⟩
          | approved entity request => exact ⟨rfl, rfl, rfl, rfl, fun _ hentity => hentity⟩
  | _ => cases hedits

/-- Only the save of an edit writes the row, and it writes what was in memory. -/
theorem fundingState_of_write {now : Timestamp} {db after : Database} {process : Process}
    (hedits : edits process = true) (hwrite : Write now db process after) :
    fundingState after = fundingState db ∨
      ∃ entity, savingInvoice process = some entity ∧ editing process = some entity ∧
        fundingState after = some (fundingStateOf entity) := by
  have honly := onlySaves_of_edits hedits
  have hkept : (rows after).invoice = (rows db).invoice →
      fundingState after = fundingState db := congrArg (Option.map fundingStateOf)
  cases hwrite with
  | quiet hrows => exact .inl (hkept (by rw [hrows]))
  | inserted _ _ hrows => exact .inl (hkept (by rw [hrows]))
  | forwarded _ _ hrows => exact .inl (hkept (by rw [hrows]))
  | settled _ hprocess _ _ _ _ _ =>
      rw [honly.settling] at hprocess
      cases hprocess
  | funded _ hprocess =>
      rw [honly.fundingWrites] at hprocess
      cases hprocess
  | changed _ hprocess _ _ _ =>
      rw [honly.changing, honly.failing] at hprocess
      rcases hprocess with hnever | ⟨hnever, _⟩ <;> cases hnever
  | saved _ hprocess _ hsave hrows =>
      refine .inr ⟨_, hprocess, honly.saving _ hprocess, ?_⟩
      rw [← fundingState_of_persistInvoice hsave]
      exact congrArg (Option.map fundingStateOf) (invoice_of_rows hrows)
  | confirmed _ hrows => exact .inl (hkept (by rw [hrows]))
  | removed hrows => exact .inl (hkept (by rw [hrows]))
  | purchased _ _ hrows => exact .inl (hkept (by rw [hrows]))

/-! ## Watched runs -/

/-- A state of the system, what the operations other than edits committed last, and
what each edit read. -/
structure Watched where
  world : World
  committed : Option FundingState
  seen : ℕ → Option FundingState := fun _ => none

/-- A step of the system, watched: a change by anything but an edit is noted, and so is
the read of an edit. -/
def step (watched : Watched) (event : Event) : Option Watched :=
  let process := watched.world.process event.process
  let stored := fundingState watched.world.db
  (System.step watched.world event).map fun after =>
    { world := after
      committed :=
        if edits process = true ∨ fundingState after.db = stored then watched.committed
        else fundingState after.db
      seen := if reads process = true then setProcess watched.seen event.process stored
        else watched.seen }

/-- Watching changes nothing. -/
theorem map_world_step (watched : Watched) (event : Event) :
    (step watched event).map Watched.world = System.step watched.world event := by
  rw [step]
  cases System.step watched.world event <;> rfl

/-- No run has begun, and the row is as it was committed. -/
structure Initial (watched : Watched) : Prop where
  world : System.Initial watched.world
  committed : fundingState watched.world.db = watched.committed

/-- An edit about to save has read what is still the last commit of the others. -/
def SavesLastRead (watched : Watched) (event : Event) : Prop :=
  event.advances = true → edits (watched.world.process event.process) = true →
    (savingInvoice (watched.world.process event.process)).isSome = true →
      watched.seen event.process = watched.committed

instance (watched : Watched) (event : Event) : Decidable (SavesLastRead watched event) :=
  inferInstanceAs (Decidable (_ → _ → _ → _ = _))

/-- In every state of every run in which the edits save what they read last. -/
structure WatchedInvariant (watched : Watched) : Prop where
  kept : fundingState watched.world.db = watched.committed
  seen : ∀ index, ∀ entity ∈ editing (watched.world.process index),
    watched.seen index = some (fundingStateOf entity)

/-- A process that starts or stops edits nothing. -/
theorem editing_of_start (now : Timestamp) (request : Request) :
    editing (Request.process now request) = none := by
  cases request with
  | invoiceEvent topic =>
      simp only [Request.process]
      split <;> rfl
  | _ => rfl

theorem editing_of_failed (failure : Funding.Failure) (process : Process) :
    editing (process.failed failure) = none := by
  cases process <;> rfl

/-- Every step carries on what its process had, in memory or from the row. -/
theorem carries_of_step {world after : World} {event : Event}
    (hstep : System.step world event = some after) :
    Carries world.db (world.process event.process) (after.process event.process) ∧
      ∀ other, other ≠ event.process → after.process other = world.process other := by
  have hmoved : ∀ outcome, (world.apply event.process outcome).process event.process =
      outcome.process := fun _ => Function.update_self ..
  have hothers : ∀ outcome, ∀ other, other ≠ event.process →
      (world.apply event.process outcome).process other = world.process other :=
    fun _ _ hother => Function.update_of_ne hother ..
  rcases step_cases hstep with ⟨request, now, _, _, rfl⟩ |
    ⟨environment, outcome, _, _, _, hadvance, rfl⟩ | ⟨failure, _, rfl⟩
  · refine ⟨.none ?_, hothers _⟩
    rw [hmoved]
    exact editing_of_start now request
  · refine ⟨?_, hothers _⟩
    rw [hmoved]
    exact carries_of_advance hadvance
  · refine ⟨.none ?_, hothers _⟩
    rw [hmoved]
    exact editing_of_failed failure _

theorem WatchedInvariant.step {watched after : Watched} {event : Event}
    (hinvariant : WatchedInvariant watched) (hlast : SavesLastRead watched event)
    (hstep : LostUpdate.step watched event = some after) : WatchedInvariant after := by
  obtain ⟨world, hworld, rfl⟩ := Option.map_eq_some_iff.mp hstep
  obtain ⟨hcarries, hothers⟩ := carries_of_step hworld
  refine ⟨?_, fun index entity hentity => ?_⟩
  · -- The row changes by another operation, or by an edit that writes the same.
    dsimp only
    split
    · rename_i hcases
      rcases hcases with hedits | hsame
      · refine Eq.trans ?_ hinvariant.kept
        rcases write_of_step hworld with hdb | ⟨hadvances, hwrite⟩
        · rw [hdb]
        · rcases fundingState_of_write hedits hwrite with
            hsame | ⟨entity, hsaving, hediting, hsaved⟩
          · exact hsame
          · have hread := hlast hadvances hedits (by rw [hsaving]; rfl)
            calc
              fundingState world.db = some (fundingStateOf entity) := hsaved
              _ = watched.seen event.process := (hinvariant.seen _ entity hediting).symm
              _ = watched.committed := hread
              _ = fundingState watched.world.db := hinvariant.kept.symm
      · exact hsame.trans hinvariant.kept
    · rfl
  · dsimp only at hentity ⊢
    by_cases hindex : index = event.process
    · subst hindex
      rcases hcarries entity hentity with ⟨hreads, hstored⟩ |
        ⟨hreads, earlier, hearlier, hsame⟩
      · rw [if_pos hreads, hstored]
        exact Function.update_self ..
      · rw [if_neg (by simp [hreads]), hsame]
        exact hinvariant.seen _ earlier hearlier
    · rw [hothers index hindex] at hentity
      have hseen := hinvariant.seen index entity hentity
      split
      · exact (Function.update_of_ne hindex ..).trans hseen
      · exact hseen

/-- When every edit saves what it read last, no committed status and no committed
funded amount is lost. -/
theorem committed_kept {first last : Watched} {events : List Event} (hinitial : Initial first)
    (hrun : GuardedRun step SavesLastRead first events last) :
    fundingState last.world.db = last.committed := by
  have hfirst : WatchedInvariant first :=
    { kept := hinitial.committed
      seen := fun index entity hentity => by
        rw [hinitial.world.allIdle] at hentity
        cases hentity }
  have hlast := hrun.invariant
    (fun hguard hstep hinvariant => WatchedInvariant.step hinvariant hguard hstep) hfirst
  exact hlast.kept

/-! ### An upload across an investment -/

def fullInvestment : InvestmentService.CreateInvestmentInput :=
  { investorId := 4, investmentAmount := 10, investorWallet := "GINVESTOR" }

def watchedOpen : Watched :=
  { world := { db := InvestmentService.openDatabase }
    committed := some ⟨.published, 0⟩ }

theorem initial_watchedOpen : Initial watchedOpen := ⟨System.initial_of_database _, rfl⟩

/-- The upload of process 1 finds the invoice that the investment has funded. -/
def uploadAfterInvestment : List Event :=
  [⟨0, .start (.funding (.createInvestment fullInvestment)) 0⟩, ⟨0, .advance {}⟩,
    ⟨0, .advance {}⟩, ⟨0, .advance { newId := 5 }⟩, ⟨0, .advance {}⟩, ⟨0, .advance {}⟩,
    ⟨1, .start (.uploadDocument ⟨some 2, 1⟩) 0⟩, ⟨1, .advance {}⟩,
    ⟨1, .advance { upload := .ok "QmInvoice" }⟩, ⟨1, .advance {}⟩]

theorem uploadAfterInvestment_kept :
    ∃ last, GuardedRun step SavesLastRead watchedOpen uploadAfterInvestment last ∧
      last.committed = some ⟨.funded, 100000⟩ ∧
      fundingState last.world.db = last.committed := by
  have hfunded : (execGuarded step SavesLastRead watchedOpen uploadAfterInvestment).map
      Watched.committed = some (some ⟨.funded, 100000⟩) := by
    decide +kernel
  obtain ⟨last, hrun, hlast⟩ := exists_guardedRun hfunded
  exact ⟨last, hrun, hlast, committed_kept initial_watchedOpen hrun⟩

/-- The upload of process 1 finds the open invoice, and saves it when it is funded. -/
def uploadAcrossInvestment : List Event :=
  [⟨1, .start (.uploadDocument ⟨some 2, 1⟩) 0⟩, ⟨1, .advance {}⟩,
    ⟨1, .advance { upload := .ok "QmInvoice" }⟩,
    ⟨0, .start (.funding (.createInvestment fullInvestment)) 0⟩, ⟨0, .advance {}⟩,
    ⟨0, .advance {}⟩, ⟨0, .advance { newId := 5 }⟩, ⟨0, .advance {}⟩, ⟨0, .advance {}⟩,
    ⟨1, .advance {}⟩]

theorem uploadAcrossInvestment_lost :
    ∃ first last, Initial first ∧ Run step first uploadAcrossInvestment last ∧
      last.committed = some ⟨.funded, 100000⟩ ∧
      fundingState last.world.db = some ⟨.published, 0⟩ ∧
      fundingState last.world.db ≠ last.committed := by
  have hlost : (exec step watchedOpen uploadAcrossInvestment).map
      (fun last => (last.committed, fundingState last.world.db)) =
        some (some ⟨.funded, 100000⟩, some ⟨.published, 0⟩) := by
    decide +kernel
  obtain ⟨last, hreached, hlast⟩ := exists_run hlost
  obtain ⟨hcommitted, hstored⟩ := Prod.mk.inj hlast
  refine ⟨_, last, initial_watchedOpen, hreached, hcommitted, hstored, ?_⟩
  rw [hcommitted, hstored]
  decide

end StellarSettle.LostUpdate
