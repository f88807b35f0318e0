import StellarSettle.Concurrency.SinglePayout

/-!
# The two settlement services on one invoice

`SettlementService` records its payout in an intent before it submits it;
`AdminSettlementService` settles the escrow first and looks at the database
afterwards.  At most one of the two lands as long as every submission finds the
invoice still funded, every landed escrow settlement committed, and, for the
escrow, no intent past its preparation.
-/

namespace StellarSettle.CrossService

open StellarSettle.AdminSettlement
open StellarSettle.Entities
open StellarSettle.EventIndexer
open StellarSettle.InvoiceLifecycle
open StellarSettle.InvoiceRefund
open StellarSettle.Machine
open StellarSettle.PaymentDistributor
open StellarSettle.SettleInvoice
open StellarSettle.SettlementIntents
open StellarSettle.SinglePayout
open StellarSettle.TransitionSystem

/-! ## Successful payouts -/

def landedPayouts (world : World) : ℕ := world.payouts.countP fun call => call.landed

def landedEscrows (world : World) : ℕ := world.escrows.countP fun call => call.landed

def Funded (db : Database) : Prop := db.invoice.map Invoice.status = some .funded

instance (db : Database) : Decidable (Funded db) := inferInstanceAs (Decidable (_ = _))

/-- The next step settles the escrow on chain. -/
def atEscrow : Process → Bool
  | .adminSettleInvoice _ .escrow => true
  | _ => false

/-- The escrow is settled and the database does not know yet. -/
def afterEscrow : Process → Bool
  | .adminSettleInvoice _ (.transact _) => true
  | .adminSettleInvoice _ (.commit _) => true
  | _ => false

/-- The condition under which a payout may be started: the invoice is funded and
every escrow settlement that landed was committed; the escrow moreover waits for
intents past their preparation. -/
def StartsAlone (world : World) (event : Event) : Prop :=
  match event.action with
  | .start _ => True
  | .advance _ =>
      (claiming (world.process event.process) = true →
        Funded world.db ∧ world.adminCommits = landedEscrows world) ∧
      (atEscrow (world.process event.process) = true →
        Funded world.db ∧ world.adminCommits = landedEscrows world ∧ intentRank world.db ≤ 1)
  | .crash => True

instance (world : World) : (event : Event) → Decidable (StartsAlone world event)
  | ⟨_, .start _⟩ => isTrue trivial
  | ⟨_, .advance _⟩ => inferInstanceAs (Decidable (_ ∧ _))
  | ⟨_, .crash⟩ => isTrue trivial

/-! ## What one piece of code does to the escrow -/

inductive EscrowEffect (db : Database) (process : Process) (outcome : Outcome) : Prop where
  | quiet (hescrows : outcome.escrows = []) (hcommits : outcome.adminCommits = 0)
      (hfunded : Funded outcome.db → Funded db)
      (hnext : afterEscrow outcome.process = true → afterEscrow process = true)
  | escrow (hprocess : atEscrow process = true) (hdb : outcome.db = db)
      (hcommits : outcome.adminCommits = 0) (hpayouts : outcome.payouts = [])
      (hcall : ∃ call, outcome.escrows = [call] ∧
        (afterEscrow outcome.process = true → call.landed = true))
  | commit (hprocess : afterEscrow process = true) (hescrows : outcome.escrows = [])
      (hfunded : ¬Funded outcome.db) (hnext : afterEscrow outcome.process = false)

section Quiet

variable {db after : Database} {process next : Process} {holdsInvoice : Bool}
  {payouts : List PayoutCall}

/-- A step apart from the escrow that funds no invoice. -/
theorem EscrowEffect.apart (hfunded : Funded after → Funded db)
    (hnext : afterEscrow next = false) :
    EscrowEffect db process
      { db := after, process := next, holdsInvoice := holdsInvoice, payouts := payouts } := by
  refine .quiet rfl rfl hfunded fun hafter => ?_
  rw [hnext] at hafter
  cases hafter

/-- A step apart from the escrow that leaves the invoice alone. -/
theorem EscrowEffect.unchanged (hinvoice : after.invoice = db.invoice)
    (hnext : afterEscrow next = false) :
    EscrowEffect db process
      { db := after, process := next, holdsInvoice := holdsInvoice, payouts := payouts } :=
  .apart (fun hfunded => by rwa [Funded, hinvoice] at hfunded) hnext

end Quiet

theorem not_funded_of_status {db : Database} {invoice : Invoice}
    (hinvoice : db.invoice = some invoice) (hstatus : invoice.status ≠ .funded) : ¬Funded db := by
  simpa [Funded, hinvoice] using hstatus

theorem not_funded_of_commitSettlement {db after : Database} {plan : SettlementPlan}
    (hok : commitSettlement db plan = .ok after) : ¬Funded after := by
  obtain ⟨_, moved, _, _, hmoved, _, hinvoice, _⟩ := commitSettlement_eq_ok hok
  exact not_funded_of_status hinvoice (by rw [status_of_transition hmoved]; decide)

theorem not_funded_of_commitAdminSettlement {db after : Database} {plan : AdminSettlementPlan}
    (hok : commitAdminSettlement db plan = .ok after) : ¬Funded after := by
  obtain ⟨_, moved, _, hmoved, hinvoice, _⟩ := commitAdminSettlement_eq_ok hok
  exact not_funded_of_status hinvoice (by rw [status_of_transition hmoved]; decide)

theorem not_funded_of_cancelInvoice {db after : Database} {invoice : Invoice}
    (hok : cancelInvoice db invoice = .ok after) : ¬Funded after := by
  obtain ⟨row, saved, _, hsaved, rfl⟩ := cancelInvoice_eq_ok hok
  exact not_funded_of_status rfl (by rw [status_of_persistInvoice hsaved]; simp)

theorem escrowEffect_settle {service : SettlementService} {input : SettleInvoiceInput}
    {environment : Environment} {db : Database} {stage : SettleStage} :
    EscrowEffect db (.settleInvoice service input stage)
      (advanceSettle service input environment db stage) := by
  have hfail : ∀ thrown, EscrowEffect db (.settleInvoice service input stage)
      { db := db, process := .finished (some thrown) } :=
    fun thrown => .unchanged rfl rfl
  cases stage with
  | enter =>
      refine Outcome.attempt_rule hfail fun prepare _ => ?_
      cases prepare <;> exact .unchanged rfl rfl
  | prepare prepare =>
      refine Outcome.attempt_rule hfail fun _ _ =>
        Outcome.attempt_rule hfail fun prepared _ => ?_
      cases prepared with
      | fresh payload => exact .unchanged rfl rfl
      | existing intent =>
          refine Outcome.attempt_rule hfail fun route _ => ?_
          cases route <;> exact .unchanged rfl rfl
  | insert payload =>
      refine Outcome.attempt_rule hfail fun inserted hinserted => ?_
      obtain ⟨_, rfl⟩ := insertSettlementIntent_eq_ok.mp hinserted
      exact .unchanged rfl rfl
  | claim intent =>
      refine Outcome.attempt_rule hfail fun claimed hclaimed => ?_
      obtain ⟨_, _, _, _, rfl⟩ := claimSettlementIntent_eq_ok.mp hclaimed
      exact .unchanged rfl rfl
  | submit intent =>
      simp only [advanceSettle]
      cases (distributePayouts (distributionInput intent.payload) environment.chain).result <;>
        exact .unchanged rfl rfl
  | record intent transactionHash =>
      refine Outcome.attempt_rule hfail fun marked hmarked => ?_
      obtain ⟨_, _, _, _, rfl⟩ := markSettlementDistributed_eq_ok.mp hmarked
      exact .unchanged rfl rfl
  | settle distributed =>
      simp only [advanceSettle]
      cases (readSettlement service input distributed db environment.chain).2 <;>
        exact .unchanged rfl rfl
  | commit plan =>
      refine Outcome.attempt_rule hfail fun settled hsettled => ?_
      exact .apart (fun hfunded =>
        absurd hfunded (not_funded_of_commitSettlement hsettled)) rfl

theorem escrowEffect_admin {input : AdminSettleInvoiceInput} {environment : Environment}
    {db : Database} {stage : AdminStage} :
    EscrowEffect db (.adminSettleInvoice input stage)
      (advanceAdmin input environment db stage) := by
  have hfail : ∀ thrown, EscrowEffect db (.adminSettleInvoice input stage)
      { db := db, process := .finished (some thrown) } :=
    fun thrown => .unchanged rfl rfl
  cases stage with
  | enter => exact Outcome.attempt_rule hfail fun _ _ => .unchanged rfl rfl
  | escrow =>
      refine .escrow rfl rfl rfl rfl ⟨_, rfl, fun hafter => ?_⟩
      simp only [advanceAdmin] at hafter
      cases hchain : environment.chain with
      | unconfigured thrown => simp [hchain, settleEscrowOnChain, afterEscrow] at hafter
      | failed thrown => simp [hchain, settleEscrowOnChain, afterEscrow] at hafter
      | lost thrown => rfl
      | confirmed hash => rfl
  | transact transactionHash =>
      exact Outcome.attempt_rule hfail fun _ _ => .quiet rfl rfl id fun _ => rfl
  | commit plan =>
      refine Outcome.attempt_rule hfail fun settled hsettled => ?_
      exact .commit rfl rfl (not_funded_of_commitAdminSettlement hsettled) rfl

/-- Only an administrator's call touches the escrow, and nothing funds the
invoice again. -/
theorem escrowEffect_of_advance {environment : Environment} {db : Database} {process : Process}
    {outcome : Outcome} (hadvance : advance environment db process = some outcome) :
    EscrowEffect db process outcome := by
  cases process with
  | idle => cases hadvance
  | finished thrown => cases hadvance
  | settleInvoice service input stage =>
      obtain rfl := Option.some.inj hadvance
      exact escrowEffect_settle
  | adminSettleInvoice input stage =>
      obtain rfl := Option.some.inj hadvance
      exact escrowEffect_admin
  | verifyPayment input stage =>
      obtain rfl := Option.some.inj hadvance
      cases stage with
      | find =>
          refine Outcome.attempt_rule (fun _ => .unchanged rfl rfl) fun needed _ => ?_
          cases needed <;> exact .unchanged rfl rfl
      | fetched =>
          refine Outcome.attempt_rule (fun _ => .unchanged rfl rfl) fun writes _ => ?_
          cases writes <;> exact .unchanged rfl rfl
      | write writes => exact .unchanged rfl rfl
  | investmentFunded event stage =>
      obtain rfl := Option.some.inj hadvance
      cases stage with
      | find =>
          simp only [advanceFunded]
          cases findInvestmentForEvent db event <;> exact .unchanged rfl rfl
      | save entity => exact .unchanged rfl rfl
  | refundInvestment walletAddress stage =>
      obtain rfl := Option.some.inj hadvance
      cases stage with
      | find =>
          simp only [advanceRefund]
          cases db.invoice <;> exact .unchanged rfl rfl
      | findInvestment invoice =>
          simp only [advanceRefund]
          cases findWalletInvestment db walletAddress <;> exact .unchanged rfl rfl
      | check invoice investment =>
          simp only [advanceRefund]
          cases canRefund db environment.now <;> exact .unchanged rfl rfl
      | remove invoice investment => exact .unchanged rfl rfl
      | count invoice =>
          simp only [advanceRefund]
          split <;> exact .unchanged rfl rfl
      | cancel invoice =>
          refine Outcome.attempt_rule (fun _ => .unchanged rfl rfl) fun _ hcancelled => ?_
          exact .apart (fun hfunded =>
            absurd hfunded (not_funded_of_cancelInvoice hcancelled)) rfl
  | createListing input stage =>
      obtain rfl := Option.some.inj hadvance
      cases stage with
      | check =>
          exact Outcome.attempt_rule (fun _ => .unchanged rfl rfl)
            fun _ _ => .unchanged rfl rfl
      | insert listing => exact .unchanged rfl rfl
  | buyListing input stage =>
      obtain rfl := Option.some.inj hadvance
      cases stage with
      | check =>
          exact Outcome.attempt_rule (fun _ => .unchanged rfl rfl)
            fun _ _ => .unchanged rfl rfl
      | write writes => exact .unchanged rfl rfl

/-! ## The invariant -/

/-- No escrow settlement landed; or exactly one did, no intent was claimed, and
the settlement is not committed yet or the invoice is no longer funded. -/
def EscrowAlone (world : World) : Prop :=
  (landedEscrows world = 0 ∧ world.adminCommits = 0) ∨
    (landedEscrows world = 1 ∧ intentRank world.db ≤ 1 ∧
      (world.adminCommits = 0 ∨ ¬Funded world.db))

structure CrossInvariant (world : World) : Prop where
  payout : SinglePayout.Invariant world
  admin : ∀ index, afterEscrow (world.process index) = true → landedEscrows world = 1
  escrow : EscrowAlone world

theorem crossInvariant_initial {world : World} (hinitial : Initial world) :
    CrossInvariant world where
  payout := invariant_initial hinitial
  admin := fun index hafter => by
    rw [hinitial.allIdle] at hafter
    cases hafter
  escrow := .inl ⟨by rw [landedEscrows, hinitial.noEscrows]; rfl, hinitial.noCommits⟩

theorem landedEscrows_apply (world : World) (index : ℕ) (outcome : Outcome) :
    landedEscrows (world.apply index outcome) =
      landedEscrows world + outcome.escrows.countP fun call => call.landed := by
  simp [landedEscrows, World.apply]

/-- A process that was past its escrow before the step, or the one that moved. -/
theorem afterEscrow_apply {world : World} {index other : ℕ} {outcome : Outcome}
    (hafter : afterEscrow ((world.apply index outcome).process other) = true) :
    afterEscrow (world.process other) = true ∨
      (other = index ∧ afterEscrow outcome.process = true) := by
  by_cases hsame : other = index
  · subst hsame
    exact .inr ⟨rfl, by simpa [World.apply] using hafter⟩
  · exact .inl (by simpa [World.apply, hsame] using hafter)

/-- Without a payout a claim that starts alone finds no landed escrow. -/
theorem EscrowAlone.none_landed {world : World} (halone : EscrowAlone world)
    (hfunded : Funded world.db) (hcommits : world.adminCommits = landedEscrows world) :
    landedEscrows world = 0 := by
  rcases halone with ⟨hnone, _⟩ | ⟨hone, _, hopen | hclosed⟩
  · exact hnone
  · omega
  · exact absurd hfunded hclosed

theorem CrossInvariant.step {world after : World} {event : Event}
    (hinvariant : CrossInvariant world) (hguard : StartsAlone world event)
    (hstep : Machine.step world event = some after) : CrossInvariant after := by
  have hpayout := (SinglePayout.Invariant.step hinvariant.payout hstep).1
  -- A call that starts or stops is not past its escrow and changes nothing else.
  have hkeep : ∀ next : Process, afterEscrow next = false →
      SinglePayout.Invariant (world.apply event.process { db := world.db, process := next }) →
      CrossInvariant (world.apply event.process { db := world.db, process := next }) := by
    intro next hnext hnew
    refine ⟨hnew, fun other hafter => ?_, ?_⟩
    · rcases afterEscrow_apply hafter with hbefore | ⟨_, hmoved⟩
      · rw [landedEscrows_apply]
        simpa using hinvariant.admin other hbefore
      · rw [hnext] at hmoved
        cases hmoved
    · rw [EscrowAlone, landedEscrows_apply]
      exact hinvariant.escrow
  rcases step_cases hstep with ⟨request, _, _, rfl⟩ |
    ⟨environment, outcome, haction, _, hadvance, rfl⟩ | ⟨_, rfl⟩
  · exact hkeep _ (by cases request <;> rfl) hpayout
  · rw [StartsAlone, haction] at hguard
    obtain ⟨hclaim, hescrow⟩ := hguard
    have hpayoutEffect := payoutEffect_of_advance hadvance
      (hinvariant.payout.behind event.process)
    cases escrowEffect_of_advance hadvance with
    | quiet hescrows hcommits hfunded hnext =>
        have hlanded : landedEscrows (world.apply event.process outcome) =
            landedEscrows world := by
          rw [landedEscrows_apply, hescrows]
          rfl
        refine ⟨hpayout, fun other hafter => ?_, ?_⟩
        · rw [hlanded]
          rcases afterEscrow_apply hafter with hbefore | ⟨rfl, hmoved⟩
          · exact hinvariant.admin other hbefore
          · exact hinvariant.admin _ (hnext hmoved)
        · rw [EscrowAlone, hlanded]
          rcases hinvariant.escrow with ⟨hnone, hnocommits⟩ | ⟨hone, hrank, hrecorded⟩
          · exact .inl ⟨hnone, by simp [World.apply, hcommits, hnocommits]⟩
          · refine .inr ⟨hone, ?_, ?_⟩
            · change intentRank outcome.db ≤ 1
              cases hpayoutEffect with
              | quiet hintent => omega
              | forward hnotPrepared hintent => omega
              | submit _ hintent => omega
              | claim hclaiming =>
                  obtain ⟨hstill, hrecordedAll⟩ := hclaim hclaiming
                  have hnone := hinvariant.escrow.none_landed hstill hrecordedAll
                  omega
            · refine hrecorded.imp (fun hzero => ?_) fun hclosed hopen => hclosed (hfunded hopen)
              simp [World.apply, hcommits, hzero]
    | escrow hprocess hdb hcommits hpayouts hcall =>
        obtain ⟨hfunded, hrecorded, hrank⟩ := hescrow hprocess
        have hnone := hinvariant.escrow.none_landed hfunded hrecorded
        obtain ⟨call, hescrows, hafterCall⟩ := hcall
        have hlanded : landedEscrows (world.apply event.process outcome) =
            if call.landed then 1 else 0 := by
          rw [landedEscrows_apply, hnone, hescrows]
          simp [List.countP_cons]
        refine ⟨hpayout, fun other hafter => ?_, ?_⟩
        · rcases afterEscrow_apply hafter with hbefore | ⟨rfl, hmoved⟩
          · rw [hinvariant.admin other hbefore] at hnone
            cases hnone
          · rw [hlanded, hafterCall hmoved]
            rfl
        · have hzero : (world.apply event.process outcome).adminCommits = 0 := by
            simp [World.apply, hcommits, hrecorded, hnone]
          rw [EscrowAlone, hlanded]
          cases call.landed with
          | false => exact .inl ⟨rfl, hzero⟩
          | true => exact .inr ⟨rfl, by rwa [World.apply, hdb], .inl hzero⟩
    | commit hprocess hescrows hfunded hnext =>
        have hone := hinvariant.admin event.process hprocess
        have hlanded : landedEscrows (world.apply event.process outcome) = 1 := by
          rw [landedEscrows_apply, hescrows, hone]
          rfl
        refine ⟨hpayout, fun _ _ => hlanded, .inr ⟨hlanded, ?_, .inr hfunded⟩⟩
        change intentRank outcome.db ≤ 1
        rcases hinvariant.escrow with ⟨hnone, _⟩ | ⟨_, hrank, _⟩
        · omega
        · cases hpayoutEffect with
          | quiet hintent => omega
          | forward hnotPrepared hintent => omega
          | submit _ hintent => omega
          | claim hclaiming =>
              obtain ⟨hstill, hrecordedAll⟩ := hclaim hclaiming
              have hnone := hinvariant.escrow.none_landed hstill hrecordedAll
              omega
  · exact hkeep _ rfl hpayout

theorem crossInvariant_of_run {first last : World} {events : List Event}
    (hinitial : Initial first)
    (hrun : GuardedRun Machine.step StartsAlone first events last) : CrossInvariant last :=
  hrun.invariant (fun hguard hstep hinvariant => CrossInvariant.step hinvariant hguard hstep)
    (crossInvariant_initial hinitial)

/-- When every payout starts alone, at most one payout lands on chain, whichever
service submits it. -/
theorem at_most_one_landed {first last : World} {events : List Event}
    (hinitial : Initial first)
    (hrun : GuardedRun Machine.step StartsAlone first events last) :
    landedPayouts last + landedEscrows last ≤ 1 := by
  have hinvariant := crossInvariant_of_run hinitial hrun
  have hsubmitted : landedPayouts last ≤ last.payouts.length := List.countP_le_length
  have honce := hinvariant.payout.once
  rcases hinvariant.escrow with ⟨hnone, _⟩ | ⟨hone, hrank, _⟩
  · omega
  · have hempty := (hinvariant.payout.unclaimed hrank).1
    rw [hempty] at hsubmitted
    simp only [List.length_nil] at hsubmitted
    omega

/-! ## An escrow settled after the payout -/

def adminSettlement : Request := .adminSettleInvoice ⟨100, "GADMIN"⟩

def landedWith (hash : TransactionHash) : Environment := { chain := .confirmed hash }

/-- The administrator's call settles the escrow of an invoice that was paid out
and settled before. -/
def escrowAfterPayout : List Event :=
  [⟨0, .start manualSettlement⟩, ⟨0, .advance {}⟩, ⟨0, .advance {}⟩,
    ⟨0, .advance { newId := 5 }⟩, ⟨0, .advance {}⟩,
    ⟨0, .advance (landedWith firstHash)⟩, ⟨0, .advance {}⟩, ⟨0, .advance {}⟩,
    ⟨0, .advance {}⟩, ⟨1, .start adminSettlement⟩, ⟨1, .advance {}⟩,
    ⟨1, .advance (landedWith secondHash)⟩]

theorem escrowAfterPayout_lands_twice :
    (exec Machine.step { db := fundedDatabase } escrowAfterPayout).map
      (fun last => landedPayouts last + landedEscrows last) = some 2 := by
  decide +kernel

/-- An administrator's settlement that commits, and a call that finds the invoice
settled. -/
def payoutAfterEscrow : List Event :=
  [⟨1, .start adminSettlement⟩, ⟨1, .advance {}⟩,
    ⟨1, .advance (landedWith secondHash)⟩, ⟨1, .advance {}⟩, ⟨1, .advance {}⟩,
    ⟨0, .start manualSettlement⟩, ⟨0, .advance {}⟩, ⟨0, .advance {}⟩]

theorem payoutAfterEscrow_lands_once :
    ∃ last, GuardedRun Machine.step StartsAlone { db := fundedDatabase } payoutAfterEscrow last ∧
      landedPayouts last + landedEscrows last ≤ 1 := by
  obtain ⟨last, hexec⟩ : ∃ last, execGuarded Machine.step StartsAlone
      { db := fundedDatabase } payoutAfterEscrow = some last :=
    Option.isSome_iff_exists.mp (by decide +kernel)
  have hrun := guardedRun_of_exec hexec
  exact ⟨last, hrun, at_most_one_landed initial_fundedDatabase hrun⟩

end StellarSettle.CrossService
