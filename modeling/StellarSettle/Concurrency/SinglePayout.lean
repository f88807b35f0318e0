import StellarSettle.Concurrency.Machine

/-!
# One payout for each intent

The status of the settlement intent only moves one step forward at a time, and
the payout is submitted by the process that claimed the intent, once.  Both hold
in every run of every request, whatever stops and whatever the chain answers.
-/

namespace StellarSettle.SinglePayout

open StellarSettle.AdminSettlement
open StellarSettle.Checks
open StellarSettle.Entities
open StellarSettle.EventIndexer
open StellarSettle.InvoiceRefund
open StellarSettle.Machine
open StellarSettle.PaymentDistributor
open StellarSettle.SecondaryMarket
open StellarSettle.SettleInvoice
open StellarSettle.SettlementIntents
open StellarSettle.TransitionSystem
open StellarSettle.VerifyPayment

/-! ## The path of an intent -/

def statusRank : SettlementIntentStatus → ℕ
  | .prepared => 1
  | .submitting => 2
  | .distributed => 3
  | .completed => 4

/-- How far the invoice's intent has come; zero before it is prepared. -/
def intentRank (db : Database) : ℕ :=
  match db.settlementIntent with
  | none => 0
  | some intent => statusRank intent.status

theorem intentRank_eq {db : Database} {intent : SettlementIntent}
    (hintent : db.settlementIntent = some intent) :
    intentRank db = statusRank intent.status := by
  rw [intentRank, hintent]

/-- The process is about to claim the intent. -/
def claiming : Process → Bool
  | .settleInvoice _ _ (.claim _) => true
  | _ => false

/-- The process has claimed the intent and is about to submit the payout. -/
def submitting : Process → Bool
  | .settleInvoice _ _ (.submit _) => true
  | _ => false

/-- A process that is about to run its settlement transaction submits no payout
from there. -/
def PayoutBehind : Process → Prop
  | .settleInvoice service input (.settle distributed) => NoDirectPayout service input distributed
  | _ => True

/-! ## What one piece of code does to the intent -/

/-- What an outcome does to the intent and to the payouts. -/
inductive PayoutEffect (db : Database) (process : Process) (outcome : Outcome) : Prop where
  | quiet (hintent : intentRank outcome.db = intentRank db)
      (hpayouts : outcome.payouts = []) (hnext : submitting outcome.process = false)
      (hbehind : PayoutBehind outcome.process)
  | forward (hrank : intentRank db ≠ 1) (hintent : intentRank outcome.db = intentRank db + 1)
      (hpayouts : outcome.payouts = []) (hnext : submitting outcome.process = false)
      (hbehind : PayoutBehind outcome.process)
  | claim (hprocess : claiming process = true) (hrank : intentRank db = 1)
      (hintent : intentRank outcome.db = 2)
      (hpayouts : outcome.payouts = []) (hbehind : PayoutBehind outcome.process)
  | submit (hprocess : submitting process = true)
      (hintent : intentRank outcome.db = intentRank db) (hpayouts : outcome.payouts.length = 1)
      (hnext : submitting outcome.process = false) (hbehind : PayoutBehind outcome.process)

namespace PayoutEffect

variable {db : Database} {process : Process}

/-- A process that ends or goes on without touching the intent. -/
theorem unchanged {after : Database} {next : Process} {holdsInvoice : Bool}
    {escrows : List EscrowCall} {adminCommits : ℕ}
    (hintent : after.settlementIntent = db.settlementIntent)
    (hnext : submitting next = false) (hbehind : PayoutBehind next) :
    PayoutEffect db process
      { db := after, process := next, holdsInvoice := holdsInvoice, escrows := escrows
        adminCommits := adminCommits } :=
  .quiet (by simp only [intentRank, hintent]) rfl hnext hbehind

end PayoutEffect

/-- A call without an intent has no distributor. -/
theorem paymentDistributor_of_enter {service : SettlementService} {input : SettleInvoiceInput}
    (henter : enterSettlement service input = .ok none) : service.paymentDistributor = false := by
  obtain ⟨_, _, hrest⟩ := bind_eq_ok.mp henter
  cases hdistributor : service.paymentDistributor with
  | false => rfl
  | true =>
      rw [hdistributor, if_pos rfl] at hrest
      obtain ⟨_, _, hnever⟩ := bind_eq_ok.mp hrest
      cases hnever

theorem noDirectPayout_of_distributed (service : SettlementService) (input : SettleInvoiceInput)
    (distributed : DistributedIntent) : NoDirectPayout service input (some distributed) := by
  right
  cases input.settlementTransactionHash <;> simp

theorem payoutEffect_settle {service : SettlementService} {input : SettleInvoiceInput}
    {environment : Environment} {db : Database} {stage : SettleStage}
    (hbehind : PayoutBehind (.settleInvoice service input stage)) :
    PayoutEffect db (.settleInvoice service input stage)
      (advanceSettle service input environment db stage) := by
  have hfail : ∀ thrown, PayoutEffect db (.settleInvoice service input stage)
      { db := db, process := .finished (some thrown) } :=
    fun thrown => .unchanged rfl rfl trivial
  cases stage with
  | enter =>
      refine Outcome.attempt_rule hfail fun prepare henter => ?_
      cases prepare with
      | none => exact .unchanged rfl rfl (.inl (paymentDistributor_of_enter henter))
      | some prepare => exact .unchanged rfl rfl trivial
  | prepare prepare =>
      refine Outcome.attempt_rule hfail fun _ _ =>
        Outcome.attempt_rule hfail fun prepared _ => ?_
      cases prepared with
      | fresh payload => exact .unchanged rfl rfl trivial
      | existing intent =>
          refine Outcome.attempt_rule hfail fun route _ => ?_
          cases route with
          | claim => exact .unchanged rfl rfl trivial
          | recorded transactionHash =>
              exact .unchanged rfl rfl (noDirectPayout_of_distributed _ _ _)
  | insert payload =>
      refine Outcome.attempt_rule hfail fun inserted hinserted => ?_
      obtain ⟨hnone, rfl⟩ := insertSettlementIntent_eq_ok.mp hinserted
      have hrank : intentRank db = 0 := by rw [intentRank, hnone]
      exact .forward (by omega) (by rw [hrank]; rfl) rfl rfl trivial
  | claim intent =>
      refine Outcome.attempt_rule hfail fun claimed hclaimed => ?_
      obtain ⟨stored, hstored, _, hprepared, rfl⟩ := claimSettlementIntent_eq_ok.mp hclaimed
      exact .claim rfl (by rw [intentRank_eq hstored, hprepared]; rfl) rfl rfl trivial
  | submit intent =>
      simp only [advanceSettle]
      cases (distributePayouts (distributionInput intent.payload) environment.chain).result with
      | error thrown => exact .submit rfl rfl rfl rfl trivial
      | ok transactionHash => exact .submit rfl rfl rfl rfl trivial
  | record intent transactionHash =>
      refine Outcome.attempt_rule hfail fun marked hmarked => ?_
      obtain ⟨stored, hstored, _, hsubmitting, rfl⟩ :=
        markSettlementDistributed_eq_ok.mp hmarked
      have hrank : intentRank db = 2 := by rw [intentRank_eq hstored, hsubmitting]; rfl
      exact .forward (by omega) (by rw [hrank]; rfl) rfl rfl
        (noDirectPayout_of_distributed _ _ _)
  | settle distributed =>
      have hpayouts := readSettlement_payouts db environment.chain hbehind
      simp only [advanceSettle]
      cases (readSettlement service input distributed db environment.chain).2 with
      | error thrown => exact .quiet rfl hpayouts rfl trivial
      | ok plan => exact .quiet rfl hpayouts rfl trivial
  | commit plan =>
      refine Outcome.attempt_rule hfail fun settled hsettled => ?_
      obtain ⟨_, _, _, _, _, hcomplete, _, hintent, _⟩ := commitSettlement_eq_ok hsettled
      rcases completeSettlementIntent_eq_ok.mp hcomplete with
        ⟨_, hsame⟩ | ⟨stored, _, hstored, hdistributed, _, _, rfl⟩
      · exact .unchanged (hintent.trans hsame) rfl trivial
      · have hrank : intentRank db = 3 := by rw [intentRank_eq hstored, hdistributed]; rfl
        exact .forward (by omega) (by rw [intentRank_eq hintent, hrank]; rfl) rfl rfl trivial

theorem settlementIntent_cancelInvoice {db after : Database} {invoice : Invoice}
    (hok : cancelInvoice db invoice = .ok after) :
    after.settlementIntent = db.settlementIntent := by
  obtain ⟨_, _, _, _, rfl⟩ := cancelInvoice_eq_ok hok
  rfl

/-- Only `settleInvoice` touches the intent and the payouts. -/
theorem payoutEffect_of_advance {environment : Environment} {db : Database} {process : Process}
    {outcome : Outcome} (hadvance : advance environment db process = some outcome)
    (hbehind : PayoutBehind process) : PayoutEffect db process outcome := by
  cases process with
  | idle => cases hadvance
  | finished thrown => cases hadvance
  | settleInvoice service input stage =>
      obtain rfl := Option.some.inj hadvance
      exact payoutEffect_settle hbehind
  | adminSettleInvoice input stage =>
      obtain rfl := Option.some.inj hadvance
      cases stage with
      | enter =>
          exact Outcome.attempt_rule (fun _ => .unchanged rfl rfl trivial)
            fun _ _ => .unchanged rfl rfl trivial
      | escrow =>
          simp only [advanceAdmin]
          cases (settleEscrowOnChain environment.chain).result with
          | error thrown => exact .unchanged rfl rfl trivial
          | ok transactionHash => exact .unchanged rfl rfl trivial
      | transact transactionHash =>
          exact Outcome.attempt_rule (fun _ => .unchanged rfl rfl trivial)
            fun _ _ => .unchanged rfl rfl trivial
      | commit plan =>
          refine Outcome.attempt_rule (fun _ => .unchanged rfl rfl trivial)
            fun settled hsettled => ?_
          obtain ⟨_, _, _, _, _, hintent, _⟩ := commitAdminSettlement_eq_ok hsettled
          exact .unchanged hintent rfl trivial
  | verifyPayment input stage =>
      obtain rfl := Option.some.inj hadvance
      cases stage with
      | find =>
          refine Outcome.attempt_rule (fun _ => .unchanged rfl rfl trivial) fun needed _ => ?_
          cases needed <;> exact .unchanged rfl rfl trivial
      | fetched =>
          refine Outcome.attempt_rule (fun _ => .unchanged rfl rfl trivial) fun writes _ => ?_
          cases writes <;> exact .unchanged rfl rfl trivial
      | write writes => exact .unchanged rfl rfl trivial
  | investmentFunded event stage =>
      obtain rfl := Option.some.inj hadvance
      cases stage with
      | find =>
          simp only [advanceFunded]
          cases findInvestmentForEvent db event <;> exact .unchanged rfl rfl trivial
      | save entity => exact .unchanged rfl rfl trivial
  | refundInvestment walletAddress stage =>
      obtain rfl := Option.some.inj hadvance
      cases stage with
      | find =>
          simp only [advanceRefund]
          cases db.invoice <;> exact .unchanged rfl rfl trivial
      | findInvestment invoice =>
          simp only [advanceRefund]
          cases findWalletInvestment db walletAddress <;> exact .unchanged rfl rfl trivial
      | check invoice investment =>
          simp only [advanceRefund]
          cases canRefund db environment.now <;> exact .unchanged rfl rfl trivial
      | remove invoice investment => exact .unchanged rfl rfl trivial
      | count invoice =>
          simp only [advanceRefund]
          split <;> exact .unchanged rfl rfl trivial
      | cancel invoice =>
          exact Outcome.attempt_rule (fun _ => .unchanged rfl rfl trivial)
            fun _ hcancelled => .unchanged (settlementIntent_cancelInvoice hcancelled) rfl trivial
  | createListing input stage =>
      obtain rfl := Option.some.inj hadvance
      cases stage with
      | check =>
          exact Outcome.attempt_rule (fun _ => .unchanged rfl rfl trivial)
            fun _ _ => .unchanged rfl rfl trivial
      | insert listing => exact .unchanged rfl rfl trivial
  | buyListing input stage =>
      obtain rfl := Option.some.inj hadvance
      cases stage with
      | check =>
          exact Outcome.attempt_rule (fun _ => .unchanged rfl rfl trivial)
            fun _ _ => .unchanged rfl rfl trivial
      | write writes => exact .unchanged rfl rfl trivial

/-! ## The invariant -/

/-- Before the claim nothing was submitted; the one process that is about to
submit is the first to do so. -/
structure Invariant (world : World) : Prop where
  unclaimed : intentRank world.db ≤ 1 →
    world.payouts = [] ∧ ∀ index, submitting (world.process index) = false
  sole : ∀ index, submitting (world.process index) = true →
    world.payouts = [] ∧ ∀ other, submitting (world.process other) = true → other = index
  once : world.payouts.length ≤ 1
  behind : ∀ index, PayoutBehind (world.process index)

theorem invariant_initial {world : World} (hinitial : Initial world) : Invariant world where
  unclaimed := fun _ => ⟨hinitial.noPayouts, fun index => by rw [hinitial.allIdle]; rfl⟩
  sole := fun index hsubmitting => by
    rw [hinitial.allIdle] at hsubmitting
    cases hsubmitting
  once := by rw [hinitial.noPayouts]; simp
  behind := fun index => by rw [hinitial.allIdle]; trivial

/-- A process that is not about to submit, and submits nothing, keeps the
invariant as long as the intent does not move back. -/
theorem Invariant.keep {world : World} {index : ℕ} {outcome : Outcome}
    (hinvariant : Invariant world) (hrank : intentRank world.db ≤ intentRank outcome.db)
    (hpayouts : outcome.payouts = []) (hnext : submitting outcome.process = false)
    (hbehind : PayoutBehind outcome.process) : Invariant (world.apply index outcome) := by
  have hothers : ∀ other, submitting ((world.apply index outcome).process other) = true →
      submitting (world.process other) = true := by
    intro other hother
    by_cases hsame : other = index
    · subst hsame
      simp [World.apply, hnext] at hother
    · simpa [World.apply, hsame] using hother
  refine ⟨fun hlow => ?_, fun moved hmoved => ?_, ?_, ?_⟩
  · obtain ⟨hnone, hidle⟩ := hinvariant.unclaimed (hrank.trans hlow)
    refine ⟨by simp [World.apply, hnone, hpayouts], fun other => ?_⟩
    by_contra hother
    have hbefore := hothers other (by simpa using hother)
    rw [hidle other] at hbefore
    cases hbefore
  · obtain ⟨hnone, honly⟩ := hinvariant.sole moved (hothers moved hmoved)
    exact ⟨by simp [World.apply, hnone, hpayouts], fun other hother =>
      honly other (hothers other hother)⟩
  · simpa [World.apply, hpayouts] using hinvariant.once
  · exact forall_setProcess (P := fun _ process => PayoutBehind process) hbehind
      fun other _ => hinvariant.behind other

theorem Invariant.step {world after : World} {event : Event} (hinvariant : Invariant world)
    (hstep : Machine.step world event = some after) :
    Invariant after ∧ (intentRank after.db = intentRank world.db ∨
      intentRank after.db = intentRank world.db + 1) := by
  rcases step_cases hstep with ⟨request, _, _, rfl⟩ |
    ⟨environment, outcome, _, _, hadvance, rfl⟩ | ⟨_, rfl⟩
  · refine ⟨hinvariant.keep le_rfl rfl ?_ ?_, .inl rfl⟩ <;> cases request <;> trivial
  · cases payoutEffect_of_advance hadvance (hinvariant.behind event.process) with
    | quiet hintent hpayouts hnext hbehind =>
        exact ⟨hinvariant.keep hintent.ge hpayouts hnext hbehind, .inl hintent⟩
    | forward hrank hintent hpayouts hnext hbehind =>
        exact ⟨hinvariant.keep (by omega) hpayouts hnext hbehind, .inr hintent⟩
    | claim _ hrank hintent hpayouts hbehind =>
        obtain ⟨hnone, hidle⟩ := hinvariant.unclaimed hrank.le
        have hpayoutsAfter : (world.apply event.process outcome).payouts = [] := by
          simp [World.apply, hnone, hpayouts]
        have honly : ∀ other,
            submitting ((world.apply event.process outcome).process other) = true →
              other = event.process := by
          intro other hother
          by_contra hne
          simp [World.apply, hne, hidle] at hother
        refine ⟨⟨fun hlow => ?_, fun moved hmoved => ⟨hpayoutsAfter, fun other hother => ?_⟩,
          by rw [hpayoutsAfter]; simp, ?_⟩, .inr ?_⟩
        · change intentRank outcome.db ≤ 1 at hlow
          omega
        · rw [honly other hother, honly moved hmoved]
        · exact forall_setProcess (P := fun _ process => PayoutBehind process) hbehind
            fun other _ => hinvariant.behind other
        · change intentRank outcome.db = _
          omega
    | submit hprocess hintent hpayouts hnext hbehind =>
        obtain ⟨hnone, honly⟩ := hinvariant.sole event.process hprocess
        have hidle : ∀ other,
            submitting ((world.apply event.process outcome).process other) = false := by
          refine forall_setProcess (P := fun _ process => submitting process = false) hnext
            fun other hne => ?_
          by_contra hother
          exact hne (honly other (by simpa using hother))
        refine ⟨⟨fun hlow => ?_, fun moved hmoved => ?_, ?_, ?_⟩, .inl hintent⟩
        · change intentRank outcome.db ≤ 1 at hlow
          have hclaimed := (hinvariant.unclaimed (hintent ▸ hlow)).2 event.process
          rw [hprocess] at hclaimed
          cases hclaimed
        · rw [hidle moved] at hmoved
          cases hmoved
        · simp [World.apply, hnone, hpayouts]
        · exact forall_setProcess (P := fun _ process => PayoutBehind process) hbehind
            fun other _ => hinvariant.behind other
  · exact ⟨hinvariant.keep le_rfl rfl rfl trivial, .inl rfl⟩

theorem invariant_of_run {first last : World} {events : List Event} (hinitial : Initial first)
    (hrun : Run Machine.step first events last) : Invariant last :=
  hrun.invariant (fun _ hstep hinvariant => (Invariant.step hinvariant hstep).1)
    (invariant_initial hinitial)

/-- In every run at most one payout is submitted for the invoice, and every step
leaves the status of its intent or moves it to the next one. -/
theorem at_most_one_payout {first last : World} {events : List Event}
    (hinitial : Initial first) (hrun : Run Machine.step first events last) :
    last.payouts.length ≤ 1 ∧
      ∀ event after, Machine.step last event = some after →
        intentRank after.db = intentRank last.db ∨
          intentRank after.db = intentRank last.db + 1 :=
  have hinvariant := invariant_of_run hinitial hrun
  ⟨hinvariant.once, fun _ _ hstep => (Invariant.step hinvariant hstep).2⟩

/-! ## Two calls and a lost response -/

def lostPayout : ChainOutcome := .lost ⟨true, "confirmation timed out"⟩

def manualSettlement : Request :=
  .settleInvoice ⟨true, some standardFee⟩
    { proceeds := 100, actorWallet := "GSELLER" }

/-- Both calls prepare the intent, the second claims it, and its payout lands
without an answer; a third call finds the intent submitted. -/
def racingSettlements : List Event :=
  [⟨0, .start manualSettlement⟩, ⟨1, .start manualSettlement⟩, ⟨0, .advance {}⟩,
    ⟨0, .advance {}⟩, ⟨0, .advance { newId := 5 }⟩, ⟨1, .advance {}⟩, ⟨1, .advance {}⟩,
    ⟨1, .advance {}⟩, ⟨0, .advance {}⟩, ⟨1, .advance { chain := lostPayout }⟩,
    ⟨2, .start manualSettlement⟩, ⟨2, .advance {}⟩, ⟨2, .advance {}⟩]

theorem initial_fundedDatabase : Initial { db := fundedDatabase } :=
  ⟨rfl, rfl, fun _ => rfl, rfl, rfl, rfl⟩

theorem racingSettlements_pay_once :
    ∃ last, Run Machine.step { db := fundedDatabase } racingSettlements last ∧
      last.payouts.length ≤ 1 := by
  obtain ⟨last, hexec⟩ : ∃ last,
      exec Machine.step { db := fundedDatabase } racingSettlements = some last :=
    Option.isSome_iff_exists.mp (by decide +kernel)
  have hrun := run_of_exec hexec
  exact ⟨last, hrun, (at_most_one_payout initial_fundedDatabase hrun).1⟩

end StellarSettle.SinglePayout
