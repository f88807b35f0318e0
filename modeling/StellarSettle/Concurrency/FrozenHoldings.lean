import StellarSettle.Concurrency.CrossService

/-!
# Holdings while a settlement is under way

The payload of the intent freezes the confirmed holdings.  The secondary market
consults the intent before it moves a holding; payment verification and the
event indexer do not.  As long as these two save nothing but what is stored
already, the holdings stay those of the payload, and the settlement transaction
settles exactly the holdings that were paid.
-/

namespace StellarSettle.FrozenHoldings

open StellarSettle.Checks
open StellarSettle.CrossService
open StellarSettle.DecimalJs
open StellarSettle.Entities
open StellarSettle.EventIndexer
open StellarSettle.FloorShare
open StellarSettle.InvestorReturn
open StellarSettle.InvoiceLifecycle
open StellarSettle.InvoiceRefund
open StellarSettle.Machine
open StellarSettle.PaymentDistributor
open StellarSettle.SecondaryMarket
open StellarSettle.SettleInvoice
open StellarSettle.SettlementIntents
open StellarSettle.SinglePayout
open StellarSettle.TransitionSystem
open StellarSettle.VerifyPayment

/-! ## The condition -/

/-- Id and amount of the confirmed holdings, sorted by id. -/
def holdings (db : Database) : List (Uuid × ℤ) :=
  currentSnapshot (confirmedInvestments db.investments)

/-- The investment that the next step of the process confirms and saves. -/
def savedInvestment : Process → Option Investment
  | .verifyPayment _ (.write writes) => some writes.investment
  | .investmentFunded _ (.save entity) => some entity
  | _ => none

/-- Saving the investment leaves the confirmed holdings as they are stored. -/
def SameHolding (investments : List Investment) (entity : Investment) : Prop :=
  (∃ row ∈ investments, row.id = entity.id) ∧
    ∀ row ∈ investments, row.id = entity.id →
      row.status = .confirmed ∧ row.investmentAmount = entity.investmentAmount

instance (investments : List Investment) (entity : Investment) :
    Decidable (SameHolding investments entity) :=
  inferInstanceAs (Decidable (_ ∧ _))

def inserting : Process → Bool
  | .settleInvoice _ _ (.insert _) => true
  | _ => false

/-- A preparation has read the holdings and holds the invoice row. -/
def preparing (world : World) : Bool :=
  world.holder.any fun index => inserting (world.process index)

/-- The calls next to each other: settlements with a distributor, payment
verifications, events, refunds, listings and purchases. -/
def Considered : Request → Prop
  | .settleInvoice service _ => service.paymentDistributor = true
  | .adminSettleInvoice _ => False
  | _ => True

instance : (request : Request) → Decidable (Considered request)
  | .settleInvoice _ _ => inferInstanceAs (Decidable (_ = _))
  | .adminSettleInvoice _ => isFalse id
  | .verifyPayment _ => isTrue trivial
  | .investmentFunded _ => isTrue trivial
  | .refundInvestment _ => isTrue trivial
  | .createListing _ => isTrue trivial
  | .buyListing _ => isTrue trivial

def StartsConsidered (_ : World) (event : Event) : Prop :=
  match event.action with
  | .start request => Considered request
  | .advance _ => True
  | .crash => True

instance (world : World) : (event : Event) → Decidable (StartsConsidered world event)
  | ⟨_, .start _⟩ => inferInstanceAs (Decidable (Considered _))
  | ⟨_, .advance _⟩ => isTrue trivial
  | ⟨_, .crash⟩ => isTrue trivial

/-- While an intent is in flight, or is being prepared, verifications and events
only save investments that are confirmed already, at the amount they have. -/
def KeepsHoldings (world : World) (event : Event) : Prop :=
  match event.action with
  | .start _ => True
  | .advance _ => (world.db.intentInFlight = true ∨ preparing world = true) →
      ∀ entity ∈ savedInvestment (world.process event.process),
        SameHolding world.db.investments entity
  | .crash => True

instance (world : World) : (event : Event) → Decidable (KeepsHoldings world event)
  | ⟨_, .start _⟩ => isTrue trivial
  | ⟨_, .advance _⟩ => inferInstanceAs (Decidable (_ ∨ _ → _))
  | ⟨_, .crash⟩ => isTrue trivial

/-! ## Snapshots -/

/-- A payload is stored in the order of its snapshot. -/
theorem intentSnapshot_of_settlementIntentPayload {db : Database}
    {input : PrepareSettlementIntentInput} {investments : List Investment}
    {payload : SettlementIntentPayload}
    (hok : settlementIntentPayload db input investments = .ok payload) :
    intentSnapshot payload = currentSnapshot investments := by
  have hlines : ∀ lines : List SettlementIntentInvestment,
      (lines.insertionSort fun left right => left.id ≤ right.id).map
          (fun line => (line.id, line.investmentAmount)) =
        (lines.map fun line => (line.id, line.investmentAmount)).insertionSort
          fun left right => left.1 ≤ right.1 :=
    fun lines => List.map_insertionSort _ _ _ lines fun _ _ _ _ => Iff.rfl
  rw [settlementIntentPayload_eq_ok hok, intentSnapshot, hlines,
    (List.pairwise_insertionSort _ _).insertionSort_eq, List.map_map]
  rfl

theorem currentSnapshot_settled (totalFundedScaled distributableScaled : ℤ)
    (investments : List Investment) :
    currentSnapshot (investments.map
      (settledInvestment totalFundedScaled distributableScaled)) =
        currentSnapshot investments := by
  simp [currentSnapshot, settledInvestment, Function.comp_def]

/-- Two equal snapshots list the same holdings. -/
theorem exists_line_of_snapshot_eq {investments : List Investment}
    {payload : SettlementIntentPayload} {settled : Investment}
    (hsnapshot : currentSnapshot investments = intentSnapshot payload)
    (hmem : settled ∈ investments) :
    ∃ line ∈ payload.investments, line.id = settled.id ∧
      line.investmentAmount = settled.investmentAmount := by
  have hlisted : (settled.id, settled.investmentAmount) ∈ currentSnapshot investments := by
    rw [currentSnapshot, List.mem_insertionSort]
    exact List.mem_map.mpr ⟨settled, hmem, rfl⟩
  rw [hsnapshot, intentSnapshot, List.mem_insertionSort] at hlisted
  obtain ⟨line, hline, hpair⟩ := List.mem_map.mp hlisted
  exact ⟨line, hline, congrArg Prod.fst hpair, congrArg Prod.snd hpair⟩

theorem holdings_saveInvestment {db after : Database} {entity : Investment}
    (hsame : SameHolding db.investments entity) (hconfirmed : entity.status = .confirmed)
    (hafter : after.investments = saveInvestment db.investments entity) :
    holdings after = holdings db := by
  obtain ⟨⟨found, hfound, hid⟩, hrows⟩ := hsame
  have hexists : (db.investments.any fun row => row.id == entity.id) = true :=
    List.any_eq_true.mpr ⟨found, hfound, by simpa using hid⟩
  have hlist : ∀ rows : List Investment,
      (∀ row ∈ rows, row.id = entity.id →
        row.status = .confirmed ∧ row.investmentAmount = entity.investmentAmount) →
      (confirmedInvestments (rows.map fun row => if row.id = entity.id then entity else row)).map
          (fun row => (row.id, row.investmentAmount)) =
        (confirmedInvestments rows).map fun row => (row.id, row.investmentAmount) := by
    intro rows hkept
    induction rows with
    | nil => rfl
    | cons row rest ih =>
        have hrest := ih fun other hmem => hkept other (List.mem_cons_of_mem _ hmem)
        simp only [confirmedInvestments] at hrest ⊢
        by_cases hsaved : row.id = entity.id
        · obtain ⟨hstatus, hamount⟩ := hkept row List.mem_cons_self hsaved
          simp [hsaved, hstatus, hamount, hconfirmed, hrest]
        · cases hstatus : row.status <;> simp [hsaved, hstatus, hrest]
  rw [holdings, holdings, hafter, saveInvestment, if_pos hexists, currentSnapshot,
    hlist db.investments hrows, currentSnapshot]

/-! ## What the stored rows and the processes know -/

/-- The invoice's intent has this id and this payload. -/
def Known (db : Database) (id : Uuid) (payload : SettlementIntentPayload) : Prop :=
  ∃ intent, db.settlementIntent = some intent ∧ intent.id = id ∧ intent.payload = payload

/-- A payout of this payload landed. -/
def Paid (payouts : List PayoutCall) (payload : SettlementIntentPayload) : Prop :=
  ∃ call ∈ payouts, call.landed = true ∧ call.input = distributionInput payload

/-- The plan settles the holdings of the stored payload, and these were paid. -/
def PlanPaid (db : Database) (payouts : List PayoutCall) (plan : SettlementPlan) : Prop :=
  ∃ intentId payload, plan.intentId = some intentId ∧ Known db intentId payload ∧
    Paid payouts payload ∧ currentSnapshot plan.investments = intentSnapshot payload

/-- An open intent belongs to a funded invoice with exactly its holdings. -/
structure Stored (db : Database) (payouts : List PayoutCall) (intent : SettlementIntent) :
    Prop where
  funded_iff : Funded db ↔ intent.status ≠ .completed
  frozen : Funded db → holdings db = intentSnapshot intent.payload
  paid : intent.status = .distributed → Paid payouts intent.payload

def SettleKnows (db : Database) (payouts : List PayoutCall) : SettleStage → Prop
  | .claim intent => Known db intent.id intent.payload
  | .submit intent => Known db intent.id intent.payload
  | .record intent _ => Known db intent.id intent.payload ∧ Paid payouts intent.payload
  | .settle none => False
  | .settle (some distributed) =>
      Known db distributed.intentId distributed.payload ∧ Paid payouts distributed.payload
  | .commit plan => PlanPaid db payouts plan
  | _ => True

/-- What holds for a process whatever the others do. -/
def Knows (db : Database) (payouts : List PayoutCall) : Process → Prop
  | .settleInvoice service _ stage =>
      service.paymentDistributor = true ∧ SettleKnows db payouts stage
  | .adminSettleInvoice _ _ => False
  | .verifyPayment _ (.write writes) => writes.investment.status = .confirmed
  | .investmentFunded _ (.save entity) => entity.status = .confirmed
  | .refundInvestment _ (.remove _ _) => ¬Funded db
  | .refundInvestment _ (.count _) => ¬Funded db
  | .refundInvestment _ (.cancel _) => ¬Funded db
  | _ => True

/-- The process relies on the invoice row it holds. -/
def locked : Process → Bool
  | .settleInvoice _ _ (.insert _) => true
  | .buyListing _ (.write _) => true
  | _ => false

/-- What the invoice row guarantees its holder. -/
def KnowsLocked (db : Database) : Process → Prop
  | .settleInvoice _ _ (.insert payload) =>
      db.settlementIntent = none ∧ Funded db ∧ holdings db = intentSnapshot payload
  | .buyListing _ (.write _) => db.intentInFlight = false
  | _ => True

/-! ## What one piece of code does to the holdings -/

inductive HoldingsEffect (db : Database) (payouts : List PayoutCall) (process : Process)
    (after : Database) : Prop where
  | quiet (hinvoice : after.invoice = db.invoice)
      (hintent : after.settlementIntent = db.settlementIntent)
      (hinvestments : after.investments = db.investments)
  | saved (entity : Investment) (hsaved : savedInvestment process = some entity)
      (hconfirmed : entity.status = .confirmed) (hinvoice : after.invoice = db.invoice)
      (hintent : after.settlementIntent = db.settlementIntent)
      (hinvestments : after.investments = saveInvestment db.investments entity)
  | unfunded (hbefore : ¬Funded db) (hafter : ¬Funded after)
      (hintent : after.settlementIntent = db.settlementIntent)
  | purchase (hneeds : needsInvoice process = true) (hflight : db.intentInFlight = false)
      (hinvoice : after.invoice = db.invoice)
      (hintent : after.settlementIntent = db.settlementIntent)
  | insert (intent : SettlementIntent) (hneeds : needsInvoice process = true)
      (hnone : db.settlementIntent = none) (hfunded : Funded db)
      (hsnapshot : holdings db = intentSnapshot intent.payload)
      (hafter : after = { db with settlementIntent := some intent })
      (hstatus : intent.status = .prepared)
  | moved (intent next : SettlementIntent) (hintent : db.settlementIntent = some intent)
      (hafter : after = { db with settlementIntent := some next })
      (hid : next.id = intent.id) (hpayload : next.payload = intent.payload)
      (hopen : intent.status ≠ .completed ∧ next.status ≠ .completed)
      (hpaid : next.status = .distributed → Paid payouts next.payload)
  | completed (intent next : SettlementIntent) (hneeds : needsInvoice process = true)
      (hintent : db.settlementIntent = some intent)
      (hafter : after.settlementIntent = some next)
      (hid : next.id = intent.id) (hpayload : next.payload = intent.payload)
      (hstatus : next.status = .completed) (hfunded : ¬Funded after)

/-- Everything a step of one process brings about. -/
structure Moves (db : Database) (payouts : List PayoutCall) (process : Process)
    (outcome : Outcome) : Prop where
  effect : HoldingsEffect db payouts process outcome.db
  knows : Knows outcome.db (payouts ++ outcome.payouts) outcome.process
  knowsLocked : KnowsLocked outcome.db outcome.process
  holds : locked outcome.process = true → outcome.holdsInvoice = true
  needs : outcome.holdsInvoice = true → needsInvoice process = true

section Steps

variable {db : Database} {payouts : List PayoutCall} {process : Process}

theorem knowsLocked_of_free (hfree : locked process = false) : KnowsLocked db process := by
  simp only [KnowsLocked]
  split
  · simp [locked] at hfree
  · simp [locked] at hfree
  · trivial

/-- A step that does not go on with the invoice row. -/
theorem Moves.released {after : Database} {next : Process} {calls : List PayoutCall}
    (heffect : HoldingsEffect db payouts process after)
    (hknows : Knows after (payouts ++ calls) next) (hfree : locked next = false) :
    Moves db payouts process { db := after, process := next, payouts := calls } where
  effect := heffect
  knows := hknows
  knowsLocked := knowsLocked_of_free hfree
  holds := fun hlocked => by
    rw [hfree] at hlocked
    cases hlocked
  needs := fun hholds => by cases hholds

/-- A step that leaves the rows alone and does not go on with the invoice row. -/
theorem Moves.unchanged {after : Database} {next : Process} {calls : List PayoutCall}
    (hinvoice : after.invoice = db.invoice)
    (hintent : after.settlementIntent = db.settlementIntent)
    (hinvestments : after.investments = db.investments)
    (hknows : Knows after (payouts ++ calls) next) (hfree : locked next = false) :
    Moves db payouts process { db := after, process := next, payouts := calls } :=
  .released (.quiet hinvoice hintent hinvestments) hknows hfree

theorem Moves.failed (thrown : Thrown) :
    Moves db payouts process { db := db, process := .finished (some thrown) } :=
  .unchanged rfl rfl rfl trivial rfl

end Steps

theorem Paid.append {payouts : List PayoutCall} {payload : SettlementIntentPayload}
    (hpaid : Paid payouts payload) (calls : List PayoutCall) : Paid (payouts ++ calls) payload := by
  obtain ⟨call, hmem, hcall⟩ := hpaid
  exact ⟨call, List.mem_append_left _ hmem, hcall⟩

theorem PlanPaid.append {db : Database} {payouts : List PayoutCall} {plan : SettlementPlan}
    (hplan : PlanPaid db payouts plan) (calls : List PayoutCall) :
    PlanPaid db (payouts ++ calls) plan := by
  obtain ⟨intentId, payload, hintentId, hknown, hpaid, hsnapshot⟩ := hplan
  exact ⟨intentId, payload, hintentId, hknown, hpaid.append calls, hsnapshot⟩

/-- Only a recorded payout lets a call go on without a claim. -/
theorem status_of_payoutRoute_eq_recorded {intent : SettlementIntent}
    {transactionHash : TransactionHash}
    (hroute : payoutRoute intent = .ok (.recorded transactionHash)) :
    intent.status = .distributed := by
  rw [payoutRoute] at hroute
  cases hstatus : intent.status <;> simp [hstatus] at hroute ⊢

theorem intentInFlight_eq {db : Database} {intent : SettlementIntent}
    (hintent : db.settlementIntent = some intent) :
    db.intentInFlight = true ↔ intent.status ≠ .completed := by
  rw [Database.intentInFlight, hintent]
  cases hstatus : intent.status <;> simp [hstatus, SettlementIntentStatus.inFlight]

theorem funded_of_status {db : Database} {invoice : Invoice}
    (hinvoice : db.invoice = some invoice) (hstatus : invoice.status = .funded) : Funded db := by
  rw [Funded, hinvoice, Option.map_some, hstatus]

/-- The settlement transaction goes on with the holdings of the payload it was
handed. -/
theorem planPaid_of_readSettlement {db : Database} {payouts calls : List PayoutCall}
    {service : SettlementService} {input : SettleInvoiceInput} {distributed : DistributedIntent}
    {chain : ChainOutcome} {plan : SettlementPlan}
    (hknown : Known db distributed.intentId distributed.payload)
    (hpaid : Paid payouts distributed.payload)
    (hread : readSettlement service input (some distributed) db chain = (calls, .ok plan)) :
    PlanPaid db payouts plan := by
  obtain ⟨invoice, hcheck, _, hinvestments, hintentId⟩ := readSettlement_eq_ok hread
  obtain ⟨_, _, _, _, _, hsnapshot, _⟩ := checkSettlement_eq_ok.mp hcheck
  refine ⟨distributed.intentId, distributed.payload, hintentId, hknown, hpaid, ?_⟩
  rw [hinvestments, currentSnapshot_settled]
  simpa [checkSnapshot] using hsnapshot

theorem moves_settle {service : SettlementService} {input : SettleInvoiceInput}
    {environment : Environment} {db : Database} {payouts : List PayoutCall}
    {stage : SettleStage} (hstored : ∀ intent ∈ db.settlementIntent, Stored db payouts intent)
    (hknows : Knows db payouts (.settleInvoice service input stage))
    (hlocked : KnowsLocked db (.settleInvoice service input stage)) :
    Moves db payouts (.settleInvoice service input stage)
      (advanceSettle service input environment db stage) := by
  obtain ⟨hdistributor, hstage⟩ := hknows
  cases stage with
  | enter =>
      refine Outcome.attempt_rule Moves.failed fun prepare henter => ?_
      cases prepare with
      | none =>
          rw [paymentDistributor_of_enter henter] at hdistributor
          cases hdistributor
      | some prepare => exact .unchanged rfl rfl rfl ⟨hdistributor, trivial⟩ rfl
  | prepare prepare =>
      refine Outcome.attempt_rule Moves.failed fun _ _ =>
        Outcome.attempt_rule Moves.failed fun prepared hread => ?_
      obtain ⟨invoice, hinvoice, _, _, hfunded, hcases⟩ := readSettlementIntent_eq_ok.mp hread
      rcases hcases with ⟨existing, hexisting, _, rfl⟩ | ⟨hnone, _, payload, hpayload, rfl⟩
      · have hknown : Known db existing.id existing.payload := ⟨existing, hexisting, rfl, rfl⟩
        refine Outcome.attempt_rule Moves.failed fun route hroute => ?_
        cases route with
        | claim => exact .unchanged rfl rfl rfl ⟨hdistributor, hknown⟩ rfl
        | recorded transactionHash =>
            have hdistributed := status_of_payoutRoute_eq_recorded hroute
            exact .unchanged rfl rfl rfl ⟨hdistributor, hknown,
              ((hstored existing hexisting).paid hdistributed).append _⟩ rfl
      · exact
          { effect := .quiet rfl rfl rfl
            knows := ⟨hdistributor, trivial⟩
            knowsLocked := ⟨hnone, funded_of_status hinvoice hfunded,
              (intentSnapshot_of_settlementIntentPayload hpayload).symm⟩
            holds := fun _ => rfl
            needs := fun _ => rfl }
  | insert payload =>
      obtain ⟨hnone, hfunded, hsnapshot⟩ := hlocked
      refine Outcome.attempt_rule Moves.failed fun inserted hinserted => ?_
      obtain ⟨_, rfl⟩ := insertSettlementIntent_eq_ok.mp hinserted
      exact .released (.insert _ rfl hnone hfunded hsnapshot rfl rfl)
        ⟨hdistributor, _, rfl, rfl, rfl⟩ rfl
  | claim intent =>
      refine Outcome.attempt_rule Moves.failed fun claimed hclaimed => ?_
      obtain ⟨stored, hintent, hid, hprepared, rfl⟩ := claimSettlementIntent_eq_ok.mp hclaimed
      obtain ⟨known, hknown, _, hpayload⟩ := hstage
      obtain rfl : known = stored := Option.some.inj (hknown.symm.trans hintent)
      refine .released (.moved known _ hintent rfl rfl rfl ?_ fun hstatus => by cases hstatus)
        ⟨hdistributor, _, rfl, hid, hpayload⟩ rfl
      simp [hprepared]
  | submit intent =>
      simp only [advanceSettle]
      cases hcall : (distributePayouts (distributionInput intent.payload)
          environment.chain).result with
      | error thrown => exact .unchanged rfl rfl rfl trivial rfl
      | ok transactionHash =>
          refine .unchanged rfl rfl rfl ⟨hdistributor, hstage, _,
            List.mem_append_right _ (List.mem_singleton_self _),
            landed_of_distributePayouts_eq_ok hcall, distributePayouts_input _ _⟩ rfl
  | record intent transactionHash =>
      refine Outcome.attempt_rule Moves.failed fun marked hmarked => ?_
      obtain ⟨stored, hintent, hid, hsubmitting, rfl⟩ :=
        markSettlementDistributed_eq_ok.mp hmarked
      obtain ⟨⟨known, hknown, _, hpayload⟩, hpaid⟩ := hstage
      obtain rfl : known = stored := Option.some.inj (hknown.symm.trans hintent)
      refine .released (.moved known _ hintent rfl rfl rfl ?_ fun _ => by rwa [hpayload])
        ⟨hdistributor, ⟨_, rfl, hid, hpayload⟩, hpaid.append _⟩ rfl
      simp [hsubmitting]
  | settle distributed =>
      cases distributed with
      | none => exact hstage.elim
      | some distributed =>
          obtain ⟨hknown, hpaid⟩ := hstage
          simp only [advanceSettle]
          cases hread : (readSettlement service input (some distributed) db
              environment.chain).2 with
          | error thrown => exact .unchanged rfl rfl rfl trivial rfl
          | ok plan =>
              have hplan := planPaid_of_readSettlement hknown hpaid (Prod.ext rfl hread)
              exact
                { effect := .quiet rfl rfl rfl
                  knows := ⟨hdistributor, hplan.append _⟩
                  knowsLocked := trivial
                  holds := fun _ => rfl
                  needs := fun _ => rfl }
  | commit plan =>
      obtain ⟨intentId, payload, hplanIntent, ⟨known, hknown, _⟩, _⟩ := hstage
      refine Outcome.attempt_rule Moves.failed fun settled hsettled => ?_
      have hfunded := not_funded_of_commitSettlement hsettled
      obtain ⟨_, _, _, _, _, hcomplete, _, hintent, _⟩ := commitSettlement_eq_ok hsettled
      rcases completeSettlementIntent_eq_ok.mp hcomplete with
        ⟨hnone, _⟩ | ⟨stored, _, hstored, _, _, _, rfl⟩
      · rw [hplanIntent] at hnone
        cases hnone
      · exact .released (.completed stored _ rfl hstored hintent rfl rfl rfl hfunded) trivial rfl

theorem not_funded_of_canRefund {db : Database} {now : Timestamp}
    (hallowed : canRefund db now = none) : ¬Funded db := by
  obtain ⟨invoice, hinvoice, hfunded, _⟩ := status_of_canRefund hallowed
  exact not_funded_of_status hinvoice hfunded

theorem moves_refund {walletAddress : String} {environment : Environment} {db : Database}
    {payouts : List PayoutCall} {stage : RefundStage}
    (hknows : Knows db payouts (.refundInvestment walletAddress stage)) :
    Moves db payouts (.refundInvestment walletAddress stage)
      (advanceRefund walletAddress environment db stage) := by
  cases stage with
  | find =>
      simp only [advanceRefund]
      cases db.invoice <;> exact .unchanged rfl rfl rfl trivial rfl
  | findInvestment invoice =>
      simp only [advanceRefund]
      cases findWalletInvestment db walletAddress <;> exact .unchanged rfl rfl rfl trivial rfl
  | check invoice investment =>
      simp only [advanceRefund]
      cases hallowed : canRefund db environment.now with
      | none => exact .unchanged rfl rfl rfl (not_funded_of_canRefund hallowed) rfl
      | some reason => exact .unchanged rfl rfl rfl trivial rfl
  | remove invoice investment =>
      exact .released (.unfunded hknows hknows rfl) hknows rfl
  | count invoice =>
      simp only [advanceRefund]
      split
      · exact .unchanged rfl rfl rfl hknows rfl
      · exact .unchanged rfl rfl rfl trivial rfl
  | cancel invoice =>
      refine Outcome.attempt_rule Moves.failed fun cancelled hcancelled => ?_
      have hunfunded := not_funded_of_cancelInvoice hcancelled
      exact .released
        (.unfunded hknows hunfunded (settlementIntent_cancelInvoice hcancelled)) trivial rfl

theorem moves_of_advance {environment : Environment} {db : Database}
    {payouts : List PayoutCall} {process : Process} {outcome : Outcome}
    (hstored : ∀ intent ∈ db.settlementIntent, Stored db payouts intent)
    (hknows : Knows db payouts process) (hlocked : KnowsLocked db process)
    (hadvance : advance environment db process = some outcome) :
    Moves db payouts process outcome := by
  cases process with
  | idle => cases hadvance
  | finished thrown => cases hadvance
  | settleInvoice service input stage =>
      obtain rfl := Option.some.inj hadvance
      exact moves_settle hstored hknows hlocked
  | adminSettleInvoice input stage => exact hknows.elim
  | verifyPayment input stage =>
      obtain rfl := Option.some.inj hadvance
      cases stage with
      | find =>
          refine Outcome.attempt_rule Moves.failed fun needed _ => ?_
          cases needed <;> exact .unchanged rfl rfl rfl trivial rfl
      | fetched =>
          refine Outcome.attempt_rule Moves.failed fun writes hread => ?_
          cases writes with
          | none => exact .unchanged rfl rfl rfl trivial rfl
          | some writes =>
              exact .unchanged rfl rfl rfl (confirmed_of_readVerification hread) rfl
      | write writes =>
          exact .released (.saved writes.investment rfl hknows rfl rfl rfl) trivial rfl
  | investmentFunded event stage =>
      obtain rfl := Option.some.inj hadvance
      cases stage with
      | find =>
          simp only [advanceFunded]
          cases findInvestmentForEvent db event with
          | none => exact .unchanged rfl rfl rfl trivial rfl
          | some investment => exact .unchanged rfl rfl rfl rfl rfl
      | save entity =>
          exact .released (.saved entity rfl hknows rfl rfl rfl) trivial rfl
  | refundInvestment walletAddress stage =>
      obtain rfl := Option.some.inj hadvance
      exact moves_refund hknows
  | createListing input stage =>
      obtain rfl := Option.some.inj hadvance
      cases stage with
      | check =>
          refine Outcome.attempt_rule Moves.failed fun listing _ => ?_
          exact
            { effect := .quiet rfl rfl rfl
              knows := trivial
              knowsLocked := trivial
              holds := fun hlocked => by cases hlocked
              needs := fun _ => rfl }
      | insert listing => exact .unchanged rfl rfl rfl trivial rfl
  | buyListing input stage =>
      obtain rfl := Option.some.inj hadvance
      cases stage with
      | check =>
          refine Outcome.attempt_rule Moves.failed fun writes hread => ?_
          exact
            { effect := .quiet rfl rfl rfl
              knows := trivial
              knowsLocked := (buyListing_eq_ok hread).2
              holds := fun _ => rfl
              needs := fun _ => rfl }
      | write writes => exact .released (.purchase rfl hlocked rfl rfl) trivial rfl

/-! ## What the other processes keep -/

section Others

variable {db after : Database} {payouts : List PayoutCall} {process other : Process}

theorem HoldingsEffect.funded (heffect : HoldingsEffect db payouts process after)
    (hfunded : Funded after) : Funded db := by
  cases heffect with
  | quiet hinvoice _ _ => rwa [Funded, hinvoice] at hfunded
  | saved _ _ _ hinvoice _ _ => rwa [Funded, hinvoice] at hfunded
  | unfunded _ hafter _ => exact absurd hfunded hafter
  | purchase _ _ hinvoice _ => rwa [Funded, hinvoice] at hfunded
  | insert _ _ _ hbefore _ _ _ => exact hbefore
  | moved _ _ _ hafter _ _ _ _ => rwa [hafter] at hfunded
  | completed _ _ _ _ _ _ _ _ hunfunded => exact absurd hfunded hunfunded

theorem HoldingsEffect.known (heffect : HoldingsEffect db payouts process after) {id : Uuid}
    {payload : SettlementIntentPayload} (hknown : Known db id payload) :
    Known after id payload := by
  obtain ⟨known, hknown, hid, hpayload⟩ := hknown
  have hkeep : after.settlementIntent = db.settlementIntent → Known after id payload :=
    fun hintent => ⟨known, hintent.trans hknown, hid, hpayload⟩
  cases heffect with
  | quiet _ hintent _ => exact hkeep hintent
  | saved _ _ _ _ hintent _ => exact hkeep hintent
  | unfunded _ _ hintent => exact hkeep hintent
  | purchase _ _ _ hintent => exact hkeep hintent
  | insert _ _ hnone _ _ _ _ =>
      rw [hnone] at hknown
      cases hknown
  | moved intent next hintent hafter hsameId hsamePayload _ _ =>
      obtain rfl : known = intent := Option.some.inj (hknown.symm.trans hintent)
      exact ⟨next, by rw [hafter], hsameId.trans hid, hsamePayload.trans hpayload⟩
  | completed intent next _ hintent hafter hsameId hsamePayload _ _ =>
      obtain rfl : known = intent := Option.some.inj (hknown.symm.trans hintent)
      exact ⟨next, hafter, hsameId.trans hid, hsamePayload.trans hpayload⟩

theorem HoldingsEffect.knows (heffect : HoldingsEffect db payouts process after)
    (calls : List PayoutCall) (hother : Knows db payouts other) :
    Knows after (payouts ++ calls) other := by
  have hunfunded : ¬Funded db → ¬Funded after := fun hbefore hafter =>
    hbefore (heffect.funded hafter)
  cases other with
  | settleInvoice service input stage =>
      obtain ⟨hdistributor, hstage⟩ := hother
      refine ⟨hdistributor, ?_⟩
      cases stage with
      | claim intent => exact heffect.known hstage
      | submit intent => exact heffect.known hstage
      | record intent transactionHash =>
          exact ⟨heffect.known hstage.1, hstage.2.append calls⟩
      | settle distributed =>
          cases distributed with
          | none => exact hstage
          | some distributed => exact ⟨heffect.known hstage.1, hstage.2.append calls⟩
      | commit plan =>
          obtain ⟨intentId, payload, hintentId, hknown, hpaid, hsnapshot⟩ := hstage
          exact ⟨intentId, payload, hintentId, heffect.known hknown, hpaid.append calls, hsnapshot⟩
      | _ => trivial
  | refundInvestment walletAddress stage =>
      cases stage <;> first | trivial | exact hunfunded hother
  | verifyPayment input stage => cases stage <;> trivial
  | investmentFunded event stage => cases stage <;> trivial
  | _ => exact hother

/-- A process that does not need the invoice row leaves its holder alone. -/
theorem HoldingsEffect.knowsLocked (heffect : HoldingsEffect db payouts process after)
    (hfree : needsInvoice process = false)
    (hkeeps : inserting other = true → ∀ entity ∈ savedInvestment process,
      SameHolding db.investments entity)
    (hother : KnowsLocked db other) : KnowsLocked after other := by
  have hneedless : ¬needsInvoice process = true := by simp [hfree]
  simp only [KnowsLocked] at hother ⊢
  split
  · obtain ⟨hnone, hfunded, hsnapshot⟩ := hother
    cases heffect with
    | quiet hinvoice hintent hinvestments =>
        exact ⟨hintent.trans hnone, by rwa [Funded, hinvoice],
          by rwa [holdings, hinvestments]⟩
    | saved entity hsaved hconfirmed hinvoice hintent hinvestments =>
        have hsame := hkeeps rfl entity hsaved
        exact ⟨hintent.trans hnone, by rwa [Funded, hinvoice],
          (holdings_saveInvestment hsame hconfirmed hinvestments).trans hsnapshot⟩
    | unfunded hbefore _ _ => exact absurd hfunded hbefore
    | purchase hneeds _ _ _ => exact absurd hneeds hneedless
    | insert _ hneeds _ _ _ _ _ => exact absurd hneeds hneedless
    | moved _ _ hintent _ _ _ _ _ =>
        rw [hnone] at hintent
        cases hintent
    | completed _ _ hneeds _ _ _ _ _ _ => exact absurd hneeds hneedless
  · have hkeep : after.settlementIntent = db.settlementIntent → after.intentInFlight = false :=
      fun hintent => by rwa [Database.intentInFlight, hintent]
    cases heffect with
    | quiet _ hintent _ => exact hkeep hintent
    | saved _ _ _ _ hintent _ => exact hkeep hintent
    | unfunded _ _ hintent => exact hkeep hintent
    | purchase hneeds _ _ _ => exact absurd hneeds hneedless
    | insert _ hneeds _ _ _ _ _ => exact absurd hneeds hneedless
    | moved intent _ hintent _ _ _ hopen _ =>
        have hflight := (intentInFlight_eq hintent).mpr hopen.1
        rw [hother] at hflight
        cases hflight
    | completed _ _ hneeds _ _ _ _ _ _ => exact absurd hneeds hneedless
  · trivial

theorem Stored.keep {intent : SettlementIntent} (hstored : Stored db payouts intent)
    (hfunded : Funded after ↔ Funded db)
    (hholdings : Funded db → holdings after = holdings db) (calls : List PayoutCall) :
    Stored after (payouts ++ calls) intent where
  funded_iff := hfunded.trans hstored.funded_iff
  frozen := fun hafter =>
    (hholdings (hfunded.mp hafter)).trans (hstored.frozen (hfunded.mp hafter))
  paid := fun hdistributed => (hstored.paid hdistributed).append calls

theorem HoldingsEffect.stored (heffect : HoldingsEffect db payouts process after)
    (calls : List PayoutCall)
    (hkeeps : db.intentInFlight = true → ∀ entity ∈ savedInvestment process,
      SameHolding db.investments entity)
    (hstored : ∀ intent ∈ db.settlementIntent, Stored db payouts intent) :
    ∀ intent ∈ after.settlementIntent, Stored after (payouts ++ calls) intent := by
  intro stored hmem
  cases heffect with
  | quiet hinvoice hintent hinvestments =>
      rw [hintent] at hmem
      exact (hstored stored hmem).keep (by rw [Funded, hinvoice, Funded])
        (fun _ => by rw [holdings, hinvestments, holdings]) calls
  | saved entity hsaved hconfirmed hinvoice hintent hinvestments =>
      rw [hintent] at hmem
      have hbefore := hstored stored hmem
      refine hbefore.keep (by rw [Funded, hinvoice, Funded]) (fun hfunded => ?_) calls
      have hflight := (intentInFlight_eq hmem).mpr (hbefore.funded_iff.mp hfunded)
      exact holdings_saveInvestment (hkeeps hflight entity hsaved) hconfirmed hinvestments
  | unfunded hbefore hafter hintent =>
      rw [hintent] at hmem
      exact (hstored stored hmem).keep (by simp [hbefore, hafter])
        (fun hfunded => absurd hfunded hbefore) calls
  | purchase _ hflight hinvoice hintent =>
      rw [hintent] at hmem
      have hbefore := hstored stored hmem
      refine hbefore.keep (by rw [Funded, hinvoice, Funded]) (fun hfunded => ?_) calls
      have hopen := (intentInFlight_eq hmem).mpr (hbefore.funded_iff.mp hfunded)
      rw [hflight] at hopen
      cases hopen
  | insert intent _ _ hfunded hsnapshot hafter hstatus =>
      subst hafter
      obtain rfl := Option.some.inj hmem
      exact
        { funded_iff := by
            simp only [hstatus, ne_eq, reduceCtorEq, not_false_eq_true, iff_true]
            exact hfunded
          frozen := fun _ => hsnapshot
          paid := fun hdistributed => by
            rw [hstatus] at hdistributed
            cases hdistributed }
  | moved intent next hintent hafter _ hpayload hopen hpaid =>
      subst hafter
      obtain rfl := Option.some.inj hmem
      have hbefore := hstored intent hintent
      have hfunded : Funded db := hbefore.funded_iff.mpr hopen.1
      exact
        { funded_iff := by
            simp only [ne_eq, hopen.2, not_false_eq_true, iff_true]
            exact hfunded
          frozen := fun _ => by
            rw [hpayload]
            exact hbefore.frozen hfunded
          paid := fun hdistributed => (hpaid hdistributed).append calls }
  | completed intent next _ _ hafter _ _ hstatus hunfunded =>
      obtain rfl := Option.some.inj (hafter.symm.trans hmem)
      exact
        { funded_iff := by simp [hstatus, hunfunded]
          frozen := fun hfunded => absurd hfunded hunfunded
          paid := fun hdistributed => by
            rw [hstatus] at hdistributed
            cases hdistributed }

end Others

/-! ## The invariant -/

structure FrozenInvariant (world : World) : Prop where
  stored : ∀ intent ∈ world.db.settlementIntent, Stored world.db world.payouts intent
  knows : ∀ index, Knows world.db world.payouts (world.process index)
  holds : ∀ index, locked (world.process index) = true → world.holder = some index
  knowsLocked : ∀ index, KnowsLocked world.db (world.process index)

theorem frozenInvariant_initial {world : World} (hinitial : Initial world) :
    FrozenInvariant world where
  stored := fun intent hmem => by
    rw [hinitial.noIntent] at hmem
    cases hmem
  knows := fun index => by rw [hinitial.allIdle]; trivial
  holds := fun index hlocked => by
    rw [hinitial.allIdle] at hlocked
    cases hlocked
  knowsLocked := fun index => by rw [hinitial.allIdle]; trivial

/-- A step whose effect respects the frozen holdings keeps the invariant. -/
theorem FrozenInvariant.apply {world : World} {index : ℕ} {outcome : Outcome}
    (hinvariant : FrozenInvariant world) (process : Process)
    (havailable : needsInvoice process = true → Available world.holder index)
    (hmoves : Moves world.db world.payouts process outcome)
    (hkeeps : world.db.intentInFlight = true ∨ preparing world = true →
      ∀ entity ∈ savedInvestment process, SameHolding world.db.investments entity) :
    FrozenInvariant (world.apply index outcome) := by
  -- While another process holds the row, the step neither needs nor takes it.
  have hfree : ∀ other, other ≠ index → locked (world.process other) = true →
      needsInvoice process = false ∧ outcome.holdsInvoice = false := by
    intro other hother hlocked
    have hneedless : needsInvoice process = false := by
      by_contra hneeds
      exact not_available_of_held (hinvariant.holds other hlocked) hother
        (havailable (by simpa using hneeds))
    refine ⟨hneedless, ?_⟩
    by_contra hholds
    have hneeds := hmoves.needs (by simpa using hholds)
    rw [hneedless] at hneeds
    cases hneeds
  refine ⟨?_, ?_, ?_, ?_⟩
  · exact hmoves.effect.stored outcome.payouts (fun hflight => hkeeps (.inl hflight))
      hinvariant.stored
  · exact forall_setProcess hmoves.knows fun other _ =>
      hmoves.effect.knows outcome.payouts (hinvariant.knows other)
  · refine forall_setProcess (P := fun other process => locked process = true →
        (world.apply index outcome).holder = some other) (fun hlocked => ?_)
      fun other hother hlocked => ?_
    · simp [World.apply, nextHolder, hmoves.holds hlocked]
    · exact nextHolder_of_held (hinvariant.holds other hlocked) hother
        (hfree other hother hlocked).2
  · refine forall_setProcess (P := fun _ process => KnowsLocked outcome.db process)
      hmoves.knowsLocked fun other hother => ?_
    by_cases hlocked : locked (world.process other) = true
    · refine hmoves.effect.knowsLocked (hfree other hother hlocked).1 (fun hinserting => ?_)
        (hinvariant.knowsLocked other)
      refine hkeeps (.inr ?_)
      simp [preparing, hinvariant.holds other hlocked, hinserting]
    · exact knowsLocked_of_free (by simpa using hlocked)

theorem FrozenInvariant.step {world after : World} {event : Event}
    (hinvariant : FrozenInvariant world) (hconsidered : StartsConsidered world event)
    (hguard : KeepsHoldings world event) (hstep : Machine.step world event = some after) :
    FrozenInvariant after := by
  have hreplace : ∀ next : Process, Knows world.db world.payouts next → locked next = false →
      FrozenInvariant (world.apply event.process { db := world.db, process := next }) :=
    fun next hknows hfree => hinvariant.apply .idle (fun hneeds => by cases hneeds)
      (.unchanged rfl rfl rfl (by simpa using hknows) hfree) fun _ _ hsaved => by cases hsaved
  rcases step_cases hstep with ⟨request, haction, _, rfl⟩ |
    ⟨environment, outcome, haction, havailable, hadvance, rfl⟩ | ⟨_, rfl⟩
  · rw [StartsConsidered, haction] at hconsidered
    cases request with
    | settleInvoice service input => exact hreplace _ ⟨hconsidered, trivial⟩ rfl
    | adminSettleInvoice input => exact hconsidered.elim
    | _ => exact hreplace _ trivial rfl
  · rw [KeepsHoldings, haction] at hguard
    exact hinvariant.apply _ havailable (moves_of_advance hinvariant.stored
      (hinvariant.knows event.process) (hinvariant.knowsLocked event.process) hadvance) hguard
  · exact hreplace _ trivial rfl

theorem frozenInvariant_of_run {first last : World} {events : List Event}
    (hinitial : Initial first)
    (hrun : GuardedRun Machine.step
      (fun world event => StartsConsidered world event ∧ KeepsHoldings world event)
      first events last) :
    FrozenInvariant last :=
  hrun.invariant (fun hguard hstep hinvariant => hinvariant.step hguard.1 hguard.2 hstep)
    (frozenInvariant_initial hinitial)

/-! ## The settlement transaction -/

/-- The transaction complains about the holdings only when they differ from the
payload, on a funded invoice. -/
theorem checkSettlement_eq_snapshotChanged {input : SettleInvoiceInput}
    {distributed : DistributedIntent} {db : Database} {thrown : Thrown}
    (herror : checkSettlement input (some distributed) db = .error thrown)
    (hcode : thrown.hasCode .settlementSnapshotChanged = true) :
    Funded db ∧ holdings db ≠ intentSnapshot distributed.payload := by
  simp only [checkSettlement, bind_eq_error, orThrow_eq_error, throwIf_eq_error, pure_ne_error,
    orThrow_eq_ok, throwIf_eq_ok, checkSnapshot] at herror
  rcases herror with ⟨_, rfl⟩ | ⟨invoice, hinvoice, ⟨_, rfl⟩ | ⟨_, _, ⟨_, rfl⟩ | ⟨_, _, ⟨_, rfl⟩ |
    ⟨_, _, ⟨_, rfl⟩ | ⟨_, hfunded, ⟨_, rfl⟩ | ⟨_, _, ⟨hchanged, _⟩ | ⟨_, _, hnever⟩⟩⟩⟩⟩⟩⟩
  · cases hcode
  · cases hcode
  · cases hcode
  · cases hcode
  · cases hcode
  · cases hcode
  · exact ⟨funded_of_status hinvoice (by simpa using hfunded), hchanged⟩
  · exact hnever.elim

theorem settlementLoop_error_code {totalFundedScaled distributableScaled : ℤ}
    {investments : List Investment} {sumOfReturnsScaled : ℤ} {settled : List Investment}
    {thrown : Thrown} {code : ErrorCode}
    (herror : settlementLoop totalFundedScaled distributableScaled investments sumOfReturnsScaled
      settled = .error thrown) : thrown.hasCode code = false := by
  induction investments generalizing sumOfReturnsScaled settled with
  | nil => cases herror
  | cons investment rest ih =>
      rcases bind_eq_error.mp herror with hreturn | ⟨_, _, hrest⟩
      · exact computeInvestorReturn_error_code hreturn
      · exact ih hrest

theorem readSettlement_eq_snapshotChanged {service : SettlementService}
    {input : SettleInvoiceInput} {distributed : DistributedIntent} {db : Database}
    {chain : ChainOutcome} {thrown : Thrown}
    (herror : (readSettlement service input (some distributed) db chain).2 = .error thrown)
    (hcode : thrown.hasCode .settlementSnapshotChanged = true) :
    Funded db ∧ holdings db ≠ intentSnapshot distributed.payload := by
  rw [readSettlement] at herror
  split at herror
  · rename_i hcheck
    obtain rfl := Except.error.inj herror
    exact checkSettlement_eq_snapshotChanged hcheck hcode
  · dsimp only at herror
    rw [directDistribution_of_noDirectPayout (noDirectPayout_of_distributed _ _ _),
      ok_bind] at herror
    rcases bind_eq_error.mp herror with hloop | ⟨_, _, hnever⟩
    · rw [settlementLoop_error_code hloop] at hcode
      cases hcode
    · cases hnever

theorem commitSettlement_ne_snapshotChanged {db : Database} {plan : SettlementPlan}
    {thrown : Thrown} (herror : commitSettlement db plan = .error thrown) :
    thrown.hasCode .settlementSnapshotChanged = false := by
  by_contra hcode
  rw [Bool.not_eq_false] at hcode
  rcases bind_eq_error.mp herror with hmissing | ⟨row, _, hrest⟩
  · obtain ⟨_, rfl⟩ := orThrow_eq_error.mp hmissing
    cases hcode
  · rcases bind_eq_error.mp hrest with hmoved | ⟨moved, _, hrest⟩
    · exact absurd (transition_error_code hmoved hcode) (by decide)
    · rcases bind_eq_error.mp hrest with hcomplete | ⟨_, _, hnever⟩
      · simp only [completeSettlementIntent] at hcomplete
        split at hcomplete
        · cases hcomplete
        · rcases bind_eq_error.mp hcomplete with hmissing | ⟨_, _, hrest⟩
          · obtain ⟨_, rfl⟩ := orThrow_eq_error.mp hmissing
            cases hcode
          · rcases bind_eq_error.mp hrest with hstatus | ⟨_, _, hnever⟩
            · obtain ⟨_, rfl⟩ := throwIf_eq_error.mp hstatus
              cases hcode
            · cases hnever
      · cases hnever

/-- While an intent is in flight the confirmed holdings are those of its payload.
Once its payout landed, the settlement transaction does not find them changed,
and every investment it settles has its line in a payload that was paid. -/
theorem holdings_frozen {first last : World} {events : List Event} (hinitial : Initial first)
    (hrun : GuardedRun Machine.step
      (fun world event => StartsConsidered world event ∧ KeepsHoldings world event)
      first events last) :
    (∀ intent, last.db.settlementIntent = some intent → intent.status.inFlight = true →
      holdings last.db = intentSnapshot intent.payload) ∧
    (∀ index service input distributed chain thrown,
      last.process index = .settleInvoice service input (.settle distributed) →
      (readSettlement service input distributed last.db chain).2 = .error thrown →
        thrown.hasCode .settlementSnapshotChanged = false) ∧
    (∀ index service input plan,
      last.process index = .settleInvoice service input (.commit plan) →
      (∀ thrown, commitSettlement last.db plan = .error thrown →
        thrown.hasCode .settlementSnapshotChanged = false) ∧
      ∃ call ∈ last.payouts, call.landed = true ∧
        ∃ payload, call.input = distributionInput payload ∧
          ∀ settled ∈ plan.investments, ∃ line ∈ payload.investments,
            line.id = settled.id ∧ line.investmentAmount = settled.investmentAmount) := by
  have hinvariant := frozenInvariant_of_run hinitial hrun
  refine ⟨fun intent hintent hflight => ?_, ?_, ?_⟩
  · have hstored := hinvariant.stored intent hintent
    have hopen : intent.status ≠ .completed := by
      rintro hcompleted
      rw [hcompleted] at hflight
      cases hflight
    exact hstored.frozen (hstored.funded_iff.mpr hopen)
  · intro index service input distributed chain thrown hprocess herror
    have hknows := hinvariant.knows index
    rw [hprocess] at hknows
    cases distributed with
    | none => exact hknows.2.elim
    | some distributed =>
        obtain ⟨_, ⟨intent, hintent, _, hpayload⟩, _⟩ := hknows
        by_contra hcode
        obtain ⟨hfunded, hchanged⟩ :=
          readSettlement_eq_snapshotChanged herror (by simpa using hcode)
        exact hchanged (hpayload ▸ (hinvariant.stored intent hintent).frozen hfunded)
  · intro index service input plan hprocess
    have hknows := hinvariant.knows index
    rw [hprocess] at hknows
    obtain ⟨_, intentId, payload, _, _, ⟨call, hcall, hlanded, hinput⟩, hsnapshot⟩ := hknows
    exact ⟨fun thrown => commitSettlement_ne_snapshotChanged, call, hcall, hlanded, payload,
      hinput, fun settled hmem => exists_line_of_snapshot_eq hsnapshot hmem⟩

/-! ## A payment confirmed between the payout and the settlement -/

def pendingHolding : Investment :=
  { soleHolding with
    id := 6
    investorId := 7
    investorWallet := some "GSECOND"
    investmentAmount := 400000
    status := .pending }

/-- A funded invoice whose second investment still waits for its payment. -/
def partlyConfirmed : Database :=
  { fundedDatabase with
    investments := [{ soleHolding with investmentAmount := 600000 }, pendingHolding] }

def secondPayment : Request :=
  .verifyPayment { investmentId := 6, stellarTxHash := "e5f6" }

def paymentReported : Environment := { matchedPayment := ⟨0, "GSECOND"⟩ }

/-- From the preparation to the recorded payout. -/
def payoutRecorded : List Event :=
  [⟨0, .start manualSettlement⟩, ⟨0, .advance {}⟩, ⟨0, .advance {}⟩,
    ⟨0, .advance { newId := 5 }⟩, ⟨0, .advance {}⟩,
    ⟨0, .advance (landedWith firstHash)⟩, ⟨0, .advance {}⟩]

def paymentVerified : List Event :=
  [⟨1, .start secondPayment⟩, ⟨1, .advance {}⟩, ⟨1, .advance paymentReported⟩,
    ⟨1, .advance {}⟩]

def failedWith (code : ErrorCode) : Process → Bool
  | .finished (some thrown) => thrown.hasCode code
  | _ => false

theorem lateConfirmation_changes_holdings :
    ∃ last, GuardedRun Machine.step StartsConsidered { db := partlyConfirmed }
        (payoutRecorded ++ paymentVerified ++ [⟨0, .advance {}⟩]) last ∧
      landedPayouts last = 1 ∧
      failedWith .settlementSnapshotChanged (last.process 0) = true ∧
      ∃ intent, last.db.settlementIntent = some intent ∧ intent.status.inFlight = true ∧
        holdings last.db ≠ intentSnapshot intent.payload := by
  have hexec : (execGuarded Machine.step StartsConsidered { db := partlyConfirmed }
      (payoutRecorded ++ paymentVerified ++ [⟨0, .advance {}⟩])).any (fun last =>
        landedPayouts last == 1 && failedWith .settlementSnapshotChanged (last.process 0) &&
          last.db.settlementIntent.any fun intent =>
            intent.status.inFlight && holdings last.db != intentSnapshot intent.payload) =
      true := by
    decide +kernel
  obtain ⟨last, hlast, hfacts⟩ := (Option.any_eq_true _ _).mp hexec
  simp only [Bool.and_eq_true, beq_iff_eq, Option.any_eq_true, bne_iff_ne, ne_eq] at hfacts
  obtain ⟨⟨hlanded, hfailed⟩, intent, hintent, hflight, hchanged⟩ := hfacts
  exact ⟨last, guardedRun_of_exec hlast, hlanded, hfailed, intent, hintent, hflight, hchanged⟩

/-- The same payment, confirmed before the preparation. -/
theorem earlyConfirmation_stays_frozen :
    ∃ last, GuardedRun Machine.step
        (fun world event => StartsConsidered world event ∧ KeepsHoldings world event)
        { db := partlyConfirmed } (paymentVerified ++ payoutRecorded ++ [⟨0, .advance {}⟩])
        last ∧
      ∀ intent, last.db.settlementIntent = some intent → intent.status.inFlight = true →
        holdings last.db = intentSnapshot intent.payload := by
  obtain ⟨last, hexec⟩ : ∃ last, execGuarded Machine.step
      (fun world event => StartsConsidered world event ∧ KeepsHoldings world event)
      { db := partlyConfirmed } (paymentVerified ++ payoutRecorded ++ [⟨0, .advance {}⟩]) =
        some last :=
    Option.isSome_iff_exists.mp (by decide +kernel)
  have hinitial : Initial { db := partlyConfirmed } :=
    ⟨rfl, rfl, fun _ => rfl, rfl, rfl, rfl⟩
  have hrun := guardedRun_of_exec hexec
  exact ⟨last, hrun, (holdings_frozen hinitial hrun).1⟩

end StellarSettle.FrozenHoldings
