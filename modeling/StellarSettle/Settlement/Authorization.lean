import StellarSettle.Settlement.SettleInvoice

/-!
# Who may settle

The authorisation rule is written twice.  The settlement transaction exempts
automated actors from the wallet comparison; the preparation of an intent, which
only runs with a distributor, does not.
-/

namespace StellarSettle.Authorization

open StellarSettle.Checks
open StellarSettle.DecimalJs
open StellarSettle.Entities
open StellarSettle.InvestorReturn
open StellarSettle.InvoiceLifecycle
open StellarSettle.PaymentDistributor
open StellarSettle.SettleInvoice
open StellarSettle.SettlementIntents

/-! ## Results that are not authorisation failures -/

section Forbidden

variable {α β : Type}

/-- The result is an error with code `FORBIDDEN`. -/
def isForbidden (result : Except Thrown α) : Bool :=
  match result with
  | .error thrown => thrown.hasCode .forbidden
  | .ok _ => false

@[simp]
theorem isForbidden_ok (value : α) : isForbidden (.ok value) = false := rfl

@[simp]
theorem isForbidden_error (thrown : Thrown) :
    isForbidden (.error thrown : Except Thrown α) = thrown.hasCode .forbidden := rfl

theorem isForbidden_bind {first : Except Thrown α} {rest : α → Except Thrown β}
    (hfirst : isForbidden first = false)
    (hrest : ∀ value, first = .ok value → isForbidden (rest value) = false) :
    isForbidden (first >>= rest) = false := by
  cases first with
  | error thrown => exact hfirst
  | ok value => exact hrest value rfl

/-- A continuation that never fails so leaves the decision to what precedes it. -/
theorem isForbidden_bind_eq {first : Except Thrown α} {rest : α → Except Thrown β}
    (hrest : ∀ value, isForbidden (rest value) = false) :
    isForbidden (first >>= rest) = isForbidden first := by
  cases first with
  | error thrown => rfl
  | ok value => exact hrest value

theorem isForbidden_throwIf {condition : Prop} [Decidable condition] {error : Thrown}
    (herror : error.hasCode .forbidden = false) :
    isForbidden (throwIf condition error) = false := by
  unfold throwIf
  split
  · exact herror
  · rfl

theorem isForbidden_orThrow {value : Option α} {error : Thrown}
    (herror : error.hasCode .forbidden = false) : isForbidden (orThrow value error) = false := by
  cases value with
  | none => exact herror
  | some found => rfl

theorem isForbidden_mapM {items : List α} {body : α → Except Thrown β}
    (hbody : ∀ item, isForbidden (body item) = false) : isForbidden (items.mapM body) = false := by
  cases hresult : items.mapM body with
  | ok values => rfl
  | error thrown =>
      obtain ⟨item, _, hitem⟩ := exists_of_mapM_eq_error hresult
      have hforbidden := hbody item
      rwa [hitem] at hforbidden

end Forbidden

theorem isForbidden_computeInvestorReturn (investedAmount totalFunded settledProceeds : ℤ) :
    isForbidden (computeInvestorReturn investedAmount totalFunded settledProceeds) = false :=
  isForbidden_bind (isForbidden_throwIf rfl) fun _ _ =>
    isForbidden_bind (isForbidden_throwIf rfl) fun _ _ =>
      isForbidden_bind (isForbidden_throwIf rfl) fun _ _ => rfl

theorem isForbidden_settlementIntentPayload (db : Database)
    (input : PrepareSettlementIntentInput) (investments : List Investment) :
    isForbidden (settlementIntentPayload db input investments) = false :=
  isForbidden_bind
    (isForbidden_mapM fun _ =>
      isForbidden_bind (isForbidden_computeInvestorReturn _ _ _) fun _ _ => rfl)
    fun _ _ => rfl

theorem isForbidden_settlementLoop (totalFundedScaled distributableScaled : ℤ)
    (investments : List Investment) (sumOfReturnsScaled : ℤ) (settled : List Investment) :
    isForbidden (settlementLoop totalFundedScaled distributableScaled investments
      sumOfReturnsScaled settled) = false := by
  induction investments generalizing sumOfReturnsScaled settled with
  | nil => rfl
  | cons investment rest ih =>
      exact isForbidden_bind (isForbidden_computeInvestorReturn _ _ _) fun _ _ => ih _ _

theorem isForbidden_distributePayouts (input : DistributePayoutsInput) (chain : ChainOutcome) :
    isForbidden (distributePayouts input chain).result = false := by
  have hcheck : isForbidden (checkPayouts input) = false :=
    isForbidden_bind (isForbidden_throwIf rfl) fun _ _ =>
      isForbidden_bind (isForbidden_throwIf rfl) fun _ _ => isForbidden_throwIf rfl
  cases hresult : (distributePayouts input chain).result with
  | ok hash => rfl
  | error thrown =>
      rcases distributePayouts_eq_error hresult with hrejected | ⟨raised, rfl⟩
      · rwa [hrejected] at hcheck
      · rfl

theorem isForbidden_claimSettlementIntent (db : Database) (intentId : Uuid) :
    isForbidden (claimSettlementIntent db intentId) = false :=
  isForbidden_bind (isForbidden_orThrow rfl) fun _ _ =>
    isForbidden_bind (isForbidden_throwIf rfl) fun _ _ => rfl

theorem isForbidden_markSettlementDistributed (db : Database) (intentId : Uuid)
    (transactionHash : TransactionHash) :
    isForbidden (markSettlementDistributed db intentId transactionHash) = false :=
  isForbidden_bind (isForbidden_orThrow rfl) fun _ _ =>
    isForbidden_bind (isForbidden_throwIf rfl) fun _ _ => rfl

theorem isForbidden_transition (intentInFlight : Bool) (row entity : Invoice)
    (target : InvoiceStatus) (options : TransitionOptions) :
    isForbidden (transition intentInFlight row entity target options) = false := by
  cases hresult : transition intentInFlight row entity target options with
  | ok moved => rfl
  | error thrown =>
      rw [isForbidden_error]
      by_contra hforbidden
      have hmem := transition_error_code hresult (by simpa using hforbidden)
      exact absurd hmem (by decide)

theorem isForbidden_commitSettlement (db : Database) (plan : SettlementPlan) :
    isForbidden (commitSettlement db plan) = false := by
  refine isForbidden_bind (isForbidden_orThrow rfl) fun _ _ =>
    isForbidden_bind ?_ fun _ _ => isForbidden_bind ?_ fun _ _ => rfl
  · exact isForbidden_transition _ _ _ _ _
  · unfold completeSettlementIntent
    split
    · rfl
    · exact isForbidden_bind (isForbidden_orThrow rfl) fun _ _ =>
        isForbidden_bind (isForbidden_throwIf rfl) fun _ _ => rfl

theorem isForbidden_directDistribution (service : SettlementService)
    (transactionHash : Option TransactionHash)
    {payoutInput : PaymentDistributorSettlementConfig → Except Thrown DistributePayoutsInput}
    (hinput : ∀ config, isForbidden (payoutInput config) = false) (chain : ChainOutcome) :
    isForbidden (directDistribution service transactionHash payoutInput chain).2 = false := by
  unfold directDistribution
  split
  · split
    · rfl
    · rename_i config _
      split
      · rename_i thrown hthrown
        have hforbidden := hinput config
        rwa [hthrown] at hforbidden
      · rename_i arguments _
        have hforbidden := isForbidden_distributePayouts arguments chain
        dsimp only
        cases hresult : (distributePayouts arguments chain).result with
        | error thrown => rwa [hresult] at hforbidden
        | ok hash => rfl
  · rfl

/-! ## The two copies of the rule -/

/-- The rule of the settlement transaction. -/
def Unauthorized (input : SettleInvoiceInput) (db : Database) : Prop :=
  ∃ invoice, db.invoice = some invoice ∧
    (sellerMismatch input.sellerId invoice = true ∨
      (input.authorizedForAutomatedSettlement = false ∧
        walletMismatch db input.actorWallet invoice = true))

/-- The rule of the preparation. -/
def PrepareUnauthorized (sellerId : Option Uuid) (actorWallet : String) (db : Database) : Prop :=
  ∃ invoice, db.invoice = some invoice ∧
    (sellerMismatch sellerId invoice = true ∨ walletMismatch db actorWallet invoice = true)

theorem isForbidden_checkSettlement_iff {input : SettleInvoiceInput}
    (distributed : Option DistributedIntent) {db : Database} :
    isForbidden (checkSettlement input distributed db) = true ↔ Unauthorized input db := by
  unfold checkSettlement Unauthorized
  cases hinvoice : db.invoice with
  | none => simp [Thrown.hasCode, invoiceNotFound]
  | some invoice =>
      rw [orThrow_some, ok_bind]
      by_cases hseller : sellerMismatch input.sellerId invoice = true
      · rw [throwIf_pos hseller]
        simp [Thrown.hasCode, forbiddenSeller, hseller]
      · rw [throwIf_neg hseller, ok_bind]
        by_cases hwallet : (!input.authorizedForAutomatedSettlement &&
            walletMismatch db input.actorWallet invoice) = true
        · rw [throwIf_pos hwallet]
          simp only [Bool.and_eq_true, Bool.not_eq_true'] at hwallet
          simp [Thrown.hasCode, forbiddenWallet, hwallet]
        · have hrest : isForbidden (do
              throwIf (invoice.status = .settled) (.service invoiceAlreadySettled)
              throwIf (invoice.status ≠ .funded) (.service (invalidInvoiceStatus invoice.status))
              let investments := confirmedInvestments db.investments
              throwIf (investments = []) (.service noConfirmedInvestments)
              checkSnapshot distributed investments
              return (invoice, investments)) = false := by
            refine isForbidden_bind (isForbidden_throwIf rfl) fun _ _ =>
              isForbidden_bind (isForbidden_throwIf rfl) fun _ _ =>
                isForbidden_bind (isForbidden_throwIf rfl) fun _ _ =>
                  isForbidden_bind ?_ fun _ _ => rfl
            unfold checkSnapshot
            split
            · rfl
            · exact isForbidden_throwIf rfl
          rw [throwIf_neg hwallet, ok_bind, hrest]
          simp only [Bool.and_eq_true, Bool.not_eq_true', not_and] at hwallet
          simp only [Bool.false_eq_true, Option.some.injEq, exists_eq_left', false_iff, not_or,
            not_and]
          exact ⟨hseller, hwallet⟩

theorem isForbidden_readSettlementIntent_iff {db : Database}
    {input : PrepareSettlementIntentInput} :
    isForbidden (readSettlementIntent db input) = true ↔
      PrepareUnauthorized input.sellerId input.actorWallet db := by
  unfold readSettlementIntent PrepareUnauthorized
  cases hinvoice : db.invoice with
  | none => simp [Thrown.hasCode, invoiceNotFound]
  | some invoice =>
      rw [orThrow_some, ok_bind]
      by_cases hseller : sellerMismatch input.sellerId invoice = true
      · rw [throwIf_pos hseller]
        simp [Thrown.hasCode, forbiddenSeller, hseller]
      · rw [throwIf_neg hseller, ok_bind]
        by_cases hwallet : walletMismatch db input.actorWallet invoice = true
        · rw [throwIf_pos hwallet]
          simp [Thrown.hasCode, forbiddenWallet, hwallet]
        · rw [throwIf_neg hwallet, ok_bind]
          simp only [Option.some.injEq, exists_eq_left', hseller, hwallet]
          rw [Bool.false_eq_true, or_self, iff_false, Bool.not_eq_true]
          refine isForbidden_bind (isForbidden_throwIf ?_) fun _ _ => ?_
          · simp only [Thrown.hasCode, cannotSettle]
            split <;> rfl
          · split
            · exact isForbidden_bind (isForbidden_throwIf rfl) fun _ _ => rfl
            · exact isForbidden_bind (isForbidden_throwIf rfl) fun _ _ =>
                isForbidden_bind (isForbidden_settlementIntentPayload _ _ _) fun _ _ => rfl

theorem isForbidden_prepareSettlementIntent_iff {db : Database} {id : Uuid}
    {input : PrepareSettlementIntentInput} (hmin : 0 ≤ input.feeBps)
    (hmax : input.feeBps ≤ 10000) :
    isForbidden (prepareSettlementIntent db id input) = true ↔
      PrepareUnauthorized input.sellerId input.actorWallet db := by
  rw [← isForbidden_readSettlementIntent_iff, prepareSettlementIntent, checkDistributorFee,
    throwIf_neg (by omega), ok_bind, isForbidden_bind_eq]
  intro found
  cases found with
  | existing intent => rfl
  | fresh payload =>
      exact isForbidden_bind (isForbidden_bind (isForbidden_throwIf rfl) fun _ _ => rfl)
        fun _ _ => isForbidden_bind (isForbidden_orThrow rfl) fun _ _ => rfl

theorem Unauthorized.prepare {input : SettleInvoiceInput} {db : Database}
    (hunauthorized : Unauthorized input db) :
    PrepareUnauthorized input.sellerId input.actorWallet db := by
  obtain ⟨invoice, hinvoice, hseller | ⟨_, hwallet⟩⟩ := hunauthorized
  · exact ⟨invoice, hinvoice, .inl hseller⟩
  · exact ⟨invoice, hinvoice, .inr hwallet⟩

/-! ## The decision of a whole call -/

theorem isForbidden_readSettlement_iff (service : SettlementService)
    {input : SettleInvoiceInput} (distributed : Option DistributedIntent) {db : Database}
    (chain : ChainOutcome) :
    isForbidden (readSettlement service input distributed db chain).2 = true ↔
      Unauthorized input db := by
  rw [← isForbidden_checkSettlement_iff distributed]
  unfold readSettlement
  split
  · rename_i thrown hcheck
    rw [hcheck]
    exact Iff.rfl
  · rename_i invoice investments hcheck
    rw [hcheck, isForbidden_ok, Bool.false_eq_true, iff_false, Bool.not_eq_true]
    refine isForbidden_bind (isForbidden_directDistribution _ _ (fun _ => ?_) _) fun _ _ =>
      isForbidden_bind (isForbidden_settlementLoop _ _ _ _ _) fun _ _ => rfl
    exact isForbidden_bind
      (isForbidden_mapM fun _ =>
        isForbidden_bind (isForbidden_computeInvestorReturn _ _ _) fun _ _ => rfl)
      fun _ _ => rfl

theorem isForbidden_settlementTransaction_iff {service : SettlementService}
    {input : SettleInvoiceInput} {distributed : Option DistributedIntent} {db : Database}
    {chain : ChainOutcome} :
    isForbidden (settlementTransaction service input distributed db chain).result = true ↔
      Unauthorized input db := by
  rw [← isForbidden_readSettlement_iff service distributed chain]
  unfold settlementTransaction
  rcases readSettlement service input distributed db chain with ⟨payouts, thrown | plan⟩
  · exact Iff.rfl
  · have hcommit := isForbidden_commitSettlement db plan
    dsimp only
    cases hresult : commitSettlement db plan with
    | error thrown =>
        rw [hresult] at hcommit
        simpa using hcommit
    | ok after => simp

/-- Past the preparation, no error of the intent handling is an authorisation
failure of its own. -/
theorem unauthorized_of_settleIntent {service : SettlementService} {input : SettleInvoiceInput}
    {environment : SettleEnvironment} {prepared : Database} {intent : SettlementIntent}
    (hforbidden :
      isForbidden (settleIntent service input environment prepared intent).result = true) :
    Unauthorized input prepared := by
  have hmoved : ∀ stored : Option SettlementIntent, ∀ distributed : Option DistributedIntent,
      isForbidden (settlementTransaction service input distributed
        { prepared with settlementIntent := stored } environment.directPayout).result = true →
        Unauthorized input prepared :=
    fun stored _ htransaction => by
      obtain ⟨invoice, hinvoice, hmismatch⟩ :=
        isForbidden_settlementTransaction_iff.mp htransaction
      exact ⟨invoice, hinvoice, hmismatch⟩
  revert hforbidden
  unfold settleIntent payoutRoute
  cases intent.status with
  | submitting => simp [Thrown.hasCode, reconciliationRequired]
  | completed => simp [Thrown.hasCode, reconciliationRequired]
  | distributed =>
      cases intent.transactionHash with
      | none => simp [Thrown.hasCode, reconciliationRequired]
      | some transactionHash => exact hmoved prepared.settlementIntent _
  | prepared =>
      dsimp only
      have hclaim := isForbidden_claimSettlementIntent prepared intent.id
      cases hclaimed : claimSettlementIntent prepared intent.id with
      | error thrown =>
          rw [hclaimed, isForbidden_error] at hclaim
          simp [hclaim]
      | ok claimed =>
          obtain ⟨_, _, _, _, rfl⟩ := claimSettlementIntent_eq_ok.mp hclaimed
          unfold settleClaimedIntent
          dsimp only
          have hpayout := isForbidden_distributePayouts (distributionInput intent.payload)
            environment.payout
          cases hresult : (distributePayouts (distributionInput intent.payload)
              environment.payout).result with
          | error thrown =>
              rw [hresult, isForbidden_error] at hpayout
              simp [hpayout]
          | ok transactionHash =>
              dsimp only
              split
              · rename_i thrown hmarked
                have hmark := congrArg isForbidden hmarked
                rw [isForbidden_markSettlementDistributed, isForbidden_error] at hmark
                simp [← hmark]
              · rename_i marked hmarked
                obtain ⟨_, _, _, _, rfl⟩ := markSettlementDistributed_eq_ok.mp hmarked
                exact hmoved _ _

theorem enterSettlement_eq_error {service : SettlementService} {input : SettleInvoiceInput}
    (hproceeds : ¬0 < input.proceeds) :
    enterSettlement service input = .error (.service invalidProceeds) := by
  rw [enterSettlement,
    throwIf_pos (by rcases lt_trichotomy input.proceeds 0 with h | h | h <;> tauto)]
  rfl

theorem enterSettlement_unconfigured {input : SettleInvoiceInput}
    (config : Option PaymentDistributorSettlementConfig) (hproceeds : 0 < input.proceeds) :
    enterSettlement ⟨false, config⟩ input = .ok none := by
  rw [enterSettlement, throwIf_neg (by rintro (h | h) <;> linarith)]
  rfl

theorem enterSettlement_configured {input : SettleInvoiceInput}
    (config : PaymentDistributorSettlementConfig) (hproceeds : 0 < input.proceeds) :
    enterSettlement ⟨true, some config⟩ input = .ok (some (input.prepareInput config)) := by
  rw [enterSettlement, throwIf_neg (by rintro (h | h) <;> linarith)]
  rfl

/-- Without a distributor only the settlement transaction decides. -/
theorem isForbidden_unconfigured_iff (input : SettleInvoiceInput)
    (environment : SettleEnvironment) (db : Database)
    (config : Option PaymentDistributorSettlementConfig) :
    isForbidden (settleInvoice ⟨false, config⟩ input environment db).result = true ↔
      0 < input.proceeds ∧ Unauthorized input db := by
  unfold settleInvoice
  by_cases hproceeds : 0 < input.proceeds
  · rw [enterSettlement_unconfigured config hproceeds]
    simp only [hproceeds, true_and]
    exact isForbidden_settlementTransaction_iff
  · rw [enterSettlement_eq_error hproceeds]
    simp [hproceeds, Thrown.hasCode, invalidProceeds]

/-- With a distributor the preparation decides first. -/
theorem isForbidden_configured_iff (input : SettleInvoiceInput)
    (environment : SettleEnvironment) (db : Database)
    (config : PaymentDistributorSettlementConfig) :
    isForbidden (settleInvoice ⟨true, some config⟩ input environment db).result = true ↔
      0 < input.proceeds ∧ PrepareUnauthorized input.sellerId input.actorWallet db := by
  unfold settleInvoice
  by_cases hproceeds : 0 < input.proceeds
  · have hprepared :
        isForbidden (prepareSettlementIntent db environment.intentId
          (input.prepareInput config)) = true ↔
            PrepareUnauthorized input.sellerId input.actorWallet db :=
      isForbidden_prepareSettlementIntent_iff config.feeBps_nonneg config.feeBps_le
    rw [enterSettlement_configured config hproceeds]
    simp only [hproceeds, true_and]
    rw [← hprepared]
    cases hprepare : prepareSettlementIntent db environment.intentId
        (input.prepareInput config) with
    | error thrown => exact Iff.rfl
    | ok stored =>
        obtain ⟨prepared, intent⟩ := stored
        obtain rfl := prepareSettlementIntent_stored hprepare
        rw [hprepare] at hprepared
        refine ⟨fun hforbidden => hprepared.mpr ?_, fun hnever => absurd hnever (by simp)⟩
        exact (unauthorized_of_settleIntent hforbidden).prepare
  · rw [enterSettlement_eq_error hproceeds]
    simp [hproceeds, Thrown.hasCode, invalidProceeds]

/-- The seller id is compared first in both configurations. -/
theorem settleInvoice_of_sellerMismatch {input : SettleInvoiceInput}
    {environment : SettleEnvironment} {db : Database} {invoice : Invoice}
    (service : SettlementService)
    (hservice : service.paymentDistributor = true → service.distributorConfig ≠ none)
    (hproceeds : 0 < input.proceeds) (hinvoice : db.invoice = some invoice)
    (hseller : sellerMismatch input.sellerId invoice = true) :
    (settleInvoice service input environment db).result =
      .error (.service forbiddenSeller) := by
  obtain ⟨paymentDistributor, distributorConfig⟩ := service
  unfold settleInvoice
  cases paymentDistributor with
  | false =>
      rw [enterSettlement_unconfigured distributorConfig hproceeds]
      have hcheck : checkSettlement input none db = .error (.service forbiddenSeller) := by
        rw [checkSettlement, hinvoice, orThrow_some, ok_bind, throwIf_pos hseller]
        rfl
      simp [settlementTransaction, readSettlement, hcheck]
  | true =>
      cases distributorConfig with
      | none => exact absurd rfl (hservice rfl)
      | some config =>
          rw [enterSettlement_configured config hproceeds]
          have hread : readSettlementIntent db (input.prepareInput config) =
              .error (.service forbiddenSeller) := by
            rw [readSettlementIntent, hinvoice, orThrow_some, ok_bind]
            rw [throwIf_pos (show sellerMismatch (input.prepareInput config).sellerId invoice =
              true from hseller)]
            rfl
          have hprepare : prepareSettlementIntent db environment.intentId
              (input.prepareInput config) = .error (.service forbiddenSeller) := by
            have hmin := config.feeBps_nonneg
            have hmax := config.feeBps_le
            rw [prepareSettlementIntent, checkDistributorFee,
              throwIf_neg (by simp only [SettleInvoiceInput.prepareInput]; omega), ok_bind, hread,
              error_bind]
          simp [hprepare]

/-- Both configurations take the same decision, and neither rejects an automated
actor for its wallet. -/
def SameDecision (config : PaymentDistributorSettlementConfig)
    (unused : Option PaymentDistributorSettlementConfig) (input : SettleInvoiceInput)
    (environment : SettleEnvironment) (db : Database) : Prop :=
  let configured := (settleInvoice ⟨true, some config⟩ input environment db).result
  let unconfigured := (settleInvoice ⟨false, unused⟩ input environment db).result
  isForbidden configured = isForbidden unconfigured ∧
    (input.authorizedForAutomatedSettlement = true →
      configured ≠ .error (.service forbiddenWallet) ∧
        unconfigured ≠ .error (.service forbiddenWallet))

/-- The decision depends on the distributor exactly for automated actors whose
wallet text differs from the seller's. -/
theorem sameDecision_iff (config : PaymentDistributorSettlementConfig)
    (unused : Option PaymentDistributorSettlementConfig) (input : SettleInvoiceInput)
    (environment : SettleEnvironment) (db : Database) :
    SameDecision config unused input environment db ↔
      ¬(0 < input.proceeds ∧ input.authorizedForAutomatedSettlement = true ∧
        ∃ invoice, db.invoice = some invoice ∧ sellerMismatch input.sellerId invoice = false ∧
          walletMismatch db input.actorWallet invoice = true) := by
  have hconfigured := isForbidden_configured_iff input environment db config
  have hunconfigured := isForbidden_unconfigured_iff input environment db unused
  constructor
  · rintro ⟨hequal, _⟩ ⟨hproceeds, hautomated, invoice, hinvoice, hseller, hwallet⟩
    have hforbidden := hconfigured.mpr ⟨hproceeds, invoice, hinvoice, .inr hwallet⟩
    rw [hequal] at hforbidden
    obtain ⟨_, found, hfound, hmismatch | ⟨hmanual, _⟩⟩ := hunconfigured.mp hforbidden
    · obtain rfl := Option.some.inj (hinvoice.symm.trans hfound)
      rw [hseller] at hmismatch
      cases hmismatch
    · rw [hautomated] at hmanual
      cases hmanual
  · intro hnever
    -- Outside the exempted case a forbidden call with an automated actor has the wrong seller.
    have hseller : ∀ service : SettlementService,
        (service.paymentDistributor = true → service.distributorConfig ≠ none) →
        0 < input.proceeds → input.authorizedForAutomatedSettlement = true →
        PrepareUnauthorized input.sellerId input.actorWallet db →
        (settleInvoice service input environment db).result =
          .error (.service forbiddenSeller) := by
      intro service hservice hproceeds hautomated ⟨invoice, hinvoice, hmismatch⟩
      have hsellerMismatch : sellerMismatch input.sellerId invoice = true := by
        by_contra hsame
        refine hnever ⟨hproceeds, hautomated, invoice, hinvoice, by simpa using hsame, ?_⟩
        exact hmismatch.resolve_left hsame
      exact settleInvoice_of_sellerMismatch service hservice hproceeds hinvoice hsellerMismatch
    refine ⟨?_, fun hautomated => ⟨fun hwallet => ?_, fun hwallet => ?_⟩⟩
    · rw [Bool.eq_iff_iff, hconfigured, hunconfigured]
      refine and_congr_right fun hproceeds => ⟨?_, Unauthorized.prepare⟩
      rintro ⟨invoice, hinvoice, hmismatch | hwallet⟩
      · exact ⟨invoice, hinvoice, .inl hmismatch⟩
      · by_cases hmismatch : sellerMismatch input.sellerId invoice = true
        · exact ⟨invoice, hinvoice, .inl hmismatch⟩
        · refine ⟨invoice, hinvoice, .inr ⟨?_, hwallet⟩⟩
          by_contra hautomated
          exact hnever ⟨hproceeds, by simpa using hautomated, invoice, hinvoice,
            by simpa using hmismatch, hwallet⟩
    · obtain ⟨hproceeds, hunauthorized⟩ := hconfigured.mp (by rw [hwallet]; rfl)
      have hresult := hseller ⟨true, some config⟩ (by simp) hproceeds hautomated hunauthorized
      rw [hwallet] at hresult
      exact absurd hresult (by decide)
    · obtain ⟨hproceeds, hunauthorized⟩ := hunconfigured.mp (by rw [hwallet]; rfl)
      have hresult := hseller ⟨false, unused⟩ (by simp) hproceeds hautomated
        hunauthorized.prepare
      rw [hwallet] at hresult
      exact absurd hresult (by decide)

/-! ## The maturity job -/

/-- What the maturity job passes. -/
def maturityInput : SettleInvoiceInput :=
  { proceeds := 100, actorWallet := "system:invoice-maturity-job"
    trigger := .reason .maturitySettled }

def failedPayout : ChainOutcome := .failed ⟨false, "simulation failed"⟩

/-- The job settles without a distributor and is forbidden with one. -/
theorem maturityJob_forbidden_with_distributor :
    isForbidden (settleInvoice ⟨true, some standardFee⟩ maturityInput
        ⟨5, failedPayout, failedPayout⟩ fundedDatabase).result = true ∧
      (settleInvoice ⟨false, none⟩ maturityInput
        ⟨5, failedPayout, failedPayout⟩ fundedDatabase).result.isOk = true := by
  decide +kernel

end StellarSettle.Authorization
