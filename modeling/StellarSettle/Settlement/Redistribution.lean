import StellarSettle.Settlement.SettleInvoice

/-!
# Settling with an existing settlement hash

A `settlementTransactionHash` keeps the settlement transaction from submitting a
payout.  The intent handling in front of it does not look at the hash: it submits
a payout whenever it can claim an intent.
-/

namespace StellarSettle.Redistribution

open StellarSettle.Checks
open StellarSettle.DecimalJs
open StellarSettle.Entities
open StellarSettle.FloorShare
open StellarSettle.InvestorReturn
open StellarSettle.PaymentDistributor
open StellarSettle.SettleInvoice
open StellarSettle.SettlementIntents

/-- The stored state lets this preparation end with a `PREPARED` intent: a stored
one with the same parameters, or holdings from which a new one can be computed. -/
def Claimable (db : Database) (input : PrepareSettlementIntentInput) : Prop :=
  ∃ invoice, db.invoice = some invoice ∧ invoice.status = .funded ∧
    sellerMismatch input.sellerId invoice = false ∧
    walletMismatch db input.actorWallet invoice = false ∧
    match db.settlementIntent with
    | some existing =>
        existing.status = .prepared ∧ samePayload existing.payload input = true
    | none =>
        confirmedInvestments db.investments ≠ [] ∧
          0 < totalFundedScaled (confirmedInvestments db.investments) ∧
          ∀ investment ∈ confirmedInvestments db.investments, 0 ≤ investment.investmentAmount

theorem settlementIntentPayload_isSome_iff (db : Database)
    {input : PrepareSettlementIntentInput} {investments : List Investment}
    (hne : investments ≠ [])
    (hdistributable : 0 ≤ input.proceeds - protocolFee input.proceeds input.feeBps) :
    (∃ payload, settlementIntentPayload db input investments = .ok payload) ↔
      0 < totalFundedScaled investments ∧
        ∀ investment ∈ investments, 0 ≤ investment.investmentAmount := by
  constructor
  · rintro ⟨payload, hpayload⟩
    obtain ⟨first, hfirst⟩ := List.exists_mem_of_ne_nil investments hne
    exact ⟨(nonneg_of_settlementIntentPayload_eq_ok hpayload hfirst).1, fun investment hmem =>
      (nonneg_of_settlementIntentPayload_eq_ok hpayload hmem).2.1⟩
  · rintro ⟨htotal, hnonneg⟩
    exact exists_settlementIntentPayload db htotal hnonneg hdistributable

/-- The preparation ends with a `PREPARED` intent exactly when the state is
claimable. -/
theorem prepared_iff_claimable (db : Database) (id : Uuid)
    (input : PrepareSettlementIntentInput) (hmin : 0 ≤ input.feeBps)
    (hmax : input.feeBps ≤ 10000) (hproceeds : 0 ≤ input.proceeds) :
    (∃ prepared intent, prepareSettlementIntent db id input = .ok (prepared, intent) ∧
      intent.status = .prepared) ↔ Claimable db input := by
  have hdistributable : 0 ≤ input.proceeds - protocolFee input.proceeds input.feeBps :=
    sub_nonneg.mpr (protocolFee_le hproceeds hmin hmax)
  rw [Claimable]
  constructor
  · rintro ⟨prepared, intent, hok, hstatus⟩
    obtain ⟨_, _, invoice, hinvoice, hseller, hwallet, hfunded,
      ⟨hexisting, hsame⟩ | ⟨hnone, hne, hpayload⟩⟩ := prepareSettlementIntent_eq_ok.mp hok
    · refine ⟨invoice, hinvoice, hfunded, hseller, hwallet, ?_⟩
      rw [hexisting]
      exact ⟨hstatus, hsame⟩
    · obtain ⟨payload, hpayload, _⟩ := hpayload
      refine ⟨invoice, hinvoice, hfunded, hseller, hwallet, ?_⟩
      rw [hnone]
      exact ⟨hne, (settlementIntentPayload_isSome_iff db hne hdistributable).mp
        ⟨payload, hpayload⟩⟩
  · rintro ⟨invoice, hinvoice, hfunded, hseller, hwallet, hstored⟩
    cases hintent : db.settlementIntent with
    | some existing =>
        rw [hintent] at hstored
        exact ⟨_, existing, prepareSettlementIntent_eq_ok.mpr ⟨⟨hmin, hmax⟩, rfl, invoice,
          hinvoice, hseller, hwallet, hfunded, .inl ⟨hintent, hstored.2⟩⟩, hstored.1⟩
    | none =>
        rw [hintent] at hstored
        obtain ⟨hne, husable⟩ := hstored
        obtain ⟨payload, hpayload⟩ :=
          (settlementIntentPayload_isSome_iff db hne hdistributable).mpr husable
        exact ⟨_, _, prepareSettlementIntent_eq_ok.mpr ⟨⟨hmin, hmax⟩, rfl, invoice, hinvoice,
          hseller, hwallet, hfunded, .inr ⟨hintent, hne, payload, hpayload, rfl⟩⟩, rfl⟩

theorem settlementTransaction_payouts {service : SettlementService}
    {input : SettleInvoiceInput} {distributed : Option DistributedIntent} (db : Database)
    (chain : ChainOutcome) (hnone : NoDirectPayout service input distributed) :
    (settlementTransaction service input distributed db chain).payouts = [] := by
  have hread := readSettlement_payouts db chain hnone
  unfold settlementTransaction
  rcases hpair : readSettlement service input distributed db chain with ⟨payouts, thrown | plan⟩
  · rwa [hpair] at hread
  · dsimp only
    split <;> rwa [hpair] at hread

theorem noDirectPayout_of_hash {service : SettlementService} {input : SettleInvoiceInput}
    (distributed : Option DistributedIntent)
    (hhash : input.settlementTransactionHash ≠ none) :
    NoDirectPayout service input distributed := by
  right
  cases hknown : input.settlementTransactionHash with
  | none => exact absurd hknown hhash
  | some transactionHash => simp

/-- The intent handling submits a payout exactly for a `PREPARED` intent. -/
theorem settleIntent_payouts_eq_nil_iff {service : SettlementService}
    {input : SettleInvoiceInput} {environment : SettleEnvironment} {prepared : Database}
    {intent : SettlementIntent} (hstored : prepared.settlementIntent = some intent)
    (hhash : input.settlementTransactionHash ≠ none) :
    (settleIntent service input environment prepared intent).payouts = [] ↔
      intent.status ≠ .prepared := by
  unfold settleIntent payoutRoute
  cases hstatus : intent.status with
  | submitting => simp
  | completed => simp
  | distributed =>
      cases intent.transactionHash with
      | none => simp
      | some transactionHash =>
          simp [settlementTransaction_payouts _ _ (noDirectPayout_of_hash _ hhash)]
  | prepared =>
      have hclaim := claimSettlementIntent_eq_ok.mpr ⟨intent, hstored, rfl, hstatus, rfl⟩
      simp only [hclaim, settleClaimedIntent]
      split
      · simp
      · split <;> simp

/-- The call submits a payout: a distributor is configured and finds an intent to
claim. -/
def PayoutDue (service : SettlementService) (input : SettleInvoiceInput) (db : Database) :
    Prop :=
  0 < input.proceeds ∧ service.paymentDistributor = true ∧
    ∃ config, service.distributorConfig = some config ∧ Claimable db (input.prepareInput config)

/-- With a settlement hash, `settleInvoice` submits no payout exactly when none
is due. -/
theorem payouts_eq_nil_iff_of_settlementTransactionHash (service : SettlementService)
    (input : SettleInvoiceInput) (environment : SettleEnvironment) (db : Database)
    (hhash : input.settlementTransactionHash ≠ none) :
    (settleInvoice service input environment db).payouts = [] ↔
      ¬PayoutDue service input db := by
  unfold settleInvoice PayoutDue enterSettlement
  by_cases hproceeds : 0 < input.proceeds
  · rw [throwIf_neg (by rintro (h | h) <;> linarith), ok_bind]
    cases hdistributor : service.paymentDistributor with
    | false =>
        simp [settlementTransaction_payouts db environment.directPayout
          (noDirectPayout_of_hash none hhash), pure, Except.pure]
    | true =>
        cases hconfig : service.distributorConfig with
        | none => simp
        | some config =>
            have hscaled : 0 ≤ (input.prepareInput config).proceeds :=
              toFixed4_nonneg hproceeds.le
            have hclaimable := prepared_iff_claimable db environment.intentId
              (input.prepareInput config) config.feeBps_nonneg config.feeBps_le hscaled
            simp only [if_true, orThrow_some, ok_bind, pure, Except.pure, hproceeds, true_and,
              Option.some.injEq, exists_eq_left', ← hclaimable]
            cases hprepare : prepareSettlementIntent db environment.intentId
                (input.prepareInput config) with
            | error thrown => simp
            | ok stored =>
                obtain ⟨prepared, intent⟩ := stored
                have hstored : prepared.settlementIntent = some intent := by
                  rw [prepareSettlementIntent_stored hprepare]
                simp [settleIntent_payouts_eq_nil_iff hstored hhash]
  · rw [throwIf_pos (by rcases lt_trichotomy input.proceeds 0 with h | h | h <;> tauto)]
    simp [hproceeds]

/-! ## A payout despite the hash -/

def settledOnChainInput : SettleInvoiceInput :=
  { proceeds := 100, actorWallet := "GSELLER", settlementTransactionHash := some firstHash }

/-- The call names a settlement that is already on chain, and its payout lands. -/
theorem settledOnChain_paid_again :
    (settleInvoice ⟨true, some standardFee⟩ settledOnChainInput
      ⟨5, .confirmed secondHash, .confirmed secondHash⟩ fundedDatabase).payouts.map
        PayoutCall.landed = [true] := by
  decide +kernel

/-- Without a distributor nothing is paid again. -/
theorem settledOnChain_not_paid_without_distributor :
    (settleInvoice ⟨false, some standardFee⟩ settledOnChainInput
      ⟨5, .confirmed secondHash, .confirmed secondHash⟩ fundedDatabase).payouts = [] :=
  (payouts_eq_nil_iff_of_settlementTransactionHash ⟨false, some standardFee⟩
    settledOnChainInput ⟨5, .confirmed secondHash, .confirmed secondHash⟩ fundedDatabase
    (by decide)).mpr fun hdue => Bool.false_ne_true hdue.2.1

end StellarSettle.Redistribution
