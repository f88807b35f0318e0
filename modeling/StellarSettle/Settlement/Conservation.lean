import StellarSettle.Settlement.SettleInvoice

/-!
# Conservation of the proceeds

The returns are computed three times: by `calculateInvestorReturns`, by the
settlement transaction and for the payload of an intent.  The three agree on
every list of holdings in every order, and fee, returns and remainder add up to
the proceeds.
-/

namespace StellarSettle.Conservation

open StellarSettle.Checks
open StellarSettle.DecimalJs
open StellarSettle.Entities
open StellarSettle.FloorShare
open StellarSettle.InvestorReturn
open StellarSettle.PaymentDistributor
open StellarSettle.SettleInvoice
open StellarSettle.SettlementIntents

/-- The argument of `calculateInvestorReturns` for a stored investment. -/
def investmentShare (investment : Investment) : InvestmentShare :=
  ⟨investment.id, investment.investorId, investment.investmentAmount⟩

section Holdings

variable {investments : List Investment} {proceeds feeBps : ℤ}

/-- Positive holdings of a positive total that decimal.js adds exactly. -/
structure Holdings (investments : List Investment) : Prop where
  nonempty : investments ≠ []
  positive : ∀ investment ∈ investments, 0 < investment.investmentAmount
  exact : weightSum Investment.investmentAmount investments < 10 ^ precision

namespace Holdings

theorem perm {others : List Investment} (hholdings : Holdings investments)
    (hperm : others.Perm investments) : Holdings others where
  nonempty := fun hnil => hholdings.nonempty (by simpa [hnil] using hperm.symm)
  positive := fun investment hmem => hholdings.positive investment (hperm.mem_iff.mp hmem)
  exact := by
    rw [weightSum_perm _ hperm]
    exact hholdings.exact

theorem total_pos (hholdings : Holdings investments) :
    0 < weightSum Investment.investmentAmount investments :=
  weightSum_pos hholdings.nonempty hholdings.positive

theorem nonneg (hholdings : Holdings investments) :
    ∀ investment ∈ investments, 0 ≤ investment.investmentAmount :=
  fun investment hmem => (hholdings.positive investment hmem).le

theorem totalFundedScaled_eq (hholdings : Holdings investments) :
    totalFundedScaled investments = weightSum Investment.investmentAmount investments :=
  toFixed4_sumAmounts hholdings.nonneg hholdings.exact

end Holdings

theorem distributable_nonneg (hproceeds : 0 < proceeds) (hmin : 0 ≤ feeBps)
    (hmax : feeBps ≤ 10000) : 0 ≤ proceeds - protocolFee proceeds feeBps :=
  sub_nonneg.mpr (protocolFee_le hproceeds.le hmin hmax)

/-- The settlement transaction settles every holding at its floored share. -/
theorem readSettlement_of_holdings {service : SettlementService} {input : SettleInvoiceInput}
    {distributed : Option DistributedIntent} {db : Database} {invoice : Invoice}
    (chain : ChainOutcome) (hholdings : Holdings investments)
    (hproceeds : input.proceeds = ofUnits proceeds)
    (hdistributable : 0 ≤ proceeds - settlementFee service proceeds)
    (hcheck : checkSettlement input distributed db = .ok (invoice, investments))
    (hnone : NoDirectPayout service input distributed) :
    let total := weightSum Investment.investmentAmount investments
    let distributable := proceeds - settlementFee service proceeds
    ∃ plan, readSettlement service input distributed db chain = ([], .ok plan) ∧
      plan.investments = investments.map (settledInvestment total distributable) ∧
      plan.totalDistributedScaled =
        shareSum distributable total Investment.investmentAmount investments ∧
      plan.remainderScaled = distributable -
        shareSum distributable total Investment.investmentAmount investments := by
  intro total distributable
  have hloop : settlementLoop (totalFundedScaled investments) distributable investments 0 [] =
      .ok (shareSum distributable total Investment.investmentAmount investments,
        investments.map (settledInvestment total distributable)) := by
    rw [hholdings.totalFundedScaled_eq,
      settlementLoop_eq_ok hholdings.total_pos hdistributable hholdings.nonneg]
    rw [zero_add, List.nil_append]
  refine ⟨settlementPlan input distributed invoice proceeds distributable
    (input.settlementTransactionHash.or
      (distributed.map fun intent => intent.transactionHash)) _ _, ?_, rfl, rfl, rfl⟩
  unfold readSettlement
  rw [hcheck]
  dsimp only
  rw [directDistribution_of_noDirectPayout hnone, hproceeds, toFixed4_ofUnits]
  dsimp only
  rw [ok_bind]
  change (_, (settlementLoop (totalFundedScaled investments) distributable investments 0 [] >>=
    _)) = _
  rw [hloop, ok_bind]
  rfl

/-- The payload holds the floored shares, in stroops. -/
theorem settlementIntentPayload_of_holdings (db : Database)
    {input : PrepareSettlementIntentInput} (hholdings : Holdings investments)
    (hdistributable : 0 ≤ input.proceeds - protocolFee input.proceeds input.feeBps) :
    ∃ payload, settlementIntentPayload db input investments = .ok payload ∧
      payload.investments.Perm (investments.map (payloadLine db
        (weightSum Investment.investmentAmount investments)
        (input.proceeds - protocolFee input.proceeds input.feeBps))) := by
  have htotal : 0 < totalFundedScaled investments := by
    rw [hholdings.totalFundedScaled_eq]
    exact hholdings.total_pos
  obtain ⟨payload, hpayload⟩ :=
    exists_settlementIntentPayload db htotal hholdings.nonneg hdistributable
  refine ⟨payload, hpayload, ?_⟩
  rw [← hholdings.totalFundedScaled_eq]
  exact payload_investments_perm hpayload

/-- A floored share is the exact share with its fraction cut off. -/
theorem floorShare_bounds {pool total : ℤ} (weight : ℤ) (htotal : 0 < total) :
    (floorShare pool total weight : ℚ) ≤ (weight : ℚ) * pool / total ∧
      (weight : ℚ) * pool / total < floorShare pool total weight + 1 := by
  have htotalCast : (0 : ℚ) < total := by exact_mod_cast htotal
  rw [le_div_iff₀ htotalCast, div_lt_iff₀ htotalCast]
  constructor
  · rw [mul_comm]
    exact_mod_cast total_mul_floorShare_le htotal pool weight
  · rw [mul_comm (_ + 1), mul_add, mul_one]
    exact_mod_cast lt_total_mul_floorShare htotal pool weight

/-- `calculateInvestorReturns` on stored investments. -/
theorem calculateInvestorReturns_of_holdings (hholdings : Holdings investments)
    (hproceeds : 0 < proceeds) (hmin : 0 ≤ feeBps) (hmax : feeBps ≤ 10000) :
    let total := weightSum Investment.investmentAmount investments
    let distributable := proceeds - protocolFee proceeds feeBps
    let distributed :=
      shareSum distributable total Investment.investmentAmount investments
    calculateInvestorReturns (investments.map investmentShare) (ofUnits proceeds) feeBps =
      .ok { totalFunded := total
            distributable := distributable
            fee := protocolFee proceeds feeBps
            totalDistributed := distributed
            remainder := distributable - distributed
            returns := investments.map fun investment =>
              returnLine total distributable (investmentShare investment) } := by
  intro total distributable distributed
  have hweights : weightSum InvestmentShare.investmentAmount (investments.map investmentShare) =
      total := by
    simp only [weightSum, List.map_map]
    rfl
  have hshares : shareSum distributable total InvestmentShare.investmentAmount
      (investments.map investmentShare) = distributed := by
    simp only [shareSum, List.map_map]
    rfl
  rw [calculateInvestorReturns_eq_ok (by simpa using hholdings.nonempty)
    (by simpa [investmentShare] using hholdings.positive) hproceeds hmin hmax
    (by rw [hweights]; exact hholdings.exact), hweights, hshares, List.map_map]
  rfl

end Holdings

/-- Fee, returns and remainder add up to the proceeds; the remainder is smaller
than the number of holdings; every return is the exact share cut off at a unit;
and the settlement transaction and the payload of an intent give every holding
the same return, in whatever order the holdings are read. -/
theorem proceeds_conserved {investments : List Investment} {proceeds feeBps : ℤ}
    (hholdings : Holdings investments) (hproceeds : 0 < proceeds) (hmin : 0 ≤ feeBps)
    (hmax : feeBps ≤ 10000) :
    let total := weightSum Investment.investmentAmount investments
    let distributable := proceeds - protocolFee proceeds feeBps
    ∃ returns,
      calculateInvestorReturns (investments.map investmentShare) (ofUnits proceeds) feeBps =
        .ok returns ∧
      returns.fee + (returns.returns.map ReturnLine.returnAmount).sum + returns.remainder =
        proceeds ∧
      0 ≤ returns.remainder ∧ returns.remainder < investments.length ∧
      (∀ line ∈ returns.returns,
        (line.returnAmount : ℚ) ≤ (line.investmentAmount : ℚ) * distributable / total ∧
          (line.investmentAmount : ℚ) * distributable / total < line.returnAmount + 1) ∧
      ∀ others : List Investment, others.Perm investments →
        (∃ reordered,
          calculateInvestorReturns (others.map investmentShare) (ofUnits proceeds) feeBps =
            .ok reordered ∧
          reordered.returns.Perm returns.returns ∧ reordered.remainder = returns.remainder) ∧
        (∀ service input distributed db invoice chain, service.feeBps = feeBps →
          input.proceeds = ofUnits proceeds →
          checkSettlement input distributed db = .ok (invoice, others) →
          NoDirectPayout service input distributed →
          ∃ plan, readSettlement service input distributed db chain = ([], .ok plan) ∧
            plan.totalDistributedScaled = returns.totalDistributed ∧
            plan.remainderScaled = returns.remainder ∧
            (plan.investments.map fun settled => (settled.id, settled.actualReturn)).Perm
              (returns.returns.map fun line => (line.investmentId, some line.returnAmount))) ∧
        (∀ db (input : PrepareSettlementIntentInput), input.proceeds = proceeds →
          input.feeBps = feeBps →
          ∃ payload, settlementIntentPayload db input others = .ok payload ∧
            (payload.investments.map fun line =>
              (line.id, line.returnAmountStroops / DECIMAL_SCALE_TO_STROOP_FACTOR)).Perm
                (returns.returns.map fun line => (line.investmentId, line.returnAmount))) := by
  intro total distributable
  have hdistributable : 0 ≤ distributable := distributable_nonneg hproceeds hmin hmax
  refine ⟨_, calculateInvestorReturns_of_holdings hholdings hproceeds hmin hmax, ?_, ?_, ?_, ?_,
    fun others hperm => ⟨?_, ?_, ?_⟩⟩
  · have hsum : ((investments.map fun investment =>
        returnLine total distributable (investmentShare investment)).map
          ReturnLine.returnAmount).sum =
        shareSum distributable total Investment.investmentAmount investments := by
      rw [List.map_map]
      rfl
    rw [hsum]
    ring
  · exact sub_nonneg.mpr (shareSum_le_pool distributable hholdings.total_pos rfl)
  · have hlt := pool_lt_shareSum_add_length distributable hholdings.total_pos rfl
      hholdings.nonempty
    exact sub_left_lt_of_lt_add hlt
  · intro line hline
    obtain ⟨investment, _, rfl⟩ := List.mem_map.mp hline
    exact floorShare_bounds _ hholdings.total_pos
  · refine ⟨_, calculateInvestorReturns_of_holdings (hholdings.perm hperm) hproceeds hmin hmax,
      ?_, ?_⟩
    · rw [weightSum_perm _ hperm]
      exact hperm.map _
    · rw [weightSum_perm _ hperm, shareSum_perm _ _ _ hperm]
  · intro service input distributed db invoice chain hfee hinput hcheck hnone
    obtain ⟨plan, hread, hinvestments, hdistributed, hremainder⟩ :=
      readSettlement_of_holdings chain (hholdings.perm hperm) hinput
        (by rwa [settlementFee_eq, hfee]) hcheck hnone
    rw [settlementFee_eq, hfee, weightSum_perm _ hperm] at hinvestments hdistributed hremainder
    rw [shareSum_perm _ _ _ hperm] at hdistributed hremainder
    refine ⟨plan, hread, hdistributed, hremainder, ?_⟩
    rw [hinvestments, List.map_map, List.map_map]
    exact hperm.map _
  · rintro db input rfl rfl
    obtain ⟨payload, hpayload, hlines⟩ :=
      settlementIntentPayload_of_holdings db (hholdings.perm hperm) hdistributable
    refine ⟨payload, hpayload, ?_⟩
    rw [weightSum_perm _ hperm] at hlines
    refine (hlines.map _).trans ?_
    rw [List.map_map, List.map_map]
    have hscale : ∀ investment : Investment,
        (payloadLine db total distributable investment).returnAmountStroops /
            DECIMAL_SCALE_TO_STROOP_FACTOR =
          floorShare distributable total investment.investmentAmount := fun investment =>
      Int.mul_ediv_cancel _ (by decide)
    refine (hperm.map _).trans (List.Perm.of_eq (List.map_congr_left fun investment _ => ?_))
    simp only [Function.comp_apply, returnLine, investmentShare]
    rw [← hscale investment]
    rfl

/-- Two unequal holdings. -/
def twoHoldings : List Investment :=
  [{ soleHolding with investmentAmount := 700000 },
    { soleHolding with id := 6, investorId := 7, investmentAmount := 300001 }]

theorem twoHoldings_holdings : Holdings twoHoldings where
  nonempty := by decide
  positive := by decide
  exact := by decide

theorem twoHoldings_conserved :
    ∃ returns,
      calculateInvestorReturns (twoHoldings.map investmentShare) (ofUnits 999999) 250 =
        .ok returns ∧
      returns.fee + (returns.returns.map ReturnLine.returnAmount).sum + returns.remainder =
        999999 ∧
      0 ≤ returns.remainder ∧ returns.remainder < twoHoldings.length := by
  obtain ⟨returns, hreturns, hsum, hnonneg, hlt, _⟩ :=
    proceeds_conserved twoHoldings_holdings (show (0 : ℤ) < 999999 by decide)
      (show (0 : ℤ) ≤ 250 by decide) (by decide)
  exact ⟨returns, hreturns, hsum, hnonneg, hlt⟩

/-- A total of more than twenty digits is rounded, here below the only holding,
whose return then exceeds the proceeds. -/
theorem rounded_total_overdistributes :
    calculateInvestorReturns [⟨1, 2, 10 ^ 21 + 1⟩] (ofUnits (10 ^ 21)) 0 =
      .ok { totalFunded := 10 ^ 21
            distributable := 10 ^ 21
            fee := 0
            totalDistributed := 10 ^ 21 + 1
            remainder := -1
            returns := [⟨1, 2, 10 ^ 21 + 1, 10 ^ 21 + 1⟩] } := by
  decide +kernel

end StellarSettle.Conservation
