import StellarSettle.Settlement.SettlementIntent

/-!
# The distributor's check on a prepared payload

The payload is computed with four decimals and the distributor checks it with
seven.  The two fees differ by what four decimals cannot hold, and the floored
returns leave room for that difference only when some return is not whole.
-/

namespace StellarSettle.PayoutCheck

open StellarSettle.DecimalJs
open StellarSettle.Entities
open StellarSettle.FloorShare
open StellarSettle.InvestorReturn
open StellarSettle.PaymentDistributor
open StellarSettle.SettlementIntents

/-- What is left of the fee below four decimals, in units of `10 ^ -8`. -/
def feeResidue (proceeds feeBps : ℤ) : ℤ := proceeds * feeBps % 10000

theorem feeResidue_bounds (proceeds feeBps : ℤ) :
    0 ≤ feeResidue proceeds feeBps ∧ feeResidue proceeds feeBps < 10000 :=
  ⟨Int.emod_nonneg _ (by norm_num), Int.emod_lt_of_pos _ (by norm_num)⟩

/-- The distributor's fee is the payload's fee in stroops, and the three further
digits of the residue. -/
theorem fee_at_stroop_scale {proceeds feeBps : ℤ} (hproduct : 0 ≤ proceeds * feeBps) :
    (proceeds * DECIMAL_SCALE_TO_STROOP_FACTOR * feeBps).tdiv 10000 =
      protocolFee proceeds feeBps * DECIMAL_SCALE_TO_STROOP_FACTOR +
        feeResidue proceeds feeBps / 10 := by
  have hscaled : proceeds * DECIMAL_SCALE_TO_STROOP_FACTOR * feeBps =
      proceeds * feeBps * 1000 := by
    rw [DECIMAL_SCALE_TO_STROOP_FACTOR]
    ring
  rw [hscaled, protocolFee, feeResidue, DECIMAL_SCALE_TO_STROOP_FACTOR,
    Int.tdiv_eq_ediv_of_nonneg (by positivity), Int.tdiv_eq_ediv_of_nonneg hproduct]
  generalize proceeds * feeBps = product
  omega

/-- A fee of the whole proceeds is the same at both scales. -/
theorem whole_fee_at_stroop_scale (proceeds : ℤ) :
    (proceeds * DECIMAL_SCALE_TO_STROOP_FACTOR * 10000).tdiv 10000 =
      protocolFee proceeds 10000 * DECIMAL_SCALE_TO_STROOP_FACTOR +
        feeResidue proceeds 10000 / 10 := by
  rw [protocolFee, Int.mul_tdiv_cancel _ (by norm_num), Int.mul_tdiv_cancel _ (by norm_num),
    feeResidue, Int.mul_emod_left]
  simp

/-- Negative proceeds leave a distributable amount only when all of them are fee. -/
theorem feeBps_eq_of_distributable_nonneg {proceeds feeBps : ℤ} (hproceeds : proceeds < 0)
    (hmin : 0 ≤ feeBps) (hmax : feeBps ≤ 10000)
    (hdistributable : 0 ≤ proceeds - protocolFee proceeds feeBps) : feeBps = 10000 := by
  by_contra hne
  have hopposite : protocolFee proceeds feeBps = -(-proceeds * feeBps / 10000) := by
    rw [protocolFee, ← Int.neg_neg (proceeds * feeBps), Int.neg_tdiv, ← neg_mul,
      Int.tdiv_eq_ediv_of_nonneg (mul_nonneg (by omega) hmin)]
  have hsmall : -proceeds * feeBps ≤ -proceeds * 9999 :=
    mul_le_mul_of_nonneg_left (by omega) (by omega)
  omega

/-- Comparing at seven decimals costs one unit as soon as the residue reaches a
stroop. -/
theorem stroop_comparison {returns fee proceeds residue : ℤ} (hnonneg : 0 ≤ residue)
    (hlt : residue < 10000) :
    returns * DECIMAL_SCALE_TO_STROOP_FACTOR +
        (fee * DECIMAL_SCALE_TO_STROOP_FACTOR + residue / 10) ≤
      proceeds * DECIMAL_SCALE_TO_STROOP_FACTOR ↔
    returns + (if 10 ≤ residue then 1 else 0) ≤ proceeds - fee := by
  rw [DECIMAL_SCALE_TO_STROOP_FACTOR]
  split <;> omega

/-- The check passes when the returns leave a unit, or the fee has no residue. -/
theorem withinTotal_iff_of_payload {db : Database} {input : PrepareSettlementIntentInput}
    {investments : List Investment} {payload : SettlementIntentPayload}
    (hmin : 0 ≤ input.feeBps) (hmax : input.feeBps ≤ 10000) (hne : investments ≠ [])
    (hok : settlementIntentPayload db input investments = .ok payload) :
    (distributionInput payload).WithinTotal ↔
      shareSum (input.proceeds - protocolFee input.proceeds input.feeBps)
          (totalFundedScaled investments) Investment.investmentAmount investments +
        (if 10 ≤ feeResidue input.proceeds input.feeBps then 1 else 0) ≤
      input.proceeds - protocolFee input.proceeds input.feeBps := by
  obtain ⟨investment, hmem⟩ := List.exists_mem_of_ne_nil investments hne
  obtain ⟨_, _, hdistributable⟩ := nonneg_of_settlementIntentPayload_eq_ok hok hmem
  have hfee : (distributionInput payload).fee =
      protocolFee input.proceeds input.feeBps * DECIMAL_SCALE_TO_STROOP_FACTOR +
        feeResidue input.proceeds input.feeBps / 10 := by
    rw [DistributePayoutsInput.fee, settlementIntentPayload_eq_ok hok]
    simp only [distributionInput]
    rcases lt_or_ge input.proceeds 0 with hnegative | hnonneg
    · rw [feeBps_eq_of_distributable_nonneg hnegative hmin hmax hdistributable]
      exact whole_fee_at_stroop_scale _
    · exact fee_at_stroop_scale (mul_nonneg hnonneg hmin)
  have htotal : (distributionInput payload).totalAmountStroops =
      input.proceeds * DECIMAL_SCALE_TO_STROOP_FACTOR := by
    rw [settlementIntentPayload_eq_ok hok]
    rfl
  obtain ⟨hresidue, hresidueLt⟩ := feeResidue_bounds input.proceeds input.feeBps
  rw [DistributePayoutsInput.WithinTotal, recipientTotal_distributionInput hok, hfee, htotal]
  exact stroop_comparison hresidue hresidueLt

/-- While the total is read back exactly, a unit is left over exactly when some
return is not whole. -/
theorem shareSum_add_one_le_iff {investments : List Investment} {distributable total : ℤ}
    (htotal : 0 < total) (hsum : weightSum Investment.investmentAmount investments = total)
    (residue : ℤ) :
    shareSum distributable total Investment.investmentAmount investments +
        (if 10 ≤ residue then 1 else 0) ≤ distributable ↔
      residue < 10 ∨
        ∃ investment ∈ investments, ¬total ∣ investment.investmentAmount * distributable := by
  have hle := shareSum_le_pool distributable htotal hsum
  have hwhole := shareSum_eq_pool_iff distributable htotal hsum
  have hleft : (∃ investment ∈ investments,
      ¬total ∣ investment.investmentAmount * distributable) ↔
        shareSum distributable total Investment.investmentAmount investments ≠
          distributable := by
    rw [ne_eq, hwhole]
    push Not
    rfl
  rw [hleft]
  split <;> omega

/-- When a new intent is prepared, its payload passes the distributor's check
exactly when the returns, and one unit more if the fee's residue reaches a
stroop, fit in the distributable amount; with a total of at most twenty digits,
exactly when the residue stays below a stroop or some return is not whole. -/
theorem withinTotal_iff_of_prepareSettlementIntent {db after : Database} {id : Uuid}
    {input : PrepareSettlementIntentInput} {intent : SettlementIntent}
    (hprepare : prepareSettlementIntent db id input = .ok (after, intent))
    (hfresh : db.settlementIntent = none) :
    let investments := confirmedInvestments db.investments
    let total := weightSum Investment.investmentAmount investments
    let distributable := input.proceeds - protocolFee input.proceeds input.feeBps
    ((distributionInput intent.payload).WithinTotal ↔
      shareSum distributable (totalFundedScaled investments) Investment.investmentAmount
          investments +
        (if 10 ≤ feeResidue input.proceeds input.feeBps then 1 else 0) ≤ distributable) ∧
    (total < 10 ^ precision →
      ((distributionInput intent.payload).WithinTotal ↔
        feeResidue input.proceeds input.feeBps < 10 ∨
          ∃ investment ∈ investments,
            ¬total ∣ investment.investmentAmount * distributable)) := by
  intro investments total distributable
  obtain ⟨⟨hmin, hmax⟩, hne, hpayload⟩ := prepareSettlementIntent_fresh hprepare hfresh
  have hcheck := withinTotal_iff_of_payload hmin hmax hne hpayload
  refine ⟨hcheck, fun hbound => ?_⟩
  have hnonneg : ∀ investment ∈ investments, 0 ≤ investment.investmentAmount :=
    fun investment hmem => (nonneg_of_settlementIntentPayload_eq_ok hpayload hmem).2.1
  have hexact : totalFundedScaled investments = total := toFixed4_sumAmounts hnonneg hbound
  have htotal : 0 < total := by
    obtain ⟨investment, hmem⟩ := List.exists_mem_of_ne_nil investments hne
    rw [← hexact]
    exact (nonneg_of_settlementIntentPayload_eq_ok hpayload hmem).1
  rw [hcheck]
  change shareSum distributable (totalFundedScaled investments) _ investments + _ ≤ _ ↔ _
  rw [hexact]
  exact shareSum_add_one_le_iff htotal rfl _

/-! ## A payload the distributor rejects -/

/-- 250 basis points of `proceeds`. -/
def soleHolderInput (proceeds : ℤ) : PrepareSettlementIntentInput :=
  { proceeds := proceeds, actorWallet := "", sellerId := none, trigger := .adminSettled
    feeRecipient := "GFEE", feeBps := 250 }

def soleHolderIntent (proceeds returnAmountStroops : ℤ) : SettlementIntent :=
  { id := 5
    status := .prepared
    payload :=
      { proceeds := proceeds, actorWallet := "", sellerId := none, trigger := .adminSettled
        feeRecipient := "GFEE", feeBps := 250
        investments :=
          [{ id := 3, investorId := 4, investmentAmount := 1000000
             recipientAddress := .account "GINVESTOR"
             returnAmountStroops := returnAmountStroops }] }
    transactionHash := none }

def soleHolderPrepared (proceeds returnAmountStroops : ℤ) : Database :=
  { fundedDatabase with
    settlementIntent := some (soleHolderIntent proceeds returnAmountStroops) }

/-- For `99.9999` the intent is prepared and claimed, and the distributor then
rejects it. -/
theorem soleHolder_claimed_and_rejected :
    prepareSettlementIntent fundedDatabase 5 (soleHolderInput 999999) =
        .ok (soleHolderPrepared 999999 975000000, soleHolderIntent 999999 975000000) ∧
      (claimSettlementIntent (soleHolderPrepared 999999 975000000) 5).isOk = true ∧
      checkPayouts (distributionInput (soleHolderIntent 999999 975000000).payload) =
        .error (.error "Payout recipients and protocol fee exceed the settlement total.") := by
  decide +kernel

/-- For `100.0000` the fee has no residue. -/
theorem soleHolder_within_total :
    (distributionInput (soleHolderIntent 1000000 975000000).payload).WithinTotal := by
  have hprepared : prepareSettlementIntent fundedDatabase 5 (soleHolderInput 1000000) =
      .ok (soleHolderPrepared 1000000 975000000, soleHolderIntent 1000000 975000000) := by
    decide +kernel
  exact ((withinTotal_iff_of_prepareSettlementIntent hprepared rfl).2 (by decide +kernel)).mpr
    (.inl (by decide))

end StellarSettle.PayoutCheck
