import StellarSettle.Core.Checks
import StellarSettle.Model.Entities

/-!
# Pro-rata returns

`computeInvestorReturn` and the pure helper `calculateInvestorReturns`.  All
amounts are integers in units of `10 ^ -4`; the running total is a decimal.js
sum, so it is exact only while it has at most twenty digits.
-/

namespace StellarSettle.InvestorReturn

open StellarSettle.Checks
open StellarSettle.DecimalJs
open StellarSettle.Entities
open StellarSettle.FloorShare

/-- BigInt division truncates toward zero. -/
def computeInvestorReturn (investedAmount totalFunded settledProceeds : ℤ) :
    Except Thrown ℤ := do
  throwIf (totalFunded ≤ 0) (.rangeError "totalFunded must be greater than zero")
  throwIf (investedAmount < 0) (.rangeError "investedAmount must not be negative")
  throwIf (settledProceeds < 0) (.rangeError "settledProceeds must not be negative")
  return (investedAmount * settledProceeds).tdiv totalFunded

/-- `(proceedsScaled * BigInt(feeBps)) / 10_000n`. -/
def protocolFee (proceedsScaled feeBps : ℤ) : ℤ := (proceedsScaled * feeBps).tdiv 10000

def invalidProceeds : ServiceError :=
  { code := .invalidProceeds
    message := "Settlement proceeds must be greater than zero" }

def invalidFundedAmount : ServiceError :=
  { code := .invalidFundedAmount
    message := "Total funded amount must be greater than zero" }

/-- One element of the `investments` argument of `calculateInvestorReturns`. -/
structure InvestmentShare where
  id : Uuid
  investorId : Uuid
  investmentAmount : ℤ
  deriving DecidableEq, Repr

structure ReturnLine where
  investmentId : Uuid
  investorId : Uuid
  investmentAmount : ℤ
  returnAmount : ℤ
  deriving DecidableEq, Repr

structure InvestorReturns where
  totalFunded : ℤ
  distributable : ℤ
  fee : ℤ
  totalDistributed : ℤ
  remainder : ℤ
  returns : List ReturnLine
  deriving DecidableEq, Repr

/-- The loop of `calculateInvestorReturns`: the sum of the returns and the lines
pushed so far. -/
def returnsLoop (totalFundedScaled distributableScaled : ℤ) :
    List InvestmentShare → ℤ → List ReturnLine → Except Thrown (ℤ × List ReturnLine)
  | [], sumOfReturnsScaled, returns => .ok (sumOfReturnsScaled, returns)
  | inv :: rest, sumOfReturnsScaled, returns => do
      let returnScaled ←
        computeInvestorReturn inv.investmentAmount totalFundedScaled distributableScaled
      returnsLoop totalFundedScaled distributableScaled rest
        (sumOfReturnsScaled + returnScaled)
        (returns ++ [
          { investmentId := inv.id
            investorId := inv.investorId
            investmentAmount := inv.investmentAmount
            returnAmount := returnScaled }])

def calculateInvestorReturns (investments : List InvestmentShare) (proceeds : Decimal)
    (feeBps : ℤ) : Except Thrown InvestorReturns := do
  throwIf (proceeds < 0 ∨ proceeds = 0) (.service invalidProceeds)
  let totalFunded := sumAmounts (investments.map fun inv => inv.investmentAmount)
  throwIf (totalFunded = 0 ∨ totalFunded < 0) (.service invalidFundedAmount)
  let totalFundedScaled := toFixed4 totalFunded
  let proceedsScaled := toFixed4 proceeds
  let feeScaled := if 0 < feeBps then protocolFee proceedsScaled feeBps else 0
  let distributableScaled := proceedsScaled - feeScaled
  let (sumOfReturnsScaled, returns) ←
    returnsLoop totalFundedScaled distributableScaled investments 0 []
  return {
    totalFunded := totalFundedScaled
    distributable := distributableScaled
    fee := feeScaled
    totalDistributed := sumOfReturnsScaled
    remainder := distributableScaled - sumOfReturnsScaled
    returns := returns }

/-! ## Returns as floored shares -/

theorem computeInvestorReturn_eq_ok {investedAmount totalFunded settledProceeds : ℤ}
    (htotal : 0 < totalFunded) (hinvested : 0 ≤ investedAmount)
    (hproceeds : 0 ≤ settledProceeds) :
    computeInvestorReturn investedAmount totalFunded settledProceeds =
      .ok (floorShare settledProceeds totalFunded investedAmount) := by
  rw [computeInvestorReturn, throwIf_neg (by omega), throwIf_neg (by omega),
    throwIf_neg (by omega), floorShare,
    Int.tdiv_eq_ediv_of_nonneg (mul_nonneg hinvested hproceeds)]
  rfl

/-- A return that is computed at all is the floored share. -/
theorem eq_floorShare_of_computeInvestorReturn
    {investedAmount totalFunded settledProceeds result : ℤ}
    (hok : computeInvestorReturn investedAmount totalFunded settledProceeds = .ok result) :
    0 < totalFunded ∧ 0 ≤ investedAmount ∧ 0 ≤ settledProceeds ∧
      result = floorShare settledProceeds totalFunded investedAmount := by
  have hcopy := hok
  simp only [computeInvestorReturn, bind_eq_ok, throwIf_eq_ok, exists_const, not_le,
    not_lt] at hok
  obtain ⟨htotal, hinvested, hproceeds, _⟩ := hok
  rw [computeInvestorReturn_eq_ok htotal hinvested hproceeds] at hcopy
  exact ⟨htotal, hinvested, hproceeds, (Except.ok.inj hcopy).symm⟩

/-- A return that is not computed throws no service error. -/
theorem computeInvestorReturn_error_code {investedAmount totalFunded settledProceeds : ℤ}
    {thrown : Thrown} {code : ErrorCode}
    (herror : computeInvestorReturn investedAmount totalFunded settledProceeds = .error thrown) :
    thrown.hasCode code = false := by
  simp only [computeInvestorReturn, bind_eq_error, throwIf_eq_error, pure_ne_error, and_false,
    exists_false, or_false] at herror
  rcases herror with ⟨_, rfl⟩ | ⟨_, _, ⟨_, rfl⟩ | ⟨_, _, _, rfl⟩⟩ <;> rfl

theorem protocolFee_le {proceedsScaled feeBps : ℤ} (hproceeds : 0 ≤ proceedsScaled)
    (hfee : 0 ≤ feeBps) (hmax : feeBps ≤ 10000) :
    protocolFee proceedsScaled feeBps ≤ proceedsScaled := by
  rw [protocolFee, Int.tdiv_eq_ediv_of_nonneg (mul_nonneg hproceeds hfee)]
  have hmul : proceedsScaled * feeBps ≤ proceedsScaled * 10000 :=
    mul_le_mul_of_nonneg_left hmax hproceeds
  omega

@[simp]
theorem protocolFee_zero_bps (proceedsScaled : ℤ) : protocolFee proceedsScaled 0 = 0 := by
  simp [protocolFee]

/-- The line that `calculateInvestorReturns` pushes for one investment. -/
def returnLine (totalFundedScaled distributableScaled : ℤ) (inv : InvestmentShare) :
    ReturnLine :=
  { investmentId := inv.id
    investorId := inv.investorId
    investmentAmount := inv.investmentAmount
    returnAmount := floorShare distributableScaled totalFundedScaled inv.investmentAmount }

theorem returnsLoop_eq_ok {totalFundedScaled distributableScaled : ℤ}
    (htotal : 0 < totalFundedScaled) (hdistributable : 0 ≤ distributableScaled)
    {investments : List InvestmentShare}
    (hnonneg : ∀ inv ∈ investments, 0 ≤ inv.investmentAmount)
    (sumOfReturnsScaled : ℤ) (returns : List ReturnLine) :
    returnsLoop totalFundedScaled distributableScaled investments sumOfReturnsScaled returns =
      .ok (sumOfReturnsScaled + shareSum distributableScaled totalFundedScaled
          InvestmentShare.investmentAmount investments,
        returns ++ investments.map (returnLine totalFundedScaled distributableScaled)) := by
  induction investments generalizing sumOfReturnsScaled returns with
  | nil => simp [returnsLoop]
  | cons inv rest ih =>
      rw [returnsLoop, computeInvestorReturn_eq_ok htotal (hnonneg inv (by simp)) hdistributable,
        ok_bind, ih fun other hmem => hnonneg other (by simp [hmem])]
      simp [returnLine, add_assoc]

/-- The total of positive amounts with at most twenty digits is read back
exactly. -/
theorem toFixed4_sumAmounts {Holder : Type} {amount : Holder → ℤ} {holders : List Holder}
    (hnonneg : ∀ holder ∈ holders, 0 ≤ amount holder)
    (hbound : weightSum amount holders < 10 ^ precision) :
    toFixed4 (sumAmounts (holders.map amount)) = weightSum amount holders := by
  have hmapNonneg : ∀ value ∈ holders.map amount, 0 ≤ value := by
    intro value hvalue
    obtain ⟨holder, hmem, rfl⟩ := List.mem_map.mp hvalue
    exact hnonneg holder hmem
  rw [sumAmounts_eq hmapNonneg hbound, toFixed4_ofUnits]
  rfl

theorem calculateInvestorReturns_eq_ok {investments : List InvestmentShare}
    {proceedsScaled feeBps : ℤ} (hne : investments ≠ [])
    (hpositive : ∀ inv ∈ investments, 0 < inv.investmentAmount)
    (hproceeds : 0 < proceedsScaled) (hfee : 0 ≤ feeBps) (hmax : feeBps ≤ 10000)
    (hbound : weightSum InvestmentShare.investmentAmount investments < 10 ^ precision) :
    let total := weightSum InvestmentShare.investmentAmount investments
    let distributable := proceedsScaled - protocolFee proceedsScaled feeBps
    let distributed :=
      shareSum distributable total InvestmentShare.investmentAmount investments
    calculateInvestorReturns investments (ofUnits proceedsScaled) feeBps =
      .ok { totalFunded := total
            distributable := distributable
            fee := protocolFee proceedsScaled feeBps
            totalDistributed := distributed
            remainder := distributable - distributed
            returns := investments.map (returnLine total distributable) } := by
  intro total distributable distributed
  have hnonneg : ∀ inv ∈ investments, 0 ≤ inv.investmentAmount :=
    fun inv hmem => (hpositive inv hmem).le
  have htotal : 0 < total := weightSum_pos hne hpositive
  have htotalText : toFixed4 (sumAmounts (investments.map InvestmentShare.investmentAmount)) =
      total := toFixed4_sumAmounts hnonneg hbound
  have htotalPos : 0 < sumAmounts (investments.map InvestmentShare.investmentAmount) := by
    have hsum : sumAmounts (investments.map InvestmentShare.investmentAmount) =
        ofUnits (investments.map InvestmentShare.investmentAmount).sum := by
      apply sumAmounts_eq _ hbound
      intro value hvalue
      obtain ⟨inv, hmem, rfl⟩ := List.mem_map.mp hvalue
      exact hnonneg inv hmem
    rw [hsum, ofUnits_pos]
    exact htotal
  have hproceedsPos : 0 < ofUnits proceedsScaled := ofUnits_pos.mpr hproceeds
  have hfeeText : (if 0 < feeBps then protocolFee proceedsScaled feeBps else 0) =
      protocolFee proceedsScaled feeBps := by
    split
    · rfl
    · obtain rfl : feeBps = 0 := by omega
      simp
  have hdistributable : 0 ≤ distributable :=
    sub_nonneg.mpr (protocolFee_le hproceeds.le hfee hmax)
  rw [calculateInvestorReturns, throwIf_neg (by rintro (h | h) <;> linarith), ok_bind]
  dsimp only
  rw [throwIf_neg (by rintro (h | h) <;> linarith), ok_bind]
  simp only [htotalText, toFixed4_ofUnits, hfeeText]
  rw [returnsLoop_eq_ok htotal hdistributable hnonneg, ok_bind]
  simp only [zero_add, List.nil_append]
  rfl

end StellarSettle.InvestorReturn
