import StellarSettle.Core.WholeShares
import StellarSettle.Projections.WholeNumbers

/-!
# The shares of an invoice's investments

Each investment gets the floor of its percentage, and the first one of the largest amount gets
what is left of the hundred.  Amounts are bigints, percentages are numbers.
-/

namespace StellarSettle.InvestmentShares

open StellarSettle.FloorShare
open StellarSettle.Numbers
open StellarSettle.WholeNumbers
open StellarSettle.WholeShares

structure InvestmentShareInput where
  id : String
  amount : ℤ
  deriving DecidableEq, Repr

structure InvestmentShareResult where
  id : String
  percentage : JsNumber
  deriving DecidableEq

def totalAmount (investments : List InvestmentShareInput) : ℤ :=
  investments.foldl (fun sum investment => sum + investment.amount) 0

/-- The index of the largest amount, and of several the first one. -/
def maxIndex (investments : List InvestmentShareInput) : ℕ :=
  (scanLargest InvestmentShareInput.amount (-1, 0) investments).2

/-- The division of bigints cuts the fraction off. -/
def floorResult (totalAmount : ℤ) (investment : InvestmentShareInput) : InvestmentShareResult :=
  { id := investment.id
    percentage := number (Int.tdiv (investment.amount * 100) totalAmount) }

def currentSum (results : List InvestmentShareResult) : JsNumber :=
  results.foldl (fun sum result => sum.add result.percentage) (number 0)

def addPercentage (remainder : JsNumber) (result : InvestmentShareResult) :
    InvestmentShareResult :=
  { result with percentage := result.percentage.add remainder }

def calculateInvestmentShares (investments : List InvestmentShareInput) :
    List InvestmentShareResult :=
  if investments = [] then []
  else if totalAmount investments = 0 then
    investments.map fun investment => { id := investment.id, percentage := number 0 }
  else
    let results := investments.map (floorResult (totalAmount investments))
    let remainder := (number 100).sub (currentSum results)
    if (number 0).lt remainder then
      results.modify (maxIndex investments) (addPercentage remainder)
    else results

/-! ## The shares of investments that are worth something -/

/-- One integer for each investment: they add up to the hundred, none is below its floor, all but
one are their floors, and a larger amount has no smaller one. -/
structure DividesHundred (investments : List InvestmentShareInput) (percentages : List ℤ) :
    Prop where
  length : percentages.length = investments.length
  sum : percentages.sum = 100
  range : ∀ percentage ∈ percentages, 0 ≤ percentage ∧ percentage ≤ 100
  floor : ∀ share ∈ investments.zip percentages,
    floorShare 100 (weightSum InvestmentShareInput.amount investments) share.1.amount ≤ share.2
  exact : ∃ top : ℕ, ∀ (index : ℕ) (share : InvestmentShareInput × ℤ), index ≠ top →
    (investments.zip percentages)[index]? = some share →
      share.2 = floorShare 100 (weightSum InvestmentShareInput.amount investments) share.1.amount
  monotone : ∀ small ∈ investments.zip percentages, ∀ large ∈ investments.zip percentages,
    small.1.amount < large.1.amount → small.2 ≤ large.2

/-- The results have the ids of the investments with the percentages, in their order. -/
def resultsOf (investments : List InvestmentShareInput) (percentages : List ℤ) :
    List InvestmentShareResult :=
  List.zipWith (fun investment percentage => ⟨investment.id, number percentage⟩) investments
    percentages

section Positive

variable {investments : List InvestmentShareInput}

theorem totalAmount_eq_weightSum (investments : List InvestmentShareInput) :
    totalAmount investments = weightSum InvestmentShareInput.amount investments := by
  have hfold : ∀ start : ℤ,
      investments.foldl (fun sum investment => sum + investment.amount) start =
        start + weightSum InvestmentShareInput.amount investments := by
    induction investments with
    | nil => simp
    | cons investment rest ih =>
        intro start
        rw [List.foldl_cons, ih, weightSum_cons, add_assoc]
  rw [totalAmount, hfold, zero_add]

theorem floorShare_nonneg {total amount : ℤ} (htotal : 0 < total) (hamount : 0 ≤ amount) :
    0 ≤ floorShare 100 total amount :=
  Int.ediv_nonneg (mul_nonneg hamount (by decide)) htotal.le

theorem shareSum_nonneg {total : ℤ} (htotal : 0 < total)
    (hnonneg : ∀ investment ∈ investments, 0 ≤ investment.amount) :
    0 ≤ shareSum 100 total InvestmentShareInput.amount investments := by
  apply List.sum_nonneg
  intro share hshare
  obtain ⟨investment, hmem, rfl⟩ := List.mem_map.mp hshare
  exact floorShare_nonneg htotal (hnonneg investment hmem)

theorem floorResult_eq {total : ℤ} {investment : InvestmentShareInput}
    (hamount : 0 ≤ investment.amount) :
    floorResult total investment =
      ⟨investment.id, number (floorShare 100 total investment.amount)⟩ := by
  rw [floorResult, Int.tdiv_eq_ediv_of_nonneg (mul_nonneg hamount (by decide)), floorShare]

/-- Sums of percentages are exact while they do not exceed the hundred. -/
theorem currentSum_eq {total : ℤ} (htotal : 0 < total)
    (hnonneg : ∀ investment ∈ investments, 0 ≤ investment.amount)
    (hsum : shareSum 100 total InvestmentShareInput.amount investments ≤ 100) :
    currentSum (investments.map (floorResult total)) =
      number (shareSum 100 total InvestmentShareInput.amount investments) := by
  have hfold : ∀ start : ℤ, 0 ≤ start →
      start + shareSum 100 total InvestmentShareInput.amount investments ≤ 100 →
        (investments.map (floorResult total)).foldl
            (fun sum result => sum.add result.percentage) (number start) =
          number (start + shareSum 100 total InvestmentShareInput.amount investments) := by
    clear hsum
    induction investments with
    | nil => simp
    | cons investment rest ih =>
        intro start hstart hbound
        have hamount := hnonneg investment List.mem_cons_self
        have hrest : ∀ other ∈ rest, 0 ≤ other.amount :=
          fun other hmem => hnonneg other (List.mem_cons_of_mem _ hmem)
        have hshare := floorShare_nonneg htotal hamount
        have hshares := shareSum_nonneg htotal hrest
        rw [shareSum_cons] at hbound ⊢
        rw [List.map_cons, List.foldl_cons, floorResult_eq hamount,
          number_add (by rw [abs_of_nonneg hstart]; omega) (by rw [abs_of_nonneg hshare]; omega),
          ih hrest _ (by omega) (by omega), add_assoc]
  rw [currentSum, hfold 0 le_rfl (by rwa [zero_add]), zero_add]

/-- The percentages: the floors, and the rest for the first largest amount. -/
def percentages (investments : List InvestmentShareInput) : List ℤ :=
  wholeShares 100 (totalAmount investments) InvestmentShareInput.amount (maxIndex investments)
    investments

theorem isLargest_maxIndex (hne : investments ≠ [])
    (hnonneg : ∀ investment ∈ investments, 0 ≤ investment.amount) :
    ∃ hindex : maxIndex investments < investments.length, ∀ investment ∈ investments,
      investment.amount ≤ investments[maxIndex investments].amount := by
  have hlargest : IsLargest InvestmentShareInput.amount investments
      (scanLargest InvestmentShareInput.amount (-1, 0) investments) :=
    isLargest_scanLargest hne fun investment hmem =>
      neg_one_lt_zero.trans_le (hnonneg investment hmem)
  obtain ⟨hall, hindex, hamount⟩ := hlargest
  exact ⟨hindex, fun investment hmem => (hall investment hmem).trans_eq hamount.symm⟩

theorem nonneg_of_mem_percentages (htotal : 0 < totalAmount investments)
    (hnonneg : ∀ investment ∈ investments, 0 ≤ investment.amount) :
    ∀ percentage ∈ percentages investments, 0 ≤ percentage := by
  intro percentage hmem
  obtain ⟨index, hindex, rfl⟩ := List.mem_iff_getElem.mp hmem
  exact (floorShare_nonneg htotal (hnonneg _ (List.getElem_mem _))).trans
    (floorShare_le_wholeShares htotal (totalAmount_eq_weightSum investments).symm hindex)

theorem dividesHundred_percentages (hne : investments ≠ [])
    (hnonneg : ∀ investment ∈ investments, 0 ≤ investment.amount)
    (htotal : 0 < totalAmount investments) :
    DividesHundred investments (percentages investments) := by
  obtain ⟨htop, hlargest⟩ := isLargest_maxIndex hne hnonneg
  have hsum := (totalAmount_eq_weightSum investments).symm
  have hshares := nonneg_of_mem_percentages htotal hnonneg
  have hhundred : (percentages investments).sum = 100 := sum_wholeShares htop
  refine
    { length := length_wholeShares
      sum := hhundred
      range := fun percentage hmem =>
        ⟨hshares percentage hmem, hhundred ▸ List.single_le_sum hshares percentage hmem⟩
      floor := ?_
      exact := ⟨maxIndex investments, ?_⟩
      monotone := ?_ }
  · intro share hshare
    obtain ⟨index, hindex, rfl⟩ := List.mem_iff_getElem.mp hshare
    rw [List.getElem_zip, hsum]
    simp only [percentages]
    exact floorShare_le_wholeShares htotal hsum _
  · intro index share hother hshare
    obtain ⟨hindex, rfl⟩ := List.getElem?_eq_some_iff.mp hshare
    simp only [percentages]
    rw [List.getElem_zip, getElem_wholeShares, if_neg (Ne.symm hother), add_zero, hsum,
      List.get_eq_getElem]
  · intro small hsmall large hlarge hless
    obtain ⟨low, hlow, rfl⟩ := List.mem_iff_getElem.mp hsmall
    obtain ⟨high, hhigh, rfl⟩ := List.mem_iff_getElem.mp hlarge
    rw [List.getElem_zip, List.getElem_zip] at hless ⊢
    simp only [percentages]
    exact wholeShares_le_of_lt (by decide) htotal hsum htop hlargest _ _ hless

theorem abs_floorShare_le {total : ℤ} {investment : InvestmentShareInput} (htotal : 0 < total)
    (hamount : 0 ≤ investment.amount) (hle : investment.amount ≤ total) :
    |floorShare 100 total investment.amount| ≤ 2 ^ 53 := by
  have hhundred : investment.amount * 100 / total ≤ 100 := by
    apply Int.ediv_le_of_le_mul htotal
    linarith
  rw [abs_of_nonneg (floorShare_nonneg htotal hamount), floorShare]
  omega

/-- The percentages are the floors, one of which the rest is added to. -/
theorem resultsOf_percentages {rest : ℤ} (htotal : 0 < totalAmount investments)
    (hnonneg : ∀ investment ∈ investments, 0 ≤ investment.amount)
    (hle : ∀ investment ∈ investments, investment.amount ≤ totalAmount investments)
    (hrest : rest = 100 - shareSum 100 (totalAmount investments) InvestmentShareInput.amount
      investments) (hsmall : |rest| ≤ 2 ^ 53) :
    resultsOf investments (percentages investments) =
      (investments.map (floorResult (totalAmount investments))).modify (maxIndex investments)
        (addPercentage (number rest)) := by
  apply List.ext_getElem
  · simp [resultsOf, percentages]
  · intro index hleft hright
    have hindex : index < investments.length := by simpa using hright
    have hmem := List.getElem_mem hindex
    have hshare := abs_floorShare_le htotal (hnonneg _ hmem) (hle _ hmem)
    rw [List.getElem_modify, List.getElem_map, floorResult_eq (hnonneg _ hmem)]
    simp only [resultsOf, percentages, List.getElem_zipWith, getElem_wholeShares,
      List.get_eq_getElem, ← hrest]
    split
    · rw [addPercentage, number_add hshare hsmall]
    · rw [add_zero]

theorem modify_addPercentage_zero {index : ℕ} (htotal : 0 < totalAmount investments)
    (hnonneg : ∀ investment ∈ investments, 0 ≤ investment.amount)
    (hle : ∀ investment ∈ investments, investment.amount ≤ totalAmount investments) :
    (investments.map (floorResult (totalAmount investments))).modify index
        (addPercentage (number 0)) =
      investments.map (floorResult (totalAmount investments)) := by
  apply List.ext_getElem
  · simp
  · intro other hleft hright
    have hmem := List.getElem_mem (by simpa using hright : other < investments.length)
    have hshare := abs_floorShare_le htotal (hnonneg _ hmem) (hle _ hmem)
    rw [List.getElem_modify, List.getElem_map, floorResult_eq (hnonneg _ hmem)]
    split
    · rw [addPercentage, number_add hshare (by decide), add_zero]
    · rfl

/-- The code's numbers are these percentages. -/
theorem calculateInvestmentShares_eq (hne : investments ≠ [])
    (hnonneg : ∀ investment ∈ investments, 0 ≤ investment.amount)
    (htotal : 0 < totalAmount investments) :
    calculateInvestmentShares investments = resultsOf investments (percentages investments) := by
  have hsum := (totalAmount_eq_weightSum investments).symm
  have hshares := shareSum_le_pool 100 htotal hsum
  have hle : ∀ investment ∈ investments, investment.amount ≤ totalAmount investments := by
    intro investment hmem
    rw [totalAmount_eq_weightSum]
    apply List.single_le_sum
    · intro amount hamount
      obtain ⟨other, hother, rfl⟩ := List.mem_map.mp hamount
      exact hnonneg other hother
    · exact List.mem_map_of_mem hmem
  have hshare := shareSum_nonneg htotal hnonneg
  rw [calculateInvestmentShares, if_neg hne, if_neg htotal.ne']
  dsimp only
  rw [currentSum_eq htotal hnonneg hshares,
    number_sub (by decide) (by rw [abs_of_nonneg hshare]; omega)]
  generalize hrest : 100 - shareSum 100 (totalAmount investments) InvestmentShareInput.amount
    investments = rest
  have hnonnegRest : 0 ≤ rest := by omega
  have hsmall : |rest| ≤ 2 ^ 53 := by
    rw [abs_of_nonneg hnonnegRest]
    omega
  rw [resultsOf_percentages htotal hnonneg hle hrest.symm hsmall]
  by_cases hpositive : 0 < rest
  · rw [if_pos ((number_lt (by decide) hsmall).mpr hpositive)]
  · obtain rfl : rest = 0 := by omega
    rw [if_neg fun hless => hpositive ((number_lt (by decide) hsmall).mp hless)]
    exact (modify_addPercentage_zero htotal hnonneg hle).symm

end Positive

/-- The percentages of investments that are worth something together are integers that divide
the hundred. -/
theorem calculateInvestmentShares_dividesHundred {investments : List InvestmentShareInput}
    (hne : investments ≠ []) (hnonneg : ∀ investment ∈ investments, 0 ≤ investment.amount)
    (htotal : 0 < weightSum InvestmentShareInput.amount investments) :
    ∃ percentages, DividesHundred investments percentages ∧
      calculateInvestmentShares investments = resultsOf investments percentages := by
  rw [← totalAmount_eq_weightSum] at htotal
  exact ⟨percentages investments, dividesHundred_percentages hne hnonneg htotal,
    calculateInvestmentShares_eq hne hnonneg htotal⟩

def thirds : List InvestmentShareInput := [⟨"first", 1⟩, ⟨"second", 1⟩, ⟨"third", 1⟩]

theorem thirds_dividesHundred : ∃ percentages, DividesHundred thirds percentages ∧
    calculateInvestmentShares thirds = resultsOf thirds percentages :=
  calculateInvestmentShares_dividesHundred (by decide) (by decide) (by decide)

end StellarSettle.InvestmentShares
