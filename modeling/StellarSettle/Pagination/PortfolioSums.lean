import StellarSettle.Pagination.MillisecondCursors

/-!
# The summary of a portfolio

Every page of a portfolio comes with sums over all investments of the investor.  While the sums
have at most twenty digits they are exact, and the positions of the pages add up to them.
-/

namespace StellarSettle.PortfolioSums

open StellarSettle.DecimalJs
open StellarSettle.Entities (InvestmentStatus Uuid)
open StellarSettle.MillisecondCursors
open StellarSettle.PageWalk
open StellarSettle.SelectQuery
open StellarSettle.StoredTimes

/-- What an investment can add to a sum. -/
def weight (investment : Investment) : ℤ :=
  |investment.investmentAmount| + |investment.expectedReturn| + |investment.actualReturn.getD 0|

def isActive (position : PortfolioPosition) : Bool :=
  position.status == .pending || position.status == .confirmed

def sumOf (column : PortfolioPosition → ℤ) (positions : List PortfolioPosition) : ℤ :=
  (positions.map column).sum

def settled (position : PortfolioPosition) : ℤ := position.settlementAmount.getD 0

def realised (position : PortfolioPosition) : ℤ := position.realisedPnl.getD 0

/-- The positions add up to the summary, and what was invested is either active or accounted for by
what came back. -/
structure AddsUp (summary : PortfolioSummary) (positions : List PortfolioPosition) : Prop where
  totalInvested : summary.totalInvested = sumOf PortfolioPosition.amountInvested positions
  currentPortfolioValue :
    summary.currentPortfolioValue = sumOf PortfolioPosition.currentValue positions
  realisedReturns : summary.realisedReturns = sumOf settled positions
  realisedPnl : summary.realisedPnl = sumOf realised positions
  balance : summary.totalInvested + summary.realisedPnl = summary.realisedReturns +
    sumOf PortfolioPosition.amountInvested (positions.filter isActive)

/-! ## Exact sums -/

/-- Sums in units. -/
structure UnitSums where
  totalInvested : ℤ
  currentPortfolioValue : ℤ
  realisedReturns : ℤ
  realisedPnl : ℤ

namespace UnitSums

def decimals (sums : UnitSums) : PortfolioSums where
  totalInvested := ofUnits sums.totalInvested
  currentPortfolioValue := ofUnits sums.currentPortfolioValue
  realisedReturns := ofUnits sums.realisedReturns
  realisedPnl := ofUnits sums.realisedPnl

def add (sums : UnitSums) (position : PortfolioPosition) : UnitSums where
  totalInvested := sums.totalInvested + position.amountInvested
  currentPortfolioValue := sums.currentPortfolioValue + position.currentValue
  realisedReturns := sums.realisedReturns + settled position
  realisedPnl := sums.realisedPnl + realised position

/-- No sum is larger. -/
def Within (sums : UnitSums) (bound : ℤ) : Prop :=
  |sums.totalInvested| ≤ bound ∧ |sums.currentPortfolioValue| ≤ bound ∧
    |sums.realisedReturns| ≤ bound ∧ |sums.realisedPnl| ≤ bound

end UnitSums

theorem weight_nonneg (investment : Investment) : 0 ≤ weight investment := by
  unfold weight
  positivity

theorem weights_nonneg (investments : List Investment) : 0 ≤ (investments.map weight).sum := by
  apply List.sum_nonneg
  intro part hpart
  obtain ⟨investment, -, rfl⟩ := List.mem_map.mp hpart
  exact weight_nonneg investment

section Steps

variable {sums : UnitSums} {bound : ℤ} {investment : Investment}

/-- What a settled investment brought back. -/
def settlement (investment : Investment) : ℤ :=
  investment.actualReturn.getD investment.expectedReturn

theorem abs_settlement_add_le (investment : Investment) :
    |settlement investment| + |investment.investmentAmount| ≤ weight investment := by
  have hexpected := abs_nonneg investment.expectedReturn
  rw [settlement, weight]
  cases investment.actualReturn with
  | none =>
      simp only [Option.getD_none, abs_zero]
      linarith
  | some actual =>
      simp only [Option.getD_some]
      linarith

theorem abs_settlement_sub_le (investment : Investment) :
    |settlement investment - investment.investmentAmount| ≤ weight investment :=
  (abs_sub _ _).trans (abs_settlement_add_le investment)

theorem amountInvested_toPosition :
    (toPosition investment).amountInvested = investment.investmentAmount :=
  toFixed4_ofUnits _

theorem abs_amount_le (investment : Investment) :
    |investment.investmentAmount| ≤ weight investment := by
  have hsettlement := abs_nonneg (settlement investment)
  have hboth := abs_settlement_add_le investment
  linarith

theorem abs_expectedReturn_le (investment : Investment) :
    |investment.expectedReturn| ≤ weight investment := by
  have hamount := abs_nonneg investment.investmentAmount
  have hactual := abs_nonneg (investment.actualReturn.getD 0)
  rw [weight]
  linarith

theorem currentValue_of_active
    (hactive : investment.status = .pending ∨ investment.status = .confirmed) :
    (toPosition investment).currentValue = investment.expectedReturn ∧
      settled (toPosition investment) = 0 ∧ realised (toPosition investment) = 0 := by
  rcases hactive with hstatus | hstatus
  · simp [toPosition, settled, realised, hstatus]
  · simp [toPosition, settled, realised, hstatus]

theorem realised_of_settled (hstatus : investment.status = .settled)
    (hexact : weight investment < 10 ^ precision) :
    (toPosition investment).currentValue = 0 ∧
      settled (toPosition investment) = settlement investment ∧
        realised (toPosition investment) =
          settlement investment - investment.investmentAmount := by
  have hminus := minus_ofUnits ((abs_settlement_sub_le investment).trans_lt hexact)
  simp only [toPosition, settled, realised, hstatus, toFixed4_ofUnits, Option.map_some,
    Option.getD_some]
  refine ⟨trivial, rfl, ?_⟩
  rw [← settlement, hminus, toFixed4_ofUnits]

theorem realised_of_cancelled (hstatus : investment.status = .cancelled)
    (hexact : weight investment < 10 ^ precision) :
    (toPosition investment).currentValue = 0 ∧ settled (toPosition investment) = 0 ∧
      realised (toPosition investment) = -investment.investmentAmount := by
  have hamount : |0 - investment.investmentAmount| < 10 ^ precision := by
    rw [zero_sub, abs_neg]
    exact (abs_amount_le investment).trans_lt hexact
  simp only [toPosition, settled, realised, hstatus, Option.map_some, Option.getD_some]
  refine ⟨trivial, trivial, ?_⟩
  rw [minus_ofUnits hamount, toFixed4_ofUnits, zero_sub]

theorem parts_le (hexact : weight investment < 10 ^ precision) :
    |(toPosition investment).currentValue| ≤ weight investment ∧
      |settled (toPosition investment)| ≤ weight investment ∧
        |realised (toPosition investment)| ≤ weight investment := by
  have hzero : |(0 : ℤ)| ≤ weight investment := by
    rw [abs_zero]
    exact weight_nonneg investment
  cases hstatus : investment.status with
  | pending | confirmed =>
      have hactive : investment.status = .pending ∨ investment.status = .confirmed := by
        simp [hstatus]
      obtain ⟨hvalue, hsettled, hrealised⟩ := currentValue_of_active hactive
      rw [hvalue, hsettled, hrealised]
      exact ⟨abs_expectedReturn_le investment, hzero, hzero⟩
  | settled =>
      obtain ⟨hvalue, hsettled, hrealised⟩ := realised_of_settled hstatus hexact
      have hboth := abs_settlement_add_le investment
      have hamount := abs_nonneg investment.investmentAmount
      rw [hvalue, hsettled, hrealised]
      exact ⟨hzero, by linarith, abs_settlement_sub_le investment⟩
  | cancelled =>
      obtain ⟨hvalue, hsettled, hrealised⟩ := realised_of_cancelled hstatus hexact
      rw [hvalue, hsettled, hrealised, abs_neg]
      exact ⟨hzero, hzero, abs_amount_le investment⟩

theorem abs_add_le_add {sum part : ℤ} (hsum : |sum| ≤ bound) (hpart : |part| ≤ weight investment) :
    |sum + part| ≤ bound + weight investment :=
  (abs_add_le sum part).trans (add_le_add hsum hpart)

theorem within_add (hwithin : sums.Within bound) (hexact : weight investment < 10 ^ precision) :
    (sums.add (toPosition investment)).Within (bound + weight investment) := by
  obtain ⟨hinvested, hvalue, hreturns, hpnl⟩ := hwithin
  obtain ⟨hvaluePart, hsettledPart, hrealisedPart⟩ := parts_le hexact
  have hamount : |(toPosition investment).amountInvested| ≤ weight investment := by
    rw [amountInvested_toPosition]
    exact abs_amount_le investment
  exact ⟨abs_add_le_add hinvested hamount, abs_add_le_add hvalue hvaluePart,
    abs_add_le_add hreturns hsettledPart, abs_add_le_add hpnl hrealisedPart⟩

/-- Adding an investment to exact sums is exact. -/
theorem add_decimals (hwithin : sums.Within bound)
    (hexact : bound + weight investment < 10 ^ precision) :
    sums.decimals.add investment = (sums.add (toPosition investment)).decimals := by
  obtain ⟨hinvested, hvalue, hreturns, hpnl⟩ := hwithin
  have hbound : 0 ≤ bound := (abs_nonneg _).trans hinvested
  have hsmall : weight investment < 10 ^ precision := by linarith
  have hplus : ∀ {sum part : ℤ}, |sum| ≤ bound → |part| ≤ weight investment →
      plus (ofUnits sum) (ofUnits part) = ofUnits (sum + part) :=
    fun hsum hpart => plus_ofUnits ((abs_add_le_add hsum hpart).trans_lt hexact)
  have hinvestedSum := hplus hinvested (abs_amount_le investment)
  cases hstatus : investment.status with
  | pending | confirmed =>
      have hactive : investment.status = .pending ∨ investment.status = .confirmed := by
        simp [hstatus]
      obtain ⟨hcurrent, hsettled, hrealised⟩ := currentValue_of_active hactive
      simp only [PortfolioSums.add, hstatus, UnitSums.decimals, UnitSums.add,
        amountInvested_toPosition, hcurrent, hsettled, hrealised, add_zero, hinvestedSum,
        hplus hvalue (abs_expectedReturn_le investment)]
  | settled =>
      obtain ⟨hcurrent, hsettled, hrealised⟩ := realised_of_settled hstatus hsmall
      obtain ⟨-, hsettledPart, hrealisedPart⟩ := parts_le hsmall
      rw [hsettled] at hsettledPart
      rw [hrealised] at hrealisedPart
      have hminus := minus_ofUnits ((abs_settlement_sub_le investment).trans_lt hsmall)
      have hrefold : investment.actualReturn.getD investment.expectedReturn =
          settlement investment := rfl
      simp only [PortfolioSums.add, hstatus, hrefold, UnitSums.decimals, UnitSums.add,
        amountInvested_toPosition, hcurrent, hsettled, hrealised, add_zero, hinvestedSum, hminus,
        hplus hreturns hsettledPart, hplus hpnl hrealisedPart]
  | cancelled =>
      obtain ⟨hcurrent, hsettled, hrealised⟩ := realised_of_cancelled hstatus hsmall
      obtain ⟨-, -, hrealisedPart⟩ := parts_le hsmall
      rw [hrealised] at hrealisedPart
      have hminus : minus 0 (ofUnits investment.investmentAmount) =
          ofUnits (-investment.investmentAmount) := by
        rw [← ofUnits_zero, ← zero_sub]
        apply minus_ofUnits
        rw [zero_sub, abs_neg]
        exact (abs_amount_le investment).trans_lt hsmall
      simp only [PortfolioSums.add, hstatus, UnitSums.decimals, UnitSums.add,
        amountInvested_toPosition, hcurrent, hsettled, hrealised, add_zero, hinvestedSum, hminus,
        hplus hpnl hrealisedPart]

end Steps

/-! ## The whole portfolio -/

theorem foldl_decimals {investments : List Investment} {sums : UnitSums} {bound : ℤ}
    (hwithin : sums.Within bound)
    (hexact : bound + (investments.map weight).sum < 10 ^ precision) :
    investments.foldl PortfolioSums.add sums.decimals =
      ((investments.map toPosition).foldl UnitSums.add sums).decimals := by
  induction investments generalizing sums bound with
  | nil => rfl
  | cons investment rest ih =>
      have hbound : 0 ≤ bound := (abs_nonneg _).trans hwithin.1
      have hrest : 0 ≤ (rest.map weight).sum := weights_nonneg rest
      rw [List.map_cons, List.sum_cons] at hexact
      rw [List.foldl_cons, List.map_cons, List.foldl_cons,
        add_decimals hwithin (by linarith)]
      exact ih (within_add hwithin (by linarith)) (by linarith)

theorem foldl_units (positions : List PortfolioPosition) (sums : UnitSums) :
    positions.foldl UnitSums.add sums =
      ⟨sums.totalInvested + sumOf PortfolioPosition.amountInvested positions,
        sums.currentPortfolioValue + sumOf PortfolioPosition.currentValue positions,
        sums.realisedReturns + sumOf settled positions,
        sums.realisedPnl + sumOf realised positions⟩ := by
  induction positions generalizing sums with
  | nil => simp [sumOf]
  | cons position rest ih =>
      rw [List.foldl_cons, ih]
      simp only [UnitSums.add, sumOf, List.map_cons, List.sum_cons, add_assoc]

/-- What was invested is still active, or is accounted for by what came back. -/
theorem balance_toPosition {investment : Investment} (hexact : weight investment < 10 ^ precision) :
    (toPosition investment).amountInvested + realised (toPosition investment) =
      settled (toPosition investment) + if isActive (toPosition investment) = true
        then (toPosition investment).amountInvested else 0 := by
  have hposition : (toPosition investment).status = investment.status := rfl
  cases hstatus : investment.status with
  | pending | confirmed =>
      have hactive : investment.status = .pending ∨ investment.status = .confirmed := by
        simp [hstatus]
      obtain ⟨-, hsettled, hrealised⟩ := currentValue_of_active hactive
      simp [isActive, hposition, hstatus, hsettled, hrealised]
  | settled =>
      obtain ⟨-, hsettled, hrealised⟩ := realised_of_settled hstatus hexact
      rw [hsettled, hrealised, amountInvested_toPosition]
      simp [isActive, hposition, hstatus]
  | cancelled =>
      obtain ⟨-, hsettled, hrealised⟩ := realised_of_cancelled hstatus hexact
      rw [hsettled, hrealised, amountInvested_toPosition]
      simp [isActive, hposition, hstatus]

theorem balance_positions {investments : List Investment}
    (hexact : (investments.map weight).sum < 10 ^ precision) :
    sumOf PortfolioPosition.amountInvested (investments.map toPosition) +
        sumOf realised (investments.map toPosition) =
      sumOf settled (investments.map toPosition) + sumOf PortfolioPosition.amountInvested
        ((investments.map toPosition).filter isActive) := by
  induction investments with
  | nil => rfl
  | cons investment rest ih =>
      have hrest : 0 ≤ (rest.map weight).sum := weights_nonneg rest
      have hfirst := weight_nonneg investment
      rw [List.map_cons, List.sum_cons] at hexact
      have hsmall : weight investment < 10 ^ precision := by linarith
      have hone := balance_toPosition hsmall
      have hothers := ih (by linarith)
      simp only [List.map_cons, List.filter_cons]
      split
      · rename_i hactive
        rw [if_pos hactive] at hone
        simp only [sumOf, List.map_cons, List.sum_cons] at hothers ⊢
        linarith
      · rename_i hended
        rw [if_neg hended] at hone
        simp only [sumOf, List.map_cons, List.sum_cons] at hothers ⊢
        linarith

theorem sumOf_perm {column : PortfolioPosition → ℤ} {left right : List PortfolioPosition}
    (hperm : left.Perm right) : sumOf column left = sumOf column right :=
  (hperm.map column).sum_eq

/-- It does not matter in which order the positions are. -/
theorem AddsUp.perm {summary : PortfolioSummary} {left right : List PortfolioPosition}
    (hperm : left.Perm right) (hadds : AddsUp summary left) : AddsUp summary right where
  totalInvested := hadds.totalInvested.trans (sumOf_perm hperm)
  currentPortfolioValue := hadds.currentPortfolioValue.trans (sumOf_perm hperm)
  realisedReturns := hadds.realisedReturns.trans (sumOf_perm hperm)
  realisedPnl := hadds.realisedPnl.trans (sumOf_perm hperm)
  balance := hadds.balance.trans (congrArg _ (sumOf_perm (hperm.filter isActive)))

theorem addsUp_foldl {investments : List Investment}
    (hexact : (investments.map weight).sum < 10 ^ precision) :
    AddsUp (investments.foldl PortfolioSums.add ⟨0, 0, 0, 0⟩).summary
      (investments.map toPosition) := by
  have hstart : (⟨0, 0, 0, 0⟩ : MillisecondCursors.PortfolioSums) =
      UnitSums.decimals ⟨0, 0, 0, 0⟩ := by
    simp [UnitSums.decimals]
  have hwithin : UnitSums.Within ⟨0, 0, 0, 0⟩ 0 := by simp [UnitSums.Within]
  rw [hstart, foldl_decimals hwithin (by rwa [zero_add]), foldl_units]
  simp only [UnitSums.decimals, PortfolioSums.summary, toFixed4_ofUnits, zero_add]
  exact ⟨rfl, rfl, rfl, rfl, balance_positions hexact⟩

theorem summary_of_getPortfolio {investments : List Investment} {investorId : Uuid}
    {limit : Option ℤ} {cursor : Option PortfolioCursor} {page : PortfolioPage}
    (hpage : getPortfolio investments investorId limit cursor = .ok page) :
    page.summary =
      ((investments.filter (ownedBy investorId)).foldl PortfolioSums.add ⟨0, 0, 0, 0⟩).summary := by
  rw [getPortfolio] at hpage
  cases hquery : portfolioQuery investorId cursor with
  | error failure =>
      rw [hquery] at hpage
      cases hpage
  | ok query =>
      rw [hquery] at hpage
      obtain rfl := Except.ok.inj hpage
      rfl

/-- The summary of every page is the sum of all positions of the investor, and where no page is cut
inside a millisecond the positions of the pages add up to it. -/
theorem portfolio_addsUp (investments : UniqueRows Investment.id) (investorId : Uuid)
    (limit : Option ℤ)
    (hexact : ((investments.rows.filter (ownedBy investorId)).map weight).sum < 10 ^ precision) :
    (∀ size cursor page, getPortfolio investments.rows investorId size cursor = .ok page →
      AddsUp page.summary ((investments.rows.filter (ownedBy investorId)).map toPosition)) ∧
    (investmentTable.CutsByMillisecond (ownedBy investorId) investments (pageLimit limit) →
      ∃ pages, Walk (followPortfolio investments.rows investorId limit) 0 none pages ∧
        ∀ size cursor page, getPortfolio investments.rows investorId size cursor = .ok page →
          AddsUp page.summary pages.flatten) := by
  have hadds : ∀ size cursor page,
      getPortfolio investments.rows investorId size cursor = .ok page →
        AddsUp page.summary ((investments.rows.filter (ownedBy investorId)).map toPosition) := by
    intro size cursor page hpage
    rw [summary_of_getPortfolio hpage]
    exact addsUp_foldl hexact
  refine ⟨hadds, fun hcuts => ?_⟩
  obtain ⟨pages, hwalk, hperm⟩ := portfolio_returnsOnce_iff.mpr hcuts
  exact ⟨pages, hwalk, fun size cursor page hpage => (hadds size cursor page hpage).perm hperm.symm⟩

/-- An investment that is active, one that was settled at a gain and one that was cancelled. -/
def threeInvestments : UniqueRows Investment.id where
  rows := [⟨1, 7, 5, .confirmed, 1000000, 1100000, none, 1767225600000000, none, none⟩,
    ⟨2, 7, 6, .settled, 500000, 600000, some 550000, 1767225601000000, none, none⟩,
    ⟨3, 7, 8, .cancelled, 200000, 250000, none, 1767225602000000, none, none⟩]
  unique := by decide

theorem portfolio_addsUp_three :
    ∃ pages page, Walk (followPortfolio threeInvestments.rows 7 (some 1)) 0 none pages ∧
      getPortfolio threeInvestments.rows 7 (some 1) none = .ok page ∧
      page.summary = ⟨1700000, 1100000, 550000, -150000⟩ ∧ AddsUp page.summary pages.flatten := by
  let shown : List PortfolioPosition := (threeInvestments.rows.map toPosition).reverse
  have hfollow : follow (followPortfolio threeInvestments.rows 7 (some 1)) 3 0 none =
      some (shown.map fun position => [position]) := by decide +kernel
  have hperm : (shown.map fun position => [position]).flatten.Perm
      ((threeInvestments.rows.filter (ownedBy 7)).map toPosition) := by decide +kernel
  have hcuts := portfolio_returnsOnce_iff.mp (returnsOnce_of_follow hfollow hperm)
  obtain ⟨pages, hwalk, hadds⟩ :=
    (portfolio_addsUp threeInvestments 7 (some 1) (by decide +kernel)).2 hcuts
  obtain ⟨page, hpage, hsummary⟩ : ∃ page,
      getPortfolio threeInvestments.rows 7 (some 1) none = .ok page ∧
        page.summary = ⟨1700000, 1100000, 550000, -150000⟩ := by
    refine ⟨⟨⟨1700000, 1100000, 550000, -150000⟩, shown.take 1,
      some ⟨some 1767225602000, .uuid 3⟩, true⟩, ?_, rfl⟩
    decide +kernel
  exact ⟨pages, page, hwalk, hpage, hsummary, hadds (some 1) none page hpage⟩

end StellarSettle.PortfolioSums
