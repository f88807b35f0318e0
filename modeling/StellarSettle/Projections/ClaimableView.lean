import StellarSettle.Projections.DividendDistribution

/-!
# What a holder can claim

`getClaimable` and `getSummary` sum the allocations and the claims of a wallet up by cycle,
and the cycles up to totals.  The totals do not depend on the order in which the rows come,
nor on how they fall into cycles.
-/

namespace StellarSettle.ClaimableView

open StellarSettle.Amounts
open StellarSettle.DecimalJs
open StellarSettle.DividendDistribution
open StellarSettle.Entities

/-! ## Cycles -/

structure CycleTotals where
  cycleId : String
  cycleFrequency : Option String := none
  distributedAt : Option Timestamp := none
  claimedAt : Option Timestamp := none
  txHash : Option String := none
  earned : DecimalValue := .number 0
  claimed : DecimalValue := .number 0
  deriving DecidableEq, Repr

/-- Updates the cycle of the id, which is created at the end where there is none. -/
def touch (cycleId : String) (update : CycleTotals → CycleTotals) :
    List CycleTotals → List CycleTotals
  | [] => [update { cycleId := cycleId }]
  | cycle :: rest =>
      if cycle.cycleId = cycleId then update cycle :: rest
      else cycle :: touch cycleId update rest

def addAllocation (allocation : Allocation) (cycle : CycleTotals) : CycleTotals :=
  { cycle with
    earned := cycle.earned.plus allocation.amount.value
    cycleFrequency := allocation.cycleFrequency.or cycle.cycleFrequency
    distributedAt := some allocation.distributedAt
    txHash := allocation.txHash.or cycle.txHash }

def addClaim (claim : Claim) (cycle : CycleTotals) : CycleTotals :=
  { cycle with
    claimed := cycle.claimed.plus claim.amount.value
    cycleFrequency := claim.cycleFrequency.or cycle.cycleFrequency
    claimedAt := cycle.claimedAt.or (some claim.claimedAt) }

def allocationCycle (allocation : Allocation) : String :=
  allocation.distributionId.getD allocation.allocationId

def claimCycle (claim : Claim) : String := claim.distributionId.getD s!"claim:{claim.claimId}"

def timeOf (time : Option Timestamp) : Timestamp := time.getD 0

/-- Adds each row to its cycle. -/
def touchAll {Row : Type} (cycleOf : Row → String) (add : Row → CycleTotals → CycleTotals)
    (cycles : List CycleTotals) (rows : List Row) : List CycleTotals :=
  rows.foldl (fun cycles row => touch (cycleOf row) (add row) cycles) cycles

/-- The cycles of a wallet from its rows, the latest distribution first. -/
def loadCycles (allocations : List Allocation) (claims : List Claim) : List CycleTotals :=
  let earned := touchAll allocationCycle addAllocation [] allocations
  let claimed := touchAll claimCycle addClaim earned claims
  claimed.mergeSort fun left right =>
    decide (timeOf right.distributedAt ≤ timeOf left.distributedAt)

/-! ## Views -/

structure DividendCycleClaimableView where
  cycleId : String
  cycleFrequency : Option String
  distributedAt : Option Timestamp
  txHash : Option String
  earned : Amount
  claimed : Amount
  claimable : Amount
  deriving DecidableEq, Repr

structure DividendClaimableView where
  wallet : String
  cycles : List DividendCycleClaimableView
  totalEarned : Amount
  totalClaimed : Amount
  totalClaimable : Amount
  deriving DecidableEq, Repr

structure DividendSummaryView where
  wallet : String
  totalEarned : Amount
  totalClaimed : Amount
  totalPending : Amount
  cycleCount : ℕ
  deriving DecidableEq, Repr

def cycleView (cycle : CycleTotals) : DividendCycleClaimableView :=
  let claimable := cycle.earned.minus cycle.claimed
  { cycleId := cycle.cycleId
    cycleFrequency := cycle.cycleFrequency
    distributedAt := cycle.distributedAt
    txHash := cycle.txHash
    earned := cycle.earned.toFixed
    claimed := cycle.claimed.toFixed
    claimable := (if claimable.isNegative then .number 0 else claimable).toFixed }

def buildClaimableView (wallet : String) (cycles : List CycleTotals) : DividendClaimableView :=
  let views := cycles.map cycleView
  { wallet := wallet
    cycles := views
    totalEarned := (sumDecimals (views.map fun view => view.earned)).toFixed
    totalClaimed := (sumDecimals (views.map fun view => view.claimed)).toFixed
    totalClaimable := (sumDecimals (views.map fun view => view.claimable)).toFixed }

/-- The view of the rows that `allocationsByWallet` and `claimsByWallet` return. -/
def getClaimable (wallet : String) (allocations : List Allocation) (claims : List Claim) :
    DividendClaimableView :=
  buildClaimableView wallet (loadCycles allocations claims)

def getSummary (wallet : String) (allocations : List Allocation) (claims : List Claim) :
    DividendSummaryView :=
  let view := getClaimable wallet allocations claims
  { wallet := wallet
    totalEarned := view.totalEarned
    totalClaimed := view.totalClaimed
    totalPending := view.totalClaimable
    cycleCount := view.cycles.length }

/-! ## Sums over cycles -/

/-- The cycles' column holds these units. -/
def Holds (column : CycleTotals → DecimalValue) (cycles : List CycleTotals) (units : List ℤ) :
    Prop :=
  cycles.map column = units.map fun count => .number (ofUnits count)

/-- The update adds the units to the column, as long as the result has twenty digits. -/
def Adds (column : CycleTotals → DecimalValue) (update : CycleTotals → CycleTotals)
    (count : ℤ) : Prop :=
  ∀ cycle held, column cycle = .number (ofUnits held) → |held + count| < 10 ^ precision →
    column (update cycle) = .number (ofUnits (held + count))

/-- Of the units that the cycles hold, only their sum and their size count. -/
structure Holding (column : CycleTotals → DecimalValue) (cycles : List CycleTotals)
    (total size : ℤ) : Prop where
  exists_units : ∃ units, Holds column cycles units ∧ units.sum = total ∧
    (units.map fun count => |count|).sum ≤ size

section Cycles

variable {column : CycleTotals → DecimalValue} {cycles : List CycleTotals} {total size count : ℤ}
  {cycleId : String} {update : CycleTotals → CycleTotals}

theorem holding_nil : Holding column [] 0 0 := ⟨[], rfl, rfl, le_rfl⟩

theorem exists_holds_touch {units : List ℤ} (hholds : Holds column cycles units)
    (hadds : Adds column update count)
    (hempty : column { cycleId := cycleId } = .number (ofUnits 0))
    (hbound : (units.map fun count => |count|).sum + |count| < 10 ^ precision) :
    ∃ after, Holds column (touch cycleId update cycles) after ∧ after.sum = units.sum + count ∧
      (after.map fun count => |count|).sum ≤ (units.map fun count => |count|).sum + |count| := by
  induction cycles generalizing units with
  | nil =>
      obtain rfl : units = [] := by simpa [Holds] using hholds.symm
      have hadded := hadds _ 0 hempty (by simpa using hbound)
      exact ⟨[0 + count], by simp [Holds, touch, hadded], by simp, by simp⟩
  | cons cycle rest ih =>
      cases units with
      | nil => cases hholds
      | cons held others =>
          obtain ⟨hcycle, hrest⟩ := List.cons.inj hholds
          have hothers : 0 ≤ (others.map fun count => |count|).sum := sum_abs_nonneg id others
          have hadd : |held + count| ≤ |held| + |count| := abs_add_le _ _
          have hheld : 0 ≤ |held| := abs_nonneg held
          rw [List.map_cons, List.sum_cons] at hbound ⊢
          rw [List.sum_cons]
          by_cases hid : cycle.cycleId = cycleId
          · rw [touch, if_pos hid]
            refine ⟨(held + count) :: others, ?_, by rw [List.sum_cons]; omega, ?_⟩
            · rw [Holds, List.map_cons, List.map_cons, hadds cycle held hcycle (by omega), hrest]
            · rw [List.map_cons, List.sum_cons]
              omega
          · rw [touch, if_neg hid]
            obtain ⟨after, hafter, hsum, hless⟩ := ih hrest (by omega)
            refine ⟨held :: after, ?_, by rw [List.sum_cons, hsum]; omega, ?_⟩
            · rw [Holds, List.map_cons, List.map_cons, hcycle, hafter]
            · rw [List.map_cons, List.sum_cons]
              omega

theorem Holding.touch (hholding : Holding column cycles total size)
    (hadds : Adds column update count)
    (hempty : column { cycleId := cycleId } = .number (ofUnits 0))
    (hbound : size + |count| < 10 ^ precision) :
    Holding column (touch cycleId update cycles) (total + count) (size + |count|) := by
  obtain ⟨units, hholds, rfl, hsize⟩ := hholding
  obtain ⟨after, hafter, hsum, hless⟩ := exists_holds_touch hholds hadds hempty (by omega)
  exact ⟨after, hafter, hsum, by omega⟩

/-- Adding rows adds their units. -/
theorem Holding.touchAll {Row : Type} {rows : List Row} {cycleOf : Row → String}
    {add : Row → CycleTotals → CycleTotals} {countOf : Row → ℤ}
    (hholding : Holding column cycles total size)
    (hadds : ∀ row ∈ rows, Adds column (add row) (countOf row))
    (hempty : ∀ cycleId, column { cycleId := cycleId } = .number (ofUnits 0))
    (hbound : size + (rows.map fun row => |countOf row|).sum < 10 ^ precision) :
    Holding column (touchAll cycleOf add cycles rows) (total + (rows.map countOf).sum)
      (size + (rows.map fun row => |countOf row|).sum) := by
  induction rows generalizing cycles total size with
  | nil => simpa [ClaimableView.touchAll] using hholding
  | cons row rest ih =>
      have hrest := sum_abs_nonneg countOf rest
      rw [List.map_cons, List.sum_cons] at hbound
      have hnext := ih (hholding.touch (hadds row List.mem_cons_self) (hempty (cycleOf row))
        (by omega)) (fun other hother => hadds other (List.mem_cons_of_mem _ hother)) (by omega)
      rw [List.map_cons, List.map_cons, List.sum_cons, List.sum_cons, ← add_assoc, ← add_assoc]
      exact hnext

/-- Rows that leave the column leave what it holds. -/
theorem Holding.touchAll_same {Row : Type} {rows : List Row} {cycleOf : Row → String}
    {add : Row → CycleTotals → CycleTotals} (hholding : Holding column cycles total size)
    (hsame : ∀ row cycle, column (add row cycle) = column cycle)
    (hempty : ∀ cycleId, column { cycleId := cycleId } = .number (ofUnits 0))
    (hbound : size < 10 ^ precision) :
    Holding column (ClaimableView.touchAll cycleOf add cycles rows) total size := by
  have hadds : ∀ row ∈ rows, Adds column (add row) 0 := by
    intro row _ cycle held hheld _
    rw [hsame, hheld, add_zero]
  simpa using hholding.touchAll hadds hempty (by simpa using hbound)

/-- What the cycles hold prints as summable amounts. -/
theorem Holding.summable (hholding : Holding column cycles total size)
    (hbound : size < 10 ^ precision) :
    Summable (cycles.map fun cycle => (column cycle).toFixed) ∧
      unitsTotal (cycles.map fun cycle => (column cycle).toFixed) = total := by
  obtain ⟨units, hholds, rfl, hsize⟩ := hholding
  have hamounts : (cycles.map fun cycle => (column cycle).toFixed) = units.map Amount.units := by
    calc (cycles.map fun cycle => (column cycle).toFixed)
        = (cycles.map column).map DecimalValue.toFixed := by rw [List.map_map]; rfl
      _ = units.map fun count => (DecimalValue.number (ofUnits count)).toFixed := by
          rw [hholds, List.map_map]
          rfl
      _ = units.map Amount.units := by simp
  rw [hamounts]
  refine ⟨⟨fun amount hamount => ?_, ?_⟩, ?_⟩
  · obtain ⟨count, -, rfl⟩ := List.mem_map.mp hamount
    rfl
  · rw [List.map_map]
    exact hsize.trans_lt hbound
  · rw [unitsTotal, List.map_map]
    exact congrArg List.sum (List.map_id units)

end Cycles

/-! ## Rows -/

theorem adds_earned {allocation : Allocation} (hnumber : allocation.amount.IsNumber) :
    Adds CycleTotals.earned (addAllocation allocation) allocation.amount.toUnits := by
  intro cycle held hheld hbound
  rw [addAllocation, hheld, value_of_isNumber hnumber, plus_units hbound]

theorem adds_claimed {claim : Claim} (hnumber : claim.amount.IsNumber) :
    Adds CycleTotals.claimed (addClaim claim) claim.amount.toUnits := by
  intro cycle held hheld hbound
  rw [addClaim, hheld, value_of_isNumber hnumber, plus_units hbound]

section Totals

variable {allocations : List Allocation} {claims : List Claim}

theorem loadCycles_perm (allocations : List Allocation) (claims : List Claim) :
    (loadCycles allocations claims).Perm
      (touchAll claimCycle addClaim (touchAll allocationCycle addAllocation [] allocations)
        claims) :=
  List.mergeSort_perm _ _

/-- The cycles of all rows, printed, make up the rows' units. -/
theorem total_of_holding {column : CycleTotals → DecimalValue} {total size : ℤ}
    (hholding : Holding column
      (touchAll claimCycle addClaim (touchAll allocationCycle addAllocation [] allocations) claims)
      total size) (hbound : size < 10 ^ precision) :
    (sumDecimals ((loadCycles allocations claims).map fun cycle =>
      (column cycle).toFixed)).toFixed = .units total := by
  obtain ⟨hsummable, htotal⟩ := hholding.summable hbound
  have hperm := (loadCycles_perm allocations claims).map fun cycle => (column cycle).toFixed
  rw [toFixed_sumDecimals (hsummable.perm hperm), unitsTotal_perm hperm, htotal]

/-- The cycles hold the allocations as what was earned. -/
theorem holding_earned (claims : List Claim)
    (hsummable : Summable (allocations.map Allocation.amount)) :
    Holding CycleTotals.earned
      (touchAll claimCycle addClaim (touchAll allocationCycle addAllocation [] allocations) claims)
      (unitsTotal (allocations.map Allocation.amount))
      (allocations.map fun allocation => |allocation.amount.toUnits|).sum := by
  have hempty : ∀ cycleId, CycleTotals.earned { cycleId := cycleId } = .number (ofUnits 0) :=
    fun cycleId => by simp
  have hadds : ∀ allocation ∈ allocations,
      Adds CycleTotals.earned (addAllocation allocation) allocation.amount.toUnits :=
    fun allocation hallocation =>
      adds_earned (hsummable.numbers _ (List.mem_map_of_mem hallocation))
  have hbound := hsummable.bounded
  rw [List.map_map] at hbound
  have hearned : Holding CycleTotals.earned (touchAll allocationCycle addAllocation [] allocations)
      _ _ := holding_nil.touchAll hadds hempty (by rw [zero_add]; exact hbound)
  rw [zero_add, zero_add] at hearned
  rw [unitsTotal, List.map_map]
  exact hearned.touchAll_same (fun _ _ => rfl) hempty hbound

/-- The cycles hold the claims as what was claimed. -/
theorem holding_claimed (allocations : List Allocation)
    (hsummable : Summable (claims.map Claim.amount)) :
    Holding CycleTotals.claimed
      (touchAll claimCycle addClaim (touchAll allocationCycle addAllocation [] allocations) claims)
      (unitsTotal (claims.map Claim.amount))
      (claims.map fun claim => |claim.amount.toUnits|).sum := by
  have hempty : ∀ cycleId, CycleTotals.claimed { cycleId := cycleId } = .number (ofUnits 0) :=
    fun cycleId => by simp
  have hadds : ∀ claim ∈ claims, Adds CycleTotals.claimed (addClaim claim) claim.amount.toUnits :=
    fun claim hclaim => adds_claimed (hsummable.numbers _ (List.mem_map_of_mem hclaim))
  have hbound := hsummable.bounded
  rw [List.map_map] at hbound
  have hunclaimed : Holding CycleTotals.claimed
      (touchAll allocationCycle addAllocation [] allocations) 0 0 :=
    holding_nil.touchAll_same (fun _ _ => rfl) hempty (by norm_num [precision])
  have hholding : Holding CycleTotals.claimed
      (touchAll claimCycle addClaim (touchAll allocationCycle addAllocation [] allocations) claims)
      _ _ := hunclaimed.touchAll hadds hempty (by rw [zero_add]; exact hbound)
  rw [zero_add, zero_add] at hholding
  rw [unitsTotal, List.map_map]
  exact hholding

theorem totalEarned_eq (wallet : String) (claims : List Claim)
    (hsummable : Summable (allocations.map Allocation.amount)) :
    (getClaimable wallet allocations claims).totalEarned =
      .units (unitsTotal (allocations.map Allocation.amount)) := by
  have hbound := hsummable.bounded
  rw [List.map_map] at hbound
  calc (getClaimable wallet allocations claims).totalEarned
      = (sumDecimals ((loadCycles allocations claims).map fun cycle =>
          cycle.earned.toFixed)).toFixed := by
        rw [getClaimable, buildClaimableView]
        dsimp only
        rw [List.map_map]
        rfl
    _ = .units (unitsTotal (allocations.map Allocation.amount)) :=
        total_of_holding (holding_earned claims hsummable) hbound

theorem totalClaimed_eq (wallet : String) (allocations : List Allocation)
    (hsummable : Summable (claims.map Claim.amount)) :
    (getClaimable wallet allocations claims).totalClaimed =
      .units (unitsTotal (claims.map Claim.amount)) := by
  have hbound := hsummable.bounded
  rw [List.map_map] at hbound
  calc (getClaimable wallet allocations claims).totalClaimed
      = (sumDecimals ((loadCycles allocations claims).map fun cycle =>
          cycle.claimed.toFixed)).toFixed := by
        rw [getClaimable, buildClaimableView]
        dsimp only
        rw [List.map_map]
        rfl
    _ = .units (unitsTotal (claims.map Claim.amount)) :=
        total_of_holding (holding_claimed allocations hsummable) hbound

end Totals

end StellarSettle.ClaimableView
