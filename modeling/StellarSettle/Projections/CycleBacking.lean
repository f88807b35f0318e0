import StellarSettle.Projections.ClaimableView

/-!
# Claims that are backed by allocations

A claim without a distribution is its own cycle, in which nothing was earned.  Each cycle is
cut off at zero before the cycles are summed up, so the totals fit together exactly when
every cycle's claims are backed by its allocations.
-/

namespace StellarSettle.CycleBacking

open StellarSettle.Amounts
open StellarSettle.ClaimableView
open StellarSettle.DecimalJs
open StellarSettle.DividendDistribution

/-- The units of the rows with a key. -/
def unitsIn {Row Key : Type} [DecidableEq Key] (keyOf : Row → Key) (countOf : Row → ℤ)
    (rows : List Row) (key : Key) : ℤ :=
  ((rows.filter fun row => keyOf row = key).map countOf).sum

def allocationUnits (allocation : Allocation) : ℤ := allocation.amount.toUnits

def claimUnits (claim : Claim) : ℤ := claim.amount.toUnits

/-- No more is claimed than is allocated, of each distribution and in all. -/
structure Backed (allocations : List Allocation) (claims : List Claim) : Prop where
  distributions : ∀ distributionId : String,
    unitsIn Claim.distributionId claimUnits claims (some distributionId) ≤
      unitsIn Allocation.distributionId allocationUnits allocations (some distributionId)
  all : (claims.map claimUnits).sum ≤ (allocations.map allocationUnits).sum

/-- No more is claimed than is allocated, in each of the cycles that the rows fall into. -/
def BackedByCycle (allocations : List Allocation) (claims : List Claim) : Prop :=
  ∀ cycleId, unitsIn claimCycle claimUnits claims cycleId ≤
    unitsIn allocationCycle allocationUnits allocations cycleId

/-- What can be claimed is what was earned less what was claimed. -/
def Balanced (view : DividendClaimableView) (summary : DividendSummaryView) : Prop :=
  ∃ earned claimed, view.totalEarned = .units earned ∧ view.totalClaimed = .units claimed ∧
    view.totalClaimable = .units (earned - claimed) ∧
    summary.totalPending = .units (earned - claimed)

/-! ## Sums -/

section Sums

variable {Row Key : Type}

theorem unitsIn_cons [DecidableEq Key] (keyOf : Row → Key) (countOf : Row → ℤ) (row : Row)
    (rows : List Row) (key : Key) :
    unitsIn keyOf countOf (row :: rows) key =
      (if keyOf row = key then countOf row else 0) + unitsIn keyOf countOf rows key := by
  rw [unitsIn, unitsIn, List.filter_cons]
  by_cases hkey : keyOf row = key <;> simp [hkey]

@[simp]
theorem unitsIn_zero [DecidableEq Key] (keyOf : Row → Key) (rows : List Row) (key : Key) :
    unitsIn keyOf (fun _ => 0) rows key = 0 := by
  simp [unitsIn]

/-- Differences that are cut off at zero add up to the difference of the sums exactly when
none is cut off. -/
theorem sum_max_eq_iff (earned claimed : Row → ℤ) (rows : List Row) :
    (rows.map fun row => max 0 (earned row - claimed row)).sum =
        (rows.map earned).sum - (rows.map claimed).sum ↔
      ∀ row ∈ rows, claimed row ≤ earned row := by
  have hleast : ∀ others : List Row, (others.map earned).sum - (others.map claimed).sum ≤
      (others.map fun row => max 0 (earned row - claimed row)).sum := by
    intro others
    induction others with
    | nil => simp
    | cons row rest ih =>
        have hrow : earned row - claimed row ≤ max 0 (earned row - claimed row) := le_max_right _ _
        simp only [List.map_cons, List.sum_cons]
        omega
  induction rows with
  | nil => simp
  | cons row rest ih =>
      have hrest := hleast rest
      refine Iff.trans ?_ ((and_congr_right' ih).trans List.forall_mem_cons.symm)
      simp only [List.map_cons, List.sum_cons]
      by_cases hbacked : claimed row ≤ earned row
      · rw [max_eq_right (by omega)]
        omega
      · rw [max_eq_left (by omega)]
        omega

theorem sum_max_le (earned claimed : Row → ℤ) (rows : List Row) :
    (rows.map fun row => |max 0 (earned row - claimed row)|).sum ≤
      (rows.map fun row => |earned row|).sum + (rows.map fun row => |claimed row|).sum := by
  induction rows with
  | nil => simp
  | cons row rest ih =>
      have hrow : |max 0 (earned row - claimed row)| ≤ |earned row| + |claimed row| := by
        rw [abs_of_nonneg (le_max_left _ _)]
        refine max_le (add_nonneg (abs_nonneg _) (abs_nonneg _)) ?_
        exact (le_abs_self _).trans (abs_sub _ _)
      simp only [List.map_cons, List.sum_cons]
      omega

end Sums

/-! ## What a cycle holds -/

/-- Every cycle's column holds the units of its id, and an id without a cycle has none. -/
structure Tallies (column : CycleTotals → DecimalValue) (cycles : List CycleTotals)
    (units : String → ℤ) : Prop where
  ids : (cycles.map CycleTotals.cycleId).Nodup
  holds : ∀ cycle ∈ cycles, column cycle = .number (ofUnits (units cycle.cycleId))
  absent : ∀ cycleId ∉ cycles.map CycleTotals.cycleId, units cycleId = 0

section Tallies

variable {column : CycleTotals → DecimalValue} {cycles : List CycleTotals} {units : String → ℤ}
  {cycleId : String} {update : CycleTotals → CycleTotals} {count : ℤ}

theorem tallies_nil : Tallies column [] fun _ => 0 :=
  ⟨List.nodup_nil, fun _ hmem => by (cases hmem), fun _ _ => rfl⟩

/-- A touched list has the updated cycle and the other cycles, and no others. -/
theorem mem_touch (hids : (cycles.map CycleTotals.cycleId).Nodup) {cycle : CycleTotals}
    (hmem : cycle ∈ touch cycleId update cycles) :
    (∃ old, (old ∈ cycles ∨ old = { cycleId := cycleId } ∧
        cycleId ∉ cycles.map CycleTotals.cycleId) ∧
      old.cycleId = cycleId ∧ cycle = update old) ∨
      cycle ∈ cycles ∧ cycle.cycleId ≠ cycleId := by
  induction cycles with
  | nil =>
      obtain rfl := List.mem_singleton.mp hmem
      exact .inl ⟨_, .inr ⟨rfl, List.not_mem_nil⟩, rfl, rfl⟩
  | cons first rest ih =>
      obtain ⟨hfirst, hrest⟩ := List.nodup_cons.mp hids
      by_cases hid : first.cycleId = cycleId
      · rw [touch, if_pos hid] at hmem
        rcases List.mem_cons.mp hmem with rfl | htail
        · exact .inl ⟨first, .inl List.mem_cons_self, hid, rfl⟩
        · refine .inr ⟨List.mem_cons_of_mem _ htail, fun hsame => hfirst ?_⟩
          rw [hid, ← hsame]
          exact List.mem_map_of_mem htail
      · rw [touch, if_neg hid] at hmem
        rcases List.mem_cons.mp hmem with rfl | htail
        · exact .inr ⟨List.mem_cons_self, hid⟩
        · rcases ih hrest htail with ⟨old, hold, hown, hupdated⟩ | ⟨hold, hother⟩
          · refine .inl ⟨old, ?_, hown, hupdated⟩
            rcases hold with hold | ⟨hnew, hmissing⟩
            · exact .inl (List.mem_cons_of_mem _ hold)
            · refine .inr ⟨hnew, ?_⟩
              rw [List.map_cons, List.mem_cons, not_or]
              exact ⟨Ne.symm hid, hmissing⟩
          · exact .inr ⟨List.mem_cons_of_mem _ hold, hother⟩

theorem map_cycleId_touch (hupdate : ∀ cycle, (update cycle).cycleId = cycle.cycleId) :
    (touch cycleId update cycles).map CycleTotals.cycleId =
      if cycleId ∈ cycles.map CycleTotals.cycleId then cycles.map CycleTotals.cycleId
      else cycles.map CycleTotals.cycleId ++ [cycleId] := by
  induction cycles with
  | nil => simp [touch, hupdate]
  | cons first rest ih =>
      by_cases hid : first.cycleId = cycleId
      · simp [touch, hid, hupdate]
      · have hother : ¬cycleId = first.cycleId := Ne.symm hid
        rw [touch, if_neg hid, List.map_cons, List.map_cons, ih]
        by_cases hmem : cycleId ∈ rest.map CycleTotals.cycleId <;> simp [hother, hmem]

theorem Tallies.touch (htallies : Tallies column cycles units)
    (hupdate : ∀ cycle, (update cycle).cycleId = cycle.cycleId)
    (hadds : Adds column update count)
    (hempty : column { cycleId := cycleId } = .number (ofUnits 0))
    (hbound : |units cycleId + count| < 10 ^ precision) :
    Tallies column (touch cycleId update cycles)
      fun other => units other + if cycleId = other then count else 0 := by
  refine ⟨?_, fun cycle hmem => ?_, fun other hmissing => ?_⟩
  · rw [map_cycleId_touch hupdate]
    split
    · exact htallies.ids
    · rename_i hnew
      refine List.nodup_append.mpr ⟨htallies.ids, List.nodup_singleton _, ?_⟩
      rintro id hid _ hsingle rfl
      obtain rfl := List.mem_singleton.mp hsingle
      exact hnew hid
  · rcases mem_touch htallies.ids hmem with ⟨old, hold, hown, rfl⟩ | ⟨hold, hother⟩
    · have hheld : column old = .number (ofUnits (units cycleId)) := by
        rcases hold with hold | ⟨rfl, hnew⟩
        · rw [htallies.holds old hold, hown]
        · rw [hempty, htallies.absent cycleId hnew]
      rw [hupdate, hown, if_pos rfl]
      exact hadds old _ hheld hbound
    · rw [if_neg (Ne.symm hother), add_zero]
      exact htallies.holds cycle hold
  · rw [map_cycleId_touch hupdate] at hmissing
    by_cases hmem : cycleId ∈ cycles.map CycleTotals.cycleId
    · rw [if_pos hmem] at hmissing
      have hother : ¬cycleId = other := fun hsame => hmissing (hsame ▸ hmem)
      rw [if_neg hother, add_zero, htallies.absent other hmissing]
    · rw [if_neg hmem, List.mem_append, not_or, List.mem_singleton] at hmissing
      rw [if_neg (Ne.symm hmissing.2), add_zero, htallies.absent other hmissing.1]

/-- Adding rows adds their units to the cycles of their keys. -/
theorem Tallies.touchAll {Row : Type} {rows : List Row} {cycleOf : Row → String}
    {add : Row → CycleTotals → CycleTotals} {countOf : Row → ℤ} {size : ℤ}
    (htallies : Tallies column cycles units)
    (hupdate : ∀ row cycle, (add row cycle).cycleId = cycle.cycleId)
    (hadds : ∀ row ∈ rows, Adds column (add row) (countOf row))
    (hempty : ∀ cycleId, column { cycleId := cycleId } = .number (ofUnits 0))
    (hsize : ∀ cycleId, |units cycleId| ≤ size)
    (hbound : size + (rows.map fun row => |countOf row|).sum < 10 ^ precision) :
    Tallies column (touchAll cycleOf add cycles rows)
      fun cycleId => units cycleId + unitsIn cycleOf countOf rows cycleId := by
  induction rows generalizing cycles units size with
  | nil => simpa [ClaimableView.touchAll, unitsIn] using htallies
  | cons row rest ih =>
      have hrest := sum_abs_nonneg countOf rest
      rw [List.map_cons, List.sum_cons] at hbound
      have hadd : ∀ other, |units other + if cycleOf row = other then countOf row else 0| ≤
          size + |countOf row| := by
        intro other
        refine (abs_add_le _ _).trans (add_le_add (hsize other) ?_)
        split
        · exact le_rfl
        · rw [abs_zero]
          exact abs_nonneg _
      have hfirst := htallies.touch (hupdate row) (hadds row List.mem_cons_self)
        (hempty (cycleOf row)) (by
          have hown := hadd (cycleOf row)
          rw [if_pos rfl] at hown
          omega)
      have hnext := ih hfirst (fun other hother => hadds other (List.mem_cons_of_mem _ hother))
        hadd (by omega)
      have hunits : (fun other => units other +
            (if cycleOf row = other then countOf row else 0) +
            unitsIn cycleOf countOf rest other) =
          fun other => units other + unitsIn cycleOf countOf (row :: rest) other := by
        funext other
        rw [unitsIn_cons, add_assoc]
      rw [← hunits]
      exact hnext

theorem ofUnits_injective : Function.Injective ofUnits := by
  intro left right hsame
  rw [← toFixed4_ofUnits left, hsame, toFixed4_ofUnits]

/-- The units of the cycles are what the cycles hold together. -/
theorem Tallies.sum_eq {total size : ℤ} (htallies : Tallies column cycles units)
    (hholding : Holding column cycles total size) :
    (cycles.map fun cycle => units cycle.cycleId).sum = total ∧
      (cycles.map fun cycle => |units cycle.cycleId|).sum ≤ size := by
  obtain ⟨held, hholds, rfl, hsize⟩ := hholding
  have hunits : (cycles.map fun cycle => units cycle.cycleId) = held := by
    have hcolumn : (cycles.map fun cycle => units cycle.cycleId).map
        (fun count => DecimalValue.number (ofUnits count)) =
          held.map fun count => .number (ofUnits count) := by
      rw [← hholds, List.map_map]
      exact List.map_congr_left fun cycle hmem => (htallies.holds cycle hmem).symm
    refine List.map_injective_iff.mpr (fun left right hsame => ?_) hcolumn
    exact ofUnits_injective (DecimalValue.number.inj hsame)
  refine ⟨congrArg List.sum hunits, ?_⟩
  calc (cycles.map fun cycle => |units cycle.cycleId|).sum
      = ((cycles.map fun cycle => units cycle.cycleId).map fun count => |count|).sum := by
        rw [List.map_map]
        rfl
    _ ≤ size := by rw [hunits]; exact hsize

end Tallies

/-! ## The cycles of a wallet -/

section Cycles

variable {allocations : List Allocation} {claims : List Claim}

/-- The cycles of the rows, in the order in which they come up. -/
def cyclesOf (allocations : List Allocation) (claims : List Claim) : List CycleTotals :=
  touchAll claimCycle addClaim (touchAll allocationCycle addAllocation [] allocations) claims

/-- What was earned and what was claimed in a cycle. -/
def earnedIn (allocations : List Allocation) (cycleId : String) : ℤ :=
  unitsIn allocationCycle allocationUnits allocations cycleId

def claimedIn (claims : List Claim) (cycleId : String) : ℤ :=
  unitsIn claimCycle claimUnits claims cycleId

theorem abs_unitsIn_le {Row Key : Type} [DecidableEq Key] (keyOf : Row → Key) (countOf : Row → ℤ)
    (rows : List Row) (key : Key) :
    |unitsIn keyOf countOf rows key| ≤ (rows.map fun row => |countOf row|).sum := by
  induction rows with
  | nil => simp [unitsIn]
  | cons row rest ih =>
      rw [unitsIn_cons, List.map_cons, List.sum_cons]
      refine (abs_add_le _ _).trans (add_le_add ?_ ih)
      split
      · exact le_rfl
      · rw [abs_zero]
        exact abs_nonneg _

/-- Rows that leave the column leave its tallies. -/
theorem Tallies.touchAll_same {Row : Type} {rows : List Row} {cycleOf : Row → String}
    {add : Row → CycleTotals → CycleTotals} {column : CycleTotals → DecimalValue}
    {cycles : List CycleTotals} {units : String → ℤ} {size : ℤ}
    (htallies : Tallies column cycles units)
    (hupdate : ∀ row cycle, (add row cycle).cycleId = cycle.cycleId)
    (hsame : ∀ row cycle, column (add row cycle) = column cycle)
    (hempty : ∀ cycleId, column { cycleId := cycleId } = .number (ofUnits 0))
    (hsize : ∀ cycleId, |units cycleId| ≤ size) (hbound : size < 10 ^ precision) :
    Tallies column (ClaimableView.touchAll cycleOf add cycles rows) units := by
  have hadds : ∀ row ∈ rows, Adds column (add row) 0 := by
    intro row _ cycle held hheld _
    rw [hsame, hheld, add_zero]
  simpa using htallies.touchAll hupdate hadds hempty hsize (by simpa using hbound)

theorem tallies_earned (claims : List Claim)
    (hsummable : Summable (allocations.map Allocation.amount)) :
    Tallies CycleTotals.earned (cyclesOf allocations claims) (earnedIn allocations) := by
  have hempty : ∀ cycleId, CycleTotals.earned { cycleId := cycleId } = .number (ofUnits 0) :=
    fun cycleId => by simp
  have hadds : ∀ allocation ∈ allocations,
      Adds CycleTotals.earned (addAllocation allocation) (allocationUnits allocation) :=
    fun allocation hallocation =>
      adds_earned (hsummable.numbers _ (List.mem_map_of_mem hallocation))
  have hbound := hsummable.bounded
  rw [List.map_map] at hbound
  have hearned : Tallies CycleTotals.earned
      (touchAll allocationCycle addAllocation [] allocations) _ :=
    tallies_nil.touchAll (fun _ _ => rfl) hadds hempty (fun _ => abs_zero.le)
      (by rw [zero_add]; exact hbound)
  simp only [zero_add] at hearned
  exact hearned.touchAll_same (fun _ _ => rfl) (fun _ _ => rfl) hempty
    (abs_unitsIn_le allocationCycle allocationUnits allocations) hbound

theorem tallies_claimed (allocations : List Allocation)
    (hsummable : Summable (claims.map Claim.amount)) :
    Tallies CycleTotals.claimed (cyclesOf allocations claims) (claimedIn claims) := by
  have hempty : ∀ cycleId, CycleTotals.claimed { cycleId := cycleId } = .number (ofUnits 0) :=
    fun cycleId => by simp
  have hadds : ∀ claim ∈ claims, Adds CycleTotals.claimed (addClaim claim) (claimUnits claim) :=
    fun claim hclaim => adds_claimed (hsummable.numbers _ (List.mem_map_of_mem hclaim))
  have hbound := hsummable.bounded
  rw [List.map_map] at hbound
  have hunclaimed : Tallies CycleTotals.claimed
      (touchAll allocationCycle addAllocation [] allocations) fun _ => 0 :=
    tallies_nil.touchAll_same (fun _ _ => rfl) (fun _ _ => rfl) hempty (fun _ => abs_zero.le)
      (by norm_num [precision])
  have hclaimed : Tallies CycleTotals.claimed (cyclesOf allocations claims) _ :=
    hunclaimed.touchAll (fun _ _ => rfl) hadds hempty (fun _ => abs_zero.le)
      (by rw [zero_add]; exact hbound)
  simp only [zero_add] at hclaimed
  exact hclaimed

/-- What a cycle offers to claim. -/
theorem claimable_cycleView {cycle : CycleTotals} {earned claimed : ℤ}
    (hearned : cycle.earned = .number (ofUnits earned))
    (hclaimed : cycle.claimed = .number (ofUnits claimed))
    (hbound : |earned - claimed| < 10 ^ precision) :
    (cycleView cycle).claimable = .units (max 0 (earned - claimed)) := by
  have hminus : cycle.earned.minus cycle.claimed = .number (ofUnits (earned - claimed)) := by
    rw [hearned, hclaimed, DecimalValue.minus, minus_ofUnits hbound]
  rw [cycleView]
  dsimp only
  rw [hminus, DecimalValue.isNegative]
  by_cases hnegative : earned - claimed < 0
  · have hcut : ofUnits (earned - claimed) < 0 := by
      rw [← ofUnits_zero]
      exact ofUnits_lt_ofUnits.mpr hnegative
    rw [decide_eq_true hcut, if_pos rfl, max_eq_left hnegative.le, ← ofUnits_zero,
      toFixed_ofUnits]
  · have hkept : ¬ofUnits (earned - claimed) < 0 :=
      not_lt.mpr (ofUnits_nonneg.mpr (not_lt.mp hnegative))
    rw [decide_eq_false hkept, if_neg Bool.false_ne_true, max_eq_right (not_lt.mp hnegative),
      toFixed_ofUnits]

/-- The cycles make up what the rows make up, in number and in size. -/
theorem sum_cyclesOf (hsummable : Summable (allocations.map Allocation.amount ++
      claims.map Claim.amount)) :
    ((cyclesOf allocations claims).map fun cycle => earnedIn allocations cycle.cycleId).sum =
        unitsTotal (allocations.map Allocation.amount) ∧
      ((cyclesOf allocations claims).map fun cycle => claimedIn claims cycle.cycleId).sum =
        unitsTotal (claims.map Claim.amount) ∧
      ((cyclesOf allocations claims).map fun cycle => |earnedIn allocations cycle.cycleId|).sum +
          ((cyclesOf allocations claims).map fun cycle => |claimedIn claims cycle.cycleId|).sum <
        10 ^ precision := by
  obtain ⟨hallocated, hclaimed⟩ := hsummable.of_append
  have hbound := hsummable.bounded
  rw [List.map_append, List.sum_append, List.map_map, List.map_map] at hbound
  obtain ⟨hearnedTotal, hearnedSize⟩ :=
    (tallies_earned claims hallocated).sum_eq (holding_earned claims hallocated)
  obtain ⟨hclaimedTotal, hclaimedSize⟩ :=
    (tallies_claimed allocations hclaimed).sum_eq (holding_claimed allocations hclaimed)
  exact ⟨hearnedTotal, hclaimedTotal, (add_le_add hearnedSize hclaimedSize).trans_lt hbound⟩

/-- What a wallet can claim in all is what its cycles offer. -/
theorem totalClaimable_eq (wallet : String) (hsummable : Summable
      (allocations.map Allocation.amount ++ claims.map Claim.amount)) :
    (getClaimable wallet allocations claims).totalClaimable =
      .units ((cyclesOf allocations claims).map fun cycle =>
        max 0 (earnedIn allocations cycle.cycleId - claimedIn claims cycle.cycleId)).sum := by
  obtain ⟨hallocated, hclaimed⟩ := hsummable.of_append
  obtain ⟨-, -, hsize⟩ := sum_cyclesOf hsummable
  have hamounts : ((cyclesOf allocations claims).map fun cycle => (cycleView cycle).claimable) =
      ((cyclesOf allocations claims).map fun cycle =>
        max 0 (earnedIn allocations cycle.cycleId - claimedIn claims cycle.cycleId)).map
          Amount.units := by
    rw [List.map_map]
    refine List.map_congr_left fun cycle hmem => ?_
    refine claimable_cycleView ((tallies_earned claims hallocated).holds cycle hmem)
      ((tallies_claimed allocations hclaimed).holds cycle hmem) ?_
    have hearned := abs_le_sum_abs (fun cycle => earnedIn allocations cycle.cycleId) hmem
    have hclaims := abs_le_sum_abs (fun cycle => claimedIn claims cycle.cycleId) hmem
    exact (abs_sub _ _).trans_lt ((add_le_add hearned hclaims).trans_lt hsize)
  have hclaimable : Summable
      ((cyclesOf allocations claims).map fun cycle => (cycleView cycle).claimable) := by
    rw [hamounts]
    refine ⟨fun amount hmem => ?_, ?_⟩
    · obtain ⟨count, -, rfl⟩ := List.mem_map.mp hmem
      rfl
    · rw [List.map_map, List.map_map]
      exact (sum_max_le _ _ _).trans_lt hsize
  have hperm := (loadCycles_perm allocations claims).map fun cycle => (cycleView cycle).claimable
  calc (getClaimable wallet allocations claims).totalClaimable
      = (sumDecimals ((loadCycles allocations claims).map fun cycle =>
          (cycleView cycle).claimable)).toFixed := by
        rw [getClaimable, buildClaimableView]
        dsimp only
        rw [List.map_map]
        rfl
    _ = .units (unitsTotal
          ((cyclesOf allocations claims).map fun cycle => (cycleView cycle).claimable)) := by
        rw [toFixed_sumDecimals (hclaimable.perm hperm), unitsTotal_perm hperm]
        rfl
    _ = .units ((cyclesOf allocations claims).map fun cycle =>
          max 0 (earnedIn allocations cycle.cycleId - claimedIn claims cycle.cycleId)).sum := by
        rw [hamounts, unitsTotal, List.map_map]
        exact congrArg (fun counts => Amount.units (List.sum counts)) (List.map_id _)

/-- Every id is either the id of a cycle or the key of no row. -/
theorem backedByCycle_iff (hallocated : Summable (allocations.map Allocation.amount))
    (hclaimed : Summable (claims.map Claim.amount)) :
    BackedByCycle allocations claims ↔ ∀ cycle ∈ cyclesOf allocations claims,
      claimedIn claims cycle.cycleId ≤ earnedIn allocations cycle.cycleId := by
  refine ⟨fun hbacked cycle _ => hbacked cycle.cycleId, fun hcycles cycleId => ?_⟩
  by_cases hmem : cycleId ∈ (cyclesOf allocations claims).map CycleTotals.cycleId
  · obtain ⟨cycle, hcycle, rfl⟩ := List.mem_map.mp hmem
    exact hcycles cycle hcycle
  · have hunclaimed : claimedIn claims cycleId = 0 :=
      (tallies_claimed allocations hclaimed).absent cycleId hmem
    have hunearned : earnedIn allocations cycleId = 0 :=
      (tallies_earned claims hallocated).absent cycleId hmem
    exact (hunclaimed.trans hunearned.symm).le

end Cycles

/-! ## The equation -/

/-- The totals fit together exactly when the claims of every cycle are backed. -/
theorem balanced_iff (wallet : String) {allocations : List Allocation} {claims : List Claim}
    (hsummable : Summable (allocations.map Allocation.amount ++ claims.map Claim.amount)) :
    Balanced (getClaimable wallet allocations claims) (getSummary wallet allocations claims) ↔
      BackedByCycle allocations claims := by
  obtain ⟨hallocated, hclaimed⟩ := hsummable.of_append
  obtain ⟨hearnedTotal, hclaimedTotal, -⟩ := sum_cyclesOf hsummable
  have hearned := totalEarned_eq wallet claims hallocated
  have hclaims := totalClaimed_eq wallet allocations hclaimed
  have hclaimable := totalClaimable_eq wallet hsummable
  rw [backedByCycle_iff hallocated hclaimed, ← sum_max_eq_iff, hearnedTotal, hclaimedTotal]
  constructor
  · rintro ⟨earned, claimed, hviewEarned, hviewClaimed, hviewClaimable, -⟩
    obtain rfl := Amount.units.inj (hearned.symm.trans hviewEarned)
    obtain rfl := Amount.units.inj (hclaims.symm.trans hviewClaimed)
    exact Amount.units.inj (hclaimable.symm.trans hviewClaimable)
  · intro hsum
    rw [hsum] at hclaimable
    exact ⟨_, _, hearned, hclaims, hclaimable, hclaimable⟩

/-- A hundred that the first distribution gives the holder. -/
def allocated : Allocation :=
  { source := "e1", allocationId := "a1:0", distributionId := some "d1", issuerWallet := "issuer",
    recipientWallet := "holder", amount := .units 1000000, cycleFrequency := none, txHash := none,
    ledgerSequence := 1, distributedAt := 1 }

/-- Forty that the holder claims, of that distribution or of none. -/
def claimed (distributionId : Option String) : Claim :=
  { source := "e2", claimId := "c1", distributionId := distributionId, issuerWallet := none,
    recipientWallet := "holder", amount := .units 400000, cycleFrequency := none, txHash := none,
    ledgerSequence := 2, claimedAt := 2 }

theorem claimed_balanced :
    Balanced (getClaimable "holder" [allocated] [claimed (some "d1")])
      (getSummary "holder" [allocated] [claimed (some "d1")]) := by
  refine (balanced_iff "holder" (by decide)).mpr fun cycleId => ?_
  rw [unitsIn_cons, unitsIn_cons]
  by_cases hid : "d1" = cycleId <;>
    simp [unitsIn, claimCycle, allocationCycle, claimed, allocated, hid, claimUnits,
      allocationUnits, Amount.toUnits]

/-- The claim is backed, but the whole hundred can still be claimed. -/
theorem claimedUnkeyed_notBalanced :
    Backed [allocated] [claimed none] ∧
      ¬Balanced (getClaimable "holder" [allocated] [claimed none])
        (getSummary "holder" [allocated] [claimed none]) := by
  refine ⟨⟨fun distributionId => ?_, by decide⟩, ?_⟩
  · rw [unitsIn_cons, unitsIn_cons]
    by_cases hid : "d1" = distributionId <;>
      simp [unitsIn, claimed, allocated, hid, allocationUnits, Amount.toUnits]
  · rintro ⟨earned, spent, hearned, hclaimed, hclaimable, -⟩
    have htotals : Amount.units 1000000 = .units earned ∧ Amount.units 400000 = .units spent :=
      ⟨(totalEarned_eq "holder" _ (by decide)).symm.trans hearned,
        (totalClaimed_eq "holder" _ (by decide)).symm.trans hclaimed⟩
    have hleft : Amount.units 1000000 = .units (earned - spent) :=
      (totalClaimable_eq "holder" (by decide)).symm.trans hclaimable
    simp only [Amount.units.injEq] at htotals hleft
    omega

end StellarSettle.CycleBacking
