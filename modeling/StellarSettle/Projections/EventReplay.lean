import StellarSettle.Core.UniqueColumns
import StellarSettle.Projections.EventReader

/-!
# Replayed events

The projections of pool rebalances and of referral tiers, and what an event changes that is
delivered a second time.  A rebalance keeps the ids of the events that proposed and executed
it, which are unique; the history of the tiers keeps no such column.  The texts of an event are
taken to fit their columns.
-/

namespace StellarSettle.EventReplay

open StellarSettle.Amounts
open StellarSettle.Entities
open StellarSettle.EventReader
open StellarSettle.KeyedRows
open StellarSettle.OrderedRows
open StellarSettle.UniqueColumns

/-! ## Pool rebalances -/

inductive RebalanceStatus where
  | pending
  | executed
  deriving DecidableEq, Repr

abbrev Weights := List (String × String)

structure PoolRebalance where
  id : Uuid
  poolId : String
  status : RebalanceStatus
  oldWeights : Weights
  newWeights : Weights
  eta : Option Timestamp
  proposedAt : Option Timestamp
  executedAt : Option Timestamp
  proposedEventId : Option String
  executedEventId : Option String
  deriving DecidableEq, Repr

abbrev RebalanceTable : Type :=
  UniqueTable PoolRebalance.id [PoolRebalance.proposedEventId, PoolRebalance.executedEventId]

structure ProposedInput where
  poolId : String
  newWeights : Weights
  oldWeights : Weights
  eta : Option Timestamp
  eventId : Option String
  occurredAt : Option Timestamp
  deriving DecidableEq, Repr

structure ExecutedInput where
  poolId : String
  eventId : Option String
  occurredAt : Option Timestamp
  deriving DecidableEq, Repr

def ingestProposed (table : RebalanceTable) (input : ProposedInput) (now : Timestamp) :
    Option RebalanceTable :=
  table.save
    { id := freshKey PoolRebalance.id table.rows
      poolId := input.poolId
      status := .pending
      oldWeights := input.oldWeights
      newWeights := input.newWeights
      eta := input.eta
      proposedAt := some (input.occurredAt.getD now)
      executedAt := none
      proposedEventId := input.eventId
      executedEventId := none }

/-- `proposedAt DESC`. -/
def newestProposed (left right : PoolRebalance) : Ordering :=
  compareDescending left.proposedAt right.proposedAt

def isPending (poolId : String) (row : PoolRebalance) : Bool :=
  row.poolId = poolId ∧ row.status = .pending

def findPending (order : StorageOrder PoolRebalance) (rows : List PoolRebalance)
    (poolId : String) : Option PoolRebalance :=
  (sortRows newestProposed (order.list (rows.filter (isPending poolId)))).head?

/-- The row of a rebalance that is executed. -/
def executedRow (pending : PoolRebalance) (input : ExecutedInput) (now : Timestamp) :
    PoolRebalance :=
  { pending with
    status := .executed
    executedAt := some (input.occurredAt.getD now)
    executedEventId := input.eventId }

def ingestExecuted (order : StorageOrder PoolRebalance) (table : RebalanceTable)
    (input : ExecutedInput) (now : Timestamp) : Option RebalanceTable :=
  match findPending order table.rows input.poolId with
  | none => some table
  | some pending => table.save (executedRow pending input now)

/-! ## Referral tiers -/

inductive ReferralTierLevel where
  | standard
  | bronze
  | silver
  | gold
  deriving DecidableEq, Repr

def ReferralTierLevel.ofText? : String → Option ReferralTierLevel
  | "standard" => some .standard
  | "bronze" => some .bronze
  | "silver" => some .silver
  | "gold" => some .gold
  | _ => none

def tierCommissionBps : ReferralTierLevel → ℤ
  | .standard => 100
  | .bronze => 150
  | .silver => 200
  | .gold => 250

/-- The current tier of a wallet. -/
structure ReferralTier where
  wallet : String
  tier : ReferralTierLevel
  commissionRateBps : ℤ
  cumulativeReferredVolume : Amount
  lastEventId : Option String
  upgradedAt : Option Timestamp
  deriving DecidableEq, Repr

/-- A row of the tier history has the fields of the current tier. -/
abbrev ReferralTierHistory := ReferralTier

structure ReferralTierUpgradedEvent where
  wallet : String
  tier : String
  commissionRateBps : Option ℤ
  cumulativeReferredVolume : Option Amount
  eventId : Option String
  occurredAt : Option Timestamp
  deriving DecidableEq, Repr

structure Tables where
  rebalances : RebalanceTable
  tiers : List ReferralTier
  history : List ReferralTierHistory

def appendHistory (tables : Tables) (row : ReferralTier) : Tables :=
  { tables with history := tables.history ++ [row] }

/-- The row of a wallet after an upgrade.  An empty event id leaves the last one. -/
def upgradedRow (tiers : List ReferralTier) (wallet : String) (level : ReferralTierLevel)
    (event : ReferralTierUpgradedEvent) (now : Timestamp) : ReferralTier :=
  let old := findRow ReferralTier.wallet tiers wallet
  { wallet := wallet
    tier := level
    commissionRateBps := event.commissionRateBps.getD (tierCommissionBps level)
    cumulativeReferredVolume := event.cumulativeReferredVolume.getD
      ((old.map ReferralTier.cumulativeReferredVolume).getD (.units 0))
    lastEventId := (event.eventId.filter fun id => id ≠ "").or (old.bind ReferralTier.lastEventId)
    upgradedAt := some (event.occurredAt.getD now) }

def ingestReferralTierUpgraded (tables : Tables) (event : ReferralTierUpgradedEvent)
    (now : Timestamp) : Option Tables :=
  let wallet := trimText event.wallet
  if wallet = "" then none
  else match ReferralTierLevel.ofText? event.tier with
    | none => none
    | some level =>
      let row := upgradedRow tables.tiers wallet level event now
      some (appendHistory
        { tables with tiers := saveRow ReferralTier.wallet tables.tiers row } row)

/-! ## Deliveries -/

inductive Event where
  | proposed (input : ProposedInput)
  | executed (input : ExecutedInput)
  | upgraded (event : ReferralTierUpgradedEvent)
  deriving DecidableEq, Repr

def Event.eventId : Event → Option String
  | .proposed input => input.eventId
  | .executed input => input.eventId
  | .upgraded event => event.eventId

/-- An event, when it is delivered, and how the database lists the rebalances then. -/
structure Delivery where
  event : Event
  now : Timestamp
  order : StorageOrder PoolRebalance

/-- The tables after an event, unless the call throws. -/
def ingest (tables : Tables) (delivery : Delivery) : Option Tables :=
  match delivery.event with
  | .proposed input =>
    (ingestProposed tables.rebalances input delivery.now).map fun table =>
      { tables with rebalances := table }
  | .executed input =>
    (ingestExecuted delivery.order tables.rebalances input delivery.now).map fun table =>
      { tables with rebalances := table }
  | .upgraded event => ingestReferralTierUpgraded tables event delivery.now

/-- A call that throws changes nothing. -/
def deliver (tables : Tables) (delivery : Delivery) : Tables :=
  (ingest tables delivery).getD tables

def deliverAll (tables : Tables) (deliveries : List Delivery) : Tables :=
  deliveries.foldl deliver tables

/-- One of the deliveries ingested the event. -/
def Ingested (tables : Tables) (deliveries : List Delivery) (event : Event) : Prop :=
  ∃ front delivery rest, deliveries = front ++ delivery :: rest ∧ delivery.event = event ∧
    (ingest (deliverAll tables front) delivery).isSome

/-- The current records are the same, and so many rows of history. -/
structure Unchanged (before after : Tables) : Prop where
  rebalances : after.rebalances.rows = before.rebalances.rows
  tiers : after.tiers = before.tiers
  history : after.history.length = before.history.length

/-- Nothing is pending in the pool of a replayed execution, or another rebalance has its id;
a replayed tier upgrade is never harmless. -/
def Harmless (tables : Tables) (delivery : Delivery) : Prop :=
  match delivery.event with
  | .proposed _ => True
  | .executed input =>
    ∀ pending ∈ findPending delivery.order tables.rebalances.rows input.poolId,
      ∃ row ∈ tables.rebalances.rows, row.id ≠ pending.id ∧ row.executedEventId = input.eventId
  | .upgraded _ => False

/-! ## What stays recorded -/

/-- A rebalance keeps the id of the event that proposed it. -/
def ProposalRecorded (table : RebalanceTable) (eventId : Option String) : Prop :=
  ∃ row ∈ table.rows, row.proposedEventId = eventId

section Records

variable {tables : Tables} {table saved : RebalanceTable} {eventId : Option String}

theorem mem_of_findPending {order : StorageOrder PoolRebalance} {poolId : String}
    {rows : List PoolRebalance} {pending : PoolRebalance}
    (hfound : findPending order rows poolId = some pending) :
    pending ∈ rows ∧ pending.status = .pending := by
  have hmem : pending ∈ rows.filter (isPending poolId) := by
    apply (order.perm _).mem_iff.mp
    exact mem_sortRows.mp (List.mem_of_head? hfound)
  obtain ⟨hrow, hpending⟩ := List.mem_filter.mp hmem
  exact ⟨hrow, (of_decide_eq_true hpending).2⟩

theorem recorded_of_ingestProposed {input : ProposedInput} {now : Timestamp}
    (hsave : ingestProposed table input now = some saved) :
    ProposalRecorded saved input.eventId := by
  obtain ⟨-, hrows⟩ := UniqueTable.rows_of_save hsave
  exact ⟨_, hrows ▸ mem_saveRow_self, rfl⟩

theorem recorded_ingestProposed {input : ProposedInput} {now : Timestamp}
    (hsave : ingestProposed table input now = some saved)
    (hrecorded : ProposalRecorded table eventId) : ProposalRecorded saved eventId := by
  obtain ⟨-, hrows⟩ := UniqueTable.rows_of_save hsave
  obtain ⟨row, hrow, hid⟩ := hrecorded
  exact ⟨row, hrows ▸ mem_saveRow.mpr (.inr ⟨hrow, key_ne_freshKey hrow⟩), hid⟩

theorem recorded_ingestExecuted {order : StorageOrder PoolRebalance} {input : ExecutedInput}
    {now : Timestamp} (hsave : ingestExecuted order table input now = some saved)
    (hrecorded : ProposalRecorded table eventId) : ProposalRecorded saved eventId := by
  rw [ingestExecuted] at hsave
  cases hfound : findPending order table.rows input.poolId with
  | none =>
      rw [hfound] at hsave
      obtain rfl := Option.some.inj hsave
      exact hrecorded
  | some pending =>
      rw [hfound] at hsave
      obtain ⟨-, hrows⟩ := UniqueTable.rows_of_save hsave
      obtain ⟨row, hrow, hid⟩ := hrecorded
      by_cases hsame : row.id = pending.id
      · -- The row that is executed keeps the id of its proposal.
        obtain rfl := table.eq_of_key hrow (mem_of_findPending hfound).1 hsame
        exact ⟨executedRow row input now, hrows ▸ mem_saveRow_self, hid⟩
      · exact ⟨row, hrows ▸ mem_saveRow.mpr (.inr ⟨hrow, hsame⟩), hid⟩

theorem rebalances_of_upgraded {event : ReferralTierUpgradedEvent} {now : Timestamp}
    {after : Tables} (hingest : ingestReferralTierUpgraded tables event now = some after) :
    after.rebalances = tables.rebalances ∧ after.history.length = tables.history.length + 1 := by
  rw [ingestReferralTierUpgraded] at hingest
  split at hingest
  · cases hingest
  · split at hingest
    · cases hingest
    · obtain rfl := Option.some.inj hingest
      exact ⟨rfl, List.length_append⟩

/-- No delivery takes the record of a proposal away. -/
theorem recorded_deliver (delivery : Delivery)
    (hrecorded : ProposalRecorded tables.rebalances eventId) :
    ProposalRecorded (deliver tables delivery).rebalances eventId := by
  rw [deliver]
  cases hingest : ingest tables delivery with
  | none => exact hrecorded
  | some after =>
      rw [ingest] at hingest
      rw [Option.getD_some]
      cases hevent : delivery.event with
      | proposed input =>
          rw [hevent] at hingest
          obtain ⟨saved, hsave, rfl⟩ := Option.map_eq_some_iff.mp hingest
          exact recorded_ingestProposed hsave hrecorded
      | executed input =>
          rw [hevent] at hingest
          obtain ⟨saved, hsave, rfl⟩ := Option.map_eq_some_iff.mp hingest
          exact recorded_ingestExecuted hsave hrecorded
      | upgraded event =>
          rw [hevent] at hingest
          rw [(rebalances_of_upgraded hingest).1]
          exact hrecorded

theorem recorded_deliverAll (deliveries : List Delivery)
    (hrecorded : ProposalRecorded tables.rebalances eventId) :
    ProposalRecorded (deliverAll tables deliveries).rebalances eventId := by
  induction deliveries generalizing tables with
  | nil => exact hrecorded
  | cons delivery rest ih => exact ih (recorded_deliver delivery hrecorded)

/-- A proposal that was ingested is on record from then on. -/
theorem recorded_of_ingested {deliveries : List Delivery} {input : ProposedInput}
    (hingested : Ingested tables deliveries (.proposed input)) :
    ProposalRecorded (deliverAll tables deliveries).rebalances input.eventId := by
  obtain ⟨front, delivery, rest, rfl, hevent, hsome⟩ := hingested
  obtain ⟨after, hingest⟩ := Option.isSome_iff_exists.mp hsome
  have hdeliver : deliver (deliverAll tables front) delivery = after := by
    rw [deliver, hingest, Option.getD_some]
  rw [deliverAll, List.foldl_append, List.foldl_cons]
  apply recorded_deliverAll
  change ProposalRecorded (deliver (deliverAll tables front) delivery).rebalances input.eventId
  rw [hdeliver]
  rw [ingest, hevent] at hingest
  obtain ⟨saved, hsave, rfl⟩ := Option.map_eq_some_iff.mp hingest
  exact recorded_of_ingestProposed hsave

end Records

/-! ## One more delivery -/

section Replays

variable {tables : Tables} {eventId : String}

theorem unchanged_refl : Unchanged tables tables := ⟨rfl, rfl, rfl⟩

/-- A second proposal of one event is refused. -/
theorem unchanged_proposed {input : ProposedInput} (now : Timestamp)
    (order : StorageOrder PoolRebalance) (hid : input.eventId = some eventId)
    (hrecorded : ProposalRecorded tables.rebalances input.eventId) :
    Unchanged tables (deliver tables ⟨.proposed input, now, order⟩) := by
  obtain ⟨row, hrow, hsame⟩ := hrecorded
  have hrefused : ingestProposed tables.rebalances input now = none := by
    apply UniqueTable.save_eq_none.mpr
    refine ⟨PoolRebalance.proposedEventId, List.mem_cons_self, row, hrow, key_ne_freshKey hrow,
      ?_, hsame⟩
    rw [hsame, hid]
    exact Option.some_ne_none eventId
  have hdeliver : deliver tables ⟨.proposed input, now, order⟩ = tables := by
    rw [deliver, ingest]
    dsimp only
    rw [hrefused]
    rfl
  rw [hdeliver]
  exact unchanged_refl

/-- An execution clashes exactly where its id is on record. -/
theorem clashes_executedRow {table : RebalanceTable} {pending : PoolRebalance}
    {input : ExecutedInput} {now : Timestamp} (hmem : pending ∈ table.rows)
    (hid : input.eventId = some eventId) :
    Clashes PoolRebalance.id [PoolRebalance.proposedEventId, PoolRebalance.executedEventId]
        table.rows (executedRow pending input now) ↔
      ∃ row ∈ table.rows, row.id ≠ pending.id ∧ row.executedEventId = input.eventId := by
  constructor
  · rintro ⟨column, hcolumn, row, hrow, hother, hvalue, hsame⟩
    rcases List.mem_cons.mp hcolumn with rfl | hexecuted
    · -- The proposals of two rows differ already.
      have hequal := table.unique _ List.mem_cons_self row hrow pending hmem hvalue hsame
      exact absurd (congrArg PoolRebalance.id hequal) hother
    · obtain rfl := List.mem_singleton.mp hexecuted
      exact ⟨row, hrow, hother, hsame⟩
  · rintro ⟨row, hrow, hother, hsame⟩
    refine ⟨PoolRebalance.executedEventId, List.mem_cons_of_mem _ List.mem_cons_self, row, hrow,
      hother, ?_, hsame⟩
    rw [hsame, hid]
    exact Option.some_ne_none eventId

/-- Executing a pending rebalance changes its row. -/
theorem rows_ne_of_executed {table saved : RebalanceTable} {pending : PoolRebalance}
    {input : ExecutedInput} {now : Timestamp} (hmem : pending ∈ table.rows)
    (hpending : pending.status = .pending)
    (hsave : table.save (executedRow pending input now) = some saved) :
    saved.rows ≠ table.rows := by
  intro hsame
  obtain ⟨-, hrows⟩ := UniqueTable.rows_of_save hsave
  rw [← hsame, hrows] at hmem
  rcases mem_saveRow.mp hmem with hexecuted | ⟨-, hother⟩
  · rw [hexecuted] at hpending
    cases hpending
  · exact hother rfl

theorem unchanged_executed_iff {input : ExecutedInput} (now : Timestamp)
    (order : StorageOrder PoolRebalance) (hid : input.eventId = some eventId) :
    Unchanged tables (deliver tables ⟨.executed input, now, order⟩) ↔
      Harmless tables ⟨.executed input, now, order⟩ := by
  rw [deliver, ingest, Harmless]
  dsimp only
  rw [ingestExecuted]
  cases hfound : findPending order tables.rebalances.rows input.poolId with
  | none => exact iff_of_true unchanged_refl fun _ hnone => nomatch hnone
  | some pending =>
      obtain ⟨hmem, hpending⟩ := mem_of_findPending hfound
      dsimp only
      cases hsave : tables.rebalances.save (executedRow pending input now) with
      | none =>
          have hclash := (clashes_executedRow hmem hid).mp (UniqueTable.save_eq_none.mp hsave)
          refine iff_of_true unchanged_refl ?_
          intro found hfound
          rwa [← Option.mem_some.mp hfound]
      | some saved =>
          obtain ⟨hfree, -⟩ := UniqueTable.rows_of_save hsave
          refine iff_of_false ?_ ?_
          · intro hunchanged
            exact rows_ne_of_executed hmem hpending hsave hunchanged.rebalances
          · intro hharmless
            exact hfree ((clashes_executedRow hmem hid).mpr (hharmless pending rfl))

/-- A tier upgrade that can be ingested is appended to the history each time. -/
theorem changed_upgraded {event : ReferralTierUpgradedEvent} {earlier : Tables}
    {before now : Timestamp} (order : StorageOrder PoolRebalance)
    (hvalid : (ingestReferralTierUpgraded earlier event before).isSome) :
    ¬Unchanged tables (deliver tables ⟨.upgraded event, now, order⟩) := by
  have hsome : ∃ after, ingestReferralTierUpgraded tables event now = some after := by
    rw [ingestReferralTierUpgraded] at hvalid ⊢
    split at hvalid
    · cases hvalid
    · rename_i hwallet
      rw [if_neg hwallet]
      split at hvalid
      · cases hvalid
      · exact ⟨_, rfl⟩
  obtain ⟨after, hafter⟩ := hsome
  intro hunchanged
  have hlength := hunchanged.history
  rw [deliver, ingest] at hlength
  dsimp only at hlength
  rw [hafter, Option.getD_some, (rebalances_of_upgraded hafter).2] at hlength
  omega

end Replays

/-- Whatever came between, delivering an ingested event again leaves the projections as they
are exactly when it is a proposal, or an execution that finds nothing pending or whose id is
already on another rebalance. -/
theorem replay_unchanged_iff (tables : Tables) (deliveries : List Delivery) (event : Event)
    (hidentified : event.eventId ≠ none) (hingested : Ingested tables deliveries event)
    (now : Timestamp) (order : StorageOrder PoolRebalance) :
    Unchanged (deliverAll tables deliveries)
        (deliver (deliverAll tables deliveries) ⟨event, now, order⟩) ↔
      Harmless (deliverAll tables deliveries) ⟨event, now, order⟩ := by
  obtain ⟨eventId, hid⟩ := Option.ne_none_iff_exists'.mp hidentified
  cases event with
  | proposed input =>
      exact iff_of_true (unchanged_proposed now order hid (recorded_of_ingested hingested)) trivial
  | executed input => exact unchanged_executed_iff now order hid
  | upgraded upgrade =>
      obtain ⟨front, delivery, rest, rfl, hevent, hsome⟩ := hingested
      rw [ingest, hevent] at hsome
      exact iff_of_false (changed_upgraded order hsome) id

/-! ## An older upgrade and a proposal, replayed -/

def noTables : Tables := ⟨UniqueTable.empty, [], []⟩

def bronzeUpgrade : ReferralTierUpgradedEvent :=
  ⟨"GWALLET", "bronze", none, none, some "e1", some 1⟩

def silverUpgrade : ReferralTierUpgradedEvent :=
  ⟨"GWALLET", "silver", none, none, some "e2", some 2⟩

def upgrades : List Delivery :=
  [⟨.upgraded bronzeUpgrade, 1, .asStored⟩, ⟨.upgraded silverUpgrade, 2, .asStored⟩]

/-- The replay of a bronze upgrade takes the silver tier away. -/
theorem upgrade_regresses : Ingested noTables upgrades (.upgraded bronzeUpgrade) ∧
    ((deliverAll noTables upgrades).tiers.map ReferralTier.tier) = [.silver] ∧
    ((deliver (deliverAll noTables upgrades) ⟨.upgraded bronzeUpgrade, 3, .asStored⟩).tiers.map
      ReferralTier.tier) = [.bronze] ∧
    ¬Unchanged (deliverAll noTables upgrades)
      (deliver (deliverAll noTables upgrades) ⟨.upgraded bronzeUpgrade, 3, .asStored⟩) := by
  refine ⟨⟨[], _, _, rfl, rfl, by decide +kernel⟩, by decide +kernel, by decide +kernel, ?_⟩
  intro hunchanged
  exact absurd hunchanged.history (by decide +kernel)

def reweighting : ProposedInput :=
  ⟨"pool", [("XLM", "60"), ("USDC", "40")], [("XLM", "50"), ("USDC", "50")], none, some "e1",
    some 1⟩

theorem reweighting_unchanged :
    Unchanged (deliverAll noTables [⟨.proposed reweighting, 1, .asStored⟩])
      (deliver (deliverAll noTables [⟨.proposed reweighting, 1, .asStored⟩])
        ⟨.proposed reweighting, 2, .asStored⟩) :=
  (replay_unchanged_iff noTables [⟨.proposed reweighting, 1, .asStored⟩] (.proposed reweighting)
    (by decide) ⟨[], _, [], rfl, rfl, by decide +kernel⟩ 2 .asStored).mpr trivial

end StellarSettle.EventReplay
