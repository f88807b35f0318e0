import StellarSettle.Pagination.NewestFirst

/-!
# The distribution history of an issuer

`getDistributionHistory` lists by time and id, but its cursor is the date of the last row alone:
the next page starts before that date.
-/

namespace StellarSettle.DistributionHistory

open StellarSettle.Entities (Timestamp Uuid)
open StellarSettle.NewestFirst
open StellarSettle.OrderedRows
open StellarSettle.PageWalk
open StellarSettle.SelectQuery
open StellarSettle.StoredTimes

/-- The amount is in units of four decimals, as its column is. -/
structure DividendDistribution where
  id : Uuid
  issuerWallet : String
  totalAmount : ℤ
  recipientCount : ℤ
  trigger : String
  txHash : Option String
  cycleFrequency : Option String
  status : String
  distributedAt : StoredTime
  createdAt : StoredTime
  deriving DecidableEq, Repr

structure DividendDistributionDTO where
  id : Uuid
  issuerWallet : String
  totalAmount : ℤ
  recipientCount : ℤ
  trigger : String
  txHash : Option String
  cycleFrequency : Option String
  status : String
  distributedAt : Timestamp
  createdAt : Timestamp
  deriving DecidableEq, Repr

/-- The text of a cursor: a date, or a text that is none and fails as a parameter. -/
abbrev HistoryCursor := Option Timestamp

inductive HistoryError where
  | queryFailed
  deriving DecidableEq, Repr

structure DistributionHistoryPage where
  data : List DividendDistributionDTO
  nextCursor : Option HistoryCursor
  hasMore : Bool
  deriving DecidableEq, Repr

def toDistributionDTO (distribution : DividendDistribution) : DividendDistributionDTO where
  id := distribution.id
  issuerWallet := distribution.issuerWallet
  totalAmount := distribution.totalAmount
  recipientCount := distribution.recipientCount
  trigger := distribution.trigger
  txHash := distribution.txHash
  cycleFrequency := distribution.cycleFrequency
  status := distribution.status
  distributedAt := toDate distribution.distributedAt
  createdAt := toDate distribution.createdAt

def compareDistributions : String → DividendDistribution → DividendDistribution → Ordering
  | "d.distributed_at" => compareOn DividendDistribution.distributedAt
  | "d.id" => compareOn DividendDistribution.id
  | _ => fun _ _ => .eq

def distributionTable : TimedTable DividendDistribution where
  columns :=
    { compareBy := compareDistributions
      ordered := fun column => by
        unfold compareDistributions
        split <;> infer_instance }
  timeColumn := "d.distributed_at"
  idColumn := "d.id"
  time := DividendDistribution.distributedAt
  id := DividendDistribution.id
  time_column := rfl
  id_column := rfl
  columns_differ := by decide

def issuedBy (issuerWallet : String) (distribution : DividendDistribution) : Bool :=
  decide (distribution.issuerWallet = issuerWallet)

/-- `d.distributed_at < :cursor`. -/
def beforeDate (date : Timestamp) (distribution : DividendDistribution) : Bool :=
  decide (distribution.distributedAt < fromDate date)

/-- `Math.min(100, Math.max(1, limit))`. -/
def safLimit (limit : ℤ) : ℕ := (min 100 (max 1 limit)).toNat

def historyQuery (issuerWallet : String) :
    Option HistoryCursor → Except HistoryError (SelectQueryBuilder DividendDistribution)
  | none => .ok (.whereOnly (issuedBy issuerWallet))
  | some (some date) =>
    .ok ((SelectQueryBuilder.whereOnly (issuedBy issuerWallet)).andWhere (beforeDate date))
  | some none => .error .queryFailed

def getDistributionHistory (distributions : List DividendDistribution) (issuerWallet : String)
    (limit : ℤ) (cursor : Option HistoryCursor) : Except HistoryError DistributionHistoryPage := do
  let query ← historyQuery issuerWallet cursor
  let rows := (distributionTable.newestPage query (safLimit limit)).getMany
    distributionTable.columns distributions
  let page := cutPage (safLimit limit) (fun last => some (toDate last.distributedAt)) rows
  .ok
    { data := page.items.map toDistributionDTO
      nextCursor := page.next
      hasMore := decide (safLimit limit < rows.length) }

/-- The pages that `nextCursor` leads to. -/
def followHistory (distributions : List DividendDistribution) (issuerWallet : String) (limit : ℤ)
    (_ : ℕ) (cursor : Option HistoryCursor) :
    Except HistoryError (Page DividendDistributionDTO HistoryCursor) :=
  (getDistributionHistory distributions issuerWallet limit cursor).map fun page =>
    ⟨page.data, page.nextCursor⟩

/-- The distributions behind the data of the pages. -/
def followDistributions (distributions : List DividendDistribution) (issuerWallet : String)
    (limit : ℤ) (_ : ℕ) (cursor : Option HistoryCursor) :
    Except HistoryError (Page DividendDistribution HistoryCursor) :=
  (historyQuery issuerWallet cursor).map fun query =>
    cutPage (safLimit limit) (fun last => some (toDate last.distributedAt))
      ((distributionTable.newestPage query (safLimit limit)).getMany distributionTable.columns
        distributions)

/-! ## The walk -/

theorem safLimit_pos (limit : ℤ) : 0 < safLimit limit := by
  rw [safLimit]
  omega

/-- Where a page is cut, the later distributions were made before its millisecond. -/
def CutsBeforeMillisecond (distributions : UniqueRows DividendDistribution.id)
    (issuerWallet : String) (limit : ℤ) : Prop :=
  ∀ before last rest,
    distributionTable.listed (issuedBy issuerWallet) distributions = before ++ last :: rest →
      safLimit limit ∣ before.length + 1 → ∀ later ∈ rest,
        later.distributedAt < millisecondStart last.distributedAt

section History

variable {distributions : UniqueRows DividendDistribution.id} {issuerWallet : String} {limit : ℤ}

/-- The listing, continued before the date of a row. -/
def historyListing (distributions : UniqueRows DividendDistribution.id) (issuerWallet : String)
    (limit : ℤ) : Listing DividendDistribution Place :=
  distributionTable.newestListing (issuedBy issuerWallet) distributions (safLimit limit)
    (safLimit_pos limit) fun place => beforeDate place.date

theorem followHistory_eq (distributions : List DividendDistribution) (issuerWallet : String)
    (limit : ℤ) : followHistory distributions issuerWallet limit =
      presented toDistributionDTO (followDistributions distributions issuerWallet limit) := by
  funext call cursor
  rw [followHistory, presented, followDistributions, getDistributionHistory]
  cases historyQuery issuerWallet cursor <;> rfl

theorem servedBy_history : (historyListing distributions issuerWallet limit).ServedBy
    (fun place => some place.date)
      (followDistributions distributions.rows issuerWallet limit) := by
  apply TimedTable.servedBy_newestListing (historyQuery issuerWallet) rfl fun place => rfl
  intro call cursor query hquery
  rw [followDistributions, hquery]
  rfl

theorem beforeDate_iff {last row : DividendDistribution} :
    beforeDate (distributionTable.place last).date row ↔
      row.distributedAt < millisecondStart last.distributedAt :=
  decide_eq_true_iff

theorem historyListing_closed : (historyListing distributions issuerWallet limit).Closed := by
  apply Listing.closed_ofFilter
  intro last next row hnext hrow
  rw [beforeDate_iff] at hnext hrow ⊢
  calc
    row.distributedAt < millisecondStart next.distributedAt := hrow
    _ ≤ next.distributedAt := millisecondStart_le next.distributedAt
    _ < millisecondStart last.distributedAt := hnext

theorem historyListing_clean_iff : (historyListing distributions issuerWallet limit).Clean ↔
    CutsBeforeMillisecond distributions issuerWallet limit := by
  have hforward : ∀ before last rest,
      distributionTable.listed (issuedBy issuerWallet) distributions = before ++ last :: rest →
        (∀ row ∈ before, ¬ beforeDate (distributionTable.place last).date row) ∧
          ¬ beforeDate (distributionTable.place last).date last := by
    intro before last rest hrows
    have hstart := millisecondStart_le last.distributedAt
    simp only [beforeDate_iff]
    constructor
    · intro earlier hearlier
      exact (hstart.trans (TimedTable.time_le_of_mem_before hrows hearlier).1).not_gt
    · exact hstart.not_gt
  apply Iff.trans (Listing.clean_lazy_ofFilter_iff hforward)
  · simp only [beforeDate_iff]
    rfl
  · exact TimedTable.nodup_listed
  · exact safLimit_pos limit

/-- Each distribution is returned once exactly when no two on both sides of a cut were made in
one millisecond. -/
theorem returnsOnce_iff_cutsBeforeMillisecond (distributions : UniqueRows DividendDistribution.id)
    (issuerWallet : String) (limit : ℤ) :
    ReturnsOnce (followHistory distributions.rows issuerWallet limit)
        ((distributions.rows.filter (issuedBy issuerWallet)).map toDistributionDTO) ↔
      CutsBeforeMillisecond distributions issuerWallet limit := by
  calc
    ReturnsOnce (followHistory distributions.rows issuerWallet limit) _ ↔
        ReturnsOnce (followDistributions distributions.rows issuerWallet limit)
          (distributions.rows.filter (issuedBy issuerWallet)) := by
      rw [followHistory_eq]
      apply returnsOnce_presented_iff (distributions.distinct _) (List.Subset.refl _)
      · intro left hleft right hright hsame
        exact distributions.eq_of_key (List.mem_of_mem_filter hleft)
          (List.mem_of_mem_filter hright) (congrArg DividendDistributionDTO.id hsame)
      · intro pages hwalk row hrow
        exact mem_sortRows.mp (Listing.mem_rows_of_servedBy servedBy_history hwalk row hrow)
    _ ↔ ReturnsOnce (followDistributions distributions.rows issuerWallet limit)
          (distributionTable.listed (issuedBy issuerWallet) distributions) :=
      returnsOnce_congr (sortRows_perm _ _).symm
    _ ↔ (historyListing distributions issuerWallet limit).Clean :=
      Listing.returnsOnce_iff_of_servedBy servedBy_history historyListing_closed
    _ ↔ CutsBeforeMillisecond distributions issuerWallet limit := historyListing_clean_iff

end History

/-- Two distributions of one issuer that were made at the same time. -/
def madeTogether : List DividendDistribution :=
  [⟨1, "GISSUER", 5000000, 3, "scheduled", none, some "monthly", "success", 1767225600000000,
      1767225600000000⟩,
    ⟨2, "GISSUER", 7000000, 2, "manual", none, some "monthly", "success", 1767225600000000,
      1767225600000000⟩]

theorem madeTogether_skipped : ¬ ReturnsOnce (followHistory madeTogether "GISSUER" 1)
    ((madeTogether.filter (issuedBy "GISSUER")).map toDistributionDTO) := by
  have hfollow : follow (followHistory madeTogether "GISSUER" 1) 2 0 none =
      some [[⟨2, "GISSUER", 7000000, 2, "manual", none, some "monthly", "success", 1767225600000,
        1767225600000⟩], []] := by decide +kernel
  exact not_returnsOnce_of_follow hfollow (by decide +kernel)

end StellarSettle.DistributionHistory
