import StellarSettle.Analytics.ReportingDays
import StellarSettle.Core.OrderedRows
import StellarSettle.Projections.Numbers

/-!
# Analytics snapshots

A snapshot counts invoices and sums investments of a reporting day.  The job of a day tries its
capture again when it fails, and the catch-up runs the jobs of the last days that have no snapshot.
-/

namespace StellarSettle.Snapshots

open StellarSettle.DividendCycle (TimeValue)
open StellarSettle.Entities (InvestmentStatus InvoiceStatus Timestamp Uuid)
open StellarSettle.KeyedRows
open StellarSettle.Numbers (double)
open StellarSettle.OrderedRows (sortRows)
open StellarSettle.ReportingDays

/-! ## Data -/

structure Invoice where
  status : InvoiceStatus
  deletedAt : Option Timestamp
  deriving DecidableEq, Repr

/-- Amounts are in ten-thousandths. -/
structure Investment where
  investorId : Uuid
  investmentAmount : ℤ
  status : InvestmentStatus
  createdAt : Timestamp
  deriving DecidableEq, Repr

structure Sources where
  invoices : List Invoice
  investments : List Investment

/-- The columns that a capture computes.  The rate is in hundredths of a percent. -/
structure Metrics where
  totalInvoicesDraft : ℕ
  totalInvoicesPending : ℕ
  totalInvoicesPublished : ℕ
  totalInvoicesFunded : ℕ
  totalInvoicesSettled : ℕ
  totalInvoicesCancelled : ℕ
  totalInvoicesRejected : ℕ
  totalInvoices : ℕ
  dailyFundingVolume : ℤ
  cumulativeFundingVolume : ℤ
  activeInvestorCount : ℕ
  settlementRate : ℤ
  deriving DecidableEq, Repr

structure AnalyticsSnapshot where
  snapshotDate : String
  metrics : Metrics
  createdAt : Timestamp
  deriving DecidableEq, Repr

/-! ## The capture -/

def allStatuses : List InvoiceStatus :=
  [.draft, .pending, .published, .funded, .settled, .cancelled, .rejected, .failed]

/-- A group of the invoices that are not deleted. -/
def countMap (invoices : List Invoice) (status : InvoiceStatus) : ℕ :=
  invoices.countP fun invoice => invoice.deletedAt = none ∧ invoice.status = status

def isFundedInvestmentStatus (status : InvestmentStatus) : Bool :=
  status = .confirmed || status = .settled

/-- The sum of the funded investments that were made at such times. -/
def fundingVolume (investments : List Investment) (madeAt : Timestamp → Bool) : ℤ :=
  ((investments.filter fun investment =>
    isFundedInvestmentStatus investment.status && madeAt investment.createdAt).map
      Investment.investmentAmount).sum

def activeInvestors (investments : List Investment) : ℕ :=
  ((investments.filter fun investment => investment.status = .confirmed).map
    Investment.investorId).dedup.length

/-- `((settled / (settled + funded)) * 100).toFixed(2)`. -/
def settlementRate (settled funded : ℕ) : ℤ :=
  if 0 < settled + funded then
    let ratio := double.round ((settled : ℚ) / ((settled + funded : ℕ) : ℚ))
    ⌊double.round (ratio * 100) * 100 + 1 / 2⌋
  else 0

/-- What a capture reads for the half-open interval of a day. -/
def readMetrics (sources : Sources) (dayStart dayEnd : Timestamp) : Metrics :=
  let count := countMap sources.invoices
  { totalInvoicesDraft := count .draft
    totalInvoicesPending := count .pending
    totalInvoicesPublished := count .published
    totalInvoicesFunded := count .funded
    totalInvoicesSettled := count .settled
    totalInvoicesCancelled := count .cancelled
    totalInvoicesRejected := count .rejected
    totalInvoices := (allStatuses.map count).sum
    dailyFundingVolume := fundingVolume sources.investments fun madeAt =>
      dayStart ≤ madeAt && madeAt < dayEnd
    cumulativeFundingVolume := fundingVolume sources.investments fun madeAt => madeAt < dayEnd
    activeInvestorCount := activeInvestors sources.investments
    settlementRate := settlementRate (count .settled) (count .funded) }

abbrev findSnapshot (rows : List AnalyticsSnapshot) (snapshotDate : String) :
    Option AnalyticsSnapshot :=
  findRow AnalyticsSnapshot.snapshotDate rows snapshotDate

/-- The row that is saved: the one of the date, or a new one that is created now. -/
def snapshotRow (rows : List AnalyticsSnapshot) (snapshotDate : String) (metrics : Metrics)
    (now : Timestamp) : AnalyticsSnapshot :=
  match findSnapshot rows snapshotDate with
  | some existing => { existing with metrics := metrics }
  | none => ⟨snapshotDate, metrics, now⟩

def captureSnapshot (sources : Sources) (rows : List AnalyticsSnapshot) (day : ReportingDay)
    (now : Timestamp) : List AnalyticsSnapshot :=
  saveRow AnalyticsSnapshot.snapshotDate rows
    (snapshotRow rows day.snapshotDate (readMetrics sources day.dayStart.ms day.dayEnd.ms) now)

/-! ## The job -/

/-- The attempts of a job, where `fails` says which of them throw. -/
def runAttempts (capture : List AnalyticsSnapshot) (fails : ℕ → Bool) :
    (attempt remaining : ℕ) → Option (List AnalyticsSnapshot)
  | _, 0 => none
  | attempt, remaining + 1 =>
      if fails attempt then runAttempts capture fails (attempt + 1) remaining else some capture

/-- The job of a day; nothing comes back where it throws. -/
def runAnalyticsSnapshotJob (sources : Sources) (rows : List AnalyticsSnapshot)
    (day : ReportingDay) (now : Timestamp) (maxRetries : ℕ) (fails : ℕ → Bool) :
    Option (List AnalyticsSnapshot) :=
  runAttempts (captureSnapshot sources rows day now) fails 1 (maxRetries + 1)

/-! ## The catch-up -/

structure CatchUpOptions where
  runTime : TimeValue
  maxCatchUpDays : ℕ := 7
  maxRetries : ℕ := 3

/-- The key of the day that is so many days before the run. -/
def checkedKey (runTime : TimeValue) (daysBack : ℕ) : Option String :=
  (dateUTC runTime.getUTCFullYear runTime.getUTCMonth (runTime.getUTCDate - daysBack)).map dateKey

/-- Keys without a snapshot, in the order of their texts; an invalid date throws. -/
def missingDates (rows : List AnalyticsSnapshot) (options : CatchUpOptions) :
    Option (List String) := do
  let keys ← (List.range' 1 (max 1 options.maxCatchUpDays)).mapM (checkedKey options.runTime)
  return sortRows compare (keys.filter fun key => (findSnapshot rows key).isNone)

/-- What is known after some of the missing dates. -/
structure Progress where
  capturedDates : List String
  rows : List AnalyticsSnapshot

section CatchUp

variable (parseDate : String → Option TimeValue) (sources : Sources) (options : CatchUpOptions)
  (now : Timestamp) (fails : String → ℕ → Bool)

/-- A date that cannot be captured is skipped. -/
def catchUpDate (progress : Progress) (key : String) : Progress :=
  match (getUtcReportingDayBounds parseDate (.text key)).bind fun day =>
      runAnalyticsSnapshotJob sources progress.rows day now options.maxRetries (fails key) with
  | some rows => ⟨progress.capturedDates ++ [key], rows⟩
  | none => progress

def catchUpMissedSnapshots (rows : List AnalyticsSnapshot) : Option Progress := do
  let missing ← missingDates rows options
  return missing.foldl (catchUpDate parseDate sources options now fails) ⟨[], rows⟩

end CatchUp

end StellarSettle.Snapshots
