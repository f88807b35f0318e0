import StellarSettle.Core.Checks
import StellarSettle.Core.KeyedRows
import StellarSettle.Invoices.DiscountCalculator

/-!
# The reputation of an issuer

The score is computed from an issuer's settled invoices and stored after each settlement.  The
query reads three columns of an invoice, and the date that the loop takes for the settlement is
in none of them.
-/

namespace StellarSettle.IssuerReputation

open StellarSettle.BinaryRounding
open StellarSettle.Checks
open StellarSettle.DiscountCalculator
open StellarSettle.Entities
open StellarSettle.KeyedRows
open StellarSettle.Numbers
open StellarSettle.WholeNumbers

/-! ## Numbers -/

namespace Math

def floor : JsNumber → JsNumber
  | .finite value => .ofRat ⌊value.val⌋
  | other => other

/-- `Math.round`: ties go up. -/
def round : JsNumber → JsNumber
  | .finite value => .ofRat ⌊value.val + 1 / 2⌋
  | other => other

def abs : JsNumber → JsNumber
  | .finite value => .ofRat |value.val|
  | .infinity _ => .infinity false
  | .nan => .nan

def min (left right : JsNumber) : JsNumber :=
  if left = .nan ∨ right = .nan then .nan else if left.lt right then left else right

def max (left right : JsNumber) : JsNumber :=
  if left = .nan ∨ right = .nan then .nan else if left.lt right then right else left

end Math

/-- `left * right`. -/
def times : JsNumber → JsNumber → JsNumber
  | .finite left, .finite right => .ofRat (left.val * right.val)
  | .infinity negative, .finite factor =>
      if factor.val = 0 then .nan else .infinity (negative != decide (factor.val < 0))
  | .finite factor, .infinity negative =>
      if factor.val = 0 then .nan else .infinity (negative != decide (factor.val < 0))
  | .infinity left, .infinity right => .infinity (left != right)
  | _, _ => .nan

/-- `left / right`; the two zeros are one, and no divisor here is zero. -/
def dividedBy : JsNumber → JsNumber → JsNumber
  | .finite left, .finite right =>
      if right.val ≠ 0 then .ofRat (left.val / right.val)
      else if left.val = 0 then .nan
      else .infinity (left.val < 0)
  | .infinity negative, .finite divisor => .infinity (negative != decide (divisor.val < 0))
  | .finite _, .infinity _ => number 0
  | _, _ => .nan

/-- `left === right`. -/
def strictEquals (left right : JsNumber) : Bool := decide (left = right ∧ left ≠ .nan)

/-! ## Tables -/

inductive ReputationTier where
  | poor
  | fair
  | good
  | excellent
  deriving DecidableEq, Repr

structure User where
  id : Uuid
  stellarAddress : String
  deriving DecidableEq, Repr

/-- The due date is a day, which a date begins at midnight. -/
structure InvoiceRow where
  id : Uuid
  sellerId : Uuid
  status : InvoiceStatus
  dueDate : Timestamp
  createdAt : Timestamp
  updatedAt : Timestamp
  deletedAt : Option Timestamp := none
  deriving DecidableEq, Repr

inductive InvoiceColumn where
  | id
  | dueDate
  | createdAt
  | updatedAt
  deriving DecidableEq, Repr

/-- An entity has the columns that its query selects; the others are undefined. -/
structure InvoiceEntity where
  id : Option Uuid
  dueDate : Option Timestamp
  createdAt : Option Timestamp
  updatedAt : Option Timestamp
  deriving DecidableEq, Repr

structure ReputationRow where
  id : ℕ
  walletAddress : String
  score : JsNumber
  tier : ReputationTier
  totalInvoicesSettled : JsNumber
  onTimeSettlementRate : FixedText
  avgDaysLate : FixedText
  avgDaysEarly : FixedText
  lastSettledAt : Option Timestamp
  deriving DecidableEq

structure HistoryRow where
  issuerReputationId : ℕ
  oldScore : JsNumber
  oldTier : ReputationTier
  newScore : JsNumber
  newTier : ReputationTier
  invoiceId : Option Uuid
  settlementWasOnTime : Option Bool
  triggerReason : String
  deriving DecidableEq

/-- Reputations have a unique wallet; the next one gets the id `nextId`. -/
structure Database where
  users : List User
  invoices : List InvoiceRow
  reputations : List ReputationRow := []
  history : List HistoryRow := []
  nextId : ℕ := 1

structure ReputationScore where
  score : JsNumber
  tier : ReputationTier
  totalInvoicesSettled : JsNumber
  onTimeSettlementRate : JsNumber
  avgDaysLate : JsNumber
  avgDaysEarly : JsNumber
  lastSettledAt : Option Timestamp
  deriving DecidableEq

/-! ## The score -/

def computeTier (score : JsNumber) : ReputationTier :=
  if score.ge (number 80) then .excellent
  else if score.ge (number 60) then .good
  else if score.ge (number 40) then .fair
  else .poor

def computeScore (onTimeRate totalSettled avgDaysLate avgDaysEarly : JsNumber) : JsNumber :=
  let onTimeScore := times onTimeRate (.ofRat (4 / 10))
  let settledScore := times (Math.min totalSettled (number 100)) (.ofRat (3 / 10))
  let latePenalty := times (Math.min avgDaysLate (number 30)) (.ofRat (-1 / 2))
  let earlyBonus := times (Math.min avgDaysEarly (number 10)) (.ofRat (3 / 2))
  let rawScore := ((onTimeScore.add settledScore).add latePenalty).add earlyBonus
  Math.max (number 0) (Math.min (number 100) (Math.round rawScore))

/-- What the loop counts. -/
structure Metrics where
  onTimeCount : JsNumber := number 0
  totalDaysLate : JsNumber := number 0
  totalDaysEarly : JsNumber := number 0
  lastSettledAt : Option Timestamp := none

def undefinedGetTime : Thrown :=
  .error "TypeError: Cannot read properties of undefined (reading 'getTime')"

/-- The time value of `new Date(value)`. -/
def timeOf : Option Timestamp → JsNumber
  | some ms => number ms
  | none => .nan

def countInvoice (metrics : Metrics) (invoice : InvoiceEntity) : Except Thrown Metrics := do
  let dueDate := timeOf invoice.dueDate
  let settledDate ← orThrow invoice.updatedAt undefinedGetTime
  let daysDiff := Math.floor (dividedBy ((number settledDate).sub dueDate) (number 86400000))
  let counted :=
    if (number 0).ge daysDiff then
      { metrics with
        onTimeCount := metrics.onTimeCount.add (number 1)
        totalDaysEarly := metrics.totalDaysEarly.add (Math.abs daysDiff) }
    else { metrics with totalDaysLate := metrics.totalDaysLate.add daysDiff }
  return {
    counted with
    lastSettledAt := some ((metrics.lastSettledAt.map (max settledDate)).getD settledDate) }

def readColumns (columns : List InvoiceColumn) (row : InvoiceRow) : InvoiceEntity :=
  { id := if .id ∈ columns then some row.id else none
    dueDate := if .dueDate ∈ columns then some row.dueDate else none
    createdAt := if .createdAt ∈ columns then some row.createdAt else none
    updatedAt := if .updatedAt ∈ columns then some row.updatedAt else none }

/-- The settled invoices of the sellers with this wallet. -/
def settledInvoices (db : Database) (walletAddress : String) : List InvoiceRow :=
  db.invoices.filter fun invoice =>
    db.users.any (fun seller =>
      seller.id == invoice.sellerId && seller.stellarAddress == walletAddress) &&
    invoice.status == .settled && invoice.deletedAt.isNone

/-- Two decimals. -/
def toHundredths (value : JsNumber) : JsNumber :=
  dividedBy (Math.round (times value (number 100))) (number 100)

def scoreOf (totalSettled : JsNumber) (metrics : Metrics) : ReputationScore :=
  let onTimeRate := times (dividedBy metrics.onTimeCount totalSettled) (number 100)
  let avgDaysLate := dividedBy metrics.totalDaysLate totalSettled
  let avgDaysEarly := dividedBy metrics.totalDaysEarly totalSettled
  let score := computeScore onTimeRate totalSettled avgDaysLate avgDaysEarly
  { score := score
    tier := computeTier score
    totalInvoicesSettled := totalSettled
    onTimeSettlementRate := toHundredths onTimeRate
    avgDaysLate := toHundredths avgDaysLate
    avgDaysEarly := toHundredths avgDaysEarly
    lastSettledAt := metrics.lastSettledAt }

def unsettledScore : ReputationScore :=
  { score := number 0
    tier := .poor
    totalInvoicesSettled := number 0
    onTimeSettlementRate := number 0
    avgDaysLate := number 0
    avgDaysEarly := number 0
    lastSettledAt := none }

/-- `computeReputation` over a query of these columns. -/
def computeOver (columns : List InvoiceColumn) (db : Database) (walletAddress : String) :
    Except Thrown ReputationScore :=
  let invoices := (settledInvoices db walletAddress).map (readColumns columns)
  if invoices.length = 0 then .ok unsettledScore
  else do
    let metrics ← invoices.foldlM countInvoice {}
    return scoreOf (number invoices.length) metrics

def selectedColumns : List InvoiceColumn := [.id, .dueDate, .createdAt]

def computeReputation (db : Database) (walletAddress : String) : Except Thrown ReputationScore :=
  computeOver selectedColumns db walletAddress

/-! ## Storing it -/

def getOrCreateReputation (db : Database) (walletAddress : String) : ReputationRow × Database :=
  match findRow ReputationRow.walletAddress db.reputations walletAddress with
  | some reputation => (reputation, db)
  | none =>
      let reputation : ReputationRow :=
        { id := db.nextId
          walletAddress := walletAddress
          score := number 0
          tier := .poor
          totalInvoicesSettled := number 0
          onTimeSettlementRate := .digits 0
          avgDaysLate := .digits 0
          avgDaysEarly := .digits 0
          lastSettledAt := none }
      (reputation,
        { db with
          reputations := saveRow ReputationRow.walletAddress db.reputations reputation
          nextId := db.nextId + 1 })

/-- `new Decimal(value).toFixed(2)`. -/
def fixed2 (value : JsNumber) : FixedText := (DecimalNumber.ofNumber value).toFixed 2

/-- The transaction is rolled back when the computation throws, which reads outside of it. -/
def updateReputationOnSettlement (db : Database) (walletAddress : String) (invoiceId : Uuid)
    (wasOnTime : Bool) : Except Thrown ReputationScore × Database :=
  let (reputation, created) := getOrCreateReputation db walletAddress
  match computeReputation db walletAddress with
  | .error thrown => (.error thrown, db)
  | .ok newScoreData =>
      let updated :=
        { reputation with
          score := newScoreData.score
          tier := newScoreData.tier
          totalInvoicesSettled := newScoreData.totalInvoicesSettled
          onTimeSettlementRate := fixed2 newScoreData.onTimeSettlementRate
          avgDaysLate := fixed2 newScoreData.avgDaysLate
          avgDaysEarly := fixed2 newScoreData.avgDaysEarly
          lastSettledAt := newScoreData.lastSettledAt }
      let saved :=
        { created with
          reputations := saveRow ReputationRow.walletAddress created.reputations updated }
      let changed := !strictEquals reputation.score newScoreData.score ||
        decide (reputation.tier ≠ newScoreData.tier)
      let entry : HistoryRow :=
        { issuerReputationId := reputation.id
          oldScore := reputation.score
          oldTier := reputation.tier
          newScore := newScoreData.score
          newTier := newScoreData.tier
          invoiceId := some invoiceId
          settlementWasOnTime := some wasOnTime
          triggerReason := "settlement" }
      (.ok newScoreData,
        if changed then { saved with history := saved.history ++ [entry] } else saved)

/-- What `settleInvoice` does after it has settled an invoice: it logs an error and goes on. -/
def updateAfterSettlement (db : Database) (sellerId invoiceId : Uuid) (now : Timestamp) :
    Database :=
  match findRow User.id db.users sellerId, findRow InvoiceRow.id db.invoices invoiceId with
  | some user, some invoice =>
      if user.stellarAddress = "" ∨ invoice.deletedAt.isSome then db
      else (updateReputationOnSettlement db user.stellarAddress invoiceId
        (decide (now ≤ invoice.dueDate))).2
  | _, _ => db

/-! ## Without the settlement date -/

section Computing

variable {columns : List InvoiceColumn} {db : Database} {walletAddress : String}
  {invoiceId : Uuid} {wasOnTime : Bool}

theorem computeOver_eq_error (hcolumns : .updatedAt ∉ columns)
    (hsettled : settledInvoices db walletAddress ≠ []) :
    computeOver columns db walletAddress = .error undefinedGetTime := by
  obtain ⟨row, rest, hrows⟩ := List.exists_cons_of_ne_nil hsettled
  have hread : (readColumns columns row).updatedAt = none := if_neg hcolumns
  simp only [computeOver, hrows, List.map_cons, List.length_cons, List.foldlM_cons, countInvoice,
    hread, orThrow_none, error_bind]
  rw [if_neg (Nat.succ_ne_zero _)]

theorem computeReputation_eq_error (hsettled : settledInvoices db walletAddress ≠ []) :
    computeReputation db walletAddress = .error undefinedGetTime :=
  computeOver_eq_error (by decide) hsettled

/-- A computation that throws leaves all tables as they were. -/
theorem updateReputation_of_error {thrown : Thrown}
    (herror : computeReputation db walletAddress = .error thrown) (invoiceId : Uuid)
    (wasOnTime : Bool) :
    updateReputationOnSettlement db walletAddress invoiceId wasOnTime = (.error thrown, db) := by
  rw [updateReputationOnSettlement, herror]

/-- Every settlement counts the invoice that it is about, so that none stores a reputation. -/
theorem updateAfterSettlement_eq {sellerId : Uuid} {invoice : InvoiceRow}
    (hinvoice : findRow InvoiceRow.id db.invoices invoiceId = some invoice)
    (hseller : invoice.sellerId = sellerId) (hstatus : invoice.status = .settled)
    (now : Timestamp) : updateAfterSettlement db sellerId invoiceId now = db := by
  rw [updateAfterSettlement, hinvoice]
  cases huser : findRow User.id db.users sellerId with
  | none => rfl
  | some user =>
      dsimp only
      split_ifs with hskipped
      · rfl
      · obtain ⟨hmem, hid⟩ := mem_of_findRow huser
        have hcounted : invoice ∈ settledInvoices db user.stellarAddress := by
          simp only [settledInvoices, List.mem_filter, Bool.and_eq_true, List.any_eq_true,
            beq_iff_eq, Option.isNone_iff_eq_none]
          refine ⟨(mem_of_findRow hinvoice).1, ⟨⟨user, hmem, by rw [hid, hseller], rfl⟩, hstatus⟩,
            ?_⟩
          simpa using (not_or.mp hskipped).2
        rw [updateReputation_of_error
          (computeReputation_eq_error (List.ne_nil_of_mem hcounted))]

/-! ## What a reputation is to be -/

/-- The same invoice, settled on time: a settlement is late from the day after its due date on. -/
structure OnTimeInstead (row better : InvoiceRow) : Prop where
  same : { better with updatedAt := row.updatedAt } = row
  onTime : better.updatedAt < better.dueDate + 86400000
  kept : row.updatedAt < row.dueDate + 86400000 → better.updatedAt = row.updatedAt

/-- The score counts the settled invoices, is an integer from zero to a hundred, is stored with
its tier and does not fall when late settlements are on time instead. -/
structure MaintainsReputation (db : Database) (walletAddress : String) (invoiceId : Uuid)
    (wasOnTime : Bool) : Prop where
  computed : ∃ reputation, computeReputation db walletAddress = .ok reputation ∧
    reputation.totalInvoicesSettled = number (settledInvoices db walletAddress).length ∧
    ∃ points : ℤ, 0 ≤ points ∧ points ≤ 100 ∧ reputation.score = number points
  stored : ∃ reputation after row,
    updateReputationOnSettlement db walletAddress invoiceId wasOnTime = (.ok reputation, after) ∧
      findRow ReputationRow.walletAddress after.reputations walletAddress = some row ∧
      row.score = reputation.score ∧ row.tier = computeTier row.score
  improves : ∀ better : Database, better.users = db.users →
    List.Forall₂ OnTimeInstead db.invoices better.invoices →
      ∃ reputation improved, computeReputation db walletAddress = .ok reputation ∧
        computeReputation better walletAddress = .ok improved ∧
        improved.score.ge reputation.score = true

theorem not_maintains_of_error {thrown : Thrown}
    (herror : computeReputation db walletAddress = .error thrown) :
    ¬MaintainsReputation db walletAddress invoiceId wasOnTime := by
  rintro ⟨⟨reputation, hok, -⟩, -, -⟩
  rw [herror] at hok
  cases hok

/-- With a settled invoice there is no reputation, and the transaction that was to store it
leaves the tables as they were. -/
theorem reputation_neverMaintained (hsettled : settledInvoices db walletAddress ≠ [])
    (invoiceId : Uuid) (wasOnTime : Bool) :
    computeReputation db walletAddress = .error undefinedGetTime ∧
      updateReputationOnSettlement db walletAddress invoiceId wasOnTime =
        (.error undefinedGetTime, db) ∧
      ¬MaintainsReputation db walletAddress invoiceId wasOnTime := by
  have herror := computeReputation_eq_error hsettled
  exact ⟨herror, updateReputation_of_error herror invoiceId wasOnTime,
    not_maintains_of_error herror⟩

end Computing

/-! ## One settled invoice -/

/-- The only invoice of the seller was settled two days before it was due. -/
def oneSettled : Database :=
  { users := [{ id := 1, stellarAddress := "issuer" }]
    invoices :=
      [{ id := 7, sellerId := 1, status := .settled, dueDate := 864000000, createdAt := 0
         updatedAt := 691200000 }] }

theorem oneSettled_neverMaintained :
    settledInvoices oneSettled "issuer" ≠ [] ∧
      ¬MaintainsReputation oneSettled "issuer" 7 true := by
  have hsettled : settledInvoices oneSettled "issuer" ≠ [] := by decide
  exact ⟨hsettled, (reputation_neverMaintained hsettled 7 true).2.2⟩

/-- The computation ends in a TypeError. -/
theorem oneSettled_undefinedGetTime :
    computeReputation oneSettled "issuer" = .error undefinedGetTime ∧
      updateReputationOnSettlement oneSettled "issuer" 7 true =
        (.error undefinedGetTime, oneSettled) ∧
      ¬MaintainsReputation oneSettled "issuer" 7 true := by
  have herror : computeReputation oneSettled "issuer" = .error undefinedGetTime :=
    computeReputation_eq_error (by decide)
  exact ⟨herror, updateReputation_of_error herror 7 true, not_maintains_of_error herror⟩

end StellarSettle.IssuerReputation
