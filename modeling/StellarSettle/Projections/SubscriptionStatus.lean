import StellarSettle.Core.Checks
import StellarSettle.Projections.EventReader
import StellarSettle.Projections.Numbers

/-!
# Subscription access

A wallet's holding of a key is read from the contract by three view calls, and the chain
head by a fourth.  A read that gives no number counts as zero, or as no expiry, so the
access that follows need not be backed by what the chain says.  A cached status is left out:
it is the answer of earlier reads.
-/

namespace StellarSettle.SubscriptionStatus

open StellarSettle.Amounts
open StellarSettle.Checks
open StellarSettle.DecimalRounding
open StellarSettle.EventReader
open StellarSettle.Numbers

/-! ## Chain reads -/

/-- How the simulation of a view call ends. -/
inductive CallOutcome where
  | returned (native : EventValue)
  | missing
  | failed

/-- How the read of the latest ledger ends.  A sequence that is not a number counts as NaN. -/
inductive LedgerOutcome where
  | returned (sequence : JsNumber)
  | failed

/-- The number that a call returns. -/
def CallOutcome.number : CallOutcome → Option ℤ
  | .returned (.number value) => some value
  | .returned (.bigint value) => some value
  | _ => none

/-- The widest integers of a contract have 256 bits. -/
def CallOutcome.Fits (outcome : CallOutcome) : Prop :=
  ∀ number, outcome.number = some number → |number| ≤ 2 ^ 256

structure ChainReads where
  holding : CallOutcome
  minimum : CallOutcome
  expiry : CallOutcome
  latestLedger : LedgerOutcome
  fits : holding.Fits ∧ minimum.Fits ∧ expiry.Fits

/-- What a read needs besides the answers of the node: a client, and an encoding of the
wallet, which fails with the library's message where the wallet is not an address. -/
structure Reader where
  configured : Bool
  encodeAddress : String → Except String Unit

structure KeyHoldingReading where
  balance : String
  minBalance : String
  expiryLedger : Option JsNumber
  ledger : JsNumber

def callNumeric : CallOutcome → Option String
  | .returned .null => none
  | .returned (.bool value) => some (if value then "true" else "false")
  | .returned (.number value) => some (toString value)
  | .returned (.bigint value) => some (toString value)
  | .returned (.string text) => some text
  | .returned (.array _) => none
  | .returned (.object _) => none
  | .missing => none
  | .failed => none

def currentLedger : LedgerOutcome → JsNumber
  | .returned sequence => sequence
  | .failed => .ofRat 0

def readHolding (reader : Reader) (wallet : String) (reads : ChainReads) :
    Except String KeyHoldingReading := do
  if reader.configured = false then
    throw "Soroban RPC server is not configured for subscription reads."
  if wallet ≠ "" then reader.encodeAddress wallet
  return {
    balance := (callNumeric reads.holding).getD "0"
    minBalance := (callNumeric reads.minimum).getD "0"
    expiryLedger := (callNumeric reads.expiry).map JsNumber.ofText
    ledger := currentLedger reads.latestLedger }

/-! ## The status -/

def LEDGERS_PER_DAY : Double := .ofInt 17280 (by decide)

structure SubscriptionStatusView where
  wallet : String
  keyId : String
  subscribed : Bool
  balance : String
  minBalance : String
  expiryLedger : Option Double
  daysRemaining : JsNumber
  ledger : Double

/-- `value.toFixed(0)`. -/
def wholeText : DecimalValue → String
  | .number value => (if value < 0 then "-" else "") ++ toString (roundPlaces 0 value).natAbs
  | .infinity negative => if negative then "-Infinity" else "Infinity"
  | .nan => "NaN"

section Status

variable (parse : String → Option DecimalValue)

/-- `new Decimal(value.trim() || "0")`, and zero where the constructor throws. -/
def toDecimal (value : String) : DecimalValue :=
  (parse (if trimText value = "" then "0" else trimText value)).getD (.number 0)

/-- `Number.isFinite(value) ? value : null`. -/
def finiteOf : JsNumber → Option Double
  | .finite value => some value
  | _ => none

def zero : Double := .ofInt 0 abs_zero_le_digits

def isExpired (expiryLedger : Option Double) (ledger : Double) : Bool :=
  expiryLedger.any fun expiry => expiry.val ≤ ledger.val

def buildStatusView (ledgersPerDay : Double) (wallet keyId : String)
    (reading : KeyHoldingReading) : SubscriptionStatusView :=
  let balance := toDecimal parse reading.balance
  let minBalance := toDecimal parse reading.minBalance
  let holdsMinimum := balance.gte minBalance
  let expiryLedger := reading.expiryLedger.bind finiteOf
  let ledger := (finiteOf reading.ledger).getD zero
  let subscribed := holdsMinimum && !isExpired expiryLedger ledger
  let perDay := if 0 < ledgersPerDay.val then ledgersPerDay else LEDGERS_PER_DAY
  { wallet := wallet
    keyId := keyId
    subscribed := subscribed
    balance := wholeText balance
    minBalance := wholeText minBalance
    expiryLedger := expiryLedger
    daysRemaining :=
      match expiryLedger with
      | some expiry =>
          if subscribed ∧ ledger.val < expiry.val then
            (((JsNumber.finite expiry).sub (.finite ledger)).divBy perDay).ceil
          else .finite zero
      | none => .finite zero
    ledger := ledger }

/-- The status from the chain, when none is cached. -/
def getStatus (reader : Reader) (ledgersPerDay : Double) (wallet keyId : String)
    (reads : ChainReads) : Except String SubscriptionStatusView := do
  let reading ← readHolding reader wallet reads
  return buildStatusView parse ledgersPerDay wallet keyId reading

end Status

/-! ## Access that the chain backs -/

/-- The contract has no expiry for the wallet. -/
def CallOutcome.IsNone (outcome : CallOutcome) : Prop :=
  outcome = .missing ∨ outcome = .returned .null

/-- The sequence that the node returns. -/
def LedgerOutcome.sequence : LedgerOutcome → Option Double
  | .returned (.finite sequence) => some sequence
  | _ => none

/-- Every read gives a number; the contract may have no expiry. -/
structure Complete (reads : ChainReads) : Prop where
  holding : reads.holding.number.isSome
  minimum : reads.minimum.number.isSome
  expiry : reads.expiry.IsNone ∨ reads.expiry.number.isSome
  latestLedger : reads.latestLedger.sequence.isSome

/-- The balance that was read is at least the minimum that was read, and the expiry, if there
is one, is later than the ledger. -/
structure Backed (reads : ChainReads) : Prop where
  complete : Complete reads
  minimum : ∀ balance minBalance, reads.holding.number = some balance →
    reads.minimum.number = some minBalance → minBalance ≤ balance
  expiry : ∀ expiry sequence, reads.expiry.number = some expiry →
    reads.latestLedger.sequence = some sequence → sequence.val < expiry

/-- Whoever is subscribed is backed by the chain. -/
def FailsClosed (status : Except String SubscriptionStatusView) (reads : ChainReads) : Prop :=
  ∀ view, status = .ok view → view.subscribed = true → Backed reads

/-- `new Decimal` reads the digits of an integer as that integer. -/
def ReadsIntegers (parse : String → Option DecimalValue) : Prop :=
  ∀ number : ℤ, parse (toString number) = some (.number number)

/-- The read goes through to the node. -/
def Reader.Reaches (reader : Reader) (wallet : String) : Prop :=
  reader.configured = true ∧ (wallet ≠ "" → reader.encodeAddress wallet = .ok ())

/-- The balance, or zero, is below the minimum, or zero. -/
def BelowMinimum (parse : String → Option DecimalValue) (reads : ChainReads) : Prop :=
  (toDecimal parse ((callNumeric reads.holding).getD "0")).gte
    (toDecimal parse ((callNumeric reads.minimum).getD "0")) = false

/-- There is an expiry that is a number, and it is not later than the ledger, or zero. -/
def Lapsed (reads : ChainReads) : Prop :=
  ∃ expiry, ((callNumeric reads.expiry).map JsNumber.ofText).bind finiteOf = some expiry ∧
    expiry.val ≤ ((finiteOf (currentLedger reads.latestLedger)).getD zero).val

/-! ## What the code takes for the reads -/

section Reads

variable {parse : String → Option DecimalValue} {outcome : CallOutcome} {number : ℤ}

theorem callNumeric_of_number (hnumber : outcome.number = some number) :
    callNumeric outcome = some (toString number) := by
  cases outcome with
  | returned native =>
      cases native <;> simp_all [CallOutcome.number, callNumeric]
  | missing => cases hnumber
  | failed => cases hnumber

theorem trimText_toString (number : ℤ) : trimText (toString number) = toString number := by
  rw [trimText, trim_eq_self (isTrimmed_of_mem_toString number), String.ofList_toList]

theorem toDecimal_toString (hparse : ReadsIntegers parse) (number : ℤ) :
    toDecimal parse (toString number) = .number number := by
  have hne : trimText (toString number) ≠ "" := by
    rw [trimText_toString]
    intro hempty
    have hlist := congrArg String.toList hempty
    by_cases hnonneg : 0 ≤ number
    · rw [toList_toString_of_nonneg hnonneg] at hlist
      exact Nat.toDigits_ne_nil hlist
    · rw [toList_toString_of_neg (not_le.mp hnonneg)] at hlist
      cases hlist
  rw [toDecimal, if_neg hne, trimText_toString, hparse]
  rfl

theorem not_belowMinimum_iff {reads : ChainReads} {balance minBalance : ℤ}
    (hparse : ReadsIntegers parse) (hbalance : reads.holding.number = some balance)
    (hminimum : reads.minimum.number = some minBalance) :
    ¬BelowMinimum parse reads ↔ minBalance ≤ balance := by
  rw [BelowMinimum, callNumeric_of_number hbalance, callNumeric_of_number hminimum,
    Option.getD_some, Option.getD_some, toDecimal_toString hparse, toDecimal_toString hparse,
    DecimalValue.gte, Bool.not_eq_false, decide_eq_true_eq, Int.cast_le]

/-- The expiry is a double that the rounded ledger count does not pass by. -/
theorem lt_of_not_lapsed {reads : ChainReads} {expiry : ℤ} {sequence : Double}
    (hexpiry : reads.expiry.number = some expiry)
    (hsequence : reads.latestLedger.sequence = some sequence) (hlapsed : ¬Lapsed reads) :
    sequence.val < expiry := by
  obtain ⟨rounded, hrounded⟩ :=
    JsNumber.exists_finite_of_abs_le (reads.fits.2.2 expiry hexpiry)
  have hledger : currentLedger reads.latestLedger = .finite sequence := by
    rcases hlatest : reads.latestLedger with ⟨_ | _ | _⟩ | _ <;> rw [hlatest] at hsequence <;>
      cases hsequence
    rfl
  by_contra hpassed
  refine hlapsed ⟨rounded, ?_, ?_⟩
  · rw [callNumeric_of_number hexpiry, Option.map_some, JsNumber.ofText_toString, hrounded]
    rfl
  · rw [hledger]
    exact JsNumber.le_of_ofRat hrounded (not_lt.mp hpassed)

theorem backed_of_complete {reads : ChainReads} (hparse : ReadsIntegers parse)
    (hcomplete : Complete reads) (hminimum : ¬BelowMinimum parse reads)
    (hlapsed : ¬Lapsed reads) : Backed reads where
  complete := hcomplete
  minimum _ _ hbalance hmin := (not_belowMinimum_iff hparse hbalance hmin).mp hminimum
  expiry _ _ hexpiry hsequence := lt_of_not_lapsed hexpiry hsequence hlapsed

end Reads

/-! ## Access -/

section Access

variable {parse : String → Option DecimalValue} {reader : Reader} {ledgersPerDay : Double}
  {wallet keyId : String} {reads : ChainReads}

/-- What the reader makes of the reads. -/
def readingOf (reads : ChainReads) : KeyHoldingReading where
  balance := (callNumeric reads.holding).getD "0"
  minBalance := (callNumeric reads.minimum).getD "0"
  expiryLedger := (callNumeric reads.expiry).map JsNumber.ofText
  ledger := currentLedger reads.latestLedger

theorem readHolding_eq_ok {reading : KeyHoldingReading} :
    readHolding reader wallet reads = .ok reading ↔
      reader.Reaches wallet ∧ reading = readingOf reads := by
  rw [readHolding, Reader.Reaches, readingOf]
  cases reader.configured with
  | false =>
      refine ⟨fun hread => ?_, fun hread => ?_⟩
      · cases hread
      · cases hread.1.1
  | true =>
      by_cases hwallet : wallet = ""
      · simp [hwallet]
      · cases hencoded : reader.encodeAddress wallet with
        | error message => simp [hwallet]
        | ok _ =>
            simp only [hwallet, pure_eq_ok, ok_bind, ne_eq, not_false_eq_true, if_true,
              Bool.true_eq_false, if_false, forall_const, true_and]

theorem subscribed_iff (reading : KeyHoldingReading) :
    (buildStatusView parse ledgersPerDay wallet keyId reading).subscribed = true ↔
      (toDecimal parse reading.balance).gte (toDecimal parse reading.minBalance) = true ∧
        isExpired (reading.expiryLedger.bind finiteOf)
          ((finiteOf reading.ledger).getD zero) = false := by
  rw [buildStatusView, Bool.and_eq_true, Bool.not_eq_true']

theorem subscribed_readingOf_iff (ledgersPerDay : Double) (wallet keyId : String) :
    (buildStatusView parse ledgersPerDay wallet keyId (readingOf reads)).subscribed = true ↔
      ¬BelowMinimum parse reads ∧ ¬Lapsed reads := by
  rw [subscribed_iff, readingOf, BelowMinimum, Lapsed, isExpired]
  dsimp only
  rw [Bool.not_eq_false]
  refine and_congr_right' ?_
  rw [← Bool.not_eq_true, Option.any_eq_true]
  simp

/-- Access fails closed exactly when every read gives a number, or what the code takes for
the reads refuses the access, or the node is not reached. -/
theorem failsClosed_iff (ledgersPerDay : Double) (keyId : String) (hparse : ReadsIntegers parse) :
    FailsClosed (getStatus parse reader ledgersPerDay wallet keyId reads) reads ↔
      ¬reader.Reaches wallet ∨ Complete reads ∨ BelowMinimum parse reads ∨ Lapsed reads := by
  have hstatus : ∀ view, getStatus parse reader ledgersPerDay wallet keyId reads = .ok view ↔
      reader.Reaches wallet ∧
        view = buildStatusView parse ledgersPerDay wallet keyId (readingOf reads) := by
    intro view
    rw [getStatus, bind_eq_ok]
    simp only [readHolding_eq_ok, pure_eq_ok]
    constructor
    · rintro ⟨_, ⟨hreaches, rfl⟩, hview⟩
      exact ⟨hreaches, hview⟩
    · rintro ⟨hreaches, hview⟩
      exact ⟨_, ⟨hreaches, rfl⟩, hview⟩
  constructor
  · intro hcloses
    by_contra hopen
    simp only [not_or, not_not] at hopen
    obtain ⟨hreaches, hincomplete, hminimum, hlapsed⟩ := hopen
    have hsubscribed := (subscribed_readingOf_iff ledgersPerDay wallet keyId).mpr
      ⟨hminimum, hlapsed⟩
    exact hincomplete (hcloses _ ((hstatus _).mpr ⟨hreaches, rfl⟩) hsubscribed).complete
  · intro hwhen view hview hsubscribed
    obtain ⟨hreaches, rfl⟩ := (hstatus view).mp hview
    obtain ⟨hminimum, hlapsed⟩ :=
      (subscribed_readingOf_iff ledgersPerDay wallet keyId).mp hsubscribed
    rcases hwhen with hunreached | hcomplete | hbelow | hpassed
    · exact absurd hreaches hunreached
    · exact backed_of_complete hparse hcomplete hminimum hlapsed
    · exact absurd hbelow hminimum
    · exact absurd hpassed hlapsed

/-- The numerals among the texts that the constructor takes. -/
def numeral (text : String) : Option DecimalValue :=
  let (negative, digits) := spanSign text.toList
  (unsignedOf digits).map fun value => .number (if negative then -value else value)

theorem readsIntegers_numeral : ReadsIntegers numeral := by
  intro number
  have hdigits := isDigit_of_mem_toDigits number.natAbs
  by_cases hnonneg : 0 ≤ number
  · rw [numeral, toList_toString_of_nonneg hnonneg, spanSign_digits hdigits]
    dsimp only
    rw [unsignedOf_digits hdigits Nat.toDigits_ne_nil, Nat.ofDigitChars_ten_toDigits,
      ← Int.cast_natCast, Int.natAbs_of_nonneg hnonneg]
    rfl
  · have hneg := not_le.mp hnonneg
    rw [numeral, toList_toString_of_neg hneg, spanSign]
    dsimp only
    rw [unsignedOf_digits hdigits Nat.toDigits_ne_nil, Nat.ofDigitChars_ten_toDigits,
      ← Int.cast_natCast, Int.ofNat_natAbs_of_nonpos hneg.le]
    simp

/-- The wallet holds 5, the contract has no expiry, and the minimum may fail to be read. -/
def holdingFive (minimum : CallOutcome) (hfits : minimum.Fits) : ChainReads where
  holding := .returned (.bigint 5)
  minimum := minimum
  expiry := .missing
  latestLedger := .returned (.finite (.ofInt 100 (by decide)))
  fits := ⟨fun _ hnumber => by cases hnumber; decide, hfits, fun _ hnumber => by cases hnumber⟩

def anyAddress : Reader := { configured := true, encodeAddress := fun _ => .ok () }

theorem readMinimum_failsClosed :
    ReadsIntegers numeral ∧
      FailsClosed (getStatus numeral anyAddress LEDGERS_PER_DAY "GHOLDER" "key"
        (holdingFive (.returned (.bigint 5)) fun _ hnumber => by cases hnumber; decide))
        (holdingFive (.returned (.bigint 5)) fun _ hnumber => by cases hnumber; decide) :=
  ⟨readsIntegers_numeral, (failsClosed_iff LEDGERS_PER_DAY "key" readsIntegers_numeral).mpr
    (.inr (.inl ⟨rfl, rfl, .inl (.inl rfl), rfl⟩))⟩

/-- The minimum could not be read, so the wallet is subscribed. -/
theorem failedMinimum_subscribed :
    ∃ view, getStatus numeral anyAddress LEDGERS_PER_DAY "GHOLDER" "key"
        (holdingFive .failed fun _ hnumber => by cases hnumber) = .ok view ∧
      view.subscribed = true ∧
      ¬Backed (holdingFive .failed fun _ hnumber => by cases hnumber) := by
  refine ⟨_, rfl, ?_, fun hbacked => ?_⟩
  · refine (subscribed_readingOf_iff _ _ _).mpr ⟨?_, ?_⟩
    · have hbalance := toDecimal_toString readsIntegers_numeral 5
      have hminimum := toDecimal_toString readsIntegers_numeral 0
      change ¬(toDecimal numeral (toString (5 : ℤ))).gte (toDecimal numeral (toString (0 : ℤ))) =
        false
      rw [hbalance, hminimum]
      decide
    · rintro ⟨_, hnone, -⟩
      cases hnone
  · cases hbacked.complete.minimum

end Access

end StellarSettle.SubscriptionStatus
