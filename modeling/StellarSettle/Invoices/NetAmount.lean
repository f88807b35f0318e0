import StellarSettle.Core.GridRounding
import StellarSettle.Invoices.InvoiceService

/-!
# The net amount of an invoice

The service and the entity compute it alike: the product of amount and rate and its distance
from the amount are both rounded to twenty digits before the result is rounded to four decimals.
Amounts are in units of `10 ^ -4` and rates in units of `10 ^ -2`, so that products are in units
of `10 ^ -8` and have up to twenty-two digits.
-/

namespace StellarSettle.NetAmount

open StellarSettle.Checks
open StellarSettle.DecimalJs
open StellarSettle.DecimalRounding
open StellarSettle.Entities
open StellarSettle.GridRounding
open StellarSettle.InvoiceLifecycle

/-! ## The computation -/

/-- `InvoiceService.calculateNetAmount`. -/
def InvoiceService.calculateNetAmount (amount discountRate : ℤ) : Except Thrown ℤ := do
  let amt := ofUnits amount
  let disc : Decimal := (discountRate : ℚ) / 10 ^ 2
  throwIf (amount < 0 ∨ discountRate < 0 ∨ 100 * 10 ^ 2 < discountRate)
    (.service InvoiceService.invalidAmountOrRate)
  let netAmount := minus amt (times amt (dividedBy disc 100))
  return toFixed4 netAmount

/-- The amount less its discount, rounded once. -/
def exactNetAmount (amount discountRate : ℤ) : ℤ :=
  roundPlaces 4 (ofUnits amount * (100 - (discountRate : ℚ) / 10 ^ 2) / 100)

theorem service_eq_recomputed (amount discountRate : ℤ) :
    InvoiceService.calculateNetAmount amount discountRate =
      InvoiceService.recomputedNetAmount amount discountRate := by
  rw [InvoiceService.calculateNetAmount, InvoiceService.recomputedNetAmount,
    InvoiceLifecycle.calculateNetAmount]
  by_cases hrange : amount < 0 ∨ discountRate < 0 ∨ 100 * 10 ^ 2 < discountRate
  · simp only [throwIf_pos hrange]
    rfl
  · simp only [throwIf_neg hrange]
    rfl

/-! ## Rounding to twenty digits -/

/-- The last unit that twenty digits reach, for numbers below `10 ^ 22`. -/
def lastDigit (number : ℤ) : ℤ :=
  if number < 10 ^ 20 then 1 else if number < 10 ^ 21 then 10 else 100

/-- A number of units as decimal.js keeps it. -/
def kept (number : ℤ) : ℤ := roundToStep (lastDigit number) number

theorem roundSignificant_kept {number : ℤ} (hnonneg : 0 ≤ number) (hbound : number < 10 ^ 22) :
    roundSignificant precision ((number : ℚ) / 10 ^ 8) = (kept number : ℚ) / 10 ^ 8 := by
  rw [kept, lastDigit, precision]
  split_ifs with htwenty hone
  · rw [roundToStep_one, roundSignificant_grid (by rwa [abs_of_nonneg hnonneg])]
  · have hlow : (10 : ℤ) ^ (20 + 1) ≤ 10 * number := by
      norm_num
      omega
    exact roundSignificant_units hlow hone
  · have hlow : (10 : ℤ) ^ (20 + 2) ≤ 10 * number := by
      norm_num
      omega
    exact roundSignificant_units hlow hbound

/-- What the two roundings to twenty digits do to an amount less its discount. -/
def keptNet (amount discount : ℤ) : ℤ := kept (10 ^ 4 * amount - kept discount)

theorem kept_nonneg {number : ℤ} (hnonneg : 0 ≤ number) : 0 ≤ kept number := by
  rw [kept, roundToStep, lastDigit]
  split_ifs <;> omega

/-- No number is rounded past a four-decimal amount. -/
theorem kept_le {number amount : ℤ} (hle : number ≤ 10 ^ 4 * amount) :
    kept number ≤ 10 ^ 4 * amount := by
  rw [kept, roundToStep, lastDigit]
  split_ifs <;> omega

/-- Closest multiple of `10 ^ 4`, in units of that size. -/
def toFourDecimals (number : ℤ) : ℤ := (2 * number + 10 ^ 4) / (2 * 10 ^ 4)

theorem roundPlaces_units {number : ℤ} (hnonneg : 0 ≤ number) :
    roundPlaces 4 ((number : ℚ) / 10 ^ 8) = toFourDecimals number := by
  rw [toFourDecimals, ← roundHalfUp_div (by norm_num) hnonneg, roundPlaces]
  congr 1
  push_cast
  ring

variable {amount discountRate : ℤ}

/-- An admitted amount has eighteen digits and an admitted rate is a percentage. -/
structure Admitted (amount discountRate : ℤ) : Prop where
  amount_nonneg : 0 ≤ amount
  amount_digits : amount < 10 ^ 18
  rate_nonneg : 0 ≤ discountRate
  rate_percent : discountRate ≤ 100 * 10 ^ 2

theorem Admitted.discount_nonneg (hadmitted : Admitted amount discountRate) :
    0 ≤ amount * discountRate :=
  mul_nonneg hadmitted.amount_nonneg hadmitted.rate_nonneg

theorem Admitted.discount_le (hadmitted : Admitted amount discountRate) :
    amount * discountRate ≤ 10 ^ 4 * amount := by
  have hrate := mul_le_mul_of_nonneg_left hadmitted.rate_percent hadmitted.amount_nonneg
  linarith

theorem toFixed4_net (hadmitted : Admitted amount discountRate) :
    toFixed4 (minus (ofUnits amount)
        (times (ofUnits amount) (dividedBy ((discountRate : ℚ) / 10 ^ 2) 100))) =
      toFourDecimals (keptNet amount (amount * discountRate)) := by
  have hdiscount := hadmitted.discount_nonneg
  have hle := hadmitted.discount_le
  obtain ⟨hamount, hdigits, hrate, hpercent⟩ := hadmitted
  have hfraction : dividedBy ((discountRate : ℚ) / 10 ^ 2) 100 = (discountRate : ℚ) / 10 ^ 4 := by
    have hsame : (discountRate : ℚ) / 10 ^ 2 / 100 = (discountRate : ℚ) / 10 ^ 4 := by ring
    rw [dividedBy, hsame, roundSignificant_grid]
    rw [abs_of_nonneg hrate, precision]
    omega
  have hproduct : times (ofUnits amount) ((discountRate : ℚ) / 10 ^ 4) =
      (kept (amount * discountRate) : ℚ) / 10 ^ 8 := by
    rw [times, ofUnits, ← roundSignificant_kept hdiscount (by omega)]
    push_cast
    ring_nf
  have hnet : minus (ofUnits amount) ((kept (amount * discountRate) : ℚ) / 10 ^ 8) =
      (keptNet amount (amount * discountRate) : ℚ) / 10 ^ 8 := by
    have hdifference : 0 ≤ 10 ^ 4 * amount - kept (amount * discountRate) :=
      sub_nonneg.mpr (kept_le hle)
    have hpositive := kept_nonneg hdiscount
    rw [keptNet, ← roundSignificant_kept hdifference (by omega), minus, ofUnits]
    push_cast
    ring_nf
  rw [hfraction, hproduct, hnet, toFixed4, roundPlaces_units]
  exact kept_nonneg (sub_nonneg.mpr (kept_le hle))

theorem exactNetAmount_eq (hadmitted : Admitted amount discountRate) :
    exactNetAmount amount discountRate =
      toFourDecimals (10 ^ 4 * amount - amount * discountRate) := by
  rw [exactNetAmount, ← roundPlaces_units (sub_nonneg.mpr hadmitted.discount_le), ofUnits]
  congr 1
  push_cast
  ring

/-! ## Rounding twice -/

/-- The discount lies above half a unit by so little that the kept digits end at the tie: either
those of the discount do, or the net amount has fewer decimals left and its digits do. -/
def DoublyRounded (amount discountRate : ℤ) : Prop :=
  let discount := amount * discountRate
  let net := amount * (10 ^ 4 - discountRate)
  let excess := discount % 10 ^ 4 - 5000
  0 < excess ∧ 2 * excess <
    if lastDigit discount < lastDigit net then lastDigit discount + lastDigit net
    else lastDigit discount

instance (amount discountRate : ℤ) : Decidable (DoublyRounded amount discountRate) :=
  inferInstanceAs (Decidable (_ ∧ _))

/-- Rounding to kept digits never leaves the half of a unit that lies above a tie, and it leaves
the half below only for the tie itself. -/
theorem toFourDecimals_keptNet (amount discount : ℤ) :
    toFourDecimals (keptNet amount discount) = toFourDecimals (10 ^ 4 * amount - discount) ↔
      ¬(0 < discount % 10 ^ 4 - 5000 ∧ 2 * (discount % 10 ^ 4 - 5000) <
        if lastDigit discount < lastDigit (10 ^ 4 * amount - discount) then
          lastDigit discount + lastDigit (10 ^ 4 * amount - discount)
        else lastDigit discount) := by
  simp only [toFourDecimals, keptNet, kept, roundToStep, lastDigit]
  -- The discount and both differences have up to twenty, twenty-one or twenty-two digits.
  split_ifs <;> omega

/-! ## The three callers -/

theorem calculateNetAmount_eq (hadmitted : Admitted amount discountRate) :
    calculateNetAmount amount discountRate =
      .ok (toFourDecimals (keptNet amount (amount * discountRate))) := by
  have hrange : ¬(amount < 0 ∨ discountRate < 0 ∨ 100 * 10 ^ 2 < discountRate) := by
    have hamount := hadmitted.amount_nonneg
    have hrate := hadmitted.rate_nonneg
    have hpercent := hadmitted.rate_percent
    omega
  rw [calculateNetAmount, throwIf_neg hrange, ← toFixed4_net hadmitted]
  rfl

theorem service_calculateNetAmount_eq (hadmitted : Admitted amount discountRate) :
    InvoiceService.calculateNetAmount amount discountRate =
      .ok (toFourDecimals (keptNet amount (amount * discountRate))) := by
  rw [service_eq_recomputed, InvoiceService.recomputedNetAmount, calculateNetAmount_eq hadmitted]

theorem calculateAndFormatAmounts_eq {invoice : Invoice}
    (hadmitted : Admitted invoice.amount invoice.discountRate) :
    calculateAndFormatAmounts invoice =
      .ok { invoice with
        netAmount :=
          toFourDecimals (keptNet invoice.amount (invoice.amount * invoice.discountRate)) } := by
  have hamount := hadmitted.amount_nonneg
  have hrate := hadmitted.rate_nonneg
  have hpercent := hadmitted.rate_percent
  rw [calculateAndFormatAmounts, throwIf_neg (by omega), throwIf_neg (by omega),
    calculateNetAmount_eq hadmitted]
  rfl

theorem toFourDecimals_nonneg {number : ℤ} (hnonneg : 0 ≤ number) :
    0 ≤ toFourDecimals number := by
  rw [toFourDecimals]
  omega

theorem toFourDecimals_le {number : ℤ} (hle : number ≤ 10 ^ 4 * amount) :
    toFourDecimals number ≤ amount := by
  rw [toFourDecimals]
  omega

/-- Both computations and the hook give the net amount that is rounded once, which lies between
zero and the amount. -/
structure NetAmountsExact (amount discountRate : ℤ) : Prop where
  service : InvoiceService.calculateNetAmount amount discountRate =
    .ok (exactNetAmount amount discountRate)
  entity : calculateNetAmount amount discountRate = .ok (exactNetAmount amount discountRate)
  hook : ∀ invoice : Invoice, invoice.amount = amount → invoice.discountRate = discountRate →
    calculateAndFormatAmounts invoice =
      .ok { invoice with netAmount := exactNetAmount amount discountRate }
  nonneg : 0 ≤ exactNetAmount amount discountRate
  le_amount : exactNetAmount amount discountRate ≤ amount

theorem netAmountsExact_iff (hadmitted : Admitted amount discountRate) :
    NetAmountsExact amount discountRate ↔ ¬DoublyRounded amount discountRate := by
  have hnet : 10 ^ 4 * amount - amount * discountRate = amount * (10 ^ 4 - discountRate) := by ring
  have hrounded := toFourDecimals_keptNet amount (amount * discountRate)
  rw [← exactNetAmount_eq hadmitted, hnet] at hrounded
  refine Iff.trans ⟨fun hexact => ?_, fun hsame => ?_⟩ hrounded
  · exact Except.ok.inj ((calculateNetAmount_eq hadmitted).symm.trans hexact.entity)
  · refine ⟨?_, ?_, ?_, ?_, ?_⟩
    · rw [service_calculateNetAmount_eq hadmitted, hsame]
    · rw [calculateNetAmount_eq hadmitted, hsame]
    · rintro invoice rfl rfl
      rw [calculateAndFormatAmounts_eq hadmitted, hsame]
    · rw [exactNetAmount_eq hadmitted]
      exact toFourDecimals_nonneg (sub_nonneg.mpr hadmitted.discount_le)
    · rw [exactNetAmount_eq hadmitted]
      exact toFourDecimals_le (by linarith [hadmitted.discount_nonneg])

theorem netAmountsExact_small :
    Admitted 299900 50 ∧ NetAmountsExact 299900 50 := by
  have hadmitted : Admitted 299900 50 := ⟨by norm_num, by norm_num, by norm_num, by norm_num⟩
  exact ⟨hadmitted, (netAmountsExact_iff hadmitted).mpr (by decide)⟩

/-- 50.01 percent off 99999999999999.5002 leaves 49989999999999.75014998, which twenty digits
round to a tie. -/
theorem netAmount_roundedTwice :
    Admitted 999999999999995002 5001 ∧ ¬NetAmountsExact 999999999999995002 5001 := by
  have hadmitted : Admitted 999999999999995002 5001 :=
    ⟨by norm_num, by norm_num, by norm_num, by norm_num⟩
  refine ⟨hadmitted, fun hexact => ?_⟩
  have hsame := Except.ok.inj ((calculateNetAmount_eq hadmitted).symm.trans hexact.entity)
  rw [exactNetAmount_eq hadmitted] at hsame
  exact absurd hsame (by decide)

end StellarSettle.NetAmount
