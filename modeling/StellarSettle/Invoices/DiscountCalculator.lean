import StellarSettle.Core.Checks
import StellarSettle.Core.GridRounding
import StellarSettle.Core.RoundedSums
import StellarSettle.Projections.EventNumbers
import StellarSettle.Projections.WholeNumbers

/-!
# The terms of a discounted invoice

Discount, fee and advance are computed to twenty digits and written with four decimals each.  The
texts add up to the face value as long as what their roundings take off does.
-/

namespace StellarSettle.DiscountCalculator

open StellarSettle.BinaryRounding
open StellarSettle.Checks
open StellarSettle.DecimalJs
open StellarSettle.DecimalRounding
open StellarSettle.Entities
open StellarSettle.EventNumbers
open StellarSettle.GridRounding
open StellarSettle.Numbers
open StellarSettle.RoundedSums
open StellarSettle.ShortestDecimal
open StellarSettle.WholeNumbers

/-! ## decimal.js numbers with infinities and NaN -/

inductive DecimalNumber where
  | finite (value : Decimal)
  | infinity (negative : Bool)
  | nan
  deriving DecidableEq

/-- What `toFixed` writes: the digits are kept as their number of units of the last place. -/
inductive FixedText where
  | digits (units : ℤ)
  | infinity (negative : Bool)
  | nan
  deriving DecidableEq, Repr

namespace DecimalNumber

/-- `new Decimal(value)`, which reads what `String(value)` writes. -/
def ofNumber (value : JsNumber) : DecimalNumber :=
  match value, numberText value with
  | .infinity negative, _ => .infinity negative
  | _, some decimal => .finite decimal
  | _, none => .nan

def isNegative : DecimalNumber → Bool
  | .finite value => value < 0
  | .infinity negative => negative
  | .nan => false

def isZero : DecimalNumber → Bool
  | .finite value => value = 0
  | _ => false

def times : DecimalNumber → DecimalNumber → DecimalNumber
  | .finite left, .finite right => .finite (DecimalJs.times left right)
  | .infinity negative, .finite factor =>
      if factor = 0 then .nan else .infinity (negative != decide (factor < 0))
  | .finite factor, .infinity negative =>
      if factor = 0 then .nan else .infinity (negative != decide (factor < 0))
  | .infinity left, .infinity right => .infinity (left != right)
  | _, _ => .nan

def dividedBy : DecimalNumber → DecimalNumber → DecimalNumber
  | .finite left, .finite right =>
      if right ≠ 0 then .finite (DecimalJs.dividedBy left right)
      else if left = 0 then .nan
      else .infinity (left < 0)
  | .infinity negative, .finite divisor => .infinity (negative != decide (divisor < 0))
  | .finite _, .infinity _ => .finite 0
  | _, _ => .nan

def minus : DecimalNumber → DecimalNumber → DecimalNumber
  | .finite left, .finite right => .finite (DecimalJs.minus left right)
  | .infinity negative, .finite _ => .infinity negative
  | .finite _, .infinity negative => .infinity (!negative)
  | .infinity left, .infinity right => if left = right then .nan else .infinity left
  | _, _ => .nan

/-- `value.gt(0)`. -/
def isPositive : DecimalNumber → Bool
  | .finite value => 0 < value
  | .infinity negative => !negative
  | .nan => false

def toFixed (places : ℕ) : DecimalNumber → FixedText
  | .finite value => .digits (roundPlaces places value)
  | .infinity negative => .infinity negative
  | .nan => .nan

end DecimalNumber

/-! ## The calculation -/

theorem abs_dayMs_le_digits : |(86400000 : ℤ)| ≤ 2 ^ 53 := by decide

theorem abs_tenThousand_le_digits : |(10000 : ℤ)| ≤ 2 ^ 53 := by decide

/-- The face value is what `new Decimal(rawFaceValue)` returns or throws; a date is its time
value, which is NaN for an invalid one. -/
structure InvoiceTermsInput where
  faceValue : Except Thrown DecimalNumber
  dueDate : JsNumber
  discountBps : JsNumber
  platformFeeBps : Option JsNumber := none
  referenceDate : Option JsNumber := none

/-- The texts have four decimals, and that of the rate has two. -/
structure InvoiceTermsResult where
  faceValue : FixedText
  tenureDays : JsNumber
  discountBps : JsNumber
  platformFeeBps : JsNumber
  discountAmount : FixedText
  platformFee : FixedText
  advanceAmount : FixedText
  investorReturn : FixedText
  apr : FixedText
  deriving DecidableEq

/-- `Math.max(1, days)`. -/
def atLeastOneDay : JsNumber → JsNumber
  | .nan => .nan
  | days => if days.lt (number 1) then number 1 else days

def calculateTenureDays (now dueDateInput : JsNumber) (referenceDateInput : Option JsNumber) :
    Except Thrown JsNumber := do
  let due := dueDateInput
  let ref := referenceDateInput.getD now
  throwIf (due = .nan ∨ ref = .nan) (.error "Invalid date provided for tenure calculation")
  let diffMs := due.sub ref
  let diffDays := (diffMs.divBy (Double.ofInt 86400000 abs_dayMs_le_digits)).ceil
  return atLeastOneDay diffDays

/-- The annualized rate in percent; without an advance or a discount it is zero. -/
def annualRate (discountAmount advanceAmount : DecimalNumber) (tenureDays : JsNumber) :
    DecimalNumber :=
  if advanceAmount.isPositive && discountAmount.isPositive && (number 0).lt tenureDays then
    (((discountAmount.dividedBy advanceAmount).times (.finite 365)).dividedBy
      (.ofNumber tenureDays)).times (.finite 100)
  else .finite 0

/-- What is computed once the checks have passed. -/
def invoiceTerms (faceValue : DecimalNumber) (tenureDays discountBps platformFeeBps : JsNumber) :
    InvoiceTermsResult :=
  let discountAmount := (faceValue.times (.ofNumber discountBps)).dividedBy (.finite 10000)
  let platformFee := (faceValue.times (.ofNumber platformFeeBps)).dividedBy (.finite 10000)
  let advanceAmount := (faceValue.minus discountAmount).minus platformFee
  let apr := annualRate discountAmount advanceAmount tenureDays
  { faceValue := faceValue.toFixed 4
    tenureDays := tenureDays
    discountBps := discountBps
    platformFeeBps := platformFeeBps
    discountAmount := discountAmount.toFixed 4
    platformFee := platformFee.toFixed 4
    advanceAmount := advanceAmount.toFixed 4
    investorReturn := discountAmount.toFixed 4
    apr := apr.toFixed 2 }

def calculateInvoiceTerms (now : JsNumber) (input : InvoiceTermsInput) :
    Except Thrown InvoiceTermsResult := do
  let discountBps := input.discountBps
  let platformFeeBps := input.platformFeeBps.getD (number 0)
  let faceValue ← input.faceValue
  throwIf (faceValue.isNegative || faceValue.isZero)
    (.error "Face value must be a positive number greater than zero")
  throwIf (discountBps.lt (number 0) || (number 10000).lt discountBps)
    (.error "Discount BPS must be between 0 and 10,000")
  throwIf (platformFeeBps.lt (number 0) || (number 10000).lt platformFeeBps)
    (.error "Platform fee BPS must be between 0 and 10,000")
  throwIf ((discountBps.add platformFeeBps).ge (number 10000))
    (.error "Total fee and discount deductions cannot exceed 100% of face value")
  let tenureDays ← calculateTenureDays now input.dueDate input.referenceDate
  return invoiceTerms faceValue tenureDays discountBps platformFeeBps

/-! ## What is accepted -/

section Accepted

variable {now bps discountBps platformFeeBps tenureDays : JsNumber} {input : InvoiceTermsInput}
  {terms : InvoiceTermsResult} {faceValue : DecimalNumber}

/-- A rate that passes its range check: NaN does too. -/
def Rate (bps : JsNumber) : Prop :=
  bps.lt (number 0) = false ∧ (number 10000).lt bps = false

theorem calculateInvoiceTerms_eq_ok :
    calculateInvoiceTerms now input = .ok terms ↔
      ∃ faceValue tenureDays, input.faceValue = .ok faceValue ∧
        faceValue.isNegative = false ∧ faceValue.isZero = false ∧
        Rate input.discountBps ∧ Rate (input.platformFeeBps.getD (number 0)) ∧
        (input.discountBps.add (input.platformFeeBps.getD (number 0))).ge (number 10000) = false ∧
        calculateTenureDays now input.dueDate input.referenceDate = .ok tenureDays ∧
        terms = invoiceTerms faceValue tenureDays input.discountBps
          (input.platformFeeBps.getD (number 0)) := by
  simp [calculateInvoiceTerms, Rate, and_assoc]

theorem shortest_nonneg {value : ℚ} (hvalue : double.Represents value) (hnonneg : 0 ≤ value) :
    0 ≤ shortest double.round value double.lowest := by
  rcases hnonneg.eq_or_lt with rfl | hpos
  · rw [shortest_zero]
  obtain ⟨exponent, coefficient, hnumber, -, hreads, -⟩ :=
    (shortest_eq_iff_isShortest hvalue hpos).mp rfl
  by_contra hneg
  have hzero : double.round _ ≤ double.round 0 :=
    BinaryFormat.monotone_round (not_le.mp hneg).le
  rw [hnumber, hreads, BinaryFormat.round_zero] at hzero
  exact absurd hpos hzero.not_gt

/-- An accepted rate is a decimal of at least zero, or NaN. -/
theorem ofNumber_of_rate (hrate : Rate bps) :
    DecimalNumber.ofNumber bps = .nan ∨
      ∃ rate, 0 ≤ rate ∧ DecimalNumber.ofNumber bps = .finite rate := by
  obtain ⟨hlow, hhigh⟩ := hrate
  rw [number_eq_finite abs_zero_le_digits] at hlow
  rw [number_eq_finite abs_tenThousand_le_digits] at hhigh
  cases bps with
  | nan => exact .inl rfl
  | infinity negative => cases negative <;> simp [JsNumber.lt] at hlow hhigh
  | finite value =>
      have hnonneg : 0 ≤ value.val := by
        by_contra hneg
        simp only [JsNumber.lt, decide_eq_false_iff_not] at hlow
        exact hlow ((not_le.mp hneg).trans_eq (Int.cast_zero).symm)
      have hwritten : numberText (.finite value) =
          some (shortest double.round value.val double.lowest) := by
        rw [numberText, if_neg (not_lt.mpr hnonneg)]
      refine .inr ⟨_, shortest_nonneg value.property.1 hnonneg, ?_⟩
      simp only [DecimalNumber.ofNumber, hwritten]

theorem rate_nonneg {rate : ℚ} (hrate : Rate bps)
    (hdecimal : DecimalNumber.ofNumber bps = .finite rate) : 0 ≤ rate := by
  rcases ofNumber_of_rate hrate with hnan | ⟨other, hother, hsame⟩
  · cases hnan.symm.trans hdecimal
  · cases hsame.symm.trans hdecimal
    exact hother

end Accepted

/-! ## What adds up -/

/-- The three texts write numbers that add up to the one of the face value. -/
def AddsUp (terms : InvoiceTermsResult) : Prop :=
  ∃ discount fee advance face : ℤ, terms.discountAmount = .digits discount ∧
    terms.platformFee = .digits fee ∧ terms.advanceAmount = .digits advance ∧
    terms.faceValue = .digits face ∧ discount + fee + advance = face

/-- A number as decimal.js keeps it. -/
def kept (value : ℚ) : ℚ := roundSignificant precision value

section Balance

variable {face discount fee : ℚ}

/-- What the texts of discount and fee take off, and what twenty digits drop of the advance, is
made up for by its own text.  A rate in basis points is a number of units of a face value of
one. -/
def Balanced (face discount fee : ℚ) : Prop :=
  let taken := kept (face * discount)
  let charged := kept (face * fee)
  let rest := kept (kept (face * 10 ^ 4 - taken) - charged)
  CanTakeOff rest (takenOff (face * 10 ^ 4) - takenOff taken - takenOff charged -
    (face * 10 ^ 4 - taken - charged - rest))

/-- The two products and the face value have few enough digits for all results to be exact. -/
def FitsTwentyDigits (face discount fee : ℚ) : Prop :=
  ∃ places : ℕ, ∃ whole taken charged : ℤ, face * 10 ^ 4 = whole / 10 ^ places ∧
    face * discount = taken / 10 ^ places ∧ face * fee = charged / 10 ^ places ∧
    0 ≤ taken ∧ 0 ≤ charged ∧ taken + charged ≤ whole ∧ whole < 10 ^ precision

/-- Nothing is dropped of what fits: the two amounts lose as much as the face value, up to half a
unit. -/
theorem balanced_iff_of_fits (hfits : FitsTwentyDigits face discount fee) :
    Balanced face discount fee ↔
      -(1 / 2) ≤ takenOff (face * 10 ^ 4) - takenOff (face * discount) - takenOff (face * fee) ∧
        takenOff (face * 10 ^ 4) - takenOff (face * discount) - takenOff (face * fee) < 1 / 2 := by
  obtain ⟨places, whole, taken, charged, hwhole, htaken, hcharged, htakenNonneg, hchargedNonneg,
    hle, hbound⟩ := hfits
  have hkept : ∀ units : ℤ, 0 ≤ units → units ≤ whole →
      kept (units / 10 ^ places) = units / 10 ^ places := by
    intro units hnonneg hunits
    exact roundSignificant_grid (by rw [abs_of_nonneg hnonneg]; omega)
  have hfirst : (whole : ℚ) / 10 ^ places - taken / 10 ^ places =
      ((whole - taken : ℤ) : ℚ) / 10 ^ places := by
    push_cast
    ring
  have hsecond : ((whole - taken : ℤ) : ℚ) / 10 ^ places - charged / 10 ^ places =
      ((whole - taken - charged : ℤ) : ℚ) / 10 ^ places := by
    push_cast
    ring
  have hrest : (0 : ℚ) ≤ ((whole - taken - charged : ℤ) : ℚ) / 10 ^ places := by
    have hnonneg : (0 : ℚ) ≤ ((whole - taken - charged : ℤ) : ℚ) := by
      exact_mod_cast (by omega : 0 ≤ whole - taken - charged)
    positivity
  rw [Balanced, hwhole, htaken, hcharged]
  simp only [hkept taken htakenNonneg (by omega), hkept charged hchargedNonneg (by omega), hfirst,
    hkept (whole - taken) (by omega) (by omega), hsecond,
    hkept (whole - taken - charged) (by omega) (by omega)]
  rw [CanTakeOff, if_pos hrest, sub_self, sub_zero]

theorem dividedBy_times (hface : 0 ≤ face) (hrate : 0 ≤ discount) :
    DecimalJs.dividedBy (DecimalJs.times face discount) 10000 =
      kept (face * discount) / 10 ^ 4 := by
  rw [DecimalJs.dividedBy, DecimalJs.times, show (10000 : ℚ) = 10 ^ 4 by norm_num,
    roundSignificant_div_pow, roundSignificant_idem (by decide) (mul_nonneg hface hrate), kept]

theorem minus_div_pow (left right : ℚ) :
    DecimalJs.minus (left / 10 ^ 4) (right / 10 ^ 4) = kept (left - right) / 10 ^ 4 := by
  rw [DecimalJs.minus, ← sub_div, roundSignificant_div_pow, kept]

theorem roundPlaces_div_pow (value : ℚ) : roundPlaces 4 (value / 10 ^ 4) = roundHalfUp value := by
  rw [roundPlaces, div_mul_cancel₀ _ (by norm_num)]

variable {tenureDays discountBps platformFeeBps : JsNumber}

/-- The texts of finite amounts. -/
theorem addsUp_finite_iff (hface : 0 ≤ face) (hdiscount : 0 ≤ discount) (hfee : 0 ≤ fee)
    (hdiscountBps : DecimalNumber.ofNumber discountBps = .finite discount)
    (hplatformFeeBps : DecimalNumber.ofNumber platformFeeBps = .finite fee) :
    AddsUp (invoiceTerms (.finite face) tenureDays discountBps platformFeeBps) ↔
      Balanced face discount fee := by
  have hten : (10000 : ℚ) ≠ 0 := by norm_num
  have hrest : DecimalJs.minus (DecimalJs.minus face (kept (face * discount) / 10 ^ 4))
      (kept (face * fee) / 10 ^ 4) =
        kept (kept (face * 10 ^ 4 - kept (face * discount)) - kept (face * fee)) / 10 ^ 4 := by
    rw [← minus_div_pow, ← minus_div_pow, mul_div_cancel_right₀ _ (by norm_num)]
  have hwhole : roundPlaces 4 face = roundHalfUp (face * 10 ^ 4) := rfl
  simp only [AddsUp, invoiceTerms, hdiscountBps, hplatformFeeBps, DecimalNumber.times,
    DecimalNumber.dividedBy, if_pos hten, dividedBy_times hface hdiscount,
    dividedBy_times hface hfee, DecimalNumber.minus, hrest, DecimalNumber.toFixed,
    roundPlaces_div_pow, hwhole, FixedText.digits.injEq]
  rw [Balanced, ← rounded_parts_iff]
  constructor
  · rintro ⟨_, _, _, _, rfl, rfl, rfl, rfl, hsum⟩
    exact hsum
  · exact fun hsum => ⟨_, _, _, _, rfl, rfl, rfl, rfl, hsum⟩

/-- Without a finite face value and finite rates there is no advance. -/
theorem exists_finite_of_addsUp {faceValue : DecimalNumber}
    (hnegative : faceValue.isNegative = false) (hdiscountBps : Rate discountBps)
    (hplatformFeeBps : Rate platformFeeBps)
    (hsum : AddsUp (invoiceTerms faceValue tenureDays discountBps platformFeeBps)) :
    ∃ face discount fee, faceValue = .finite face ∧ 0 ≤ face ∧ 0 ≤ discount ∧ 0 ≤ fee ∧
      DecimalNumber.ofNumber discountBps = .finite discount ∧
      DecimalNumber.ofNumber platformFeeBps = .finite fee := by
  obtain ⟨taken, charged, rest, whole, htaken, hcharged, -, hwhole, -⟩ := hsum
  cases faceValue with
  | nan => simp [invoiceTerms, DecimalNumber.toFixed] at hwhole
  | infinity negative => simp [invoiceTerms, DecimalNumber.toFixed] at hwhole
  | finite face =>
      have hface : 0 ≤ face := by simpa [DecimalNumber.isNegative] using hnegative
      rcases ofNumber_of_rate hdiscountBps with hnan | ⟨discount, hdiscount, hdecimal⟩
      · simp [invoiceTerms, hnan, DecimalNumber.times, DecimalNumber.dividedBy,
          DecimalNumber.toFixed] at htaken
      rcases ofNumber_of_rate hplatformFeeBps with hnan | ⟨fee, hfee, hfeeDecimal⟩
      · simp [invoiceTerms, hnan, DecimalNumber.times, DecimalNumber.dividedBy,
          DecimalNumber.toFixed] at hcharged
      exact ⟨face, discount, fee, rfl, hface, hdiscount, hfee, hdecimal, hfeeDecimal⟩

/-- The face value and both rates are finite and balance. -/
def Balances (input : InvoiceTermsInput) : Prop :=
  ∃ face discount fee, input.faceValue = .ok (.finite face) ∧
    DecimalNumber.ofNumber input.discountBps = .finite discount ∧
    DecimalNumber.ofNumber (input.platformFeeBps.getD (number 0)) = .finite fee ∧
    Balanced face discount fee

/-! ## Whole rates -/

/-- What the rounding of a number of units takes off, in parts of ten thousand. -/
def partsTakenOff (parts : ℤ) : ℤ := (parts + 5000) % 10000 - 5000

theorem takenOff_parts {parts : ℤ} (hnonneg : 0 ≤ parts) :
    takenOff ((parts : ℚ) / 10 ^ 4) = partsTakenOff parts / 10 ^ 4 := by
  have hround : roundHalfUp ((parts : ℚ) / 10 ^ 4) = (2 * parts + 10 ^ 4) / (2 * 10 ^ 4) := by
    rw [← roundHalfUp_div (by norm_num) hnonneg]
    norm_num
  have hparts : partsTakenOff parts = parts - (2 * parts + 10 ^ 4) / (2 * 10 ^ 4) * 10 ^ 4 := by
    rw [partsTakenOff]
    omega
  rw [takenOff, hround, hparts]
  push_cast
  ring

variable {units discountRate feeRate : ℤ}

/-- Face values of four decimals below 10^12 fit with all whole rates. -/
theorem fits_whole (hunits : 0 ≤ units) (hbound : units < 10 ^ 16) (hdiscount : 0 ≤ discountRate)
    (hfee : 0 ≤ feeRate) (hrates : discountRate + feeRate ≤ 10 ^ 4) :
    FitsTwentyDigits (ofUnits units) discountRate feeRate := by
  refine ⟨4, units * 10 ^ 4, units * discountRate, units * feeRate, ?_, ?_, ?_,
    mul_nonneg hunits hdiscount, mul_nonneg hunits hfee, ?_, ?_⟩
  · rw [ofUnits]
    push_cast
    ring
  · rw [ofUnits]
    push_cast
    ring
  · rw [ofUnits]
    push_cast
    ring
  · rw [← mul_add]
    exact mul_le_mul_of_nonneg_left hrates hunits
  · rw [precision]
    omega

theorem balanced_whole_iff (hunits : 0 ≤ units) (hbound : units < 10 ^ 16)
    (hdiscount : 0 ≤ discountRate) (hfee : 0 ≤ feeRate)
    (hrates : discountRate + feeRate ≤ 10 ^ 4) :
    Balanced (ofUnits units) discountRate feeRate ↔
      -5000 < partsTakenOff (units * discountRate) + partsTakenOff (units * feeRate) ∧
        partsTakenOff (units * discountRate) + partsTakenOff (units * feeRate) ≤ 5000 := by
  have hproduct : ∀ rate : ℤ, ofUnits units * rate = ((units * rate : ℤ) : ℚ) / 10 ^ 4 := by
    intro rate
    rw [ofUnits]
    push_cast
    ring
  have hwhole : takenOff (ofUnits units * 10 ^ 4) = 0 := by
    rw [ofUnits, div_mul_cancel₀ _ (by norm_num), takenOff_intCast]
  rw [balanced_iff_of_fits (fits_whole hunits hbound hdiscount hfee hrates), hwhole,
    hproduct, hproduct, takenOff_parts (mul_nonneg hunits hdiscount),
    takenOff_parts (mul_nonneg hunits hfee)]
  generalize partsTakenOff (units * discountRate) = taken
  generalize partsTakenOff (units * feeRate) = charged
  rw [← Int.cast_lt (R := ℚ), ← Int.cast_le (R := ℚ)]
  push_cast
  constructor <;> rintro ⟨hlow, hhigh⟩ <;> constructor <;> linarith

end Balance

/-! ## The terms of accepted inputs -/

section Terms

variable {now : JsNumber} {input : InvoiceTermsInput} {terms : InvoiceTermsResult}

theorem addsUp_iff_balances (hterms : calculateInvoiceTerms now input = .ok terms) :
    AddsUp terms ↔ Balances input := by
  obtain ⟨faceValue, tenureDays, hfaceValue, hnegative, -, hdiscountRate, hfeeRate, -, -, rfl⟩ :=
    calculateInvoiceTerms_eq_ok.mp hterms
  constructor
  · intro hadds
    obtain ⟨face, discount, fee, rfl, hface, hdiscount, hfee, hdiscountBps, hfeeBps⟩ :=
      exists_finite_of_addsUp hnegative hdiscountRate hfeeRate hadds
    exact ⟨face, discount, fee, hfaceValue, hdiscountBps, hfeeBps,
      (addsUp_finite_iff hface hdiscount hfee hdiscountBps hfeeBps).mp hadds⟩
  · rintro ⟨face, discount, fee, hfinite, hdiscountBps, hfeeBps, hbalanced⟩
    obtain rfl := Except.ok.inj (hfaceValue.symm.trans hfinite)
    have hface : 0 ≤ face := by simpa [DecimalNumber.isNegative] using hnegative
    exact (addsUp_finite_iff hface (rate_nonneg hdiscountRate hdiscountBps)
      (rate_nonneg hfeeRate hfeeBps) hdiscountBps hfeeBps).mpr hbalanced

theorem balances_iff {face discount fee : ℚ} (hface : input.faceValue = .ok (.finite face))
    (hdiscountBps : DecimalNumber.ofNumber input.discountBps = .finite discount)
    (hfeeBps : DecimalNumber.ofNumber (input.platformFeeBps.getD (number 0)) = .finite fee) :
    Balances input ↔ Balanced face discount fee := by
  constructor
  · rintro ⟨face', discount', fee', hface', hdiscount', hfee', hbalanced⟩
    cases hface.symm.trans hface'
    cases hdiscountBps.symm.trans hdiscount'
    cases hfeeBps.symm.trans hfee'
    exact hbalanced
  · exact fun hbalanced => ⟨face, discount, fee, hface, hdiscountBps, hfeeBps, hbalanced⟩

/-- The texts of accepted terms add up exactly when face value and rates balance; as long as
twenty digits suffice, they balance when the texts of discount and fee take off as much as that
of the face value, up to half a unit. -/
theorem calculateInvoiceTerms_addsUp_iff (hterms : calculateInvoiceTerms now input = .ok terms) :
    (AddsUp terms ↔ Balances input) ∧
      ∀ face discount fee, input.faceValue = .ok (.finite face) →
        DecimalNumber.ofNumber input.discountBps = .finite discount →
        DecimalNumber.ofNumber (input.platformFeeBps.getD (number 0)) = .finite fee →
        FitsTwentyDigits face discount fee →
          (AddsUp terms ↔
            -(1 / 2) ≤
                takenOff (face * 10 ^ 4) - takenOff (face * discount) - takenOff (face * fee) ∧
              takenOff (face * 10 ^ 4) - takenOff (face * discount) - takenOff (face * fee) <
                1 / 2) := by
  have hsum := addsUp_iff_balances hterms
  refine ⟨hsum, fun face discount fee hface hdiscountBps hfeeBps hfits => ?_⟩
  rw [hsum, balances_iff hface hdiscountBps hfeeBps, balanced_iff_of_fits hfits]

/-- A request with a four-decimal face value, whole rates and whole dates. -/
def wholeInput (units discountRate feeRate dueDate referenceDate : ℤ) : InvoiceTermsInput :=
  { faceValue := .ok (.finite (ofUnits units))
    dueDate := number dueDate
    discountBps := number discountRate
    platformFeeBps := some (number feeRate)
    referenceDate := some (number referenceDate) }

variable {units discountRate feeRate dueDate referenceDate : ℤ}

theorem abs_rate_le_digits {rate : ℤ} (hlow : 0 ≤ rate) (hhigh : rate ≤ 10000) :
    |rate| ≤ 2 ^ 53 := by
  rw [abs_of_nonneg hlow]
  omega

theorem exists_terms (hunits : 0 < units) (hdiscount : 0 ≤ discountRate) (hfee : 0 ≤ feeRate)
    (hrates : discountRate + feeRate < 10000) (hdueDate : |dueDate| ≤ 2 ^ 53)
    (hreferenceDate : |referenceDate| ≤ 2 ^ 53) :
    ∃ terms, calculateInvoiceTerms now
      (wholeInput units discountRate feeRate dueDate referenceDate) = .ok terms := by
  have hrate : ∀ rate : ℤ, 0 ≤ rate → rate ≤ 10000 → Rate (number rate) := by
    intro rate hlow hhigh
    refine ⟨Bool.eq_false_iff.mpr fun hless => ?_, Bool.eq_false_iff.mpr fun hless => ?_⟩
    · exact hlow.not_gt
        ((number_lt (abs_rate_le_digits hlow hhigh) abs_zero_le_digits).mp hless)
    · exact hhigh.not_gt
        ((number_lt abs_tenThousand_le_digits (abs_rate_le_digits hlow hhigh)).mp hless)
  have hface : (0 : ℚ) < ofUnits units := ofUnits_pos.mpr hunits
  have htenure : ∃ tenureDays, calculateTenureDays now (number dueDate)
      (some (number referenceDate)) = .ok tenureDays := by
    rw [number_eq_finite hdueDate, number_eq_finite hreferenceDate, calculateTenureDays,
      throwIf_neg (by simp)]
    exact ⟨_, rfl⟩
  obtain ⟨tenureDays, htenure⟩ := htenure
  refine ⟨_, calculateInvoiceTerms_eq_ok.mpr ⟨_, tenureDays, rfl, ?_, ?_,
    hrate discountRate hdiscount (by omega), hrate feeRate hfee (by omega), ?_, htenure, rfl⟩⟩
  · simpa [DecimalNumber.isNegative] using hface.le
  · simpa [DecimalNumber.isZero] using hface.ne'
  · have hsum : |discountRate + feeRate| ≤ 2 ^ 53 := abs_rate_le_digits (by omega) hrates.le
    refine Bool.eq_false_iff.mpr fun hge => ?_
    change ((number discountRate).add (number feeRate)).ge (number 10000) = true at hge
    rw [number_add (abs_rate_le_digits hdiscount (by omega)) (abs_rate_le_digits hfee (by omega)),
      number_ge hsum abs_tenThousand_le_digits] at hge
    omega

theorem ofNumber_number {rate : ℤ} (hrate : |rate| ≤ 2 ^ 53) :
    DecimalNumber.ofNumber (number rate) = .finite rate := by
  have hbounds := abs_le.mp hrate
  have hwritten : numberText (number rate) = some (rate : ℚ) :=
    (numberText_eq_iff (by rw [IsI128]; omega)).mpr (writtenAsRead_of_abs_le hrate)
  rw [number_eq_finite hrate] at hwritten ⊢
  simp only [DecimalNumber.ofNumber, hwritten]

theorem addsUp_whole_iff (hunits : 0 < units) (hbound : units < 10 ^ 16)
    (hdiscount : 0 ≤ discountRate) (hfee : 0 ≤ feeRate) (hrates : discountRate + feeRate < 10000)
    (hterms : calculateInvoiceTerms now
      (wholeInput units discountRate feeRate dueDate referenceDate) = .ok terms) :
    AddsUp terms ↔
      -5000 < partsTakenOff (units * discountRate) + partsTakenOff (units * feeRate) ∧
        partsTakenOff (units * discountRate) + partsTakenOff (units * feeRate) ≤ 5000 := by
  have hbalances : Balances (wholeInput units discountRate feeRate dueDate referenceDate) ↔
      Balanced (ofUnits units) discountRate feeRate :=
    balances_iff rfl (ofNumber_number (abs_rate_le_digits hdiscount (by omega)))
      (ofNumber_number (abs_rate_le_digits hfee (by omega)))
  rw [addsUp_iff_balances hterms, hbalances,
    balanced_whole_iff hunits.le hbound hdiscount hfee (by omega)]

end Terms

/-- One percent and half a percent of 100.0000 are whole units. -/
theorem wholeTerms_addUp :
    ∃ terms, calculateInvoiceTerms (number 0) (wholeInput 1000000 100 50 864000000 0) = .ok terms ∧
      AddsUp terms := by
  have haccepted : ∃ terms, calculateInvoiceTerms (number 0)
      (wholeInput 1000000 100 50 864000000 0) = .ok terms :=
    exists_terms (by decide) (by decide) (by decide) (by decide) (by decide) (by decide)
  obtain ⟨terms, hterms⟩ := haccepted
  have hbalanced : Balanced (ofUnits 1000000) ((100 : ℤ) : ℚ) ((50 : ℤ) : ℚ) :=
    (balanced_whole_iff (by decide) (by decide) (by decide) (by decide) (by decide)).mpr
      (by decide)
  exact ⟨terms, hterms, (calculateInvoiceTerms_addsUp_iff hterms).1.mpr
    ⟨_, _, _, rfl, ofNumber_number (by decide), ofNumber_number (by decide), hbalanced⟩⟩

/-- Half of 1.0001 is 0.50005, and both halves are written 0.5001. -/
theorem halves_exceedFaceValue :
    ∃ terms, calculateInvoiceTerms (number 0) (wholeInput 10001 5000 0 864000000 0) = .ok terms ∧
      ¬AddsUp terms := by
  have haccepted : ∃ terms, calculateInvoiceTerms (number 0)
      (wholeInput 10001 5000 0 864000000 0) = .ok terms :=
    exists_terms (by decide) (by decide) (by decide) (by decide) (by decide) (by decide)
  obtain ⟨terms, hterms⟩ := haccepted
  refine ⟨terms, hterms, fun hadds => ?_⟩
  have hparts := (addsUp_whole_iff (by decide) (by decide) (by decide) (by decide) (by decide)
    hterms).mp hadds
  exact absurd hparts (by decide)

end StellarSettle.DiscountCalculator
