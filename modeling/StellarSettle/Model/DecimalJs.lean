import StellarSettle.Core.DecimalRounding
import StellarSettle.Core.FloorShare

/-!
# The decimal.js numbers and the decimal columns

A finite decimal.js number is a rational.  Its constructor and its comparisons
are exact; every arithmetic operation is rounded to `precision` significant
digits, which the services leave at the library default of twenty.

A `decimal(18,4)` column, and the text `toFixed(4)` prints, are kept as their
number of units of `10 ^ -4`.
-/

namespace StellarSettle.DecimalJs

open StellarSettle.DecimalRounding
open StellarSettle.FloorShare

abbrev Decimal := ℚ

/-- The decimal.js default, in significant digits. -/
def precision : ℕ := 20

def plus (left right : Decimal) : Decimal := roundSignificant precision (left + right)

def minus (left right : Decimal) : Decimal := roundSignificant precision (left - right)

def times (left right : Decimal) : Decimal := roundSignificant precision (left * right)

def dividedBy (left right : Decimal) : Decimal := roundSignificant precision (left / right)

/-- `new Decimal(text)` for the text of a four-decimal amount. -/
def ofUnits (units : ℤ) : Decimal := (units : ℚ) / 10 ^ 4

/-- `value.toFixed(4)`, read back as a scaled integer. -/
def toFixed4 (value : Decimal) : ℤ := roundPlaces 4 value

/-- The text that `toFixed(4)` prints for a number of units. -/
def fixed4Text (units : ℤ) : String :=
  let digits := toString (units.natAbs % 10000)
  (if units < 0 then "-" else "") ++ toString (units.natAbs / 10000) ++ "." ++
    String.ofList (List.replicate (4 - digits.length) '0') ++ digits

/-- `value.decimalPlaces() <= places`. -/
def decimalPlacesAtMost (places : ℕ) (value : Decimal) : Bool :=
  (value * 10 ^ places).den == 1

/-- Digits after the point of a terminating decimal. -/
def decimalPlaces (value : Decimal) : ℕ :=
  ((List.range (value.den.log2 + 1)).find? fun places =>
    decimalPlacesAtMost places value).getD 0

/-- `value.toString()`: exponential notation from `1e-7` down and from `1e+21` up. -/
def decimalText (value : Decimal) : String :=
  let places := decimalPlaces value
  let digits := (toString (value * 10 ^ places).num.natAbs).toList
  let exponent : ℤ := digits.length - 1 - places
  let text :=
    if exponent ≤ -7 ∨ 21 ≤ exponent then
      let fraction := (digits.tail.reverse.dropWhile (· == '0')).reverse
      digits.take 1 ++ (if fraction.isEmpty then [] else '.' :: fraction) ++
        'e' :: (if exponent < 0 then '-' else '+') :: (toString exponent.natAbs).toList
    else if places = 0 then digits
    else
      let padded := List.replicate (places + 1 - digits.length) '0' ++ digits
      padded.take (padded.length - places) ++ '.' :: padded.drop (padded.length - places)
  String.ofList (if value < 0 then '-' :: text else text)

/-- `amounts.reduce((sum, amount) => sum.plus(new Decimal(amount)), new Decimal(0))`. -/
def sumAmounts (amounts : List ℤ) : Decimal :=
  amounts.foldl (fun sum amount => plus sum (ofUnits amount)) 0

@[simp]
theorem toFixed4_ofUnits (units : ℤ) : toFixed4 (ofUnits units) = units :=
  roundPlaces_grid 4 units

theorem ofUnits_add (left right : ℤ) :
    ofUnits (left + right) = ofUnits left + ofUnits right := by
  simp only [ofUnits]
  push_cast
  ring

theorem ofUnits_sub (left right : ℤ) :
    ofUnits (left - right) = ofUnits left - ofUnits right := by
  simp only [ofUnits]
  push_cast
  ring

@[simp]
theorem ofUnits_zero : ofUnits 0 = 0 := by simp [ofUnits]

theorem ofUnits_le_ofUnits {left right : ℤ} :
    ofUnits left ≤ ofUnits right ↔ left ≤ right := by
  rw [ofUnits, ofUnits, div_le_div_iff_of_pos_right (by norm_num)]
  exact_mod_cast Iff.rfl

theorem ofUnits_lt_ofUnits {left right : ℤ} :
    ofUnits left < ofUnits right ↔ left < right := by
  rw [ofUnits, ofUnits, div_lt_div_iff_of_pos_right (by norm_num)]
  exact_mod_cast Iff.rfl

theorem ofUnits_nonneg {units : ℤ} : 0 ≤ ofUnits units ↔ 0 ≤ units := by
  rw [← ofUnits_zero, ofUnits_le_ofUnits]

theorem ofUnits_pos {units : ℤ} : 0 < ofUnits units ↔ 0 < units := by
  rw [← ofUnits_zero, ofUnits_lt_ofUnits]

theorem toFixed4_nonneg {value : Decimal} (hvalue : 0 ≤ value) : 0 ≤ toFixed4 value :=
  roundPlaces_nonneg 4 hvalue

/-- A value with at most four decimals is a whole number of units. -/
theorem ofUnits_toFixed4 {value : Decimal} (hplaces : decimalPlacesAtMost 4 value = true) :
    ofUnits (toFixed4 value) = value := by
  have hden : (value * 10 ^ 4).den = 1 := by simpa [decimalPlacesAtMost] using hplaces
  have hvalue : value = ofUnits (value * 10 ^ 4).num := by
    have hnum : ((value * 10 ^ 4).num : ℚ) = value * 10 ^ 4 :=
      Rat.coe_int_num_of_den_eq_one hden
    rw [ofUnits, hnum, mul_div_cancel_right₀ _ (by norm_num)]
  rw [hvalue, toFixed4_ofUnits]

/-- A column value has at most four decimals. -/
theorem decimalPlacesAtMost_ofUnits (units : ℤ) : decimalPlacesAtMost 4 (ofUnits units) = true := by
  rw [decimalPlacesAtMost, ofUnits, div_mul_cancel₀ _ (by norm_num)]
  rfl

/-- Sums of column values are exact up to twenty digits. -/
theorem plus_ofUnits {left right : ℤ} (hbound : |left + right| < 10 ^ precision) :
    plus (ofUnits left) (ofUnits right) = ofUnits (left + right) := by
  rw [plus, ← ofUnits_add]
  exact roundSignificant_grid hbound

theorem minus_ofUnits {left right : ℤ} (hbound : |left - right| < 10 ^ precision) :
    minus (ofUnits left) (ofUnits right) = ofUnits (left - right) := by
  rw [minus, ← ofUnits_sub]
  exact roundSignificant_grid hbound

/-- Sums of column values are whole numbers of units, however large they grow. -/
theorem exists_units_of_plus (left right : ℤ) :
    ∃ units, plus (ofUnits left) (ofUnits right) = ofUnits units := by
  rw [plus, ← ofUnits_add]
  exact exists_grid_of_roundSignificant precision 4 (left + right)

theorem exists_units_of_sumAmounts (amounts : List ℤ) :
    ∃ units, sumAmounts amounts = ofUnits units := by
  suffices hfold : ∀ start : ℤ, ∃ units,
      amounts.foldl (fun sum amount => plus sum (ofUnits amount)) (ofUnits start) =
        ofUnits units by
    simpa [sumAmounts] using hfold 0
  induction amounts with
  | nil => exact fun start => ⟨start, rfl⟩
  | cons amount rest ih =>
      intro start
      obtain ⟨units, hunits⟩ := exists_units_of_plus start amount
      rw [List.foldl_cons, hunits]
      exact ih units

private theorem foldl_plus_ofUnits (amounts : List ℤ) (start : ℤ)
    (hstart : 0 ≤ start) (hnonneg : ∀ amount ∈ amounts, 0 ≤ amount)
    (hbound : start + amounts.sum < 10 ^ precision) :
    amounts.foldl (fun sum amount => plus sum (ofUnits amount)) (ofUnits start) =
      ofUnits (start + amounts.sum) := by
  induction amounts generalizing start with
  | nil => simp
  | cons amount rest ih =>
      have hamount : 0 ≤ amount := hnonneg amount (by simp)
      have hrest : ∀ other ∈ rest, 0 ≤ other := fun other hmem => hnonneg other (by simp [hmem])
      have hrestSum : 0 ≤ rest.sum := List.sum_nonneg hrest
      rw [List.sum_cons] at hbound ⊢
      rw [List.foldl_cons, plus_ofUnits (by rw [abs_of_nonneg] <;> omega),
        ih (start + amount) (by omega) hrest (by omega)]
      congr 1
      ring

/-- The running decimal.js sum of non-negative amounts is exact as long as the
total has at most twenty digits. -/
theorem sumAmounts_eq {amounts : List ℤ} (hnonneg : ∀ amount ∈ amounts, 0 ≤ amount)
    (hbound : amounts.sum < 10 ^ precision) :
    sumAmounts amounts = ofUnits amounts.sum := by
  have hfold := foldl_plus_ofUnits amounts 0 le_rfl hnonneg (by simpa using hbound)
  rw [ofUnits_zero, zero_add] at hfold
  exact hfold

/-- The exact sum comes so close below a half unit that rounding it to twenty
digits carries it there. -/
def SumCarried (total : ℤ) (amount : Decimal) : Prop :=
  CarriedToTie precision 4 (ofUnits total + amount)

instance (total : ℤ) (amount : Decimal) : Decidable (SumCarried total amount) :=
  inferInstanceAs (Decidable (CarriedToTie _ _ _))

theorem toFixed4_ofUnits_add {total : ℤ} {amount : Decimal} (htotal : 0 ≤ total)
    (hamount : 0 ≤ amount) :
    toFixed4 (ofUnits total + amount) = total + toFixed4 amount :=
  roundPlaces_grid_add 4 htotal hamount

/-- Rounding the running total to twenty digits first never loses a unit. -/
theorem add_toFixed4_le_toFixed4_plus {total : ℤ} {amount : Decimal}
    (htotal : 0 ≤ total) (hamount : 0 ≤ amount)
    (hbound : 10 * (total + toFixed4 amount) < 10 ^ precision) :
    total + toFixed4 amount ≤ toFixed4 (plus (ofUnits total) amount) := by
  rw [← toFixed4_ofUnits_add htotal hamount] at hbound ⊢
  exact roundPlaces_le_roundSignificant
    (add_nonneg (ofUnits_nonneg.mpr htotal) hamount) hbound

/-- `total.plus(amount)` is exact for an amount with at most four decimals. -/
theorem toFixed4_plus_of_decimalPlaces {total : ℤ} {amount : Decimal}
    (hplaces : decimalPlacesAtMost 4 amount = true)
    (hbound : |total + toFixed4 amount| < 10 ^ precision) :
    toFixed4 (plus (ofUnits total) amount) = total + toFixed4 amount := by
  rw [← ofUnits_toFixed4 hplaces, plus_ofUnits (by simpa using hbound), toFixed4_ofUnits,
    toFixed4_ofUnits]

/-- `total.plus(amount)` shows four correct decimals unless its rounding carries. -/
theorem toFixed4_plus {total : ℤ} {amount : Decimal} (htotal : 0 ≤ total) (hamount : 0 < amount)
    (hbound : ofUnits total + amount ≤ ofUnits (10 ^ 18)) (hcarried : ¬SumCarried total amount) :
    toFixed4 (plus (ofUnits total) amount) = total + toFixed4 amount := by
  have hsum : 0 < ofUnits total + amount :=
    add_pos_of_nonneg_of_pos (ofUnits_nonneg.mpr htotal) hamount
  have hlead : leadingExponent (ofUnits total + amount) < 15 := by
    rw [leadingExponent, abs_of_pos hsum]
    refine (Int.lt_zpow_iff_log_lt (by norm_num) hsum).mp (hbound.trans_lt ?_)
    norm_num [ofUnits]
  have hunits : roundPlaces 4 (ofUnits total + amount) ≤ 10 ^ 18 :=
    roundPlaces_le hsum.le hbound
  rw [← toFixed4_ofUnits_add htotal hamount.le]
  exact roundPlaces_roundSignificant hsum (by simp only [precision]; omega)
    (by simp only [precision]; omega) hcarried

/-! ## Half units -/

/-- The grid of the ties between two column values. -/
def ofHalves (halves : ℤ) : Decimal := (halves : ℚ) / (2 * 10 ^ 4)

/-- `toFixed(4)` rounds the value away from zero: its fifth decimal is 5 or more. -/
def RoundsUp (value : Decimal) : Prop := 1 / 2 ≤ Int.fract (value * 10 ^ 4)

instance (value : Decimal) : Decidable (RoundsUp value) :=
  inferInstanceAs (Decidable (_ ≤ _))

/-- The value is a tie between two column values. -/
def HalfUnit (value : Decimal) : Prop := Int.fract (value * 10 ^ 4) = 1 / 2

instance (value : Decimal) : Decidable (HalfUnit value) :=
  inferInstanceAs (Decidable (_ = _))

/-- The value lies between two points of the finer grid. -/
def Within (low high : ℤ) (value : Decimal) : Prop :=
  ofHalves low ≤ value ∧ value ≤ ofHalves high

theorem ofUnits_eq_ofHalves (units : ℤ) : ofUnits units = ofHalves (2 * units) := by
  simp only [ofUnits, ofHalves]
  push_cast
  ring

theorem ofHalves_add (left right : ℤ) :
    ofHalves (left + right) = ofHalves left + ofHalves right := by
  simp only [ofHalves]
  push_cast
  ring

theorem ofHalves_sub (left right : ℤ) :
    ofHalves (left - right) = ofHalves left - ofHalves right := by
  simp only [ofHalves]
  push_cast
  ring

theorem ofHalves_le_iff {halves : ℤ} {value : Decimal} :
    ofHalves halves ≤ value ↔ (halves : ℚ) / 2 ≤ value * 10 ^ 4 := by
  rw [ofHalves, div_le_iff₀ (by norm_num), div_le_iff₀ (by norm_num)]
  constructor <;> intro hle <;> linarith

theorem le_ofHalves_iff {halves : ℤ} {value : Decimal} :
    value ≤ ofHalves halves ↔ value * 10 ^ 4 ≤ (halves : ℚ) / 2 := by
  rw [ofHalves, le_div_iff₀ (by norm_num), le_div_iff₀ (by norm_num)]
  constructor <;> intro hle <;> linarith

theorem ofHalves_le_ofHalves {left right : ℤ} : ofHalves left ≤ ofHalves right ↔ left ≤ right := by
  rw [ofHalves, ofHalves, div_le_div_iff_of_pos_right (by norm_num)]
  exact_mod_cast Iff.rfl

/-- A number of twenty digits passes no tie and no column value. -/
theorem Within.rounded {low high : ℤ} {value : Decimal} (hwithin : Within low high value)
    (hvalue : 0 ≤ value) (hhigh : 5 * high < 10 ^ precision) :
    Within low high (roundSignificant precision value) := by
  have hgrid : ∀ halves : ℤ, ofHalves halves = ((5 * halves : ℤ) : ℚ) / 10 ^ 5 := by
    intro halves
    simp only [ofHalves]
    push_cast
    ring
  obtain ⟨hlow, hle⟩ := hwithin
  have horder : low ≤ high := ofHalves_le_ofHalves.mp (hlow.trans hle)
  constructor
  · rcases lt_or_ge low 0 with hnegative | hnonneg
    · have hbelow : ofHalves low ≤ 0 := by
        rw [ofHalves_le_iff]
        have hcast : (low : ℚ) < 0 := by exact_mod_cast hnegative
        linarith
      exact hbelow.trans (roundSignificant_nonneg precision hvalue)
    · rw [hgrid] at hlow ⊢
      exact le_roundSignificant (by omega) (by omega) hlow
  · rw [hgrid] at hle ⊢
    exact roundSignificant_le hvalue hhigh hle

theorem RoundsUp.within {value : Decimal} (hup : RoundsUp value) (hvalue : 0 ≤ value) :
    Within (2 * toFixed4 value - 1) (2 * toFixed4 value) value := by
  rw [RoundsUp] at hup
  rw [Within, ofHalves_le_iff, le_ofHalves_iff, toFixed4, roundPlaces,
    roundHalfUp_of_nonneg (by positivity)]
  generalize value * 10 ^ 4 = scaled at hup ⊢
  have hparts := Int.floor_add_fract scaled
  have hfract := Int.fract_lt_one scaled
  have hfixed : ⌊scaled + 1 / 2⌋ = ⌊scaled⌋ + 1 := by
    rw [Int.floor_eq_iff]
    push_cast
    constructor <;> linarith
  rw [hfixed]
  push_cast
  constructor <;> linarith

theorem within_of_not_roundsUp {value : Decimal} (hdown : ¬RoundsUp value) (hvalue : 0 ≤ value) :
    Within (2 * toFixed4 value) (2 * toFixed4 value + 1) value := by
  rw [RoundsUp, not_le] at hdown
  rw [Within, ofHalves_le_iff, le_ofHalves_iff, toFixed4, roundPlaces,
    roundHalfUp_of_nonneg (by positivity)]
  generalize value * 10 ^ 4 = scaled at hdown ⊢
  have hparts := Int.floor_add_fract scaled
  have hfract := Int.fract_nonneg scaled
  have hfixed : ⌊scaled + 1 / 2⌋ = ⌊scaled⌋ := by
    rw [Int.floor_eq_iff]
    constructor <;> linarith
  rw [hfixed]
  push_cast
  constructor <;> linarith

/-- From the tie below a column value on, all is rounded to it or above. -/
theorem le_toFixed4 {units : ℤ} {value : Decimal} (hlow : ofHalves (2 * units - 1) ≤ value)
    (hvalue : 0 ≤ value) : units ≤ toFixed4 value := by
  rw [ofHalves_le_iff] at hlow
  push_cast at hlow
  exact le_roundHalfUp_of_half (by positivity) (by linarith)

/-- Up to a tie, all is rounded to the column value above it at most. -/
theorem toFixed4_le {units : ℤ} {value : Decimal} (hhigh : value ≤ ofHalves (2 * units))
    (hvalue : 0 ≤ value) : toFixed4 value ≤ units := by
  rw [← ofUnits_eq_ofHalves] at hhigh
  exact roundPlaces_le hvalue hhigh

/-- A value lies less than a unit from the column value that it is rounded to. -/
theorem within_toFixed4 {value : Decimal} (hvalue : 0 ≤ value) :
    Within (2 * toFixed4 value - 1) (2 * toFixed4 value + 1) value := by
  by_cases hup : RoundsUp value
  · obtain ⟨hlow, hhigh⟩ := hup.within hvalue
    exact ⟨hlow, hhigh.trans (ofHalves_le_ofHalves.mpr (by omega))⟩
  · obtain ⟨hlow, hhigh⟩ := within_of_not_roundsUp hup hvalue
    exact ⟨(ofHalves_le_ofHalves.mpr (by omega)).trans hlow, hhigh⟩

/-- From the tie below a column value up to that value, all is rounded to it. -/
theorem Within.toFixed4_below {units : ℤ} {value : Decimal}
    (hwithin : Within (2 * units - 1) (2 * units) value) (hvalue : 0 ≤ value) :
    toFixed4 value = units := by
  obtain ⟨hlow, hhigh⟩ := hwithin
  rw [ofHalves_le_iff] at hlow
  rw [le_ofHalves_iff] at hhigh
  push_cast at hlow hhigh
  refine roundPlaces_eq hvalue ?_ ?_ <;> linarith

/-- From a column value up to the tie above it, all but the tie is rounded to it. -/
theorem Within.toFixed4_above {units : ℤ} {value : Decimal}
    (hwithin : Within (2 * units) (2 * units + 1) value) (hvalue : 0 ≤ value) :
    toFixed4 value = units ↔ ¬HalfUnit value := by
  obtain ⟨hlow, hhigh⟩ := hwithin
  rw [ofHalves_le_iff] at hlow
  rw [le_ofHalves_iff] at hhigh
  push_cast at hlow hhigh
  have hfloor : ⌊value * 10 ^ 4⌋ = units := Int.floor_eq_iff.mpr ⟨by linarith, by linarith⟩
  have hfract : Int.fract (value * 10 ^ 4) = value * 10 ^ 4 - units := by
    rw [Int.fract, hfloor]
  rw [HalfUnit, hfract]
  constructor
  · intro hfixed hhalf
    have hnext : toFixed4 value = units + 1 := by
      refine roundPlaces_eq hvalue ?_ ?_ <;> push_cast <;> linarith
    omega
  · intro hhalf
    refine roundPlaces_eq hvalue (by linarith) ?_
    refine lt_of_le_of_ne (by linarith) fun htie => hhalf ?_
    linarith

end StellarSettle.DecimalJs
