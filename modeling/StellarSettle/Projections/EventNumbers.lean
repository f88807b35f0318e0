import Mathlib.Data.Nat.Factorization.Basic
import StellarSettle.Core.ShortestDecimal
import StellarSettle.Projections.EventReader
import StellarSettle.Projections.Numbers

/-!
# Numbers of events, and their texts

`readEventNumber` reads a field as a number, so an integer that is no double is rounded, and
the text that is stored is the shortest decimal that reads as the double.  A text is known
by what it is made from; the decimal that it writes is what a column reads.
-/

namespace StellarSettle.EventNumbers

open StellarSettle.BinaryRounding
open StellarSettle.ContractEventBus (trim)
open StellarSettle.DecimalRounding
open StellarSettle.EventReader
open StellarSettle.InvoiceLifecycle
open StellarSettle.Numbers
open StellarSettle.ShortestDecimal

/-! ## Reading -/

/-- A value that a field is read from as a number. -/
def numberOf : EventValue → Option JsNumber
  | .number value => some (.ofRat value)
  | .bigint value => some (.ofRat value)
  | .string text =>
      if trimText text = "" then none
      else
        match JsNumber.ofText text with
        | .finite value => some (.finite value)
        | _ => none
  | _ => none

/-- Reads a numeric field from the event's data. -/
def readEventNumber (event : Event) (keys : List String) : Option JsNumber :=
  match event.data with
  | .object fields => keys.findSome? fun key => numberOf (property fields key)
  | _ => none

/-! ## Texts of amounts -/

/-- A text of the event, `String(value)`, or `value.toFixed(7)`. -/
inductive AmountText where
  | text (characters : String)
  | number (value : JsNumber)
  | fixed (value : JsNumber)
  deriving DecidableEq

/-- The decimal that `String(value)` writes. -/
def numberText : JsNumber → Option ℚ
  | .finite value =>
      some (if value.val < 0 then -shortest double.round (-value.val) double.lowest
        else shortest double.round value.val double.lowest)
  | .infinity _ => none
  | .nan => none

/-- The decimal that `value.toFixed(7)` writes: from 1e21 on it is `String(value)`. -/
def fixedText : JsNumber → Option ℚ
  | .finite value =>
      if |value.val| < 10 ^ 21 then some (roundPlaces 7 value.val / 10 ^ 7)
      else numberText (.finite value)
  | .infinity _ => none
  | .nan => none

/-- The decimal that a text writes, as a decimal column reads it. -/
def decimalOf (text : String) : Option ℚ :=
  let (negative, digits) := spanSign (trim text.toList)
  (unsignedOf digits).map fun value => if negative then -value else value

def AmountText.decimal : AmountText → Option ℚ
  | .text characters => decimalOf characters
  | .number value => numberText value
  | .fixed value => fixedText value

/-- The numbers of a `decimal(30, 7)` column, in units of its last place. -/
structure ColumnUnits where
  count : ℤ
  fits : |count| < 10 ^ 30
  deriving DecidableEq

def ColumnUnits.value (units : ColumnUnits) : ℚ := units.count / 10 ^ 7

/-- A column takes decimals with 23 digits before the point. -/
def decimalColumn (value : ℚ) : Option ColumnUnits :=
  if hfits : |roundPlaces 7 value| < 10 ^ 30 then some ⟨roundPlaces 7 value, hfits⟩ else none

/-- What a decimal column holds. -/
inductive ColumnValue where
  | number (units : ColumnUnits)
  | nan
  deriving DecidableEq

def ColumnValue.zero : ColumnValue := .number ⟨0, by norm_num⟩

/-- The amount that a column holds. -/
def ColumnValue.amount : ColumnValue → Option ℚ
  | .number units => some units.value
  | .nan => none

/-- The texts that no decimal is, but NaN. -/
def AmountText.isNaN : AmountText → Bool
  | .text characters => (String.ofList (trim characters.toList)).toLower = "nan"
  | .number value => value = .nan
  | .fixed value => value = .nan

/-- What a decimal column holds of a text, or nothing where it does not take it. -/
def AmountText.column (text : AmountText) : Option ColumnValue :=
  match text.decimal with
  | some value => (decimalColumn value).map .number
  | none => if text.isNaN then some .nan else none

/-- `Number(text)`. -/
def AmountText.toNumber : AmountText → JsNumber
  | .text characters => .ofText characters
  | .number value => value
  | .fixed value =>
      match fixedText value with
      | some written => .ofRat written
      | none => value

/-! ## Integers -/

/-- The value of a field that carries an integer, as a bigint or in decimal. -/
def CarriesInteger (value : EventValue) (number : ℤ) : Prop :=
  value = .bigint number ∨ value = .string (toString number)

/-- The integers of 128 bits. -/
def IsI128 (number : ℤ) : Prop := -2 ^ 127 ≤ number ∧ number < 2 ^ 127

/-- The integer is the shortest decimal of the double that is closest to it. -/
def WrittenAsRead (number : ℤ) : Prop :=
  number = 0 ∨ IsShortest double.round (double.round |(number : ℚ)|) |(number : ℚ)|

/-- What `toFixed(7)` writes of the double: below 1e21 the double itself. -/
def FixedAsRead (number : ℤ) : Prop :=
  if |number| < 10 ^ 21 then double.Represents number else WrittenAsRead number

section Integers

variable {number : ℤ}

theorem trimText_toString (number : ℤ) : trimText (toString number) = toString number := by
  rw [trimText, trim_eq_self (isTrimmed_of_mem_toString number), String.ofList_toList]

theorem toString_ne_empty (number : ℤ) : toString number ≠ "" := by
  intro hempty
  have hlist := congrArg String.toList hempty
  by_cases hnonneg : 0 ≤ number
  · rw [toList_toString_of_nonneg hnonneg] at hlist
    exact Nat.toDigits_ne_nil hlist
  · rw [toList_toString_of_neg (not_le.mp hnonneg)] at hlist
    cases hlist

theorem IsI128.abs_le_pow (hrange : IsI128 number) : |number| ≤ 2 ^ 127 :=
  abs_le.mpr ⟨hrange.1, hrange.2.le⟩

/-- The double that is closest to an integer of 128 bits. -/
theorem exists_ofRat (hrange : IsI128 number) :
    ∃ read : Double, JsNumber.ofRat number = .finite read ∧ read.val = double.round number := by
  obtain ⟨read, hread⟩ := JsNumber.exists_finite_of_abs_le
    (hrange.abs_le_pow.trans (show (2 : ℤ) ^ 127 ≤ 2 ^ 256 by norm_num))
  refine ⟨read, hread, ?_⟩
  rw [JsNumber.ofRat] at hread
  split at hread
  · rw [← JsNumber.finite.inj hread]
  · cases hread

theorem numberOf_of_carries (hrange : IsI128 number) {value : EventValue}
    (hvalue : CarriesInteger value number) : numberOf value = some (.ofRat number) := by
  rcases hvalue with rfl | rfl
  · rfl
  · obtain ⟨read, hread, -⟩ := exists_ofRat hrange
    rw [numberOf, trimText_toString, if_neg (toString_ne_empty number),
      JsNumber.ofText_toString, hread]

theorem scalarText_of_carries {value : EventValue} (hvalue : CarriesInteger value number) :
    scalarText value = some (toString number) := by
  rcases hvalue with rfl | rfl
  · rfl
  · rw [scalarText, trimmedString, trimText_toString, if_neg (toString_ne_empty number)]
    all_goals intro _ hsame; cases hsame

end Integers

/-! ## What the texts of integers write -/

section Texts

variable {number : ℤ}

/-- Doubles are multiples of the lowest power of ten. -/
theorem exists_multiple {value : ℚ} (hvalue : double.Represents value) :
    ∃ multiple : ℤ, value = multiple * 10 ^ double.lowest := by
  obtain ⟨mantissa, exponent, -, hexponent, rfl⟩ := hvalue
  obtain ⟨extra, rfl⟩ := Int.le.dest hexponent
  refine ⟨mantissa * 2 ^ extra * 5 ^ (-double.lowest).toNat, ?_⟩
  have hten : (10 : ℚ) ^ double.lowest * 5 ^ (-double.lowest).toNat = 2 ^ double.lowest := by
    rw [show (10 : ℚ) = 2 * 5 by norm_num, mul_zpow, mul_assoc, ← zpow_natCast,
      ← zpow_add₀ (by norm_num : (5 : ℚ) ≠ 0),
      show double.lowest + ((-double.lowest).toNat : ℤ) = 0 by decide, zpow_zero, mul_one]
  rw [zpow_add₀ two_ne_zero, ← hten, zpow_natCast]
  push_cast
  ring

theorem shortest_eq_iff_isShortest {value number : ℚ} (hvalue : double.Represents value)
    (hpos : 0 < value) :
    shortest double.round value double.lowest = number ↔
      IsShortest double.round value number :=
  shortest_eq_iff BinaryFormat.monotone_round (BinaryFormat.round_eq_self hvalue) hpos
    BinaryFormat.round_zero
    (fun _ hlarger => BinaryFormat.round_ne_of_double_le hvalue hpos (by linarith))
    (exists_multiple hvalue)

/-- A positive integer is read as a positive integer. -/
theorem one_le_round (hpos : 0 < number) : 1 ≤ double.round number := by
  have hone : double.Represents 1 := by
    have hrepresents : double.Represents ((1 : ℤ) : ℚ) :=
      double.represents_intCast (by decide) (by decide)
    rwa [Int.cast_one] at hrepresents
  exact BinaryFormat.le_round hone (by exact_mod_cast hpos)

theorem shortest_round_iff (hpos : 0 < number) (written : ℚ) :
    shortest double.round (double.round number) double.lowest = written ↔
      IsShortest double.round (double.round number) written :=
  shortest_eq_iff_isShortest (BinaryFormat.represents_round _)
    (lt_of_lt_of_le one_pos (one_le_round hpos))

/-- `String(Number(value))` for an integer. -/
theorem numberText_ofRat (hrange : IsI128 number) :
    numberText (.ofRat number) =
      some (if number < 0 then -shortest double.round (double.round (-number : ℤ)) double.lowest
        else shortest double.round (double.round number) double.lowest) := by
  obtain ⟨read, hread, hval⟩ := exists_ofRat hrange
  rw [hread, numberText, hval]
  congr 1
  rcases lt_trichotomy number 0 with hneg | rfl | hpos
  · have hopposite : double.round number = -double.round (-number : ℤ) := by
      rw [Int.cast_neg, BinaryFormat.round_neg, neg_neg]
    have hsize := one_le_round (show 0 < -number by omega)
    rw [if_pos hneg, if_pos (by rw [hopposite]; linarith), hopposite, neg_neg]
  · rw [Int.cast_zero, BinaryFormat.round_zero, if_neg (lt_irrefl _), if_neg (lt_irrefl _)]
  · have hsize := one_le_round hpos
    rw [if_neg (by linarith), if_neg (by omega)]

theorem shortest_zero : shortest double.round 0 double.lowest = 0 := by decide +kernel

/-- An integer is stored as it is exactly when it is the shortest decimal of its double. -/
theorem numberText_eq_iff (hrange : IsI128 number) :
    numberText (.ofRat number) = some (number : ℚ) ↔ WrittenAsRead number := by
  rw [numberText_ofRat hrange, Option.some_inj, WrittenAsRead]
  rcases lt_trichotomy number 0 with hneg | rfl | hpos
  · have hcast : |(number : ℚ)| = ((-number : ℤ) : ℚ) := by
      rw [abs_of_neg (by exact_mod_cast hneg), Int.cast_neg]
    rw [if_pos hneg, neg_eq_iff_eq_neg, shortest_round_iff (show 0 < -number by omega), hcast,
      ← Int.cast_neg]
    exact ⟨.inr, fun hwritten => hwritten.resolve_left hneg.ne⟩
  · rw [if_neg (lt_irrefl _), Int.cast_zero, BinaryFormat.round_zero, shortest_zero]
    exact ⟨fun _ => .inl rfl, fun _ => rfl⟩
  · rw [if_neg (by omega), shortest_round_iff hpos, abs_of_pos (by exact_mod_cast hpos)]
    exact ⟨.inr, fun hwritten => hwritten.resolve_left hpos.ne'⟩

/-- A multiple of ten is read as an integer of at most 2^53 only if it is that integer. -/
theorem eq_of_round_eq {multiple : ℤ} (hnumber : |number| ≤ 2 ^ 53)
    (hround : double.round ((10 * multiple : ℤ) : ℚ) = number) : 10 * multiple = number := by
  have hbounds := abs_le.mp hnumber
  rcases lt_or_ge (2 ^ 53) (10 * multiple) with habove | hbelow
  · have hnext : double.Represents (2 ^ 53 + 2) :=
      ⟨2 ^ 52 + 1, 1, by norm_num [double], by norm_num [double], by norm_num⟩
    have hpassed : (2 : ℚ) ^ 53 + 2 ≤ number := by
      rw [← hround]
      exact BinaryFormat.le_round hnext (by exact_mod_cast (by omega : 2 ^ 53 + 2 ≤ 10 * multiple))
    exact absurd (show (2 : ℤ) ^ 53 + 2 ≤ number by exact_mod_cast hpassed) (by omega)
  · rcases lt_or_ge (10 * multiple) (-2 ^ 53) with hless | hle
    · have hnext : double.Represents (-(2 ^ 53 + 2)) :=
        BinaryFormat.Represents.neg
          ⟨2 ^ 52 + 1, 1, by norm_num [double], by norm_num [double], by norm_num⟩
      have hpassed : (number : ℚ) ≤ -(2 ^ 53 + 2) := by
        rw [← hround]
        refine BinaryFormat.round_le hnext ?_
        exact_mod_cast (by omega : 10 * multiple ≤ -(2 ^ 53 + 2))
      exact absurd (show number ≤ -(2 ^ 53 + 2) by exact_mod_cast hpassed) (by omega)
    · have hsize : |10 * multiple| ≤ 2 ^ 53 := abs_le.mpr ⟨hle, hbelow⟩
      rw [BinaryFormat.round_eq_self (double.represents_intCast (by decide) hsize)] at hround
      exact_mod_cast hround

/-- Integers of at most 2^53 are stored as they are. -/
theorem writtenAsRead_of_abs_le (hnumber : |number| ≤ 2 ^ 53) : WrittenAsRead number := by
  by_cases hzero : number = 0
  · exact .inl hzero
  obtain ⟨exponent, coefficient, hdivides, hsame⟩ :=
    Nat.exists_eq_pow_mul_and_not_dvd (Int.natAbs_ne_zero.mpr hzero) 10 (by decide)
  have hvalue : |number| = coefficient * 10 ^ exponent := by
    rw [Int.abs_eq_natAbs, hsame]
    push_cast
    ring
  have hcast : |(number : ℚ)| = ((coefficient : ℤ) : ℚ) * 10 ^ (exponent : ℤ) := by
    rw [← Int.cast_abs, hvalue]
    push_cast
    rw [zpow_natCast]
  have hself : double.round |(number : ℚ)| = |(number : ℚ)| := by
    rw [← Int.cast_abs]
    exact BinaryFormat.round_eq_self (double.represents_intCast (by decide) (by rwa [abs_abs]))
  refine .inr ⟨exponent, coefficient, hcast, fun other hother => ?_, ?_⟩
  · have hten : (other : ℚ) * 10 ^ ((exponent : ℤ) + 1) =
        ((10 * (other * 10 ^ exponent) : ℤ) : ℚ) := by
      rw [zpow_add_one₀ (by norm_num), zpow_natCast]
      push_cast
      ring
    rw [hten, hself, ← Int.cast_abs] at hother
    have hmultiple := eq_of_round_eq (by rwa [abs_abs]) hother
    rw [hvalue, ← mul_assoc, mul_right_cancel_iff_of_pos (by positivity)] at hmultiple
    exact hdivides (by exact_mod_cast Dvd.intro other hmultiple)
  · rw [hself]
    refine ⟨by rw [← hcast, hself], fun other _ => ?_⟩
    by_cases hother : other = coefficient
    · exact .inl hother
    · refine .inr (.inl ?_)
      rw [← hcast, sub_self, abs_zero, abs_pos, sub_ne_zero, hcast]
      intro hequal
      exact hother (by exact_mod_cast mul_right_cancel₀ (by positivity) hequal)

/-- What is written of an integer is an integer. -/
theorem exists_int_numberText (hrange : IsI128 number) :
    ∃ written : ℤ, numberText (.ofRat number) = some (written : ℚ) := by
  have hwritten : ∀ whole : ℤ, 0 < whole → ∃ written : ℤ,
      shortest double.round (double.round whole) double.lowest = written := by
    intro whole hpos
    obtain ⟨rounded, hrounded⟩ := double.exists_int_round (by decide) whole
    exact ((shortest_round_iff hpos _).mp rfl).exists_int
      (BinaryFormat.round_eq_self (BinaryFormat.represents_round _)) hrounded
  rw [numberText_ofRat hrange]
  rcases lt_trichotomy number 0 with hneg | rfl | hpos
  · obtain ⟨written, hsame⟩ := hwritten (-number) (by omega)
    exact ⟨-written, by rw [if_pos hneg, hsame, Int.cast_neg]⟩
  · exact ⟨0, by rw [if_neg (lt_irrefl _), Int.cast_zero, BinaryFormat.round_zero, shortest_zero]⟩
  · obtain ⟨written, hsame⟩ := hwritten number hpos
    exact ⟨written, by rw [if_neg (by omega), hsame]⟩

theorem roundPlaces_intCast (number : ℤ) : roundPlaces 7 (number : ℚ) = number * 10 ^ 7 := by
  have hgrid := roundPlaces_grid 7 (number * 10 ^ 7)
  rwa [Int.cast_mul, Int.cast_pow, Int.cast_ofNat, mul_div_cancel_right₀ _ (by norm_num)] at hgrid

/-- Integers are on the grid of a column. -/
theorem roundPlaces_intCast_div (number : ℤ) :
    (roundPlaces 7 (number : ℚ) : ℚ) / 10 ^ 7 = number := by
  rw [roundPlaces_intCast, Int.cast_mul, Int.cast_pow, Int.cast_ofNat,
    mul_div_cancel_right₀ _ (by norm_num)]

/-- `toFixed(7)` of an integer. -/
theorem fixedText_ofRat (hrange : IsI128 number) :
    fixedText (.ofRat number) =
      if |double.round number| < 10 ^ 21 then some (double.round number)
      else numberText (.ofRat number) := by
  obtain ⟨read, hread, hval⟩ := exists_ofRat hrange
  obtain ⟨rounded, hrounded⟩ := double.exists_int_round (by decide) number
  rw [hread, fixedText, hval]
  split
  · rw [hrounded, roundPlaces_intCast_div]
  · rfl

/-- An integer below 1e21 that is read as 1e21 is not the shortest decimal of it. -/
theorem not_writtenAsRead (hsmall : |number| < 10 ^ 21)
    (hround : double.round |(number : ℚ)| = 10 ^ 21) : ¬WrittenAsRead number := by
  have hpower : double.Represents (10 ^ 21) :=
    ⟨5 ^ 21, 21, by norm_num [double], by norm_num [double], by norm_num⟩
  rintro (rfl | ⟨exponent, coefficient, hnumber, hcoarse, -⟩)
  · norm_num [BinaryFormat.round_zero] at hround
  · rw [hround] at hcoarse
    rcases le_or_gt (exponent + 1) 21 with hfine | hlarge
    · obtain ⟨other, hother⟩ := exists_finer hfine 1
      refine hcoarse other ?_
      rw [← hother, Int.cast_one, one_mul, show (10 : ℚ) ^ (21 : ℤ) = 10 ^ 21 by norm_num]
      exact BinaryFormat.round_eq_self hpower
    · obtain ⟨other, hother⟩ := exists_finer (show 21 ≤ exponent by omega) coefficient
      have hmultiple : |number| = other * 10 ^ 21 := by
        have hcast : ((|number| : ℤ) : ℚ) = ((other * 10 ^ 21 : ℤ) : ℚ) := by
          rw [Int.cast_abs, hnumber, hother]
          push_cast
          norm_num
        exact_mod_cast hcast
      have hzero : |number| = 0 := by
        have hnonneg := abs_nonneg number
        rcases lt_trichotomy other 0 with hneg | rfl | hpos
        · omega
        · omega
        · omega
      rw [← Int.cast_abs, hzero, Int.cast_zero, BinaryFormat.round_zero] at hround
      norm_num at hround

theorem fixedText_eq_iff (hrange : IsI128 number) :
    fixedText (.ofRat number) = some (number : ℚ) ↔ FixedAsRead number := by
  have hpower : double.Represents (10 ^ 21) :=
    ⟨5 ^ 21, 21, by norm_num [double], by norm_num [double], by norm_num⟩
  have habs : |double.round number| = double.round |(number : ℚ)| := by
    rcases le_total 0 (number : ℚ) with hle | hle
    · have hround := double.monotone_round hle
      rw [BinaryFormat.round_zero] at hround
      rw [abs_of_nonneg hle, abs_of_nonneg hround]
    · have hround := double.monotone_round hle
      rw [BinaryFormat.round_zero] at hround
      rw [abs_of_nonpos hle, abs_of_nonpos hround, BinaryFormat.round_neg]
  rw [fixedText_ofRat hrange, FixedAsRead]
  by_cases hsmall : |number| < 10 ^ 21
  · have hcast : |(number : ℚ)| < 10 ^ 21 := by exact_mod_cast hsmall
    rw [if_pos hsmall]
    have hle : double.round |(number : ℚ)| ≤ 10 ^ 21 := BinaryFormat.round_le hpower hcast.le
    have hself : double.round number = number ↔ double.Represents number :=
      ⟨fun hsame => hsame ▸ BinaryFormat.represents_round _, BinaryFormat.round_eq_self⟩
    rcases hle.lt_or_eq with hless | hequal
    · rw [if_pos (habs ▸ hless), Option.some_inj, hself]
    · rw [if_neg (by rw [habs, hequal]; exact lt_irrefl _), numberText_eq_iff hrange]
      refine iff_of_false (not_writtenAsRead hsmall hequal) fun hrepresents => ?_
      rw [← habs, BinaryFormat.round_eq_self hrepresents] at hequal
      exact hcast.ne hequal
  · have hcast : (10 : ℚ) ^ 21 ≤ |(number : ℚ)| := by exact_mod_cast not_lt.mp hsmall
    rw [if_neg hsmall, if_neg (by
      rw [habs]
      exact not_lt.mpr (BinaryFormat.le_round hpower hcast)), numberText_eq_iff hrange]

theorem exists_int_fixedText (hrange : IsI128 number) :
    ∃ written : ℤ, fixedText (.ofRat number) = some (written : ℚ) := by
  obtain ⟨rounded, hrounded⟩ := double.exists_int_round (by decide) number
  rw [fixedText_ofRat hrange]
  split
  · exact ⟨rounded, by rw [hrounded]⟩
  · exact exists_int_numberText hrange

/-- The digits of an integer write the integer. -/
theorem decimalOf_toString (number : ℤ) : decimalOf (toString number) = some (number : ℚ) := by
  rw [decimalOf, trim_eq_self (isTrimmed_of_mem_toString number)]
  by_cases hnonneg : 0 ≤ number
  · have hdigits := isDigit_of_mem_toDigits number.natAbs
    rw [toList_toString_of_nonneg hnonneg, spanSign_digits hdigits]
    dsimp only
    rw [unsignedOf_digits hdigits Nat.toDigits_ne_nil, Nat.ofDigitChars_ten_toDigits]
    rw [← Int.cast_natCast, Int.natAbs_of_nonneg hnonneg]
    rfl
  · have hdigits := isDigit_of_mem_toDigits number.natAbs
    rw [toList_toString_of_neg (not_le.mp hnonneg), spanSign]
    dsimp only
    rw [unsignedOf_digits hdigits Nat.toDigits_ne_nil, Nat.ofDigitChars_ten_toDigits]
    rw [← Int.cast_natCast, Int.ofNat_natAbs_of_nonpos (not_le.mp hnonneg).le, Int.cast_neg,
      Option.map_some, if_pos rfl, neg_neg]

/-- A field carries only one integer. -/
theorem CarriesInteger.unique {value : EventValue} {other : ℤ}
    (hnumber : CarriesInteger value number) (hother : CarriesInteger value other) :
    number = other := by
  rcases hnumber with rfl | rfl <;> rcases hother with hsame | hsame
  · exact EventValue.bigint.inj hsame
  · cases hsame
  · cases hsame
  · have hdecimal := decimalOf_toString number
    rw [EventValue.string.inj hsame, decimalOf_toString, Option.some_inj, Int.cast_inj] at hdecimal
    exact hdecimal.symm

/-- A column keeps the integers that have at most 23 digits, and takes no others. -/
theorem amount_decimalColumn (number : ℤ) :
    (decimalColumn number).map ColumnUnits.value =
      if |number| < 10 ^ 23 then some (number : ℚ) else none := by
  have hsize : |number * 10 ^ 7| < 10 ^ 30 ↔ |number| < 10 ^ 23 := by
    rw [abs_mul, abs_of_pos (by norm_num : (0 : ℤ) < 10 ^ 7)]
    constructor <;> intro hless <;> linarith
  rw [← roundPlaces_intCast] at hsize
  rw [decimalColumn]
  by_cases hless : |number| < 10 ^ 23
  · rw [dif_pos (hsize.mpr hless), if_pos hless, Option.map_some]
    exact congrArg some (roundPlaces_intCast_div number)
  · rw [dif_neg (fun hfits => hless (hsize.mp hfits)), if_neg hless, Option.map_none]

/-- What a column holds of the text of an integer. -/
theorem column_amount_iff {text : AmountText} {written : ℤ}
    (hdecimal : text.decimal = some (written : ℚ)) :
    text.column.bind ColumnValue.amount = some (number : ℚ) ↔
      written = number ∧ |number| < 10 ^ 23 := by
  have hamount : text.column.bind ColumnValue.amount =
      (decimalColumn written).map ColumnUnits.value := by
    rw [AmountText.column, hdecimal]
    dsimp only
    cases decimalColumn (written : ℚ) <;> rfl
  rw [hamount, amount_decimalColumn]
  by_cases hsize : |written| < 10 ^ 23
  · rw [if_pos hsize, Option.some_inj, Int.cast_inj]
    exact ⟨fun hsame => ⟨hsame, hsame ▸ hsize⟩, fun hboth => hboth.1⟩
  · rw [if_neg hsize]
    refine iff_of_false (fun hnone => by cases hnone) ?_
    rintro ⟨rfl, hfits⟩
    exact hsize hfits

end Texts

end StellarSettle.EventNumbers
