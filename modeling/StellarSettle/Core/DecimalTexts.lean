import Mathlib.Algebra.Order.Round
import Mathlib.Data.Nat.Digits.Defs
import Mathlib.Data.Rat.Floor

/-!
# Texts of decimals

A decimal text has a sign or none, digits, and perhaps decimals behind a point.  Cut to a number
of places it stands for an integer of units, its value in units without the fraction.  The
canonical texts are those that an integer of units is printed as.
-/

namespace StellarSettle.DecimalTexts

/-! ## Digits -/

def AllDigits (digits : List Char) : Prop := ∀ c ∈ digits, c.isDigit = true

section Digits

variable {digits front back : List Char} {c : Char}

theorem AllDigits.append (hfront : AllDigits front) (hback : AllDigits back) :
    AllDigits (front ++ back) := by
  intro c hmem
  rcases List.mem_append.mp hmem with hc | hc
  · exact hfront c hc
  · exact hback c hc

theorem AllDigits.take (hdigits : AllDigits digits) (count : ℕ) :
    AllDigits (digits.take count) :=
  fun c hmem => hdigits c (List.mem_of_mem_take hmem)

theorem allDigits_zeros (count : ℕ) : AllDigits (List.replicate count '0') := by
  intro c hmem
  rw [List.eq_of_mem_replicate hmem]
  rfl

theorem allDigits_toDigits (number : ℕ) : AllDigits (Nat.toDigits 10 number) :=
  fun _ hmem => Nat.isDigit_of_mem_toDigits (by decide) (by decide) hmem

theorem AllDigits.tail (hdigits : AllDigits (c :: digits)) : AllDigits digits :=
  fun other hmem => hdigits other (List.mem_cons_of_mem c hmem)

theorem exists_digitChar (hdigit : c.isDigit = true) :
    ∃ value < 10, c = Nat.digitChar value ∧ c.toNat - '0'.toNat = value := by
  have hrange : 48 ≤ c.toNat ∧ c.toNat ≤ 57 := Char.isDigit_iff_toNat.mp hdigit
  refine ⟨c.toNat - 48, by omega, ?_, rfl⟩
  apply Char.toNat_inj.mp
  rw [Nat.toNat_digitChar_of_lt_ten (by omega)]
  omega

theorem ofDigitChars_lt (hdigits : AllDigits digits) :
    Nat.ofDigitChars 10 digits 0 < 10 ^ digits.length := by
  induction digits with
  | nil => simp
  | cons c rest ih =>
      obtain ⟨value, hvalue, -, hc⟩ := exists_digitChar (hdigits c List.mem_cons_self)
      have hrest := ih hdigits.tail
      have hlead : 10 ^ rest.length * value ≤ 10 ^ rest.length * 9 :=
        Nat.mul_le_mul_left _ (by omega)
      rw [Nat.ofDigitChars_cons, Nat.ofDigitChars_eq_ofDigitChars_zero, hc, Nat.mul_zero,
        Nat.zero_add, List.length_cons, pow_succ]
      omega

theorem ofDigitChars_append_zero (front back : List Char) :
    Nat.ofDigitChars 10 (front ++ back) 0 =
      10 ^ back.length * Nat.ofDigitChars 10 front 0 + Nat.ofDigitChars 10 back 0 := by
  rw [Nat.ofDigitChars_append, Nat.ofDigitChars_eq_ofDigitChars_zero]

/-- Behind a number above zero, digits are printed as they are. -/
theorem toDigits_ofDigitChars {start : ℕ} (hstart : 0 < start) (hdigits : AllDigits digits) :
    Nat.toDigits 10 (Nat.ofDigitChars 10 digits start) = Nat.toDigits 10 start ++ digits := by
  induction digits generalizing start with
  | nil => simp
  | cons c rest ih =>
      obtain ⟨value, hvalue, hc, hnumber⟩ := exists_digitChar (hdigits c List.mem_cons_self)
      rw [Nat.ofDigitChars_cons, hnumber, ih (by omega) hdigits.tail,
        ← Nat.toDigits_append_toDigits (by decide) hstart hvalue,
        Nat.toDigits_of_lt_base hvalue, hc, List.append_assoc, List.singleton_append]

/-- No leading zero: the digit zero, or a number that does not start with it. -/
def NoLeadingZero (digits : List Char) : Prop :=
  digits = ['0'] ∨ ∃ c rest, digits = c :: rest ∧ c ≠ '0'

theorem toDigits_of_noLeadingZero (hdigits : AllDigits digits) (hlead : NoLeadingZero digits) :
    Nat.toDigits 10 (Nat.ofDigitChars 10 digits 0) = digits := by
  rcases hlead with rfl | ⟨c, rest, rfl, hzero⟩
  · rfl
  · obtain ⟨value, hvalue, hc, hnumber⟩ := exists_digitChar (hdigits c List.mem_cons_self)
    have hpos : 0 < value := by
      rcases Nat.eq_zero_or_pos value with rfl | hpos
      · exact absurd hc hzero
      · exact hpos
    rw [Nat.ofDigitChars_cons, hnumber, Nat.mul_zero, Nat.zero_add,
      toDigits_ofDigitChars hpos hdigits.tail, Nat.toDigits_of_lt_base hvalue, hc,
      List.singleton_append]

/-- Padded with zeros in front, the number of some digits is printed as these. -/
theorem leftpad_toDigits (hdigits : AllDigits digits) (hne : digits ≠ []) :
    (Nat.toDigits 10 (Nat.ofDigitChars 10 digits 0)).leftpad digits.length '0' = digits := by
  induction digits with
  | nil => exact absurd rfl hne
  | cons c rest ih =>
      by_cases hzero : c = '0'
      · subst hzero
        rcases eq_or_ne rest [] with rfl | hrest
        · rfl
        · have hpadded := ih hdigits.tail hrest
          have hlength : (Nat.toDigits 10 (Nat.ofDigitChars 10 rest 0)).length ≤ rest.length := by
            have hle := congrArg List.length hpadded
            rw [List.length_leftpad] at hle
            omega
          have hsame : Nat.ofDigitChars 10 ('0' :: rest) 0 = Nat.ofDigitChars 10 rest 0 := rfl
          rw [hsame, List.leftpad, List.length_cons, Nat.succ_sub hlength, List.replicate_succ,
            List.cons_append]
          rw [List.leftpad] at hpadded
          rw [hpadded]
      · rw [toDigits_of_noLeadingZero hdigits (.inr ⟨c, rest, rfl, hzero⟩), List.leftpad,
          Nat.sub_self, List.replicate_zero, List.nil_append]

end Digits

/-! ## Decimals -/

inductive Sign where
  | none
  | plus
  | minus
  deriving DecidableEq, Repr

def Sign.text : Sign → List Char
  | .none => []
  | .plus => ['+']
  | .minus => ['-']

def Sign.apply {Number : Type*} [Neg Number] : Sign → Number → Number
  | .minus, number => -number
  | _, number => number

/-- `decimals` is what stands behind the point, when there is one. -/
structure DecimalText where
  sign : Sign
  whole : List Char
  decimals : Option (List Char)
  whole_digits : AllDigits whole
  decimals_digits : AllDigits (decimals.getD [])
  some_digit : whole ++ decimals.getD [] ≠ []

namespace DecimalText

def text (decimal : DecimalText) : List Char :=
  decimal.sign.text ++ (decimal.whole ++ (decimal.decimals.map fun digits => '.' :: digits).getD [])

def places (decimal : DecimalText) : ℕ := (decimal.decimals.getD []).length

/-- The number of all its digits. -/
def number (decimal : DecimalText) : ℕ :=
  Nat.ofDigitChars 10 (decimal.whole ++ decimal.decimals.getD []) 0

def value (decimal : DecimalText) : ℚ :=
  decimal.sign.apply ((decimal.number : ℚ) / 10 ^ decimal.places)

end DecimalText

/-- The integer part of a value. -/
def truncated (value : ℚ) : ℤ := if value < 0 then ⌈value⌉ else ⌊value⌋

theorem truncated_neg {value : ℚ} (hvalue : 0 ≤ value) : truncated (-value) = -truncated value := by
  rw [truncated, truncated, if_neg (not_lt.mpr hvalue)]
  split
  · exact Int.ceil_neg
  · rename_i hzero
    have hnone : value = 0 := by linarith
    rw [hnone, neg_zero, Int.floor_zero, neg_zero]

theorem truncated_apply (sign : Sign) {value : ℚ} (hvalue : 0 ≤ value) :
    truncated (sign.apply value) = sign.apply ⌊value⌋ := by
  have hfloor : truncated value = ⌊value⌋ := if_neg (not_lt.mpr hvalue)
  cases sign with
  | none => exact hfloor
  | plus => exact hfloor
  | minus => rw [Sign.apply, truncated_neg hvalue, hfloor, Sign.apply]

@[simp]
theorem truncated_intCast (number : ℤ) : truncated (number : ℚ) = number := by
  rw [truncated]
  split
  · exact Int.ceil_intCast number
  · exact Int.floor_intCast number

/-! ## Units of a number of places -/

/-- As many decimals as there are places: more are cut off, and fewer are filled with zeros. -/
def fitted (places : ℕ) (decimals : List Char) : List Char :=
  (decimals ++ List.replicate places '0').take places

section Units

variable {places : ℕ} {whole decimals : List Char}

theorem length_fitted (places : ℕ) (decimals : List Char) :
    (fitted places decimals).length = places := by
  rw [fitted, List.length_take, List.length_append, List.length_replicate]
  omega

theorem AllDigits.fitted (hdigits : AllDigits decimals) (places : ℕ) :
    AllDigits (fitted places decimals) :=
  (hdigits.append (allDigits_zeros places)).take places

/-- The number of the digits with the fitted decimals: the units, without a fraction. -/
theorem ofDigitChars_fitted (hdigits : AllDigits decimals) :
    Nat.ofDigitChars 10 (whole ++ fitted places decimals) 0 =
      Nat.ofDigitChars 10 (whole ++ decimals) 0 * 10 ^ places / 10 ^ decimals.length := by
  rcases Nat.le_total decimals.length places with hshort | hlong
  · have hfitted : fitted places decimals =
        decimals ++ List.replicate (places - decimals.length) '0' := by
      rw [fitted, List.take_append, List.take_of_length_le hshort, List.take_replicate,
        Nat.min_eq_left (Nat.sub_le _ _)]
    have hpow : 10 ^ places = 10 ^ (places - decimals.length) * 10 ^ decimals.length := by
      rw [← pow_add, Nat.sub_add_cancel hshort]
    rw [hfitted, ← List.append_assoc, Nat.ofDigitChars_append, Nat.ofDigitChars_replicate_zero,
      hpow, ← mul_assoc, Nat.mul_div_cancel _ (by positivity), mul_comm]
  · have hfitted : fitted places decimals = decimals.take places := by
      rw [fitted, List.take_append_of_le_length hlong]
    have hsplit : whole ++ decimals =
        (whole ++ decimals.take places) ++ decimals.drop places := by
      rw [List.append_assoc, List.take_append_drop]
    have hrest :
        Nat.ofDigitChars 10 (decimals.drop places) 0 < 10 ^ (decimals.drop places).length :=
      ofDigitChars_lt fun c hmem => hdigits c (List.mem_of_mem_drop hmem)
    have hpow : 10 ^ decimals.length = 10 ^ (decimals.drop places).length * 10 ^ places := by
      rw [← pow_add, List.length_drop, Nat.sub_add_cancel hlong]
    rw [hfitted, hsplit, ofDigitChars_append_zero (whole ++ decimals.take places), hpow,
      Nat.mul_div_mul_right _ _ (by positivity), Nat.mul_add_div (by positivity),
      Nat.div_eq_of_lt hrest, add_zero]

end Units

/-- A decimal as an integer of units, without what lies behind its places. -/
def DecimalText.units (places : ℕ) (decimal : DecimalText) : ℤ :=
  decimal.sign.apply
    (Nat.ofDigitChars 10 (decimal.whole ++ fitted places (decimal.decimals.getD [])) 0 : ℤ)

theorem DecimalText.units_eq_truncated (places : ℕ) (decimal : DecimalText) :
    decimal.units places = truncated (decimal.value * 10 ^ places) := by
  have happly : decimal.value * 10 ^ places =
      decimal.sign.apply ((decimal.number : ℚ) / 10 ^ decimal.places * 10 ^ places) := by
    rw [value]
    cases decimal.sign with
    | none => rfl
    | plus => rfl
    | minus => rw [Sign.apply, Sign.apply, neg_mul]
  have hfloor : ⌊(decimal.number : ℚ) / 10 ^ decimal.places * 10 ^ places⌋ =
      ((decimal.number * 10 ^ places / 10 ^ decimal.places : ℕ) : ℤ) := by
    rw [div_mul_eq_mul_div]
    exact_mod_cast Rat.floor_natCast_div_natCast (decimal.number * 10 ^ places)
      (10 ^ decimal.places)
  rw [happly, truncated_apply _ (by positivity), hfloor, units,
    ofDigitChars_fitted decimal.decimals_digits]
  rfl

/-- With no more decimals than places nothing is cut off. -/
theorem DecimalText.intCast_units {places : ℕ} {decimal : DecimalText}
    (hplaces : decimal.places ≤ places) :
    (decimal.units places : ℚ) = decimal.value * 10 ^ places := by
  have hpow : (10 : ℚ) ^ places = 10 ^ (places - decimal.places) * 10 ^ decimal.places := by
    rw [← pow_add, Nat.sub_add_cancel hplaces]
  have hwhole : decimal.value * 10 ^ places =
      ((decimal.sign.apply (decimal.number * 10 ^ (places - decimal.places) : ℤ) : ℤ) : ℚ) := by
    rw [value, hpow]
    cases decimal.sign with
    | none =>
        simp only [Sign.apply]
        push_cast
        field_simp
    | plus =>
        simp only [Sign.apply]
        push_cast
        field_simp
    | minus =>
        simp only [Sign.apply]
        push_cast
        field_simp
  rw [units_eq_truncated, hwhole, truncated_intCast]

/-! ## Printing -/

section Printing

variable {places : ℕ} {units : ℤ}

/-- The decimal that an integer of units is printed as: a sign, the whole part, and a point with
all its places. -/
def ofUnits (places : ℕ) (units : ℤ) : DecimalText where
  sign := if units < 0 then .minus else .none
  whole := Nat.toDigits 10 (units.natAbs / 10 ^ places)
  decimals := some ((Nat.toDigits 10 (units.natAbs % 10 ^ places)).leftpad places '0')
  whole_digits := allDigits_toDigits _
  decimals_digits := (allDigits_zeros _).append (allDigits_toDigits _)
  some_digit := fun hnone => Nat.toDigits_ne_nil (List.append_eq_nil_iff.mp hnone).1

theorem text_ofUnits (places : ℕ) (units : ℤ) :
    (ofUnits places units).text = (if units < 0 then Sign.minus else .none).text ++
      (Nat.toDigits 10 (units.natAbs / 10 ^ places) ++
        '.' :: (Nat.toDigits 10 (units.natAbs % 10 ^ places)).leftpad places '0') := rfl

/-- No leading zero, all places, no plus and no minus before a zero. -/
structure Canonical (places : ℕ) (decimal : DecimalText) : Prop where
  whole : NoLeadingZero decimal.whole
  decimals : ∃ digits, decimal.decimals = some digits ∧ digits.length = places
  sign : decimal.sign ≠ .plus
  zero : decimal.sign = .minus → decimal.number ≠ 0

theorem length_leftpad_toDigits (hplaces : 0 < places) {number : ℕ}
    (hnumber : number < 10 ^ places) :
    ((Nat.toDigits 10 number).leftpad places '0').length = places := by
  rw [List.length_leftpad]
  exact max_eq_left ((Nat.length_toDigits_le_iff (by decide) hplaces).mpr hnumber)

theorem number_ofUnits (hplaces : 0 < places) (units : ℤ) :
    (ofUnits places units).number = units.natAbs := by
  have hlength := length_leftpad_toDigits hplaces
    (Nat.mod_lt units.natAbs (Nat.pow_pos (by decide) : 0 < 10 ^ places))
  rw [DecimalText.number, ofUnits]
  dsimp only [Option.getD_some]
  rw [ofDigitChars_append_zero, hlength, List.leftpad, Nat.ofDigitChars_append,
    Nat.ofDigitChars_replicate_zero, Nat.mul_zero, Nat.ofDigitChars_ten_toDigits,
    Nat.ofDigitChars_ten_toDigits, Nat.div_add_mod]

theorem value_ofUnits (hplaces : 0 < places) (units : ℤ) :
    (ofUnits places units).value = units / 10 ^ places := by
  have hlength : (ofUnits places units).places = places :=
    length_leftpad_toDigits hplaces (Nat.mod_lt _ (Nat.pow_pos (by decide)))
  rw [DecimalText.value, number_ofUnits hplaces, hlength, ofUnits]
  dsimp only
  split
  · rename_i hnegative
    rw [Sign.apply, Nat.cast_natAbs, abs_of_neg hnegative]
    push_cast
    ring
  · rename_i hnonneg
    rw [Sign.apply, Nat.cast_natAbs, abs_of_nonneg (not_lt.mp hnonneg)]
    exact nofun

/-- What an integer of units is printed as stands for that integer. -/
theorem units_ofUnits (hplaces : 0 < places) (units : ℤ) :
    (ofUnits places units).units places = units := by
  have hpow : (10 : ℚ) ^ places ≠ 0 := by positivity
  rw [DecimalText.units_eq_truncated, value_ofUnits hplaces, div_mul_cancel₀ _ hpow,
    truncated_intCast]

/-- A canonical text is what its integer of units is printed as. -/
theorem text_ofUnits_units (hplaces : 0 < places) {decimal : DecimalText}
    (hcanonical : Canonical places decimal) :
    (ofUnits places (decimal.units places)).text = decimal.text := by
  obtain ⟨digits, hdecimals, hlength⟩ := hcanonical.decimals
  obtain ⟨sign, whole, decimals, hwhole, hdigits, hsome⟩ := decimal
  obtain rfl : decimals = some digits := hdecimals
  have hfitted : fitted places digits = digits := by
    rw [fitted, List.take_append_of_le_length hlength.ge, ← hlength, List.take_length]
  have hlast : Nat.ofDigitChars 10 digits 0 < 10 ^ places := hlength ▸ ofDigitChars_lt hdigits
  have hnumber : Nat.ofDigitChars 10 (whole ++ digits) 0 =
      10 ^ places * Nat.ofDigitChars 10 whole 0 + Nat.ofDigitChars 10 digits 0 := by
    rw [ofDigitChars_append_zero, hlength]
  have hquotient : Nat.ofDigitChars 10 (whole ++ digits) 0 / 10 ^ places =
      Nat.ofDigitChars 10 whole 0 := by
    rw [hnumber, Nat.mul_add_div (by positivity), Nat.div_eq_of_lt hlast, add_zero]
  have hremainder : Nat.ofDigitChars 10 (whole ++ digits) 0 % 10 ^ places =
      Nat.ofDigitChars 10 digits 0 := by
    rw [hnumber, Nat.mul_add_mod, Nat.mod_eq_of_lt hlast]
  have hne : digits ≠ [] := by
    rintro rfl
    exact hplaces.ne hlength
  have hpadded : (Nat.toDigits 10 (Nat.ofDigitChars 10 digits 0)).leftpad places '0' = digits :=
    hlength ▸ leftpad_toDigits hdigits hne
  have hunits : ∀ units : ℤ, units.natAbs = Nat.ofDigitChars 10 (whole ++ digits) 0 →
      (ofUnits places units).text = (if units < 0 then Sign.minus else .none).text ++
        (whole ++ '.' :: digits) := by
    intro units hunits
    rw [text_ofUnits, hunits, hquotient, hremainder, hpadded,
      toDigits_of_noLeadingZero hwhole hcanonical.whole]
  simp only [DecimalText.units, Option.getD_some, hfitted]
  cases sign with
  | none =>
      rw [Sign.apply, hunits _ (Int.natAbs_natCast _), if_neg (by omega)]
      · rfl
      · exact nofun
  | plus => exact absurd rfl hcanonical.sign
  | minus =>
      have hpos : 0 < Nat.ofDigitChars 10 (whole ++ digits) 0 :=
        Nat.pos_of_ne_zero (hcanonical.zero rfl)
      rw [Sign.apply, hunits _ (by rw [Int.natAbs_neg, Int.natAbs_natCast]),
        if_pos (by omega)]
      rfl

end Printing

end StellarSettle.DecimalTexts
