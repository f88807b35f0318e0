import StellarSettle.Core.DecimalTexts
import StellarSettle.Projections.Numbers

/-!
# Amounts as texts and as bigints

The settlement services compute with bigints, in units of `10 ^ -4`, and read and print them as
decimal texts.
-/

namespace StellarSettle.DecimalBigint

open StellarSettle.ContractEventBus
open StellarSettle.DecimalJs
open StellarSettle.DecimalTexts
open StellarSettle.InvoiceLifecycle
open StellarSettle.Numbers

def SCALE : ℕ := 4

def SCALE_FACTOR : ℤ := 10 ^ SCALE

/-- `BigInt(text)`, which throws a SyntaxError for a text that is no integer. -/
def bigIntOf (text : List Char) : Option ℤ :=
  let digits := trim text
  if digits = [] then some 0
  else
    match radixNumberOf digits with
    | some value => some value.num
    | none =>
        let (negative, rest) := spanSign digits
        if rest = [] ∨ ¬rest.all Char.isDigit then none
        else
          let value : ℤ := Nat.ofDigitChars 10 rest 0
          some (if negative then -value else value)

/-- The first two parts of `text.split(".")`; a part that is missing is empty. -/
def splitPoint (text : List Char) : List Char × List Char :=
  (text.takeWhile (· ≠ '.'), ((text.dropWhile (· ≠ '.')).drop 1).takeWhile (· ≠ '.'))

/-- The bigint of a text without its minus sign. -/
def scaledUnsigned (unsigned : List Char) : Option ℤ :=
  let (wholePart, fractionalPart) := splitPoint unsigned
  let paddedFraction := (fractionalPart ++ List.replicate SCALE '0').take SCALE
  bigIntOf ((if wholePart = [] then ['0'] else wholePart) ++ paddedFraction)

def decimalStringToScaledBigInt (value : String) : Option ℤ :=
  let normalized := trim value.toList
  let isNegative : Bool := normalized.head? = some '-'
  let unsigned := if isNegative then normalized.drop 1 else normalized
  (scaledUnsigned unsigned).map fun scaled => if isNegative then -scaled else scaled

def scaledBigIntToDecimalString (value : ℤ) : String :=
  let isNegative : Bool := value < 0
  let absolute := if isNegative then -value else value
  let whole := absolute / SCALE_FACTOR
  let fraction := (toString (absolute % SCALE_FACTOR)).toList.leftpad SCALE '0'
  (if isNegative then "-" else "") ++ toString whole ++ "." ++ String.ofList fraction

/-! ## Printing -/

/-- A bigint is printed as the decimal of its units. -/
theorem toList_scaledBigIntToDecimalString (value : ℤ) :
    (scaledBigIntToDecimalString value).toList = (ofUnits SCALE value).text := by
  have habsolute : (if value < 0 then -value else value) = (value.natAbs : ℤ) := by
    split <;> omega
  have hfactor : SCALE_FACTOR = ((10 ^ SCALE : ℕ) : ℤ) := rfl
  have hwhole : (toString ((value.natAbs : ℤ) / SCALE_FACTOR)).toList =
      Nat.toDigits 10 (value.natAbs / 10 ^ SCALE) := by
    rw [hfactor, ← Int.natCast_ediv, toList_toString_of_nonneg (Int.natCast_nonneg _),
      Int.natAbs_natCast]
  have hfraction : (toString ((value.natAbs : ℤ) % SCALE_FACTOR)).toList =
      Nat.toDigits 10 (value.natAbs % 10 ^ SCALE) := by
    rw [hfactor, ← Int.natCast_emod, toList_toString_of_nonneg (Int.natCast_nonneg _),
      Int.natAbs_natCast]
  rw [scaledBigIntToDecimalString, text_ofUnits]
  simp only [decide_eq_true_eq, habsolute, String.toList_append, String.toList_ofList, hwhole,
    hfraction]
  by_cases hnegative : value < 0
  · rw [if_pos hnegative, if_pos hnegative]
    simp [Sign.text]
  · rw [if_neg hnegative, if_neg hnegative]
    simp [Sign.text]

/-- So is an amount by `toFixed(4)`. -/
theorem fixed4Text_eq (units : ℤ) : fixed4Text units = scaledBigIntToDecimalString units := by
  have hlength : ∀ number : ℕ, number.repr.length = (Nat.toDigits 10 number).length := by
    intro number
    rw [← String.length_toList, Nat.toList_repr]
  apply String.toList_inj.mp
  rw [toList_scaledBigIntToDecimalString, text_ofUnits, fixed4Text, List.leftpad]
  by_cases hnegative : units < 0
  · simp [hnegative, hlength, Sign.text, SCALE]
  · simp [hnegative, hlength, Sign.text, SCALE]

/-! ## Reading -/

section Reading

variable {digits : List Char}

theorem isTrimmed_of_allDigits (hdigits : AllDigits digits) :
    ∀ c ∈ digits, isTrimmed c = false :=
  fun c hmem => isTrimmed_of_isDigit (hdigits c hmem)

theorem bigIntOf_digits (hdigits : AllDigits digits) (hne : digits ≠ []) :
    bigIntOf digits = some (Nat.ofDigitChars 10 digits 0 : ℤ) := by
  have hall : digits.all Char.isDigit = true := List.all_eq_true.mpr hdigits
  rw [bigIntOf, trim_eq_self (isTrimmed_of_allDigits hdigits)]
  dsimp only
  rw [if_neg hne, radixNumberOf_digits hdigits, spanSign_digits hdigits]
  simp [hne, hall]

theorem bigIntOf_plus (hdigits : AllDigits digits) (hne : digits ≠ []) :
    bigIntOf ('+' :: digits) = some (Nat.ofDigitChars 10 digits 0 : ℤ) := by
  have hall : digits.all Char.isDigit = true := List.all_eq_true.mpr hdigits
  have hkept : ∀ c ∈ '+' :: digits, isTrimmed c = false := by
    intro c hmem
    rcases List.mem_cons.mp hmem with rfl | hdigit
    · decide
    · exact isTrimmed_of_allDigits hdigits c hdigit
  have hradix : radixNumberOf ('+' :: digits) = none := rfl
  rw [bigIntOf, trim_eq_self hkept]
  dsimp only
  rw [if_neg (List.cons_ne_nil _ _), hradix]
  simp [spanSign, hne, hall]

/-- A point, and the digits behind it. -/
def pointText (decimals : Option (List Char)) : List Char :=
  (decimals.map fun digits => '.' :: digits).getD []

theorem takeWhile_digits (hdigits : AllDigits digits) (tail : List Char) :
    (digits ++ tail).takeWhile (· ≠ '.') = digits ++ tail.takeWhile (· ≠ '.') := by
  apply List.takeWhile_append_of_pos
  intro c hmem
  exact decide_eq_true (ne_of_isDigit (hdigits c hmem) (by decide))

theorem dropWhile_digits (hdigits : AllDigits digits) (tail : List Char) :
    (digits ++ tail).dropWhile (· ≠ '.') = tail.dropWhile (· ≠ '.') := by
  apply List.dropWhile_append_of_pos
  intro c hmem
  exact decide_eq_true (ne_of_isDigit (hdigits c hmem) (by decide))

theorem splitPoint_append (hdigits : AllDigits digits) (tail : List Char) :
    splitPoint (digits ++ tail) = (digits ++ (splitPoint tail).1, (splitPoint tail).2) := by
  rw [splitPoint, takeWhile_digits hdigits, dropWhile_digits hdigits, splitPoint]

theorem splitPoint_pointText {decimals : Option (List Char)}
    (hdigits : AllDigits (decimals.getD [])) :
    splitPoint (pointText decimals) = ([], decimals.getD []) := by
  cases decimals with
  | none => rfl
  | some decimals =>
      have htake := takeWhile_digits hdigits []
      rw [List.append_nil, List.takeWhile_nil, List.append_nil] at htake
      have hpoint : pointText (some decimals) = '.' :: decimals := rfl
      rw [hpoint, splitPoint, List.takeWhile_cons_of_neg (by decide),
        List.dropWhile_cons_of_neg (by decide), List.drop_succ_cons, List.drop_zero]
      exact congrArg (Prod.mk []) htake

/-- A text in front of the fitted decimals. -/
theorem bigIntOf_fitted {whole decimals : List Char} (hwhole : AllDigits whole)
    (hdecimals : AllDigits decimals) :
    bigIntOf ((if whole = [] then ['0'] else whole) ++ fitted SCALE decimals) =
      some (Nat.ofDigitChars 10 (whole ++ fitted SCALE decimals) 0 : ℤ) := by
  have hfitted := AllDigits.fitted hdecimals SCALE
  split
  · rename_i hempty
    have hzero : AllDigits ['0'] := allDigits_zeros 1
    rw [hempty, bigIntOf_digits (hzero.append hfitted) (List.cons_ne_nil _ _)]
    rfl
  · rename_i hsome
    exact bigIntOf_digits (hwhole.append hfitted) (List.append_ne_nil_of_left_ne_nil hsome _)

/-- No blank is trimmed off the text of a decimal. -/
theorem trim_text (decimal : DecimalText) : trim decimal.text = decimal.text := by
  apply trim_eq_self
  intro c hmem
  rcases List.mem_append.mp hmem with hsign | hrest
  · cases hcase : decimal.sign <;> rw [hcase] at hsign <;> simp [Sign.text] at hsign <;>
      subst hsign <;> decide
  · rcases List.mem_append.mp hrest with hwhole | hpoint
    · exact isTrimmed_of_allDigits decimal.whole_digits c hwhole
    · have hdigits := decimal.decimals_digits
      cases hdecimals : decimal.decimals with
      | none =>
          rw [hdecimals] at hpoint
          cases hpoint
      | some decimals =>
          rw [hdecimals] at hpoint hdigits
          rcases List.mem_cons.mp hpoint with rfl | hdigit
          · decide
          · exact isTrimmed_of_allDigits hdigits c hdigit

theorem head?_unsigned (decimal : DecimalText) :
    (decimal.whole ++ pointText decimal.decimals).head? ≠ some '-' := by
  intro hminus
  cases hwhole : decimal.whole with
  | nil =>
      rw [hwhole, List.nil_append] at hminus
      cases hdecimals : decimal.decimals with
      | none =>
          rw [hdecimals] at hminus
          cases hminus
      | some decimals =>
          rw [hdecimals] at hminus
          exact absurd (Option.some.inj hminus) (by decide)
  | cons c rest =>
      have hdigit : c.isDigit = true :=
        decimal.whole_digits c (hwhole ▸ List.mem_cons_self)
      rw [hwhole, List.cons_append, List.head?_cons] at hminus
      exact ne_of_isDigit hdigit (by decide) (Option.some.inj hminus)

theorem splitPoint_unsigned (decimal : DecimalText) :
    splitPoint (decimal.whole ++ pointText decimal.decimals) =
      (decimal.whole, decimal.decimals.getD []) := by
  rw [splitPoint_append decimal.whole_digits, splitPoint_pointText decimal.decimals_digits,
    List.append_nil]

theorem splitPoint_plus (decimal : DecimalText) :
    splitPoint ('+' :: (decimal.whole ++ pointText decimal.decimals)) =
      ('+' :: decimal.whole, decimal.decimals.getD []) := by
  have hunsigned := splitPoint_unsigned decimal
  rw [splitPoint, Prod.mk.injEq] at hunsigned ⊢
  rw [List.takeWhile_cons_of_pos (by decide), List.dropWhile_cons_of_pos (by decide),
    hunsigned.1, hunsigned.2]
  exact ⟨rfl, rfl⟩

theorem scaledUnsigned_eq (decimal : DecimalText) :
    scaledUnsigned (decimal.whole ++ pointText decimal.decimals) =
      some (Nat.ofDigitChars 10 (decimal.whole ++ fitted SCALE (decimal.decimals.getD [])) 0 :
        ℤ) := by
  rw [scaledUnsigned, splitPoint_unsigned]
  exact bigIntOf_fitted decimal.whole_digits decimal.decimals_digits

theorem scaledUnsigned_plus (decimal : DecimalText) :
    scaledUnsigned ('+' :: (decimal.whole ++ pointText decimal.decimals)) =
      some (Nat.ofDigitChars 10 (decimal.whole ++ fitted SCALE (decimal.decimals.getD [])) 0 :
        ℤ) := by
  have hfitted := AllDigits.fitted decimal.decimals_digits SCALE
  have hne : decimal.whole ++ fitted SCALE (decimal.decimals.getD []) ≠ [] := by
    apply List.append_ne_nil_of_right_ne_nil
    apply List.ne_nil_of_length_pos
    rw [length_fitted]
    decide
  rw [scaledUnsigned, splitPoint_plus]
  exact bigIntOf_plus (decimal.whole_digits.append hfitted) hne

theorem decimalStringToScaledBigInt_of_ne {value : String} {unsigned : List Char}
    (htrim : trim value.toList = unsigned) (hsign : unsigned.head? ≠ some '-') :
    decimalStringToScaledBigInt value = scaledUnsigned unsigned := by
  simp [decimalStringToScaledBigInt, htrim, hsign]

theorem decimalStringToScaledBigInt_minus {value : String} {unsigned : List Char}
    (htrim : trim value.toList = '-' :: unsigned) :
    decimalStringToScaledBigInt value = (scaledUnsigned unsigned).map fun scaled => -scaled := by
  simp [decimalStringToScaledBigInt, htrim]

/-- A decimal text is read as its integer of units. -/
theorem decimalStringToScaledBigInt_text {value : String} {decimal : DecimalText}
    (htrim : trim value.toList = decimal.text) :
    decimalStringToScaledBigInt value = some (decimal.units SCALE) := by
  have htext : decimal.text =
      decimal.sign.text ++ (decimal.whole ++ pointText decimal.decimals) := rfl
  rw [htext] at htrim
  rw [DecimalText.units]
  cases hsign : decimal.sign with
  | none =>
      rw [hsign, Sign.text, List.nil_append] at htrim
      rw [decimalStringToScaledBigInt_of_ne htrim (head?_unsigned decimal), scaledUnsigned_eq]
      rfl
  | plus =>
      rw [hsign, Sign.text, List.singleton_append] at htrim
      rw [decimalStringToScaledBigInt_of_ne htrim (by simp), scaledUnsigned_plus]
      rfl
  | minus =>
      rw [hsign, Sign.text, List.singleton_append] at htrim
      rw [decimalStringToScaledBigInt_minus htrim, scaledUnsigned_eq]
      rfl

end Reading

/-! ## Both ways -/

/-- Printing and reading are inverse to each other on bigints and on canonical texts, a decimal
text is read as what its value in units is without the fraction, and sums of amounts with four
decimals are sums of bigints. -/
theorem scaledBigInt_laws :
    (∀ value, decimalStringToScaledBigInt (scaledBigIntToDecimalString value) = some value) ∧
    (∀ decimal, Canonical SCALE decimal →
      (decimalStringToScaledBigInt (String.ofList decimal.text)).map scaledBigIntToDecimalString =
        some (String.ofList decimal.text)) ∧
    (∀ value (decimal : DecimalText), trim value.toList = decimal.text →
      decimalStringToScaledBigInt value = some (truncated (decimal.value * 10 ^ SCALE))) ∧
    ∀ left right sum : DecimalText, left.places ≤ SCALE → right.places ≤ SCALE →
      sum.value = left.value + right.value → ∃ leftScaled rightScaled,
        decimalStringToScaledBigInt (String.ofList left.text) = some leftScaled ∧
        decimalStringToScaledBigInt (String.ofList right.text) = some rightScaled ∧
        decimalStringToScaledBigInt (String.ofList sum.text) = some (leftScaled + rightScaled) := by
  have hread : ∀ decimal : DecimalText,
      decimalStringToScaledBigInt (String.ofList decimal.text) = some (decimal.units SCALE) := by
    intro decimal
    apply decimalStringToScaledBigInt_text
    rw [String.toList_ofList, trim_text]
  refine ⟨?_, ?_, ?_, ?_⟩
  · intro value
    have htrim : trim (scaledBigIntToDecimalString value).toList = (ofUnits SCALE value).text := by
      rw [toList_scaledBigIntToDecimalString, trim_text]
    rw [decimalStringToScaledBigInt_text htrim, units_ofUnits (by decide)]
  · intro decimal hcanonical
    have hprint : scaledBigIntToDecimalString (decimal.units SCALE) =
        String.ofList decimal.text := by
      apply String.toList_inj.mp
      rw [toList_scaledBigIntToDecimalString, String.toList_ofList,
        text_ofUnits_units (by decide) hcanonical]
    rw [hread, Option.map_some, hprint]
  · intro value decimal htrim
    rw [decimalStringToScaledBigInt_text htrim, DecimalText.units_eq_truncated]
  · intro left right sum hleft hright hsum
    refine ⟨left.units SCALE, right.units SCALE, hread left, hread right, ?_⟩
    have hexact : sum.value * 10 ^ SCALE =
        ((left.units SCALE + right.units SCALE : ℤ) : ℚ) := by
      rw [Int.cast_add, DecimalText.intCast_units hleft, DecimalText.intCast_units hright, hsum,
        add_mul]
    rw [hread, DecimalText.units_eq_truncated, hexact, truncated_intCast]

example : decimalStringToScaledBigInt "-.00019" = some (-1) := by decide

end StellarSettle.DecimalBigint
