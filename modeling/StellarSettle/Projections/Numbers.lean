import StellarSettle.Core.BinaryRounding
import StellarSettle.Indexer.ContractEventBus

/-!
# The numbers of the language

A number is a finite double, an infinity or NaN; arithmetic and the conversion of a text
round to the nearest double.  The two zeros are one, since no reader tells them apart.
-/

namespace StellarSettle.Numbers

open StellarSettle.BinaryRounding
open StellarSettle.ContractEventBus
open StellarSettle.InvoiceLifecycle

/-! ## Doubles -/

/-- The format of a double. -/
def double : BinaryFormat where
  digits := 53
  lowest := -1074
  digits_pos := by decide

/-- The finite doubles. -/
def Double : Type := { value : ℚ // double.Represents value ∧ |value| < 2 ^ 1024 }

instance : DecidableEq Double := inferInstanceAs (DecidableEq (Subtype _))

inductive JsNumber where
  | finite (value : Double)
  | infinity (negative : Bool)
  | nan
  deriving DecidableEq

theorem pow_lt_pow_two {low high : ℕ} (hless : low < high) : (2 : ℚ) ^ low < 2 ^ high :=
  pow_lt_pow_right₀ one_lt_two hless

/-- Integers of at most 53 digits are doubles. -/
def Double.ofInt (number : ℤ) (hnumber : |number| ≤ 2 ^ 53) : Double :=
  ⟨number, double.represents_intCast (by decide) hnumber, by
    have hsize : |(number : ℚ)| ≤ 2 ^ 53 := by exact_mod_cast hnumber
    exact hsize.trans_lt (pow_lt_pow_two (by decide))⟩

theorem abs_zero_le_digits : |(0 : ℤ)| ≤ 2 ^ 53 := by decide

theorem abs_thousand_le_digits : |(1000 : ℤ)| ≤ 2 ^ 53 := by decide

/-- The double that is closest to a value; what is too large for it is an infinity. -/
def JsNumber.ofRat (value : ℚ) : JsNumber :=
  if hbound : |double.round value| < 2 ^ 1024 then
    .finite ⟨double.round value, double.represents_round value, hbound⟩
  else .infinity (decide (value < 0))

namespace JsNumber

def neg : JsNumber → JsNumber
  | .finite value => ofRat (-value.val)
  | .infinity negative => .infinity (!negative)
  | .nan => .nan

/-- `left + right`. -/
def add : JsNumber → JsNumber → JsNumber
  | .finite left, .finite right => ofRat (left.val + right.val)
  | .infinity left, .infinity right => if left = right then .infinity left else .nan
  | .infinity negative, .finite _ => .infinity negative
  | .finite _, .infinity negative => .infinity negative
  | _, _ => .nan

/-- `left - right`. -/
def sub (left right : JsNumber) : JsNumber := left.add right.neg

/-- `value / divisor` for a divisor above zero. -/
def divBy (value : JsNumber) (divisor : Double) : JsNumber :=
  match value with
  | .finite value => ofRat (value.val / divisor.val)
  | other => other

/-- `value * factor` for a factor above zero. -/
def mulBy (value : JsNumber) (factor : Double) : JsNumber :=
  match value with
  | .finite value => ofRat (value.val * factor.val)
  | other => other

/-- `left < right`: NaN compares with nothing. -/
def lt : JsNumber → JsNumber → Bool
  | .finite left, .finite right => left.val < right.val
  | .infinity negative, .finite _ => negative
  | .finite _, .infinity negative => !negative
  | .infinity left, .infinity right => left && !right
  | _, _ => false

/-- `left >= right`. -/
def ge : JsNumber → JsNumber → Bool
  | .finite left, .finite right => right.val ≤ left.val
  | .infinity negative, .finite _ => !negative
  | .finite _, .infinity negative => negative
  | .infinity left, .infinity right => !left || right
  | _, _ => false

/-- `Math.ceil(value)`. -/
def ceil : JsNumber → JsNumber
  | .finite value => ofRat ⌈value.val⌉
  | other => other

/-- What is below a number is below those that are no smaller. -/
theorem lt_of_lt_of_ge {low middle high : JsNumber} (hless : low.lt middle = true)
    (hge : high.ge middle = true) : low.lt high = true := by
  cases low <;> cases middle <;> cases high <;> simp_all [lt, ge]
  exact hless.trans_le hge

/-- A number that compares with another one is no smaller than itself. -/
theorem ge_self_of_ge {left right : JsNumber} (hge : left.ge right = true) :
    left.ge left = true := by
  cases left <;> cases right <;> simp_all [ge]

section Rounding

variable {value : ℚ}

@[simp]
theorem ofRat_val (number : Double) : ofRat number.val = .finite number := by
  have hexact : double.round number.val = number.val :=
    BinaryFormat.round_eq_self number.property.1
  have hbound : |double.round number.val| < 2 ^ 1024 := by
    rw [hexact]
    exact number.property.2
  rw [ofRat, dif_pos hbound]
  exact congrArg finite (Subtype.ext hexact)

/-- Rounding never passes by a double. -/
theorem le_of_ofRat {rounded bound : Double} (hrounded : ofRat value = .finite rounded)
    (hle : value ≤ bound.val) : rounded.val ≤ bound.val := by
  rw [ofRat] at hrounded
  split at hrounded
  · obtain rfl := finite.inj hrounded
    exact BinaryFormat.round_le bound.property.1 hle
  · cases hrounded

/-- Rounding to a double never turns a comparison around. -/
theorem lt_of_ofRat_lt {left right : ℚ} (hless : (ofRat left).lt (ofRat right) = true) :
    left < right := by
  by_contra hge
  rw [not_lt] at hge
  have hround : double.round right ≤ double.round left := BinaryFormat.monotone_round hge
  have hrepresents : double.Represents 0 :=
    ⟨0, 0, by norm_num [double], by norm_num [double], by norm_num⟩
  rw [ofRat, ofRat] at hless
  split at hless
  · rename_i hleft
    split at hless
    · exact absurd (of_decide_eq_true hless) (not_lt.mpr hround)
    · rename_i hright
      -- The right one is an infinity above zero, and the left one would be no smaller.
      have hnonneg : 0 ≤ right := by simpa [lt] using hless
      have hzero : 0 ≤ double.round right := BinaryFormat.le_round hrepresents hnonneg
      rw [abs_of_nonneg hzero] at hright
      rw [abs_of_nonneg (hzero.trans hround)] at hleft
      exact hright (hround.trans_lt hleft)
  · rename_i hleft
    split at hless
    · rename_i hright
      have hnegative : left < 0 := by simpa [lt] using hless
      have hzero : double.round left ≤ 0 := BinaryFormat.round_le hrepresents hnegative.le
      rw [abs_of_nonpos hzero] at hleft
      rw [abs_of_nonpos (hround.trans hzero)] at hright
      exact hleft ((neg_le_neg hround).trans_lt hright)
    · simp only [lt, Bool.and_eq_true, decide_eq_true_eq, Bool.not_eq_true',
        decide_eq_false_iff_not] at hless
      exact hless.2 (hge.trans_lt hless.1)

/-- Integers of up to 256 digits are no infinities. -/
theorem exists_finite_of_abs_le {number : ℤ} (hnumber : |number| ≤ 2 ^ 256) :
    ∃ rounded, ofRat number = .finite rounded := by
  have hlimit : double.Represents (2 ^ 256) :=
    ⟨1, 256, by norm_num [double], by norm_num [double], by norm_num⟩
  have hsize : |(number : ℚ)| ≤ 2 ^ 256 := by exact_mod_cast hnumber
  obtain ⟨hlow, hhigh⟩ := abs_le.mp hsize
  have hrounded : |double.round number| ≤ 2 ^ 256 :=
    abs_le.mpr ⟨BinaryFormat.le_round hlimit.neg hlow, BinaryFormat.round_le hlimit hhigh⟩
  exact ⟨_, dif_pos (hrounded.trans_lt (pow_lt_pow_two (by decide)))⟩

end Rounding

end JsNumber

/-! ## Texts -/

/-- The digits at the front, and the rest. -/
def spanDigits (text : List Char) : List Char × List Char :=
  (text.takeWhile Char.isDigit, text.dropWhile Char.isDigit)

/-- A sign, and the text behind it. -/
def spanSign : List Char → Bool × List Char
  | '-' :: rest => (true, rest)
  | '+' :: rest => (false, rest)
  | text => (false, text)

/-- The exponent behind the digits of a number. -/
def exponentOf : List Char → Option ℤ
  | [] => some 0
  | mark :: text =>
      let (negative, digits) := spanSign text
      if (mark ≠ 'e' ∧ mark ≠ 'E') ∨ digits = [] ∨ ¬digits.all Char.isDigit then none
      else
        let exponent : ℤ := Nat.ofDigitChars 10 digits 0
        some (if negative then -exponent else exponent)

/-- A number without a sign: digits, perhaps with a point and an exponent. -/
def unsignedOf (text : List Char) : Option ℚ :=
  let (whole, afterWhole) := spanDigits text
  let (fraction, rest) :=
    match afterWhole with
    | '.' :: afterPoint => spanDigits afterPoint
    | _ => ([], afterWhole)
  if whole ++ fraction = [] then none
  else (exponentOf rest).map fun exponent : ℤ =>
    (Nat.ofDigitChars 10 (whole ++ fraction) 0 : ℚ) * 10 ^ (exponent - fraction.length)

def radixOf (mark : Char) : Option ℕ :=
  if mark = 'x' ∨ mark = 'X' then some 16
  else if mark = 'o' ∨ mark = 'O' then some 8
  else if mark = 'b' ∨ mark = 'B' then some 2
  else none

/-- The value of a hexadecimal digit; other characters have none below 16. -/
def digitValue (digit : Char) : ℕ :=
  if digit.isDigit then digit.toNat - 48
  else if 'a' ≤ digit.toLower ∧ digit.toLower ≤ 'f' then digit.toLower.toNat - 87
  else 16

def radixNumberOf : List Char → Option ℚ
  | '0' :: mark :: digits =>
      (radixOf mark).bind fun radix =>
        if digits = [] ∨ digits.any (fun digit => radix ≤ digitValue digit) then none
        else some (digits.foldl (fun value digit => radix * value + digitValue digit) 0 : ℕ)
  | _ => none

/-- A number with or without a sign. -/
def signedOf (text : List Char) : JsNumber :=
  let (negative, digits) := spanSign text
  if digits = "Infinity".toList then .infinity negative
  else
    match unsignedOf digits with
    | none => .nan
    | some value => .ofRat (if negative then -value else value)

/-- `Number(text)`. -/
def JsNumber.ofText (text : String) : JsNumber :=
  let digits := trim text.toList
  if digits = [] then .ofRat 0
  else
    match radixNumberOf digits with
    | some value => .ofRat value
    | none => signedOf digits

/-! ## The digits of an integer -/

section Digits

variable {digits : List Char}

theorem trim_eq_self (hkept : ∀ c ∈ digits, isTrimmed c = false) : trim digits = digits := by
  have hdrop : ∀ text : List Char, (∀ c ∈ text, isTrimmed c = false) →
      text.dropWhile isTrimmed = text := by
    intro text htext
    cases text with
    | nil => rfl
    | cons c rest => rw [List.dropWhile_cons_of_neg (by simp [htext c List.mem_cons_self])]
  rw [trim, hdrop digits hkept, hdrop _ fun c hmem => hkept c (List.mem_reverse.mp hmem),
    List.reverse_reverse]

theorem toNat_of_isDigit {c : Char} (hdigit : c.isDigit = true) :
    48 ≤ c.toNat ∧ c.toNat ≤ 57 := by
  simp only [Char.isDigit, Bool.and_eq_true, decide_eq_true_eq, ge_iff_le,
    UInt32.le_iff_toNat_le] at hdigit
  exact hdigit

theorem isTrimmed_of_isDigit {c : Char} (hdigit : c.isDigit = true) : isTrimmed c = false := by
  have hrange := toNat_of_isDigit hdigit
  simp only [isTrimmed, Bool.or_eq_false_iff, Bool.and_eq_false_iff, decide_eq_false_iff_not,
    List.contains_eq_mem, List.mem_cons, List.not_mem_nil, or_false]
  omega

theorem ne_of_isDigit {c other : Char} (hdigit : c.isDigit = true)
    (hother : other.isDigit = false) : c ≠ other := by
  rintro rfl
  rw [hdigit] at hother
  cases hother

theorem radixOf_of_isDigit {c : Char} (hdigit : c.isDigit = true) : radixOf c = none := by
  simp [radixOf, ne_of_isDigit hdigit]

theorem spanDigits_digits (hdigits : ∀ c ∈ digits, c.isDigit = true) :
    spanDigits digits = (digits, []) := by
  induction digits with
  | nil => rfl
  | cons c rest ih =>
      have hrest := ih fun other hmem => hdigits other (List.mem_cons_of_mem _ hmem)
      rw [spanDigits, Prod.mk.injEq] at hrest ⊢
      have hfirst := hdigits c List.mem_cons_self
      rw [List.takeWhile_cons_of_pos hfirst, List.dropWhile_cons_of_pos hfirst, hrest.1, hrest.2]
      exact ⟨rfl, rfl⟩

theorem spanSign_digits (hdigits : ∀ c ∈ digits, c.isDigit = true) :
    spanSign digits = (false, digits) := by
  cases digits with
  | nil => rfl
  | cons c rest =>
      have hfirst := hdigits c List.mem_cons_self
      rw [spanSign.eq_3 _ (fun _ hminus => ?_) (fun _ hplus => ?_)]
      · exact ne_of_isDigit hfirst (by decide) (List.cons.inj hminus).1
      · exact ne_of_isDigit hfirst (by decide) (List.cons.inj hplus).1

theorem radixNumberOf_digits (hdigits : ∀ c ∈ digits, c.isDigit = true) :
    radixNumberOf digits = none := by
  rw [radixNumberOf.eq_def]
  split
  · rename_i mark rest
    have hmark := hdigits mark (List.mem_cons_of_mem _ List.mem_cons_self)
    rw [radixOf_of_isDigit hmark, Option.bind_none]
  · rfl

theorem unsignedOf_digits (hdigits : ∀ c ∈ digits, c.isDigit = true) (hne : digits ≠ []) :
    unsignedOf digits = some (Nat.ofDigitChars 10 digits 0 : ℚ) := by
  simp [unsignedOf, spanDigits_digits hdigits, exponentOf, hne]

theorem ne_infinity (hdigits : ∀ c ∈ digits, c.isDigit = true) :
    digits ≠ "Infinity".toList := by
  rintro rfl
  exact absurd (hdigits 'I' (by decide)) (by decide)

theorem signedOf_digits (hdigits : ∀ c ∈ digits, c.isDigit = true) (hne : digits ≠ []) :
    signedOf digits = .ofRat (Nat.ofDigitChars 10 digits 0) := by
  rw [signedOf, spanSign_digits hdigits]
  dsimp only
  rw [if_neg (ne_infinity hdigits), unsignedOf_digits hdigits hne]
  rfl

theorem signedOf_minus (hdigits : ∀ c ∈ digits, c.isDigit = true) (hne : digits ≠ []) :
    signedOf ('-' :: digits) = .ofRat (-Nat.ofDigitChars 10 digits 0) := by
  rw [signedOf, spanSign]
  dsimp only
  rw [if_neg (ne_infinity hdigits), unsignedOf_digits hdigits hne]
  rfl

theorem isDigit_of_mem_toDigits (number : ℕ) :
    ∀ c ∈ Nat.toDigits 10 number, c.isDigit = true :=
  fun _ hmem => Nat.isDigit_of_mem_toDigits (by decide) (by decide) hmem

theorem toList_toString_of_nonneg {number : ℤ} (hnonneg : 0 ≤ number) :
    (toString number).toList = Nat.toDigits 10 number.natAbs := by
  rw [Int.toString_eq_repr, Int.repr_eq_if, if_pos hnonneg, Nat.toList_repr,
    show number.toNat = number.natAbs by omega]

theorem toList_toString_of_neg {number : ℤ} (hneg : number < 0) :
    (toString number).toList = '-' :: Nat.toDigits 10 number.natAbs := by
  rw [Int.toString_eq_repr, Int.repr_eq_if, if_neg (not_le.mpr hneg), String.toList_append,
    Nat.toList_repr, show (-number).toNat = number.natAbs by omega]
  rfl

theorem isTrimmed_of_mem_toString (number : ℤ) :
    ∀ c ∈ (toString number).toList, isTrimmed c = false := by
  have hdigits : ∀ c ∈ Nat.toDigits 10 number.natAbs, isTrimmed c = false :=
    fun c hmem => isTrimmed_of_isDigit (isDigit_of_mem_toDigits _ c hmem)
  by_cases hnonneg : 0 ≤ number
  · rwa [toList_toString_of_nonneg hnonneg]
  · rw [toList_toString_of_neg (not_le.mp hnonneg)]
    intro c hmem
    rcases List.mem_cons.mp hmem with rfl | hdigit
    · decide
    · exact hdigits c hdigit

end Digits

namespace JsNumber

theorem ofText_eq_signedOf {text : String} (hkept : ∀ c ∈ text.toList, isTrimmed c = false)
    (hne : text.toList ≠ []) (hradix : radixNumberOf text.toList = none) :
    ofText text = signedOf text.toList := by
  rw [ofText, trim_eq_self hkept, if_neg hne, hradix]

/-- The digits of an integer read as the double that is closest to it. -/
theorem ofText_toString (number : ℤ) : ofText (toString number) = ofRat number := by
  have hkept := isTrimmed_of_mem_toString number
  by_cases hnonneg : 0 ≤ number
  · rw [toList_toString_of_nonneg hnonneg] at hkept
    rw [ofText_eq_signedOf, toList_toString_of_nonneg hnonneg,
      signedOf_digits (isDigit_of_mem_toDigits _) Nat.toDigits_ne_nil,
      Nat.ofDigitChars_ten_toDigits, ← Int.cast_natCast, Int.natAbs_of_nonneg hnonneg]
    · rwa [toList_toString_of_nonneg hnonneg]
    · rw [toList_toString_of_nonneg hnonneg]
      exact Nat.toDigits_ne_nil
    · rw [toList_toString_of_nonneg hnonneg, radixNumberOf_digits (isDigit_of_mem_toDigits _)]
  · have hneg := not_le.mp hnonneg
    rw [toList_toString_of_neg hneg] at hkept
    rw [ofText_eq_signedOf, toList_toString_of_neg hneg,
      signedOf_minus (isDigit_of_mem_toDigits _) Nat.toDigits_ne_nil,
      Nat.ofDigitChars_ten_toDigits, ← Int.cast_natCast, Int.ofNat_natAbs_of_nonpos hneg.le,
      Int.cast_neg, neg_neg]
    · rwa [toList_toString_of_neg hneg]
    · rw [toList_toString_of_neg hneg]
      exact List.cons_ne_nil _ _
    · rw [toList_toString_of_neg hneg]
      rfl

end JsNumber

end StellarSettle.Numbers
