import StellarSettle.Projections.Numbers

/-!
# Whole numbers

Integers of at most 53 digits are numbers, and sums and comparisons of them are those of the
integers.
-/

namespace StellarSettle.WholeNumbers

open StellarSettle.Numbers

/-- `Number(value)` of a bigint. -/
def number (value : ℤ) : JsNumber := .ofRat value

variable {left right : ℤ}

theorem number_eq_finite (hleft : |left| ≤ 2 ^ 53) :
    number left = .finite (Double.ofInt left hleft) :=
  JsNumber.ofRat_val (Double.ofInt left hleft)

theorem number_add (hleft : |left| ≤ 2 ^ 53) (hright : |right| ≤ 2 ^ 53) :
    (number left).add (number right) = number (left + right) := by
  rw [number_eq_finite hleft, number_eq_finite hright]
  change JsNumber.ofRat ((left : ℚ) + right) = JsNumber.ofRat ((left + right : ℤ) : ℚ)
  rw [Int.cast_add]

theorem number_neg (hleft : |left| ≤ 2 ^ 53) : (number left).neg = number (-left) := by
  rw [number_eq_finite hleft]
  change JsNumber.ofRat (-(left : ℚ)) = JsNumber.ofRat ((-left : ℤ) : ℚ)
  rw [Int.cast_neg]

theorem number_sub (hleft : |left| ≤ 2 ^ 53) (hright : |right| ≤ 2 ^ 53) :
    (number left).sub (number right) = number (left - right) := by
  rw [JsNumber.sub, number_neg hright, number_add hleft (by rwa [abs_neg]), sub_eq_add_neg]

theorem number_lt (hleft : |left| ≤ 2 ^ 53) (hright : |right| ≤ 2 ^ 53) :
    (number left).lt (number right) = true ↔ left < right := by
  rw [number_eq_finite hleft, number_eq_finite hright]
  change decide ((left : ℚ) < (right : ℚ)) = true ↔ left < right
  rw [decide_eq_true_iff, Int.cast_lt]

theorem number_ge (hleft : |left| ≤ 2 ^ 53) (hright : |right| ≤ 2 ^ 53) :
    (number left).ge (number right) = true ↔ right ≤ left := by
  rw [number_eq_finite hleft, number_eq_finite hright]
  change decide ((right : ℚ) ≤ (left : ℚ)) = true ↔ right ≤ left
  rw [decide_eq_true_iff, Int.cast_le]

end StellarSettle.WholeNumbers
