import StellarSettle.Model.DecimalJs

/-!
# Amounts that need not be numbers

`new Decimal(text)` also takes NaN and the infinities, and `toFixed(4)` prints them, so
the amounts of the projections may be any of these.  Sums of numbers are exact as long as
the amounts have at most twenty digits together.
-/

namespace StellarSettle.Amounts

open StellarSettle.DecimalJs

/-! ## Values and amounts -/

/-- A decimal.js value. -/
inductive DecimalValue where
  | number (value : Decimal)
  | nan
  | infinity (negative : Bool)
  deriving DecidableEq, Repr

/-- The text that `toFixed(4)` prints, as a decimal column keeps it. -/
inductive Amount where
  | units (count : ℤ)
  | nan
  | infinity (negative : Bool)
  deriving DecidableEq, Repr

/-- `new Decimal(text)` for the text of an amount. -/
def Amount.value : Amount → DecimalValue
  | .units count => .number (ofUnits count)
  | .nan => .nan
  | .infinity negative => .infinity negative

namespace DecimalValue

def plus : DecimalValue → DecimalValue → DecimalValue
  | .number left, .number right => .number (DecimalJs.plus left right)
  | .infinity left, .infinity right => if left = right then .infinity left else .nan
  | .infinity negative, .number _ => .infinity negative
  | .number _, .infinity negative => .infinity negative
  | _, _ => .nan

def minus : DecimalValue → DecimalValue → DecimalValue
  | .number left, .number right => .number (DecimalJs.minus left right)
  | .infinity left, .infinity right => if left = right then .nan else .infinity left
  | .infinity negative, .number _ => .infinity negative
  | .number _, .infinity negative => .infinity (!negative)
  | _, _ => .nan

def isNegative : DecimalValue → Bool
  | .number value => decide (value < 0)
  | .infinity negative => negative
  | .nan => false

/-- `left.gte(right)`: NaN compares with nothing. -/
def gte : DecimalValue → DecimalValue → Bool
  | .number left, .number right => decide (right ≤ left)
  | .infinity left, .infinity right => !left || right
  | .infinity negative, .number _ => !negative
  | .number _, .infinity negative => negative
  | _, _ => false

/-- `value.toFixed(4)`. -/
def toFixed : DecimalValue → Amount
  | .number value => .units (toFixed4 value)
  | .nan => .nan
  | .infinity negative => .infinity negative

end DecimalValue

/-- `reduce((total, amount) => total.plus(amount), new Decimal(0))`. -/
def sumDecimals (amounts : List Amount) : DecimalValue :=
  amounts.foldl (fun total amount => total.plus amount.value) (.number 0)

/-- Exact addition, as in a column of PostgreSQL. -/
def Amount.add : Amount → Amount → Amount
  | .units left, .units right => .units (left + right)
  | .infinity left, .infinity right => if left = right then .infinity left else .nan
  | .infinity negative, .units _ => .infinity negative
  | .units _, .infinity negative => .infinity negative
  | _, _ => .nan

/-- `COALESCE(SUM(CAST(amount AS DECIMAL)), 0)`. -/
def columnSum (amounts : List Amount) : Amount := amounts.foldl Amount.add (.units 0)

/-! ## Exact sums -/

/-- The units of an amount that is a number. -/
def Amount.toUnits : Amount → ℤ
  | .units count => count
  | _ => 0

def Amount.IsNumber (amount : Amount) : Prop := amount = .units amount.toUnits

instance (amount : Amount) : Decidable amount.IsNumber := inferInstanceAs (Decidable (_ = _))

/-- The units of the amounts, added up. -/
def unitsTotal (amounts : List Amount) : ℤ := (amounts.map Amount.toUnits).sum

/-- The amounts are numbers, with at most twenty digits together. -/
structure Summable (amounts : List Amount) : Prop where
  numbers : ∀ amount ∈ amounts, amount.IsNumber
  bounded : (amounts.map fun amount => |amount.toUnits|).sum < 10 ^ precision

instance (amounts : List Amount) : Decidable (Summable amounts) :=
  decidable_of_iff
    ((∀ amount ∈ amounts, amount.IsNumber) ∧
      (amounts.map fun amount => |amount.toUnits|).sum < 10 ^ precision)
    ⟨fun hboth => ⟨hboth.1, hboth.2⟩, fun hsummable => ⟨hsummable.numbers, hsummable.bounded⟩⟩

theorem Summable.perm {left right : List Amount} (hsummable : Summable left)
    (hperm : right.Perm left) : Summable right where
  numbers amount hamount := hsummable.numbers amount (hperm.subset hamount)
  bounded := by
    rw [(hperm.map _).sum_eq]
    exact hsummable.bounded

theorem unitsTotal_perm {left right : List Amount} (hperm : right.Perm left) :
    unitsTotal right = unitsTotal left :=
  (hperm.map _).sum_eq

@[simp]
theorem toFixed_ofUnits (units : ℤ) :
    (DecimalValue.number (ofUnits units)).toFixed = .units units := by
  rw [DecimalValue.toFixed, toFixed4_ofUnits]

theorem plus_units {left right : ℤ} (hbound : |left + right| < 10 ^ precision) :
    (DecimalValue.number (ofUnits left)).plus (.number (ofUnits right)) =
      .number (ofUnits (left + right)) := by
  rw [DecimalValue.plus, plus_ofUnits hbound]

theorem sum_abs_nonneg {Row : Type} (countOf : Row → ℤ) (rows : List Row) :
    0 ≤ (rows.map fun row => |countOf row|).sum := by
  refine List.sum_nonneg fun size hsize => ?_
  obtain ⟨row, -, rfl⟩ := List.mem_map.mp hsize
  exact abs_nonneg (countOf row)

theorem abs_le_sum_abs {Row : Type} (countOf : Row → ℤ) {row : Row} {rows : List Row}
    (hmem : row ∈ rows) : |countOf row| ≤ (rows.map fun row => |countOf row|).sum := by
  refine List.single_le_sum (fun size hsize => ?_) _ (List.mem_map_of_mem hmem)
  obtain ⟨other, -, rfl⟩ := List.mem_map.mp hsize
  exact abs_nonneg (countOf other)

/-- Rows that are summable together are summable apart. -/
theorem Summable.of_append {left right : List Amount} (hsummable : Summable (left ++ right)) :
    Summable left ∧ Summable right := by
  have hbound := hsummable.bounded
  rw [List.map_append, List.sum_append] at hbound
  have hleft := sum_abs_nonneg Amount.toUnits left
  have hright := sum_abs_nonneg Amount.toUnits right
  exact ⟨⟨fun amount hmem => hsummable.numbers amount (List.mem_append_left _ hmem), by omega⟩,
    ⟨fun amount hmem => hsummable.numbers amount (List.mem_append_right _ hmem), by omega⟩⟩

theorem value_of_isNumber {amount : Amount} (hnumber : amount.IsNumber) :
    amount.value = .number (ofUnits amount.toUnits) := by
  conv_lhs => rw [hnumber]
  rfl

theorem foldl_plus_units {amounts : List Amount} (start : ℤ)
    (hnumbers : ∀ amount ∈ amounts, amount.IsNumber)
    (hbound : |start| + (amounts.map fun amount => |amount.toUnits|).sum < 10 ^ precision) :
    amounts.foldl (fun total amount => total.plus amount.value)
        (DecimalValue.number (ofUnits start)) =
      .number (ofUnits (start + unitsTotal amounts)) := by
  induction amounts generalizing start with
  | nil => simp [unitsTotal]
  | cons amount rest ih =>
      have hrest := sum_abs_nonneg Amount.toUnits rest
      have hadd : |start + amount.toUnits| ≤ |start| + |amount.toUnits| := abs_add_le _ _
      rw [List.map_cons, List.sum_cons] at hbound
      rw [List.foldl_cons, value_of_isNumber (hnumbers amount List.mem_cons_self),
        plus_units (by omega),
        ih _ (fun other hother => hnumbers other (List.mem_cons_of_mem _ hother)) (by omega)]
      congr 2
      rw [unitsTotal, unitsTotal, List.map_cons, List.sum_cons, add_assoc]

/-- Sums of numbers are exact up to twenty digits, in every order. -/
theorem toFixed_sumDecimals {amounts : List Amount} (hsummable : Summable amounts) :
    (sumDecimals amounts).toFixed = .units (unitsTotal amounts) := by
  have hfold := foldl_plus_units 0 hsummable.numbers (by simpa using hsummable.bounded)
  rw [ofUnits_zero, zero_add] at hfold
  rw [sumDecimals, hfold, toFixed_ofUnits]

theorem columnSum_eq {amounts : List Amount} (hnumbers : ∀ amount ∈ amounts, amount.IsNumber) :
    columnSum amounts = .units (unitsTotal amounts) := by
  suffices hfold : ∀ start : ℤ, amounts.foldl Amount.add (.units start) =
      .units (start + unitsTotal amounts) by
    rw [columnSum, hfold 0, zero_add]
  induction amounts with
  | nil => simp [unitsTotal]
  | cons amount rest ih =>
      intro start
      have hadd : Amount.add (.units start) amount = .units (start + amount.toUnits) := by
        conv_lhs => rw [hnumbers amount List.mem_cons_self]
        rfl
      rw [List.foldl_cons, hadd,
        ih fun other hother => hnumbers other (List.mem_cons_of_mem _ hother)]
      congr 1
      rw [unitsTotal, unitsTotal, List.map_cons, List.sum_cons, add_assoc]

end StellarSettle.Amounts
