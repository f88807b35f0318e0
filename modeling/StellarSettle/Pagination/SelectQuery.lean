import StellarSettle.Core.OrderedRows

/-!
# Select queries

The part of TypeORM's `SelectQueryBuilder` that the listings use.  A condition that is given as
a text joins the others as it is written, so `AND` binds to the last alternative of an `OR`
that was given before it without brackets.  `orderBy` starts the ordering anew.
-/

namespace StellarSettle.SelectQuery

open StellarSettle.OrderedRows
open Std

inductive Direction where
  | asc
  | desc
  deriving DecidableEq, Repr

/-- How the database orders the rows of a table by a column, which is named by its path. -/
structure Columns (Row : Type*) where
  compareBy : String → Row → Row → Ordering
  ordered : ∀ column, TransCmp (compareBy column)

variable {Row : Type*}

def Columns.along (columns : Columns Row) (column : String) : Direction → Row → Row → Ordering
  | .asc, left, right => columns.compareBy column left right
  | .desc, left, right => columns.compareBy column right left

/-- The rows in the order of an `ORDER BY` list. -/
def Columns.compareRows (columns : Columns Row) :
    List (String × Direction) → Row → Row → Ordering
  | [] => fun _ _ => .eq
  | (column, direction) :: others =>
    compareLex (columns.along column direction) (columns.compareRows others)

theorem Columns.compareRows_pair (columns : Columns Row) (first second : String × Direction)
    (left right : Row) :
    columns.compareRows [first, second] left right =
      (columns.along first.1 first.2 left right).then
        (columns.along second.1 second.2 left right) := by
  calc
    columns.compareRows [first, second] left right =
        (columns.along first.1 first.2 left right).then
          ((columns.along second.1 second.2 left right).then .eq) := rfl
    _ = _ := by rw [Ordering.then_eq]

instance transCmp_along (columns : Columns Row) (column : String) (direction : Direction) :
    TransCmp (columns.along column direction) := by
  have := columns.ordered column
  cases direction with
  | asc => exact inferInstanceAs (TransCmp (columns.compareBy column))
  | desc => exact inferInstanceAs (TransCmp fun left right => columns.compareBy column right left)

instance transCmp_equal : TransCmp fun (_ _ : Row) => Ordering.eq where
  eq_swap := rfl
  isLE_trans _ _ := rfl

instance transCmp_compareRows (columns : Columns Row) (orderBys : List (String × Direction)) :
    TransCmp (columns.compareRows orderBys) := by
  induction orderBys with
  | nil => exact inferInstanceAs (TransCmp fun (_ _ : Row) => Ordering.eq)
  | cons head others ih => exact inferInstanceAs (TransCmp (compareLex _ _))

/-- A query over one table.  The last alternative of its `WHERE` is what `AND` extends. -/
structure SelectQueryBuilder (Row : Type*) where
  alternatives : List (Row → Bool)
  lastAlternative : Row → Bool
  orderBys : List (String × Direction)
  offset : ℕ
  limit : Option ℕ

namespace SelectQueryBuilder

/-- `createQueryBuilder(alias).where(condition)`. -/
def whereOnly (condition : Row → Bool) : SelectQueryBuilder Row where
  alternatives := []
  lastAlternative := condition
  orderBys := []
  offset := 0
  limit := none

/-- `createQueryBuilder(alias).where("first OR second")`. -/
def whereEither (first second : Row → Bool) : SelectQueryBuilder Row :=
  { whereOnly second with alternatives := [first] }

variable (query : SelectQueryBuilder Row)

def andWhere (condition : Row → Bool) : SelectQueryBuilder Row :=
  { query with lastAlternative := fun row => query.lastAlternative row && condition row }

def orderBy (column : String) (direction : Direction) : SelectQueryBuilder Row :=
  { query with orderBys := [(column, direction)] }

/-- A column that is ordered by already keeps its place and takes the new direction. -/
def addOrderBy (column : String) (direction : Direction) : SelectQueryBuilder Row :=
  { query with
    orderBys :=
      if query.orderBys.any fun known => known.1 = column then
        query.orderBys.map fun known => if known.1 = column then (column, direction) else known
      else query.orderBys ++ [(column, direction)] }

def skip (count : ℕ) : SelectQueryBuilder Row := { query with offset := count }

def take (count : ℕ) : SelectQueryBuilder Row := { query with limit := some count }

def accepts (row : Row) : Bool :=
  (query.alternatives.any fun alternative => alternative row) || query.lastAlternative row

/-- The rows that the query selects, before it is cut. -/
def selected (columns : Columns Row) (table : List Row) : List Row :=
  sortRows (columns.compareRows query.orderBys) (table.filter query.accepts)

def getMany (columns : Columns Row) (table : List Row) : List Row :=
  match query.limit with
  | none => (query.selected columns table).drop query.offset
  | some count => ((query.selected columns table).drop query.offset).take count

variable {query}

theorem getMany_take (columns : Columns Row) (table : List Row) (count : ℕ)
    (hoffset : query.offset = 0) :
    (query.take count).getMany columns table = (query.selected columns table).take count := by
  change ((query.selected columns table).drop query.offset).take count = _
  rw [hoffset, List.drop_zero]

/-- A condition that `AND` adds does not bind the alternatives before the last one. -/
theorem accepts_andWhere_or (condition : Row → Bool) (row : Row) :
    (query.andWhere condition).accepts row = (query.accepts row &&
      ((query.alternatives.any fun alternative => alternative row) || condition row)) :=
  Bool.or_and_distrib_left ..

theorem accepts_andWhere (condition : Row → Bool) (hplain : query.alternatives = []) (row : Row) :
    (query.andWhere condition).accepts row = (query.accepts row && condition row) := by
  rw [accepts_andWhere_or, hplain, List.any_nil, Bool.false_or]

/-- A second column that differs from the first breaks the ties of the first. -/
theorem orderBys_orderBy_addOrderBy {column tiebreaker : String} {order : Direction}
    (hdiffer : column ≠ tiebreaker) (direction : Direction) :
    ((query.orderBy column order).addOrderBy tiebreaker direction).orderBys =
      [(column, order), (tiebreaker, direction)] := by
  simp [addOrderBy, orderBy, hdiffer]

end SelectQueryBuilder

end StellarSettle.SelectQuery
