import Mathlib.Data.List.Sort
import StellarSettle.Core.Checks
import StellarSettle.Core.OwnershipRegistry
import StellarSettle.Core.TransitionSystem
import StellarSettle.Model.Entities

/-!
# The payment-claims migration

The migration gives every Stellar payment operation that the two tables carry
one claim row, and its triggers keep the claims in step with later inserts and
updates.  Of both tables only the columns that the migration reads are kept; the
other constraints of the tables can only abort further statements.  `upper`
changes the ASCII letters, which are the letters a hexadecimal hash has.
-/

namespace StellarSettle.StellarPaymentClaims

open StellarSettle.Checks
open StellarSettle.Entities
open StellarSettle.OwnershipRegistry
open StellarSettle.TransitionSystem

/-! ## Rows -/

/-- The primary key of `stellar_payment_claims`. -/
structure PaymentOperation where
  stellarTxHash : String
  stellarOperationIndex : ℤ
  deriving DecidableEq, Repr

/-- The other two columns of a claim row. -/
structure PaymentClaimant where
  investmentId : Option Uuid
  transactionId : Option Uuid
  deriving DecidableEq, Repr

abbrev PaymentClaims := Registry PaymentOperation PaymentClaimant

structure InvestmentRow where
  id : Uuid
  transactionHash : Option String
  stellarOperationIndex : Option ℤ
  deriving DecidableEq, Repr

structure TransactionRow where
  id : Uuid
  investmentId : Option Uuid
  stellarTxHash : Option String
  stellarOperationIndex : Option ℤ
  deriving DecidableEq, Repr

structure Tables where
  investments : List InvestmentRow
  transactions : List TransactionRow
  stellarPaymentClaims : PaymentClaims
  deriving DecidableEq, Repr

def upper (text : String) : String := text.toUpper

theorem toList_upper (text : String) : (upper text).toList = text.toList.map Char.toUpper := by
  rw [upper, String.toUpper, String.toList_map]

/-- An SQLSTATE and its message. -/
structure SqlError where
  code : String
  message : String
  deriving DecidableEq, Repr

def linkedToMultipleOwners : SqlError :=
  { code := "P0001"
    message := "Existing Stellar transaction operations are linked to multiple owners; " ++
      "resolve duplicates before applying this migration." }

def alreadyClaimed : SqlError :=
  { code := "23505", message := "Stellar payment operation is already claimed" }

/-! ## The check and the backfill -/

/-- The texts `'investment:' || id` and `'transaction:' || id`. -/
inductive Owner where
  | investment (id : Uuid)
  | transaction (id : Uuid)
  deriving DecidableEq, Repr

/-- The order of the two texts. -/
def Owner.atMost : Owner → Owner → Bool
  | .investment first, .investment second => decide (first ≤ second)
  | .investment _, .transaction _ => true
  | .transaction _, .investment _ => false
  | .transaction first, .transaction second => decide (first ≤ second)

/-- A row of the query `payment_owners`. -/
structure PaymentOwnerRow where
  operation : PaymentOperation
  claimant : PaymentClaimant
  owner : Owner
  deriving DecidableEq, Repr

def investmentPaymentOwner (row : InvestmentRow) : Option PaymentOwnerRow :=
  row.transactionHash.bind fun hash => row.stellarOperationIndex.map fun index =>
    { operation := ⟨upper hash, index⟩
      claimant := ⟨some row.id, none⟩
      owner := .investment row.id }

def transactionPaymentOwner (row : TransactionRow) : Option PaymentOwnerRow :=
  row.stellarTxHash.bind fun hash => row.stellarOperationIndex.map fun index =>
    { operation := ⟨upper hash, index⟩
      claimant := ⟨row.investmentId, if row.investmentId = none then some row.id else none⟩
      owner :=
        match row.investmentId with
        | none => .transaction row.id
        | some investmentId => .investment investmentId }

def paymentOwners (investments : List InvestmentRow) (transactions : List TransactionRow) :
    List PaymentOwnerRow :=
  investments.filterMap investmentPaymentOwner ++ transactions.filterMap transactionPaymentOwner

/-- `ORDER BY tx_hash, operation_index, owner`. -/
def PaymentOwnerRow.Precedes (first second : PaymentOwnerRow) : Prop :=
  first.operation.stellarTxHash < second.operation.stellarTxHash ∨
    first.operation.stellarTxHash = second.operation.stellarTxHash ∧
      (first.operation.stellarOperationIndex < second.operation.stellarOperationIndex ∨
        first.operation.stellarOperationIndex = second.operation.stellarOperationIndex ∧
          first.owner.atMost second.owner = true)

instance : DecidableRel PaymentOwnerRow.Precedes :=
  fun _ _ => inferInstanceAs (Decidable (_ ∨ _))

/-- `SELECT DISTINCT ON (tx_hash, operation_index) ...`. -/
def uniqueOwners (rows : List PaymentOwnerRow) : PaymentClaims :=
  distinctKeys ((rows.insertionSort PaymentOwnerRow.Precedes).map fun row =>
    (row.operation, row.claimant))

/-- The migration, up to the functions and triggers it creates. -/
def up (investments : List InvestmentRow) (transactions : List TransactionRow) :
    Except SqlError Tables := do
  let rows := paymentOwners investments transactions
  throwIf (hasSharedKey (rows.map fun row => (row.operation, row.owner)) = true)
    linkedToMultipleOwners
  return {
    investments := investments
    transactions := transactions
    stellarPaymentClaims := uniqueOwners rows }

/-! ## The triggers -/

/-- `claim_stellar_payment_operation`. -/
def claimStellarPaymentOperation (claims : PaymentClaims) (paymentHash : Option String)
    (operationIndex : Option ℤ) (claimant : PaymentClaimant) :
    Except SqlError PaymentClaims :=
  match paymentHash, operationIndex with
  | some hash, some index => orThrow (claim claims ⟨upper hash, index⟩ claimant) alreadyClaimed
  | _, _ => .ok claims

def claimStellarInvestmentPayment (claims : PaymentClaims) (new : InvestmentRow) :
    Except SqlError PaymentClaims :=
  claimStellarPaymentOperation claims new.transactionHash new.stellarOperationIndex
    ⟨some new.id, none⟩

def claimStellarTransactionPayment (claims : PaymentClaims) (new : TransactionRow) :
    Except SqlError PaymentClaims :=
  claimStellarPaymentOperation claims new.stellarTxHash new.stellarOperationIndex
    ⟨new.investmentId, if new.investmentId = none then some new.id else none⟩

/-! ## Statements -/

/-- An `UPDATE`: the rows it matches, and the expression of every column that its
`SET` list names. -/
structure InvestmentUpdate where
  matching : InvestmentRow → Bool
  id : Option (InvestmentRow → Uuid) := none
  transactionHash : Option (InvestmentRow → Option String) := none
  stellarOperationIndex : Option (InvestmentRow → Option ℤ) := none

/-- `UPDATE OF "transaction_hash", "stellar_operation_index"`. -/
def InvestmentUpdate.fires (update : InvestmentUpdate) : Bool :=
  update.transactionHash.isSome || update.stellarOperationIndex.isSome

def InvestmentUpdate.new (update : InvestmentUpdate) (row : InvestmentRow) : InvestmentRow :=
  { id := (update.id.map fun value => value row).getD row.id
    transactionHash :=
      (update.transactionHash.map fun value => value row).getD row.transactionHash
    stellarOperationIndex :=
      (update.stellarOperationIndex.map fun value => value row).getD row.stellarOperationIndex }

structure TransactionUpdate where
  matching : TransactionRow → Bool
  id : Option (TransactionRow → Uuid) := none
  investmentId : Option (TransactionRow → Option Uuid) := none
  stellarTxHash : Option (TransactionRow → Option String) := none
  stellarOperationIndex : Option (TransactionRow → Option ℤ) := none

/-- `UPDATE OF "stellar_tx_hash", "stellar_operation_index", "investment_id"`. -/
def TransactionUpdate.fires (update : TransactionUpdate) : Bool :=
  update.stellarTxHash.isSome || update.stellarOperationIndex.isSome ||
    update.investmentId.isSome

def TransactionUpdate.new (update : TransactionUpdate) (row : TransactionRow) :
    TransactionRow :=
  { id := (update.id.map fun value => value row).getD row.id
    investmentId := (update.investmentId.map fun value => value row).getD row.investmentId
    stellarTxHash := (update.stellarTxHash.map fun value => value row).getD row.stellarTxHash
    stellarOperationIndex :=
      (update.stellarOperationIndex.map fun value => value row).getD row.stellarOperationIndex }

inductive Statement where
  | insertInvestments (rows : List InvestmentRow)
  | updateInvestments (update : InvestmentUpdate)
  | insertTransactions (rows : List TransactionRow)
  | updateTransactions (update : TransactionUpdate)

/-- The rows of an `UPDATE` that it changes, as it leaves them. -/
def changedRows {Row : Type} (matching : Row → Bool) (new : Row → Row) (rows : List Row) :
    List Row :=
  (rows.filter matching).map new

def updatedRows {Row : Type} (matching : Row → Bool) (new : Row → Row) (rows : List Row) :
    List Row :=
  rows.map fun row => if matching row then new row else row

/-- One statement with the triggers installed: `BEFORE` each row, the trigger
claims its operation. -/
def execute (tables : Tables) : Statement → Except SqlError Tables
  | .insertInvestments rows => do
      let claims ← rows.foldlM claimStellarInvestmentPayment tables.stellarPaymentClaims
      return { tables with
        investments := tables.investments ++ rows
        stellarPaymentClaims := claims }
  | .updateInvestments update => do
      let fired := if update.fires then
        changedRows update.matching update.new tables.investments else []
      let claims ← fired.foldlM claimStellarInvestmentPayment tables.stellarPaymentClaims
      return { tables with
        investments := updatedRows update.matching update.new tables.investments
        stellarPaymentClaims := claims }
  | .insertTransactions rows => do
      let claims ← rows.foldlM claimStellarTransactionPayment tables.stellarPaymentClaims
      return { tables with
        transactions := tables.transactions ++ rows
        stellarPaymentClaims := claims }
  | .updateTransactions update => do
      let fired := if update.fires then
        changedRows update.matching update.new tables.transactions else []
      let claims ← fired.foldlM claimStellarTransactionPayment tables.stellarPaymentClaims
      return { tables with
        transactions := updatedRows update.matching update.new tables.transactions
        stellarPaymentClaims := claims }

/-- A statement whose trigger raises changes nothing. -/
def step (tables : Tables) (statement : Statement) : Option Tables :=
  match execute tables statement with
  | .error _ => some tables
  | .ok after => some after

/-! ## Who owns an operation -/

/-- The payment operation that a row carries, if both its columns are set. -/
def paymentOperation (hash : Option String) (index : Option ℤ) : Option PaymentOperation :=
  hash.bind fun hash => index.map fun index => ⟨upper hash, index⟩

def InvestmentRow.operation (row : InvestmentRow) : Option PaymentOperation :=
  paymentOperation row.transactionHash row.stellarOperationIndex

def TransactionRow.operation (row : TransactionRow) : Option PaymentOperation :=
  paymentOperation row.stellarTxHash row.stellarOperationIndex

def InvestmentRow.owner (row : InvestmentRow) : Owner := .investment row.id

/-- A linked transaction belongs to its investment, another one to itself. -/
def TransactionRow.owner (row : TransactionRow) : Owner :=
  match row.investmentId with
  | none => .transaction row.id
  | some investmentId => .investment investmentId

/-- The claim columns that name an owner. -/
def Owner.claimant : Owner → PaymentClaimant
  | .investment id => ⟨some id, none⟩
  | .transaction id => ⟨none, some id⟩

/-- The operations that the rows of both tables carry, with their owners. -/
def payments (investments : List InvestmentRow) (transactions : List TransactionRow) :
    List (PaymentOperation × Owner) :=
  (investments.filterMap fun row => row.operation.map fun operation => (operation, row.owner)) ++
    transactions.filterMap fun row => row.operation.map fun operation => (operation, row.owner)

def Tables.payments (tables : Tables) : List (PaymentOperation × Owner) :=
  StellarPaymentClaims.payments tables.investments tables.transactions

/-- Every row that carries an operation has a claim row that names its owner. -/
structure ClaimsNameOwners (tables : Tables) : Prop where
  investments : ∀ row ∈ tables.investments, ∀ operation ∈ row.operation,
    ownerOf tables.stellarPaymentClaims operation = some row.owner.claimant
  transactions : ∀ row ∈ tables.transactions, ∀ operation ∈ row.operation,
    ownerOf tables.stellarPaymentClaims operation = some row.owner.claimant

theorem Owner.claimant_injective : Function.Injective Owner.claimant := by
  intro first second hsame
  cases first <;> cases second <;> simp_all [Owner.claimant]

/-- The three spellings of the ownership rule agree. -/
theorem investmentPaymentOwner_eq (row : InvestmentRow) :
    investmentPaymentOwner row = row.operation.map fun operation =>
      ⟨operation, row.owner.claimant, row.owner⟩ := by
  cases hhash : row.transactionHash <;> cases hindex : row.stellarOperationIndex <;>
    simp [investmentPaymentOwner, InvestmentRow.operation, paymentOperation, hhash, hindex,
      InvestmentRow.owner, Owner.claimant]

theorem claimant_transactionOwner (row : TransactionRow) :
    (⟨row.investmentId, if row.investmentId = none then some row.id else none⟩ :
      PaymentClaimant) = row.owner.claimant := by
  cases hlinked : row.investmentId <;> simp [TransactionRow.owner, hlinked, Owner.claimant]

theorem transactionPaymentOwner_eq (row : TransactionRow) :
    transactionPaymentOwner row = row.operation.map fun operation =>
      ⟨operation, row.owner.claimant, row.owner⟩ := by
  rw [transactionPaymentOwner, claimant_transactionOwner]
  cases hhash : row.stellarTxHash <;> cases hindex : row.stellarOperationIndex <;>
    simp [TransactionRow.operation, paymentOperation, hhash, hindex, TransactionRow.owner]

theorem claimStellarPaymentOperation_eq (claims : PaymentClaims) (hash : Option String)
    (index : Option ℤ) (claimant : PaymentClaimant) :
    claimStellarPaymentOperation claims hash index claimant =
      orThrow (claimAll claims ((paymentOperation hash index).map fun operation =>
        (operation, claimant)).toList) alreadyClaimed := by
  cases hash with
  | none => rfl
  | some hash =>
      cases index with
      | none => rfl
      | some index =>
          simp only [claimStellarPaymentOperation, paymentOperation, Option.bind_some,
            Option.map_some, Option.toList_some, claimAll]
          cases claim claims ⟨upper hash, index⟩ claimant <;> rfl

/-- The claims a row needs: one for its operation, if it carries one. -/
def InvestmentRow.demand (row : InvestmentRow) : Option (PaymentOperation × PaymentClaimant) :=
  row.operation.map fun operation => (operation, row.owner.claimant)

def TransactionRow.demand (row : TransactionRow) : Option (PaymentOperation × PaymentClaimant) :=
  row.operation.map fun operation => (operation, row.owner.claimant)

theorem claimStellarInvestmentPayment_eq (claims : PaymentClaims) (row : InvestmentRow) :
    claimStellarInvestmentPayment claims row =
      orThrow (claimAll claims row.demand.toList) alreadyClaimed :=
  claimStellarPaymentOperation_eq _ _ _ _

theorem claimStellarTransactionPayment_eq (claims : PaymentClaims) (row : TransactionRow) :
    claimStellarTransactionPayment claims row =
      orThrow (claimAll claims row.demand.toList) alreadyClaimed := by
  rw [claimStellarTransactionPayment, claimStellarPaymentOperation_eq, claimant_transactionOwner]
  rfl

section Rows

variable {Row : Type} {demand : Row → Option (PaymentOperation × PaymentClaimant)}
  {trigger : PaymentClaims → Row → Except SqlError PaymentClaims} {claims after : PaymentClaims}

/-- A statement whose triggers all pass has claimed the operations of its rows. -/
theorem claimAll_of_foldlM (htrigger : ∀ claims row,
      trigger claims row = orThrow (claimAll claims (demand row).toList) alreadyClaimed)
    {rows : List Row} (hok : rows.foldlM trigger claims = .ok after) :
    claimAll claims (rows.filterMap demand) = some after := by
  induction rows generalizing claims with
  | nil =>
      obtain rfl := Except.ok.inj hok
      rfl
  | cons row rest ih =>
      obtain ⟨next, hnext, hrest⟩ := bind_eq_ok.mp hok
      rw [htrigger, orThrow_eq_ok] at hnext
      cases hdemand : demand row with
      | none =>
          rw [hdemand] at hnext
          obtain rfl := Option.some.inj hnext
          rw [List.filterMap_cons_none hdemand]
          exact ih hrest
      | some operation =>
          rw [hdemand] at hnext
          rw [List.filterMap_cons_some hdemand, ← List.singleton_append, claimAll_append]
          exact Option.bind_eq_some_iff.mpr ⟨next, hnext, ih hrest⟩

/-- Every row of a table has its operation claimed. -/
def Claimed (demand : Row → Option (PaymentOperation × PaymentClaimant)) (claims : PaymentClaims)
    (rows : List Row) : Prop :=
  Registered claims (rows.filterMap demand)

theorem claimed_iff {rows : List Row} :
    Claimed demand claims rows ↔ ∀ row ∈ rows, ∀ entry ∈ demand row,
      ownerOf claims entry.1 = some entry.2 := by
  simp only [Claimed, Registered, List.mem_filterMap]
  constructor
  · intro hclaimed row hrow entry hentry
    exact hclaimed entry ⟨row, hrow, hentry⟩
  · rintro hclaimed entry ⟨row, hrow, hentry⟩
    exact hclaimed row hrow entry hentry

/-- An insert claims the operations of the new rows and disturbs no other claim. -/
theorem Claimed.insert (htrigger : ∀ claims row,
      trigger claims row = orThrow (claimAll claims (demand row).toList) alreadyClaimed)
    {rows new : List Row} (hclaimed : Claimed demand claims rows)
    (hok : new.foldlM trigger claims = .ok after) :
    Extends claims after ∧ Claimed demand after (rows ++ new) := by
  obtain ⟨hextends, hnew⟩ := extends_claimAll (claimAll_of_foldlM htrigger hok)
  refine ⟨hextends, claimed_iff.mpr fun row hmem entry hentry => ?_⟩
  rcases List.mem_append.mp hmem with hold | hadded
  · exact hextends.keeps _ _ (claimed_iff.mp hclaimed row hold entry hentry)
  · exact hnew entry (List.mem_filterMap.mpr ⟨row, hadded, hentry⟩)

/-- An update claims the operations of the rows it changes, unless it changes none
of their claims. -/
theorem Claimed.update (htrigger : ∀ claims row,
      trigger claims row = orThrow (claimAll claims (demand row).toList) alreadyClaimed)
    {rows : List Row} {matching : Row → Bool} {new : Row → Row} {fires : Bool}
    (hkept : fires = false → ∀ row ∈ rows, matching row = true → demand (new row) = demand row)
    (hclaimed : Claimed demand claims rows)
    (hok : (if fires then changedRows matching new rows else []).foldlM trigger claims =
      .ok after) :
    Extends claims after ∧ Claimed demand after (updatedRows matching new rows) := by
  obtain ⟨hextends, hnew⟩ := extends_claimAll (claimAll_of_foldlM htrigger hok)
  refine ⟨hextends, claimed_iff.mpr fun updated hmem entry hentry => ?_⟩
  obtain ⟨row, hrow, rfl⟩ := List.mem_map.mp hmem
  have hold : ∀ entry ∈ demand row, ownerOf after entry.1 = some entry.2 := fun entry hentry =>
    hextends.keeps _ _ (claimed_iff.mp hclaimed row hrow entry hentry)
  by_cases hmatching : matching row = true
  · rw [if_pos hmatching] at hentry
    cases hfires : fires with
    | false => exact hold entry (hkept hfires row hrow hmatching ▸ hentry)
    | true =>
        rw [if_pos hfires] at hnew
        refine hnew entry (List.mem_filterMap.mpr ⟨new row, ?_, hentry⟩)
        exact List.mem_map_of_mem (List.mem_filter.mpr ⟨hrow, hmatching⟩)
  · rw [if_neg hmatching] at hentry
    exact hold entry hentry

end Rows

/-! ## The invariant -/

structure Invariant (tables : Tables) : Prop where
  unique : UniqueKeys tables.stellarPaymentClaims
  investments : Claimed InvestmentRow.demand tables.stellarPaymentClaims tables.investments
  transactions : Claimed TransactionRow.demand tables.stellarPaymentClaims tables.transactions

theorem payments_eq (investments : List InvestmentRow) (transactions : List TransactionRow) :
    (paymentOwners investments transactions).map (fun row => (row.operation, row.owner)) =
      payments investments transactions := by
  simp only [paymentOwners, payments, List.map_append, List.map_filterMap,
    investmentPaymentOwner_eq, transactionPaymentOwner_eq, Option.map_map, Function.comp_def]

/-- The same rows with the claim columns in place of the owner. -/
theorem demands_eq (investments : List InvestmentRow) (transactions : List TransactionRow) :
    (paymentOwners investments transactions).map (fun row => (row.operation, row.claimant)) =
      investments.filterMap InvestmentRow.demand ++
        transactions.filterMap TransactionRow.demand := by
  simp only [paymentOwners, List.map_append, List.map_filterMap, investmentPaymentOwner_eq,
    transactionPaymentOwner_eq, Option.map_map, Function.comp_def]
  rfl

theorem claimant_of_mem_paymentOwners {investments : List InvestmentRow}
    {transactions : List TransactionRow} {row : PaymentOwnerRow}
    (hmem : row ∈ paymentOwners investments transactions) :
    row.claimant = row.owner.claimant := by
  rcases List.mem_append.mp hmem with hrow | hrow
  · obtain ⟨investment, _, hrow⟩ := List.mem_filterMap.mp hrow
    rw [investmentPaymentOwner_eq] at hrow
    obtain ⟨operation, _, rfl⟩ := Option.map_eq_some_iff.mp hrow
    rfl
  · obtain ⟨transaction, _, hrow⟩ := List.mem_filterMap.mp hrow
    rw [transactionPaymentOwner_eq] at hrow
    obtain ⟨operation, _, rfl⟩ := Option.map_eq_some_iff.mp hrow
    rfl

/-- The migration aborts exactly on a conflict, and otherwise backfills a claim for
every row. -/
theorem up_error_iff (investments : List InvestmentRow) (transactions : List TransactionRow) :
    (∃ error, up investments transactions = .error error) ↔
      Conflicting (payments investments transactions) := by
  rw [← payments_eq, ← hasSharedKey_iff]
  simp [up]

theorem invariant_up {investments : List InvestmentRow} {transactions : List TransactionRow}
    {migrated : Tables} (hok : up investments transactions = .ok migrated) :
    Invariant migrated := by
  obtain ⟨_, hcheck, hmigrated⟩ := bind_eq_ok.mp hok
  obtain rfl := pure_eq_ok.mp hmigrated
  rw [throwIf_eq_ok, hasSharedKey_iff] at hcheck
  have hclear : ¬Conflicting ((paymentOwners investments transactions).map fun row =>
      (row.operation, row.claimant)) := by
    rintro ⟨_, hmemFirst, _, hmemSecond, hkey, hclaimant⟩
    obtain ⟨first, hfirst, rfl⟩ := List.mem_map.mp hmemFirst
    obtain ⟨second, hsecond, rfl⟩ := List.mem_map.mp hmemSecond
    refine hcheck ⟨_, List.mem_map_of_mem hfirst, _, List.mem_map_of_mem hsecond, hkey,
      fun hsame => hclaimant ?_⟩
    change first.claimant = second.claimant
    rw [claimant_of_mem_paymentOwners hfirst, claimant_of_mem_paymentOwners hsecond]
    exact congrArg Owner.claimant hsame
  have hregistered : Registered (uniqueOwners (paymentOwners investments transactions))
      ((paymentOwners investments transactions).map fun row => (row.operation, row.claimant)) := by
    refine registered_distinctKeys (fun entry => ?_) hclear
    simp only [List.mem_map, List.mem_insertionSort]
  rw [demands_eq] at hregistered
  exact ⟨uniqueKeys_distinctKeys _,
    fun entry hmem => hregistered entry (List.mem_append_left _ hmem),
    fun entry hmem => hregistered entry (List.mem_append_right _ hmem)⟩

/-- An update whose trigger does not fire leaves the keys of the rows alone. -/
def KeepsKeys (tables : Tables) : Statement → Prop
  | .insertInvestments _ => True
  | .updateInvestments update => update.fires = true ∨
      ∀ row ∈ tables.investments, update.matching row = true → (update.new row).id = row.id
  | .insertTransactions _ => True
  | .updateTransactions update => update.fires = true ∨
      ∀ row ∈ tables.transactions, update.matching row = true → (update.new row).id = row.id

theorem demand_investmentUpdate {update : InvestmentUpdate} {row : InvestmentRow}
    (hfires : update.fires = false) (hid : (update.new row).id = row.id) :
    (update.new row).demand = row.demand := by
  simp only [InvestmentUpdate.fires, Bool.or_eq_false_iff, Option.isSome_eq_false_iff,
    Option.isNone_iff_eq_none] at hfires
  simp only [InvestmentRow.demand, InvestmentRow.operation, InvestmentRow.owner, hid]
  simp [InvestmentUpdate.new, hfires]

theorem demand_transactionUpdate {update : TransactionUpdate} {row : TransactionRow}
    (hfires : update.fires = false) (hid : (update.new row).id = row.id) :
    (update.new row).demand = row.demand := by
  simp only [TransactionUpdate.fires, Bool.or_eq_false_iff, Option.isSome_eq_false_iff,
    Option.isNone_iff_eq_none] at hfires
  simp only [TransactionRow.demand, TransactionRow.operation, TransactionRow.owner, hid]
  simp [TransactionUpdate.new, hfires]

theorem Invariant.execute {tables after : Tables} {statement : Statement}
    (hinvariant : Invariant tables) (hkeys : KeepsKeys tables statement)
    (hok : execute tables statement = .ok after) : Invariant after := by
  obtain ⟨hunique, hinvestments, htransactions⟩ := hinvariant
  cases statement with
  | insertInvestments rows =>
      obtain ⟨claims, hclaims, hafter⟩ := bind_eq_ok.mp hok
      obtain rfl := pure_eq_ok.mp hafter
      obtain ⟨hextends, hclaimed⟩ :=
        hinvestments.insert claimStellarInvestmentPayment_eq hclaims
      exact ⟨hextends.unique hunique, hclaimed, hextends.registered htransactions⟩
  | updateInvestments update =>
      obtain ⟨claims, hclaims, hafter⟩ := bind_eq_ok.mp hok
      obtain rfl := pure_eq_ok.mp hafter
      obtain ⟨hextends, hclaimed⟩ := hinvestments.update claimStellarInvestmentPayment_eq
        (fun hfires row hrow hmatching => demand_investmentUpdate hfires
          (hkeys.resolve_left (by simp [hfires]) row hrow hmatching)) hclaims
      exact ⟨hextends.unique hunique, hclaimed, hextends.registered htransactions⟩
  | insertTransactions rows =>
      obtain ⟨claims, hclaims, hafter⟩ := bind_eq_ok.mp hok
      obtain rfl := pure_eq_ok.mp hafter
      obtain ⟨hextends, hclaimed⟩ :=
        htransactions.insert claimStellarTransactionPayment_eq hclaims
      exact ⟨hextends.unique hunique, hextends.registered hinvestments, hclaimed⟩
  | updateTransactions update =>
      obtain ⟨claims, hclaims, hafter⟩ := bind_eq_ok.mp hok
      obtain rfl := pure_eq_ok.mp hafter
      obtain ⟨hextends, hclaimed⟩ := htransactions.update claimStellarTransactionPayment_eq
        (fun hfires row hrow hmatching => demand_transactionUpdate hfires
          (hkeys.resolve_left (by simp [hfires]) row hrow hmatching)) hclaims
      exact ⟨hextends.unique hunique, hextends.registered hinvestments, hclaimed⟩

theorem Invariant.step {tables after : Tables} {statement : Statement}
    (hinvariant : Invariant tables) (hkeys : KeepsKeys tables statement)
    (hstep : step tables statement = some after) : Invariant after := by
  unfold StellarPaymentClaims.step at hstep
  split at hstep
  · obtain rfl := Option.some.inj hstep
    exact hinvariant
  · rename_i hok
    obtain rfl := Option.some.inj hstep
    exact hinvariant.execute hkeys hok

theorem Invariant.claimsNameOwners {tables : Tables} (hinvariant : Invariant tables) :
    ClaimsNameOwners tables where
  investments := fun row hrow operation hoperation =>
    claimed_iff.mp hinvariant.investments row hrow (operation, row.owner.claimant)
      (Option.map_eq_some_iff.mpr ⟨operation, hoperation, rfl⟩)
  transactions := fun row hrow operation hoperation =>
    claimed_iff.mp hinvariant.transactions row hrow (operation, row.owner.claimant)
      (Option.map_eq_some_iff.mpr ⟨operation, hoperation, rfl⟩)

/-- Rows with different owners never carry the same operation. -/
theorem ClaimsNameOwners.not_conflicting {tables : Tables} (hnames : ClaimsNameOwners tables) :
    ¬Conflicting tables.payments := by
  have hclaimed : ∀ entry ∈ tables.payments,
      ownerOf tables.stellarPaymentClaims entry.1 = some entry.2.claimant := by
    intro entry hmem
    rcases List.mem_append.mp hmem with hmem | hmem
    · obtain ⟨row, hrow, hentry⟩ := List.mem_filterMap.mp hmem
      obtain ⟨operation, hoperation, rfl⟩ := Option.map_eq_some_iff.mp hentry
      exact hnames.investments row hrow operation hoperation
    · obtain ⟨row, hrow, hentry⟩ := List.mem_filterMap.mp hmem
      obtain ⟨operation, hoperation, rfl⟩ := Option.map_eq_some_iff.mp hentry
      exact hnames.transactions row hrow operation hoperation
  rintro ⟨first, hfirst, second, hsecond, hkey, howner⟩
  have hsame := hclaimed second hsecond
  rw [← hkey, hclaimed first hfirst] at hsame
  exact howner (Owner.claimant_injective (Option.some.inj hsame))

/-- The migration aborts exactly when an operation has two owners; after it the
claims name the owners of all rows, through every sequence of statements. -/
theorem claims_follow_rows (investments : List InvestmentRow)
    (transactions : List TransactionRow) :
    ((∃ error, up investments transactions = .error error) ↔
      Conflicting (payments investments transactions)) ∧
    ∀ migrated, up investments transactions = .ok migrated →
      ∀ statements last, GuardedRun step KeepsKeys migrated statements last →
        ClaimsNameOwners last ∧ UniqueKeys last.stellarPaymentClaims ∧
          ¬Conflicting last.payments := by
  refine ⟨up_error_iff investments transactions, fun migrated hok statements last hrun => ?_⟩
  have hinvariant : Invariant last := hrun.invariant
    (fun hkeys hstep hinvariant => hinvariant.step hkeys hstep) (invariant_up hok)
  have hnames := hinvariant.claimsNameOwners
  exact ⟨hnames, hinvariant.unique, hnames.not_conflicting⟩

/-! ## A renamed investment, and a claimed hash in another case -/

def paidInvestment : InvestmentRow :=
  { id := 1, transactionHash := some "a1b2", stellarOperationIndex := some 0 }

def migratedTables : Tables :=
  { investments := [paidInvestment]
    transactions := []
    stellarPaymentClaims := [(⟨"A1B2", 0⟩, ⟨some 1, none⟩)] }

theorem up_paidInvestment : up [paidInvestment] [] = .ok migratedTables := by decide +kernel

/-- An update of the primary key fires no trigger, and the old key is free again. -/
def investmentRenamed : List Statement :=
  [.updateInvestments { matching := fun row => row.id == 1, id := some fun _ => 2 },
    .insertInvestments [paidInvestment]]

theorem renamedInvestment_unclaimed :
    ∃ last, up [paidInvestment] [] = .ok migratedTables ∧
      Run step migratedTables investmentRenamed last ∧ ¬ClaimsNameOwners last ∧
      Conflicting last.payments := by
  have hexec : exec step migratedTables investmentRenamed =
      some { migratedTables with
        investments := [{ paidInvestment with id := 2 }, paidInvestment] } := by
    decide +kernel
  refine ⟨_, up_paidInvestment, run_of_exec hexec, fun hnames => ?_, by decide +kernel⟩
  have hclaim := hnames.investments { paidInvestment with id := 2 } List.mem_cons_self
    ⟨upper "a1b2", 0⟩ rfl
  revert hclaim
  decide +kernel

/-- A transaction of its own takes another operation, is linked to the investment,
and fails to take the investment's hash in upper case before that. -/
def transactionLinked : List Statement :=
  [.insertTransactions [⟨5, none, some "c3d4", some 0⟩],
    .updateTransactions
      { matching := fun row => row.id == 5, stellarTxHash := some fun _ => some "A1B2" },
    .updateTransactions
      { matching := fun row => row.id == 5
        investmentId := some fun _ => some 1
        stellarTxHash := some fun _ => some "A1B2" }]

instance (tables : Tables) : (statement : Statement) → Decidable (KeepsKeys tables statement)
  | .insertInvestments _ => isTrue trivial
  | .updateInvestments _ => inferInstanceAs (Decidable (_ ∨ ∀ row ∈ tables.investments, _))
  | .insertTransactions _ => isTrue trivial
  | .updateTransactions _ => inferInstanceAs (Decidable (_ ∨ ∀ row ∈ tables.transactions, _))

theorem linkedTransaction_claimed :
    ∃ last, GuardedRun step KeepsKeys migratedTables transactionLinked last ∧
      last.transactions = [⟨5, some 1, some "A1B2", some 0⟩] ∧ ClaimsNameOwners last ∧
      ¬Conflicting (payments [paidInvestment] []) := by
  have hrun : GuardedRun step KeepsKeys migratedTables transactionLinked
      { migratedTables with
        transactions := [⟨5, some 1, some "A1B2", some 0⟩]
        stellarPaymentClaims :=
          [(⟨"A1B2", 0⟩, ⟨some 1, none⟩), (⟨"C3D4", 0⟩, ⟨none, some 5⟩)] } :=
    guardedRun_of_exec (by decide +kernel)
  obtain ⟨haborts, hclaims⟩ := claims_follow_rows [paidInvestment] []
  refine ⟨_, hrun, rfl, (hclaims _ up_paidInvestment _ _ hrun).1, fun hconflict => ?_⟩
  obtain ⟨error, herror⟩ := haborts.mpr hconflict
  rw [up_paidInvestment] at herror
  cases herror

end StellarSettle.StellarPaymentClaims
