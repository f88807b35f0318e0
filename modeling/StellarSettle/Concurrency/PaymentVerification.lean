import StellarSettle.Core.KeyedRows
import StellarSettle.Investments.StellarPaymentClaims
import StellarSettle.Investments.VerifyPayment

/-!
# Concurrent payment verifications

Calls of `verifyPayment` for any investments, over the two tables and the claim
table.  The transaction of a call reads committed rows without a lock; only the
primary key of a claim that is inserted but not committed makes another insert
wait.  The saves appear with the commit, and are one step with it.  The triggers
of the two tables find the claim that the transaction made, and change nothing.
A statement may fail at any point, which rolls the transaction back.

A payment confirms one investment, because the confirmation commits together with
the claim.  An investment may still consume two payments: nothing makes a second
transaction wait that has read the investment before the first one commits.
-/

namespace StellarSettle.PaymentVerification

open StellarSettle.Checks
open StellarSettle.Entities
open StellarSettle.KeyedRows
open StellarSettle.OwnershipRegistry
open StellarSettle.StellarPaymentClaims
open StellarSettle.TransitionSystem
open StellarSettle.VerifyPayment

/-! ## Tables -/

structure StoredTransaction extends Transaction where
  id : Uuid
  deriving DecidableEq, Repr

structure PaymentTables where
  investments : List Investment
  transactions : List StoredTransaction
  claims : PaymentClaims
  deriving DecidableEq, Repr

def PaymentTables.findInvestment (tables : PaymentTables) (id : Uuid) : Option Investment :=
  findRow Investment.id tables.investments id

/-- `find(Transaction, { where: { investmentId } })`. -/
def PaymentTables.linkedTransactions (tables : PaymentTables) (investmentId : Uuid) :
    List StoredTransaction :=
  tables.transactions.filter fun transaction => transaction.investmentId == some investmentId

/-- `manager.save(Transaction, transaction)`. -/
def saveTransaction (transactions : List StoredTransaction) (entity : StoredTransaction) :
    List StoredTransaction :=
  saveRow StoredTransaction.id transactions entity

/-! ## Statements of one call -/

inductive VerificationOutcome where
  | verified
  | alreadyVerified
  deriving DecidableEq, Repr

/-- The payment operation that a call is about, as the claim table spells it. -/
def claimedOperation (input : PaymentVerificationInput) (matchedPayment : PaymentMatch) :
    PaymentOperation :=
  ⟨upper input.stellarTxHash, matchedPayment.operationIndex⟩

/-- The look-up before the payment is fetched, over all investments. -/
def lookUp (tables : PaymentTables) (input : PaymentVerificationInput) : Except Thrown Bool :=
  needsVerification { invoice := none, investments := tables.investments } input

/-- `findInvestmentByIdForUpdate`, and the check of the wallet. -/
def readInvestment (tables : PaymentTables) (input : PaymentVerificationInput)
    (matchedPayment : PaymentMatch) : Except Thrown Investment := do
  let investment ← orThrow (tables.findInvestment input.investmentId)
    (.service investmentNotFound)
  throwIf (investment.investorWallet ≠ some matchedPayment.sourceAccount)
    (.service sourceAccountMismatch)
  return investment

/-- What the checks on the linked transactions find. -/
inductive LinkedCheck where
  | alreadyVerified
  | ready (existing : Option StoredTransaction)
  deriving DecidableEq, Repr

/-- `findTransactionsByInvestmentIdForUpdate`, and the checks on what it finds. -/
def readTransactions (tables : PaymentTables) (input : PaymentVerificationInput)
    (matchedPayment : PaymentMatch) (investment : Investment) : Except Thrown LinkedCheck := do
  let linked := tables.linkedTransactions investment.id
  throwIf (1 < linked.length)
    (.service (reconciliationConflict
      "Multiple transaction rows are linked to the same investment."))
  if investment.status = .confirmed then
    throwIf (¬(investment.transactionHash = some input.stellarTxHash ∧
        investment.stellarOperationIndex = some matchedPayment.operationIndex))
      (.service (reconciliationConflict
        ("Investment was confirmed by another transaction while verification was in " ++
          "progress.")))
    return .alreadyVerified
  else
    throwIf (linked.head?.any fun transaction =>
        transaction.stellarTxHash.any fun hash => hash != "" && hash != input.stellarTxHash)
      (.service (reconciliationConflict
        "Transaction row is already linked to a different Stellar hash."))
    return .ready linked.head?

/-- The look-up of `claimPayment`: whether the claim is still to be inserted. -/
def findClaim (tables : PaymentTables) (operation : PaymentOperation) (investmentId : Uuid) :
    Except Thrown Bool :=
  match ownerOf tables.claims operation with
  | none => .ok true
  | some claimant =>
      if claimant.investmentId = some investmentId then .ok false
      else .error (.service stellarPaymentAlreadyUsed)

/-- The insert of `claimPayment`, once no other insert of the key is pending. -/
def insertClaim (tables : PaymentTables) (operation : PaymentOperation) : Except Thrown Unit :=
  throwIf (ownerOf tables.claims operation ≠ none) (.service stellarPaymentAlreadyUsed)

/-- The transaction that a commit saves. -/
def savedTransaction (input : PaymentVerificationInput) (matchedPayment : PaymentMatch)
    (investment : Investment) (existing : Option StoredTransaction) (newId : Uuid) :
    StoredTransaction :=
  { toTransaction := verifiedTransaction input matchedPayment investment
    id := (existing.map StoredTransaction.id).getD newId }

/-- The saves and the commit. -/
def commitVerification (tables : PaymentTables) (input : PaymentVerificationInput)
    (matchedPayment : PaymentMatch) (investment : Investment)
    (existing : Option StoredTransaction) (inserted : Bool) (newId : Uuid) :
    Except Thrown PaymentTables := do
  throwIf (existing = none ∧ tables.transactions.any fun row => row.id == newId)
    (.error "QueryFailedError: duplicate key value violates unique constraint")
  return {
    investments := saveInvestment tables.investments
      (verifiedInvestment input matchedPayment investment)
    transactions := saveTransaction tables.transactions
      (savedTransaction input matchedPayment investment existing newId)
    claims := tables.claims ++
      if inserted then
        [(claimedOperation input matchedPayment, ⟨some investment.id, none⟩)]
      else [] }

/-! ## Processes -/

inductive Stage where
  | find
  | fetched
  | readTransactions (matchedPayment : PaymentMatch) (investment : Investment)
  | findClaim (matchedPayment : PaymentMatch) (investment : Investment)
      (existing : Option StoredTransaction)
  | insertClaim (matchedPayment : PaymentMatch) (investment : Investment)
      (existing : Option StoredTransaction)
  | commit (matchedPayment : PaymentMatch) (investment : Investment)
      (existing : Option StoredTransaction) (inserted : Bool)

inductive Process where
  | idle
  | finished (result : Except Thrown VerificationOutcome)
  | verifyPayment (input : PaymentVerificationInput) (stage : Stage)

/-- The payment that Horizon reports, and the id of an inserted transaction. -/
structure Environment where
  matchedPayment : PaymentMatch := ⟨0, ""⟩
  newId : Uuid := 0

/-- A payment operation that confirmed an investment. -/
structure Credit where
  operation : PaymentOperation
  investmentId : Uuid
  deriving DecidableEq, Repr

/-- What a step leaves: the tables, the process, the key of the claim that its
transaction has inserted, and the confirmation it committed. -/
structure Outcome where
  tables : PaymentTables
  process : Process
  pendingKey : Option PaymentOperation := none
  credited : List Credit := []

/-- Go on with the value, or end the call with the error. -/
def Outcome.attempt {α : Type} (tables : PaymentTables) (result : Except Thrown α)
    (next : α → Outcome) : Outcome :=
  match result with
  | .error thrown => { tables := tables, process := .finished (.error thrown) }
  | .ok value => next value

theorem Outcome.attempt_rule {α : Type} {P : Outcome → Prop} {tables : PaymentTables}
    {result : Except Thrown α} {next : α → Outcome}
    (hfail : ∀ thrown, P { tables := tables, process := .finished (.error thrown) })
    (hnext : ∀ value, result = .ok value → P (next value)) :
    P (.attempt tables result next) := by
  cases result with
  | error thrown => exact hfail thrown
  | ok value => exact hnext value rfl

def advanceVerification (input : PaymentVerificationInput) (environment : Environment)
    (tables : PaymentTables) : Stage → Outcome
  | .find =>
      .attempt tables (lookUp tables input) fun needed =>
        { tables := tables
          process := if needed then .verifyPayment input .fetched
            else .finished (.ok .alreadyVerified) }
  | .fetched =>
      .attempt tables (readInvestment tables input environment.matchedPayment) fun investment =>
        { tables := tables
          process := .verifyPayment input
            (.readTransactions environment.matchedPayment investment) }
  | .readTransactions matchedPayment investment =>
      .attempt tables (readTransactions tables input matchedPayment investment) fun check =>
        match check with
        | .alreadyVerified => { tables := tables, process := .finished (.ok .alreadyVerified) }
        | .ready existing =>
            { tables := tables
              process := .verifyPayment input (.findClaim matchedPayment investment existing) }
  | .findClaim matchedPayment investment existing =>
      .attempt tables (findClaim tables (claimedOperation input matchedPayment) investment.id)
        fun missing =>
          { tables := tables
            process := .verifyPayment input
              (if missing then .insertClaim matchedPayment investment existing
              else .commit matchedPayment investment existing false) }
  | .insertClaim matchedPayment investment existing =>
      .attempt tables (insertClaim tables (claimedOperation input matchedPayment)) fun _ =>
        { tables := tables
          process := .verifyPayment input (.commit matchedPayment investment existing true)
          pendingKey := some (claimedOperation input matchedPayment) }
  | .commit matchedPayment investment existing inserted =>
      .attempt tables (commitVerification tables input matchedPayment investment existing inserted
        environment.newId) fun committed =>
          { tables := committed
            process := .finished (.ok .verified)
            credited := [⟨claimedOperation input matchedPayment, investment.id⟩] }

/-- The next step of a process, if it has one. -/
def advance (environment : Environment) (tables : PaymentTables) : Process → Option Outcome
  | .idle => none
  | .finished _ => none
  | .verifyPayment input stage => some (advanceVerification input environment tables stage)

/-- The key that the next step inserts, for which it waits. -/
def needsKey : Process → Option PaymentOperation
  | .verifyPayment input (.insertClaim matchedPayment _ _) =>
      some (claimedOperation input matchedPayment)
  | _ => none

/-! ## The system -/

/-- `holder` says which transaction has inserted a claim that is not committed;
`credited` only records the confirmations. -/
structure World where
  tables : PaymentTables
  holder : PaymentOperation → Option ℕ := fun _ => none
  process : ℕ → Process := fun _ => .idle
  credited : List Credit := []

inductive Action where
  | start (input : PaymentVerificationInput)
  | advance (environment : Environment)
  | fail (thrown : Thrown)

structure Event where
  process : ℕ
  action : Action

def World.apply (world : World) (index : ℕ) (outcome : Outcome) : World :=
  { tables := outcome.tables
    holder := fun operation =>
      nextHolder (world.holder operation) index (outcome.pendingKey == some operation)
    process := setProcess world.process index outcome.process
    credited := world.credited ++ outcome.credited }

def step (world : World) (event : Event) : Option World :=
  match event.action with
  | .start input =>
      match world.process event.process with
      | .idle =>
          some (world.apply event.process
            { tables := world.tables, process := .verifyPayment input .find })
      | _ => none
  | .advance environment =>
      if (needsKey (world.process event.process)).any fun operation =>
          !decide (Available (world.holder operation) event.process) then
        none
      else
        (advance environment world.tables (world.process event.process)).map
          (world.apply event.process)
  | .fail thrown =>
      match world.process event.process with
      | .verifyPayment _ _ =>
          some (world.apply event.process
            { tables := world.tables, process := .finished (.error thrown) })
      | _ => none

/-- No verification has begun. -/
structure Initial (world : World) : Prop where
  noHolder : ∀ operation, world.holder operation = none
  allIdle : ∀ index, world.process index = .idle
  noCredits : world.credited = []

/-! ## What a step does -/

/-- Every step applies an outcome: of a start, of a failure, or of the next piece of
code of a call. -/
theorem step_cases {world after : World} {event : Event} (hstep : step world event = some after) :
    (∃ input, after = world.apply event.process
      { tables := world.tables, process := .verifyPayment input .find }) ∨
    (∃ thrown, after = world.apply event.process
      { tables := world.tables, process := .finished (.error thrown) }) ∨
    (∃ environment outcome, event.action = .advance environment ∧
      (∀ operation, needsKey (world.process event.process) = some operation →
        Available (world.holder operation) event.process) ∧
      advance environment world.tables (world.process event.process) = some outcome ∧
      after = world.apply event.process outcome) := by
  rw [step] at hstep
  split at hstep
  · rename_i input _
    split at hstep
    · exact .inl ⟨input, (Option.some.inj hstep).symm⟩
    · cases hstep
  · rename_i environment haction
    split at hstep
    · cases hstep
    · rename_i hfree
      obtain ⟨outcome, houtcome, hafter⟩ := Option.map_eq_some_iff.mp hstep
      refine .inr (.inr ⟨environment, outcome, haction, fun operation hneeds => ?_, houtcome,
        hafter.symm⟩)
      simpa [hneeds] using hfree
  · rename_i thrown _
    split at hstep
    · exact .inr (.inl ⟨thrown, (Option.some.inj hstep).symm⟩)
    · cases hstep

/-- A step leaves the tables as they are, or it commits a verification. -/
inductive Effect (environment : Environment) (tables : PaymentTables) (process : Process) :
    Outcome → Prop
  | quiet {outcome : Outcome} (htables : outcome.tables = tables)
      (hcredited : outcome.credited = []) : Effect environment tables process outcome
  | commit {input : PaymentVerificationInput} {matchedPayment : PaymentMatch}
      {investment : Investment} {existing : Option StoredTransaction} {inserted : Bool}
      {committed : PaymentTables}
      (hprocess : process = .verifyPayment input
        (.commit matchedPayment investment existing inserted))
      (hcommit : commitVerification tables input matchedPayment investment existing inserted
        environment.newId = .ok committed) :
      Effect environment tables process
        { tables := committed
          process := .finished (.ok .verified)
          credited := [⟨claimedOperation input matchedPayment, investment.id⟩] }

theorem effect_of_advance {environment : Environment} {tables : PaymentTables}
    {process : Process} {outcome : Outcome}
    (hadvance : advance environment tables process = some outcome) :
    Effect environment tables process outcome := by
  cases process with
  | idle => cases hadvance
  | finished result => cases hadvance
  | verifyPayment input stage =>
      obtain rfl := Option.some.inj hadvance
      cases stage with
      | find => exact Outcome.attempt_rule (fun _ => .quiet rfl rfl) fun _ _ => .quiet rfl rfl
      | fetched => exact Outcome.attempt_rule (fun _ => .quiet rfl rfl) fun _ _ => .quiet rfl rfl
      | readTransactions matchedPayment investment =>
          refine Outcome.attempt_rule (fun _ => .quiet rfl rfl) fun check _ => ?_
          cases check <;> exact .quiet rfl rfl
      | findClaim matchedPayment investment existing =>
          exact Outcome.attempt_rule (fun _ => .quiet rfl rfl) fun _ _ => .quiet rfl rfl
      | insertClaim matchedPayment investment existing =>
          exact Outcome.attempt_rule (fun _ => .quiet rfl rfl) fun _ _ => .quiet rfl rfl
      | commit matchedPayment investment existing inserted =>
          exact Outcome.attempt_rule (fun _ => .quiet rfl rfl)
            fun _ hcommitted => .commit rfl hcommitted

theorem commitVerification_eq_ok {tables committed : PaymentTables}
    {input : PaymentVerificationInput} {matchedPayment : PaymentMatch} {investment : Investment}
    {existing : Option StoredTransaction} {inserted : Bool} {newId : Uuid} :
    commitVerification tables input matchedPayment investment existing inserted newId =
        .ok committed ↔
      (existing = none → ∀ row ∈ tables.transactions, row.id ≠ newId) ∧
      committed =
        { investments := saveRow Investment.id tables.investments
            (verifiedInvestment input matchedPayment investment)
          transactions := saveRow StoredTransaction.id tables.transactions
            (savedTransaction input matchedPayment investment existing newId)
          claims := tables.claims ++
            if inserted then
              [(claimedOperation input matchedPayment, ⟨some investment.id, none⟩)]
            else [] } := by
  rw [commitVerification, bind_eq_ok]
  simp only [throwIf_eq_ok, pure_eq_ok, not_and, List.any_eq_true, beq_iff_eq, not_exists]
  constructor
  · rintro ⟨_, hfresh, hcommitted⟩
    exact ⟨hfresh, hcommitted⟩
  · rintro ⟨hfresh, hcommitted⟩
    exact ⟨(), hfresh, hcommitted⟩

/-! ## The claims -/

/-- A committed claim gives the operation to the investment. -/
def PaymentTables.ClaimedFor (tables : PaymentTables) (operation : PaymentOperation)
    (investmentId : Uuid) : Prop :=
  ∃ claimant, ownerOf tables.claims operation = some claimant ∧
    claimant.investmentId = some investmentId

/-- What a transaction knows about the claim of its payment when it commits: it has
inserted the claim and holds its key, or it found the claim. -/
def ClaimReady (tables : PaymentTables) (holder : PaymentOperation → Option ℕ) (index : ℕ) :
    Process → Prop
  | .verifyPayment input (.commit matchedPayment investment _ inserted) =>
      if inserted then
        holder (claimedOperation input matchedPayment) = some index ∧
          ownerOf tables.claims (claimedOperation input matchedPayment) = none
      else tables.ClaimedFor (claimedOperation input matchedPayment) investment.id
  | _ => True

/-- Every confirmation rests on a committed claim of its investment. -/
structure ClaimsInvariant (world : World) : Prop where
  ready : ∀ index, ClaimReady world.tables world.holder index (world.process index)
  credited : ∀ credit ∈ world.credited,
    world.tables.ClaimedFor credit.operation credit.investmentId

theorem PaymentTables.ClaimedFor.append {tables after : PaymentTables}
    {operation : PaymentOperation} {investmentId : Uuid}
    {added : PaymentClaims} (hclaimed : tables.ClaimedFor operation investmentId)
    (hafter : after.claims = tables.claims ++ added) :
    after.ClaimedFor operation investmentId := by
  obtain ⟨claimant, howner, hinvestment⟩ := hclaimed
  exact ⟨claimant, by rw [hafter, ownerOf_append, howner, Option.some_or], hinvestment⟩

/-- A step takes only the key it waited for, and a transaction that goes on to its
commit is ready for it. -/
structure ClaimStep (process : Process) (outcome : Outcome) : Prop where
  waited : ∀ operation, outcome.pendingKey = some operation → needsKey process = some operation
  ready : ∀ holder index,
    (∀ operation, outcome.pendingKey = some operation → holder operation = some index) →
      ClaimReady outcome.tables holder index outcome.process

theorem ClaimStep.of_noKey {process : Process} {outcome : Outcome}
    (hnone : outcome.pendingKey = none)
    (hready : ∀ holder index, ClaimReady outcome.tables holder index outcome.process) :
    ClaimStep process outcome where
  waited := fun operation hkey => by
    rw [hnone] at hkey
    cases hkey
  ready := fun holder index _ => hready holder index

theorem claimStep_of_advance {environment : Environment} {tables : PaymentTables}
    {process : Process} {outcome : Outcome}
    (hadvance : advance environment tables process = some outcome) :
    ClaimStep process outcome := by
  cases process with
  | idle => cases hadvance
  | finished result => cases hadvance
  | verifyPayment input stage =>
      obtain rfl := Option.some.inj hadvance
      have hfail : ∀ thrown, ClaimStep (.verifyPayment input stage)
          { tables := tables, process := .finished (.error thrown) } :=
        fun thrown => .of_noKey rfl fun _ _ => trivial
      cases stage with
      | find =>
          refine Outcome.attempt_rule hfail fun needed _ => .of_noKey rfl fun _ _ => ?_
          cases needed <;> trivial
      | fetched => exact Outcome.attempt_rule hfail fun _ _ => .of_noKey rfl fun _ _ => trivial
      | readTransactions matchedPayment investment =>
          refine Outcome.attempt_rule hfail fun check _ => ?_
          cases check <;> exact .of_noKey rfl fun _ _ => trivial
      | findClaim matchedPayment investment existing =>
          refine Outcome.attempt_rule hfail fun missing hfound => .of_noKey rfl fun _ _ => ?_
          cases missing with
          | true => trivial
          | false =>
              rw [findClaim] at hfound
              split at hfound
              · cases hfound
              · rename_i claimant howner
                split at hfound
                · rename_i hsame
                  exact ⟨claimant, howner, hsame⟩
                · cases hfound
      | insertClaim matchedPayment investment existing =>
          refine Outcome.attempt_rule hfail fun _ hinserted => ⟨fun _ => id, fun _ _ hheld => ?_⟩
          exact ⟨hheld _ rfl, not_not.mp (throwIf_eq_ok.mp hinserted)⟩
      | commit matchedPayment investment existing inserted =>
          exact Outcome.attempt_rule hfail fun _ _ => .of_noKey rfl fun _ _ => trivial

/-- A step of another transaction keeps what this one knows about its claim. -/
theorem ClaimReady.keep {tables after : PaymentTables}
    {holder next : PaymentOperation → Option ℕ} {index : ℕ} {process : Process}
    {added : PaymentClaims} (hready : ClaimReady tables holder index process)
    (hafter : after.claims = tables.claims ++ added)
    (hkeys : ∀ operation, holder operation = some index →
      next operation = some index ∧ ownerOf added operation = none) :
    ClaimReady after next index process := by
  cases process with
  | idle => trivial
  | finished result => trivial
  | verifyPayment input stage =>
      cases stage with
      | commit matchedPayment investment existing inserted =>
          cases inserted with
          | true =>
              obtain ⟨hheld, hfree⟩ := hready
              obtain ⟨hnext, hother⟩ := hkeys _ hheld
              exact ⟨hnext, by rw [hafter, ownerOf_append, hfree, hother]; rfl⟩
          | false =>
              have hclaimed : tables.ClaimedFor (claimedOperation input matchedPayment)
                investment.id := hready
              exact hclaimed.append hafter
      | _ => trivial

/-- A process keeps the keys it holds while another one moves. -/
theorem holder_apply_other {environment : Environment} {world : World} {index other : ℕ}
    {outcome : Outcome} {operation : PaymentOperation} (hother : other ≠ index)
    (hfree : ∀ key, needsKey (world.process index) = some key →
      Available (world.holder key) index)
    (hadvance : advance environment world.tables (world.process index) = some outcome)
    (hheld : world.holder operation = some other) :
    (world.apply index outcome).holder operation = some other := by
  refine nextHolder_of_held hheld hother ?_
  rw [beq_eq_false_iff_ne]
  intro hpending
  exact not_available_of_held hheld hother
    (hfree operation ((claimStep_of_advance hadvance).waited operation hpending))

theorem ClaimsInvariant.apply {environment : Environment} {world : World} {index : ℕ}
    {outcome : Outcome} (hinvariant : ClaimsInvariant world)
    (hfree : ∀ key, needsKey (world.process index) = some key →
      Available (world.holder key) index)
    (hadvance : advance environment world.tables (world.process index) = some outcome) :
    ClaimsInvariant (world.apply index outcome) := by
  have hmoved : ClaimReady outcome.tables (world.apply index outcome).holder index
      outcome.process :=
    (claimStep_of_advance hadvance).ready _ index fun operation hkey => by
      simp [World.apply, hkey, nextHolder]
  cases effect_of_advance hadvance with
  | quiet htables hcredited =>
      have hclaims : outcome.tables.claims = world.tables.claims ++ [] := by
        rw [htables, List.append_nil]
      refine ⟨forall_setProcess hmoved fun other hother => ?_, fun credit hmem => ?_⟩
      · exact (hinvariant.ready other).keep hclaims fun operation hheld =>
          ⟨holder_apply_other hother hfree hadvance hheld, rfl⟩
      · rw [World.apply, hcredited, List.append_nil] at hmem
        exact (hinvariant.credited credit hmem).append hclaims
  | @commit input matchedPayment investment existing inserted committed hprocess hcommit =>
      obtain ⟨_, hcommitted⟩ := commitVerification_eq_ok.mp hcommit
      have hready := hinvariant.ready index
      rw [hprocess] at hready
      have hclaims := congrArg PaymentTables.claims hcommitted
      refine ⟨forall_setProcess trivial fun other hother => ?_, fun credit hmem => ?_⟩
      · refine (hinvariant.ready other).keep hclaims fun operation hheld =>
          ⟨holder_apply_other hother hfree hadvance hheld, ?_⟩
        cases inserted with
        | true =>
            -- The committed claim is the one whose key this transaction held.
            refine ownerOf_eq_none.mpr fun entry hentry hsame => ?_
            obtain rfl := List.mem_singleton.mp hentry
            rw [← hsame, hready.1] at hheld
            exact hother (Option.some.inj hheld).symm
        | false => rfl
      · rcases List.mem_append.mp hmem with hold | hnew
        · exact (hinvariant.credited credit hold).append hclaims
        · obtain rfl := List.mem_singleton.mp hnew
          cases inserted with
          | true =>
              refine ⟨⟨some investment.id, none⟩, ?_, rfl⟩
              change ownerOf committed.claims _ = _
              rw [hclaims, ownerOf_append, hready.2, Option.none_or]
              simp [ownerOf]
          | false =>
              have hclaimed : world.tables.ClaimedFor (claimedOperation input matchedPayment)
                investment.id := hready
              exact hclaimed.append hclaims

theorem ClaimsInvariant.step {world after : World} {event : Event}
    (hinvariant : ClaimsInvariant world)
    (hstep : PaymentVerification.step world event = some after) : ClaimsInvariant after := by
  -- A call that starts or fails knows nothing and changes nothing.
  have hkeep : ∀ next : Process, (∀ holder, ClaimReady world.tables holder event.process next) →
      ClaimsInvariant (world.apply event.process { tables := world.tables, process := next }) := by
    intro next hnext
    refine ⟨forall_setProcess (hnext _) fun other hother => ?_, fun credit hmem => ?_⟩
    · refine (hinvariant.ready other).keep (List.append_nil _).symm fun operation hheld => ⟨?_, rfl⟩
      exact nextHolder_of_held hheld hother rfl
    · exact hinvariant.credited credit (by simpa [World.apply] using hmem)
  rcases step_cases hstep with ⟨input, rfl⟩ | ⟨thrown, rfl⟩ |
    ⟨environment, outcome, _, hfree, hadvance, rfl⟩
  · exact hkeep _ fun _ => trivial
  · exact hkeep _ fun _ => trivial
  · exact hinvariant.apply hfree hadvance

theorem claimsInvariant_of_run {first last : World} {events : List Event}
    (hinitial : Initial first) (hrun : Run step first events last) : ClaimsInvariant last :=
  hrun.invariant (fun _ hstep hinvariant => ClaimsInvariant.step hinvariant hstep)
    { ready := fun index => by
        rw [hinitial.allIdle]
        trivial
      credited := fun credit hmem => by
        rw [hinitial.noCredits] at hmem
        cases hmem }

/-- In every interleaving a payment operation confirms at most one investment. -/
theorem operation_credited_once {first last : World} {events : List Event}
    (hinitial : Initial first) (hrun : Run step first events last) {one other : Credit}
    (hone : one ∈ last.credited) (hother : other ∈ last.credited)
    (hsame : one.operation = other.operation) : one.investmentId = other.investmentId := by
  have hinvariant := claimsInvariant_of_run hinitial hrun
  obtain ⟨claimant, howner, hinvestment⟩ := hinvariant.credited one hone
  obtain ⟨_, hotherOwner, hotherInvestment⟩ := hinvariant.credited other hother
  rw [← hsame, howner] at hotherOwner
  obtain rfl := Option.some.inj hotherOwner
  exact Option.some.inj (hinvestment.symm.trans hotherInvestment)

/-! ### Two investments and one payment -/

def awaitingInvestment (id : Uuid) : Investment :=
  { id := id, investorId := 4, investorWallet := some "GINVESTOR", fundingBlock := none
    investmentAmount := 1000000, expectedReturn := 1000000, actualReturn := none
    status := .pending, transactionHash := none, stellarOperationIndex := none }

def awaitingTables : PaymentTables :=
  { investments := [awaitingInvestment 3, awaitingInvestment 5], transactions := [], claims := [] }

theorem initial_awaitingTables : Initial { tables := awaitingTables } :=
  ⟨fun _ => rfl, fun _ => rfl, rfl⟩

def paidBy (newId : Uuid) : Environment := { matchedPayment := ⟨0, "GINVESTOR"⟩, newId := newId }

/-- Both calls look for the claim before one of them inserts it, and they spell the
hash differently. -/
def samePayment : List Event :=
  [⟨0, .start ⟨3, "a1b2", none⟩⟩, ⟨1, .start ⟨5, "A1B2", none⟩⟩,
    ⟨0, .advance {}⟩, ⟨1, .advance {}⟩, ⟨0, .advance (paidBy 0)⟩, ⟨1, .advance (paidBy 0)⟩,
    ⟨0, .advance {}⟩, ⟨1, .advance {}⟩, ⟨0, .advance {}⟩, ⟨1, .advance {}⟩,
    ⟨0, .advance {}⟩, ⟨0, .advance (paidBy 7)⟩, ⟨1, .advance {}⟩]

theorem samePayment_credited_once :
    ∃ last, Run step { tables := awaitingTables } samePayment last ∧
      last.credited = [⟨⟨"A1B2", 0⟩, 3⟩] ∧
      ∀ one ∈ last.credited, ∀ other ∈ last.credited, one.operation = other.operation →
        one.investmentId = other.investmentId := by
  have hcredited : (exec step { tables := awaitingTables } samePayment).map World.credited =
      some [⟨⟨"A1B2", 0⟩, 3⟩] := by
    decide +kernel
  obtain ⟨last, hrun, hlast⟩ := exists_run hcredited
  exact ⟨last, hrun, hlast, fun one hone other hother hsame =>
    operation_credited_once initial_awaitingTables hrun hone hother hsame⟩

/-! ## The payments of one investment -/

def PaymentTables.confirmed (tables : PaymentTables) (investmentId : Uuid) : Bool :=
  (tables.findInvestment investmentId).any fun investment => investment.status == .confirmed

def PaymentTables.claimsNaming (tables : PaymentTables) (investmentId : Uuid) : PaymentClaims :=
  tables.claims.filter fun claim => claim.2.investmentId == some investmentId

def PaymentTables.completedInvestments (tables : PaymentTables) (investmentId : Uuid) :
    List StoredTransaction :=
  (tables.linkedTransactions investmentId).filter fun transaction =>
    transaction.type == .investment && transaction.status == .completed

def World.verificationsOf (world : World) (investmentId : Uuid) : List Credit :=
  world.credited.filter fun credit => credit.investmentId == investmentId

/-- At most one call verified the investment, and at most one claim and one completed
transaction refer to it. -/
structure OnePayment (world : World) (investmentId : Uuid) : Prop where
  verified : (world.verificationsOf investmentId).length ≤ 1
  claims : (world.tables.claimsNaming investmentId).length ≤ 1
  completed : (world.tables.completedInvestments investmentId).length ≤ 1

/-- The tables to start from: no investment has two payments yet, and the ids of the
transactions are their primary key. -/
structure PaidOnce (tables : PaymentTables) : Prop where
  transactionIds : (tables.transactions.map StoredTransaction.id).Nodup
  claims : ∀ investmentId, (tables.claimsNaming investmentId).length ≤ 1
  completed : ∀ investmentId, (tables.completedInvestments investmentId).length ≤ 1

/-- A verification commits while its investment is not confirmed, and no other payment
is claimed for the investment. -/
def FirstPayment (world : World) (event : Event) : Prop :=
  match event.action, world.process event.process with
  | .advance _, .verifyPayment input (.commit matchedPayment investment _ _) =>
      world.tables.confirmed investment.id = false ∧
        ∀ claim ∈ world.tables.claimsNaming investment.id,
          claim.1 = claimedOperation input matchedPayment
  | _, _ => True

instance (world : World) (event : Event) : Decidable (FirstPayment world event) := by
  unfold FirstPayment
  split <;> infer_instance

/-- The transactions of the investment are those that were read, as long as it is not
confirmed, and the one that was read stays linked to it. -/
structure LinkedAsRead (tables : PaymentTables) (investmentId : Uuid)
    (existing : Option StoredTransaction) : Prop where
  linked : tables.confirmed investmentId = false →
    (tables.linkedTransactions investmentId).map StoredTransaction.id =
      existing.toList.map StoredTransaction.id
  stored : ∀ row ∈ existing, ∃ current ∈ tables.transactions,
    current.id = row.id ∧ current.investmentId = some investmentId

/-- What a transaction knows about the transactions of its investment. -/
def TransactionsRead (tables : PaymentTables) : Process → Prop
  | .verifyPayment _ (.findClaim _ investment existing) =>
      LinkedAsRead tables investment.id existing
  | .verifyPayment _ (.insertClaim _ investment existing) =>
      LinkedAsRead tables investment.id existing
  | .verifyPayment _ (.commit _ investment existing _) =>
      LinkedAsRead tables investment.id existing
  | _ => True

/-- The read finds the linked transactions: none, or one. -/
theorem linkedAsRead_of_readTransactions {tables : PaymentTables}
    {input : PaymentVerificationInput} {matchedPayment : PaymentMatch} {investment : Investment}
    {existing : Option StoredTransaction}
    (hread : readTransactions tables input matchedPayment investment = .ok (.ready existing)) :
    LinkedAsRead tables investment.id existing := by
  obtain ⟨_, hcount, hrest⟩ := bind_eq_ok.mp hread
  have hsingle := throwIf_eq_ok.mp hcount
  obtain rfl : (tables.linkedTransactions investment.id).head? = existing := by
    split at hrest
    · obtain ⟨_, _, hverified⟩ := bind_eq_ok.mp hrest
      cases hverified
    · obtain ⟨_, _, hready⟩ := bind_eq_ok.mp hrest
      exact (LinkedCheck.ready.inj (pure_eq_ok.mp hready)).symm
  constructor
  · intro _
    cases hlinked : tables.linkedTransactions investment.id with
    | nil => rfl
    | cons first rest =>
        obtain rfl : rest = [] := by
          rw [hlinked, List.length_cons] at hsingle
          exact List.eq_nil_of_length_eq_zero (by omega)
        rfl
  · intro row hrow
    obtain ⟨hmem, hinvestment⟩ := List.mem_filter.mp (List.mem_of_mem_head? hrow)
    exact ⟨row, hmem, rfl, by simpa using hinvestment⟩

def Outcome.KnowsTransactions (outcome : Outcome) : Prop :=
  TransactionsRead outcome.tables outcome.process

theorem transactionsRead_of_advance {environment : Environment} {tables : PaymentTables}
    {process : Process} {outcome : Outcome}
    (hadvance : advance environment tables process = some outcome)
    (hbefore : TransactionsRead tables process) : outcome.KnowsTransactions := by
  cases process with
  | idle => cases hadvance
  | finished result => cases hadvance
  | verifyPayment input stage =>
      obtain rfl := Option.some.inj hadvance
      have hfail : ∀ thrown, Outcome.KnowsTransactions
          { tables := tables, process := .finished (.error thrown) } := fun _ => trivial
      cases stage with
      | find =>
          refine Outcome.attempt_rule hfail fun needed _ => ?_
          cases needed <;> trivial
      | fetched => exact Outcome.attempt_rule hfail fun _ _ => trivial
      | readTransactions matchedPayment investment =>
          refine Outcome.attempt_rule hfail fun check hread => ?_
          cases check with
          | alreadyVerified => trivial
          | ready existing => exact linkedAsRead_of_readTransactions hread
      | findClaim matchedPayment investment existing =>
          refine Outcome.attempt_rule hfail fun missing _ => ?_
          cases missing <;> exact hbefore
      | insertClaim matchedPayment investment existing =>
          exact Outcome.attempt_rule hfail fun _ _ => hbefore
      | commit matchedPayment investment existing inserted =>
          exact Outcome.attempt_rule hfail fun _ _ => trivial

/-! ### What a commit changes -/

section Commit

variable {tables committed : PaymentTables} {input : PaymentVerificationInput}
  {matchedPayment : PaymentMatch} {investment : Investment}
  {existing : Option StoredTransaction} {inserted : Bool} {newId : Uuid}
  (hcommit : commitVerification tables input matchedPayment investment existing inserted newId =
    .ok committed)

include hcommit

theorem confirmed_of_commit : committed.confirmed investment.id = true := by
  obtain ⟨_, rfl⟩ := commitVerification_eq_ok.mp hcommit
  have hfound : findRow Investment.id (saveRow Investment.id tables.investments
      (verifiedInvestment input matchedPayment investment)) investment.id =
        some (verifiedInvestment input matchedPayment investment) := findRow_saveRow_self
  rw [PaymentTables.confirmed, PaymentTables.findInvestment, hfound]
  rfl

theorem confirmed_commit_other {investmentId : Uuid} (hother : investmentId ≠ investment.id) :
    committed.confirmed investmentId = tables.confirmed investmentId := by
  obtain ⟨_, rfl⟩ := commitVerification_eq_ok.mp hcommit
  have hfound : findRow Investment.id (saveRow Investment.id tables.investments
      (verifiedInvestment input matchedPayment investment)) investmentId =
        findRow Investment.id tables.investments investmentId := findRow_saveRow_other hother
  exact congrArg (Option.any fun investment => investment.status == .confirmed) hfound

/-- The saved transaction replaces one that is linked to the same investment. -/
theorem linked_of_savedId (hids : (tables.transactions.map StoredTransaction.id).Nodup)
    (hread : LinkedAsRead tables investment.id existing) {row : StoredTransaction}
    (hmem : row ∈ tables.transactions)
    (hid : row.id = (savedTransaction input matchedPayment investment existing newId).id) :
    row.investmentId = some investment.id := by
  obtain ⟨hfresh, _⟩ := commitVerification_eq_ok.mp hcommit
  cases existing with
  | none => exact absurd hid (hfresh rfl row hmem)
  | some found =>
      obtain ⟨current, hcurrent, hsame, hlinked⟩ := hread.stored found rfl
      have hrow := findRow_of_mem hids hmem
      rw [show row.id = current.id from hid.trans hsame.symm, findRow_of_mem hids hcurrent] at hrow
      obtain rfl := Option.some.inj hrow
      exact hlinked

theorem linked_commit_other (hids : (tables.transactions.map StoredTransaction.id).Nodup)
    (hread : LinkedAsRead tables investment.id existing) {investmentId : Uuid}
    (hother : investmentId ≠ investment.id) :
    committed.linkedTransactions investmentId = tables.linkedTransactions investmentId := by
  have hapart : ∀ row : StoredTransaction, row.investmentId = some investment.id →
      (row.investmentId == some investmentId) = false := by
    intro row hlinked
    rw [hlinked, beq_eq_false_iff_ne]
    exact fun hsame => hother (Option.some.inj hsame).symm
  have hlinked := fun row hmem hid => hapart row (linked_of_savedId hcommit hids hread hmem hid)
  obtain ⟨_, rfl⟩ := commitVerification_eq_ok.mp hcommit
  exact filter_saveRow_other (hapart _ rfl) hlinked

/-- An investment that was not confirmed has the saved transaction and no other. -/
theorem linked_of_commit (hids : (tables.transactions.map StoredTransaction.id).Nodup)
    (hread : LinkedAsRead tables investment.id existing)
    (hunconfirmed : tables.confirmed investment.id = false) :
    (committed.linkedTransactions investment.id).length ≤ 1 := by
  have hlinked := hread.linked hunconfirmed
  obtain ⟨_, rfl⟩ := commitVerification_eq_ok.mp hcommit
  have honly : ∀ row ∈ (saveRow StoredTransaction.id tables.transactions
      (savedTransaction input matchedPayment investment existing newId)).filter
        (fun transaction => transaction.investmentId == some investment.id),
      row.id = (savedTransaction input matchedPayment investment existing newId).id := by
    intro row hmem
    obtain ⟨hrow, hinvestment⟩ := List.mem_filter.mp hmem
    rcases mem_saveRow.mp hrow with rfl | ⟨hold, _⟩
    · rfl
    · have hread : row.id ∈ existing.toList.map StoredTransaction.id :=
        hlinked ▸ List.mem_map_of_mem (List.mem_filter.mpr ⟨hold, hinvestment⟩)
      cases existing with
      | none => cases hread
      | some found => exact List.mem_singleton.mp hread
  have hnodup := ((nodup_saveRow hids).sublist (List.filter_sublist.map StoredTransaction.id) :
    (((saveRow StoredTransaction.id tables.transactions
      (savedTransaction input matchedPayment investment existing newId)).filter
        fun transaction => transaction.investmentId == some investment.id).map
          StoredTransaction.id).Nodup)
  rw [List.eq_replicate_of_mem (List.forall_mem_map.mpr honly), List.nodup_replicate,
    List.length_map] at hnodup
  exact hnodup

theorem LinkedAsRead.commit (hids : (tables.transactions.map StoredTransaction.id).Nodup)
    (hread : LinkedAsRead tables investment.id existing) {investmentId : Uuid}
    {found : Option StoredTransaction} (hother : LinkedAsRead tables investmentId found) :
    LinkedAsRead committed investmentId found := by
  constructor
  · intro hunconfirmed
    have hne : investmentId ≠ investment.id := by
      rintro rfl
      rw [confirmed_of_commit hcommit] at hunconfirmed
      cases hunconfirmed
    rw [linked_commit_other hcommit hids hread hne]
    exact hother.linked (by rwa [← confirmed_commit_other hcommit hne])
  · intro row hrow
    obtain ⟨current, hmem, hid, hinvestment⟩ := hother.stored row hrow
    have hsaved := linked_of_savedId hcommit hids hread hmem
    obtain ⟨_, rfl⟩ := commitVerification_eq_ok.mp hcommit
    by_cases hsame :
        current.id = (savedTransaction input matchedPayment investment existing newId).id
    · refine ⟨_, mem_saveRow_self, hsame.symm.trans hid, ?_⟩
      exact (hsaved hsame).symm.trans hinvestment
    · exact ⟨current, mem_saveRow.mpr (.inr ⟨hmem, hsame⟩), hid, hinvestment⟩

theorem claimsNaming_commit_other {investmentId : Uuid} (hother : investmentId ≠ investment.id) :
    committed.claimsNaming investmentId = tables.claimsNaming investmentId := by
  obtain ⟨_, rfl⟩ := commitVerification_eq_ok.mp hcommit
  cases inserted <;> simp [PaymentTables.claimsNaming, Ne.symm hother]

/-- When no other payment is claimed for the investment, the commit leaves one claim. -/
theorem claimsNaming_of_commit (hclaims : (tables.claimsNaming investment.id).length ≤ 1)
    (hfree : inserted = true →
      ownerOf tables.claims (claimedOperation input matchedPayment) = none)
    (hfirst : ∀ claim ∈ tables.claimsNaming investment.id,
      claim.1 = claimedOperation input matchedPayment) :
    (committed.claimsNaming investment.id).length ≤ 1 := by
  obtain ⟨_, rfl⟩ := commitVerification_eq_ok.mp hcommit
  cases inserted with
  | false => simpa [PaymentTables.claimsNaming] using hclaims
  | true =>
      have hnone : tables.claimsNaming investment.id = [] := by
        refine List.eq_nil_iff_forall_not_mem.mpr fun claim hmem => ?_
        exact ownerOf_eq_none.mp (hfree rfl) claim (List.mem_of_mem_filter hmem)
          (hfirst claim hmem)
      rw [PaymentTables.claimsNaming] at hnone
      simp [PaymentTables.claimsNaming, hnone]

end Commit

/-! ### The invariant -/

structure PaymentsInvariant (world : World) : Prop where
  ready : ClaimsInvariant world
  read : ∀ index, TransactionsRead world.tables (world.process index)
  paidOnce : PaidOnce world.tables
  verified : ∀ investmentId, (world.verificationsOf investmentId).length ≤ 1
  confirmed : ∀ credit ∈ world.credited, world.tables.confirmed credit.investmentId = true

/-- What a transaction knows about the transactions of its investment survives the
commit of another one. -/
theorem TransactionsRead.commit {tables committed : PaymentTables}
    {input : PaymentVerificationInput} {matchedPayment : PaymentMatch} {investment : Investment}
    {existing : Option StoredTransaction} {inserted : Bool} {newId : Uuid}
    (hcommit : commitVerification tables input matchedPayment investment existing inserted newId =
      .ok committed)
    (hids : (tables.transactions.map StoredTransaction.id).Nodup)
    (hread : LinkedAsRead tables investment.id existing) {process : Process}
    (hother : TransactionsRead tables process) : TransactionsRead committed process := by
  cases process with
  | idle => trivial
  | finished result => trivial
  | verifyPayment input stage =>
      cases stage with
      | findClaim matchedPayment investment found =>
          exact LinkedAsRead.commit hcommit hids hread hother
      | insertClaim matchedPayment investment found =>
          exact LinkedAsRead.commit hcommit hids hread hother
      | commit matchedPayment investment found inserted =>
          exact LinkedAsRead.commit hcommit hids hread hother
      | _ => trivial

theorem PaidOnce.commit {tables committed : PaymentTables}
    {input : PaymentVerificationInput} {matchedPayment : PaymentMatch} {investment : Investment}
    {existing : Option StoredTransaction} {inserted : Bool} {newId : Uuid}
    (hcommit : commitVerification tables input matchedPayment investment existing inserted newId =
      .ok committed)
    (honce : PaidOnce tables) (hread : LinkedAsRead tables investment.id existing)
    (hfree : inserted = true →
      ownerOf tables.claims (claimedOperation input matchedPayment) = none)
    (hunconfirmed : tables.confirmed investment.id = false)
    (hfirst : ∀ claim ∈ tables.claimsNaming investment.id,
      claim.1 = claimedOperation input matchedPayment) : PaidOnce committed := by
  refine ⟨?_, fun investmentId => ?_, fun investmentId => ?_⟩
  · obtain ⟨_, rfl⟩ := commitVerification_eq_ok.mp hcommit
    exact nodup_saveRow honce.transactionIds
  · by_cases hsame : investmentId = investment.id
    · rw [hsame]
      exact claimsNaming_of_commit hcommit (honce.claims _) hfree hfirst
    · rw [claimsNaming_commit_other hcommit hsame]
      exact honce.claims investmentId
  · by_cases hsame : investmentId = investment.id
    · rw [hsame]
      exact (List.length_filter_le _ _).trans
        (linked_of_commit hcommit honce.transactionIds hread hunconfirmed)
    · rw [PaymentTables.completedInvestments,
        linked_commit_other hcommit honce.transactionIds hread hsame]
      exact honce.completed investmentId

/-- A step that leaves the tables keeps the invariant. -/
theorem PaymentsInvariant.quiet {world : World} {index : ℕ} {outcome : Outcome}
    (hinvariant : PaymentsInvariant world)
    (hready : ClaimsInvariant (world.apply index outcome))
    (htables : outcome.tables = world.tables) (hcredited : outcome.credited = [])
    (hread : TransactionsRead world.tables outcome.process) :
    PaymentsInvariant (world.apply index outcome) := by
  obtain ⟨tables, process, pendingKey, credited⟩ := outcome
  obtain rfl : tables = world.tables := htables
  obtain rfl : credited = [] := hcredited
  have hsame : (world.apply index ⟨world.tables, process, pendingKey, []⟩).credited =
      world.credited := List.append_nil _
  refine ⟨hready, forall_setProcess hread fun other _ => hinvariant.read other,
    hinvariant.paidOnce, fun investmentId => ?_, fun credit hmem => ?_⟩
  · rw [World.verificationsOf, hsame]
    exact hinvariant.verified investmentId
  · exact hinvariant.confirmed credit (hsame ▸ hmem)

theorem PaymentsInvariant.step {world after : World} {event : Event}
    (hinvariant : PaymentsInvariant world) (hguard : FirstPayment world event)
    (hstep : PaymentVerification.step world event = some after) : PaymentsInvariant after := by
  have hready := hinvariant.ready.step hstep
  rcases step_cases hstep with ⟨input, rfl⟩ | ⟨thrown, rfl⟩ |
    ⟨environment, outcome, haction, _, hadvance, rfl⟩
  · exact hinvariant.quiet hready rfl rfl trivial
  · exact hinvariant.quiet hready rfl rfl trivial
  · have hmoved := transactionsRead_of_advance hadvance (hinvariant.read event.process)
    cases effect_of_advance hadvance with
    | quiet htables hcredited =>
        refine hinvariant.quiet hready htables hcredited ?_
        rwa [← htables]
    | @commit input matchedPayment investment existing inserted committed hprocess hcommit =>
        rw [FirstPayment, haction, hprocess] at hguard
        obtain ⟨hunconfirmed, hfirst⟩ := hguard
        have hread := hinvariant.read event.process
        rw [hprocess] at hread
        have hfree := hinvariant.ready.ready event.process
        rw [hprocess] at hfree
        have hids := hinvariant.paidOnce.transactionIds
        refine ⟨hready, forall_setProcess trivial fun other _ =>
            (hinvariant.read other).commit hcommit hids hread, ?_, fun investmentId => ?_,
          fun credit hmem => ?_⟩
        · refine hinvariant.paidOnce.commit hcommit hread (fun hinserted => ?_) hunconfirmed hfirst
          subst hinserted
          exact hfree.2
        · rw [World.verificationsOf, World.apply, List.filter_append, List.length_append]
          by_cases hsame : investmentId = investment.id
          · -- An unconfirmed investment has no verification yet.
            have hnone : world.credited.filter
                (fun credit => credit.investmentId == investmentId) = [] := by
              refine List.filter_eq_nil_iff.mpr fun credit hmem hcredit => ?_
              have hconfirmed := hinvariant.confirmed credit hmem
              rw [eq_of_beq hcredit, hsame, hunconfirmed] at hconfirmed
              cases hconfirmed
            rw [hnone]
            exact Nat.zero_add _ ▸ List.length_filter_le _ _
          · have hother := hinvariant.verified investmentId
            rw [World.verificationsOf] at hother
            simpa [Ne.symm hsame] using hother
        · change committed.confirmed credit.investmentId = true
          by_cases hsame : credit.investmentId = investment.id
          · rw [hsame]
            exact confirmed_of_commit hcommit
          · rcases List.mem_append.mp hmem with hold | hnew
            · rw [confirmed_commit_other hcommit hsame]
              exact hinvariant.confirmed credit hold
            · obtain rfl := List.mem_singleton.mp hnew
              exact absurd rfl hsame

/-- When every verification commits the first payment of its investment, no
investment consumes two. -/
theorem one_payment_of_first {first last : World} {events : List Event}
    (hinitial : Initial first) (hpaid : PaidOnce first.tables)
    (hrun : GuardedRun step FirstPayment first events last) (investmentId : Uuid) :
    OnePayment last investmentId := by
  have hfirst : PaymentsInvariant first :=
    { ready := claimsInvariant_of_run hinitial (.nil first)
      read := fun index => by
        rw [hinitial.allIdle]
        trivial
      paidOnce := hpaid
      verified := fun investmentId => by
        rw [World.verificationsOf, hinitial.noCredits]
        exact Nat.zero_le 1
      confirmed := fun credit hmem => by
        rw [hinitial.noCredits] at hmem
        cases hmem }
  have hlast := hrun.invariant
    (fun hguard hstep hinvariant => PaymentsInvariant.step hinvariant hguard hstep) hfirst
  exact ⟨hlast.verified investmentId, hlast.paidOnce.claims investmentId,
    hlast.paidOnce.completed investmentId⟩

/-! ### Two payments for one investment -/

theorem paidOnce_awaitingTables : PaidOnce awaitingTables :=
  ⟨List.nodup_nil, fun _ => Nat.zero_le 1, fun _ => Nat.zero_le 1⟩

/-- The second verification begins when the first one is committed. -/
def paymentsInTurn : List Event :=
  [⟨0, .start ⟨3, "a1b2", none⟩⟩, ⟨0, .advance {}⟩, ⟨0, .advance (paidBy 0)⟩, ⟨0, .advance {}⟩,
    ⟨0, .advance {}⟩, ⟨0, .advance {}⟩, ⟨0, .advance (paidBy 7)⟩,
    ⟨1, .start ⟨3, "c3d4", none⟩⟩, ⟨1, .advance {}⟩]

theorem paymentsInTurn_one_payment :
    ∃ last, GuardedRun step FirstPayment { tables := awaitingTables } paymentsInTurn last ∧
      last.credited = [⟨⟨"A1B2", 0⟩, 3⟩] ∧ OnePayment last 3 := by
  have hcredited : (execGuarded step FirstPayment { tables := awaitingTables }
      paymentsInTurn).map World.credited = some [⟨⟨"A1B2", 0⟩, 3⟩] := by
    decide +kernel
  obtain ⟨last, hrun, hlast⟩ := exists_guardedRun hcredited
  exact ⟨last, hrun, hlast,
    one_payment_of_first initial_awaitingTables paidOnce_awaitingTables hrun 3⟩

/-- Both verifications read the investment before one of them commits. -/
def paymentsOverlapping : List Event :=
  [⟨0, .start ⟨3, "a1b2", none⟩⟩, ⟨1, .start ⟨3, "c3d4", none⟩⟩,
    ⟨0, .advance {}⟩, ⟨1, .advance {}⟩, ⟨0, .advance (paidBy 0)⟩, ⟨1, .advance (paidBy 0)⟩,
    ⟨0, .advance {}⟩, ⟨1, .advance {}⟩, ⟨0, .advance {}⟩, ⟨1, .advance {}⟩,
    ⟨0, .advance {}⟩, ⟨1, .advance {}⟩, ⟨0, .advance (paidBy 7)⟩, ⟨1, .advance (paidBy 8)⟩]

theorem paymentsOverlapping_two_payments :
    ∃ first last, Initial first ∧ PaidOnce first.tables ∧
      Run step first paymentsOverlapping last ∧
      last.credited = [⟨⟨"A1B2", 0⟩, 3⟩, ⟨⟨"C3D4", 0⟩, 3⟩] ∧
      (last.tables.claimsNaming 3).length = 2 ∧
      (last.tables.completedInvestments 3).length = 2 ∧ ¬OnePayment last 3 := by
  have hpayments : (exec step { tables := awaitingTables } paymentsOverlapping).map (fun last =>
      (last.credited, (last.tables.claimsNaming 3).length,
        (last.tables.completedInvestments 3).length)) =
      some ([⟨⟨"A1B2", 0⟩, 3⟩, ⟨⟨"C3D4", 0⟩, 3⟩], 2, 2) := by
    decide +kernel
  obtain ⟨last, hreached, hlast⟩ := exists_run hpayments
  simp only [Prod.mk.injEq] at hlast
  obtain ⟨hcredited, hclaims, hcompleted⟩ := hlast
  refine ⟨_, last, initial_awaitingTables, paidOnce_awaitingTables, hreached, hcredited,
    hclaims, hcompleted, fun hone => ?_⟩
  have hatMost := hone.claims
  omega

end StellarSettle.PaymentVerification
