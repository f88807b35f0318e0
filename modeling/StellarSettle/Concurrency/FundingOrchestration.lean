import StellarSettle.Concurrency.PaymentVerification

/-!
# Funding an investment while its payment is verified

`orchestrateFunding` checks that the investment is pending, waits for the escrow
client, and then saves the investment's transaction row as PENDING in a database
transaction of its own, which does not look at the status again.  The calls run
next to verifications of the same tables.  A save is the write of every column
that differs from the stored row.
-/

namespace StellarSettle.FundingOrchestration

open StellarSettle.Checks
open StellarSettle.Entities
open StellarSettle.KeyedRows
open StellarSettle.PaymentVerification
open StellarSettle.TransitionSystem
open StellarSettle.VerifyPayment

/-! ## Statements -/

structure FundingConfig where
  enabled : Bool
  contractId : Option String
  deriving DecidableEq, Repr

/-- What the escrow client prepares. -/
structure SorobanEscrowFundingDraft where
  xdr : String
  expiresAt : String
  txHash : String
  deriving DecidableEq, Repr

inductive OrchestrateInvestmentFundingResult where
  | disabled (investmentId : Uuid)
  | walletXdr (investmentId transactionId : Uuid) (contractId : String)
      (draft : SorobanEscrowFundingDraft)
  deriving DecidableEq, Repr

def invalidInvestmentState : ServiceError :=
  { code := .invalidInvestmentState
    message := "Only pending investments can be funded."
    statusCode := 409 }

def sorobanContractNotConfigured : ServiceError :=
  { code := .sorobanContractNotConfigured
    message := "Soroban escrow is enabled but no contract ID is configured."
    statusCode := 500 }

/-- The look-up and the checks before the escrow call: the investment as read and the
contract, or nothing when funding is disabled.  `invoice_id` is never null. -/
def readFunding (tables : PaymentTables) (config : FundingConfig) (investmentId : Uuid) :
    Except Thrown (Investment × Option String) := do
  let investment ← orThrow (tables.findInvestment investmentId) (.service investmentNotFound)
  throwIf (investment.status ≠ .pending) (.service invalidInvestmentState)
  if config.enabled then
    let contractId ← orThrow (config.contractId.filter fun id => id != "")
      (.service sorobanContractNotConfigured)
    return (investment, some contractId)
  else return (investment, none)

def storedTransaction (tables : PaymentTables) (id : Uuid) : Option StoredTransaction :=
  findRow StoredTransaction.id tables.transactions id

/-- The later of a row, if there is one, and the next one. -/
def laterTransaction (timestamp : Uuid → Timestamp) (latest : Option StoredTransaction)
    (transaction : StoredTransaction) : Option StoredTransaction :=
  match latest with
  | none => some transaction
  | some found =>
      if timestamp found.id < timestamp transaction.id then some transaction else some found

/-- `findOne(Transaction, { where: { investmentId, type: INVESTMENT }, order: { timestamp:
DESC } })`; the column is `timestamp`. -/
def latestInvestmentTransaction (tables : PaymentTables) (investmentId : Uuid)
    (timestamp : Uuid → Timestamp) : Option StoredTransaction :=
  ((tables.linkedTransactions investmentId).filter fun transaction =>
    transaction.type == .investment).foldl (laterTransaction timestamp) none

/-- `createTransaction`, or the row found, with the columns that are assigned to it. -/
def fundingTransaction (investment : Investment) (existing : Option StoredTransaction)
    (newId : Uuid) : StoredTransaction :=
  { id := (existing.map StoredTransaction.id).getD newId
    userId := some investment.investorId
    investmentId := some investment.id
    type := .investment
    amount := investment.investmentAmount
    stellarTxHash := existing.bind fun transaction => transaction.stellarTxHash
    stellarOperationIndex := existing.bind fun transaction => transaction.stellarOperationIndex
    status := .pending }

/-- `saveTransaction`: nothing is written when no column differs; otherwise the hook
of the entity puts the hash in upper case. -/
def saveFundingTransaction (tables : PaymentTables) (entity : StoredTransaction) :
    PaymentTables :=
  if storedTransaction tables entity.id = some entity then tables
  else
    { tables with
      transactions := saveTransaction tables.transactions
        { entity with stellarTxHash := entity.stellarTxHash.map String.toUpper } }

/-- The save and the commit. -/
def commitFundingTransaction (tables : PaymentTables) (investment : Investment)
    (existing : Option StoredTransaction) (newId : Uuid) : Except Thrown PaymentTables := do
  throwIf (existing = none ∧ tables.transactions.any fun row => row.id == newId)
    (.error "QueryFailedError: duplicate key value violates unique constraint")
  return saveFundingTransaction tables (fundingTransaction investment existing newId)

/-! ## Calls -/

inductive FundingStage where
  | find
  | prepare (investment : Investment) (contractId : String)
  | findInvestment (investmentId : Uuid) (contractId : String)
      (draft : SorobanEscrowFundingDraft)
  | findTransaction (investment : Investment) (contractId : String)
      (draft : SorobanEscrowFundingDraft)
  | save (investment : Investment) (existing : Option StoredTransaction) (contractId : String)
      (draft : SorobanEscrowFundingDraft)

inductive FundingCall where
  | idle
  | finished (result : Except Thrown OrchestrateInvestmentFundingResult)
  | orchestrateFunding (investmentId : Uuid) (stage : FundingStage)

/-- The configuration, the answer of the escrow client, the timestamps of the
transactions and the id of an inserted one. -/
structure FundingEnvironment where
  config : FundingConfig := ⟨true, some "CESCROW"⟩
  draft : Except Thrown SorobanEscrowFundingDraft := .ok ⟨"", "", ""⟩
  timestamp : Uuid → Timestamp := fun _ => 0
  newId : Uuid := 0

structure FundingOutcome where
  tables : PaymentTables
  call : FundingCall

/-- Go on with the value, or end the call with the error. -/
def FundingOutcome.attempt {α : Type} (tables : PaymentTables) (result : Except Thrown α)
    (next : α → FundingOutcome) : FundingOutcome :=
  match result with
  | .error thrown => { tables := tables, call := .finished (.error thrown) }
  | .ok value => next value

theorem FundingOutcome.attempt_rule {α : Type} {P : FundingOutcome → Prop}
    {tables : PaymentTables} {result : Except Thrown α} {next : α → FundingOutcome}
    (hfail : ∀ thrown, P { tables := tables, call := .finished (.error thrown) })
    (hnext : ∀ value, result = .ok value → P (next value)) :
    P (.attempt tables result next) := by
  cases result with
  | error thrown => exact hfail thrown
  | ok value => exact hnext value rfl

def advanceFunding (investmentId : Uuid) (environment : FundingEnvironment)
    (tables : PaymentTables) : FundingStage → FundingOutcome
  | .find =>
      .attempt tables (readFunding tables environment.config investmentId) fun read =>
        match read with
        | (investment, none) =>
            { tables := tables, call := .finished (.ok (.disabled investment.id)) }
        | (investment, some contractId) =>
            { tables := tables
              call := .orchestrateFunding investmentId (.prepare investment contractId) }
  | .prepare investment contractId =>
      .attempt tables environment.draft fun draft =>
        { tables := tables
          call := .orchestrateFunding investmentId
            (.findInvestment investment.id contractId draft) }
  | .findInvestment lockedId contractId draft =>
      .attempt tables (orThrow (tables.findInvestment lockedId) (.service investmentNotFound))
        fun investment =>
          { tables := tables
            call := .orchestrateFunding investmentId
              (.findTransaction investment contractId draft) }
  | .findTransaction investment contractId draft =>
      { tables := tables
        call := .orchestrateFunding investmentId (.save investment
          (latestInvestmentTransaction tables investment.id environment.timestamp)
          contractId draft) }
  | .save investment existing contractId draft =>
      .attempt tables (commitFundingTransaction tables investment existing environment.newId)
        fun committed =>
          { tables := committed
            call := .finished (.ok (.walletXdr investment.id
              (fundingTransaction investment existing environment.newId).id contractId draft)) }

/-! ## The system -/

/-- Verifications and funding calls over the same tables. -/
structure World where
  payments : PaymentVerification.World
  call : ℕ → FundingCall := fun _ => .idle

inductive FundingAction where
  | start (investmentId : Uuid)
  | advance (environment : FundingEnvironment)
  | fail (thrown : Thrown)

inductive Event where
  | verification (event : PaymentVerification.Event)
  | funding (index : ℕ) (action : FundingAction)

def World.tables (world : World) : PaymentTables := world.payments.tables

def World.apply (world : World) (index : ℕ) (outcome : FundingOutcome) : World :=
  { payments := { world.payments with tables := outcome.tables }
    call := setProcess world.call index outcome.call }

def step (world : World) : Event → Option World
  | .verification event =>
      (PaymentVerification.step world.payments event).map fun payments =>
        { world with payments := payments }
  | .funding index action =>
      match action, world.call index with
      | .start investmentId, .idle =>
          some (world.apply index
            { tables := world.tables, call := .orchestrateFunding investmentId .find })
      | .advance environment, .orchestrateFunding investmentId stage =>
          some (world.apply index (advanceFunding investmentId environment world.tables stage))
      | .fail thrown, .orchestrateFunding _ _ =>
          some (world.apply index
            { tables := world.tables, call := .finished (.error thrown) })
      | _, _ => none

/-! ## Completed transactions -/

/-- Every completed transaction is still completed, with the same hash. -/
def Keeps (before after : PaymentTables) : Prop :=
  ∀ id row, storedTransaction before id = some row → row.status = .completed →
    ∃ kept, storedTransaction after id = some kept ∧ kept.status = .completed ∧
      kept.stellarTxHash = row.stellarTxHash

theorem Keeps.refl (tables : PaymentTables) : Keeps tables tables :=
  fun _ row hrow hcompleted => ⟨row, hrow, hcompleted, rfl⟩

theorem Keeps.trans {first middle last : PaymentTables} (hbefore : Keeps first middle)
    (hafter : Keeps middle last) : Keeps first last := by
  intro id row hrow hcompleted
  obtain ⟨kept, hkept, hstill, hhash⟩ := hbefore id row hrow hcompleted
  obtain ⟨final, hfinal, hlast, hsame⟩ := hafter id kept hkept hstill
  exact ⟨final, hfinal, hlast, hsame.trans hhash⟩

/-- A save of one row keeps the completed transactions when it keeps that one. -/
theorem keeps_of_save {before after : PaymentTables} {entity : StoredTransaction}
    (hsave : after.transactions = saveTransaction before.transactions entity)
    (hown : ∀ row, storedTransaction before entity.id = some row → row.status = .completed →
      entity.status = .completed ∧ entity.stellarTxHash = row.stellarTxHash) :
    Keeps before after := by
  intro id row hrow hcompleted
  by_cases hsame : id = entity.id
  · subst hsame
    have hsaved : storedTransaction after entity.id = some entity := by
      rw [storedTransaction, hsave]
      exact findRow_saveRow_self
    obtain ⟨hstill, hhash⟩ := hown row hrow hcompleted
    exact ⟨entity, hsaved, hstill, hhash⟩
  · have hother : storedTransaction after id = some row := by
      rw [storedTransaction, hsave, ← hrow]
      exact findRow_saveRow_other hsame
    exact ⟨row, hother, hcompleted, rfl⟩

/-- An inserted row has the id of no stored one. -/
theorem storedTransaction_of_fresh {tables : PaymentTables} {id : Uuid}
    (hfresh : ∀ row ∈ tables.transactions, row.id ≠ id) : storedTransaction tables id = none :=
  findRow_eq_none.mpr hfresh

theorem keeps_of_commitVerification {tables committed : PaymentTables}
    {input : PaymentVerificationInput} {matchedPayment : PaymentMatch} {investment : Investment}
    {existing : Option StoredTransaction} {inserted : Bool} {newId : Uuid}
    (hcommit : PaymentVerification.commitVerification tables input matchedPayment investment
      existing inserted newId = .ok committed)
    (hguard : ∀ found ∈ existing, ∀ row ∈ storedTransaction tables found.id,
      row.status = .completed → row.stellarTxHash = some input.stellarTxHash.toUpper) :
    Keeps tables committed := by
  obtain ⟨hfresh, rfl⟩ := commitVerification_eq_ok.mp hcommit
  have hsave : saveRow StoredTransaction.id tables.transactions
      (savedTransaction input matchedPayment investment existing newId) =
        saveTransaction tables.transactions
          (savedTransaction input matchedPayment investment existing newId) := rfl
  refine keeps_of_save hsave fun row hrow hcompleted => ?_
  cases existing with
  | none => cases hrow.symm.trans (storedTransaction_of_fresh (hfresh rfl))
  | some found => exact ⟨rfl, (hguard found rfl row hrow hcompleted).symm⟩

theorem keeps_of_commitFundingTransaction {tables committed : PaymentTables}
    {investment : Investment} {existing : Option StoredTransaction} {newId : Uuid}
    (hcommit : commitFundingTransaction tables investment existing newId = .ok committed)
    (hguard : ∀ found ∈ existing, ∀ row ∈ storedTransaction tables found.id,
      row.status ≠ .completed) : Keeps tables committed := by
  obtain ⟨_, hfresh, hrest⟩ := bind_eq_ok.mp hcommit
  obtain rfl := pure_eq_ok.mp hrest
  rw [saveFundingTransaction]
  split
  · exact Keeps.refl tables
  · refine keeps_of_save rfl fun row hrow hcompleted => ?_
    cases existing with
    | none =>
        have hnew : ∀ row ∈ tables.transactions, row.id ≠ newId := by
          simpa using throwIf_eq_ok.mp hfresh
        cases hrow.symm.trans (storedTransaction_of_fresh hnew)
    | some found => exact absurd hcompleted (hguard found rfl row hrow)

/-! ## The condition -/

/-- The row that a funding call found and is about to save. -/
def fundingSave (world : World) : Event → Option StoredTransaction
  | .funding index (.advance _) =>
      match world.call index with
      | .orchestrateFunding _ (.save _ existing _ _) => existing
      | _ => none
  | _ => none

/-- The row that a verification found and is about to save, and the hash it is
called with. -/
def verificationSave (world : World) : Event → Option (String × StoredTransaction)
  | .verification event =>
      match event.action, world.payments.process event.process with
      | .advance _, .verifyPayment input (.commit _ _ existing _) =>
          existing.map fun found => (input.stellarTxHash, found)
      | _, _ => none
  | _ => none

/-- No funding call saves a row that is completed by now, and no verification saves one
that is completed with another hash. -/
def SavesCurrent (world : World) (event : Event) : Prop :=
  (∀ found ∈ fundingSave world event, ∀ row ∈ storedTransaction world.tables found.id,
      row.status ≠ .completed) ∧
    ∀ save ∈ verificationSave world event, ∀ row ∈ storedTransaction world.tables save.2.id,
      row.status = .completed → row.stellarTxHash = some save.1.toUpper

instance (world : World) (event : Event) : Decidable (SavesCurrent world event) :=
  inferInstanceAs (Decidable (_ ∧ _))

theorem keeps_of_verification {world : World} {event : PaymentVerification.Event}
    {payments : PaymentVerification.World}
    (hguard : SavesCurrent world (.verification event))
    (hstep : PaymentVerification.step world.payments event = some payments) :
    Keeps world.tables payments.tables := by
  rcases PaymentVerification.step_cases hstep with ⟨input, rfl⟩ | ⟨thrown, rfl⟩ |
    ⟨environment, outcome, haction, _, hadvance, rfl⟩
  · exact Keeps.refl _
  · exact Keeps.refl _
  · cases effect_of_advance hadvance with
    | quiet htables _ =>
        change Keeps world.tables outcome.tables
        rw [htables]
        exact Keeps.refl _
    | @commit input matchedPayment investment existing inserted committed hprocess hcommit =>
        refine keeps_of_commitVerification hcommit fun found hfound => ?_
        refine hguard.2 (input.stellarTxHash, found) ?_
        rw [verificationSave, haction, hprocess, Option.mem_def.mp hfound]
        rfl

theorem keeps_of_advanceFunding {world : World} {index : ℕ} {environment : FundingEnvironment}
    {investmentId : Uuid} {stage : FundingStage}
    (hcall : world.call index = .orchestrateFunding investmentId stage)
    (hguard : SavesCurrent world (.funding index (.advance environment))) :
    Keeps world.tables (advanceFunding investmentId environment world.tables stage).tables := by
  -- Only the save writes anything.
  have hsame : ∀ call, Keeps world.tables (FundingOutcome.mk world.tables call).tables :=
    fun _ => Keeps.refl _
  cases stage with
  | find =>
      refine FundingOutcome.attempt_rule (P := fun outcome => Keeps world.tables outcome.tables)
        (fun _ => hsame _) fun read _ => ?_
      obtain ⟨investment, contractId⟩ := read
      cases contractId with
      | none => exact hsame _
      | some contractId => exact hsame _
  | prepare investment contractId =>
      exact FundingOutcome.attempt_rule (P := fun outcome => Keeps world.tables outcome.tables)
        (fun _ => hsame _) fun _ _ => hsame _
  | findInvestment lockedId contractId draft =>
      exact FundingOutcome.attempt_rule (P := fun outcome => Keeps world.tables outcome.tables)
        (fun _ => hsame _) fun _ _ => hsame _
  | findTransaction investment contractId draft => exact hsame _
  | save investment existing contractId draft =>
      refine FundingOutcome.attempt_rule (P := fun outcome => Keeps world.tables outcome.tables)
        (fun _ => hsame _) fun committed hcommit => ?_
      refine keeps_of_commitFundingTransaction hcommit fun found hfound => hguard.1 found ?_
      rw [fundingSave, hcall]
      exact hfound

/-- One step under the condition. -/
theorem keeps_of_step {before after : World} {event : Event} (hguard : SavesCurrent before event)
    (hstep : step before event = some after) : Keeps before.tables after.tables := by
  cases event with
  | verification event =>
      obtain ⟨payments, hpayments, rfl⟩ := Option.map_eq_some_iff.mp hstep
      exact keeps_of_verification hguard hpayments
  | funding index action =>
      dsimp only [step] at hstep
      split at hstep
      · obtain rfl := Option.some.inj hstep
        exact Keeps.refl _
      · rename_i hcall
        obtain rfl := Option.some.inj hstep
        exact keeps_of_advanceFunding hcall hguard
      · obtain rfl := Option.some.inj hstep
        exact Keeps.refl _
      · cases hstep

/-- A funding call leaves the row it found as PENDING. -/
theorem pending_of_saveFundingTransaction {tables : PaymentTables} {investment : Investment}
    {found row : StoredTransaction} {newId : Uuid}
    (hrow : storedTransaction
      (saveFundingTransaction tables (fundingTransaction investment (some found) newId))
      found.id = some row) : row.status = .pending := by
  rw [saveFundingTransaction] at hrow
  split at hrow
  · rename_i hsame
    obtain rfl := Option.some.inj (hrow.symm.trans hsame)
    rfl
  · obtain rfl := Option.some.inj (hrow.symm.trans findRow_saveRow_self)
    rfl

/-- The condition excludes no harmless save: a late one reopens its row, or replaces the
hash. -/
theorem savesCurrent_of_keeps {before after : World} {event : Event}
    (hstep : step before event = some after) (hkeeps : Keeps before.tables after.tables) :
    SavesCurrent before event := by
  constructor
  · intro found hfound row hrow hcompleted
    obtain ⟨kept, hkept, hstill, _⟩ := hkeeps found.id row hrow hcompleted
    revert hfound
    cases event with
    | verification event => intro hnone; cases hnone
    | funding index action =>
        cases action with
        | start investmentId => intro hnone; cases hnone
        | fail thrown => intro hnone; cases hnone
        | advance environment =>
            rw [fundingSave]
            split
            · rename_i investmentId investment existing contractId draft hcall
              intro hfound
              obtain rfl := Option.mem_def.mp hfound
              simp only [step, hcall, Option.some.injEq] at hstep
              obtain rfl := hstep
              have hpending := pending_of_saveFundingTransaction hkept
              rw [hpending] at hstill
              cases hstill
            · intro hnone
              cases hnone
  · intro save hsave row hrow hcompleted
    obtain ⟨kept, hkept, _, hhash⟩ := hkeeps save.2.id row hrow hcompleted
    revert hsave
    cases event with
    | funding index action => intro hnone; cases hnone
    | verification event =>
        obtain ⟨index, action⟩ := event
        obtain ⟨payments, hpayments, rfl⟩ := Option.map_eq_some_iff.mp hstep
        rw [verificationSave]
        split
        · rename_i environment input matchedPayment investment existing inserted haction hprocess
          intro hsave
          obtain ⟨found, rfl, rfl⟩ := Option.map_eq_some_iff.mp (Option.mem_def.mp hsave)
          dsimp only at haction hprocess
          simp only [PaymentVerification.step, haction, hprocess, needsKey, Option.any_none,
            Bool.false_eq_true, if_false, advance, Option.map_some, Option.some.injEq] at hpayments
          obtain rfl := hpayments
          have hsaved := findRow_saveRow_self.symm.trans hkept
          rw [← hhash, ← Option.some.inj hsaved]
          rfl
        · intro hnone
          cases hnone

/-- In every run in which each save finds its row as current as the condition asks, a
completed transaction stays completed and keeps its hash. -/
theorem completed_kept {first last : World} {events : List Event}
    (hrun : GuardedRun step SavesCurrent first events last) :
    ∀ id row, storedTransaction first.tables id = some row → row.status = .completed →
      ∃ kept, storedTransaction last.tables id = some kept ∧ kept.status = .completed ∧
        kept.stellarTxHash = row.stellarTxHash := by
  suffices hkeeps : Keeps first.tables last.tables from hkeeps
  induction hrun with
  | nil world => exact Keeps.refl _
  | cons hguard hstep _ ih => exact (keeps_of_step hguard hstep).trans ih

/-! ## A payment verified before and after the save -/

def fund (index : ℕ) (newId : Uuid) : List Event :=
  [.funding index (.start 3), .funding index (.advance {}), .funding index (.advance {}),
    .funding index (.advance {}), .funding index (.advance {}),
    .funding index (.advance { newId := newId })]

def verify (index : ℕ) (newId : Uuid) : List Event :=
  [.verification ⟨index, .start ⟨3, "a1b2", none⟩⟩, .verification ⟨index, .advance {}⟩,
    .verification ⟨index, .advance (paidBy 0)⟩, .verification ⟨index, .advance {}⟩,
    .verification ⟨index, .advance {}⟩, .verification ⟨index, .advance {}⟩,
    .verification ⟨index, .advance (paidBy newId)⟩]

def stored (world : World) : Option (TransactionStatus × Option String) :=
  (storedTransaction world.tables 6).map fun row => (row.status, row.stellarTxHash)

/-- The row is found before the verification completes it, and saved afterwards. -/
theorem fundingAcrossVerification_reopens : ∃ middle last,
    Run step { payments := { tables := awaitingTables } }
        (fund 0 6 ++ (fund 2 9).take 5 ++ verify 1 8) middle ∧
      Run step middle ((fund 2 9).drop 5) last ∧
      stored middle = some (.completed, some "A1B2") ∧ stored last = some (.pending, none) := by
  have hbefore : (exec step { payments := { tables := awaitingTables } }
      (fund 0 6 ++ (fund 2 9).take 5 ++ verify 1 8)).map stored =
        some (some (.completed, some "A1B2")) := by
    decide +kernel
  have hafter : (exec step { payments := { tables := awaitingTables } }
      (fund 0 6 ++ (fund 2 9).take 5 ++ verify 1 8 ++ (fund 2 9).drop 5)).map stored =
        some (some (.pending, none)) := by
    decide +kernel
  obtain ⟨last, hlast, hreopened⟩ := exists_run hafter
  obtain ⟨middle, hmiddle, _, hsave⟩ := hlast.last_event
  rw [hmiddle, Option.map_some, Option.some.injEq] at hbefore
  exact ⟨middle, last, run_of_exec hmiddle, .cons trivial hsave (.nil last), hbefore, hreopened⟩

/-- What the two calls leave when the verification comes last. -/
def verifiedTables : PaymentTables :=
  { investments := [{ awaitingInvestment 3 with
      status := .confirmed, transactionHash := some "a1b2", stellarOperationIndex := some 0 }]
    transactions := [{ userId := some 4, investmentId := some 3, type := .investment
                       amount := 1000000, stellarTxHash := some "A1B2"
                       stellarOperationIndex := some 0, status := .completed, id := 6 }]
    claims := [(⟨"A1B2", 0⟩, ⟨some 3, none⟩)] }

theorem laterCalls_kept : ∃ last,
    GuardedRun step SavesCurrent { payments := { tables := verifiedTables } }
        ([.funding 2 (.start 3), .funding 2 (.advance {})] ++ (verify 1 8).take 2) last ∧
      ∃ kept, storedTransaction last.tables 6 = some kept ∧ kept.status = .completed ∧
        kept.stellarTxHash = some "A1B2" := by
  have hexec : (execGuarded step SavesCurrent { payments := { tables := verifiedTables } }
      ([.funding 2 (.start 3), .funding 2 (.advance {})] ++ (verify 1 8).take 2)).map stored =
        some (some (.completed, some "A1B2")) := by
    decide +kernel
  obtain ⟨last, hrun, _⟩ := exists_guardedRun hexec
  exact ⟨last, hrun, completed_kept hrun 6 _ rfl rfl⟩

end StellarSettle.FundingOrchestration
