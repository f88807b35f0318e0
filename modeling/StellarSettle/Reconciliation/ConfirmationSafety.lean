import StellarSettle.Reconciliation.PendingConfirmations

/-!
# What is said of a transaction

Whatever callers and workers do at the same time, the calls that return, the rows of the table and
the ledger say the same of a transaction.  A call that times out leaves its transaction in the
table, no row is lost, and a row that says how its transaction ended is not written again.
-/

namespace StellarSettle.ConfirmationSafety

open StellarSettle.EventReader (trimText trimText_trimText)
open StellarSettle.PendingConfirmations
open StellarSettle.PendingConfirmations.PendingTable (IsPending)
open StellarSettle.TransitionSystem
open StellarSettle.UniqueColumns (StorageOrder)

/-! ## What stays -/

/-- A row keeps what it was queued with, and stays as it is once its transaction has ended. -/
structure KeptAs (row kept : PendingStellarTransaction) : Prop where
  stellarTxHash : kept.stellarTxHash = row.stellarTxHash
  contractId : kept.contractId = row.contractId
  submittedAt : kept.submittedAt = row.submittedAt
  createdAt : kept.createdAt = row.createdAt
  ended : ¬IsPending row → kept = row

theorem KeptAs.refl (row : PendingStellarTransaction) : KeptAs row row :=
  ⟨rfl, rfl, rfl, rfl, fun _ => rfl⟩

theorem KeptAs.trans {row middle kept : PendingStellarTransaction} (hfirst : KeptAs row middle)
    (hsecond : KeptAs middle kept) : KeptAs row kept where
  stellarTxHash := hsecond.stellarTxHash.trans hfirst.stellarTxHash
  contractId := hsecond.contractId.trans hfirst.contractId
  submittedAt := hsecond.submittedAt.trans hfirst.submittedAt
  createdAt := hsecond.createdAt.trans hfirst.createdAt
  ended hended := by
    have hmiddle : middle = row := hfirst.ended hended
    rw [← hmiddle] at hended ⊢
    exact hsecond.ended hended

theorem keptAs_reconciled (confirmation : Confirmation) (now : ℤ)
    {row : PendingStellarTransaction} (hpending : IsPending row) :
    KeptAs row (reconciled confirmation now row) := by
  unfold reconciled
  split
  all_goals exact ⟨rfl, rfl, rfl, rfl, fun hended => absurd hpending hended⟩

def TableKept (before after : PendingTable) : Prop :=
  ∀ row ∈ before.rows, ∃ kept ∈ after.rows, KeptAs row kept

section Tables

variable {table : PendingTable} {row new : PendingStellarTransaction} {txHash : String}
  {confirmation : Confirmation} {now : ℤ}

theorem mem_insertOrIgnore (hrow : row ∈ (table.insertOrIgnore new).rows) :
    row ∈ table.rows ∨ row = new := by
  unfold PendingTable.insertOrIgnore at hrow
  split at hrow
  · exact .inl hrow
  · simpa using hrow

theorem mem_insertOrIgnore_of_mem (hrow : row ∈ table.rows) :
    row ∈ (table.insertOrIgnore new).rows := by
  unfold PendingTable.insertOrIgnore
  split
  · exact hrow
  · exact List.mem_append_left _ hrow

/-- Afterwards the hash has a row, the new one or the one it had. -/
theorem exists_insertOrIgnore (table : PendingTable) (new : PendingStellarTransaction) :
    ∃ row ∈ (table.insertOrIgnore new).rows, row.stellarTxHash = new.stellarTxHash := by
  unfold PendingTable.insertOrIgnore
  split
  · rename_i hstored
    simpa using hstored
  · exact ⟨new, List.mem_append_right _ (List.mem_singleton_self new), rfl⟩

theorem mem_reconcile : row ∈ (table.reconcile txHash confirmation now).rows ↔
    ∃ old ∈ table.rows, (if old.stellarTxHash = txHash ∧ IsPending old then
      reconciled confirmation now old else old) = row := by
  rw [PendingTable.reconcile, PendingTable.updatePending, List.mem_map]

theorem tableKept_insertOrIgnore : TableKept table (table.insertOrIgnore new) := fun row hrow =>
  ⟨row, mem_insertOrIgnore_of_mem hrow, KeptAs.refl row⟩

theorem tableKept_reconcile : TableKept table (table.reconcile txHash confirmation now) := by
  intro row hrow
  refine ⟨_, mem_reconcile.mpr ⟨row, hrow, rfl⟩, ?_⟩
  split
  · rename_i hupdated
    exact keptAs_reconciled confirmation now hupdated.2
  · exact KeptAs.refl row

theorem TableKept.refl (table : PendingTable) : TableKept table table := fun row hrow =>
  ⟨row, hrow, KeptAs.refl row⟩

theorem TableKept.trans {before middle after : PendingTable} (hfirst : TableKept before middle)
    (hsecond : TableKept middle after) : TableKept before after := by
  intro row hrow
  obtain ⟨reached, hreached, hkept⟩ := hfirst row hrow
  obtain ⟨last, hlast, hlater⟩ := hsecond reached hreached
  exact ⟨last, hlast, hkept.trans hlater⟩

/-- The rows that a worker loads are pending rows of the table. -/
theorem of_mem_findPending {order : StorageOrder PendingStellarTransaction} {batchSize : ℕ}
    (hrow : row ∈ table.findPending order batchSize) : row ∈ table.rows ∧ IsPending row := by
  obtain ⟨hstored, hpending⟩ := List.mem_filter.mp (OldestFirst.mem_of_mem_batch hrow)
  exact ⟨hstored, of_decide_eq_true hpending⟩

end Tables

/-! ## What a step does -/

section Steps

variable {Index : Type} [DecidableEq Index] {config : Index → EscrowConfig}
  {before after : World Index} {event : Event Index}

/-- A transaction is applied, a call moves and may queue its transaction, or a worker moves and may
update a row. -/
inductive Moves (config : Index → EscrowConfig) (before : World Index) :
    Event Index → World Index → Prop
  | applied (txHash : String) (outcome : Outcome) (hfresh : before.chain txHash = none) :
      Moves config before (.applied txHash outcome)
        { before with chain := Function.update before.chain txHash (some outcome) }
  | starts (call : Index) (txHash : String) (hidle : before.wait call = .idle) :
      Moves config before (.waitStarts call txHash)
        (before.setWait call (waitForTransactionConfirmation (config call) txHash))
  | polled (call : Index) (answer : Option GetTransaction) (txHash : String) (attempt : ℕ)
      (hpolling : before.wait call = .polling txHash attempt) :
      Moves config before (.polled call answer)
        (before.setWait call (receive (config call) txHash attempt answer))
  | recorded (call : Index) (submittedAt createdAt : ℤ) (txHash : String)
      (hrecording : before.wait call = .recording txHash) :
      Moves config before (.recorded call submittedAt createdAt)
        { before.setWait call (.thrown (confirmationTimeout (config call) txHash)) with
          table := before.table.insertOrIgnore
            (pendingRow (config call) txHash submittedAt createdAt) }
  | recordLost (call : Index) (submittedAt createdAt : ℤ) (txHash : String)
      (hrecording : before.wait call = .recording txHash) :
      Moves config before (.recordFails call submittedAt createdAt true)
        { before.setWait call (.thrown (persistenceFailed txHash)) with
          table := before.table.insertOrIgnore
            (pendingRow (config call) txHash submittedAt createdAt) }
  | recordFails (call : Index) (submittedAt createdAt : ℤ) (txHash : String)
      (hrecording : before.wait call = .recording txHash) :
      Moves config before (.recordFails call submittedAt createdAt false)
        (before.setWait call (.thrown (persistenceFailed txHash)))
  | tickStarts (worker : Index) (hidle : before.tick worker = .idle) :
      Moves config before (.tickStarts worker) (before.setTick worker .loading)
  | tickLoads (worker : Index) (order : StorageOrder PendingStellarTransaction)
      (hloading : before.tick worker = .loading) :
      Moves config before (.tickLoads worker order)
        (before.setTick worker
          (nextChecked (before.table.findPending order (config worker).batchSize)))
  | tickLoadFails (worker : Index) (hloading : before.tick worker = .loading) :
      Moves config before (.tickLoadFails worker) (before.setTick worker .idle)
  | checked (worker : Index) (answer : Option GetTransaction)
      (transaction : PendingStellarTransaction) (rest : List PendingStellarTransaction)
      (hchecking : before.tick worker = .checking transaction rest) :
      Moves config before (.checked worker answer)
        (before.setTick worker (afterCheck (config worker) transaction rest answer))
  | updated (worker : Index) (now : ℤ) (transaction : PendingStellarTransaction)
      (rest : List PendingStellarTransaction) (confirmation : Confirmation)
      (hupdating : before.tick worker = .updating transaction rest confirmation) :
      Moves config before (.updated worker now)
        { before.setTick worker (nextChecked rest) with
          table := before.table.reconcile transaction.stellarTxHash confirmation now }
  | updateLost (worker : Index) (now : ℤ) (transaction : PendingStellarTransaction)
      (rest : List PendingStellarTransaction) (confirmation : Confirmation)
      (hupdating : before.tick worker = .updating transaction rest confirmation) :
      Moves config before (.updateFails worker now true)
        { before.setTick worker (nextChecked rest) with
          table := before.table.reconcile transaction.stellarTxHash confirmation now }
  | updateFails (worker : Index) (now : ℤ) (transaction : PendingStellarTransaction)
      (rest : List PendingStellarTransaction) (confirmation : Confirmation)
      (hupdating : before.tick worker = .updating transaction rest confirmation) :
      Moves config before (.updateFails worker now false)
        (before.setTick worker (nextChecked rest))

theorem moves_of_step (hstep : step config before event = some after) :
    Moves config before event after := by
  cases event with
  | applied | waitStarts | tickStarts | tickLoads | tickLoadFails =>
      simp only [step, Option.ite_none_right_eq_some, Option.some.injEq] at hstep
      obtain ⟨hguard, rfl⟩ := hstep
      constructor
      exact hguard
  | polled call answer =>
      simp only [step] at hstep
      split at hstep
      · rename_i txHash attempt hpolling
        obtain rfl := Option.some.inj hstep
        exact .polled call answer txHash attempt hpolling
      · cases hstep
  | recorded call submittedAt createdAt =>
      simp only [step, stepRecord] at hstep
      split at hstep
      · rename_i txHash hrecording
        obtain rfl := Option.some.inj hstep
        exact .recorded call submittedAt createdAt txHash hrecording
      · cases hstep
  | recordFails call submittedAt createdAt stored =>
      simp only [step, stepRecord] at hstep
      split at hstep
      · rename_i txHash hrecording
        obtain rfl := Option.some.inj hstep
        cases stored with
        | true => exact .recordLost call submittedAt createdAt txHash hrecording
        | false => exact .recordFails call submittedAt createdAt txHash hrecording
      · cases hstep
  | checked worker answer =>
      simp only [step] at hstep
      split at hstep
      · rename_i transaction rest hchecking
        obtain rfl := Option.some.inj hstep
        exact .checked worker answer transaction rest hchecking
      · cases hstep
  | updated worker now =>
      simp only [step, stepUpdate] at hstep
      split at hstep
      · rename_i transaction rest confirmation hupdating
        obtain rfl := Option.some.inj hstep
        exact .updated worker now transaction rest confirmation hupdating
      · cases hstep
  | updateFails worker now stored =>
      simp only [step, stepUpdate] at hstep
      split at hstep
      · rename_i transaction rest confirmation hupdating
        obtain rfl := Option.some.inj hstep
        cases stored with
        | true => exact .updateLost worker now transaction rest confirmation hupdating
        | false => exact .updateFails worker now transaction rest confirmation hupdating
      · cases hstep

theorem tableKept_of_step (hstep : step config before event = some after) :
    TableKept before.table after.table := by
  cases moves_of_step hstep with
  | recorded | recordLost => exact tableKept_insertOrIgnore
  | updated | updateLost => exact tableKept_reconcile
  | applied | starts | polled | recordFails | tickStarts | tickLoads | tickLoadFails | checked
  | updateFails => exact TableKept.refl _

/-- What is in the ledger stays there. -/
theorem chain_of_step (hstep : step config before event = some after) {txHash : String}
    {outcome : Outcome} (happlied : before.chain txHash = some outcome) :
    after.chain txHash = some outcome := by
  cases moves_of_step hstep with
  | applied other _ hfresh =>
      have hother : txHash ≠ other := by
        rintro rfl
        rw [hfresh] at happlied
        cases happlied
      exact (Function.update_of_ne hother _ _).trans happlied
  | starts | polled | recorded | recordLost | recordFails | tickStarts | tickLoads | tickLoadFails
  | checked | updated | updateLost | updateFails => exact happlied

end Steps

/-! ## What is known -/

/-- A confirmation says what the ledger has recorded. -/
def Says (recorded : Option Outcome) (confirmation : Confirmation) : Prop :=
  match confirmation.status with
  | .success => ∃ ledger, recorded = some (.success ledger) ∧
      ∀ named ∈ confirmation.ledger, named = ledger
  | .failed => recorded = some .failed
  | .notFound => True

/-- A row says what the ledger has recorded, and nothing else. -/
def RowSays (recorded : Option Outcome) (row : PendingStellarTransaction) : Prop :=
  match row.status with
  | .completed => (∃ ledger, recorded = some (.success ledger) ∧
      ∀ named ∈ row.confirmedLedger, named = ledger.repr) ∧ row.failureReason = none
  | .failed => recorded = some .failed ∧ row.confirmedLedger = none ∧
      row.failureReason = some failureText
  | .pendingConfirmation => row.confirmedLedger = none ∧ row.failureReason = none

def Queued (table : PendingTable) (txHash : String) : Prop :=
  ∃ row ∈ table.rows, row.stellarTxHash = txHash

/-- What `sanitizeString` returns. -/
def Sanitized (txHash : String) : Prop := trimText txHash = txHash ∧ txHash ≠ ""

section Knowledge

variable {Index : Type} (config : Index → EscrowConfig)

def WaitKnows (world : World Index) (call : Index) : Wait → Prop
  | .idle => True
  | .polling txHash _ | .recording txHash => Sanitized txHash
  | .returned txHash confirmation =>
      confirmation.status ≠ .notFound ∧ Says (world.chain txHash) confirmation
  | .thrown error => ∀ txHash, error = confirmationTimeout (config call) txHash →
      Queued world.table txHash

def TickKnows (world : World Index) : Tick → Prop
  | .idle | .loading => True
  | .checking transaction rest => ∀ row ∈ transaction :: rest, Sanitized row.stellarTxHash
  | .updating transaction rest confirmation =>
      (∀ row ∈ rest, Sanitized row.stellarTxHash) ∧
        Says (world.chain transaction.stellarTxHash) confirmation

structure Consistent (world : World Index) : Prop where
  rows : ∀ row ∈ world.table.rows,
    Sanitized row.stellarTxHash ∧ RowSays (world.chain row.stellarTxHash) row
  waits : ∀ call, WaitKnows config world call (world.wait call)
  ticks : ∀ worker, TickKnows world (world.tick worker)

theorem consistent_initial : Consistent config (initial : World Index) where
  rows := List.forall_mem_nil _
  waits _ := trivial
  ticks _ := trivial

variable {config} {before after : World Index}

/-- The ledger only grows. -/
def ChainGrows (before after : Chain) : Prop :=
  ∀ txHash outcome, before txHash = some outcome → after txHash = some outcome

theorem Says.mono {before after : Chain} (hgrows : ChainGrows before after) {txHash : String}
    {confirmation : Confirmation} (hstated : Says (before txHash) confirmation) :
    Says (after txHash) confirmation := by
  unfold Says at hstated ⊢
  split at hstated
  · obtain ⟨ledger, hrecorded, hnamed⟩ := hstated
    exact ⟨ledger, hgrows txHash _ hrecorded, hnamed⟩
  · exact hgrows txHash _ hstated
  · trivial

theorem RowSays.mono {before after : Chain} (hgrows : ChainGrows before after)
    {row : PendingStellarTransaction} (hstated : RowSays (before row.stellarTxHash) row) :
    RowSays (after row.stellarTxHash) row := by
  unfold RowSays at hstated ⊢
  split at hstated
  · obtain ⟨⟨ledger, hrecorded, hnamed⟩, hreason⟩ := hstated
    exact ⟨⟨ledger, hgrows _ _ hrecorded, hnamed⟩, hreason⟩
  · exact ⟨hgrows _ _ hstated.1, hstated.2⟩
  · exact hstated

theorem Queued.mono {before after : PendingTable} (hkept : TableKept before after)
    {txHash : String} (hqueued : Queued before txHash) : Queued after txHash := by
  obtain ⟨row, hrow, hhash⟩ := hqueued
  obtain ⟨kept, hmem, hsame⟩ := hkept row hrow
  exact ⟨kept, hmem, hsame.stellarTxHash.trans hhash⟩

theorem WaitKnows.mono (hgrows : ChainGrows before.chain after.chain)
    (hkept : TableKept before.table after.table) {call : Index} {wait : Wait}
    (hknows : WaitKnows config before call wait) : WaitKnows config after call wait := by
  cases wait with
  | idle => trivial
  | polling txHash attempt => exact hknows
  | recording txHash => exact hknows
  | returned txHash confirmation => exact ⟨hknows.1, hknows.2.mono hgrows⟩
  | thrown error => exact fun txHash htimeout => (hknows txHash htimeout).mono hkept

theorem TickKnows.mono (hgrows : ChainGrows before.chain after.chain) {tick : Tick}
    (hknows : TickKnows before tick) : TickKnows after tick := by
  cases tick with
  | idle => trivial
  | loading => trivial
  | checking transaction rest => exact hknows
  | updating transaction rest confirmation => exact ⟨hknows.1, hknows.2.mono hgrows⟩

/-- What a step has to establish: its new rows, and what the process knows that has moved. -/
theorem Consistent.next (hconsistent : Consistent config before)
    (hgrows : ChainGrows before.chain after.chain)
    (hkept : TableKept before.table after.table)
    (hrows : ∀ row ∈ after.table.rows, row ∈ before.table.rows ∨
      Sanitized row.stellarTxHash ∧ RowSays (after.chain row.stellarTxHash) row)
    (hwaits : ∀ call, after.wait call = before.wait call ∨
      WaitKnows config after call (after.wait call))
    (hticks : ∀ worker, after.tick worker = before.tick worker ∨
      TickKnows after (after.tick worker)) : Consistent config after where
  rows row hrow := by
    rcases hrows row hrow with hold | hnew
    · exact ⟨(hconsistent.rows row hold).1, (hconsistent.rows row hold).2.mono hgrows⟩
    · exact hnew
  waits call := by
    rcases hwaits call with hsame | hmoved
    · rw [hsame]
      exact (hconsistent.waits call).mono hgrows hkept
    · exact hmoved
  ticks worker := by
    rcases hticks worker with hsame | hmoved
    · rw [hsame]
      exact (hconsistent.ticks worker).mono hgrows
    · exact hmoved

end Knowledge

/-! ## The moves keep what is known -/

section Answers

variable {Index : Type} {config : Index → EscrowConfig}

theorem says_of_reflects {recorded : Option Outcome} {result : GetTransaction}
    (hreflects : Reflects recorded result) {ledger : Option ℕ}
    (hledger : ledger = none ∨ ledger = result.ledger) :
    Says recorded ⟨extractStatus result, ledger⟩ := by
  unfold Says extractStatus
  split
  · rename_i hsuccess
    split_ifs at hsuccess with hstatus
    match recorded, hreflects with
    | none, hneither => exact absurd hstatus hneither.1
    | some .failed, hnot => exact absurd hstatus hnot
    | some (.success applied), hnamed =>
        refine ⟨applied, rfl, fun named hmem => ?_⟩
        rcases hledger with rfl | rfl
        · cases hmem
        · exact hnamed.2 hstatus named hmem
  · rename_i hfailed
    split_ifs at hfailed with _ hstatus
    match recorded, hreflects with
    | none, hneither => exact absurd hstatus hneither.2
    | some .failed, _ => rfl
    | some (.success applied), hnot => exact absurd hstatus hnot.1
  · trivial

theorem sanitized_of_sanitizeString {value fieldName sanitized : String}
    (hok : sanitizeString value fieldName = .ok sanitized) : Sanitized sanitized := by
  unfold sanitizeString at hok
  split at hok
  · cases hok
  · rename_i hgiven
    obtain rfl := Except.ok.inj hok
    exact ⟨trimText_trimText value, hgiven⟩

/-- No other error is a timeout. -/
theorem waitKnows_thrown {world : World Index} {call : Index} {error : ServiceError}
    (hcode : error.code ≠ .transactionConfirmationTimeout) :
    WaitKnows config world call (.thrown error) := by
  rintro txHash rfl
  exact absurd rfl hcode

theorem waitKnows_pollAgain {world : World Index} {call : Index} {txHash : String}
    (hsanitized : Sanitized txHash) (attempt : ℕ) :
    WaitKnows config world call (pollAgain (config call) txHash attempt) := by
  unfold pollAgain recordPendingConfirmation
  split
  · exact hsanitized
  · split
    · exact hsanitized
    · exact waitKnows_thrown (by nofun)

theorem waitKnows_start (world : World Index) (call : Index) (txHash : String) :
    WaitKnows config world call (waitForTransactionConfirmation (config call) txHash) := by
  unfold waitForTransactionConfirmation
  split
  · split
    · rename_i error hinvalid
      unfold sanitizeString at hinvalid
      split at hinvalid
      · obtain rfl := Except.error.inj hinvalid
        exact waitKnows_thrown (by nofun)
      · cases hinvalid
    · rename_i safeTxHash hok
      exact waitKnows_pollAgain (sanitized_of_sanitizeString hok) 0
  · exact waitKnows_thrown (by nofun)

theorem waitKnows_receive {world : World Index} {call : Index} {txHash : String}
    (hsanitized : Sanitized txHash) (attempt : ℕ) {answer : Option GetTransaction}
    (hhonest : ∀ result ∈ answer, Reflects (world.chain txHash) result) :
    WaitKnows config world call (receive (config call) txHash attempt answer) := by
  unfold receive
  split
  · exact waitKnows_pollAgain hsanitized _
  · rename_i result
    have hreflects := hhonest result rfl
    split
    · rename_i hsuccess
      refine ⟨nofun, ?_⟩
      rw [← hsuccess]
      exact says_of_reflects hreflects (.inr rfl)
    · rename_i hfailed
      refine ⟨nofun, ?_⟩
      rw [← hfailed]
      exact says_of_reflects hreflects (.inl rfl)
    · exact waitKnows_pollAgain hsanitized _

theorem tickKnows_nextChecked {world : World Index} {rest : List PendingStellarTransaction}
    (hsanitized : ∀ row ∈ rest, Sanitized row.stellarTxHash) :
    TickKnows world (nextChecked rest) := by
  cases rest with
  | nil => trivial
  | cons transaction others => exact hsanitized

theorem tickKnows_afterCheck {world : World Index} {checker : EscrowConfig}
    {transaction : PendingStellarTransaction} {rest : List PendingStellarTransaction}
    {answer : Option GetTransaction}
    (hsanitized : ∀ row ∈ transaction :: rest, Sanitized row.stellarTxHash)
    (hhonest : ∀ result ∈ answer,
      Reflects (world.chain (trimText transaction.stellarTxHash)) result) :
    TickKnows world (afterCheck checker transaction rest answer) := by
  obtain ⟨hself, hrest⟩ := List.forall_mem_cons.mp hsanitized
  rw [hself.1] at hhonest
  unfold afterCheck
  split
  · exact tickKnows_nextChecked hrest
  · rename_i confirmation hconfirmed
    refine ⟨hrest, ?_⟩
    unfold getTransactionStatus at hconfirmed
    simp only [Option.bind_eq_bind, Option.bind_eq_some_iff, Option.pure_def,
      Option.some.injEq] at hconfirmed
    obtain ⟨_, _, _, _, result, hanswer, rfl⟩ := hconfirmed
    apply says_of_reflects (hhonest result hanswer)
    split
    · exact .inl rfl
    · exact .inr rfl

theorem rowSays_pendingRow {recorded : Option Outcome} {recorder : EscrowConfig} {txHash : String}
    {submittedAt createdAt : ℤ} :
    RowSays recorded (pendingRow recorder txHash submittedAt createdAt) := ⟨rfl, rfl⟩

/-- A pending row that takes over a confirmation says what the confirmation says. -/
theorem rowSays_reconciled {recorded : Option Outcome} {row : PendingStellarTransaction}
    {confirmation : Confirmation} {now : ℤ} (hrow : RowSays recorded row)
    (hpending : IsPending row) (hstated : Says recorded confirmation) :
    RowSays recorded (reconciled confirmation now row) := by
  unfold RowSays at hrow
  rw [hpending] at hrow
  obtain ⟨hledger, hreason⟩ := hrow
  unfold Says at hstated
  split at hstated
  · rename_i hsuccess
    obtain ⟨ledger, hrecorded, hnamed⟩ := hstated
    simp only [reconciled, hsuccess]
    refine ⟨⟨ledger, hrecorded, fun named hmem => ?_⟩, hreason⟩
    obtain ⟨number, hnumber, rfl⟩ := Option.mem_map.mp hmem
    rw [hnamed number hnumber]
  · rename_i hfailed
    simp only [reconciled, hfailed]
    exact ⟨hstated, hledger, rfl⟩
  · rename_i hnotFound
    simp only [reconciled, hnotFound]
    have hstatus : row.status = .pendingConfirmation := hpending
    simp only [RowSays, hstatus]
    exact ⟨hledger, hreason⟩

/-- The rows after the insertion of a call. -/
theorem rows_insertOrIgnore {world : World Index} {recorder : EscrowConfig} {txHash : String}
    {submittedAt createdAt : ℤ} (hsanitized : Sanitized txHash) :
    ∀ row ∈ (world.table.insertOrIgnore
        (pendingRow recorder txHash submittedAt createdAt)).rows,
      row ∈ world.table.rows ∨
        Sanitized row.stellarTxHash ∧ RowSays (world.chain row.stellarTxHash) row := by
  intro row hrow
  rcases mem_insertOrIgnore hrow with hold | rfl
  · exact .inl hold
  · exact .inr ⟨hsanitized, rowSays_pendingRow⟩

/-- The rows after the update of a worker. -/
theorem rows_reconcile {world : World Index} {txHash : String} {confirmation : Confirmation}
    {now : ℤ} (hconsistent : Consistent config world)
    (hstated : Says (world.chain txHash) confirmation) :
    ∀ row ∈ (world.table.reconcile txHash confirmation now).rows,
      row ∈ world.table.rows ∨
        Sanitized row.stellarTxHash ∧ RowSays (world.chain row.stellarTxHash) row := by
  intro row hrow
  obtain ⟨old, hold, rfl⟩ := mem_reconcile.mp hrow
  split
  · rename_i hupdated
    obtain ⟨hsanitized, hrowSays⟩ := hconsistent.rows old hold
    rw [reconciled_stellarTxHash]
    refine .inr ⟨hsanitized, rowSays_reconciled hrowSays hupdated.2 ?_⟩
    rw [hupdated.1]
    exact hstated
  · exact .inl hold

end Answers

section Moves

variable {Index : Type} [DecidableEq Index] {config : Index → EscrowConfig}
  {before after : World Index} {event : Event Index}

/-- A call that moves, where nothing else changes but for the rows. -/
theorem Consistent.moveWait (hconsistent : Consistent config before) {call : Index} {next : Wait}
    {table : PendingTable} (hkept : TableKept before.table table)
    (hrows : ∀ row ∈ table.rows, row ∈ before.table.rows ∨
      Sanitized row.stellarTxHash ∧ RowSays (before.chain row.stellarTxHash) row)
    (hknows : WaitKnows config { before.setWait call next with table := table } call next) :
    Consistent config { before.setWait call next with table := table } := by
  refine hconsistent.next (fun _ _ happlied => happlied) hkept hrows ?_ fun _ => .inl rfl
  intro other
  by_cases hmoved : other = call
  · subst other
    refine .inr ?_
    simpa only [World.setWait, setProcess, Function.update_self] using hknows
  · exact .inl (by simp [World.setWait, hmoved])

/-- The same for a worker. -/
theorem Consistent.moveTick (hconsistent : Consistent config before) {worker : Index} {next : Tick}
    {table : PendingTable} (hkept : TableKept before.table table)
    (hrows : ∀ row ∈ table.rows, row ∈ before.table.rows ∨
      Sanitized row.stellarTxHash ∧ RowSays (before.chain row.stellarTxHash) row)
    (hknows : TickKnows { before.setTick worker next with table := table } next) :
    Consistent config { before.setTick worker next with table := table } := by
  refine hconsistent.next (fun _ _ happlied => happlied) hkept hrows (fun _ => .inl rfl) ?_
  intro other
  by_cases hmoved : other = worker
  · subst other
    refine .inr ?_
    simpa only [World.setTick, setProcess, Function.update_self] using hknows
  · exact .inl (by simp [World.setTick, hmoved])

/-- Every step of an honest run keeps what is known. -/
theorem consistent_step (hhonest : Honest before event)
    (hstep : step config before event = some after) (hconsistent : Consistent config before) :
    Consistent config after := by
  have hsame : ∀ row ∈ before.table.rows, row ∈ before.table.rows ∨
      Sanitized row.stellarTxHash ∧ RowSays (before.chain row.stellarTxHash) row :=
    fun _ hrow => .inl hrow
  have hgrows : ChainGrows before.chain after.chain := fun _ _ => chain_of_step hstep
  cases moves_of_step hstep with
  | applied txHash outcome hfresh =>
      exact hconsistent.next hgrows (TableKept.refl _) (fun _ hrow => .inl hrow)
        (fun _ => .inl rfl) fun _ => .inl rfl
  | starts call txHash hidle =>
      exact hconsistent.moveWait (TableKept.refl _) hsame (waitKnows_start _ call txHash)
  | polled call answer txHash attempt hpolling =>
      have hsanitized : Sanitized txHash := by
        have hknows := hconsistent.waits call
        rwa [hpolling] at hknows
      exact hconsistent.moveWait (TableKept.refl _) hsame
        (waitKnows_receive hsanitized attempt (hhonest txHash (by simp [World.asks, hpolling])))
  | recorded call submittedAt createdAt txHash hrecording =>
      have hsanitized : Sanitized txHash := by
        have hknows := hconsistent.waits call
        rwa [hrecording] at hknows
      refine hconsistent.moveWait tableKept_insertOrIgnore (rows_insertOrIgnore hsanitized) ?_
      intro other hsameError
      obtain rfl : txHash = other := by
        simpa [confirmationTimeout] using hsameError
      exact exists_insertOrIgnore before.table _
  | recordLost call submittedAt createdAt txHash hrecording =>
      have hsanitized : Sanitized txHash := by
        have hknows := hconsistent.waits call
        rwa [hrecording] at hknows
      exact hconsistent.moveWait tableKept_insertOrIgnore (rows_insertOrIgnore hsanitized)
        (waitKnows_thrown (by nofun))
  | recordFails call submittedAt createdAt txHash hrecording =>
      exact hconsistent.moveWait (TableKept.refl _) hsame (waitKnows_thrown (by nofun))
  | tickStarts worker hidle => exact hconsistent.moveTick (TableKept.refl _) hsame trivial
  | tickLoads worker order hloading =>
      refine hconsistent.moveTick (TableKept.refl _) hsame (tickKnows_nextChecked ?_)
      intro row hrow
      exact (hconsistent.rows row (of_mem_findPending hrow).1).1
  | tickLoadFails worker hloading => exact hconsistent.moveTick (TableKept.refl _) hsame trivial
  | checked worker answer transaction rest hchecking =>
      have hknows := hconsistent.ticks worker
      rw [hchecking] at hknows
      exact hconsistent.moveTick (TableKept.refl _) hsame
        (tickKnows_afterCheck hknows (hhonest _ (by simp [World.asks, hchecking])))
  | updated worker now transaction rest confirmation hupdating
  | updateLost worker now transaction rest confirmation hupdating =>
      have hknows := hconsistent.ticks worker
      rw [hupdating] at hknows
      exact hconsistent.moveTick tableKept_reconcile (rows_reconcile hconsistent hknows.2)
        (tickKnows_nextChecked hknows.1)
  | updateFails worker now transaction rest confirmation hupdating =>
      have hknows := hconsistent.ticks worker
      rw [hupdating] at hknows
      exact hconsistent.moveTick (TableKept.refl _) hsame (tickKnows_nextChecked hknows.1)

end Moves

/-! ## The results -/

/-- Calls, rows and the ledger agree, and nothing that has timed out is missing. -/
structure Agreement {Index : Type} (config : Index → EscrowConfig) (world : World Index) :
    Prop where
  rows : ∀ row ∈ world.table.rows, RowSays (world.chain row.stellarTxHash) row
  returned : ∀ call txHash confirmation, world.wait call = .returned txHash confirmation →
    confirmation.status ≠ .notFound ∧ Says (world.chain txHash) confirmation
  sameEnd : ∀ call txHash confirmation, world.wait call = .returned txHash confirmation →
    ∀ row ∈ world.table.rows, row.stellarTxHash = txHash → ¬IsPending row →
      (row.status = .completed ↔ confirmation.status = .success)
  timedOut : ∀ call txHash, world.wait call = .thrown (confirmationTimeout (config call) txHash) →
    ∃ row ∈ world.table.rows, row.stellarTxHash = txHash

/-- A row and a confirmation of one transaction that say the same of it. -/
theorem completed_iff_success {recorded : Option Outcome} {row : PendingStellarTransaction}
    {confirmation : Confirmation} (hrow : RowSays recorded row) (hstated : Says recorded confirmation)
    (hended : ¬IsPending row) (hknown : confirmation.status ≠ .notFound) :
    row.status = .completed ↔ confirmation.status = .success := by
  unfold RowSays at hrow
  unfold Says at hstated
  cases hstatus : row.status with
  | pendingConfirmation => exact absurd hstatus hended
  | completed =>
      simp only [hstatus] at hrow
      obtain ⟨⟨ledger, rfl, _⟩, _⟩ := hrow
      cases hconfirmed : confirmation.status with
      | success => simp
      | failed => simp [hconfirmed] at hstated
      | notFound => exact absurd hconfirmed hknown
  | failed =>
      simp only [hstatus] at hrow
      obtain ⟨rfl, _⟩ := hrow
      cases hconfirmed : confirmation.status with
      | success => simp [hconfirmed] at hstated
      | failed => simp
      | notFound => exact absurd hconfirmed hknown

section Runs

variable {Index : Type} {config : Index → EscrowConfig} {last : World Index}

theorem Consistent.agreement (hconsistent : Consistent config last) : Agreement config last where
  rows row hrow := (hconsistent.rows row hrow).2
  returned call txHash confirmation hreturned := by
    have hknows := hconsistent.waits call
    rwa [hreturned] at hknows
  sameEnd call txHash confirmation hreturned row hrow hhash hended := by
    have hknows := hconsistent.waits call
    rw [hreturned, ← hhash] at hknows
    exact completed_iff_success (hconsistent.rows row hrow).2 hknows.2 hended hknows.1
  timedOut call txHash hthrown := by
    have hknows := hconsistent.waits call
    rw [hthrown] at hknows
    exact hknows txHash rfl

variable [DecidableEq Index] {middle : World Index} {events later : List (Event Index)}

theorem tableKept_of_run {guard : World Index → Event Index → Prop}
    (hrun : GuardedRun (step config) guard middle later last) :
    TableKept middle.table last.table := by
  induction hrun with
  | nil world => exact TableKept.refl _
  | cons _ hstep _ ih => exact (tableKept_of_step hstep).trans ih

theorem consistent_run (hrun : GuardedRun (step config) Honest middle later last)
    (hconsistent : Consistent config middle) : Consistent config last :=
  hrun.invariant consistent_step hconsistent

/-- Whatever the order of the steps, what has been returned, stored and recorded agrees, and what
follows keeps every row, as it is once its transaction has ended. -/
theorem confirmations_agree
    (hbefore : GuardedRun (step config) Honest initial events middle)
    (hafter : GuardedRun (step config) Honest middle later last) :
    Agreement config middle ∧ Agreement config last ∧ TableKept middle.table last.table := by
  have hmiddle : Consistent config middle := consistent_run hbefore (consistent_initial config)
  exact ⟨hmiddle.agreement, (consistent_run hafter hmiddle).agreement, tableKept_of_run hafter⟩

end Runs

/-- Two workers load a transaction that has timed out, and both learn that it has succeeded. -/
theorem confirmations_agree_queued :
    ∃ events last, GuardedRun (step fun _ : ℕ => ⟨"C1", true, true, 1000, 1, 10⟩) Honest initial
        events last ∧
      last.table.rows.map PendingStellarTransaction.lastCheckedAt = [some 20] ∧
      Agreement (fun _ => ⟨"C1", true, true, 1000, 1, 10⟩) last := by
  have hexec : (execGuarded (step fun _ : ℕ => ⟨"C1", true, true, 1000, 1, 10⟩) Honest initial
      [.waitStarts 0 " a1 ", .polled 0 none, .recorded 0 5 6, .tickStarts 1, .tickStarts 2,
        .tickLoads 1 .asStored, .tickLoads 2 .asStored, .applied "a1" (.success 7),
        .checked 1 (some ⟨some "SUCCESS", some 7⟩), .checked 2 (some ⟨some "SUCCESS", none⟩),
        .updated 2 20, .updated 1 30]).map
      (fun world => world.table.rows.map PendingStellarTransaction.lastCheckedAt) =
      some [some 20] := by decide +kernel
  obtain ⟨last, hrun, hrows⟩ := exists_guardedRun hexec
  exact ⟨_, last, hrun, hrows, (confirmations_agree (.nil initial) hrun).2.1⟩

end StellarSettle.ConfirmationSafety
