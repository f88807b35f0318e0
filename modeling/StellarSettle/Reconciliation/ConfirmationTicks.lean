import StellarSettle.Core.BoundedRuns
import StellarSettle.Reconciliation.ConfirmationSafety

/-!
# How long a queued transaction waits

A tick looks at the oldest pending rows only.  Where fewer of them than a batch holds have
transactions that are in no ledger, the rows before a transaction that is in a ledger bound the
ticks until its row says so.  Where a full batch of them never gets into a ledger, no tick looks at
a later row.
-/

namespace StellarSettle.ConfirmationTicks

open Std (TransCmp)
open StellarSettle.BoundedRuns
open StellarSettle.ConfirmationSafety
open StellarSettle.Entities (Timestamp)
open StellarSettle.OldestFirst
open StellarSettle.PendingConfirmations
open StellarSettle.PendingConfirmations.PendingTable (IsPending byCreatedAt)
open StellarSettle.TransitionSystem
open StellarSettle.UniqueColumns (StorageOrder)

instance : TransCmp byCreatedAt :=
  inferInstanceAs (TransCmp (compareOn PendingStellarTransaction.createdAt))

theorem isLE_byCreatedAt {left right : PendingStellarTransaction} :
    (byCreatedAt left right).isLE ↔ left.createdAt ≤ right.createdAt := Std.isLE_compare

theorem byCreatedAt_eq_lt {left right : PendingStellarTransaction} :
    byCreatedAt left right = .lt ↔ left.createdAt < right.createdAt := Std.compare_eq_lt

/-! ## Counting pending rows -/

/-- The pending rows up to a time whose transactions pass. -/
def countPending (bound : Timestamp) (passes : String → Bool) (table : PendingTable) : ℕ :=
  table.rows.countP fun row =>
    decide (IsPending row) && decide (row.createdAt ≤ bound) && passes row.stellarTxHash

section Counts

variable {bound : Timestamp} {passes before after : String → Bool} {table : PendingTable}
  {row new : PendingStellarTransaction} {txHash : String} {confirmation : Confirmation}
  {now : Timestamp}

theorem isPending_of_reconciled (hpending : IsPending (reconciled confirmation now row)) :
    IsPending row ∧ confirmation.status = .notFound := by
  unfold reconciled at hpending
  split at hpending
  · cases hpending
  · cases hpending
  · rename_i hnotFound
    exact ⟨hpending, hnotFound⟩

theorem countPending_mono (hpasses : ∀ hash, after hash = true → before hash = true) :
    countPending bound after table ≤ countPending bound before table := by
  apply List.countP_mono_left
  intro row _ hcounted
  simp only [Bool.and_eq_true] at hcounted ⊢
  exact ⟨hcounted.1, hpasses _ hcounted.2⟩

/-- A row that is dated later does not count. -/
theorem countPending_insertOrIgnore (hlate : bound < new.createdAt) :
    countPending bound passes (table.insertOrIgnore new) ≤ countPending bound passes table := by
  unfold PendingTable.insertOrIgnore
  split
  · exact le_refl _
  · simp [countPending, hlate]

/-- An update may take its own row out of the count. -/
theorem countPending_reconcile (hpasses : ∀ hash, after hash = true →
      before hash = true ∨ hash = txHash ∧ confirmation.status ≠ .notFound) :
    countPending bound after (table.reconcile txHash confirmation now) ≤
      countPending bound before table := by
  unfold countPending PendingTable.reconcile PendingTable.updatePending
  rw [List.countP_map]
  apply List.countP_mono_left
  intro row _ hcounted
  rw [Function.comp_apply] at hcounted
  simp only [Bool.and_eq_true, decide_eq_true_eq] at hcounted ⊢
  split_ifs at hcounted with hupdated
  · rw [reconciled_stellarTxHash, reconciled_createdAt] at hcounted
    obtain ⟨⟨hpending, hbound⟩, hafter⟩ := hcounted
    obtain ⟨hold, hnotFound⟩ := isPending_of_reconciled hpending
    refine ⟨⟨hold, hbound⟩, ?_⟩
    rcases hpasses _ hafter with hbefore | ⟨_, hended⟩
    · exact hbefore
    · exact absurd hnotFound hended
  · refine ⟨hcounted.1, ?_⟩
    rcases hpasses _ hcounted.2 with hbefore | ⟨hself, _⟩
    · exact hbefore
    · exact absurd ⟨hself, hcounted.1.1⟩ hupdated

theorem le_countPending_insertOrIgnore :
    countPending bound passes table ≤ countPending bound passes (table.insertOrIgnore new) := by
  unfold PendingTable.insertOrIgnore
  split
  · exact le_refl _
  · rw [countPending, countPending, List.countP_append]
    exact Nat.le_add_right _ _

/-- An update that does not end its row leaves it in the count. -/
theorem le_countPending_reconcile
    (hpasses : passes txHash = true → confirmation.status = .notFound) :
    countPending bound passes table ≤
      countPending bound passes (table.reconcile txHash confirmation now) := by
  unfold countPending PendingTable.reconcile PendingTable.updatePending
  rw [List.countP_map]
  apply List.countP_mono_left
  intro row _ hcounted
  rw [Function.comp_apply]
  split_ifs with hupdated
  · simp only [Bool.and_eq_true, decide_eq_true_eq] at hcounted
    have hnotFound := hpasses (hupdated.1 ▸ hcounted.2)
    simp [reconciled, hnotFound, hcounted, show IsPending { row with lastCheckedAt := some now }
      from hcounted.1.1]
  · exact hcounted

/-- The count falls where a row stops to pass. -/
theorem countPending_lt (hpasses : ∀ hash, after hash = true → before hash = true)
    (hrow : row ∈ table.rows) (hpending : IsPending row) (hbound : row.createdAt ≤ bound)
    (hbefore : before row.stellarTxHash = true) (hafter : after row.stellarTxHash = false) :
    countPending bound after table < countPending bound before table := by
  have hcounted : row ∈ table.rows.filter fun row =>
      decide (IsPending row) && decide (row.createdAt ≤ bound) && before row.stellarTxHash := by
    simp [hrow, hpending, hbound, hbefore]
  have hboth : countPending bound after table = (table.rows.filter fun row =>
      decide (IsPending row) && decide (row.createdAt ≤ bound) && before row.stellarTxHash).countP
        fun row => after row.stellarTxHash := by
    rw [countPending, List.countP_filter]
    apply List.countP_congr
    intro other _
    simp only [Bool.and_eq_true]
    constructor
    · rintro ⟨hcommon, hlater⟩
      exact ⟨hlater, hcommon, hpasses _ hlater⟩
    · rintro ⟨hlater, hcommon, _⟩
      exact ⟨hcommon, hlater⟩
  rw [hboth, countPending, List.countP_eq_length_filter (l := table.rows)]
  exact List.countP_lt_length_iff.mpr ⟨row, hcounted, hafter⟩

end Counts

/-! ## What a tick is going to settle -/

def within (rows : List PendingStellarTransaction) (txHash : String) : Bool :=
  rows.any fun row => row.stellarTxHash = txHash

/-- The rest of a tick ends the row of this transaction. -/
def settles (chain : Chain) : Tick → String → Bool
  | .idle, _ | .loading, _ => false
  | .checking transaction rest, txHash =>
      within (transaction :: rest) txHash && (chain txHash).isSome
  | .updating transaction rest confirmation, txHash =>
      (decide (txHash = transaction.stellarTxHash) && decide (confirmation.status ≠ .notFound)) ||
        (within rest txHash && (chain txHash).isSome)

theorem settles_nextChecked (chain : Chain) (rest : List PendingStellarTransaction)
    (txHash : String) :
    settles chain (nextChecked rest) txHash = (within rest txHash && (chain txHash).isSome) := by
  cases rest with
  | nil => rfl
  | cons transaction others => rfl

theorem settles_mono {before after : Chain} (hgrows : ChainGrows before after) {tick : Tick}
    {txHash : String} (hsettles : settles before tick txHash = true) :
    settles after tick txHash = true := by
  have hstays : (before txHash).isSome = true → (after txHash).isSome = true := by
    intro hrecorded
    obtain ⟨outcome, houtcome⟩ := Option.isSome_iff_exists.mp hrecorded
    rw [hgrows txHash outcome houtcome]
    rfl
  cases tick with
  | idle => exact hsettles
  | loading => exact hsettles
  | checking transaction rest =>
      simp only [settles, Bool.and_eq_true] at hsettles ⊢
      exact ⟨hsettles.1, hstays hsettles.2⟩
  | updating transaction rest confirmation =>
      simp only [settles, Bool.or_eq_true, Bool.and_eq_true] at hsettles ⊢
      rcases hsettles with hself | ⟨hlater, hrecorded⟩
      · exact .inl hself
      · exact .inr ⟨hlater, hstays hrecorded⟩

/-! ## Ticks that nothing disturbs -/

section Attention

variable {Index : Type} [DecidableEq Index]

/-- The answer to `worker` is not behind the ledger. -/
def Prompt (world : World Index) (event : Event Index) : Prop :=
  ∀ txHash ∈ world.asks event, world.chain txHash ≠ none →
    event.answer.any (fun result => extractStatus result ≠ .notFound) = true

/-- The queries of `worker` and its requests succeed, and new rows are dated after `bound`. -/
def Undisturbed (worker : Index) (bound : Timestamp) (world : World Index) : Event Index → Prop
  | .checked other answer => other = worker → Prompt world (.checked other answer)
  | .tickLoadFails other => other ≠ worker
  | .updateFails other _ _ => other ≠ worker
  | .recorded _ _ createdAt => bound < createdAt
  | .recordFails _ _ createdAt _ => bound < createdAt
  | _ => True

def Attended (worker : Index) (bound : Timestamp) (world : World Index) (event : Event Index) :
    Prop :=
  Honest world event ∧ Undisturbed worker bound world event

instance (world : World Index) (event : Event Index) : Decidable (Prompt world event) :=
  inferInstanceAs (Decidable (∀ txHash ∈ world.asks event, _))

instance (worker : Index) (bound : Timestamp) (world : World Index) :
    ∀ event, Decidable (Undisturbed worker bound world event)
  | .checked other answer =>
      inferInstanceAs (Decidable (other = worker → Prompt world (.checked other answer)))
  | .tickLoadFails other => inferInstanceAs (Decidable (other ≠ worker))
  | .updateFails other _ _ => inferInstanceAs (Decidable (other ≠ worker))
  | .recorded _ _ createdAt => inferInstanceAs (Decidable (bound < createdAt))
  | .recordFails _ _ createdAt _ => inferInstanceAs (Decidable (bound < createdAt))
  | .applied _ _ | .waitStarts _ _ | .polled _ _ | .tickStarts _ | .tickLoads _ _ | .updated _ _ =>
      inferInstanceAs (Decidable True)

instance (worker : Index) (bound : Timestamp) (world : World Index) (event : Event Index) :
    Decidable (Attended worker bound world event) :=
  inferInstanceAs (Decidable (_ ∧ _))

def isLoad (worker : Index) : Event Index → Bool
  | .tickLoads other _ => decide (other = worker)
  | _ => false

/-- The pending rows that are not about to be ended by the tick of `worker`. -/
def waiting (worker : Index) (bound : Timestamp) (world : World Index) : ℕ :=
  countPending bound (fun txHash => ! settles world.chain (world.tick worker) txHash) world.table

/-- The pending rows whose transactions are in no ledger. -/
def unrecorded (bound : Timestamp) (world : World Index) : ℕ :=
  countPending bound (fun txHash => (world.chain txHash).isNone) world.table

end Attention

/-! ## One step -/

section Loads

variable {Index : Type}

/-- The batch has a transaction that is in a ledger. -/
theorem exists_recorded_loaded {world : World Index} {row : PendingStellarTransaction}
    (order : StorageOrder PendingStellarTransaction) {batchSize : ℕ}
    (hrow : row ∈ world.table.rows) (hpending : IsPending row)
    (hrecorded : world.chain row.stellarTxHash ≠ none)
    (hroom : unrecorded row.createdAt world < batchSize) :
    ∃ taken ∈ world.table.findPending order batchSize,
      taken.createdAt ≤ row.createdAt ∧ world.chain taken.stellarTxHash ≠ none := by
  by_contra hnone
  push Not at hnone
  have hleft : row ∉ world.table.findPending order batchSize := fun htaken =>
    hrecorded (hnone row htaken (le_refl _))
  have hlisted : row ∈ world.table.rows.filter fun row => IsPending row :=
    List.mem_filter.mpr ⟨hrow, decide_eq_true hpending⟩
  obtain ⟨hfull, holder⟩ := full_of_not_mem_batch hlisted hleft
  have hdistinct : (world.table.findPending order batchSize).Nodup :=
    nodup_batch (world.table.uniqueHashes.of_map.filter _)
  -- The batch would consist of rows that no ledger knows.
  have hsubset : world.table.findPending order batchSize ⊆ world.table.rows.filter fun other =>
      decide (IsPending other) && decide (other.createdAt ≤ row.createdAt) &&
        (world.chain other.stellarTxHash).isNone := by
    intro taken htaken
    obtain ⟨hstored, htakenPending⟩ := of_mem_findPending htaken
    have hbound := isLE_byCreatedAt.mp (holder taken htaken)
    simp [hstored, htakenPending, hbound, hnone taken htaken hbound]
  have hcount := (List.subperm_of_subset hdistinct hsubset).length_le
  rw [← List.countP_eq_length_filter] at hcount
  have hbatch : batchSize ≤ unrecorded row.createdAt world := hfull ▸ hcount
  omega

end Loads

section Steps

variable {Index : Type} [DecidableEq Index] {config : Index → EscrowConfig} {worker : Index}
  {bound : Timestamp} {before after : World Index} {event : Event Index}

/-- The rows that no ledger knows do not become more. -/
theorem unrecorded_step (hundisturbed : Undisturbed worker bound before event)
    (hstep : step config before event = some after) :
    unrecorded bound after ≤ unrecorded bound before := by
  cases moves_of_step hstep with
  | applied txHash outcome hfresh =>
      apply countPending_mono
      intro other hnone
      by_cases hother : other = txHash
      · subst other
        rw [hfresh]
        rfl
      · simpa [Function.update_of_ne hother] using hnone
  | recorded | recordLost => exact countPending_insertOrIgnore hundisturbed
  | updated | updateLost => exact countPending_reconcile fun _ hnone => .inl hnone
  | starts | polled | recordFails | tickStarts | tickLoads | tickLoadFails | checked
  | updateFails => exact le_refl _

theorem waiting_load (hroom : unrecorded bound before < (config worker).batchSize)
    {row : PendingStellarTransaction} (hrow : row ∈ before.table.rows) (hpending : IsPending row)
    (hbound : row.createdAt = bound) (hrecorded : before.chain row.stellarTxHash ≠ none)
    (order : StorageOrder PendingStellarTransaction) (hloading : before.tick worker = .loading) :
    waiting worker bound (before.setTick worker
      (nextChecked (before.table.findPending order (config worker).batchSize))) <
        waiting worker bound before := by
  rw [← hbound] at hroom
  obtain ⟨taken, htaken, holder, hknown⟩ :=
    exists_recorded_loaded order hrow hpending hrecorded hroom
  obtain ⟨hstored, htakenPending⟩ := of_mem_findPending htaken
  have hlisted : within (before.table.findPending order (config worker).batchSize)
      taken.stellarTxHash = true := List.any_eq_true.mpr ⟨taken, htaken, decide_eq_true rfl⟩
  unfold waiting
  apply countPending_lt _ hstored htakenPending (hbound ▸ holder)
  · simp [hloading, settles]
  · simpa [World.setTick, settles_nextChecked, hlisted, Option.isSome_iff_ne_none] using hknown
  · intro txHash _
    simp [hloading, settles]

theorem confirms_of_prompt {checker : EscrowConfig} (hrpc : checker.hasRpcServer = true)
    {txHash : String} (hsanitized : Sanitized txHash) {answer : Option GetTransaction}
    (hprompt : answer.any (fun result => extractStatus result ≠ .notFound) = true) :
    ∃ confirmation, getTransactionStatus checker txHash answer = some confirmation ∧
      confirmation.status ≠ .notFound := by
  cases answer with
  | none => cases hprompt
  | some result =>
      have hstatus : extractStatus result ≠ .notFound := of_decide_eq_true hprompt
      refine ⟨⟨extractStatus result, result.ledger⟩, ?_, hstatus⟩
      simp [getTransactionStatus, sanitizeString, hrpc, hsanitized.1, hsanitized.2, hstatus,
        Except.toOption]

theorem settles_afterCheck {chain : Chain} {checker : EscrowConfig}
    {transaction : PendingStellarTransaction} {rest : List PendingStellarTransaction}
    {answer : Option GetTransaction} (hrpc : checker.hasRpcServer = true)
    (hsanitized : Sanitized transaction.stellarTxHash)
    (hprompt : chain transaction.stellarTxHash ≠ none →
      answer.any (fun result => extractStatus result ≠ .notFound) = true) {txHash : String}
    (hsettles : settles chain (.checking transaction rest) txHash = true) :
    settles chain (afterCheck checker transaction rest answer) txHash = true := by
  simp only [settles, within, List.any_cons, Bool.and_eq_true, Bool.or_eq_true,
    decide_eq_true_eq] at hsettles
  obtain ⟨hlisted, hrecorded⟩ := hsettles
  rcases hlisted with rfl | hlater
  · obtain ⟨confirmation, hconfirms, hended⟩ :=
      confirms_of_prompt hrpc hsanitized (hprompt (Option.isSome_iff_ne_none.mp hrecorded))
    simp [afterCheck, hconfirms, settles, hended]
  · unfold afterCheck
    split
    · simp [settles_nextChecked, within, hlater, hrecorded]
    · simp [settles, within, hlater, hrecorded]

/-- A worker that moves without touching the rows. -/
theorem waiting_setTick {world : World Index} {other : Index} {next : Tick}
    (hsettles : other = worker → ∀ txHash,
      settles world.chain (world.tick worker) txHash = true →
        settles world.chain next txHash = true) :
    waiting worker bound (world.setTick other next) ≤ waiting worker bound world := by
  apply countPending_mono
  intro txHash hwaits
  by_cases hmoved : worker = other
  · subst other
    simp only [World.setTick, setProcess, Function.update_self, Bool.not_eq_true',
      ← Bool.not_eq_true] at hwaits ⊢
    exact fun hsettled => hwaits (hsettles rfl txHash hsettled)
  · simpa [World.setTick, hmoved] using hwaits

/-- A worker that updates the row it has learned about. -/
theorem waiting_updated {world : World Index} {other : Index}
    {transaction : PendingStellarTransaction} {rest : List PendingStellarTransaction}
    {confirmation : Confirmation} {now : Timestamp}
    (hupdating : world.tick other = .updating transaction rest confirmation) :
    waiting worker bound { world.setTick other (nextChecked rest) with
      table := world.table.reconcile transaction.stellarTxHash confirmation now } ≤
        waiting worker bound world := by
  apply countPending_reconcile
  intro txHash hwaits
  by_cases hmoved : worker = other
  · subst other
    simp only [World.setTick, setProcess, Function.update_self, settles_nextChecked] at hwaits
    by_cases hended : txHash = transaction.stellarTxHash ∧ confirmation.status ≠ .notFound
    · exact .inr hended
    · refine .inl ?_
      simp only [hupdating, settles, ← Bool.decide_and, hended, decide_false, Bool.false_or]
      exact hwaits
  · exact .inl (by simpa [World.setTick, hmoved] using hwaits)

/-- No step makes more rows wait. -/
theorem waiting_step (hconsistent : Consistent config before)
    (hrpc : (config worker).hasRpcServer = true) (hattended : Attended worker bound before event)
    (hstep : step config before event = some after) :
    waiting worker bound after ≤ waiting worker bound before := by
  obtain ⟨hhonest, hundisturbed⟩ := hattended
  have hgrows : ChainGrows before.chain after.chain := fun _ _ => chain_of_step hstep
  cases moves_of_step hstep with
  | applied txHash outcome hfresh =>
      apply countPending_mono
      intro other hwaits
      simp only [Bool.not_eq_true', ← Bool.not_eq_true] at hwaits ⊢
      exact fun hsettles => hwaits (settles_mono hgrows hsettles)
  | starts | polled | recordFails => exact le_refl _
  | recorded | recordLost => exact countPending_insertOrIgnore hundisturbed
  | tickStarts other hidle =>
      apply waiting_setTick
      rintro rfl txHash hsettles
      rw [hidle] at hsettles
      cases hsettles
  | tickLoads other order hloading =>
      apply waiting_setTick
      rintro rfl txHash hsettles
      rw [hloading] at hsettles
      cases hsettles
  | tickLoadFails other hloading =>
      apply waiting_setTick
      rintro rfl
      exact absurd rfl hundisturbed
  | checked other answer transaction rest hchecking =>
      apply waiting_setTick
      rintro rfl txHash hsettles
      have hknows := hconsistent.ticks other
      rw [hchecking] at hknows hsettles
      have hself : Sanitized transaction.stellarTxHash := hknows transaction List.mem_cons_self
      refine settles_afterCheck hrpc hself (fun hrecorded => ?_) hsettles
      refine hundisturbed rfl transaction.stellarTxHash ?_ hrecorded
      simp [World.asks, hchecking, hself.1]
  | updated other now transaction rest confirmation hupdating
  | updateLost other now transaction rest confirmation hupdating => exact waiting_updated hupdating
  | updateFails =>
      apply waiting_setTick
      rintro rfl
      exact absurd rfl hundisturbed

end Steps

/-! ## Runs -/

section Runs

variable {Index : Type} [DecidableEq Index] {config : Index → EscrowConfig} {worker : Index}
  {first last : World Index} {history events : List (Event Index)}

def PendingFor (txHash : String) (table : PendingTable) : Prop :=
  ∀ row ∈ table.rows, row.stellarTxHash = txHash → IsPending row

def QueuedAt (txHash : String) (createdAt : Timestamp) (table : PendingTable) : Prop :=
  ∃ row ∈ table.rows, row.stellarTxHash = txHash ∧ row.createdAt = createdAt

theorem PendingFor.before {before after : PendingTable} {txHash : String}
    (hkept : TableKept before after) (hpending : PendingFor txHash after) :
    PendingFor txHash before := by
  intro row hrow hhash
  obtain ⟨kept, hmem, hsame⟩ := hkept row hrow
  by_contra hended
  have hstill : IsPending kept := hpending kept hmem (hsame.stellarTxHash.trans hhash)
  rw [hsame.ended hended] at hstill
  exact hended hstill

theorem QueuedAt.after {before after : PendingTable} {txHash : String} {createdAt : Timestamp}
    (hkept : TableKept before after) (hqueued : QueuedAt txHash createdAt before) :
    QueuedAt txHash createdAt after := by
  obtain ⟨row, hrow, hhash, hdated⟩ := hqueued
  obtain ⟨kept, hmem, hsame⟩ := hkept row hrow
  exact ⟨kept, hmem, hsame.stellarTxHash.trans hhash, hsame.createdAt.trans hdated⟩

/-- A row that is pending at the end is pending all along. -/
theorem pending_along {guard : World Index → Event Index → Prop} {txHash : String}
    (hrun : GuardedRun (step config) guard first events last)
    (hpending : PendingFor txHash last.table) :
    GuardedRun (step config) (fun world event => guard world event ∧ PendingFor txHash world.table)
      first events last := by
  induction hrun with
  | nil world => exact .nil world
  | cons hguard hstep hrest ih =>
      have hkept := (tableKept_of_step hstep).trans (tableKept_of_run hrest)
      exact .cons ⟨hguard, hpending.before hkept⟩ hstep (ih hpending)

/-- What the count of loads rests on. -/
structure Due (config : Index → EscrowConfig) (worker : Index) (txHash : String)
    (bound : Timestamp) (world : World Index) : Prop where
  consistent : Consistent config world
  recorded : world.chain txHash ≠ none
  queued : QueuedAt txHash bound world.table
  room : unrecorded bound world < (config worker).batchSize

theorem due_step {txHash : String} {bound : Timestamp} {before after : World Index}
    {event : Event Index} (hattended : Attended worker bound before event)
    (hstep : step config before event = some after) (hdue : Due config worker txHash bound before) :
    Due config worker txHash bound after where
  consistent := consistent_step hattended.1 hstep hdue.consistent
  recorded := by
    obtain ⟨outcome, houtcome⟩ := Option.ne_none_iff_exists'.mp hdue.recorded
    rw [chain_of_step hstep houtcome]
    nofun
  queued := hdue.queued.after (tableKept_of_step hstep)
  room := Nat.lt_of_le_of_lt (unrecorded_step hattended.2 hstep) hdue.room

/-- As long as the row stays pending, each load costs a row that waits. -/
theorem loads_le {txHash : String} {bound : Timestamp}
    (hrpc : (config worker).hasRpcServer = true)
    (hrun : GuardedRun (step config) (Attended worker bound) first events last)
    (hdue : Due config worker txHash bound first) (hpending : PendingFor txHash last.table) :
    events.countP (isLoad worker) + waiting worker bound last ≤ waiting worker bound first := by
  refine unsupplied_counted_le (fun hguard => due_step hguard.1) ?_ (pending_along hrun hpending)
    hdue
  intro before after event hguard hstep hbefore
  obtain ⟨hattended, hstays⟩ := hguard
  unfold cost
  split
  · rename_i hload
    obtain ⟨row, hrow, hhash, hdated⟩ := hbefore.queued
    cases moves_of_step hstep with
    | tickLoads other order hloading =>
        obtain rfl : other = worker := of_decide_eq_true hload
        have hknown : before.chain row.stellarTxHash ≠ none := hhash ▸ hbefore.recorded
        have hfalls := waiting_load hbefore.room hrow (hstays row hrow hhash) hdated hknown order
          hloading
        omega
    | _ => cases hload
  · have hle := waiting_step hbefore.consistent hrpc hattended hstep
    omega

/-- The pending rows that are at most as old as a row, itself included. -/
def pendingUpTo (row : PendingStellarTransaction) (table : PendingTable) : ℕ :=
  countPending row.createdAt (fun _ => true) table

/-- A worker that meets no failures ends the row of a transaction that is in a ledger before it has
loaded more often than there are pending rows up to it, if fewer than a batch of these have
transactions that are in no ledger. -/
theorem ended_within {row : PendingStellarTransaction}
    (hreached : GuardedRun (step config) Honest initial history first)
    (hrow : row ∈ first.table.rows) (hrecorded : first.chain row.stellarTxHash ≠ none)
    (hroom : unrecorded row.createdAt first < (config worker).batchSize)
    (hrpc : (config worker).hasRpcServer = true)
    (hrun : GuardedRun (step config) (Attended worker row.createdAt) first events last)
    (hloads : pendingUpTo row first.table < events.countP (isLoad worker)) :
    ∃ kept ∈ last.table.rows, KeptAs row kept ∧ ¬IsPending kept ∧
      RowSays (last.chain row.stellarTxHash) kept := by
  have hfirst : Consistent config first := consistent_run hreached (consistent_initial config)
  have hlast : Consistent config last :=
    consistent_run (hrun.mono fun _ _ hattended => hattended.1) hfirst
  obtain ⟨kept, hmem, hkept⟩ := tableKept_of_run hrun row hrow
  have hstated := (hlast.rows kept hmem).2
  rw [hkept.stellarTxHash] at hstated
  refine ⟨kept, hmem, hkept, fun hpending => ?_, hstated⟩
  have hstill : PendingFor row.stellarTxHash last.table := by
    intro other hother hhash
    obtain rfl : other = kept := List.inj_on_of_nodup_map last.table.uniqueHashes hother hmem
      (hhash.trans hkept.stellarTxHash.symm)
    exact hpending
  have hdue : Due config worker row.stellarTxHash row.createdAt first :=
    ⟨hfirst, hrecorded, ⟨row, hrow, rfl, rfl⟩, hroom⟩
  have hbound := loads_le hrpc hrun hdue hstill
  have hall : waiting worker row.createdAt first ≤ pendingUpTo row first.table :=
    countPending_mono fun _ _ => rfl
  omega

end Runs

/-- One row with room in the batch, and a second load after the tick that has ended it. -/
theorem ended_within_two :
    ∃ first last row events, row ∈ first.table.rows ∧
      GuardedRun (step fun _ : ℕ => ⟨"C1", true, true, 1000, 0, 1⟩) Honest initial
        [.waitStarts 0 "a1", .recorded 0 5 5, .applied "a1" (.success 7)] first ∧
      GuardedRun (step fun _ : ℕ => ⟨"C1", true, true, 1000, 0, 1⟩) (Attended 1 row.createdAt)
        first events last ∧
      ∃ kept ∈ last.table.rows, KeptAs row kept ∧ ¬IsPending kept ∧
        RowSays (last.chain row.stellarTxHash) kept := by
  have hexec : ((execGuarded (step fun _ : ℕ => ⟨"C1", true, true, 1000, 0, 1⟩) Honest initial
      [.waitStarts 0 "a1", .recorded 0 5 5, .applied "a1" (.success 7)]).bind fun first =>
        (execGuarded (step fun _ : ℕ => ⟨"C1", true, true, 1000, 0, 1⟩) (Attended 1 5) first
          [.tickStarts 1, .tickLoads 1 .asStored, .checked 1 (some ⟨some "SUCCESS", some 7⟩),
            .updated 1 20, .tickStarts 1, .tickLoads 1 .asStored]).map fun _ =>
              (first.table.rows, first.chain "a1", unrecorded 5 first)) =
      some ([pendingRow ⟨"C1", true, true, 1000, 0, 1⟩ "a1" 5 5], some (.success 7), 0) := by
    decide +kernel
  obtain ⟨first, last, hreached, hrun, hobserved⟩ := exists_guardedRuns hexec
  simp only [Prod.mk.injEq] at hobserved
  obtain ⟨hrows, hchain, hroom⟩ := hobserved
  have hrow : pendingRow ⟨"C1", true, true, 1000, 0, 1⟩ "a1" 5 5 ∈ first.table.rows := by
    rw [hrows]
    exact List.mem_singleton_self _
  have hrecorded : first.chain "a1" ≠ none := by
    rw [hchain]
    nofun
  have hunrecorded : unrecorded 5 first < 1 := by
    rw [hroom]
    decide
  have hloads :
      pendingUpTo (pendingRow ⟨"C1", true, true, 1000, 0, 1⟩ "a1" 5 5) first.table < 2 := by
    rw [pendingUpTo, countPending, hrows]
    decide
  exact ⟨first, last, _, _, hrow, hreached, hrun,
    ended_within hreached hrow hrecorded hunrecorded rfl hrun hloads⟩

/-! ## Rows behind a full batch -/

section Starvation

variable {Index : Type} [DecidableEq Index] {config : Index → EscrowConfig}
  {first last : World Index} {history events : List (Event Index)}

/-- The tick is going to look at the row of this transaction. -/
def mentions : Tick → String → Bool
  | .idle, _ | .loading, _ => false
  | .checking transaction rest, txHash => within (transaction :: rest) txHash
  | .updating transaction rest _, txHash => within (transaction :: rest) txHash

/-- The pending rows that are older and whose transactions pass. -/
def pendingBefore (row : PendingStellarTransaction) (passes : String → Bool)
    (table : PendingTable) : ℕ :=
  countPending (row.createdAt - 1) passes table

/-- The ledger of every state of a run is part of the last one. -/
theorem chain_along {guard : World Index → Event Index → Prop}
    (hrun : GuardedRun (step config) guard first events last) :
    GuardedRun (step config)
      (fun world event => guard world event ∧ ChainGrows world.chain last.chain)
      first events last ∧ ChainGrows first.chain last.chain := by
  induction hrun with
  | nil world => exact ⟨.nil world, fun _ _ happlied => happlied⟩
  | cons hguard hstep _ ih =>
      obtain ⟨hrest, hgrows⟩ := ih
      have hall : ChainGrows _ _ := fun txHash outcome happlied =>
        hgrows txHash outcome (chain_of_step hstep happlied)
      exact ⟨.cons ⟨hguard, hall⟩ hstep hrest, hall⟩

/-- A row with a full batch of pending rows before it is not loaded. -/
theorem not_within_findPending {table : PendingTable} {row : PendingStellarTransaction}
    (hrow : row ∈ table.rows) {passes : String → Bool} {batchSize : ℕ}
    (hblocked : batchSize ≤ pendingBefore row passes table)
    (order : StorageOrder PendingStellarTransaction) :
    within (table.findPending order batchSize) row.stellarTxHash = false := by
  rw [within, List.any_eq_false]
  intro taken htaken hsame
  have hstored := (of_mem_findPending htaken).1
  obtain rfl : taken = row :=
    List.inj_on_of_nodup_map table.uniqueHashes hstored hrow (of_decide_eq_true hsame)
  have hfew := countP_lt_of_mem_batch htaken
  rw [List.countP_filter] at hfew
  have hmany : pendingBefore taken passes table ≤ table.rows.countP fun other =>
      decide (byCreatedAt other taken = .lt) && decide (IsPending other) := by
    apply List.countP_mono_left
    intro other _ hcounted
    simp only [Bool.and_eq_true, decide_eq_true_eq, byCreatedAt_eq_lt] at hcounted ⊢
    exact ⟨Int.lt_of_le_sub_one hcounted.1.2, hcounted.1.1⟩
  exact absurd (hblocked.trans hmany) (Nat.not_le.mpr hfew)

/-- What keeps a row from being looked at. -/
structure Blocked (config : Index → EscrowConfig) (row : PendingStellarTransaction)
    (never : String → Bool) (world : World Index) : Prop where
  consistent : Consistent config world
  stored : row ∈ world.table.rows
  unseen : ∀ worker, mentions (world.tick worker) row.stellarTxHash = false
  behind : ∀ worker, (config worker).batchSize ≤ pendingBefore row never world.table

theorem mentions_nextChecked (rest : List PendingStellarTransaction) (txHash : String) :
    mentions (nextChecked rest) txHash = within rest txHash := by
  cases rest with
  | nil => rfl
  | cons transaction others => rfl

theorem not_mentions_afterCheck {checker : EscrowConfig} {transaction : PendingStellarTransaction}
    {rest : List PendingStellarTransaction} {answer : Option GetTransaction} {txHash : String}
    (hunseen : within (transaction :: rest) txHash = false) :
    mentions (afterCheck checker transaction rest answer) txHash = false := by
  unfold afterCheck
  split
  · rw [mentions_nextChecked]
    exact (Bool.or_eq_false_iff.mp hunseen).2
  · exact hunseen

theorem stored_reconcile {table : PendingTable} {row : PendingStellarTransaction}
    {txHash : String} {confirmation : Confirmation} {now : Timestamp} (hrow : row ∈ table.rows)
    (hother : row.stellarTxHash ≠ txHash) :
    row ∈ (table.reconcile txHash confirmation now).rows :=
  mem_reconcile.mpr ⟨row, hrow, if_neg fun hboth => hother hboth.1⟩

/-- A transaction that is in no ledger is not found. -/
theorem notFound_of_says {recorded : Option Outcome} {confirmation : Confirmation}
    (hnone : recorded = none) (hstated : Says recorded confirmation) :
    confirmation.status = .notFound := by
  subst hnone
  unfold Says at hstated
  split at hstated
  · obtain ⟨_, hrecorded, _⟩ := hstated
    cases hrecorded
  · cases hstated
  · rename_i hnotFound
    exact hnotFound

section Steps

variable {row : PendingStellarTransaction} {never : String → Bool} {before after : World Index}
  {event : Event Index}

/-- A worker that moves without touching the rows, and does not get to the row. -/
theorem Blocked.setTick (hblocked : Blocked config row never before) {worker : Index} {next : Tick}
    (hconsistent : Consistent config (before.setTick worker next))
    (hunseen : mentions next row.stellarTxHash = false) :
    Blocked config row never (before.setTick worker next) where
  consistent := hconsistent
  stored := hblocked.stored
  unseen := by
    apply forall_setProcess (P := fun _ tick => mentions tick row.stellarTxHash = false) hunseen
    exact fun other _ => hblocked.unseen other
  behind := hblocked.behind

/-- A worker that updates another row. -/
theorem Blocked.updated (hblocked : Blocked config row never before)
    (hnever : ∀ txHash, never txHash = true → before.chain txHash = none) {worker : Index}
    {transaction : PendingStellarTransaction} {rest : List PendingStellarTransaction}
    {confirmation : Confirmation} {now : Timestamp}
    (hupdating : before.tick worker = .updating transaction rest confirmation)
    (hconsistent : Consistent config { before.setTick worker (nextChecked rest) with
      table := before.table.reconcile transaction.stellarTxHash confirmation now }) :
    Blocked config row never { before.setTick worker (nextChecked rest) with
      table := before.table.reconcile transaction.stellarTxHash confirmation now } := by
  have hunseen := hblocked.unseen worker
  have hknows := hblocked.consistent.ticks worker
  rw [hupdating] at hunseen hknows
  obtain ⟨hself, hlater⟩ := Bool.or_eq_false_iff.mp hunseen
  exact {
    consistent := hconsistent
    stored := stored_reconcile hblocked.stored fun hsame =>
      absurd hsame.symm (of_decide_eq_false hself)
    unseen := by
      apply forall_setProcess (P := fun _ tick => mentions tick row.stellarTxHash = false)
      · rw [mentions_nextChecked]
        exact hlater
      · exact fun other _ => hblocked.unseen other
    behind := fun other => (hblocked.behind other).trans
      (le_countPending_reconcile fun hpasses => notFound_of_says (hnever _ hpasses) hknows.2) }

theorem blocked_step (hhonest : Honest before event)
    (hnever : ∀ txHash, never txHash = true → before.chain txHash = none)
    (hstep : step config before event = some after) (hblocked : Blocked config row never before) :
    Blocked config row never after := by
  have hconsistent := consistent_step hhonest hstep hblocked.consistent
  cases moves_of_step hstep with
  | applied | starts | polled | recordFails =>
      exact ⟨hconsistent, hblocked.stored, hblocked.unseen, hblocked.behind⟩
  | recorded | recordLost =>
      exact ⟨hconsistent, mem_insertOrIgnore_of_mem hblocked.stored, hblocked.unseen,
        fun other => (hblocked.behind other).trans le_countPending_insertOrIgnore⟩
  | tickStarts worker hidle => exact hblocked.setTick hconsistent rfl
  | tickLoads worker order hloading =>
      apply hblocked.setTick hconsistent
      rw [mentions_nextChecked]
      exact not_within_findPending hblocked.stored (hblocked.behind worker) order
  | tickLoadFails worker hloading => exact hblocked.setTick hconsistent rfl
  | checked worker answer transaction rest hchecking =>
      have hunseen := hblocked.unseen worker
      rw [hchecking] at hunseen
      exact hblocked.setTick hconsistent (not_mentions_afterCheck hunseen)
  | updated worker now transaction rest confirmation hupdating
  | updateLost worker now transaction rest confirmation hupdating =>
      exact hblocked.updated hnever hupdating hconsistent
  | updateFails worker now transaction rest confirmation hupdating =>
      apply hblocked.setTick hconsistent
      have hunseen := hblocked.unseen worker
      rw [hupdating] at hunseen
      rw [mentions_nextChecked]
      exact (Bool.or_eq_false_iff.mp hunseen).2

end Steps

/-- Where as many older rows as every worker takes at once have transactions that are in no ledger
at the end, no worker has looked at the row. -/
theorem untouched_behind {row : PendingStellarTransaction}
    (hreached : GuardedRun (step config) Honest initial history first)
    (hrun : GuardedRun (step config) Honest first events last) (hrow : row ∈ first.table.rows)
    (hunseen : ∀ worker, mentions (first.tick worker) row.stellarTxHash = false)
    (hbehind : ∀ worker, (config worker).batchSize ≤
      pendingBefore row (fun txHash => (last.chain txHash).isNone) first.table) :
    row ∈ last.table.rows ∧ ∀ worker, mentions (last.tick worker) row.stellarTxHash = false := by
  have hfirst : Consistent config first := consistent_run hreached (consistent_initial config)
  have hpreserve : ∀ {before after : World Index} {event : Event Index},
      Honest before event ∧ ChainGrows before.chain last.chain →
      step config before event = some after →
      Blocked config row (fun txHash => (last.chain txHash).isNone) before →
      Blocked config row (fun txHash => (last.chain txHash).isNone) after := by
    intro before after event hguard hstep hblocked
    refine blocked_step hguard.1 (fun txHash hnone => ?_) hstep hblocked
    cases happlied : before.chain txHash with
    | none => rfl
    | some outcome =>
        rw [hguard.2 txHash outcome happlied] at hnone
        cases hnone
  have hlast := (chain_along hrun).1.invariant hpreserve ⟨hfirst, hrow, hunseen, hbehind⟩
  exact ⟨hlast.stored, hlast.unseen⟩

end Starvation

/-- A batch of one, with an older row whose transaction is in no ledger. -/
theorem untouched_behind_one :
    ∃ history first events last row, row ∈ first.table.rows ∧
      last.chain row.stellarTxHash ≠ none ∧
      GuardedRun (step fun _ : Fin 3 => ⟨"C1", true, true, 1000, 0, 1⟩) Honest initial
        history first ∧
      GuardedRun (step fun _ : Fin 3 => ⟨"C1", true, true, 1000, 0, 1⟩) Honest first events last ∧
      row ∈ last.table.rows ∧ ∀ worker, mentions (last.tick worker) row.stellarTxHash = false := by
  have hexec : ((execGuarded (step fun _ : Fin 3 => ⟨"C1", true, true, 1000, 0, 1⟩) Honest initial
      [.waitStarts 0 "a1", .recorded 0 5 5, .waitStarts 1 "b2", .recorded 1 6 6,
        .applied "b2" (.success 7)]).bind fun first =>
        (execGuarded (step fun _ : Fin 3 => ⟨"C1", true, true, 1000, 0, 1⟩) Honest first
          [.tickStarts 2, .tickLoads 2 .asStored, .checked 2 (some ⟨some "NOT_FOUND", none⟩),
            .updated 2 20]).map fun last =>
              (first.table.rows, last.chain "a1", last.chain "b2",
                decide (∀ worker, mentions (first.tick worker) "b2" = false))) =
      some ([pendingRow ⟨"C1", true, true, 1000, 0, 1⟩ "a1" 5 5,
        pendingRow ⟨"C1", true, true, 1000, 0, 1⟩ "b2" 6 6], none, some (.success 7), true) := by
    decide +kernel
  obtain ⟨first, last, hreached, hrun, hobserved⟩ := exists_guardedRuns hexec
  simp only [Prod.mk.injEq, decide_eq_true_eq] at hobserved
  obtain ⟨hrows, hnone, hrecorded, hunseen⟩ := hobserved
  have hrow : pendingRow ⟨"C1", true, true, 1000, 0, 1⟩ "b2" 6 6 ∈ first.table.rows := by
    rw [hrows]
    exact List.mem_cons_of_mem _ (List.mem_singleton_self _)
  have hbehind : ∀ worker : Fin 3, 1 ≤ pendingBefore
      (pendingRow ⟨"C1", true, true, 1000, 0, 1⟩ "b2" 6 6)
        (fun txHash => (last.chain txHash).isNone) first.table := by
    intro worker
    rw [pendingBefore, countPending, hrows, List.one_le_countP_iff]
    refine ⟨_, List.mem_cons_self, ?_⟩
    change (true && true && (last.chain "a1").isNone) = true
    rw [hnone]
    rfl
  exact ⟨_, first, _, last, _, hrow, by rw [pendingRow, hrecorded]; nofun, hreached, hrun,
    untouched_behind hreached hrun hrow hunseen hbehind⟩

end StellarSettle.ConfirmationTicks
