import StellarSettle.Analytics.Snapshots
import StellarSettle.Core.BoundedRuns
import StellarSettle.Core.UniqueColumns

/-!
# Snapshot jobs of several replicas

Every replica schedules the job of a day, and nothing but the unique date keeps two of them from
storing a row each.  A job reads its sources in four queries, looks for the row of its date and
saves it, and other jobs and the sources move in between.
-/

namespace StellarSettle.SnapshotReplicas

open StellarSettle.BoundedRuns
open StellarSettle.Entities (Timestamp)
open StellarSettle.KeyedRows
open StellarSettle.ReportingDays
open StellarSettle.Snapshots
open StellarSettle.TransitionSystem
open StellarSettle.UniqueColumns

/-! ## Data -/

/-- A row of the table. -/
structure StoredSnapshot where
  id : ℕ
  snapshot : AnalyticsSnapshot
  deriving DecidableEq, Repr

def StoredSnapshot.snapshotDate (row : StoredSnapshot) : String := row.snapshot.snapshotDate

abbrev SnapshotTable : Type :=
  UniqueTable StoredSnapshot.id [fun row => some row.snapshotDate]

/-- What a job has done of its attempt. -/
inductive Phase
  | reading (attempt : ℕ) (seen : List Sources)
  | saving (attempt : ℕ) (metrics : Metrics) (existing : Option StoredSnapshot)
  | done
  | failed

def Phase.isDone : Phase → Bool
  | .done => true
  | _ => false

structure State (Index : Type) where
  sources : Sources
  table : SnapshotTable
  phases : Index → Phase

/-- The steps of the jobs.  The answer to a save may be lost although its row is stored. -/
inductive Event (Index : Type)
  | write (sources : Sources)
  | query (index : Index)
  | find (index : Index)
  | save (index : Index) (now : Timestamp) (lost : Bool)
  | throws (index : Index)

/-! ## Steps -/

/-- The metrics of four queries, each of which sees the sources of its own time. -/
def readQueries (day : ReportingDay) (counted daily cumulative active : Sources) : Metrics :=
  let dayStart := day.dayStart.ms
  let dayEnd := day.dayEnd.ms
  { readMetrics counted dayStart dayEnd with
    dailyFundingVolume := (readMetrics daily dayStart dayEnd).dailyFundingVolume
    cumulativeFundingVolume := (readMetrics cumulative dayStart dayEnd).cumulativeFundingVolume
    activeInvestorCount := (readMetrics active dayStart dayEnd).activeInvestorCount }

/-- The row that is saved: the one that was found, or a new one. -/
def savedRow (table : SnapshotTable) (snapshotDate : String) (metrics : Metrics)
    (existing : Option StoredSnapshot) (now : Timestamp) : StoredSnapshot :=
  match existing with
  | some row => { row with snapshot := { row.snapshot with metrics := metrics } }
  | none => ⟨freshKey StoredSnapshot.id table.rows, ⟨snapshotDate, metrics, now⟩⟩

/-- An attempt that failed is tried again, unless it was the last. -/
def retry (maxRetries attempt : ℕ) : Phase :=
  if maxRetries < attempt then .failed else .reading (attempt + 1) []

section Steps

variable {Index : Type} [DecidableEq Index] (day : Index → ReportingDay) (maxRetries : Index → ℕ)

def setPhase (state : State Index) (index : Index) (phase : Phase) : State Index :=
  { state with phases := setProcess state.phases index phase }

/-- The row of a job's date. -/
def rowOf (state : State Index) (index : Index) : Option StoredSnapshot :=
  findRow StoredSnapshot.snapshotDate state.table.rows (day index).snapshotDate

def afterSave (state : State Index) (index : Index) (attempt : ℕ) (lost : Bool) :
    Option SnapshotTable → State Index
  | some table =>
      setPhase { state with table := table } index
        (if lost then retry (maxRetries index) attempt else .done)
  | none => setPhase state index (retry (maxRetries index) attempt)

def step (state : State Index) : Event Index → Option (State Index)
  | .write sources => some { state with sources := sources }
  | .query index =>
      match state.phases index with
      | .reading attempt seen =>
          if seen.length < 4 then
            some (setPhase state index (.reading attempt (seen ++ [state.sources])))
          else none
      | _ => none
  | .find index =>
      match state.phases index with
      | .reading attempt [counted, daily, cumulative, active] =>
          some (setPhase state index
            (.saving attempt (readQueries (day index) counted daily cumulative active)
              (rowOf day state index)))
      | _ => none
  | .save index now lost =>
      match state.phases index with
      | .saving attempt metrics existing =>
          some (afterSave maxRetries state index attempt lost
            (state.table.save
              (savedRow state.table (day index).snapshotDate metrics existing now)))
      | _ => none
  | .throws index =>
      match state.phases index with
      | .reading attempt _ => some (setPhase state index (retry (maxRetries index) attempt))
      | .saving attempt _ _ => some (setPhase state index (retry (maxRetries index) attempt))
      | _ => none

end Steps

/-! ## Rows that are kept -/

section Facts

variable {Index : Type} (day : Index → ReportingDay) (maxRetries : Index → ℕ)

/-- Every row stays, with its id, its date and the time of its creation. -/
def Keeps (rows later : List StoredSnapshot) : Prop :=
  ∀ row ∈ rows, ∃ kept ∈ later, kept.id = row.id ∧ kept.snapshotDate = row.snapshotDate ∧
    kept.snapshot.createdAt = row.snapshot.createdAt

theorem Keeps.refl (rows : List StoredSnapshot) : Keeps rows rows :=
  fun row hrow => ⟨row, hrow, rfl, rfl, rfl⟩

theorem Keeps.trans {rows middle later : List StoredSnapshot} (hfirst : Keeps rows middle)
    (hsecond : Keeps middle later) : Keeps rows later := by
  intro row hrow
  obtain ⟨kept, hkept, hid, hdate, hcreated⟩ := hfirst row hrow
  obtain ⟨last, hlast, hlastId, hlastDate, hlastCreated⟩ := hsecond kept hkept
  exact ⟨last, hlast, hlastId.trans hid, hlastDate.trans hdate, hlastCreated.trans hcreated⟩

/-- The date of a job has a row. -/
def Present (table : SnapshotTable) (index : Index) : Prop :=
  ∃ row ∈ table.rows, row.snapshotDate = (day index).snapshotDate

theorem Present.mono {table later : SnapshotTable} {index : Index}
    (hkeeps : Keeps table.rows later.rows) (hpresent : Present day table index) :
    Present day later index := by
  obtain ⟨row, hrow, hdate⟩ := hpresent
  obtain ⟨kept, hkept, -, hkeptDate, -⟩ := hkeeps row hrow
  exact ⟨kept, hkept, hkeptDate.trans hdate⟩

theorem rowOf_eq_none {state : State Index} {index : Index} :
    rowOf day state index = none ↔ ¬Present day state.table index := by
  rw [rowOf, findRow_eq_none, Present]
  push Not
  rfl

/-- What a phase says about the table: a row that was found is still there. -/
def Fits (table : SnapshotTable) (index : Index) : Phase → Prop
  | .saving _ _ (some row) => row.snapshotDate = (day index).snapshotDate ∧ Keeps [row] table.rows
  | .done => Present day table index
  | _ => True

theorem Fits.mono {table later : SnapshotTable} {index : Index} {phase : Phase}
    (hkeeps : Keeps table.rows later.rows) (hfits : Fits day table index phase) :
    Fits day later index phase := by
  match phase with
  | .reading _ _ => trivial
  | .saving _ _ none => trivial
  | .saving _ _ (some _) => exact ⟨hfits.1, hfits.2.trans hkeeps⟩
  | .done => exact Present.mono day hkeeps hfits
  | .failed => trivial

theorem fits_retry (table : SnapshotTable) (index : Index) (attempt : ℕ) :
    Fits day table index (retry (maxRetries index) attempt) := by
  unfold retry
  split <;> trivial

/-! ## One save -/

section Saves

variable {table saved : SnapshotTable} {index : Index} {attempt : ℕ} {metrics : Metrics}
  {existing : Option StoredSnapshot} {now : Timestamp}

theorem snapshotDate_savedRow (hfits : Fits day table index (.saving attempt metrics existing)) :
    (savedRow table (day index).snapshotDate metrics existing now).snapshotDate =
      (day index).snapshotDate := by
  cases existing with
  | none => rfl
  | some row => exact hfits.1

/-- A row that was found is saved. -/
theorem save_ne_none {row : StoredSnapshot}
    (hfits : Fits day table index (.saving attempt metrics (some row))) :
    table.save (savedRow table (day index).snapshotDate metrics (some row) now) ≠ none := by
  rw [ne_eq, UniqueTable.save_eq_none]
  rintro ⟨column, hcolumn, other, hother, hkey, -, hsame⟩
  rw [List.mem_singleton.mp hcolumn] at hsame
  obtain ⟨kept, hkept, hid, hdate, -⟩ := hfits.2 row (List.mem_singleton_self row)
  have hdates : some other.snapshotDate = some kept.snapshotDate :=
    hsame.trans (congrArg some hdate.symm)
  have hequal : other = kept := table.unique _ (List.mem_singleton_self _) other hother kept hkept
    (Option.some_ne_none _) hdates
  exact hkey ((congrArg StoredSnapshot.id hequal).trans hid)

/-- A row clashes where its date has a row that was not found. -/
theorem present_of_clash
    (hsave : table.save (savedRow table (day index).snapshotDate metrics none now) = none) :
    Present day table index := by
  obtain ⟨column, hcolumn, row, hrow, -, -, hsame⟩ := UniqueTable.save_eq_none.mp hsave
  rw [List.mem_singleton.mp hcolumn] at hsame
  exact ⟨row, hrow, Option.some.inj hsame⟩

theorem keeps_save (hfits : Fits day table index (.saving attempt metrics existing))
    (hsave : table.save (savedRow table (day index).snapshotDate metrics existing now) =
      some saved) : Keeps table.rows saved.rows := by
  obtain ⟨-, hrows⟩ := UniqueTable.rows_of_save hsave
  intro row hrow
  rw [hrows]
  by_cases hkey : row.id = (savedRow table (day index).snapshotDate metrics existing now).id
  · refine ⟨_, mem_saveRow_self, hkey.symm, ?_⟩
    cases existing with
    | none => exact absurd hkey (key_ne_freshKey hrow)
    | some found =>
        obtain ⟨kept, hkept, hid, hdate, hcreated⟩ := hfits.2 found (List.mem_singleton_self found)
        obtain rfl : row = kept := table.eq_of_key hrow hkept (hkey.trans hid.symm)
        exact ⟨hdate.symm, hcreated.symm⟩
  · exact ⟨row, mem_saveRow.mpr (.inr ⟨hrow, hkey⟩), rfl, rfl, rfl⟩

theorem present_save (hfits : Fits day table index (.saving attempt metrics existing))
    (hsave : table.save (savedRow table (day index).snapshotDate metrics existing now) =
      some saved) : Present day saved index := by
  obtain ⟨-, hrows⟩ := UniqueTable.rows_of_save hsave
  exact ⟨_, hrows ▸ mem_saveRow_self, snapshotDate_savedRow day hfits⟩

end Saves

/-! ## Moves -/

/-- What every phase says about the table. -/
def Coherent (state : State Index) : Prop :=
  ∀ index, Fits day state.table index (state.phases index)

/-- What a job moves to, and the table then. -/
inductive Moves (state : State Index) (index : Index) : Bool → SnapshotTable → Phase → Prop
  | query {attempt : ℕ} {seen : List Sources}
      (hphase : state.phases index = .reading attempt seen) :
      Moves state index false state.table (.reading attempt (seen ++ [state.sources]))
  | find {attempt : ℕ} {counted daily cumulative active : Sources}
      (hphase : state.phases index = .reading attempt [counted, daily, cumulative, active]) :
      Moves state index false state.table
        (.saving attempt (readQueries (day index) counted daily cumulative active)
          (rowOf day state index))
  | stored {attempt : ℕ} {metrics : Metrics} {existing : Option StoredSnapshot} {now : Timestamp}
      {saved : SnapshotTable} (lost : Bool)
      (hphase : state.phases index = .saving attempt metrics existing)
      (hsave : state.table.save
        (savedRow state.table (day index).snapshotDate metrics existing now) = some saved) :
      Moves state index lost saved (if lost then retry (maxRetries index) attempt else .done)
  | clashed {attempt : ℕ} {metrics : Metrics} {existing : Option StoredSnapshot} {now : Timestamp}
      (lost : Bool) (hphase : state.phases index = .saving attempt metrics existing)
      (hsave : state.table.save
        (savedRow state.table (day index).snapshotDate metrics existing now) = none) :
      Moves state index lost state.table (retry (maxRetries index) attempt)
  | threwReading {attempt : ℕ} {seen : List Sources}
      (hphase : state.phases index = .reading attempt seen) :
      Moves state index true state.table (retry (maxRetries index) attempt)
  | threwSaving {attempt : ℕ} {metrics : Metrics} {existing : Option StoredSnapshot}
      (hphase : state.phases index = .saving attempt metrics existing) :
      Moves state index true state.table (retry (maxRetries index) attempt)

variable {day maxRetries}

/-- A move keeps the rows, and the phase that it leads to fits the table. -/
theorem Moves.keeps {before : State Index} {index : Index} {disturbed : Bool}
    {table : SnapshotTable} {phase : Phase} (hcoherent : Coherent day before)
    (hmoves : Moves day maxRetries before index disturbed table phase) :
    Keeps before.table.rows table.rows ∧ Fits day table index phase := by
  have hfits := hcoherent index
  cases hmoves with
  | query hphase => exact ⟨Keeps.refl _, trivial⟩
  | find hphase =>
      refine ⟨Keeps.refl _, ?_⟩
      cases hfound : rowOf day before index with
      | none => trivial
      | some row =>
          obtain ⟨hrow, hdate⟩ := mem_of_findRow hfound
          refine ⟨hdate, fun other hother => ?_⟩
          rw [List.mem_singleton.mp hother]
          exact ⟨row, hrow, rfl, rfl, rfl⟩
  | stored lost hphase hsave =>
      rw [hphase] at hfits
      refine ⟨keeps_save day hfits hsave, ?_⟩
      cases disturbed with
      | false => exact present_save day hfits hsave
      | true => exact fits_retry day maxRetries _ index _
  | clashed lost hphase hsave => exact ⟨Keeps.refl _, fits_retry day maxRetries _ index _⟩
  | threwReading hphase => exact ⟨Keeps.refl _, fits_retry day maxRetries _ index _⟩
  | threwSaving hphase => exact ⟨Keeps.refl _, fits_retry day maxRetries _ index _⟩

/-! ## Attempts -/

variable (day maxRetries)

/-- One where the date of a job has a row. -/
def presence (state : State Index) (index : Index) : ℕ := (rowOf day state index).elim 0 fun _ => 1

/-- Attempts that failed for another reason than a clash. -/
def spent (present : ℕ) (index : Index) : Phase → ℕ
  | .reading attempt _ => attempt - 1 - present
  | .saving attempt _ none => attempt - 1
  | .saving attempt _ (some _) => attempt - 2
  | .done => 0
  | .failed => maxRetries index

theorem spent_retry_le (index : Index) (attempt : ℕ) {present : ℕ} (hpresent : present ≤ 1) :
    spent maxRetries present index (retry (maxRetries index) attempt) ≤ attempt - present := by
  unfold retry
  split
  · change maxRetries index ≤ attempt - present
    omega
  · change attempt + 1 - 1 - present ≤ attempt - present
    omega

variable {day maxRetries}

theorem presence_eq_one (state : State Index) {index : Index}
    (hpresent : Present day state.table index) : presence day state index = 1 := by
  cases hrow : rowOf day state index with
  | none => exact absurd hpresent ((rowOf_eq_none day).mp hrow)
  | some row => rw [presence, hrow, Option.elim_some]

theorem presence_le_one (state : State Index) (index : Index) : presence day state index ≤ 1 := by
  rw [presence]
  cases rowOf day state index
  · exact Nat.zero_le 1
  · exact le_rfl

theorem spent_mono {fewer more : ℕ} (hpresent : fewer ≤ more) (index : Index) (phase : Phase) :
    spent maxRetries more index phase ≤ spent maxRetries fewer index phase := by
  match phase with
  | .reading attempt _ => exact Nat.sub_le_sub_left hpresent _
  | .saving _ _ none => exact le_rfl
  | .saving _ _ (some _) => exact le_rfl
  | .done => exact le_rfl
  | .failed => exact le_rfl

theorem presence_mono {before after : State Index} {index : Index}
    (hkeeps : Keeps before.table.rows after.table.rows) :
    presence day before index ≤ presence day after index := by
  by_cases hpresent : Present day before.table index
  · rw [presence_eq_one before hpresent,
      presence_eq_one after (Present.mono day hkeeps hpresent)]
  · rw [presence, (rowOf_eq_none day).mpr hpresent]
    exact Nat.zero_le _

/-- A move spends an attempt only where it is disturbed: a clash finds the date present. -/
theorem Moves.spent_le {before : State Index} {index : Index} {disturbed : Bool}
    {table : SnapshotTable} {phase : Phase} {present : ℕ} (hcoherent : Coherent day before)
    (hmoves : Moves day maxRetries before index disturbed table phase)
    (hbound : present ≤ 1) (hgrows : presence day before index ≤ present)
    (hpresent : Present day table index → present = 1) :
    spent maxRetries present index phase ≤
      spent maxRetries (presence day before index) index (before.phases index) +
        disturbed.toNat := by
  have hfits := hcoherent index
  have hkeeps := (hmoves.keeps hcoherent).1
  cases hmoves with
  | query hphase =>
      rw [hphase]
      exact Nat.sub_le_sub_left hgrows _
  | @find attempt counted daily cumulative active hphase =>
      rw [hphase]
      cases hfound : rowOf day before index with
      | none =>
          rw [presence, hfound]
          exact le_rfl
      | some row =>
          rw [presence, hfound]
          change attempt - 2 ≤ attempt - 1 - 1
          omega
  | @stored attempt metrics existing now _ _ hphase hsave =>
      rw [hphase] at hfits ⊢
      cases disturbed with
      | false => exact Nat.zero_le _
      | true =>
          have hretry := spent_retry_le maxRetries index attempt hbound
          rw [hpresent (present_save day hfits hsave)] at hretry ⊢
          have hspent : attempt - 2 ≤
              spent maxRetries (presence day before index) index
                (.saving attempt metrics existing) := by
            cases existing with
            | none => exact Nat.sub_le_sub_left (by decide) attempt
            | some _ => exact le_rfl
          rw [if_pos rfl, Bool.toNat_true]
          omega
  | @clashed attempt metrics existing now _ hphase hsave =>
      rw [hphase] at hfits ⊢
      cases existing with
      | some row => exact absurd hsave (save_ne_none day hfits)
      | none =>
          have hretry := spent_retry_le maxRetries index attempt hbound
          rw [hpresent (present_of_clash day hsave)] at hretry ⊢
          exact hretry.trans (Nat.le_add_right _ _)
  | @threwReading attempt seen hphase =>
      have hretry := spent_retry_le maxRetries index attempt hbound
      rw [hphase, Bool.toNat_true]
      change _ ≤ attempt - 1 - presence day before index + 1
      omega
  | @threwSaving attempt metrics existing hphase =>
      have hretry := spent_retry_le maxRetries index attempt hbound
      rw [hphase] at hfits ⊢
      rw [Bool.toNat_true]
      cases existing with
      | none =>
          change _ ≤ attempt - 1 + 1
          omega
      | some row =>
          obtain ⟨kept, hkept, -, hdate, -⟩ := hfits.2 row (List.mem_singleton_self row)
          rw [hpresent ⟨kept, hkept, hdate.trans hfits.1⟩] at hretry ⊢
          change _ ≤ attempt - 2 + 1
          omega

/-! ## What is stored -/

/-- Metrics of four queries of one job, each of which saw allowed sources. -/
def FromQueries (day : Index → ReportingDay) (allowed : Sources → Prop) (index : Index)
    (metrics : Metrics) : Prop :=
  ∃ counted daily cumulative active, allowed counted ∧ allowed daily ∧ allowed cumulative ∧
    allowed active ∧ metrics = readQueries (day index) counted daily cumulative active

/-- A row has the metrics that it had at first, or those of a job of its date. -/
def Sourced (day : Index → ReportingDay) (allowed : Sources → Prop) (first : List StoredSnapshot)
    (row : StoredSnapshot) : Prop :=
  (∃ old ∈ first, old.id = row.id ∧ old.snapshot.metrics = row.snapshot.metrics) ∨
    ∃ index, row.snapshotDate = (day index).snapshotDate ∧
      FromQueries day allowed index row.snapshot.metrics

/-- What a phase has read it has read from allowed sources. -/
def ReadsAllowed (day : Index → ReportingDay) (allowed : Sources → Prop) (index : Index) :
    Phase → Prop
  | .reading _ seen => ∀ sources ∈ seen, allowed sources
  | .saving _ metrics _ => FromQueries day allowed index metrics
  | _ => True

structure Traced (day : Index → ReportingDay) (allowed : Sources → Prop)
    (first : List StoredSnapshot) (state : State Index) : Prop where
  sources : allowed state.sources
  phases : ∀ index, ReadsAllowed day allowed index (state.phases index)
  rows : ∀ row ∈ state.table.rows, Sourced day allowed first row

/-- A run whose writes are allowed. -/
def Allows (allowed : Sources → Prop) : Event Index → Prop
  | .write sources => allowed sources
  | _ => True

theorem readsAllowed_retry (allowed : Sources → Prop) (index : Index) (attempt : ℕ) :
    ReadsAllowed day allowed index (retry (maxRetries index) attempt) := by
  unfold retry
  split
  · trivial
  · exact List.forall_mem_nil _

theorem Moves.traced {before : State Index} {index : Index} {disturbed : Bool}
    {table : SnapshotTable} {phase : Phase} {allowed : Sources → Prop} {first : List StoredSnapshot}
    (hcoherent : Coherent day before) (htraced : Traced day allowed first before)
    (hmoves : Moves day maxRetries before index disturbed table phase) :
    ReadsAllowed day allowed index phase ∧ ∀ row ∈ table.rows, Sourced day allowed first row := by
  have hreads := htraced.phases index
  cases hmoves with
  | query hphase =>
      rw [hphase] at hreads
      refine ⟨fun sources hsources => ?_, htraced.rows⟩
      rcases List.mem_append.mp hsources with hseen | hnow
      · exact hreads sources hseen
      · exact List.mem_singleton.mp hnow ▸ htraced.sources
  | @find attempt counted daily cumulative active hphase =>
      rw [hphase] at hreads
      refine ⟨⟨counted, daily, cumulative, active, ?_, ?_, ?_, ?_, rfl⟩, htraced.rows⟩ <;>
        exact hreads _ (by simp)
  | @stored attempt metrics existing now _ _ hphase hsave =>
      have hfits := hcoherent index
      rw [hphase] at hreads hfits
      obtain ⟨-, hrows⟩ := UniqueTable.rows_of_save hsave
      constructor
      · cases disturbed with
        | false => trivial
        | true => exact readsAllowed_retry allowed index attempt
      · intro row hrow
        rw [hrows] at hrow
        rcases mem_saveRow.mp hrow with hnew | ⟨hold, -⟩
        · refine .inr ⟨index, ?_, ?_⟩
          · rw [hnew]
            exact snapshotDate_savedRow day hfits
          · rw [hnew]
            cases existing <;> exact hreads
        · exact htraced.rows row hold
  | clashed _ _ _ => exact ⟨readsAllowed_retry allowed index _, htraced.rows⟩
  | threwReading _ => exact ⟨readsAllowed_retry allowed index _, htraced.rows⟩
  | threwSaving _ => exact ⟨readsAllowed_retry allowed index _, htraced.rows⟩

/-! ## Runs -/

/-- Jobs of all replicas before their first attempts. -/
def Starts (state : State Index) : Prop := ∀ index, state.phases index = .reading 1 []

theorem Starts.coherent {state : State Index} (hstarts : Starts state) : Coherent day state := by
  intro index
  rw [hstarts index]
  trivial

end Facts

section Runs

variable {Index : Type} [DecidableEq Index] {day : Index → ReportingDay} {maxRetries : Index → ℕ}

/-- An attempt of the job fails for a reason of its own. -/
def disturbs (index : Index) : Event Index → Bool
  | .save other _ lost => index = other && lost
  | .throws other => index = other
  | _ => false

theorem step_cases {before after : State Index} {event : Event Index}
    (hstep : step day maxRetries before event = some after) :
    (∃ sources, event = .write sources ∧ after = { before with sources := sources }) ∨
    ∃ index table phase, Moves day maxRetries before index (disturbs index event) table phase ∧
      after = setPhase { before with table := table } index phase := by
  cases event with
  | write sources => exact .inl ⟨sources, rfl, (Option.some.inj hstep).symm⟩
  | query index =>
      right
      simp only [step] at hstep
      split at hstep
      · rename_i attempt seen hphase
        split at hstep
        · exact ⟨index, _, _, .query hphase, (Option.some.inj hstep).symm⟩
        · cases hstep
      · cases hstep
  | find index =>
      right
      simp only [step] at hstep
      split at hstep
      · rename_i attempt counted daily cumulative active hphase
        exact ⟨index, _, _, .find hphase, (Option.some.inj hstep).symm⟩
      · cases hstep
  | save index now lost =>
      right
      simp only [step] at hstep
      split at hstep
      · rename_i attempt metrics existing hphase
        have hdisturbs : disturbs index (.save index now lost) = lost := by simp [disturbs]
        rw [← Option.some.inj hstep]
        cases hsave : before.table.save
            (savedRow before.table (day index).snapshotDate metrics existing now) with
        | none => exact ⟨index, _, _, hdisturbs.symm ▸ .clashed lost hphase hsave, rfl⟩
        | some saved => exact ⟨index, _, _, hdisturbs.symm ▸ .stored lost hphase hsave, rfl⟩
      · cases hstep
  | throws index =>
      right
      have hdisturbs : disturbs index (.throws index) = true := by simp [disturbs]
      simp only [step] at hstep
      split at hstep
      · rename_i attempt seen hphase
        exact ⟨index, _, _, hdisturbs.symm ▸ .threwReading hphase, (Option.some.inj hstep).symm⟩
      · rename_i attempt metrics existing hphase
        exact ⟨index, _, _, hdisturbs.symm ▸ .threwSaving hphase, (Option.some.inj hstep).symm⟩
      · cases hstep

theorem step_keeps {before after : State Index} {event : Event Index}
    (hstep : step day maxRetries before event = some after) (hcoherent : Coherent day before) :
    Keeps before.table.rows after.table.rows ∧ Coherent day after := by
  obtain ⟨sources, -, rfl⟩ | ⟨index, table, phase, hmoves, rfl⟩ := step_cases hstep
  · exact ⟨Keeps.refl _, hcoherent⟩
  · obtain ⟨hkeeps, hfits⟩ := hmoves.keeps hcoherent
    refine ⟨hkeeps, forall_setProcess hfits fun other _ => ?_⟩
    exact Fits.mono day hkeeps (hcoherent other)

theorem step_spent {before after : State Index} {event : Event Index} (index : Index)
    (hstep : step day maxRetries before event = some after) (hcoherent : Coherent day before) :
    spent maxRetries (presence day after index) index (after.phases index) ≤
      spent maxRetries (presence day before index) index (before.phases index) +
        cost (disturbs index) event := by
  obtain ⟨hkeeps, -⟩ := step_keeps hstep hcoherent
  have hgrows : presence day before index ≤ presence day after index := presence_mono hkeeps
  obtain ⟨sources, -, rfl⟩ | ⟨moved, table, phase, hmoves, rfl⟩ := step_cases hstep
  · exact (spent_mono hgrows index _).trans (Nat.le_add_right _ _)
  · by_cases hmoved : index = moved
    · subst hmoved
      have hphase : (setPhase { before with table := table } index phase).phases index = phase :=
        Function.update_self ..
      have hcost : cost (disturbs index) event = (disturbs index event).toNat := by
        rw [cost]
        cases disturbs index event <;> rfl
      rw [hphase, hcost]
      exact hmoves.spent_le hcoherent (presence_le_one _ index) hgrows
        (presence_eq_one (setPhase { before with table := table } index phase))
    · have hphase : (setPhase { before with table := table } moved phase).phases index =
          before.phases index := Function.update_of_ne hmoved ..
      rw [hphase]
      exact (spent_mono hgrows index _).trans (Nat.le_add_right _ _)

theorem step_traced {before after : State Index} {event : Event Index} {allowed : Sources → Prop}
    {first : List StoredSnapshot} (hallows : Allows allowed event)
    (hstep : step day maxRetries before event = some after) (hcoherent : Coherent day before)
    (htraced : Traced day allowed first before) : Traced day allowed first after := by
  obtain ⟨sources, rfl, rfl⟩ | ⟨index, table, phase, hmoves, rfl⟩ := step_cases hstep
  · exact ⟨hallows, htraced.phases, htraced.rows⟩
  · obtain ⟨hreads, hrows⟩ := hmoves.traced hcoherent htraced
    exact ⟨htraced.sources, forall_setProcess hreads fun other _ => htraced.phases other, hrows⟩

end Runs

end StellarSettle.SnapshotReplicas
