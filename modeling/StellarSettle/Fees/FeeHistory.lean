import StellarSettle.Fees.FeeSchedule

/-!
# The history of the fee schedules

A call that has inserted an active schedule has deactivated the only active one, and no
other call can commit before it ends.  So one schedule is active after every commit, and
the history leads from the first rates to the active ones without a gap.
-/

namespace StellarSettle.FeeHistory

open StellarSettle.FeeSchedule
open StellarSettle.TransitionSystem

/-! ## Chains -/

/-- Every row starts where the row before it ended, and merges its input into that. -/
def Chained : FeeRates → List FeeScheduleHistory → FeeRates → Prop
  | start, [], last => start = last
  | start, row :: rest, last =>
      row.oldRates = start ∧ row.newRates = row.input.merge row.oldRates ∧
        Chained row.newRates rest last

/-- The rates after the updates of the rows, one after the other. -/
def mergeAll (start : FeeRates) (rows : List FeeScheduleHistory) : FeeRates :=
  rows.foldl (fun rates row => row.input.merge rates) start

theorem Chained.append {start last : FeeRates} {rows : List FeeScheduleHistory}
    {row : FeeScheduleHistory} (hchained : Chained start rows last) (hold : row.oldRates = last)
    (hnew : row.newRates = row.input.merge row.oldRates) :
    Chained start (rows ++ [row]) row.newRates := by
  induction rows generalizing start with
  | nil => exact ⟨hold.trans (Eq.symm hchained), hnew, rfl⟩
  | cons first rest ih =>
      obtain ⟨hstart, hmerged, hrest⟩ := hchained
      exact ⟨hstart, hmerged, ih hrest⟩

theorem Chained.eq_mergeAll {start last : FeeRates} {rows : List FeeScheduleHistory}
    (hchained : Chained start rows last) : last = mergeAll start rows := by
  induction rows generalizing start with
  | nil => exact Eq.symm hchained
  | cons first rest ih =>
      obtain ⟨rfl, hmerged, hrest⟩ := hchained
      rw [mergeAll, List.foldl_cons, ← hmerged]
      exact ih hrest

/-! ## What a call knows -/

/-- The schedule that a call has read. -/
def current : Call → Option Schedule
  | .read _ current => some current
  | .deactivated _ old => some old.current
  | .inserting _ old _ => some old.current
  | .inserted _ old _ => some old.current
  | .recorded old _ _ => some old.current
  | _ => none

/-- The row that a call has deactivated. -/
def deactivation : Call → Option Deactivation
  | .deactivated _ old => some old
  | .inserting _ old _ => some old
  | .inserted _ old _ => some old
  | .recorded old _ _ => some old
  | _ => none

/-- The schedule that a call has an id for. -/
def pending : Call → Option Schedule
  | .inserting _ _ new => some new
  | .inserted _ _ new => some new
  | .recorded _ new _ => some new
  | _ => none

/-- The constraint has let the call's schedule in. -/
def hasInserted : Call → Bool
  | .inserted _ _ _ => true
  | .recorded _ _ _ => true
  | _ => false

/-- The new rates are the old ones with the input merged into them. -/
def Merged : Call → Prop
  | .inserting args old new => new.rates = args.input.merge old.current.rates
  | .inserted args old new => new.rates = args.input.merge old.current.rates
  | .recorded old new history =>
      history.oldRates = old.current.rates ∧ history.newRates = new.rates ∧
        history.feeScheduleId = new.id ∧ new.rates = history.input.merge old.current.rates
  | _ => True

structure Knows (world : World) (index : ℕ) (call : Call) : Prop where
  read : ∀ schedule, current call = some schedule →
    ∃ row ∈ world.schedules, row.id = schedule.id ∧ row.rates = schedule.rates
  locked : ∀ old, deactivation call = some old → world.rowHolder old.current.id = some index
  fresh : ∀ new, pending call = some new →
    new.id < world.nextId ∧ new.isActive = true ∧ ∀ row ∈ world.schedules, row.id ≠ new.id
  inserter : hasInserted call = true → world.inserter = some index
  replaced : hasInserted call = true → ∀ old, deactivation call = some old →
    ∀ row ∈ world.schedules, row.isActive = true → row.id = old.current.id
  merged : Merged call

/-- A call that has done nothing yet, or has ended. -/
theorem knows_of_none {world : World} {index : ℕ} {call : Call} (hcurrent : current call = none)
    (hold : deactivation call = none) (hnew : pending call = none)
    (hinserted : hasInserted call = false) (hmerged : Merged call) : Knows world index call where
  read schedule hread := by rw [hcurrent] at hread; cases hread
  locked old hlocked := by rw [hold] at hlocked; cases hlocked
  fresh new hfresh := by rw [hnew] at hfresh; cases hfresh
  inserter htrue := by rw [hinserted] at htrue; cases htrue
  replaced htrue := by rw [hinserted] at htrue; cases htrue
  merged := hmerged

/-- What a step leaves to the other calls. -/
structure Frame (world after : World) (index : ℕ) : Prop where
  rows : ∀ row ∈ world.schedules, ∃ kept ∈ after.schedules,
    kept.id = row.id ∧ kept.rates = row.rates
  added : ∀ row ∈ after.schedules, (∃ kept ∈ world.schedules, row.id = kept.id) ∨
    ∃ new, pending (world.call index) = some new ∧ row.id = new.id
  nextId : world.nextId ≤ after.nextId
  rowHolder : ∀ row other, other ≠ index → world.rowHolder row = some other →
    after.rowHolder row = some other
  inserter : ∀ other, other ≠ index → world.inserter = some other →
    after.inserter = some other ∧ after.schedules = world.schedules

section Steps

variable {world after : World} {index other : ℕ} {call : Call}

theorem Knows.frame (hknows : Knows world other call) (hframe : Frame world after index)
    (hother : other ≠ index) (hdistinct : ∀ left right, pending call = some left →
      pending (world.call index) = some right → left.id ≠ right.id) :
    Knows after other call where
  read schedule hread := by
    obtain ⟨row, hmem, hid, hrates⟩ := hknows.read schedule hread
    obtain ⟨kept, hkept, hsame, hsameRates⟩ := hframe.rows row hmem
    exact ⟨kept, hkept, hsame.trans hid, hsameRates.trans hrates⟩
  locked old hold := hframe.rowHolder _ _ hother (hknows.locked old hold)
  fresh new hnew := by
    obtain ⟨hless, hactive, hunused⟩ := hknows.fresh new hnew
    refine ⟨hless.trans_le hframe.nextId, hactive, fun row hmem hsame => ?_⟩
    rcases hframe.added row hmem with ⟨kept, hkept, hid⟩ | ⟨right, hright, hid⟩
    · exact hunused kept hkept (hid.symm.trans hsame)
    · exact hdistinct new right hnew hright (hsame.symm.trans hid)
  inserter hinserted := (hframe.inserter other hother (hknows.inserter hinserted)).1
  replaced hinserted old hold row hmem hactive := by
    rw [(hframe.inserter other hother (hknows.inserter hinserted)).2] at hmem
    exact hknows.replaced hinserted old hold row hmem hactive
  merged := hknows.merged

/-- A step that leaves the rows takes nothing from the other calls. -/
theorem frame_of_schedules (hrows : after.schedules = world.schedules)
    (hnext : world.nextId ≤ after.nextId)
    (hholder : ∀ row other, other ≠ index → world.rowHolder row = some other →
      after.rowHolder row = some other)
    (hinserter : ∀ other, other ≠ index → world.inserter = some other →
      after.inserter = some other) : Frame world after index where
  rows row hmem := ⟨row, hrows ▸ hmem, rfl, rfl⟩
  added row hmem := .inl ⟨row, hrows ▸ hmem, rfl⟩
  nextId := hnext
  rowHolder := hholder
  inserter other hother hheld := ⟨hinserter other hother hheld, hrows⟩

theorem frame_move : Frame world (world.move index call) index :=
  frame_of_schedules rfl le_rfl (fun _ _ _ hheld => hheld) fun _ _ hheld => hheld

theorem mem_deactivate {schedules : List Schedule} {old : Deactivation} {row : Schedule}
    (hmem : row ∈ FeeSchedule.deactivate schedules old) :
    ∃ before ∈ schedules, row.id = before.id ∧ row.rates = before.rates ∧
      (row.isActive = true → before.isActive = true ∧ before.id ≠ old.current.id) := by
  obtain ⟨before, hbefore, rfl⟩ := List.mem_map.mp hmem
  refine ⟨before, hbefore, ?_⟩
  split
  · exact ⟨rfl, rfl, fun hactive => by cases hactive⟩
  · rename_i hother
    exact ⟨rfl, rfl, fun hactive => ⟨hactive, hother⟩⟩

theorem exists_mem_deactivate {schedules : List Schedule} (old : Deactivation) {row : Schedule}
    (hmem : row ∈ schedules) :
    ∃ kept ∈ FeeSchedule.deactivate schedules old, kept.id = row.id ∧ kept.rates = row.rates := by
  refine ⟨_, List.mem_map_of_mem hmem, ?_⟩
  split <;> exact ⟨rfl, rfl⟩

theorem map_id_deactivate (schedules : List Schedule) (old : Deactivation) :
    (FeeSchedule.deactivate schedules old).map Schedule.id = schedules.map Schedule.id := by
  rw [FeeSchedule.deactivate, List.map_map]
  refine List.map_congr_left fun row _ => ?_
  rw [Function.comp_apply]
  split <;> rfl

end Steps

/-! ## The invariant -/

/-- One schedule is active, and the history since the beginning leads to its rates. -/
structure Consistent (initial : FeeRates) (earlier : List FeeScheduleHistory) (world : World) :
    Prop where
  chained : ∃ active rows, world.schedules.filter Schedule.isActive = [active] ∧
    world.history = earlier ++ rows ∧ Chained initial rows active.rates ∧
    ∀ index saved, world.call index = .committed saved →
      ∃ row ∈ rows, row.feeScheduleId = saved.id ∧ row.newRates = saved.rates
  ids : (world.schedules.map Schedule.id).Nodup
  below : ∀ row ∈ world.schedules, row.id < world.nextId
  distinct : ∀ left right new other, pending (world.call left) = some new →
    pending (world.call right) = some other → new.id = other.id → left = right
  knows : ∀ index, Knows world index (world.call index)

section Preservation

variable {initial : FeeRates} {earlier : List FeeScheduleHistory} {world after : World}
  {index : ℕ} {call : Call}

/-- Everyone but the moved call knows what it knew. -/
theorem Consistent.knows_others (hconsistent : Consistent initial earlier world)
    (hframe : Frame world after index) {other : ℕ} (hother : other ≠ index) :
    Knows after other (world.call other) :=
  (hconsistent.knows other).frame hframe hother fun left right hleft hright hsame =>
    hother (hconsistent.distinct other index left right hleft hright hsame)

/-- No two calls have one id, if the moved call has none of another's. -/
theorem Consistent.distinct_setProcess (hconsistent : Consistent initial earlier world)
    (hfresh : ∀ new other right, pending call = some new → right ≠ index →
      pending (world.call right) = some other → new.id ≠ other.id) :
    ∀ left right new other, pending (setProcess world.call index call left) = some new →
      pending (setProcess world.call index call right) = some other → new.id = other.id →
      left = right := by
  intro left right new other hleft hright hsame
  by_cases hmovedLeft : left = index <;> by_cases hmovedRight : right = index
  · exact hmovedLeft.trans hmovedRight.symm
  · subst hmovedLeft
    rw [setProcess, Function.update_self] at hleft
    rw [setProcess, Function.update_of_ne hmovedRight] at hright
    exact absurd hsame (hfresh new other right hleft hmovedRight hright)
  · subst hmovedRight
    rw [setProcess, Function.update_of_ne hmovedLeft] at hleft
    rw [setProcess, Function.update_self] at hright
    exact absurd hsame.symm (hfresh other new left hright hmovedLeft hleft)
  · rw [setProcess, Function.update_of_ne hmovedLeft] at hleft
    rw [setProcess, Function.update_of_ne hmovedRight] at hright
    exact hconsistent.distinct left right new other hleft hright hsame

/-- A step that leaves the tables keeps the invariant, if the moved call knows enough. -/
theorem Consistent.of_tables (hconsistent : Consistent initial earlier world)
    (hschedules : after.schedules = world.schedules) (hhistory : after.history = world.history)
    (hcall : after.call = setProcess world.call index call)
    (hframe : Frame world after index) (hknows : Knows after index call)
    (hfresh : ∀ new other right, pending call = some new → right ≠ index →
      pending (world.call right) = some other → new.id ≠ other.id)
    (hopen : ∀ saved, call ≠ .committed saved) : Consistent initial earlier after where
  chained := by
    obtain ⟨active, rows, hactive, hrows, hchained, hcommitted⟩ := hconsistent.chained
    refine ⟨active, rows, hschedules ▸ hactive, hhistory ▸ hrows, hchained, ?_⟩
    rw [hcall]
    exact forall_setProcess (P := fun _ call => ∀ saved, call = Call.committed saved →
        ∃ row ∈ rows, row.feeScheduleId = saved.id ∧ row.newRates = saved.rates)
      (fun saved hsaved => absurd hsaved (hopen saved)) fun other _ => hcommitted other
  ids := hschedules ▸ hconsistent.ids
  below row hmem := (hconsistent.below row (hschedules ▸ hmem)).trans_le hframe.nextId
  distinct := hcall ▸ hconsistent.distinct_setProcess hfresh
  knows := by
    rw [hcall]
    exact forall_setProcess hknows fun other hother => hconsistent.knows_others hframe hother

/-- The id that a call keeps is nobody else's. -/
theorem Consistent.fresh_of_pending (hconsistent : Consistent initial earlier world)
    (hpending : pending call = pending (world.call index)) :
    ∀ new other right, pending call = some new → right ≠ index →
      pending (world.call right) = some other → new.id ≠ other.id := by
  intro new other right hnew hright hother hsame
  rw [hpending] at hnew
  exact hright (hconsistent.distinct right index other new hother hnew hsame.symm)

theorem fresh_of_none (hpending : pending call = none) :
    ∀ new other right, pending call = some new → right ≠ index →
      pending (world.call right) = some other → new.id ≠ other.id := by
  intro new other right hnew
  rw [hpending] at hnew
  cases hnew

theorem frame_release (call : Call) :
    Frame world ((world.release index).move index call) index := by
  refine frame_of_schedules rfl le_rfl (fun row other hother hheld => ?_)
    fun other hother hheld => ?_
  · have hkept : world.rowHolder row ≠ some index := by
      rw [hheld]
      exact fun hsame => hother (Option.some.inj hsame)
    exact (if_neg hkept).trans hheld
  · have hkept : world.inserter ≠ some index := by
      rw [hheld]
      exact fun hsame => hother (Option.some.inj hsame)
    exact (if_neg hkept).trans hheld

theorem Consistent.findActive {args : Arguments} {schedule : Schedule}
    (hconsistent : Consistent initial earlier world)
    (hfinds : FindsActive world.schedules schedule) :
    Consistent initial earlier (world.move index (.read args schedule)) := by
  refine hconsistent.of_tables rfl rfl rfl frame_move ?_ (fresh_of_none rfl) fun _ hsame => ?_
  · exact
      { read := fun found hread => by
          obtain rfl := Option.some.inj hread
          exact ⟨schedule, hfinds.1, rfl, rfl⟩
        locked := fun _ hold => by cases hold
        fresh := fun _ hnew => by cases hnew
        inserter := fun hinserted => by cases hinserted
        replaced := fun hinserted => by cases hinserted
        merged := trivial }
  · cases hsame

theorem Consistent.deactivate {args : Arguments} {schedule : Schedule} {now : ℤ}
    (hconsistent : Consistent initial earlier world)
    (hcall : world.call index = .read args schedule)
    (havailable : Available (world.rowHolder schedule.id) index) :
    Consistent initial earlier ({ world with
      rowHolder := Function.update world.rowHolder schedule.id (some index) }.move index
        (.deactivated args { current := schedule, effectiveUntil := now })) := by
  have hknows := hconsistent.knows index
  rw [hcall] at hknows
  have hframe : Frame world ({ world with
      rowHolder := Function.update world.rowHolder schedule.id (some index) }.move index
        (.deactivated args { current := schedule, effectiveUntil := now })) index := by
    refine frame_of_schedules rfl le_rfl (fun row other hother hheld => ?_) fun _ _ hheld => hheld
    have hrow : row ≠ schedule.id := by
      rintro rfl
      exact not_available_of_held hheld hother havailable
    exact (Function.update_of_ne hrow _ _).trans hheld
  refine hconsistent.of_tables rfl rfl rfl hframe ?_ (fresh_of_none rfl) fun _ hsame => ?_
  · exact
      { read := hknows.read
        locked := fun old hold => by
          obtain rfl := Option.some.inj hold
          exact Function.update_self _ _ _
        fresh := fun _ hnew => by cases hnew
        inserter := fun hinserted => by cases hinserted
        replaced := fun hinserted => by cases hinserted
        merged := trivial }
  · cases hsame

theorem Consistent.insert {args : Arguments} {old : Deactivation} {now : ℤ}
    (hconsistent : Consistent initial earlier world)
    (hcall : world.call index = .deactivated args old) :
    Consistent initial earlier ({ world with nextId := world.nextId + 1 }.move index
      (.inserting args old (createSchedule args.input old.current world.nextId now))) := by
  have hknows := hconsistent.knows index
  rw [hcall] at hknows
  have hframe : Frame world ({ world with nextId := world.nextId + 1 }.move index
      (.inserting args old (createSchedule args.input old.current world.nextId now))) index :=
    frame_of_schedules rfl (Nat.le_succ _) (fun _ _ _ hheld => hheld) fun _ _ hheld => hheld
  refine hconsistent.of_tables rfl rfl rfl hframe ?_ (fun new other right hnew _ hother => ?_)
    fun _ hsame => ?_
  · exact
      { read := hknows.read
        locked := hknows.locked
        fresh := fun new hnew => by
          obtain rfl := Option.some.inj hnew
          exact ⟨Nat.lt_succ_self _, rfl, fun row hmem => (hconsistent.below row hmem).ne⟩
        inserter := fun hinserted => by cases hinserted
        replaced := fun hinserted => by cases hinserted
        merged := rfl }
  · obtain rfl := Option.some.inj hnew
    exact ((hconsistent.knows right).fresh other hother).1.ne'
  · cases hsame

theorem Consistent.inserted {args : Arguments} {old : Deactivation} {new : Schedule}
    (hconsistent : Consistent initial earlier world)
    (hcall : world.call index = .inserting args old new) (hunblocked : Unblocked world old) :
    Consistent initial earlier
      ({ world with inserter := some index }.move index (.inserted args old new)) := by
  have hknows := hconsistent.knows index
  rw [hcall] at hknows
  have hframe : Frame world
      ({ world with inserter := some index }.move index (.inserted args old new)) index := by
    refine frame_of_schedules rfl le_rfl (fun _ _ _ hheld => hheld) fun other _ hheld => ?_
    rw [hunblocked.1] at hheld
    cases hheld
  refine hconsistent.of_tables rfl rfl rfl hframe ?_
    (hconsistent.fresh_of_pending (by rw [hcall]; rfl)) fun _ hsame => ?_
  · exact
      { read := hknows.read
        locked := hknows.locked
        fresh := hknows.fresh
        inserter := fun _ => rfl
        replaced := fun _ found hold => by
          obtain rfl := Option.some.inj hold
          exact hunblocked.2
        merged := hknows.merged }
  · cases hsame

theorem Consistent.record {args : Arguments} {old : Deactivation} {new : Schedule}
    (hconsistent : Consistent initial earlier world)
    (hcall : world.call index = .inserted args old new) :
    Consistent initial earlier
      (world.move index (.recorded old new (createHistory args old.current new))) := by
  have hknows := hconsistent.knows index
  rw [hcall] at hknows
  refine hconsistent.of_tables rfl rfl rfl frame_move ?_
    (hconsistent.fresh_of_pending (by rw [hcall]; rfl)) fun _ hsame => ?_
  · exact
      { read := hknows.read
        locked := hknows.locked
        fresh := hknows.fresh
        inserter := fun _ => hknows.inserter rfl
        replaced := fun _ => hknows.replaced rfl
        merged := ⟨rfl, rfl, rfl, hknows.merged⟩ }
  · cases hsame

/-- The only active schedule is the one that the committing call has read. -/
theorem Consistent.replaces {old : Deactivation} {new active : Schedule}
    {history : FeeScheduleHistory} (hconsistent : Consistent initial earlier world)
    (hcall : world.call index = .recorded old new history)
    (hactive : world.schedules.filter Schedule.isActive = [active]) :
    active.rates = old.current.rates ∧
      (FeeSchedule.deactivate world.schedules old).filter Schedule.isActive = [] := by
  have hknows := hconsistent.knows index
  rw [hcall] at hknows
  have hmem : active ∈ world.schedules ∧ active.isActive = true := by
    rw [← List.mem_filter, hactive]
    exact List.mem_singleton_self active
  have hid : active.id = old.current.id := hknows.replaced rfl old rfl active hmem.1 hmem.2
  obtain ⟨row, hrow, hrowId, hrates⟩ := hknows.read old.current rfl
  have hsame : row = active :=
    List.inj_on_of_nodup_map hconsistent.ids hrow hmem.1 (hrowId.trans hid.symm)
  refine ⟨hsame ▸ hrates, List.filter_eq_nil_iff.mpr fun kept hkept hstill => ?_⟩
  obtain ⟨before, hbefore, -, -, hwas⟩ := mem_deactivate hkept
  exact (hwas hstill).2 (hknows.replaced rfl old rfl before hbefore (hwas hstill).1)

theorem frame_commit {old : Deactivation} {new : Schedule} {history : FeeScheduleHistory}
    (hcall : world.call index = .recorded old new history) (hholds : world.inserter = some index) :
    Frame world (({ world with
      schedules := FeeSchedule.deactivate world.schedules old ++ [new]
      history := world.history ++ [history] }.release index).move index (.committed new))
      index where
  rows row hmem := by
    obtain ⟨kept, hkept, hsame⟩ := exists_mem_deactivate old hmem
    exact ⟨kept, List.mem_append_left _ hkept, hsame⟩
  added row hmem := by
    rcases List.mem_append.mp hmem with hkept | hlast
    · obtain ⟨before, hbefore, hid, -⟩ := mem_deactivate hkept
      exact .inl ⟨before, hbefore, hid⟩
    · obtain rfl := List.mem_singleton.mp hlast
      exact .inr ⟨row, by rw [hcall]; rfl, rfl⟩
  nextId := le_rfl
  rowHolder := (frame_release .failed).rowHolder
  inserter other hother hheld := absurd (Option.some.inj (hheld.symm.trans hholds)) hother

theorem Consistent.commit {old : Deactivation} {new : Schedule} {history : FeeScheduleHistory}
    (hconsistent : Consistent initial earlier world)
    (hcall : world.call index = .recorded old new history) :
    Consistent initial earlier (({ world with
      schedules := FeeSchedule.deactivate world.schedules old ++ [new]
      history := world.history ++ [history] }.release index).move index (.committed new)) := by
  have hknows := hconsistent.knows index
  rw [hcall] at hknows
  obtain ⟨hless, hactiveNew, hunused⟩ := hknows.fresh new rfl
  obtain ⟨hold, hnew, hid, hmerged⟩ := hknows.merged
  have hframe := frame_commit hcall (hknows.inserter rfl)
  have hids : ((FeeSchedule.deactivate world.schedules old ++ [new]).map Schedule.id).Nodup := by
    rw [List.map_append, map_id_deactivate]
    refine List.nodup_append.mpr ⟨hconsistent.ids, List.nodup_singleton _, ?_⟩
    rintro id hmem _ hsingle rfl
    obtain ⟨row, hrow, hrowId⟩ := List.mem_map.mp hmem
    exact hunused row hrow (hrowId.trans (List.mem_singleton.mp hsingle))
  refine ⟨?_, hids, fun row hmem => ?_, ?_, ?_⟩
  · obtain ⟨active, rows, hactive, hrows, hchained, hcommitted⟩ := hconsistent.chained
    obtain ⟨hrates, hothers⟩ := hconsistent.replaces hcall hactive
    have hlonger := hchained.append (hold.trans hrates.symm)
      (hnew.trans (hmerged.trans (congrArg _ hold.symm)))
    refine ⟨new, rows ++ [history], ?_, ?_, hnew ▸ hlonger, ?_⟩
    · change (FeeSchedule.deactivate world.schedules old ++ [new]).filter Schedule.isActive = [new]
      rw [List.filter_append, hothers, List.filter_cons_of_pos hactiveNew]
      rfl
    · change world.history ++ [history] = earlier ++ (rows ++ [history])
      rw [hrows, List.append_assoc]
    · refine forall_setProcess (P := fun _ call => ∀ saved, call = Call.committed saved →
        ∃ row ∈ rows ++ [history], row.feeScheduleId = saved.id ∧ row.newRates = saved.rates)
        (fun saved hsaved => ?_) fun other _ saved hsaved => ?_
      · obtain rfl := Call.committed.inj hsaved
        exact ⟨history, List.mem_append_right _ (List.mem_singleton_self _), hid, hnew⟩
      · obtain ⟨row, hmem, hrow⟩ := hcommitted other saved hsaved
        exact ⟨row, List.mem_append_left _ hmem, hrow⟩
  · rcases List.mem_append.mp hmem with hkept | hlast
    · obtain ⟨before, hbefore, hsame, -⟩ := mem_deactivate hkept
      exact hsame ▸ hconsistent.below before hbefore
    · obtain rfl := List.mem_singleton.mp hlast
      exact hless
  · exact hconsistent.distinct_setProcess (fresh_of_none rfl)
  · exact forall_setProcess (knows_of_none rfl rfl rfl rfl trivial)
      fun other hother => hconsistent.knows_others hframe hother

theorem Consistent.step {event : Event} (hconsistent : Consistent initial earlier world)
    (hstep : step world event = some after) : Consistent initial earlier after := by
  rcases steps_of_step hstep with hcall | hcall | ⟨hcall, hfinds⟩ | ⟨hcall, havailable⟩ | hcall |
    ⟨hcall, hunblocked⟩ | hcall | hcall | _
  · exact hconsistent.of_tables rfl rfl rfl frame_move
      (knows_of_none rfl rfl rfl rfl trivial) (fresh_of_none rfl) fun _ hsame => by cases hsame
  · exact hconsistent.of_tables rfl rfl rfl frame_move
      (knows_of_none rfl rfl rfl rfl trivial) (fresh_of_none rfl) fun _ hsame => by cases hsame
  · exact hconsistent.findActive hfinds
  · exact hconsistent.deactivate hcall havailable
  · exact hconsistent.insert hcall
  · exact hconsistent.inserted hcall hunblocked
  · exact hconsistent.record hcall
  · exact hconsistent.commit hcall
  · exact hconsistent.of_tables rfl rfl rfl (frame_release _)
      (knows_of_none rfl rfl rfl rfl trivial) (fresh_of_none rfl) fun _ hsame => by cases hsame

end Preservation

/-! ## Ids -/

/-- The active schedule has the last id of all, a new one has a later id than the one that
it replaces, and what was committed stays. -/
structure Ordered (world : World) : Prop where
  kept : ∀ index saved, world.call index = .committed saved →
    ∃ row ∈ world.schedules, row.id = saved.id
  latest : ∀ active ∈ world.schedules, active.isActive = true →
    ∀ row ∈ world.schedules, row.id ≤ active.id
  later : ∀ index new replaced, pending (world.call index) = some new →
    current (world.call index) = some replaced → replaced.id < new.id

section Ids

variable {initial : FeeRates} {earlier : List FeeScheduleHistory} {world after : World}
  {index : ℕ} {call : Call}

/-- A step that leaves the rows keeps the order, if the moved call's id is later. -/
theorem Ordered.of_schedules (hordered : Ordered world)
    (hschedules : after.schedules = world.schedules)
    (hcall : after.call = setProcess world.call index call)
    (hopen : ∀ saved, call ≠ .committed saved)
    (hlater : ∀ new replaced, pending call = some new → current call = some replaced →
      replaced.id < new.id) : Ordered after where
  kept := by
    rw [hcall, hschedules]
    exact forall_setProcess (P := fun _ call => ∀ saved, call = Call.committed saved →
        ∃ row ∈ world.schedules, row.id = saved.id)
      (fun saved hsaved => absurd hsaved (hopen saved)) fun other _ => hordered.kept other
  latest := by
    rw [hschedules]
    exact hordered.latest
  later := by
    rw [hcall]
    exact forall_setProcess (P := fun _ call => ∀ new replaced, pending call = some new →
      current call = some replaced → replaced.id < new.id) hlater
      fun other _ => hordered.later other

theorem later_of_none (hpending : pending call = none) :
    ∀ new replaced, pending call = some new → current call = some replaced →
      replaced.id < new.id := by
  intro new replaced hnew
  rw [hpending] at hnew
  cases hnew

theorem Ordered.insert {args : Arguments} {old : Deactivation} {now : ℤ} (hordered : Ordered world)
    (hconsistent : Consistent initial earlier world)
    (hcall : world.call index = .deactivated args old) :
    Ordered ({ world with nextId := world.nextId + 1 }.move index
      (.inserting args old (createSchedule args.input old.current world.nextId now))) := by
  refine hordered.of_schedules rfl rfl (fun _ hsame => by cases hsame)
    fun new replaced hnew hreplaced => ?_
  obtain rfl := Option.some.inj hnew
  obtain rfl := Option.some.inj hreplaced
  have hknows := hconsistent.knows index
  rw [hcall] at hknows
  obtain ⟨row, hmem, hid, -⟩ := hknows.read old.current rfl
  exact hid ▸ hconsistent.below row hmem

theorem Ordered.commit {old : Deactivation} {new : Schedule} {history : FeeScheduleHistory}
    (hordered : Ordered world) (hconsistent : Consistent initial earlier world)
    (hcall : world.call index = .recorded old new history) :
    Ordered (({ world with
      schedules := FeeSchedule.deactivate world.schedules old ++ [new]
      history := world.history ++ [history] }.release index).move index (.committed new)) := by
  obtain ⟨active, rows, hactive, -⟩ := hconsistent.chained
  obtain ⟨-, hothers⟩ := hconsistent.replaces hcall hactive
  have hknows := hconsistent.knows index
  rw [hcall] at hknows
  have hmem : active ∈ world.schedules ∧ active.isActive = true := by
    rw [← List.mem_filter, hactive]
    exact List.mem_singleton_self active
  have hid : active.id = old.current.id := hknows.replaced rfl old rfl active hmem.1 hmem.2
  have hless : old.current.id < new.id :=
    hordered.later index new old.current (by rw [hcall]; rfl) (by rw [hcall]; rfl)
  refine ⟨?_, fun row hrow hrowActive => ?_, ?_⟩
  · refine forall_setProcess (P := fun _ call => ∀ saved, call = Call.committed saved →
      ∃ row ∈ FeeSchedule.deactivate world.schedules old ++ [new], row.id = saved.id)
      (fun saved hsaved => ?_) fun other _ saved hsaved => ?_
    · obtain rfl := Call.committed.inj hsaved
      exact ⟨new, List.mem_append_right _ (List.mem_singleton_self _), rfl⟩
    · obtain ⟨row, hrow, hsame⟩ := hordered.kept other saved hsaved
      obtain ⟨still, hstill, hstillId, -⟩ := exists_mem_deactivate old hrow
      exact ⟨still, List.mem_append_left _ hstill, hstillId.trans hsame⟩
  · have hnew : row = new := by
      rcases List.mem_append.mp hrow with hkept | hlast
      · have hnone : row ∈ (FeeSchedule.deactivate world.schedules old).filter
            Schedule.isActive := List.mem_filter.mpr ⟨hkept, hrowActive⟩
        rw [hothers] at hnone
        cases hnone
      · exact List.mem_singleton.mp hlast
    intro other hother
    rcases List.mem_append.mp hother with hkept | hlast
    · obtain ⟨before, hbefore, hsame, -⟩ := mem_deactivate hkept
      have hbelow := hordered.latest active hmem.1 hmem.2 before hbefore
      rw [hnew, hsame]
      omega
    · rw [hnew, List.mem_singleton.mp hlast]
  · exact forall_setProcess (P := fun _ call => ∀ new replaced, pending call = some new →
      current call = some replaced → replaced.id < new.id) (later_of_none rfl)
      fun other _ => hordered.later other

theorem Ordered.step {event : Event} (hordered : Ordered world)
    (hconsistent : Consistent initial earlier world)
    (hstep : FeeSchedule.step world event = some after) : Ordered after := by
  rcases steps_of_step hstep with hcall | hcall | ⟨hcall, hfinds⟩ | ⟨hcall, havailable⟩ | hcall |
    ⟨hcall, hunblocked⟩ | hcall | hcall | _
  · exact hordered.of_schedules rfl rfl (fun _ hsame => by cases hsame) (later_of_none rfl)
  · exact hordered.of_schedules rfl rfl (fun _ hsame => by cases hsame) (later_of_none rfl)
  · exact hordered.of_schedules rfl rfl (fun _ hsame => by cases hsame) (later_of_none rfl)
  · exact hordered.of_schedules rfl rfl (fun _ hsame => by cases hsame) (later_of_none rfl)
  · exact hordered.insert hconsistent hcall
  · refine hordered.of_schedules rfl rfl (fun _ hsame => by cases hsame) ?_
    have hlater := hordered.later event.call
    rwa [hcall] at hlater
  · refine hordered.of_schedules rfl rfl (fun _ hsame => by cases hsame) ?_
    have hlater := hordered.later event.call
    rwa [hcall] at hlater
  · exact hordered.commit hconsistent hcall
  · exact hordered.of_schedules rfl rfl (fun _ hsame => by cases hsame) (later_of_none rfl)

/-- A committed call stays what it is. -/
theorem committed_of_step {event : Event} (hstep : FeeSchedule.step world event = some after)
    {other : ℕ} {saved : Schedule} (hsaved : world.call other = .committed saved) :
    after.call other = .committed saved := by
  have hmoved : other ≠ event.call ∨ ∀ saved, world.call event.call ≠ .committed saved := by
    rcases steps_of_step hstep with hcall | hcall | ⟨hcall, -⟩ | ⟨hcall, -⟩ | hcall | ⟨hcall, -⟩ |
      hcall | hcall | hopen
    case fail => exact .inr hopen
    all_goals
      refine .inr fun other hother => ?_
      rw [hcall] at hother
      cases hother
  have hother : other ≠ event.call := by
    rcases hmoved with hother | hopen
    · exact hother
    · rintro rfl
      exact hopen saved hsaved
  rcases steps_of_step hstep with hcall | hcall | ⟨hcall, hfinds⟩ | ⟨hcall, havailable⟩ | hcall |
    ⟨hcall, hunblocked⟩ | hcall | hcall | hopen
  all_goals exact (Function.update_of_ne hother _ _).trans hsaved

/-- No id of the table goes away. -/
theorem exists_row_of_step {event : Event} (hstep : FeeSchedule.step world event = some after)
    {row : Schedule} (hmem : row ∈ world.schedules) :
    ∃ kept ∈ after.schedules, kept.id = row.id := by
  rcases steps_of_step hstep with _ | _ | _ | _ | _ | _ | _ | hcall | _
  case commit =>
    obtain ⟨kept, hkept, hsame, -⟩ := exists_mem_deactivate _ hmem
    exact ⟨kept, List.mem_append_left _ hkept, hsame⟩
  all_goals exact ⟨row, hmem, rfl⟩

end Ids

/-! ## Runs -/

/-- One schedule is active, and no call has begun. -/
structure Initial (world : World) (active : Schedule) : Prop where
  active : world.schedules.filter Schedule.isActive = [active]
  ids : (world.schedules.map Schedule.id).Nodup
  below : ∀ row ∈ world.schedules, row.id < world.nextId
  calls : ∀ index, world.call index = .idle

theorem Initial.consistent {world : World} {active : Schedule} (hinitial : Initial world active) :
    Consistent active.rates world.history world where
  chained := by
    refine ⟨active, [], hinitial.active, (List.append_nil _).symm, rfl,
      fun index saved hsaved => ?_⟩
    rw [hinitial.calls] at hsaved
    cases hsaved
  ids := hinitial.ids
  below := hinitial.below
  distinct left right new other hleft := by
    rw [hinitial.calls] at hleft
    cases hleft
  knows index := by
    rw [hinitial.calls]
    exact knows_of_none rfl rfl rfl rfl trivial

theorem Consistent.run {initial : FeeRates} {earlier : List FeeScheduleHistory}
    {first last : World} {events : List Event} (hrun : Run FeeSchedule.step first events last)
    (hconsistent : Consistent initial earlier first) : Consistent initial earlier last :=
  hrun.invariant (fun _ hstep hbefore => hbefore.step hstep) hconsistent

/-- After every run one schedule is active, and the history rows since the beginning lead
from the first rates to its rates, each merging the input of its update. -/
theorem updates_chained {first last : World} {active : Schedule} {events : List Event}
    (hinitial : Initial first active) (hrun : Run step first events last) :
    ∃ now rows, last.schedules.filter Schedule.isActive = [now] ∧
      last.history = first.history ++ rows ∧ Chained active.rates rows now.rates ∧
      now.rates = mergeAll active.rates rows ∧
      ∀ index saved, last.call index = .committed saved →
        ∃ row ∈ rows, row.feeScheduleId = saved.id ∧ row.newRates = saved.rates := by
  obtain ⟨now, rows, hactive, hhistory, hchained, hcommitted⟩ :=
    (Consistent.run hrun hinitial.consistent).chained
  exact ⟨now, rows, hactive, hhistory, hchained, hchained.eq_mergeAll, hcommitted⟩

/-- The default schedule of the migration. -/
def defaultSchedule : Schedule where
  id := 1
  rates :=
    { investmentFeeBps := 100
      settlementFeeBps := 50
      platformFeeBps := 100
      secondaryMarketFeeBps := 150 }
  isActive := true
  effectiveFrom := 0
  effectiveUntil := none

def migrated : World := { schedules := [defaultSchedule], nextId := 2 }

theorem initial_migrated : Initial migrated defaultSchedule where
  active := rfl
  ids := List.nodup_singleton _
  below row hmem := by
    obtain rfl := List.mem_singleton.mp hmem
    decide
  calls _ := rfl

/-- A call from its start to its commit. -/
def wholeCall (index : ℕ) (current : Schedule) (now : ℤ) (input : UpdateFeeScheduleInput) :
    List Event :=
  [.start { input := input, actorWallet := "GADMIN" }, .findActive current, .deactivate now,
    .insert now, .inserted, .record, .commit].map fun action => ⟨index, action⟩

/-- Call 0 reads the schedule and deactivates it after call 1 has replaced it; its insert is
blocked, and it fails.  Call 2 updates what call 1 left. -/
def overtaken : List Event :=
  [⟨0, .start { input := { settlementFeeBps := some 60 }, actorWallet := "GADMIN" }⟩,
    ⟨0, .findActive defaultSchedule⟩] ++
    wholeCall 1 defaultSchedule 10 { investmentFeeBps := some 200 } ++
    [⟨0, .deactivate 20⟩, ⟨0, .insert 20⟩, ⟨0, .fail⟩] ++
    wholeCall 2 (createSchedule { investmentFeeBps := some 200 } defaultSchedule 2 10) 30
      { platformFeeBps := some 0 }

theorem overtaken_chained : ∃ last, Run step migrated overtaken last ∧
    last.history.map FeeScheduleHistory.feeScheduleId = [2, 4] ∧
    ∃ now rows, last.schedules.filter Schedule.isActive = [now] ∧
      last.history = migrated.history ++ rows ∧ Chained defaultSchedule.rates rows now.rates ∧
      now.rates = mergeAll defaultSchedule.rates rows ∧
      ∀ index saved, last.call index = .committed saved →
        ∃ row ∈ rows, row.feeScheduleId = saved.id ∧ row.newRates = saved.rates := by
  have hexec : (exec step migrated overtaken).map
      (fun last => last.history.map FeeScheduleHistory.feeScheduleId) = some [2, 4] := by
    decide +kernel
  obtain ⟨last, hrun, hlast⟩ := exists_run hexec
  exact ⟨last, hrun, hlast, updates_chained initial_migrated hrun⟩

end StellarSettle.FeeHistory
