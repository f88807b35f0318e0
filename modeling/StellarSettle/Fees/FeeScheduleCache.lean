import StellarSettle.Fees.FeeHistory

/-!
# The cached fee schedule

Processes share one Redis, which holds the current schedule and a version that guards its
refills.  An update announces its version and deletes the payload after its commit; a
reader that misses refills the cache with what it read from the database.  Announcing sets
the guard whatever it was, so invalidations that arrive out of order open it to a delayed
refill.  The calls are those of a service with a client.
-/

namespace StellarSettle.FeeScheduleCache

open StellarSettle.FeeHistory
open StellarSettle.FeeSchedule
open StellarSettle.TransitionSystem

/-! ## The cache -/

/-- `fee_schedule:current`, a schedule with its version, and `fee_schedule:version`. -/
structure Cache where
  payload : Option Schedule := none
  guard : Option ℕ := none
  deriving DecidableEq, Repr

/-- The script of `guardedCacheRefill`, and whether it wrote. -/
def guardedCacheRefill (cache : Cache) (schedule : Schedule) : Cache × Bool :=
  let version := schedule.id
  match cache.guard with
  | some current =>
      if version < current then (cache, false)
      else
        ({ payload := some schedule
           guard := if current < version then some version else some current }, true)
  | none => ({ payload := some schedule, guard := some version }, true)

/-! ## Calls -/

/-- How far the pipeline of an update is. -/
inductive Invalidation where
  | pending
  | announced
  | completed
  deriving DecidableEq, Repr

/-- How far a call of `getCurrentFeeSchedule` is.  `floor` are the versions whose
invalidation had completed when it started; nothing reads them. -/
inductive Reader where
  | idle
  | started (floor : List ℕ)
  | missed (floor : List ℕ)
  | found (floor : List ℕ) (schedule : Schedule)
  | returned (floor : List ℕ) (schedule : Schedule)
  | failed (floor : List ℕ)
  deriving DecidableEq, Repr

/-- `announced` are the versions that were set as the guard, `completed` those whose
invalidation has completed; no step depends on them. -/
structure World where
  fees : FeeSchedule.World
  cache : Cache := {}
  invalidation : ℕ → Invalidation := fun _ => .pending
  reader : ℕ → Reader := fun _ => .idle
  announced : List ℕ := []
  completed : List ℕ := []

/-- Commands fail when the connection does; every caller goes on then.  `refillWith` is a
call of `guardedCacheRefill` by itself, with a schedule that was read at some time. -/
inductive Event where
  | database (event : FeeSchedule.Event)
  | setGuard (update : ℕ)
  | deletePayload (update : ℕ)
  | pipelineFails (update : ℕ)
  | startRead (reader : ℕ)
  | getCache (reader : ℕ)
  | cacheFails (reader : ℕ)
  | findActive (reader : ℕ) (schedule : Schedule)
  | findNone (reader : ℕ)
  | refill (reader : ℕ)
  | refillFails (reader : ℕ)
  | refillWith (schedule : Schedule)
  | expire
  deriving DecidableEq, Repr

/-- The version that an update has committed. -/
def committedVersion (fees : FeeSchedule.World) (update : ℕ) : Option ℕ :=
  match fees.call update with
  | .committed saved => some saved.id
  | _ => none

def World.moveReader (world : World) (index : ℕ) (reader : Reader) : World :=
  { world with reader := setProcess world.reader index reader }

def World.moveInvalidation (world : World) (update : ℕ) (invalidation : Invalidation) : World :=
  { world with invalidation := setProcess world.invalidation update invalidation }

/-- `SET fee_schedule:version`. -/
def setGuard (world : World) (update version : ℕ) : World :=
  { world with
    cache := { world.cache with guard := some version }
    announced := world.announced ++ [version] }.moveInvalidation update .announced

/-- `DEL fee_schedule:current`, with which the call completes. -/
def deletePayload (world : World) (update version : ℕ) : World :=
  { world with
    cache := { world.cache with payload := none }
    completed := world.completed ++ [version] }.moveInvalidation update .completed

def step (world : World) : Event → Option World
  | .database event =>
      (FeeSchedule.step world.fees event).map fun fees => { world with fees := fees }
  | .setGuard update =>
      match world.invalidation update, committedVersion world.fees update with
      | .pending, some version => some (setGuard world update version)
      | _, _ => none
  | .deletePayload update =>
      match world.invalidation update, committedVersion world.fees update with
      | .announced, some version => some (deletePayload world update version)
      | _, _ => none
  | .pipelineFails update =>
      match world.invalidation update, committedVersion world.fees update with
      | .completed, _ => none
      | _, none => none
      | _, some version =>
          some ({ world with completed := world.completed ++ [version] }.moveInvalidation update
            .completed)
  | .startRead index =>
      match world.reader index with
      | .idle => some (world.moveReader index (.started world.completed))
      | _ => none
  | .getCache index =>
      match world.reader index with
      | .started floor =>
          match world.cache.payload with
          | some schedule => some (world.moveReader index (.returned floor schedule))
          | none => some (world.moveReader index (.missed floor))
      | _ => none
  | .cacheFails index =>
      match world.reader index with
      | .started floor => some (world.moveReader index (.missed floor))
      | _ => none
  | .findActive index schedule =>
      match world.reader index with
      | .missed floor =>
          if FindsActive world.fees.schedules schedule then
            some (world.moveReader index (.found floor schedule))
          else none
      | _ => none
  | .findNone index =>
      match world.reader index with
      | .missed floor =>
          if world.fees.schedules.filter Schedule.isActive = [] then
            some (world.moveReader index (.failed floor))
          else none
      | _ => none
  | .refill index =>
      match world.reader index with
      | .found floor schedule =>
          some ({ world with cache := (guardedCacheRefill world.cache schedule).1 }.moveReader index
            (.returned floor schedule))
      | _ => none
  | .refillFails index =>
      match world.reader index with
      | .found floor schedule => some (world.moveReader index (.returned floor schedule))
      | _ => none
  | .refillWith schedule =>
      if schedule ∈ world.fees.schedules then
        some { world with cache := (guardedCacheRefill world.cache schedule).1 }
      else none
  | .expire => some { world with cache := { world.cache with payload := none } }

/-- Invalidations reach Redis in the order of their versions, and all of them do. -/
def InOrder (world : World) : Event → Prop
  | .setGuard update => ∀ version ∈ committedVersion world.fees update,
      ∀ earlier ∈ world.announced, earlier ≤ version
  | .pipelineFails _ => False
  | _ => True

instance (world : World) (event : Event) : Decidable (InOrder world event) := by
  cases event <;> unfold InOrder <;> infer_instance

/-- No reader returns a version from before an invalidation that had completed when it
started. -/
def ReadsCurrent (world : World) : Prop :=
  ∀ index floor schedule, world.reader index = .returned floor schedule →
    ∀ version ∈ floor, version ≤ schedule.id

/-! ## The guarded cache -/

section Cache

variable {cache : Cache} {schedule : Schedule} {version : ℕ}

/-- A refill never lowers the guard. -/
theorem guard_refill (hguard : ∃ guard, cache.guard = some guard ∧ version ≤ guard) :
    ∃ guard, (guardedCacheRefill cache schedule).1.guard = some guard ∧ version ≤ guard := by
  obtain ⟨guard, hguard, hle⟩ := hguard
  rw [guardedCacheRefill, hguard]
  by_cases hstale : schedule.id < guard
  · exact ⟨guard, by simp [hstale, hguard], hle⟩
  · by_cases hraised : guard < schedule.id
    · exact ⟨schedule.id, by simp [hstale, hraised], by omega⟩
    · exact ⟨guard, by simp [hstale, hraised], hle⟩

/-- What a refill leaves in the cache was there before, or is not below the guard. -/
theorem payload_refill {found : Schedule}
    (hguard : ∃ guard, cache.guard = some guard ∧ version ≤ guard)
    (hfound : (guardedCacheRefill cache schedule).1.payload = some found) :
    cache.payload = some found ∨ version ≤ found.id := by
  obtain ⟨guard, hguard, hle⟩ := hguard
  rw [guardedCacheRefill, hguard] at hfound
  by_cases hstale : schedule.id < guard
  · simp only [hstale, if_true] at hfound
    exact .inl hfound
  · simp only [hstale, if_false, Option.some.injEq] at hfound
    obtain rfl := hfound
    exact .inr (by omega)

end Cache

/-! ## The invariant -/

/-- A call knows which invalidations had completed when it started. -/
def KnowsFloor (completed : List ℕ) : Reader → Prop
  | .idle => True
  | .started floor => floor ⊆ completed
  | .missed floor => floor ⊆ completed
  | .failed floor => floor ⊆ completed
  | .found floor schedule => ∀ version ∈ floor, version ≤ schedule.id
  | .returned floor schedule => ∀ version ∈ floor, version ≤ schedule.id

/-- Every announced version is guarded, and the cache and the readers are not older than the
completed ones. -/
structure Current (world : World) : Prop where
  consistent : ∃ initial earlier, Consistent initial earlier world.fees
  ordered : Ordered world.fees
  announced : ∀ update, world.invalidation update = .announced →
    ∃ saved, world.fees.call update = .committed saved ∧ saved.id ∈ world.announced
  completed : ∀ version ∈ world.completed,
    version ∈ world.announced ∧ ∃ row ∈ world.fees.schedules, row.id = version
  guarded : ∀ version ∈ world.announced,
    ∃ guard, world.cache.guard = some guard ∧ version ≤ guard
  payload : ∀ schedule, world.cache.payload = some schedule →
    ∀ version ∈ world.completed, version ≤ schedule.id
  readers : ∀ index, KnowsFloor world.completed (world.reader index)

section Preservation

variable {world after : World} {index update version : ℕ} {reader : Reader} {schedule : Schedule}

theorem KnowsFloor.mono {completed more : List ℕ} (hknows : KnowsFloor completed reader)
    (hsubset : completed ⊆ more) : KnowsFloor more reader := by
  cases reader with
  | idle => trivial
  | started floor => exact List.Subset.trans hknows hsubset
  | missed floor => exact List.Subset.trans hknows hsubset
  | failed floor => exact List.Subset.trans hknows hsubset
  | found floor schedule => exact hknows
  | returned floor schedule => exact hknows

theorem committedVersion_eq_some (hversion : committedVersion world.fees update = some version) :
    ∃ saved, world.fees.call update = .committed saved ∧ saved.id = version := by
  rw [committedVersion] at hversion
  split at hversion
  · rename_i saved hsaved
    exact ⟨saved, hsaved, Option.some.inj hversion⟩
  · cases hversion

theorem Current.moveReader (hcurrent : Current world) (hknows : KnowsFloor world.completed reader) :
    Current (world.moveReader index reader) :=
  { hcurrent with
    readers := forall_setProcess hknows fun other _ => hcurrent.readers other }

theorem Current.refill (hcurrent : Current world) :
    Current { world with cache := (guardedCacheRefill world.cache schedule).1 } :=
  { hcurrent with
    guarded := fun version hversion => guard_refill (hcurrent.guarded version hversion)
    payload := fun found hfound version hversion => by
      have hguard := hcurrent.guarded version (hcurrent.completed version hversion).1
      rcases payload_refill hguard hfound with hbefore | hnew
      · exact hcurrent.payload found hbefore version hversion
      · exact hnew }

theorem Current.database {event : FeeSchedule.Event} {fees : FeeSchedule.World}
    (hcurrent : Current world) (hstep : FeeSchedule.step world.fees event = some fees) :
    Current { world with fees := fees } := by
  obtain ⟨initial, earlier, hconsistent⟩ := hcurrent.consistent
  exact
    { hcurrent with
      consistent := ⟨initial, earlier, hconsistent.step hstep⟩
      ordered := hcurrent.ordered.step hconsistent hstep
      announced := fun update hannounced => by
        obtain ⟨saved, hsaved, hmem⟩ := hcurrent.announced update hannounced
        exact ⟨saved, committed_of_step hstep hsaved, hmem⟩
      completed := fun version hversion => by
        obtain ⟨hannounced, row, hrow, hid⟩ := hcurrent.completed version hversion
        obtain ⟨kept, hkept, hsame⟩ := exists_row_of_step hstep hrow
        exact ⟨hannounced, kept, hkept, hsame.trans hid⟩ }

/-- Announcing a version that is not below the announced ones guards them all. -/
theorem Current.setGuard (hcurrent : Current world)
    (hversion : committedVersion world.fees update = some version)
    (horder : ∀ earlier ∈ world.announced, earlier ≤ version) :
    Current (FeeScheduleCache.setGuard world update version) := by
  obtain ⟨saved, hsaved, hid⟩ := committedVersion_eq_some hversion
  exact
    { hcurrent with
      announced := forall_setProcess (P := fun other invalidation =>
          invalidation = Invalidation.announced → ∃ saved,
            world.fees.call other = .committed saved ∧ saved.id ∈ world.announced ++ [version])
        (fun _ => ⟨saved, hsaved, hid ▸ List.mem_append_right _ (List.mem_singleton_self _)⟩)
        fun other _ hannounced => by
          obtain ⟨found, hfound, hmem⟩ := hcurrent.announced other hannounced
          exact ⟨found, hfound, List.mem_append_left _ hmem⟩
      completed := fun found hfound =>
        ⟨List.mem_append_left _ (hcurrent.completed found hfound).1,
          (hcurrent.completed found hfound).2⟩
      guarded := fun found hfound => by
        refine ⟨version, rfl, ?_⟩
        rcases List.mem_append.mp hfound with hearlier | hlast
        · exact horder found hearlier
        · exact (List.mem_singleton.mp hlast).le }

/-- Deleting the payload leaves nothing that is older than the completed versions. -/
theorem Current.deletePayload (hcurrent : Current world)
    (hannounced : world.invalidation update = .announced)
    (hversion : committedVersion world.fees update = some version) :
    Current (FeeScheduleCache.deletePayload world update version) := by
  obtain ⟨saved, hsaved, hid⟩ := committedVersion_eq_some hversion
  obtain ⟨same, hsame, hmem⟩ := hcurrent.announced update hannounced
  obtain rfl := Call.committed.inj (hsaved.symm.trans hsame)
  exact
    { hcurrent with
      announced := forall_setProcess (P := fun other invalidation =>
          invalidation = Invalidation.announced → ∃ saved,
            world.fees.call other = .committed saved ∧ saved.id ∈ world.announced)
        (fun hsame => by cases hsame) fun other _ => hcurrent.announced other
      completed := fun found hfound => by
        rcases List.mem_append.mp hfound with hearlier | hlast
        · exact hcurrent.completed found hearlier
        · obtain rfl := List.mem_singleton.mp hlast
          exact ⟨hid ▸ hmem, hid ▸ hcurrent.ordered.kept update saved hsaved⟩
      payload := fun _ hnone => by cases hnone
      readers := fun other => (hcurrent.readers other).mono (List.subset_append_left _ _) }

theorem Current.expire (hcurrent : Current world) :
    Current { world with cache := { world.cache with payload := none } } :=
  { hcurrent with payload := fun _ hnone => by cases hnone }

/-- The active schedule is not older than any completed version. -/
theorem Current.le_active (hcurrent : Current world)
    (hfinds : FindsActive world.fees.schedules schedule) :
    ∀ version ∈ world.completed, version ≤ schedule.id := by
  intro version hversion
  obtain ⟨-, row, hrow, rfl⟩ := hcurrent.completed version hversion
  exact hcurrent.ordered.latest schedule hfinds.1 hfinds.2.1 row hrow

theorem Current.step {event : Event} (hcurrent : Current world) (horder : InOrder world event)
    (hstep : step world event = some after) : Current after := by
  cases event with
  | database event =>
      obtain ⟨fees, hfees, rfl⟩ := Option.map_eq_some_iff.mp hstep
      exact hcurrent.database hfees
  | setGuard update =>
      simp only [FeeScheduleCache.step] at hstep
      split at hstep
      · rename_i version _ hversion
        obtain rfl := Option.some.inj hstep
        exact hcurrent.setGuard hversion (horder version hversion)
      · cases hstep
  | deletePayload update =>
      simp only [FeeScheduleCache.step] at hstep
      split at hstep
      · rename_i version hannounced hversion
        obtain rfl := Option.some.inj hstep
        exact hcurrent.deletePayload hannounced hversion
      · cases hstep
  | pipelineFails update => exact absurd horder id
  | startRead index =>
      simp only [FeeScheduleCache.step] at hstep
      split at hstep
      · obtain rfl := Option.some.inj hstep
        exact hcurrent.moveReader (List.Subset.refl _)
      · cases hstep
  | getCache index =>
      simp only [FeeScheduleCache.step] at hstep
      split at hstep
      · rename_i floor hreader
        have hfloor := hcurrent.readers index
        rw [hreader] at hfloor
        split at hstep
        · rename_i schedule hpayload
          obtain rfl := Option.some.inj hstep
          exact hcurrent.moveReader fun version hversion =>
            hcurrent.payload schedule hpayload version (hfloor hversion)
        · obtain rfl := Option.some.inj hstep
          exact hcurrent.moveReader hfloor
      · cases hstep
  | cacheFails index =>
      simp only [FeeScheduleCache.step] at hstep
      split at hstep
      · rename_i floor hreader
        have hfloor := hcurrent.readers index
        rw [hreader] at hfloor
        obtain rfl := Option.some.inj hstep
        exact hcurrent.moveReader hfloor
      · cases hstep
  | findActive index schedule =>
      simp only [FeeScheduleCache.step] at hstep
      split at hstep
      · rename_i floor hreader
        have hfloor := hcurrent.readers index
        rw [hreader] at hfloor
        obtain ⟨hfinds, hafter⟩ := Option.ite_none_right_eq_some.mp hstep
        obtain rfl := Option.some.inj hafter
        exact hcurrent.moveReader fun version hversion =>
          hcurrent.le_active hfinds version (hfloor hversion)
      · cases hstep
  | findNone index =>
      simp only [FeeScheduleCache.step] at hstep
      split at hstep
      · rename_i floor hreader
        have hfloor := hcurrent.readers index
        rw [hreader] at hfloor
        obtain ⟨-, hafter⟩ := Option.ite_none_right_eq_some.mp hstep
        obtain rfl := Option.some.inj hafter
        exact hcurrent.moveReader hfloor
      · cases hstep
  | refill index =>
      simp only [FeeScheduleCache.step] at hstep
      split at hstep
      · rename_i floor schedule hreader
        have hfound := hcurrent.readers index
        rw [hreader] at hfound
        obtain rfl := Option.some.inj hstep
        exact hcurrent.refill.moveReader hfound
      · cases hstep
  | refillFails index =>
      simp only [FeeScheduleCache.step] at hstep
      split at hstep
      · rename_i floor schedule hreader
        have hfound := hcurrent.readers index
        rw [hreader] at hfound
        obtain rfl := Option.some.inj hstep
        exact hcurrent.moveReader hfound
      · cases hstep
  | refillWith schedule =>
      obtain ⟨-, hafter⟩ := Option.ite_none_right_eq_some.mp hstep
      obtain rfl := Option.some.inj hafter
      exact hcurrent.refill
  | expire =>
      obtain rfl := Option.some.inj hstep
      exact hcurrent.expire

end Preservation

/-! ## Runs -/

/-- One schedule is active, the one with the last id, and no call has begun.  The cache may
hold anything. -/
structure Initially (world : World) (active : Schedule) : Prop where
  fees : Initial world.fees active
  latest : ∀ row ∈ world.fees.schedules, row.id ≤ active.id
  readers : ∀ index, world.reader index = .idle
  invalidations : ∀ update, world.invalidation update = .pending
  announced : world.announced = []
  completed : world.completed = []

theorem Initially.current {world : World} {active : Schedule}
    (hinitially : Initially world active) : Current world where
  consistent := ⟨_, _, hinitially.fees.consistent⟩
  ordered :=
    { kept := fun index saved hsaved => by
        rw [hinitially.fees.calls] at hsaved
        cases hsaved
      latest := fun row hrow hactive other hother => by
        have hmem : row ∈ world.fees.schedules.filter Schedule.isActive :=
          List.mem_filter.mpr ⟨hrow, hactive⟩
        rw [hinitially.fees.active, List.mem_singleton] at hmem
        exact hmem ▸ hinitially.latest other hother
      later := fun index new replaced hnew => by
        rw [hinitially.fees.calls] at hnew
        cases hnew }
  announced update hannounced := by
    rw [hinitially.invalidations] at hannounced
    cases hannounced
  completed version hversion := by
    rw [hinitially.completed] at hversion
    cases hversion
  guarded version hversion := by
    rw [hinitially.announced] at hversion
    cases hversion
  payload schedule _ version hversion := by
    rw [hinitially.completed] at hversion
    cases hversion
  readers index := by
    rw [hinitially.readers]
    trivial

/-- As long as the invalidations reach Redis in the order of their versions, no reader
returns a version from before an invalidation that had completed when it started. -/
theorem reads_current {first last : World} {active : Schedule} {events : List Event}
    (hinitially : Initially first active)
    (hrun : GuardedRun step InOrder first events last) : ReadsCurrent last := by
  have hcurrent : Current last :=
    hrun.invariant (fun horder hstep hbefore => hbefore.step horder hstep) hinitially.current
  intro index floor schedule hreturned
  have hknows := hcurrent.readers index
  rw [hreturned] at hknows
  exact hknows

def migratedWorld : World := { fees := migrated }

theorem initially_migrated : Initially migratedWorld defaultSchedule where
  fees := initial_migrated
  latest row hmem := by
    obtain rfl := List.mem_singleton.mp hmem
    exact le_rfl
  readers _ := rfl
  invalidations _ := rfl
  announced := rfl
  completed := rfl

def secondSchedule : Schedule :=
  createSchedule { investmentFeeBps := some 200 } defaultSchedule 2 10

/-- A reader finds the second schedule and comes to its refill after the third has been
committed; `invalidations` reach Redis in between. -/
def delayedRefill (invalidations : List Event) : List Event :=
  [.startRead 0, .getCache 0] ++
    (wholeCall 0 defaultSchedule 10 { investmentFeeBps := some 200 }).map .database ++
    [.findActive 0 secondSchedule] ++
    (wholeCall 1 secondSchedule 20 { settlementFeeBps := some 60 }).map .database ++
    invalidations ++ [.refill 0, .startRead 1, .getCache 1]

theorem inOrder_readsCurrent : ∃ last,
    GuardedRun step InOrder migratedWorld
      (delayedRefill [.setGuard 0, .deletePayload 0, .setGuard 1, .deletePayload 1]) last ∧
      last.reader 1 = .missed [2, 3] ∧ ReadsCurrent last := by
  have hexec : (execGuarded step InOrder migratedWorld (delayedRefill
      [.setGuard 0, .deletePayload 0, .setGuard 1, .deletePayload 1])).map
      (fun last => last.reader 1) = some (.missed [2, 3]) := by
    decide +kernel
  obtain ⟨last, hrun, hlast⟩ := exists_guardedRun hexec
  exact ⟨last, hrun, hlast, reads_current initially_migrated hrun⟩

/-- The invalidation of the second schedule arrives last and lowers the guard, so the delayed
refill is accepted, and the next reader returns the second schedule. -/
theorem outOfOrder_readsStale : ∃ last,
    Run step migratedWorld
      (delayedRefill [.setGuard 1, .deletePayload 1, .setGuard 0, .deletePayload 0]) last ∧
      last.reader 1 = .returned [3, 2] secondSchedule ∧ ¬ReadsCurrent last := by
  have hexec : (exec step migratedWorld (delayedRefill
      [.setGuard 1, .deletePayload 1, .setGuard 0, .deletePayload 0])).map
      (fun last => last.reader 1) = some (.returned [3, 2] secondSchedule) := by
    decide +kernel
  obtain ⟨last, hrun, hlast⟩ := exists_run hexec
  refine ⟨last, hrun, hlast, fun hcurrent => ?_⟩
  exact absurd (hcurrent 1 [3, 2] secondSchedule hlast 3 List.mem_cons_self) (by decide)

end StellarSettle.FeeScheduleCache
