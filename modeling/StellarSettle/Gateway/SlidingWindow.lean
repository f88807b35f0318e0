import Mathlib.Algebra.Order.Group.Int
import StellarSettle.Core.SlidingWindows
import StellarSettle.Core.TransitionSystem

/-!
# The sliding window in Redis

Each call runs a script on the sorted set of its key: it drops the entries that the window has
left behind, counts the others, and adds an entry of its own when there is room.  Redis may drop
the whole set when its lifetime has ended, which is renewed with every entry.

The script is atomic, no two calls have one member, and the clock does not go back.
-/

namespace StellarSettle.SlidingWindow

open StellarSettle.SlidingWindows
open StellarSettle.TransitionSystem

/-! ## The script -/

structure Entry where
  score : ℤ
  member : String
  deriving DecidableEq, Repr

structure SortedSet where
  entries : List Entry
  expireAt : ℤ
  deriving DecidableEq, Repr

def entriesOf (key : Option SortedSet) : List Entry := (key.map SortedSet.entries).getD []

def scores (entries : List Entry) : List ℤ := entries.map Entry.score

/-- A set without entries is no key. -/
def keep (kept : List Entry) (key : Option SortedSet) : Option SortedSet :=
  if kept = [] then none else key.map fun set => { set with entries := kept }

/-- A member that is there gets the new score. -/
def zadd (score : ℤ) (member : String) (entries : List Entry) : List Entry :=
  ⟨score, member⟩ :: entries.filter fun entry => entry.member ≠ member

structure Reply where
  allowed : Bool
  currentCount : ℕ
  retryAfterMs : ℤ
  deriving DecidableEq, Repr

def retryAfter (now : ℤ) (windowMs : ℕ) (kept : List Entry) : ℤ :=
  match (scores kept).min? with
  | some oldestScore => max 0 (windowMs - (now - oldestScore))
  | none => windowMs

def slidingWindowLuaScript (now : ℤ) (windowMs maxRequests : ℕ) (member : String)
    (key : Option SortedSet) : Reply × Option SortedSet :=
  let kept := (entriesOf key).filter fun entry => now - windowMs < entry.score
  if maxRequests ≤ kept.length then
    ({ allowed := false
       currentCount := kept.length
       retryAfterMs := retryAfter now windowMs kept },
      keep kept key)
  else
    ({ allowed := true, currentCount := kept.length + 1, retryAfterMs := 0 },
      some { entries := zadd now member kept, expireAt := now + windowMs + 2000 })

structure SlidingWindowResult where
  allowed : Bool
  currentCount : ℕ
  remaining : ℕ
  retryAfterSeconds : ℤ
  fallback : Bool
  deriving DecidableEq, Repr

/-- `Math.ceil(ms / 1000)`. -/
def ceilSeconds (ms : ℤ) : ℤ := -(-ms / 1000)

/-- What a call makes of the reply; without one it allows all. -/
def checkSlidingWindow (maxRequests : ℕ) : Option Reply → SlidingWindowResult
  | some raw =>
      { allowed := raw.allowed
        currentCount := raw.currentCount
        remaining := if raw.allowed then maxRequests - raw.currentCount else 0
        retryAfterSeconds := if raw.allowed then 0 else max 1 (ceilSeconds raw.retryAfterMs)
        fallback := false }
  | none =>
      { allowed := true
        currentCount := 0
        remaining := maxRequests
        retryAfterSeconds := 0
        fallback := true }

/-! ## The calls for one key -/

structure Call where
  now : ℤ
  result : SlidingWindowResult
  deriving DecidableEq, Repr

/-- The key with its calls, the newest first, and the members that were used. -/
structure KeyState where
  key : Option SortedSet
  clock : ℤ
  members : List String
  calls : List Call
  deriving DecidableEq, Repr

def KeyState.unused (clock : ℤ) : KeyState :=
  { key := none, clock := clock, members := [], calls := [] }

inductive Event where
  | check (now : ℤ) (member : String)
  | expire (now : ℤ)
  deriving DecidableEq, Repr

def step (windowMs maxRequests : ℕ) (state : KeyState) : Event → Option KeyState
  | .check now member =>
      if state.clock ≤ now ∧ member ∉ state.members then
        let (reply, key) := slidingWindowLuaScript now windowMs maxRequests member state.key
        some
          { key := key
            clock := now
            members := member :: state.members
            calls := ⟨now, checkSlidingWindow maxRequests (some reply)⟩ :: state.calls }
      else none
  | .expire now =>
      if state.clock ≤ now ∧ ∃ set ∈ state.key, set.expireAt ≤ now then
        some { state with key := none, clock := now }
      else none

/-- The times of the calls that were allowed. -/
def allowedTimes (calls : List Call) : List ℤ :=
  (calls.filter fun call => call.result.allowed).map Call.now

theorem allowedTimes_cons (call : Call) (calls : List Call) : allowedTimes (call :: calls) =
    if call.result.allowed then call.now :: allowedTimes calls else allowedTimes calls := by
  rw [allowedTimes, List.filter_cons]
  split <;> rfl

structure Limited (windowMs maxRequests : ℕ) (calls : List Call) : Prop where
  bounded : Bounded (windowMs : ℤ) maxRequests (allowedTimes calls)
  retry : ∀ newer next rejected older, calls = newer ++ next :: rejected :: older →
    rejected.result.allowed = false →
    rejected.now + 1000 * rejected.result.retryAfterSeconds ≤ next.now →
    next.result.allowed = true

/-! ## The entries and the allowed calls -/

section Script

variable {windowMs maxRequests : ℕ} {now : ℤ} {member : String} {key : Option SortedSet}

theorem scores_filter (entries : List Entry) :
    scores (entries.filter fun entry => now - windowMs < entry.score) =
      recent (windowMs : ℤ) now (scores entries) := by
  rw [scores, recent, scores, List.filter_map]
  rfl

/-- How many entries the script counts. -/
theorem length_kept (entries : List Entry) :
    (entries.filter fun entry => now - windowMs < entry.score).length =
      (recent (windowMs : ℤ) now (scores entries)).length := by
  rw [← scores_filter, scores, List.length_map]

theorem entriesOf_keep (hkept : ∃ set, key = some set) (kept : List Entry) :
    entriesOf (keep kept key) = kept := by
  obtain ⟨set, rfl⟩ := hkept
  rw [keep]
  split
  · rename_i hnone
    rw [hnone]
    rfl
  · rfl

theorem scores_zadd {entries : List Entry} (hfresh : ∀ entry ∈ entries, entry.member ≠ member) :
    scores (zadd now member entries) = now :: scores entries := by
  have hall : (entries.filter fun entry => entry.member ≠ member) = entries := by
    apply List.filter_eq_self.mpr
    intro entry hentry
    exact decide_eq_true (hfresh entry hentry)
  rw [zadd, hall]
  rfl

theorem mem_zadd {entry : Entry} {entries : List Entry}
    (hentry : entry ∈ zadd now member entries) : entry = ⟨now, member⟩ ∨ entry ∈ entries := by
  rcases List.mem_cons.mp hentry with hnew | hold
  · exact .inl hnew
  · exact .inr (List.mem_of_mem_filter hold)

/-- After the time that a rejection names, its oldest entry has been left behind. -/
theorem left_after_retry {kept : List Entry} {oldest next : ℤ}
    (holdest : (scores kept).min? = some oldest)
    (hretry : now + 1000 * max 1 (ceilSeconds (retryAfter now windowMs kept)) ≤ next) :
    oldest ≤ next - windowMs := by
  have hwait : windowMs - (now - oldest) ≤ retryAfter now windowMs kept := by
    rw [retryAfter, holdest]
    exact le_max_right _ _
  have hceil : retryAfter now windowMs kept ≤
      1000 * ceilSeconds (retryAfter now windowMs kept) := by
    rw [ceilSeconds]
    omega
  have hseconds := le_max_right 1 (ceilSeconds (retryAfter now windowMs kept))
  have hnext : now + 1000 * ceilSeconds (retryAfter now windowMs kept) ≤ next := by
    refine le_trans ?_ hretry
    omega
  omega

end Script

/-! ## The invariant -/

/-- The set has the entries of the recent allowed calls, and lasts until they are left behind. -/
structure Tracks (windowMs maxRequests : ℕ) (state : KeyState) : Prop where
  past : ∀ time ∈ allowedTimes state.calls, time ≤ state.clock
  holds : Holds (windowMs : ℤ) state.clock (scores (entriesOf state.key)) (allowedTimes state.calls)
  lasting : ∀ set ∈ state.key, ∀ time ∈ allowedTimes state.calls, time + windowMs ≤ set.expireAt
  members : ∀ entry ∈ entriesOf state.key, entry.member ∈ state.members
  limited : Limited windowMs maxRequests state.calls
  afterRejection : ∀ rejected older, state.calls = rejected :: older →
    rejected.result.allowed = false →
    ∀ next, rejected.now + 1000 * rejected.result.retryAfterSeconds ≤ next →
      (recent (windowMs : ℤ) next (scores (entriesOf state.key))).length < maxRequests

theorem tracks_unused (windowMs maxRequests : ℕ) (clock : ℤ) :
    Tracks windowMs maxRequests (.unused clock) where
  past := fun _ hnone => absurd hnone List.not_mem_nil
  holds := holds_nil
  lasting := nofun
  members := fun _ hnone => absurd hnone List.not_mem_nil
  limited := ⟨bounded_nil, fun newer _ _ _ hcalls => by cases newer <;> cases hcalls⟩
  afterRejection := nofun

section Steps

variable {windowMs maxRequests : ℕ} {state after : KeyState} {now : ℤ} {member : String}

/-- The recent entries are as many as the recent allowed calls. -/
theorem Tracks.length_recent (htracks : Tracks windowMs maxRequests state)
    (hclock : state.clock ≤ now) :
    (recent (windowMs : ℤ) now (scores (entriesOf state.key))).length =
      (recent (windowMs : ℤ) now (allowedTimes state.calls)).length :=
  (htracks.holds.later hclock).length_eq

/-- A call that the time named by the last rejection has reached finds room. -/
theorem retry_cons {calls : List Call} {call : Call}
    (hlimited : ∀ newer next rejected older, calls = newer ++ next :: rejected :: older →
      rejected.result.allowed = false →
      rejected.now + 1000 * rejected.result.retryAfterSeconds ≤ next.now →
      next.result.allowed = true)
    (hnext : ∀ rejected older, calls = rejected :: older → rejected.result.allowed = false →
      rejected.now + 1000 * rejected.result.retryAfterSeconds ≤ call.now →
      call.result.allowed = true) :
    ∀ newer next rejected older, call :: calls = newer ++ next :: rejected :: older →
      rejected.result.allowed = false →
      rejected.now + 1000 * rejected.result.retryAfterSeconds ≤ next.now →
      next.result.allowed = true := by
  intro newer next rejected older hcalls hrejected htime
  cases newer with
  | nil =>
      obtain ⟨rfl, hrest⟩ := List.cons.inj hcalls
      exact hnext rejected older hrest hrejected htime
  | cons newest newer =>
      obtain ⟨_, hrest⟩ := List.cons.inj hcalls
      exact hlimited newer next rejected older hrest hrejected htime

/-- Time passes, and members are used for other keys. -/
theorem Tracks.tick (htracks : Tracks windowMs maxRequests state) (hclock : state.clock ≤ now)
    {members : List String} (hmembers : ∀ member ∈ state.members, member ∈ members) :
    Tracks windowMs maxRequests { state with clock := now, members := members } where
  past := fun time hmem => (htracks.past time hmem).trans hclock
  holds := htracks.holds.later hclock
  lasting := htracks.lasting
  members := fun entry hentry => hmembers _ (htracks.members entry hentry)
  limited := htracks.limited
  afterRejection := htracks.afterRejection

theorem Tracks.expire (htracks : Tracks windowMs maxRequests state) (hmax : 1 ≤ maxRequests)
    (hclock : state.clock ≤ now) {set : SortedSet} (hset : set ∈ state.key)
    (hexpired : set.expireAt ≤ now) :
    Tracks windowMs maxRequests { state with key := none, clock := now } where
  past := fun time hmem => (htracks.past time hmem).trans hclock
  holds := by
    apply holds_of_left
    intro time hmem
    have hlast := htracks.lasting set hset time hmem
    exact le_sub_iff_add_le.mpr (hlast.trans hexpired)
  lasting := nofun
  members := fun _ hnone => absurd hnone List.not_mem_nil
  limited := htracks.limited
  afterRejection := fun _ _ _ _ _ _ => hmax

/-- The step of a call that finds room. -/
theorem Tracks.allow (htracks : Tracks windowMs maxRequests state) (hclock : state.clock ≤ now)
    (hmember : member ∉ state.members)
    {kept : List Entry}
    (hkept : kept = (entriesOf state.key).filter fun entry => now - windowMs < entry.score)
    (hroom : kept.length < maxRequests) {result : SlidingWindowResult}
    (hallowed : result.allowed = true) :
    Tracks windowMs maxRequests
      { key := some { entries := zadd now member kept, expireAt := now + windowMs + 2000 }
        clock := now
        members := member :: state.members
        calls := ⟨now, result⟩ :: state.calls } := by
  have hfresh : ∀ entry ∈ kept, entry.member ≠ member := by
    rintro entry hentry rfl
    rw [hkept] at hentry
    exact hmember (htracks.members entry (List.mem_of_mem_filter hentry))
  have htimes : allowedTimes (⟨now, result⟩ :: state.calls) = now :: allowedTimes state.calls := by
    rw [allowedTimes_cons, if_pos hallowed]
  have hrecent : (recent (windowMs : ℤ) now (allowedTimes state.calls)).length < maxRequests := by
    rw [← htracks.length_recent hclock, ← length_kept, ← hkept]
    exact hroom
  exact
    { past := by
        rw [htimes]
        intro time hmem
        rcases List.mem_cons.mp hmem with rfl | hold
        · exact le_refl _
        · exact (htracks.past time hold).trans hclock
      holds := by
        rw [htimes]
        change Holds _ now (scores (zadd now member kept)) _
        rw [scores_zadd hfresh, hkept, scores_filter]
        exact ((htracks.holds.later hclock).prune).cons now
      lasting := by
        intro set hset time hmem
        obtain rfl := Option.some.inj hset
        rw [htimes] at hmem
        have hpast : time ≤ now := by
          rcases List.mem_cons.mp hmem with rfl | hold
          · exact le_refl _
          · exact (htracks.past time hold).trans hclock
        change time + (windowMs : ℤ) ≤ now + windowMs + 2000
        omega
      members := by
        intro entry hentry
        rcases mem_zadd hentry with rfl | hold
        · exact List.mem_cons_self
        · rw [hkept] at hold
          exact List.mem_cons_of_mem _ (htracks.members entry (List.mem_of_mem_filter hold))
      limited := by
        refine ⟨?_, retry_cons htracks.limited.retry fun _ _ _ _ _ => hallowed⟩
        rw [htimes]
        exact htracks.limited.bounded.cons hrecent
      afterRejection := by
        intro rejected older hcalls hrejected
        obtain ⟨rfl, _⟩ := List.cons.inj hcalls
        rw [hallowed] at hrejected
        cases hrejected }

/-- The step of a call that finds no room. -/
theorem Tracks.reject (htracks : Tracks windowMs maxRequests state) (hmax : 1 ≤ maxRequests)
    (hclock : state.clock ≤ now) {kept : List Entry}
    (hkept : kept = (entriesOf state.key).filter fun entry => now - windowMs < entry.score)
    (hfull : maxRequests ≤ kept.length) {result : SlidingWindowResult}
    (hresult : result.allowed = false)
    (hseconds : result.retryAfterSeconds = max 1 (ceilSeconds (retryAfter now windowMs kept))) :
    Tracks windowMs maxRequests
      { key := keep kept state.key
        clock := now
        members := member :: state.members
        calls := ⟨now, result⟩ :: state.calls } := by
  have hkey : ∃ set, state.key = some set := by
    cases hstored : state.key with
    | some set => exact ⟨set, rfl⟩
    | none =>
        have hnothing : kept = [] := by
          rw [hkept, hstored]
          rfl
        rw [hnothing] at hfull
        exact absurd (hmax.trans hfull) (by decide)
  have htimes : allowedTimes (⟨now, result⟩ :: state.calls) = allowedTimes state.calls := by
    rw [allowedTimes_cons, if_neg (Bool.not_eq_true _ ▸ hresult)]
  have hpast : ∀ time ∈ allowedTimes state.calls, time ≤ now :=
    fun time hmem => (htracks.past time hmem).trans hclock
  have hlength : kept.length = maxRequests := by
    have hbound := length_recent_le hpast htracks.limited.bounded
    rw [← htracks.length_recent hclock, ← length_kept, ← hkept] at hbound
    exact le_antisymm hbound hfull
  exact
    { past := by
        rw [htimes]
        exact hpast
      holds := by
        rw [htimes]
        change Holds _ now (scores (entriesOf (keep kept state.key))) _
        rw [entriesOf_keep hkey, hkept, scores_filter]
        exact (htracks.holds.later hclock).prune
      lasting := by
        intro set hset time hmem
        obtain ⟨stored, hstored⟩ := hkey
        rw [htimes] at hmem
        simp only [keep, hstored] at hset
        split at hset
        · cases hset
        · obtain rfl := Option.some.inj hset
          exact htracks.lasting stored hstored time hmem
      members := by
        intro entry hentry
        rw [entriesOf_keep hkey, hkept] at hentry
        exact List.mem_cons_of_mem _ (htracks.members entry (List.mem_of_mem_filter hentry))
      limited := by
        refine ⟨by rw [htimes]; exact htracks.limited.bounded, retry_cons htracks.limited.retry ?_⟩
        intro rejected older hcalls hrejected htime
        have hroom := htracks.afterRejection rejected older hcalls hrejected now htime
        rw [← length_kept, ← hkept] at hroom
        exact absurd hfull (not_le.mpr hroom)
      afterRejection := by
        intro rejected older hcalls _ next htime
        obtain ⟨rfl, _⟩ := List.cons.inj hcalls
        rw [hseconds] at htime
        have hsome : ∃ oldest, (scores kept).min? = some oldest := by
          apply Option.ne_none_iff_exists'.mp
          intro hnone
          rw [List.min?_eq_none_iff, scores, List.map_eq_nil_iff] at hnone
          rw [hnone] at hlength
          exact absurd (hlength ▸ hmax) (by decide)
        obtain ⟨oldest, holdest⟩ := hsome
        have hmem : oldest ∈ scores kept := List.min?_mem holdest
        have hleft := left_after_retry holdest htime
        change (recent _ next (scores (entriesOf (keep kept state.key)))).length < maxRequests
        rw [entriesOf_keep hkey]
        calc
          (recent (windowMs : ℤ) next (scores kept)).length < (scores kept).length :=
            length_recent_lt hmem hleft
          _ = maxRequests := by rw [scores, List.length_map, hlength] }

/-- A call is allowed exactly when the recent allowed calls leave room. -/
theorem Tracks.allowed_iff (htracks : Tracks windowMs maxRequests state)
    (hclock : state.clock ≤ now) (member : String) :
    (slidingWindowLuaScript now windowMs maxRequests member state.key).1.allowed = true ↔
      (recent (windowMs : ℤ) now (allowedTimes state.calls)).length < maxRequests := by
  rw [← htracks.length_recent hclock, ← length_kept, slidingWindowLuaScript]
  split
  · rename_i hfull
    exact iff_of_false Bool.false_ne_true (not_lt.mpr hfull)
  · rename_i hroom
    exact iff_of_true rfl (not_le.mp hroom)

/-- What a call leaves. -/
theorem Tracks.check (htracks : Tracks windowMs maxRequests state) (hmax : 1 ≤ maxRequests)
    (hclock : state.clock ≤ now) (hmember : member ∉ state.members) :
    Tracks windowMs maxRequests
      { key := (slidingWindowLuaScript now windowMs maxRequests member state.key).2
        clock := now
        members := member :: state.members
        calls := ⟨now, checkSlidingWindow maxRequests
          (some (slidingWindowLuaScript now windowMs maxRequests member state.key).1)⟩ ::
            state.calls } := by
  rw [slidingWindowLuaScript]
  split
  · rename_i hfull
    exact htracks.reject hmax hclock rfl hfull rfl rfl
  · rename_i hroom
    exact htracks.allow hclock hmember rfl (not_le.mp hroom) rfl

theorem tracks_of_step {event : Event} (hmax : 1 ≤ maxRequests)
    (hstep : step windowMs maxRequests state event = some after)
    (htracks : Tracks windowMs maxRequests state) : Tracks windowMs maxRequests after := by
  cases event with
  | check now member =>
      simp only [step] at hstep
      split at hstep
      · rename_i henabled
        obtain rfl := Option.some.inj hstep
        exact htracks.check hmax henabled.1 henabled.2
      · cases hstep
  | expire now =>
      simp only [step] at hstep
      split at hstep
      · rename_i henabled
        obtain ⟨hclock, set, hset, hexpired⟩ := henabled
        obtain rfl := Option.some.inj hstep
        exact htracks.expire hmax hclock hset hexpired
      · cases hstep

end Steps

/-- At most `maxRequests` calls are allowed in any window, and a call is allowed when the time that
a rejection before it names has passed. -/
theorem checkSlidingWindow_limited {windowMs maxRequests : ℕ} (hmax : 1 ≤ maxRequests)
    {clock : ℤ} {events : List Event} {last : KeyState}
    (hrun : Run (step windowMs maxRequests) (.unused clock) events last) :
    Limited windowMs maxRequests last.calls := by
  have hpreserve : ∀ {before after : KeyState} {event : Event}, True →
      step windowMs maxRequests before event = some after →
        Tracks windowMs maxRequests before → Tracks windowMs maxRequests after :=
    fun _ hstep htracks => tracks_of_step hmax hstep htracks
  exact (hrun.invariant hpreserve (tracks_unused windowMs maxRequests clock)).limited

/-- Two calls in a second and a half, of which a second allows one. -/
theorem oneRequest_limited : ∃ last,
    Run (step 1000 1) (.unused 0) [.check 0 "a", .check 500 "b", .check 1500 "c"] last ∧
      (last.calls.map fun call => (call.now, call.result.allowed, call.result.retryAfterSeconds)) =
        [(1500, true, 0), (500, false, 1), (0, true, 0)] ∧
      Limited 1000 1 last.calls := by
  have hexec : (exec (step 1000 1) (.unused 0)
      [.check 0 "a", .check 500 "b", .check 1500 "c"]).map (fun last => last.calls.map fun call =>
        (call.now, call.result.allowed, call.result.retryAfterSeconds)) =
      some [(1500, true, 0), (500, false, 1), (0, true, 0)] := by decide
  obtain ⟨last, hrun, hcalls⟩ := exists_run hexec
  exact ⟨last, hrun, hcalls, checkSlidingWindow_limited (by decide) hrun⟩

end StellarSettle.SlidingWindow
