import Mathlib.Data.List.Nodup
import StellarSettle.Core.TransitionSystem
import StellarSettle.Model.Entities

/-!
# The pause states of contracts

`ContractGuardService` caches the pause states that it reads and lets concurrent calls share one
read.  A read that has completed stays in the map of reads until a later callback deletes it, and
until then calls still share it.
-/

namespace StellarSettle.ContractGuard

open StellarSettle.Entities (Timestamp)
open StellarSettle.TransitionSystem

/-! ## The service -/

structure CachedPauseState where
  paused : Bool
  readAt : Timestamp
  deriving DecidableEq, Repr

/-- How `readAndCache` ended: with a new reading, or with the fallback after a failure. -/
inductive ReadResult where
  | succeeded (reading : CachedPauseState)
  | fellBack (paused : Bool)
  deriving DecidableEq, Repr

def ReadResult.paused : ReadResult → Bool
  | succeeded reading => reading.paused
  | fellBack paused => paused

/-- A promise in the map of reads. -/
inductive Flight where
  | reading
  | settled (result : ReadResult)
  deriving DecidableEq, Repr

/-- A call that waits for a read. -/
structure Waiter where
  call : ℕ
  contractId : String
  deriving DecidableEq, Repr

/-- What a call returns, with the read that it started or shared. -/
structure Answer where
  call : ℕ
  contractId : String
  paused : Bool
  read : Option ReadResult
  now : Timestamp
  deriving DecidableEq, Repr

inductive Change where
  | stored (contractId : String) (reading : CachedPauseState)
  | cleared
  deriving DecidableEq, Repr

/-- The service with the calls that wait and the RPC reads that run.  The changes of the cache are
kept with the newest first, the answers are those of the last event. -/
structure System where
  cache : String → Option CachedPauseState
  inFlight : String → Option Flight
  waiters : List Waiter
  rpcReads : List String
  calls : ℕ
  clock : Timestamp
  changes : List Change
  answers : List Answer

def System.idle : System :=
  { cache := fun _ => none
    inFlight := fun _ => none
    waiters := []
    rpcReads := []
    calls := 0
    clock := 0
    changes := []
    answers := [] }

/-- The cached state, where it is younger than `ttlMs`. -/
def fresh (ttlMs : ℤ) (now : Timestamp) (system : System) (contractId : String) :
    Option CachedPauseState :=
  (system.cache contractId).filter fun cached => decide (now - cached.readAt < ttlMs)

/-- `checkContractPauseState`. -/
def check (ttlMs : ℤ) (now : Timestamp) (contractId : String) (system : System) : System :=
  let answer (paused : Bool) (read : Option ReadResult) : Answer :=
    { call := system.calls, contractId := contractId, paused := paused, read := read, now := now }
  let waiter : Waiter := { call := system.calls, contractId := contractId }
  let called := { system with calls := system.calls + 1, clock := now, answers := [] }
  match fresh ttlMs now system contractId with
  | some cached => { called with answers := [answer cached.paused none] }
  | none =>
      match system.inFlight contractId with
      | some (.settled result) => { called with answers := [answer result.paused (some result)] }
      | some .reading => { called with waiters := waiter :: system.waiters }
      | none =>
          { called with
            inFlight := Function.update system.inFlight contractId (some .reading)
            waiters := waiter :: system.waiters
            rpcReads := contractId :: system.rpcReads }

/-- The fallback of a read that failed. -/
def fallback (system : System) (contractId : String) : Bool :=
  ((system.cache contractId).map CachedPauseState.paused).getD false

/-- `readAndCache` after the RPC, which answers with a state or fails. -/
def complete (now : Timestamp) (contractId : String) (response : Option Bool) (system : System) :
    System :=
  let result : ReadResult := match response with
    | some paused => .succeeded { paused := paused, readAt := now }
    | none => .fellBack (fallback system contractId)
  let settled := { system with
    inFlight := Function.update system.inFlight contractId (some (.settled result))
    waiters := system.waiters.filter fun waiter => decide (waiter.contractId ≠ contractId)
    rpcReads := system.rpcReads.erase contractId
    clock := now
    answers := (system.waiters.filter fun waiter => decide (waiter.contractId = contractId)).map
      fun waiter =>
        { call := waiter.call
          contractId := contractId
          paused := result.paused
          read := some result
          now := now } }
  match result with
  | .succeeded reading =>
      { settled with
        cache := Function.update system.cache contractId (some reading)
        changes := .stored contractId reading :: system.changes }
  | .fellBack _ => settled

inductive Event where
  | check (contractId : String) (now : Timestamp)
  | complete (contractId : String) (response : Option Bool) (now : Timestamp)
  /-- The callback of `finally`. -/
  | remove (contractId : String)
  | clearCache
  deriving DecidableEq, Repr

def step (ttlMs : ℤ) (system : System) : Event → Option System
  | .check contractId now =>
      if system.clock ≤ now then some (check ttlMs now contractId system) else none
  | .complete contractId response now =>
      if system.clock ≤ now ∧ contractId ∈ system.rpcReads then
        some (complete now contractId response system)
      else none
  | .remove contractId =>
      match system.inFlight contractId with
      | some (.settled _) =>
          some { system with
            inFlight := Function.update system.inFlight contractId none
            answers := [] }
      | _ => none
  | .clearCache =>
      some { system with
        cache := fun _ => none
        changes := .cleared :: system.changes
        answers := [] }

/-! ## What calls should return -/

/-- The latest reading of a contract since the cache was cleared. -/
def latest (contractId : String) : List Change → Option CachedPauseState
  | [] => none
  | .cleared :: _ => none
  | .stored other reading :: rest =>
      if other = contractId then some reading else latest contractId rest

/-- The reading that an answer should be: the one its own read completed, else the latest. -/
def reference (changes : List Change) (answer : Answer) : Option CachedPauseState :=
  match answer.read with
  | some (.succeeded reading) => some reading
  | _ => latest answer.contractId changes

structure Right (ttlMs : ℤ) (changes : List Change) (answer : Answer) : Prop where
  value : answer.paused = ((reference changes answer).map CachedPauseState.paused).getD false
  recent : ∀ reading, reference changes answer = some reading →
    ttlMs ≤ answer.now - reading.readAt → ∃ paused, answer.read = some (.fellBack paused)

/-- The answers of an event are right, and no contract has two RPC reads. -/
structure Lawful (ttlMs : ℤ) (system : System) : Prop where
  answers : ∀ answer ∈ system.answers, Right ttlMs system.changes answer
  oneRead : system.rpcReads.Nodup

/-- A call that shares a read which has completed finds its result still good: a new reading is
younger than `ttlMs`, a fallback is what it would be now.  No reading is as old as `ttlMs` when it
is made. -/
def SharesInTime (ttlMs : ℤ) (system : System) : Event → Prop
  | .check contractId now => fresh ttlMs now system contractId = none →
      match system.inFlight contractId with
      | some (.settled (.succeeded reading)) => now - reading.readAt < ttlMs
      | some (.settled (.fellBack paused)) => paused = fallback system contractId
      | _ => True
  | .complete _ (some _) _ => 0 < ttlMs
  | _ => True

/-! ## The cache, the map of reads and the callers -/

/-- The cache holds the latest readings, and the map of reads the RPC reads, for each of which some
call waits. -/
structure Consistent (system : System) : Prop where
  cache : ∀ contractId, system.cache contractId = latest contractId system.changes
  distinct : system.rpcReads.Nodup
  flying : ∀ contractId,
    contractId ∈ system.rpcReads ↔ system.inFlight contractId = some .reading
  waited : ∀ contractId ∈ system.rpcReads, ∃ waiter ∈ system.waiters,
    waiter.contractId = contractId

theorem consistent_idle : Consistent System.idle where
  cache := fun _ => rfl
  distinct := List.nodup_nil
  flying := by simp [System.idle]
  waited := by simp [System.idle]

section Steps

variable {ttlMs : ℤ} {system after : System} {contractId : String} {now : Timestamp}

theorem fallback_eq (hconsistent : Consistent system) :
    fallback system contractId =
      ((latest contractId system.changes).map CachedPauseState.paused).getD false := by
  rw [fallback, hconsistent.cache]

theorem Consistent.check (hconsistent : Consistent system) :
    Consistent (check ttlMs now contractId system) := by
  unfold ContractGuard.check
  dsimp only
  split
  · exact ⟨hconsistent.cache, hconsistent.distinct, hconsistent.flying, hconsistent.waited⟩
  · split
    · exact ⟨hconsistent.cache, hconsistent.distinct, hconsistent.flying, hconsistent.waited⟩
    · refine ⟨hconsistent.cache, hconsistent.distinct, hconsistent.flying, ?_⟩
      intro other hother
      obtain ⟨waiter, hwaiter, hsame⟩ := hconsistent.waited other hother
      exact ⟨waiter, List.mem_cons_of_mem _ hwaiter, hsame⟩
    · rename_i hnone
      have hidle : contractId ∉ system.rpcReads := by
        rw [hconsistent.flying, hnone]
        exact Option.some_ne_none _ ∘ Eq.symm
      refine ⟨hconsistent.cache, List.nodup_cons.2 ⟨hidle, hconsistent.distinct⟩, ?_, ?_⟩
      · intro other
        by_cases hother : other = contractId
        · subst hother
          simp
        · simp [hother, hconsistent.flying]
      · intro other hother
        rcases List.mem_cons.1 hother with rfl | hother
        · exact ⟨_, List.mem_cons_self, rfl⟩
        · obtain ⟨waiter, hwaiter, hsame⟩ := hconsistent.waited other hother
          exact ⟨waiter, List.mem_cons_of_mem _ hwaiter, hsame⟩

theorem latest_stored (other : String) (reading : CachedPauseState) (changes : List Change) :
    latest other (.stored contractId reading :: changes) =
      Function.update (fun other => latest other changes) contractId (some reading) other := by
  by_cases hother : other = contractId
  · subst hother
    simp [latest]
  · rw [latest, if_neg (Ne.symm hother), Function.update_of_ne hother]

theorem Consistent.complete (hconsistent : Consistent system) {response : Option Bool} :
    Consistent (complete now contractId response system) := by
  have hdistinct := hconsistent.distinct.erase contractId
  have hflying : ∀ result other, other ∈ system.rpcReads.erase contractId ↔
      Function.update system.inFlight contractId (some (.settled result)) other =
        some .reading := by
    intro result other
    by_cases hother : other = contractId
    · subst hother
      simp [hconsistent.distinct.not_mem_erase]
    · rw [List.mem_erase_of_ne hother, Function.update_of_ne hother, hconsistent.flying]
  have hwaited : ∀ other ∈ system.rpcReads.erase contractId,
      ∃ waiter ∈ system.waiters.filter fun waiter => decide (waiter.contractId ≠ contractId),
        waiter.contractId = other := by
    intro other hother
    obtain ⟨waiter, hwaiter, hsame⟩ := hconsistent.waited other (List.mem_of_mem_erase hother)
    have hne : waiter.contractId ≠ contractId := by
      rintro heq
      rw [← hsame, heq] at hother
      exact hconsistent.distinct.not_mem_erase hother
    exact ⟨waiter, List.mem_filter.2 ⟨hwaiter, by simpa using hne⟩, hsame⟩
  cases response with
  | none => exact ⟨hconsistent.cache, hdistinct, hflying _, hwaited⟩
  | some paused =>
      refine ⟨fun other => ?_, hdistinct, hflying _, hwaited⟩
      have hcache : system.cache = fun other => latest other system.changes :=
        funext hconsistent.cache
      simp only [ContractGuard.complete]
      rw [latest_stored, hcache]

theorem Consistent.remove (hconsistent : Consistent system) {result : ReadResult}
    (hsettled : system.inFlight contractId = some (.settled result)) :
    Consistent { system with
      inFlight := Function.update system.inFlight contractId none
      answers := [] } := by
  refine ⟨hconsistent.cache, hconsistent.distinct, fun other => ?_, hconsistent.waited⟩
  dsimp only
  by_cases hother : other = contractId
  · subst hother
    rw [hconsistent.flying, hsettled, Function.update_self]
    simp
  · rw [Function.update_of_ne hother]
    exact hconsistent.flying other

theorem consistent_of_step {before : System} {event : Event}
    (hstep : step ttlMs before event = some after) (hconsistent : Consistent before) :
    Consistent after := by
  cases event with
  | check contractId now =>
      simp only [step, Option.ite_none_right_eq_some, Option.some_inj] at hstep
      obtain ⟨_, rfl⟩ := hstep
      exact hconsistent.check
  | complete contractId response now =>
      simp only [step, Option.ite_none_right_eq_some, Option.some_inj] at hstep
      obtain ⟨_, rfl⟩ := hstep
      exact hconsistent.complete
  | remove contractId =>
      simp only [step] at hstep
      split at hstep
      · obtain rfl := Option.some.inj hstep
        exact hconsistent.remove ‹_›
      · cases hstep
  | clearCache =>
      obtain rfl := Option.some.inj hstep
      exact ⟨fun _ => rfl, hconsistent.distinct, hconsistent.flying, hconsistent.waited⟩

/-- The result of a read that has completed is right exactly when it is still good. -/
theorem right_settled_iff {call : ℕ} {changes : List Change} {result : ReadResult} :
    Right ttlMs changes
        { call := call, contractId := contractId, paused := result.paused,
          read := some result, now := now } ↔
      match result with
      | .succeeded reading => now - reading.readAt < ttlMs
      | .fellBack paused =>
          paused = ((latest contractId changes).map CachedPauseState.paused).getD false := by
  cases result with
  | succeeded reading =>
      constructor
      · intro hright
        by_contra hold
        obtain ⟨paused, hpaused⟩ := hright.recent reading rfl (not_lt.1 hold)
        cases hpaused
      · intro hyoung
        refine ⟨rfl, fun other hother hold => ?_⟩
        obtain rfl := Option.some.inj hother
        exact absurd hyoung (not_lt.2 hold)
  | fellBack paused =>
      exact ⟨fun hright => hright.value, fun hvalue => ⟨hvalue, fun _ _ _ => ⟨paused, rfl⟩⟩⟩

/-- A cached reading that is young enough is right. -/
theorem right_fresh (hconsistent : Consistent system) {call : ℕ} {cached : CachedPauseState}
    (hfresh : fresh ttlMs now system contractId = some cached) :
    Right ttlMs system.changes
      { call := call, contractId := contractId, paused := cached.paused, read := none,
        now := now } := by
  rw [fresh, hconsistent.cache, Option.filter_eq_some_iff, decide_eq_true_eq] at hfresh
  refine ⟨?_, fun reading hreading hold => ?_⟩
  · simp only [reference, hfresh.1, Option.map_some, Option.getD_some]
  · obtain rfl : cached = reading := Option.some.inj (hfresh.1.symm.trans hreading)
    exact absurd hfresh.2 (not_lt.2 hold)

theorem lawful_iff_answers (hconsistent : Consistent after) :
    Lawful ttlMs after ↔ ∀ answer ∈ after.answers, Right ttlMs after.changes answer :=
  ⟨fun hlawful => hlawful.answers, fun hanswers => ⟨hanswers, hconsistent.distinct⟩⟩

theorem lawful_check_iff (hconsistent : Consistent system) :
    Lawful ttlMs (check ttlMs now contractId system) ↔
      SharesInTime ttlMs system (.check contractId now) := by
  rw [lawful_iff_answers hconsistent.check, SharesInTime, check]
  cases hfresh : fresh ttlMs now system contractId with
  | some cached =>
      simp only [List.forall_mem_singleton, reduceCtorEq, false_implies, iff_true]
      exact right_fresh hconsistent hfresh
  | none =>
      cases hflight : system.inFlight contractId with
      | none => simp
      | some flight =>
          cases flight with
          | reading => simp
          | settled result =>
              simp only [List.forall_mem_singleton, true_implies]
              rw [right_settled_iff, fallback_eq hconsistent]
              cases result <;> rfl

theorem lawful_complete_iff (hconsistent : Consistent system) {response : Option Bool}
    (hread : contractId ∈ system.rpcReads) :
    Lawful ttlMs (complete now contractId response system) ↔
      SharesInTime ttlMs system (.complete contractId response now) := by
  obtain ⟨waiter, hwaiter, hsame⟩ := hconsistent.waited contractId hread
  have hmem : waiter ∈
      system.waiters.filter fun waiter => decide (waiter.contractId = contractId) :=
    List.mem_filter.2 ⟨hwaiter, by simpa using hsame⟩
  rw [lawful_iff_answers hconsistent.complete]
  cases response with
  | none =>
      simp only [complete, SharesInTime, List.forall_mem_map, right_settled_iff, iff_true]
      intro _ _
      exact fallback_eq hconsistent
  | some paused =>
      simp only [complete, SharesInTime, List.forall_mem_map, right_settled_iff, sub_self]
      exact ⟨fun hall => hall waiter hmem, fun hpositive _ _ => hpositive⟩

theorem lawful_iff_sharesInTime {before : System} {event : Event}
    (hstep : step ttlMs before event = some after) (hconsistent : Consistent before) :
    Lawful ttlMs after ↔ SharesInTime ttlMs before event := by
  have hafter := consistent_of_step hstep hconsistent
  cases event with
  | check contractId now =>
      simp only [step, Option.ite_none_right_eq_some, Option.some_inj] at hstep
      obtain ⟨_, rfl⟩ := hstep
      exact lawful_check_iff hconsistent
  | complete contractId response now =>
      simp only [step, Option.ite_none_right_eq_some, Option.some_inj] at hstep
      obtain ⟨⟨_, hread⟩, rfl⟩ := hstep
      exact lawful_complete_iff hconsistent hread
  | remove contractId =>
      simp only [step] at hstep
      split at hstep
      · obtain rfl := Option.some.inj hstep
        rw [lawful_iff_answers hafter]
        simp [SharesInTime]
      · cases hstep
  | clearCache =>
      obtain rfl := Option.some.inj hstep
      rw [lawful_iff_answers hafter]
      simp [SharesInTime]

end Steps

/-- Calls return what they should at every step exactly when those that share a completed read
find its result still good. -/
theorem checkContractPauseState_right_iff (ttlMs : ℤ) (events : List Event) :
    EveryStep (step ttlMs) (fun _ _ after => Lawful ttlMs after) System.idle events ↔
      EveryStep (step ttlMs) (fun before event _ => SharesInTime ttlMs before event) System.idle
        events := by
  have hexact : ∀ {before after : System} {event : Event}, step ttlMs before event = some after →
      Consistent before → (Lawful ttlMs after ↔ SharesInTime ttlMs before event) :=
    lawful_iff_sharesInTime
  exact everyStep_iff Consistent consistent_of_step hexact consistent_idle events

/-! ## A call between a failed read and its removal -/

/-- A contract is read as paused, the reading expires, its refresh fails, and the cache is
cleared before the next call. -/
def clearedBeforeCall : List Event :=
  [.check "ESCROW" 0, .complete "ESCROW" (some true) 10, .remove "ESCROW",
    .check "ESCROW" 20000, .complete "ESCROW" none 20010, .clearCache, .check "ESCROW" 20010]

/-- The last call still returns the reading that was dropped. -/
theorem clearedBeforeCall_returnsDropped :
    (exec (step 15000) System.idle clearedBeforeCall).map (fun system =>
        (system.answers.map Answer.paused, latest "ESCROW" system.changes)) =
        some ([true], none) ∧
      ¬EveryStep (step 15000) (fun _ _ after => Lawful 15000 after) System.idle
        clearedBeforeCall := by
  refine ⟨by decide, fun hlawful => ?_⟩
  have hlast := hlawful (clearedBeforeCall.take 6) (.check "ESCROW" 20010) [] rfl _ _ rfl rfl
  exact absurd (hlast.answers _ (List.mem_singleton.2 rfl)).value (by decide)

end StellarSettle.ContractGuard
