import StellarSettle.Core.TransitionSystem
import StellarSettle.Model.Entities

/-!
# The circuit breaker

Operations run while the breaker is closed and are rejected while it is open; a timeout after
the last failure it becomes half-open and lets them run again.  Several operations may be in
flight, and one that was started in one state may complete in another.  The counters of failures
and of successes are shared by all states.
-/

namespace StellarSettle.CircuitBreaker

open StellarSettle.Entities (Timestamp)
open StellarSettle.TransitionSystem

/-! ## The breaker -/

structure CircuitBreakerOptions where
  failureThreshold : ℕ
  successThreshold : ℕ
  timeout : ℤ
  one_le_failureThreshold : 1 ≤ failureThreshold
  one_le_successThreshold : 1 ≤ successThreshold

inductive StateName where
  | closed
  | opened
  | halfOpen
  deriving DecidableEq, Repr

structure CircuitBreakerState where
  failures : ℕ
  successes : ℕ
  lastFailure : Timestamp
  state : StateName
  deriving DecidableEq, Repr

def initialState : CircuitBreakerState :=
  { failures := 0, successes := 0, lastFailure := 0, state := .closed }

/-- `execute` up to its operation.  An open breaker throws before the timeout. -/
def admitCall (options : CircuitBreakerOptions) (now : Timestamp) (breaker : CircuitBreakerState) :
    Option CircuitBreakerState :=
  if breaker.state = .opened then
    if options.timeout ≤ now - breaker.lastFailure then some { breaker with state := .halfOpen }
    else none
  else some breaker

def onSuccess (options : CircuitBreakerOptions) (breaker : CircuitBreakerState) :
    CircuitBreakerState :=
  if breaker.state = .halfOpen then
    if options.successThreshold ≤ breaker.successes + 1 then
      { breaker with failures := 0, successes := 0, state := .closed }
    else { breaker with failures := 0, successes := breaker.successes + 1 }
  else { breaker with failures := 0 }

def onFailure (options : CircuitBreakerOptions) (now : Timestamp) (breaker : CircuitBreakerState) :
    CircuitBreakerState :=
  { failures := breaker.failures + 1
    successes := 0
    lastFailure := now
    state := if options.failureThreshold ≤ breaker.failures + 1 then .opened else breaker.state }

/-! ## Operations in flight -/

inductive Outcome where
  | success
  | failure
  deriving DecidableEq, Repr

/-- `execute` after its operation. -/
def settle (options : CircuitBreakerOptions) (outcome : Outcome) (now : Timestamp)
    (breaker : CircuitBreakerState) : CircuitBreakerState :=
  match outcome with
  | .success => onSuccess options breaker
  | .failure => onFailure options now breaker

/-- The breaker with its operations.  The newest outcomes come first: of all operations, and of
those that completed while the breaker was half-open, since it last became so. -/
structure System where
  breaker : CircuitBreakerState
  inFlight : ℕ
  completed : List Outcome
  probes : List Outcome
  deriving DecidableEq, Repr

def System.idle : System :=
  { breaker := initialState, inFlight := 0, completed := [], probes := [] }

inductive Event where
  | start (now : Timestamp)
  | complete (outcome : Outcome) (now : Timestamp)
  deriving DecidableEq, Repr

def step (options : CircuitBreakerOptions) (system : System) : Event → Option System
  | .start now =>
      match admitCall options now system.breaker with
      | some breaker =>
          some { system with
            breaker := breaker
            inFlight := system.inFlight + 1
            probes := if system.breaker.state = .opened then [] else system.probes }
      | none => some system
  | .complete outcome now =>
      if 0 < system.inFlight then
        some
          { breaker := settle options outcome now system.breaker
            inFlight := system.inFlight - 1
            completed := outcome :: system.completed
            probes := if system.breaker.state = .halfOpen then outcome :: system.probes
              else system.probes }
      else none

/-! ## What the half-open state should do -/

/-- A failure opens the breaker again, and it closes only after enough successes in a row. -/
structure Lawful (options : CircuitBreakerOptions) (before : System) (event : Event)
    (after : System) : Prop where
  failureOpens : ∀ now, event = .complete .failure now → before.breaker.state = .halfOpen →
    after.breaker.state = .opened
  closesAfterSuccesses : before.breaker.state = .halfOpen → after.breaker.state = .closed →
    after.probes.take options.successThreshold = .replicate options.successThreshold .success

/-- The failures since the last success, of outcomes with the newest first. -/
def failuresInARow (outcomes : List Outcome) : ℕ := (outcomes.takeWhile (· = .failure)).length

/-- A failure that completes in the half-open state ends a row of at least `failureThreshold`. -/
def EndsRow (options : CircuitBreakerOptions) (system : System) (event : Event) : Prop :=
  ∀ now, event = .complete .failure now → system.breaker.state = .halfOpen →
    options.failureThreshold ≤ failuresInARow system.completed + 1

/-! ## The counters -/

@[simp]
theorem failuresInARow_success (outcomes : List Outcome) :
    failuresInARow (.success :: outcomes) = 0 := rfl

@[simp]
theorem failuresInARow_failure (outcomes : List Outcome) :
    failuresInARow (.failure :: outcomes) = failuresInARow outcomes + 1 := rfl

/-- What the counters count. -/
structure Counts (system : System) : Prop where
  failures : system.breaker.failures = failuresInARow system.completed
  successes : system.breaker.state = .halfOpen →
    system.probes.take system.breaker.successes = .replicate system.breaker.successes .success
  resting : system.breaker.state ≠ .halfOpen → system.breaker.successes = 0

theorem counts_idle : Counts System.idle where
  failures := rfl
  successes := nofun
  resting := fun _ => rfl

section Steps

variable {options : CircuitBreakerOptions} {before after : System} {event : Event}

theorem Counts.start (hcounts : Counts before) {now : Timestamp} {breaker : CircuitBreakerState}
    (hadmits : admitCall options now before.breaker = some breaker) :
    Counts { before with
      breaker := breaker
      inFlight := before.inFlight + 1
      probes := if before.breaker.state = .opened then [] else before.probes } := by
  rw [admitCall] at hadmits
  split at hadmits
  · rename_i hopened
    split at hadmits
    · obtain rfl := Option.some.inj hadmits
      have hzero : before.breaker.successes = 0 :=
        hcounts.resting (by rw [hopened]; exact StateName.noConfusion)
      refine ⟨hcounts.failures, fun _ => ?_, fun hother => absurd rfl hother⟩
      simp only [hzero, List.take_zero, List.replicate_zero]
    · cases hadmits
  · rename_i hother
    obtain rfl := Option.some.inj hadmits
    rw [if_neg hother]
    exact ⟨hcounts.failures, hcounts.successes, hcounts.resting⟩

/-- One more success in the half-open state. -/
theorem take_successes {system : System} (hcounts : Counts system)
    (hhalf : system.breaker.state = .halfOpen) {count : ℕ}
    (hcount : count ≤ system.breaker.successes + 1) :
    (Outcome.success :: system.probes).take count = .replicate count .success := by
  have hall : (Outcome.success :: system.probes).take (system.breaker.successes + 1) =
      .replicate (system.breaker.successes + 1) .success := by
    rw [List.take_succ_cons, hcounts.successes hhalf, List.replicate_succ]
  calc
    (Outcome.success :: system.probes).take count =
        ((Outcome.success :: system.probes).take (system.breaker.successes + 1)).take count := by
      rw [List.take_take, min_eq_left hcount]
    _ = .replicate count .success := by
      rw [hall, List.take_replicate, min_eq_left hcount]

theorem Counts.complete (hcounts : Counts before) (outcome : Outcome) (now : Timestamp) :
    Counts
      { breaker := settle options outcome now before.breaker
        inFlight := before.inFlight - 1
        completed := outcome :: before.completed
        probes := if before.breaker.state = .halfOpen then outcome :: before.probes
          else before.probes } := by
  cases outcome with
  | failure =>
      refine ⟨?_, fun _ => rfl, fun _ => rfl⟩
      rw [failuresInARow_failure, ← hcounts.failures]
      rfl
  | success =>
      simp only [settle, onSuccess]
      split
      · rename_i hhalf
        split
        · exact ⟨rfl, nofun, fun _ => rfl⟩
        · refine ⟨rfl, fun _ => ?_, fun hother => absurd hhalf hother⟩
          exact take_successes hcounts hhalf (le_refl _)
      · exact ⟨rfl, hcounts.successes, hcounts.resting⟩

theorem counts_of_step (hstep : step options before event = some after) (hcounts : Counts before) :
    Counts after := by
  cases event with
  | start now =>
      simp only [step] at hstep
      split at hstep
      · rename_i breaker hadmits
        obtain rfl := Option.some.inj hstep
        exact hcounts.start hadmits
      · obtain rfl := Option.some.inj hstep
        exact hcounts
  | complete outcome now =>
      simp only [step] at hstep
      split at hstep
      · obtain rfl := Option.some.inj hstep
        exact hcounts.complete outcome now
      · cases hstep

/-- A half-open breaker lets every operation run and stays as it is. -/
theorem state_start {now : Timestamp} (hstep : step options before (.start now) = some after)
    (hhalf : before.breaker.state = .halfOpen) : after.breaker.state = .halfOpen := by
  have hadmits : admitCall options now before.breaker = some before.breaker := by
    rw [admitCall, hhalf, if_neg StateName.noConfusion]
  simp only [step, hadmits] at hstep
  obtain rfl := Option.some.inj hstep
  exact hhalf

/-- The successes that close the breaker came in a row. -/
theorem closes_after_successes (hstep : step options before event = some after)
    (hcounts : Counts before) (hhalf : before.breaker.state = .halfOpen)
    (hclosed : after.breaker.state = .closed) :
    after.probes.take options.successThreshold = .replicate options.successThreshold .success := by
  cases event with
  | start now =>
      rw [state_start hstep hhalf] at hclosed
      cases hclosed
  | complete outcome now =>
      simp only [step] at hstep
      split at hstep
      · obtain rfl := Option.some.inj hstep
        cases outcome with
        | failure =>
            simp only [settle, onFailure, hhalf] at hclosed
            split at hclosed <;> cases hclosed
        | success =>
            simp only [settle, onSuccess, hhalf, if_true] at hclosed
            split at hclosed
            · rename_i henough
              exact take_successes hcounts hhalf henough
            · cases hclosed
      · cases hstep

theorem lawful_iff_endsRow (hstep : step options before event = some after)
    (hcounts : Counts before) :
    Lawful options before event after ↔ EndsRow options before event := by
  have hfailure : ∀ now, event = .complete .failure now → before.breaker.state = .halfOpen →
      (after.breaker.state = .opened ↔
        options.failureThreshold ≤ failuresInARow before.completed + 1) := by
    rintro now rfl hhalf
    simp only [step] at hstep
    split at hstep
    · obtain rfl := Option.some.inj hstep
      simp only [settle, onFailure, hhalf, hcounts.failures]
      split <;> simp_all
    · cases hstep
  constructor
  · intro hlawful now hevent hhalf
    exact (hfailure now hevent hhalf).mp (hlawful.failureOpens now hevent hhalf)
  · intro hrow
    refine ⟨fun now hevent hhalf => ?_, closes_after_successes hstep hcounts⟩
    exact (hfailure now hevent hhalf).mpr (hrow now hevent hhalf)

end Steps

/-- A half-open breaker does what it should at every step exactly when each failure that completes
there ends a row of `failureThreshold` failures: a success that came before it starts the count
again. -/
theorem halfOpen_lawful_iff (options : CircuitBreakerOptions) (events : List Event) :
    EveryStep (step options) (Lawful options) System.idle events ↔
      EveryStep (step options) (fun before event _ => EndsRow options before event) System.idle
        events := by
  have hexact : ∀ {before after : System} {event : Event},
      step options before event = some after → Counts before →
        (Lawful options before event after ↔ EndsRow options before event) :=
    lawful_iff_endsRow
  exact everyStep_iff Counts counts_of_step hexact counts_idle events

/-! ## A failure after a success -/

def twoFailures : CircuitBreakerOptions where
  failureThreshold := 2
  successThreshold := 2
  timeout := 50
  one_le_failureThreshold := by decide
  one_le_successThreshold := by decide

/-- Two failures open the breaker, and after the timeout a success and a failure complete. -/
def failureAfterSuccess : List Event :=
  [.start 0, .start 0, .complete .failure 1, .complete .failure 2, .start 100, .start 100,
    .complete .success 101, .complete .failure 102]

theorem failureAfterSuccess_staysHalfOpen :
    (exec (step twoFailures) System.idle failureAfterSuccess).map
        (fun system => system.breaker.state) = some .halfOpen ∧
      ¬EveryStep (step twoFailures) (Lawful twoFailures) System.idle failureAfterSuccess := by
  refine ⟨by decide, fun hlawful => ?_⟩
  have hlast := hlawful (failureAfterSuccess.take 7) (.complete .failure 102) [] rfl _ _ rfl rfl
  exact absurd (hlast.failureOpens 102 rfl rfl) (by decide)

end StellarSettle.CircuitBreaker
