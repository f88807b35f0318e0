import Mathlib.Data.List.Basic
import Mathlib.Logic.Function.Basic

/-!
# Runs of partial step functions

A system is a partial step function: a state and an event give the next state,
or nothing when the event is not enabled.  Runs are sequences of enabled
events, possibly restricted by a guard on the state before each event.  The
invariant rule is proved once here: what every guarded step preserves, every
guarded run preserves.
-/

namespace StellarSettle.TransitionSystem

variable {State Event : Type*}

/-- Runs whose every event satisfies `guard` in the state it fires in. -/
inductive GuardedRun (step : State → Event → Option State) (guard : State → Event → Prop) :
    State → List Event → State → Prop
  | nil (state : State) : GuardedRun step guard state [] state
  | cons {before middle after : State} {event : Event} {events : List Event}
      (hguard : guard before event) (hstep : step before event = some middle)
      (hrest : GuardedRun step guard middle events after) :
      GuardedRun step guard before (event :: events) after

/-- Runs with no restriction. -/
abbrev Run (step : State → Event → Option State) :
    State → List Event → State → Prop :=
  GuardedRun step fun _ _ => True

/-- Execute a list of events in order. -/
def exec (step : State → Event → Option State) : State → List Event → Option State
  | state, [] => some state
  | state, event :: events => (step state event).bind fun next => exec step next events

variable {step : State → Event → Option State} {guard : State → Event → Prop}

namespace GuardedRun

/-- What every guarded step preserves, every guarded run preserves. -/
theorem invariant {Inv : State → Prop}
    (hpreserve : ∀ {before after : State} {event : Event},
      guard before event → step before event = some after → Inv before → Inv after)
    {first last : State} {events : List Event}
    (hrun : GuardedRun step guard first events last) (hfirst : Inv first) : Inv last := by
  induction hrun with
  | nil _ => exact hfirst
  | cons hguard hstep _ ih => exact ih (hpreserve hguard hstep hfirst)

/-- A weaker guard admits every run of a stronger one. -/
theorem mono {other : State → Event → Prop}
    (himp : ∀ state event, guard state event → other state event)
    {first last : State} {events : List Event}
    (hrun : GuardedRun step guard first events last) :
    GuardedRun step other first events last := by
  induction hrun with
  | nil state => exact .nil state
  | cons hguard hstep _ ih => exact .cons (himp _ _ hguard) hstep ih

/-- Where an invariant turns one guard of an enabled event into another, a run of the one is a
run of the other. -/
theorem strengthenStep {Inv : State → Prop} {other : State → Event → Prop}
    (hpreserve : ∀ {before after : State} {event : Event},
      guard before event → step before event = some after → Inv before → Inv after)
    (hguards : ∀ {before after : State} {event : Event}, Inv before →
      step before event = some after → guard before event → other before event)
    {first last : State} {events : List Event}
    (hrun : GuardedRun step guard first events last) (hfirst : Inv first) :
    GuardedRun step other first events last := by
  induction hrun with
  | nil state => exact .nil state
  | cons hguard hstep _ ih =>
      exact .cons (hguards hfirst hstep hguard) hstep (ih (hpreserve hguard hstep hfirst))

/-- The same where the guards do not need the event to be enabled. -/
theorem strengthen {Inv : State → Prop} {other : State → Event → Prop}
    (hpreserve : ∀ {before after : State} {event : Event},
      guard before event → step before event = some after → Inv before → Inv after)
    (hguards : ∀ {state : State} {event : Event}, Inv state → guard state event →
      other state event)
    {first last : State} {events : List Event}
    (hrun : GuardedRun step guard first events last) (hfirst : Inv first) :
    GuardedRun step other first events last := by
  refine strengthenStep hpreserve ?_ hrun hfirst
  intro _ _ _ hinv _ hguard
  exact hguards hinv hguard

/-- Events that all meet a condition meet it in whatever state they fire. -/
theorem guard_events {allowed : Event → Prop} {first last : State} {events : List Event}
    (hrun : GuardedRun step guard first events last) (hevents : ∀ event ∈ events, allowed event) :
    GuardedRun step (fun _ event => allowed event) first events last := by
  induction hrun with
  | nil state => exact .nil state
  | cons _ hstep _ ih =>
      obtain ⟨hevent, hrest⟩ := List.forall_mem_cons.mp hevents
      exact .cons hevent hstep (ih hrest)

/-- Runs follow each other. -/
theorem append {first middle last : State} {events later : List Event}
    (hrun : GuardedRun step guard first events middle)
    (hlater : GuardedRun step guard middle later last) :
    GuardedRun step guard first (events ++ later) last := by
  induction hrun with
  | nil _ => exact hlater
  | cons hguard hstep _ ih => exact .cons hguard hstep (ih hlater)

theorem toRun {first last : State} {events : List Event}
    (hrun : GuardedRun step guard first events last) : Run step first events last :=
  hrun.mono fun _ _ _ => trivial

end GuardedRun

/-- Executing events is a run, provided their guards hold along the way. -/
theorem run_of_exec {first last : State} {events : List Event}
    (hexec : exec step first events = some last) : Run step first events last := by
  induction events generalizing first with
  | nil =>
      obtain rfl : first = last := by simpa [exec] using hexec
      exact .nil first
  | cons event events ih =>
      cases hstep : step first event with
      | none => simp [exec, hstep] at hexec
      | some middle => exact .cons trivial hstep (ih (by simpa [exec, hstep] using hexec))

/-- A run is what executing its events does. -/
theorem GuardedRun.exec_eq {first last : State} {events : List Event}
    (hrun : GuardedRun step guard first events last) : exec step first events = some last := by
  induction hrun with
  | nil _ => rfl
  | cons _ hstep _ ih => rw [exec, hstep, Option.bind_some, ih]

/-- Events that step in the same way are executed in the same way. -/
theorem exec_map {rename : Event → Event} {events : List Event}
    (hsame : ∀ event ∈ events, ∀ state, step state (rename event) = step state event)
    (first : State) : exec step first (events.map rename) = exec step first events := by
  induction events generalizing first with
  | nil => rfl
  | cons event events ih =>
      obtain ⟨hevent, hevents⟩ := List.forall_mem_cons.mp hsame
      rw [List.map_cons, exec, exec, hevent]
      congr 1
      funext next
      exact ih hevents next

/-- The state in which the last event of a run fires. -/
theorem GuardedRun.last_event {first last : State} {events : List Event} {event : Event}
    (hrun : GuardedRun step guard first (events ++ [event]) last) :
    ∃ middle, exec step first events = some middle ∧ guard middle event ∧
      step middle event = some last := by
  induction events generalizing first with
  | nil =>
      rcases hrun with _ | ⟨hguard, hstep, hrest⟩
      cases hrest
      exact ⟨first, rfl, hguard, hstep⟩
  | cons head rest ih =>
      rcases hrun with _ | ⟨_, hstep, hrest⟩
      obtain ⟨middle, hmiddle, hlast⟩ := ih hrest
      exact ⟨middle, by rw [exec, hstep, Option.bind_some, hmiddle], hlast⟩

/-- Execute a list of events, checking a decidable guard before each. -/
def execGuarded (step : State → Event → Option State) (guard : State → Event → Prop)
    [∀ state event, Decidable (guard state event)] : State → List Event → Option State
  | state, [] => some state
  | state, event :: events =>
      if guard state event then
        (step state event).bind fun next => execGuarded step guard next events
      else none

theorem guardedRun_of_exec [∀ state event, Decidable (guard state event)]
    {first last : State} {events : List Event}
    (hexec : execGuarded step guard first events = some last) :
    GuardedRun step guard first events last := by
  induction events generalizing first with
  | nil =>
      obtain rfl : first = last := by simpa [execGuarded] using hexec
      exact .nil first
  | cons event events ih =>
      by_cases hguard : guard first event
      · cases hstep : step first event with
        | none => simp [execGuarded, hguard, hstep] at hexec
        | some middle =>
            exact .cons hguard hstep (ih (by simpa [execGuarded, hguard, hstep] using hexec))
      · simp [execGuarded, hguard] at hexec

/-- Where `guard` says exactly which steps from states with the invariant keep what is observed, and
such steps keep the invariant, the runs whose every state has what is observed are those whose
every step meets the guard. -/
theorem guardedRun_iff_observed {Inv Observed : State → Prop}
    (hobserved : ∀ {state : State}, Inv state → Observed state)
    (hexact : ∀ {before after : State} {event : Event},
      step before event = some after → Inv before → (Observed after ↔ guard before event))
    (hpreserve : ∀ {before after : State} {event : Event},
      guard before event → step before event = some after → Inv before → Inv after)
    {first last : State} {events : List Event} (hrun : Run step first events last)
    (hfirst : Inv first) :
    GuardedRun step guard first events last ↔
      ∀ front, front <+: events → ∀ reached, exec step first front = some reached →
        Observed reached := by
  constructor
  · intro hguarded
    clear hrun
    induction hguarded with
    | nil state =>
        intro front hfront reached hreached
        obtain rfl := List.prefix_nil.mp hfront
        obtain rfl := Option.some.inj hreached
        exact hobserved hfirst
    | cons hguard hstep _ ih =>
        intro front hfront reached hreached
        cases front with
        | nil =>
            obtain rfl := Option.some.inj hreached
            exact hobserved hfirst
        | cons event front =>
            obtain ⟨rfl, hrest⟩ := List.cons_prefix_cons.mp hfront
            rw [exec, hstep, Option.bind_some] at hreached
            exact ih (hpreserve hguard hstep hfirst) front hrest reached hreached
  · intro hreached
    induction hrun with
    | nil state => exact .nil state
    | @cons before middle after event events _ hstep _ ih =>
        have hmiddle : Observed middle := by
          refine hreached [event] ⟨events, rfl⟩ middle ?_
          rw [exec, hstep]
          rfl
        have hguard := (hexact hstep hfirst).mp hmiddle
        refine .cons hguard hstep (ih (hpreserve hguard hstep hfirst) ?_)
        intro front hfront reached hexec
        refine hreached (event :: front) (List.cons_prefix_cons.mpr ⟨rfl, hfront⟩) reached ?_
        rw [exec, hstep, Option.bind_some]
        exact hexec

/-- Where `guard` says exactly which steps keep an invariant, the runs whose every state has the
invariant are those whose every step meets the guard. -/
theorem guardedRun_iff_invariant {Inv : State → Prop}
    (hexact : ∀ {before after : State} {event : Event},
      step before event = some after → Inv before → (Inv after ↔ guard before event))
    {first last : State} {events : List Event} (hrun : Run step first events last)
    (hfirst : Inv first) :
    GuardedRun step guard first events last ↔
      ∀ front, front <+: events → ∀ reached, exec step first front = some reached →
        Inv reached := by
  have hsame : ∀ {state : State}, Inv state → Inv state := fun hstate => hstate
  have hpreserve : ∀ {before after : State} {event : Event}, guard before event →
      step before event = some after → Inv before → Inv after :=
    fun hguard hstep hbefore => (hexact hstep hbefore).mpr hguard
  exact guardedRun_iff_observed hsame hexact hpreserve hrun hfirst

/-- Every step along the events is lawful. -/
def EveryStep (step : State → Event → Option State) (Lawful : State → Event → State → Prop)
    (first : State) (events : List Event) : Prop :=
  ∀ front event rest, events = front ++ event :: rest →
    ∀ before after, exec step first front = some before → step before event = some after →
      Lawful before event after

/-- What says exactly which steps are lawful from states with an invariant says it of all steps
along any events. -/
theorem everyStep_iff (Inv : State → Prop) {Lawful : State → Event → State → Prop}
    (hpreserve : ∀ {before after : State} {event : Event}, step before event = some after →
      Inv before → Inv after)
    (hexact : ∀ {before after : State} {event : Event}, step before event = some after →
      Inv before → (Lawful before event after ↔ guard before event))
    {first : State} (hfirst : Inv first) (events : List Event) :
    EveryStep step Lawful first events ↔
      EveryStep step (fun before event _ => guard before event) first events := by
  have hinv : ∀ front before, exec step first front = some before → Inv before := by
    intro front before hreached
    exact (run_of_exec hreached).invariant (fun _ hstep => hpreserve hstep) hfirst
  constructor
  · intro hlawful front event rest hevents before after hreached hstep
    exact (hexact hstep (hinv front before hreached)).mp
      (hlawful front event rest hevents before after hreached hstep)
  · intro hguarded front event rest hevents before after hreached hstep
    exact (hexact hstep (hinv front before hreached)).mpr
      (hguarded front event rest hevents before after hreached hstep)

/-- A run that executing the events shows to end in an observed state. -/
theorem exists_run {Observed : Type*} {observe : State → Observed} {observed : Observed}
    {first : State} {events : List Event}
    (hexec : (exec step first events).map observe = some observed) :
    ∃ last, Run step first events last ∧ observe last = observed := by
  obtain ⟨last, hlast, hobserved⟩ := Option.map_eq_some_iff.mp hexec
  exact ⟨last, run_of_exec hlast, hobserved⟩

theorem exists_guardedRun [∀ state event, Decidable (guard state event)] {Observed : Type*}
    {observe : State → Observed} {observed : Observed} {first : State} {events : List Event}
    (hexec : (execGuarded step guard first events).map observe = some observed) :
    ∃ last, GuardedRun step guard first events last ∧ observe last = observed := by
  obtain ⟨last, hlast, hobserved⟩ := Option.map_eq_some_iff.mp hexec
  exact ⟨last, guardedRun_of_exec hlast, hobserved⟩

/-- The same for a run that goes on under another guard. -/
theorem exists_guardedRuns {other : State → Event → Prop}
    [∀ state event, Decidable (guard state event)] [∀ state event, Decidable (other state event)]
    {Observed : Type*} {observe : State → State → Observed} {observed : Observed} {first : State}
    {events later : List Event}
    (hexec : ((execGuarded step guard first events).bind fun middle =>
      (execGuarded step other middle later).map (observe middle)) = some observed) :
    ∃ middle last, GuardedRun step guard first events middle ∧
      GuardedRun step other middle later last ∧ observe middle last = observed := by
  obtain ⟨middle, hmiddle, hrest⟩ := Option.bind_eq_some_iff.mp hexec
  obtain ⟨last, hlast, hobserved⟩ := Option.map_eq_some_iff.mp hrest
  exact ⟨middle, last, guardedRun_of_exec hmiddle, guardedRun_of_exec hlast, hobserved⟩

section Processes

/-! ## Families of processes -/

variable {Index : Type*} [DecidableEq Index] {Local : Type*}

/-- Move one process of a family. -/
abbrev setProcess (locals : Index → Local) (index : Index) (value : Local) : Index → Local :=
  Function.update locals index value

/-- After one process moves, a fact about all processes follows from the fact
about the moved one and the facts about the others. -/
theorem forall_setProcess {P : Index → Local → Prop} {locals : Index → Local}
    {index : Index} {value : Local} (hmoved : P index value)
    (hothers : ∀ other, other ≠ index → P other (locals other)) :
    ∀ other, P other (setProcess locals index value other) := by
  intro other
  by_cases hother : other = index
  · subst other
    simpa using hmoved
  · simpa [hother] using hothers other hother

end Processes

section Locks

/-! ## One lock -/

variable {Index : Type*}

/-- The lock is free for this process. -/
def Available (holder : Option Index) (index : Index) : Prop :=
  holder = none ∨ holder = some index

theorem not_available_of_held {holder : Option Index} {index other : Index}
    (hheld : holder = some other) (hother : other ≠ index) : ¬Available holder index := by
  rintro (hnone | hown)
  · rw [hheld] at hnone
    cases hnone
  · rw [hheld] at hown
    exact hother (Option.some.inj hown)

variable [DecidableEq Index]

instance (holder : Option Index) (index : Index) : Decidable (Available holder index) :=
  inferInstanceAs (Decidable (_ ∨ _))

/-- The holder of the lock after a step of process `index`. -/
def nextHolder (holder : Option Index) (index : Index) (holds : Bool) : Option Index :=
  if holds then some index else if holder = some index then none else holder

theorem nextHolder_self (holder : Option Index) (index : Index) :
    nextHolder holder index true = some index := rfl

/-- A process other than the holder's leaves the lock where it is. -/
theorem nextHolder_of_held {holder : Option Index} {index other : Index} {holds : Bool}
    (hheld : holder = some other) (hother : other ≠ index) (hfree : holds = false) :
    nextHolder holder index holds = some other := by
  simp [nextHolder, hheld, hother, hfree]

end Locks

end StellarSettle.TransitionSystem
