import Mathlib.Algebra.Order.Group.Nat
import StellarSettle.Core.TransitionSystem

/-!
# Runs that use up a potential

Some steps of a system use up a potential, which others may supply.  If each step that is counted
costs at least one unit, a run cannot have more of them than was there and was supplied.
-/

namespace StellarSettle.BoundedRuns

open StellarSettle.TransitionSystem

variable {State Event : Type*} {step : State → Event → Option State}

/-- What a step that is counted costs. -/
def cost (counted : Event → Bool) (event : Event) : ℕ := if counted event then 1 else 0

/-- The counted steps of a run and the potential that they leave are at most the potential at the
start and what was supplied since. -/
theorem guarded_counted_le {guard : State → Event → Prop} {Inv : State → Prop}
    {counted : Event → Bool} {potential supplied : State → ℕ}
    (hpreserve : ∀ {before after : State} {event : Event}, guard before event →
      step before event = some after → Inv before → Inv after)
    (hpaid : ∀ {before after : State} {event : Event}, guard before event →
      step before event = some after → Inv before →
        cost counted event + potential after + supplied before ≤
          potential before + supplied after)
    {first last : State} {events : List Event} (hrun : GuardedRun step guard first events last)
    (hfirst : Inv first) :
    events.countP counted + potential last + supplied first ≤ potential first + supplied last := by
  induction hrun with
  | nil state => simp
  | @cons before middle after event events hguard hstep _ ih =>
      have hmiddle := ih (hpreserve hguard hstep hfirst)
      have hevent := hpaid hguard hstep hfirst
      have hcount : (event :: events).countP counted =
          events.countP counted + cost counted event := by
        rw [List.countP_cons, cost]
      omega

/-- The same where nothing is supplied. -/
theorem unsupplied_counted_le {guard : State → Event → Prop} {Inv : State → Prop}
    {counted : Event → Bool} {potential : State → ℕ}
    (hpreserve : ∀ {before after : State} {event : Event}, guard before event →
      step before event = some after → Inv before → Inv after)
    (hpaid : ∀ {before after : State} {event : Event}, guard before event →
      step before event = some after → Inv before →
        cost counted event + potential after ≤ potential before)
    {first last : State} {events : List Event} (hrun : GuardedRun step guard first events last)
    (hfirst : Inv first) : events.countP counted + potential last ≤ potential first := by
  have hnothing : ∀ {before after : State} {event : Event}, guard before event →
      step before event = some after → Inv before →
        cost counted event + potential after + (fun _ => 0) before ≤
          potential before + (fun _ => 0) after := hpaid
  exact guarded_counted_le hpreserve hnothing hrun hfirst

/-- The same for runs with no restriction. -/
theorem counted_le {Inv : State → Prop} {counted : Event → Bool} {potential supplied : State → ℕ}
    (hpreserve : ∀ {before after : State} {event : Event}, step before event = some after →
      Inv before → Inv after)
    (hpaid : ∀ {before after : State} {event : Event}, step before event = some after →
      Inv before →
        cost counted event + potential after + supplied before ≤
          potential before + supplied after)
    {first last : State} {events : List Event} (hrun : Run step first events last)
    (hfirst : Inv first) :
    events.countP counted + potential last + supplied first ≤ potential first + supplied last :=
  guarded_counted_le (fun _ => hpreserve) (fun _ => hpaid) hrun hfirst

/-- What only counted steps raise, and these by one, is raised at most as often as they occur. -/
theorem raised_le {Inv : State → Prop} {counted : Event → Bool} {level : State → ℕ}
    (hpreserve : ∀ {before after : State} {event : Event}, step before event = some after →
      Inv before → Inv after)
    (hraised : ∀ {before after : State} {event : Event}, step before event = some after →
      Inv before → level after ≤ level before + cost counted event)
    {first last : State} {events : List Event} (hrun : Run step first events last)
    (hfirst : Inv first) : level last ≤ level first + events.countP counted := by
  induction hrun with
  | nil state => simp
  | @cons before middle after event events _ hstep _ ih =>
      have hmiddle := ih (hpreserve hstep hfirst)
      have hevent := hraised hstep hfirst
      have hcount : (event :: events).countP counted =
          events.countP counted + cost counted event := by
        rw [List.countP_cons, cost]
      omega

end StellarSettle.BoundedRuns
