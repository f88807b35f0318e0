import Mathlib.Data.List.Induction
import Mathlib.Data.List.Infix

/-!
# Runs of total step functions

Events that are always taken are folded over a state.  Of a run one may ask for an invariant
after each of its fronts, and that something lasts from each front to every later one.
-/

namespace StellarSettle.FoldedRuns

variable {State Event : Type*} {step : State → Event → State} {Inv : State → Prop}
variable {Kept : State → State → Prop} {guard : State → Event → Prop}

/-- Where `guard` says exactly which steps keep an invariant and what has to last, the invariant
holds after each front of the events, and what has to last does, exactly when every step meets
the guard. -/
theorem foldl_kept_iff (hrefl : ∀ state, Kept state state)
    (htrans : ∀ {first second third}, Kept first second → Kept second third → Kept first third)
    (hexact : ∀ {state event}, Inv state →
      (Inv (step state event) ∧ Kept state (step state event) ↔ guard state event))
    {first : State} (hfirst : Inv first) (events : List Event) :
    (∀ front later, front ++ later <+: events → Inv (front.foldl step first) ∧
        Kept (front.foldl step first) ((front ++ later).foldl step first)) ↔
      ∀ front event rest, events = front ++ event :: rest →
        guard (front.foldl step first) event := by
  constructor
  · intro hkept front event rest hevents
    have hone : (front ++ [event]).foldl step first = step (front.foldl step first) event := by
      rw [List.foldl_append, List.foldl_cons, List.foldl_nil]
    have hprefix : front ++ [event] <+: events := ⟨rest, by rw [hevents, List.append_assoc]; rfl⟩
    have hafter := (hkept (front ++ [event]) [] (by rwa [List.append_nil])).1
    obtain ⟨hbefore, hlasts⟩ := hkept front [event] hprefix
    rw [hone] at hafter hlasts
    exact (hexact hbefore).mp ⟨hafter, hlasts⟩
  · intro hguard
    have hstep : ∀ front event, front ++ [event] <+: events → Inv (front.foldl step first) →
        Inv ((front ++ [event]).foldl step first) ∧
          Kept (front.foldl step first) ((front ++ [event]).foldl step first) := by
      intro front event hprefix hinv
      obtain ⟨rest, hrest⟩ := hprefix
      rw [List.foldl_append, List.foldl_cons, List.foldl_nil]
      apply (hexact hinv).mpr
      apply hguard front event rest
      rw [← hrest, List.append_assoc]
      rfl
    have hinv : ∀ front, front <+: events → Inv (front.foldl step first) := by
      intro front
      induction front using List.reverseRecOn with
      | nil => exact fun _ => hfirst
      | append_singleton front event ih =>
          intro hprefix
          exact (hstep front event hprefix (ih ((List.prefix_append _ _).trans hprefix))).1
    intro front later hprefix
    have hfront := (List.prefix_append _ _).trans hprefix
    refine ⟨hinv front hfront, ?_⟩
    induction later using List.reverseRecOn with
    | nil =>
        rw [List.append_nil]
        exact hrefl _
    | append_singleton later event ih =>
        rw [← List.append_assoc] at hprefix ⊢
        have hmiddle := (List.prefix_append _ _).trans hprefix
        exact htrans (ih hmiddle) (hstep _ event hprefix (hinv _ hmiddle)).2

/-- The same for an invariant alone. -/
theorem foldl_invariant_iff
    (hexact : ∀ {state event}, Inv state → (Inv (step state event) ↔ guard state event))
    {first : State} (hfirst : Inv first) (events : List Event) :
    (∀ front, front <+: events → Inv (front.foldl step first)) ↔
      ∀ front event rest, events = front ++ event :: rest →
        guard (front.foldl step first) event := by
  have hkept := @foldl_kept_iff State Event step Inv (fun _ _ => True) guard (fun _ => trivial)
    (fun _ _ => trivial) (fun hinv => by rw [and_true]; exact hexact hinv) first hfirst events
  rw [← hkept]
  constructor
  · intro hinv front later hprefix
    exact ⟨hinv front ((List.prefix_append front later).trans hprefix), trivial⟩
  · intro hkept front hprefix
    exact (hkept front [] (by rwa [List.append_nil])).1

end StellarSettle.FoldedRuns
