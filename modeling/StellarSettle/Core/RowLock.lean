import StellarSettle.Core.TransitionSystem

/-!
# Processes around one lock

Processes share a store and one lock.  A step that needs the lock waits until it
is free, and a step that does not need it cannot take it.  A process knows some
things for good; others hold only while it has the lock.  The rule below says
what a step has to show so that both kinds of knowledge are kept by everyone.
-/

namespace StellarSettle.RowLock

open StellarSettle.TransitionSystem

variable {Index Store Local : Type*} [DecidableEq Index]

/-- What a process in a given state knows, and whether it holds the lock. -/
structure Knowledge (Store Local : Type*) where
  always : Store → Local → Prop
  holding : Local → Bool
  locked : Store → Local → Prop

/-- Every process knows what it should, and one that should hold the lock has it. -/
structure Known (knowledge : Knowledge Store Local) (store : Store) (holder : Option Index)
    (process : Index → Local) : Prop where
  always : ∀ index, knowledge.always store (process index)
  holds : ∀ index, knowledge.holding (process index) = true → holder = some index
  locked : ∀ index, knowledge.holding (process index) = true →
    knowledge.locked store (process index)

/-- What a step of one process brings about: `needs` says whether it waited for the
lock, `holds` whether it ends with it. -/
structure Keeps (knowledge : Knowledge Store Local) (store after : Store) (needs holds : Bool)
    (next : Local) : Prop where
  always : knowledge.always after next
  holding : knowledge.holding next = true → holds = true ∧ knowledge.locked after next
  waited : holds = true → needs = true
  others : ∀ other, knowledge.always store other → knowledge.always after other
  frame : needs = false → ∀ other, knowledge.holding other = true →
    knowledge.locked store other → knowledge.locked after other

variable {knowledge : Knowledge Store Local} {store after : Store} {holder : Option Index}
  {process : Index → Local} {index : Index} {needs holds : Bool} {next : Local}

omit [DecidableEq Index] in
/-- A step that needs the lock finds nobody else with it. -/
theorem Known.needless (hknown : Known knowledge store holder process)
    (havailable : needs = true → Available holder index) {other : Index} (hother : other ≠ index)
    (hholding : knowledge.holding (process other) = true) : needs = false := by
  by_contra hneeds
  exact not_available_of_held (hknown.holds other hholding) hother
    (havailable (by simpa using hneeds))

/-- What everyone knows survives the step. -/
theorem Known.step (hknown : Known knowledge store holder process)
    (havailable : needs = true → Available holder index)
    (hkeeps : Keeps knowledge store after needs holds next) :
    Known knowledge after (nextHolder holder index holds) (setProcess process index next) where
  always := forall_setProcess hkeeps.always fun other _ =>
    hkeeps.others _ (hknown.always other)
  holds := by
    refine forall_setProcess (P := fun other value => knowledge.holding value = true →
      nextHolder holder index holds = some other) (fun hholding => ?_)
      fun other hother hholding => ?_
    · rw [(hkeeps.holding hholding).1, nextHolder_self]
    · refine nextHolder_of_held (hknown.holds other hholding) hother ?_
      have hneedless := hknown.needless havailable hother hholding
      by_contra htaken
      rw [hkeeps.waited (by simpa using htaken)] at hneedless
      cases hneedless
  locked := by
    refine forall_setProcess (P := fun _ value => knowledge.holding value = true →
      knowledge.locked after value) (fun hholding => (hkeeps.holding hholding).2)
      fun other hother hholding => ?_
    exact hkeeps.frame (hknown.needless havailable hother hholding) _ hholding
      (hknown.locked other hholding)

/-- A step that changes nothing and goes on without the lock. -/
theorem Keeps.released (halways : knowledge.always store next)
    (hfree : knowledge.holding next = false) : Keeps knowledge store store needs false next where
  always := halways
  holding := fun hholding => by
    rw [hfree] at hholding
    cases hholding
  waited := fun htaken => by cases htaken
  others := fun _ halways => halways
  frame := fun _ _ _ hlocked => hlocked

/-- A step that changes nothing and goes on with the lock it waited for. -/
theorem Keeps.taken (halways : knowledge.always store next)
    (hlocked : knowledge.holding next = true → knowledge.locked store next) :
    Keeps knowledge store store true true next where
  always := halways
  holding := fun hholding => ⟨rfl, hlocked hholding⟩
  waited := fun _ => rfl
  others := fun _ halways => halways
  frame := fun hneeds => by cases hneeds

end StellarSettle.RowLock
