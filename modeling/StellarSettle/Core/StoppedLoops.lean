import Mathlib.Data.List.Basic

/-!
# Loops that an error stops

A loop awaits its body for one item after another.  What an item did before its body threw stays
done, and no later item is reached.
-/

namespace StellarSettle.StoppedLoops

variable {Item Done Error : Type*}

/-- The bodies that a loop ran, the one that threw included, and how the loop ended. -/
def forEach (body : Item → Done × Except Error Unit) : List Item → List Done × Except Error Unit
  | [] => ([], .ok ())
  | item :: rest =>
      match (body item).2 with
      | .error thrown => ([(body item).1], .error thrown)
      | .ok () => ((body item).1 :: (forEach body rest).1, (forEach body rest).2)

/-- The body ends without an error. -/
def Completes (body : Item → Done × Except Error Unit) (item : Item) : Prop :=
  (body item).2 = .ok ()

variable {body : Item → Done × Except Error Unit}

theorem forEach_cons_of_completes {item : Item} (hitem : Completes body item) (rest : List Item) :
    forEach body (item :: rest) =
      ((body item).1 :: (forEach body rest).1, (forEach body rest).2) := by
  have hresult : (body item).2 = .ok () := hitem
  simp only [forEach, hresult]

theorem forEach_cons_of_not {item : Item} (hitem : ¬Completes body item) (rest : List Item) :
    (forEach body (item :: rest)).1 = [(body item).1] := by
  cases hresult : (body item).2 with
  | error thrown => simp only [forEach, hresult]
  | ok value => exact absurd hresult hitem

/-- What a loop did is what it did for a prefix of its items. -/
theorem exists_prefix (body : Item → Done × Except Error Unit) (items : List Item) :
    ∃ reached, reached <+: items ∧
      (forEach body items).1 = reached.map fun item => (body item).1 := by
  induction items with
  | nil => exact ⟨[], List.prefix_rfl, rfl⟩
  | cons item rest ih =>
      by_cases hitem : Completes body item
      · obtain ⟨reached, hprefix, hreached⟩ := ih
        refine ⟨item :: reached, (List.prefix_cons_inj item).2 hprefix, ?_⟩
        rw [forEach_cons_of_completes hitem, hreached, List.map_cons]
      · refine ⟨[item], ⟨rest, rfl⟩, ?_⟩
        rw [forEach_cons_of_not hitem, List.map_singleton]

/-- A loop reaches all its items exactly when all but the last complete. -/
theorem forEach_eq_map_iff (body : Item → Done × Except Error Unit) (items : List Item) :
    (forEach body items).1 = items.map (fun item => (body item).1) ↔
      ∀ item ∈ items.dropLast, Completes body item := by
  induction items with
  | nil => simp [forEach]
  | cons item rest ih =>
      cases rest with
      | nil =>
          by_cases hitem : Completes body item
          · rw [forEach_cons_of_completes hitem]
            simp [forEach]
          · simp [forEach_cons_of_not hitem]
      | cons next rest =>
          rw [List.dropLast_cons_cons, List.forall_mem_cons, ← ih]
          by_cases hitem : Completes body item
          · simp [forEach_cons_of_completes hitem, hitem]
          · simp [forEach_cons_of_not hitem, hitem]

end StellarSettle.StoppedLoops
