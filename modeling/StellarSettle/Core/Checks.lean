import Mathlib.Data.List.Basic

/-!
# Chains of checks

Service code is a chain of checks, each of which throws or lets the rest run.
In the exception monad a chain is inverted one bind at a time: the lemmas below
read off, from the result of a chain, which checks passed and which one threw.
-/

namespace StellarSettle.Checks

variable {ε α β : Type}

/-- Throw `error` when `condition` holds. -/
def throwIf (condition : Prop) [Decidable condition] (error : ε) : Except ε Unit :=
  if condition then .error error else .ok ()

/-- The value of a query that must find something. -/
def orThrow (value : Option α) (error : ε) : Except ε α :=
  match value with
  | none => .error error
  | some found => .ok found

@[simp]
theorem bind_eq_ok {first : Except ε α} {rest : α → Except ε β} {result : β} :
    (first >>= rest) = .ok result ↔ ∃ value, first = .ok value ∧ rest value = .ok result := by
  cases first with
  | error thrown => simp [bind, Except.bind]
  | ok value => simp [bind, Except.bind]

@[simp]
theorem bind_eq_error {first : Except ε α} {rest : α → Except ε β} {thrown : ε} :
    (first >>= rest) = .error thrown ↔
      first = .error thrown ∨ ∃ value, first = .ok value ∧ rest value = .error thrown := by
  cases first with
  | error other => simp [bind, Except.bind]
  | ok value => simp [bind, Except.bind]

@[simp]
theorem ok_bind (value : α) (rest : α → Except ε β) :
    ((Except.ok value : Except ε α) >>= rest) = rest value := rfl

@[simp]
theorem error_bind (thrown : ε) (rest : α → Except ε β) :
    ((Except.error thrown : Except ε α) >>= rest) = .error thrown := rfl

@[simp]
theorem pure_eq_ok {value result : α} :
    (pure value : Except ε α) = .ok result ↔ result = value := by
  simp [pure, Except.pure, eq_comm]

@[simp]
theorem pure_ne_error {value : α} {thrown : ε} : (pure value : Except ε α) ≠ .error thrown := by
  simp [pure, Except.pure]

@[simp]
theorem map_eq_ok {first : Except ε α} {last : α → β} {result : β} :
    (last <$> first) = .ok result ↔ ∃ value, first = .ok value ∧ result = last value := by
  cases first <;> simp [Functor.map, Except.map, eq_comm]

@[simp]
theorem map_eq_error {first : Except ε α} {last : α → β} {thrown : ε} :
    (last <$> first) = .error thrown ↔ first = .error thrown := by
  cases first <;> simp [Functor.map, Except.map]

@[simp]
theorem throwIf_eq_ok {condition : Prop} [Decidable condition] {error : ε} {result : Unit} :
    throwIf condition error = .ok result ↔ ¬condition := by
  rw [throwIf]
  split <;> simp_all

@[simp]
theorem throwIf_eq_error {condition : Prop} [Decidable condition] {error thrown : ε} :
    throwIf condition error = .error thrown ↔ condition ∧ error = thrown := by
  rw [throwIf]
  split <;> simp_all

theorem throwIf_pos {condition : Prop} [Decidable condition] {error : ε}
    (hcondition : condition) : throwIf condition error = .error error := if_pos hcondition

theorem throwIf_neg {condition : Prop} [Decidable condition] {error : ε}
    (hcondition : ¬condition) : throwIf condition error = .ok () := if_neg hcondition

@[simp]
theorem orThrow_eq_ok {value : Option α} {error : ε} {result : α} :
    orThrow value error = .ok result ↔ value = some result := by
  cases value <;> simp [orThrow]

@[simp]
theorem orThrow_eq_error {value : Option α} {error thrown : ε} :
    orThrow value error = .error thrown ↔ value = none ∧ error = thrown := by
  cases value <;> simp [orThrow]

@[simp]
theorem orThrow_some (found : α) (error : ε) :
    orThrow (some found) error = (.ok found : Except ε α) := rfl

@[simp]
theorem orThrow_none (error : ε) : orThrow (none : Option α) error = .error error := rfl

/-- A loop whose body never throws is a map. -/
theorem mapM_eq_ok {items : List α} {body : α → Except ε β} {value : α → β}
    (hbody : ∀ item ∈ items, body item = .ok (value item)) :
    items.mapM body = .ok (items.map value) := by
  induction items with
  | nil => rfl
  | cons item rest ih =>
      rw [List.mapM_cons, hbody item (by simp), ok_bind,
        ih fun other hmem => hbody other (by simp [hmem]), ok_bind]
      rfl

/-- A loop that throws does so in the body of one of its items. -/
theorem exists_of_mapM_eq_error {items : List α} {body : α → Except ε β} {thrown : ε}
    (herror : items.mapM body = .error thrown) : ∃ item ∈ items, body item = .error thrown := by
  induction items with
  | nil => cases herror
  | cons item rest ih =>
      rw [List.mapM_cons] at herror
      rcases bind_eq_error.mp herror with hhead | ⟨value, _, htail⟩
      · exact ⟨item, by simp, hhead⟩
      · rcases bind_eq_error.mp htail with hrest | ⟨values, _, hpure⟩
        · obtain ⟨other, hmem, hother⟩ := ih hrest
          exact ⟨other, by simp [hmem], hother⟩
        · cases hpure

/-- A loop that ends normally ran its body normally on every item. -/
theorem forall₂_of_mapM_eq_ok {items : List α} {body : α → Except ε β} {values : List β}
    (hok : items.mapM body = .ok values) :
    List.Forall₂ (fun item value => body item = .ok value) items values := by
  induction items generalizing values with
  | nil =>
      obtain rfl := Except.ok.inj hok
      exact .nil
  | cons item rest ih =>
      rw [List.mapM_cons] at hok
      obtain ⟨value, hvalue, htail⟩ := bind_eq_ok.mp hok
      obtain ⟨others, hothers, hpure⟩ := bind_eq_ok.mp htail
      obtain rfl := Except.ok.inj hpure
      exact .cons hvalue (ih hothers)

/-- What the body of a loop ensures of its value holds of every value. -/
theorem forall_of_mapM_eq_ok {items : List α} {body : α → Except ε β} {values : List β}
    {P : β → Prop} (hok : items.mapM body = .ok values)
    (hbody : ∀ item value, body item = .ok value → P value) : ∀ value ∈ values, P value := by
  have hitems := forall₂_of_mapM_eq_ok hok
  clear hok
  induction hitems with
  | nil => exact fun _ hnone => by cases hnone
  | cons hhead _ ih => exact List.forall_mem_cons.mpr ⟨hbody _ _ hhead, ih⟩

/-- A loop whose body, when it does not throw, computes `value`. -/
theorem eq_map_of_mapM_eq_ok {items : List α} {body : α → Except ε β} {values : List β}
    {value : α → β} (hok : items.mapM body = .ok values)
    (hbody : ∀ item result, body item = .ok result → result = value item) :
    values = items.map value := by
  have hitems := forall₂_of_mapM_eq_ok hok
  clear hok
  induction hitems with
  | nil => rfl
  | cons hhead _ ih => rw [List.map_cons, ← hbody _ _ hhead, ← ih]

theorem exists_of_mapM_eq_ok {items : List α} {body : α → Except ε β} {values : List β}
    (hok : items.mapM body = .ok values) {item : α} (hmem : item ∈ items) :
    ∃ value, body item = .ok value := by
  have hitems := forall₂_of_mapM_eq_ok hok
  clear hok
  induction hitems with
  | nil => cases hmem
  | cons hhead _ ih =>
      rcases List.mem_cons.mp hmem with rfl | htail
      · exact ⟨_, hhead⟩
      · exact ih htail

end StellarSettle.Checks
