import Mathlib.Data.Finset.Card

/-!
# Keys with one owner

A registry gives every key at most one owner.  A claim registers a key for an
owner, changes nothing when the owner has it already, and fails when another
owner has it.  A list of demands can be registered exactly when no key is
demanded by two owners.
-/

namespace StellarSettle.OwnershipRegistry

variable {Key Owner : Type*} [DecidableEq Key] [DecidableEq Owner]

/-- The registered keys, each with its owner. -/
abbrev Registry (Key Owner : Type*) := List (Key × Owner)

def ownerOf (registry : Registry Key Owner) (key : Key) : Option Owner :=
  (registry.find? fun entry => entry.1 == key).map Prod.snd

/-- No key is registered twice. -/
def UniqueKeys (registry : Registry Key Owner) : Prop := (registry.map Prod.fst).Nodup

instance (registry : Registry Key Owner) : Decidable (UniqueKeys registry) :=
  inferInstanceAs (Decidable (List.Nodup _))

/-- Every demanded key is registered for the one who demands it. -/
def Registered (registry : Registry Key Owner) (demands : List (Key × Owner)) : Prop :=
  ∀ demand ∈ demands, ownerOf registry demand.1 = some demand.2

instance (registry : Registry Key Owner) (demands : List (Key × Owner)) :
    Decidable (Registered registry demands) :=
  inferInstanceAs (Decidable (∀ demand ∈ demands, _))

/-- Two owners demand one key. -/
def Conflicting (demands : List (Key × Owner)) : Prop :=
  ∃ first ∈ demands, ∃ second ∈ demands, first.1 = second.1 ∧ first.2 ≠ second.2

instance (demands : List (Key × Owner)) : Decidable (Conflicting demands) :=
  inferInstanceAs (Decidable (∃ first ∈ demands, _))

/-! ## Look-ups -/

omit [DecidableEq Owner] in
theorem ownerOf_eq_none {registry : Registry Key Owner} {key : Key} :
    ownerOf registry key = none ↔ ∀ entry ∈ registry, entry.1 ≠ key := by
  simp [ownerOf]

omit [DecidableEq Owner] in
theorem ownerOf_of_mem {registry : Registry Key Owner} (hunique : UniqueKeys registry)
    {key : Key} {owner : Owner} (hmem : (key, owner) ∈ registry) :
    ownerOf registry key = some owner := by
  induction registry with
  | nil => cases hmem
  | cons entry rest ih =>
      obtain ⟨hfresh, hrest⟩ := List.nodup_cons.mp hunique
      rcases List.mem_cons.mp hmem with rfl | htail
      · simp [ownerOf]
      · have hne : entry.1 ≠ key := fun hsame =>
          hfresh (hsame ▸ List.mem_map_of_mem htail)
        simpa [ownerOf, hne] using ih hrest htail

omit [DecidableEq Owner] in
theorem ownerOf_append (registry added : Registry Key Owner) (key : Key) :
    ownerOf (registry ++ added) key = (ownerOf registry key).or (ownerOf added key) := by
  rw [ownerOf, List.find?_append, ownerOf, ownerOf]
  cases registry.find? fun entry => entry.1 == key <;> rfl

/-! ## Claims -/

/-- Register a key, unless another owner has it. -/
def claim (registry : Registry Key Owner) (key : Key) (owner : Owner) :
    Option (Registry Key Owner) :=
  match ownerOf registry key with
  | none => some (registry ++ [(key, owner)])
  | some holder => if holder = owner then some registry else none

/-- Claim a list of demands, all or nothing. -/
def claimAll : Registry Key Owner → List (Key × Owner) → Option (Registry Key Owner)
  | registry, [] => some registry
  | registry, demand :: rest =>
      (claim registry demand.1 demand.2).bind fun next => claimAll next rest

theorem claim_eq_some {registry after : Registry Key Owner} {key : Key} {owner : Owner} :
    claim registry key owner = some after ↔
      (ownerOf registry key = none ∧ after = registry ++ [(key, owner)]) ∨
        (ownerOf registry key = some owner ∧ after = registry) := by
  rw [claim]
  cases hholder : ownerOf registry key with
  | none => simp [eq_comm]
  | some holder =>
      by_cases howner : holder = owner
      · simp [howner, eq_comm]
      · simp [howner]

/-- What the registry still says and what it says now. -/
structure Extends (registry after : Registry Key Owner) : Prop where
  keeps : ∀ key owner, ownerOf registry key = some owner → ownerOf after key = some owner
  unique : UniqueKeys registry → UniqueKeys after

omit [DecidableEq Owner] in
theorem Extends.refl (registry : Registry Key Owner) : Extends registry registry :=
  ⟨fun _ _ howner => howner, id⟩

omit [DecidableEq Owner] in
theorem Extends.trans {first second third : Registry Key Owner} (hfirst : Extends first second)
    (hsecond : Extends second third) : Extends first third :=
  ⟨fun key owner howner => hsecond.keeps key owner (hfirst.keeps key owner howner),
    fun hunique => hsecond.unique (hfirst.unique hunique)⟩

omit [DecidableEq Owner] in
theorem Extends.registered {registry after : Registry Key Owner} {demands : List (Key × Owner)}
    (hextends : Extends registry after) (hregistered : Registered registry demands) :
    Registered after demands :=
  fun demand hmem => hextends.keeps _ _ (hregistered demand hmem)

theorem extends_claim {registry after : Registry Key Owner} {key : Key} {owner : Owner}
    (hclaim : claim registry key owner = some after) :
    Extends registry after ∧ ownerOf after key = some owner := by
  rcases claim_eq_some.mp hclaim with ⟨hfree, rfl⟩ | ⟨howned, rfl⟩
  · refine ⟨⟨fun other holder hholder => ?_, fun hunique => ?_⟩, ?_⟩
    · rw [ownerOf_append, hholder, Option.some_or]
    · rw [UniqueKeys, List.map_append, List.nodup_append]
      refine ⟨hunique, List.nodup_singleton _, fun other hother new hnew hsame => ?_⟩
      obtain ⟨entry, hentry, rfl⟩ := List.mem_map.mp hother
      obtain rfl := List.mem_singleton.mp hnew
      exact ownerOf_eq_none.mp hfree entry hentry hsame
    · rw [ownerOf_append, hfree, Option.none_or]
      simp [ownerOf]
  · exact ⟨.refl _, howned⟩

theorem extends_claimAll {registry after : Registry Key Owner} {demands : List (Key × Owner)}
    (hclaims : claimAll registry demands = some after) :
    Extends registry after ∧ Registered after demands := by
  induction demands generalizing registry with
  | nil =>
      obtain rfl := Option.some.inj hclaims
      exact ⟨.refl _, fun _ hmem => by cases hmem⟩
  | cons demand rest ih =>
      obtain ⟨next, hclaim, hrest⟩ := Option.bind_eq_some_iff.mp hclaims
      obtain ⟨hfirst, howner⟩ := extends_claim hclaim
      obtain ⟨hlater, hregistered⟩ := ih hrest
      refine ⟨hfirst.trans hlater, fun other hmem => ?_⟩
      rcases List.mem_cons.mp hmem with rfl | htail
      · exact hlater.keeps _ _ howner
      · exact hregistered other htail

theorem claimAll_append (registry : Registry Key Owner) (first second : List (Key × Owner)) :
    claimAll registry (first ++ second) =
      (claimAll registry first).bind fun next => claimAll next second := by
  induction first generalizing registry with
  | nil => rfl
  | cons demand rest ih =>
      rw [List.cons_append, claimAll, claimAll]
      cases claim registry demand.1 demand.2 with
      | none => rfl
      | some next => exact ih next

/-! ## A registry from a list of demands -/

/-- The first entry of every key. -/
def distinctKeys : List (Key × Owner) → Registry Key Owner
  | [] => []
  | entry :: rest => entry :: (distinctKeys rest).filter fun other => other.1 != entry.1

omit [DecidableEq Owner] in
theorem mem_of_mem_distinctKeys {demands : List (Key × Owner)} {entry : Key × Owner}
    (hmem : entry ∈ distinctKeys demands) : entry ∈ demands := by
  induction demands with
  | nil => cases hmem
  | cons head rest ih =>
      rcases List.mem_cons.mp hmem with rfl | htail
      · exact List.mem_cons_self
      · exact List.mem_cons_of_mem _ (ih (List.mem_of_mem_filter htail))

omit [DecidableEq Owner] in
theorem uniqueKeys_distinctKeys (demands : List (Key × Owner)) :
    UniqueKeys (distinctKeys demands) := by
  induction demands with
  | nil => exact List.nodup_nil
  | cons head rest ih =>
      refine List.nodup_cons.mpr ⟨fun hmem => ?_, ?_⟩
      · obtain ⟨entry, hentry, hsame⟩ := List.mem_map.mp hmem
        have hother := (List.mem_filter.mp hentry).2
        simp [hsame] at hother
      · exact (List.filter_sublist.map Prod.fst).nodup ih

omit [DecidableEq Owner] in
theorem exists_key_distinctKeys {demands : List (Key × Owner)} {demand : Key × Owner}
    (hmem : demand ∈ demands) : ∃ entry ∈ distinctKeys demands, entry.1 = demand.1 := by
  induction demands with
  | nil => cases hmem
  | cons head rest ih =>
      by_cases hsame : head.1 = demand.1
      · exact ⟨head, List.mem_cons_self, hsame⟩
      · rcases List.mem_cons.mp hmem with rfl | htail
        · exact absurd rfl hsame
        · obtain ⟨entry, hentry, hkey⟩ := ih htail
          refine ⟨entry, List.mem_cons_of_mem _ (List.mem_filter.mpr ⟨hentry, ?_⟩), hkey⟩
          simpa [hkey] using Ne.symm hsame

omit [DecidableEq Owner] in
/-- Demands without a conflict are registered, whichever entry of a key is kept. -/
theorem registered_distinctKeys {demands kept : List (Key × Owner)}
    (hsame : ∀ entry, entry ∈ kept ↔ entry ∈ demands) (hclear : ¬Conflicting demands) :
    Registered (distinctKeys kept) demands := by
  intro demand hmem
  obtain ⟨entry, hentry, hkey⟩ := exists_key_distinctKeys ((hsame demand).mpr hmem)
  have hdemanded := (hsame entry).mp (mem_of_mem_distinctKeys hentry)
  have howner : entry.2 = demand.2 := by
    by_contra hother
    exact hclear ⟨entry, hdemanded, demand, hmem, hkey, hother⟩
  rw [← hkey, ← howner]
  exact ownerOf_of_mem (uniqueKeys_distinctKeys kept) hentry

/-- Some key of the list has more than one owner among its entries. -/
def hasSharedKey (demands : List (Key × Owner)) : Bool :=
  demands.any fun demand => 1 <
    (((demands.filter fun other => other.1 == demand.1).map Prod.snd).dedup).length

theorem hasSharedKey_iff {demands : List (Key × Owner)} :
    hasSharedKey demands = true ↔ Conflicting demands := by
  have hcount : ∀ key, 1 < (((demands.filter fun other => other.1 == key).map
      Prod.snd).dedup).length ↔ ∃ first ∈ demands, ∃ second ∈ demands,
        first.1 = key ∧ second.1 = key ∧ first.2 ≠ second.2 := by
    intro key
    rw [← List.card_toFinset, Finset.one_lt_card]
    simp only [List.mem_toFinset, List.mem_map, List.mem_filter, beq_iff_eq]
    constructor
    · rintro ⟨_, ⟨first, ⟨hfirst, hkey⟩, rfl⟩, _, ⟨second, ⟨hsecond, hsame⟩, rfl⟩, howner⟩
      exact ⟨first, hfirst, second, hsecond, hkey, hsame, howner⟩
    · rintro ⟨first, hfirst, second, hsecond, hkey, hsame, howner⟩
      exact ⟨_, ⟨first, ⟨hfirst, hkey⟩, rfl⟩, _, ⟨second, ⟨hsecond, hsame⟩, rfl⟩, howner⟩
  rw [hasSharedKey, List.any_eq_true]
  constructor
  · rintro ⟨demand, _, hshared⟩
    obtain ⟨first, hfirst, second, hsecond, hkey, hsame, howner⟩ :=
      (hcount demand.1).mp (of_decide_eq_true hshared)
    exact ⟨first, hfirst, second, hsecond, hkey.trans hsame.symm, howner⟩
  · rintro ⟨first, hfirst, second, hsecond, hkey, howner⟩
    exact ⟨first, hfirst, decide_eq_true
      ((hcount first.1).mpr ⟨first, hfirst, second, hsecond, rfl, hkey.symm, howner⟩)⟩

end StellarSettle.OwnershipRegistry
