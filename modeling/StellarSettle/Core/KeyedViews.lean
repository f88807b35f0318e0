import Mathlib.Algebra.Order.Group.Int
import Mathlib.Data.List.Induction
import StellarSettle.Core.FoldedRuns
import StellarSettle.Core.InsertionOrder

/-!
# Views under keys that an event deletes

A service answers a query from its cache, or computes a view from its tables and stores it
under a key of the query.  An event changes the tables of some owners and deletes keys.  A view
that was stored before an event of its owner must not be served after it: this is so exactly
when each event deletes the keys under which views of its owners are live.
-/

namespace StellarSettle.KeyedViews

open StellarSettle.FoldedRuns
open StellarSettle.InsertionOrder

/-- What a service does.  `compute` and `ingest` get the time of the call; a query may throw,
and an event throws when it leaves no keys to delete. -/
structure Service (Tables Query Event View Owner : Type*) where
  key : Query → String
  owner : Query → Owner
  serves : View → Bool
  lifetime : ℤ
  compute : Tables → Query → ℤ → Option View
  ingest : Tables → Event → ℤ → Tables × Option (List String)
  owners : Event → List Owner

/-- `storedAt` is the number of the call that stored a view; no step depends on it. -/
structure Entry (View : Type*) where
  data : View
  expiresAt : ℤ
  storedAt : ℕ

/-- `lastEvent` is the number of the last call that returned from an event of an owner, out of
`count` so far; no step depends on it. -/
structure World (Tables View Owner : Type*) where
  tables : Tables
  now : ℤ
  cache : InsertionMap String (Entry View) := .empty
  count : ℕ := 0
  lastEvent : Owner → ℕ := fun _ => 0

/-- A call, with the time since the last one, and the time that a query takes. -/
inductive Call (Query Event : Type*) where
  | read (query : Query) (elapsed loading : ℕ)
  | ingest (event : Event) (elapsed : ℕ)

variable {Tables Query Event View Owner : Type*} [DecidableEq Owner]
variable (service : Service Tables Query Event View Owner)

/-- The entry that a query is served from at a time. -/
def served (world : World Tables View Owner) (query : Query) (now : ℤ) : Option (Entry View) :=
  (world.cache.find? (service.key query)).filter fun entry =>
    decide (now ≤ entry.expiresAt) && service.serves entry.data

/-- An expired entry is deleted when it is asked for. -/
def dropExpired (cache : InsertionMap String (Entry View)) (key : String) (now : ℤ) :
    InsertionMap String (Entry View) :=
  match cache.find? key with
  | some entry => if entry.expiresAt < now then cache.delete key else cache
  | none => cache

def deleteAll (cache : InsertionMap String (Entry View)) (keys : List String) :
    InsertionMap String (Entry View) :=
  keys.foldl InsertionMap.delete cache

def step (world : World Tables View Owner) : Call Query Event → World Tables View Owner
  | .read query elapsed loading =>
      let now := world.now + elapsed
      let cache := dropExpired world.cache (service.key query) now
      match served service world query now with
      | some _ => { world with now := now, count := world.count + 1 }
      | none =>
          match service.compute world.tables query now with
          | none => { world with now := now, cache := cache, count := world.count + 1 }
          | some view =>
              { world with
                now := now + loading
                cache := cache.set (service.key query)
                  ⟨view, now + loading + service.lifetime, world.count⟩
                count := world.count + 1 }
  | .ingest event elapsed =>
      let now := world.now + elapsed
      match service.ingest world.tables event now with
      | (tables, none) => { world with tables := tables, now := now, count := world.count + 1 }
      | (tables, some keys) =>
          { tables := tables
            now := now
            cache := deleteAll world.cache keys
            count := world.count + 1
            lastEvent := fun owner =>
              if owner ∈ service.owners event then world.count else world.lastEvent owner }

def worldAfter (tables : Tables) (now : ℤ) (calls : List (Call Query Event)) :
    World Tables View Owner :=
  calls.foldl (step service) { tables := tables, now := now }

/-- No query is served a view from before the last event of its owner, now or later. -/
def ServesFresh (world : World Tables View Owner) : Prop :=
  ∀ query (elapsed : ℕ), ∀ entry ∈ served service world query (world.now + elapsed),
    world.lastEvent (service.owner query) ≤ entry.storedAt

/-- An event that returns deletes the keys of all live views of its owners. -/
def DeletesLive (world : World Tables View Owner) : Call Query Event → Prop
  | .ingest event elapsed =>
      ∀ keys ∈ (service.ingest world.tables event (world.now + elapsed)).2, ∀ query,
        service.owner query ∈ service.owners event →
          (served service world query (world.now + elapsed)).isSome = true →
            service.key query ∈ keys
  | .read _ _ _ => True

/-! ## The cache -/

section Cache

omit [DecidableEq Owner]

variable {service : Service Tables Query Event View Owner} {world : World Tables View Owner}
  {query : Query} {now later : ℤ} {cache : InsertionMap String (Entry View)}
  {entry : Entry View} {key : String}

theorem served_eq_some : served service world query now = some entry ↔
    world.cache.find? (service.key query) = some entry ∧ now ≤ entry.expiresAt ∧
      service.serves entry.data = true := by
  rw [served, Option.filter_eq_some_iff, Bool.and_eq_true, decide_eq_true_eq]

/-- What is served later is served now. -/
theorem served_of_later (hlater : now ≤ later)
    (hserved : served service world query later = some entry) :
    served service world query now = some entry := by
  obtain ⟨hfind, hlive, hserves⟩ := served_eq_some.mp hserved
  exact served_eq_some.mpr ⟨hfind, hlater.trans hlive, hserves⟩

theorem find?_deleteAll (keys : List String) : (deleteAll cache keys).find? key =
    if key ∈ keys then none else cache.find? key := by
  induction keys generalizing cache with
  | nil => rfl
  | cons first rest ih =>
      rw [deleteAll, List.foldl_cons, ← deleteAll, ih, InsertionMap.find?_delete]
      by_cases hrest : key ∈ rest
      · simp [hrest]
      · simp [hrest]

theorem find?_of_dropExpired {dropped : String}
    (hfind : (dropExpired cache dropped now).find? key = some entry) :
    cache.find? key = some entry := by
  rw [dropExpired] at hfind
  split at hfind
  · split at hfind
    · rw [InsertionMap.find?_delete] at hfind
      split at hfind
      · cases hfind
      · exact hfind
    · exact hfind
  · exact hfind

end Cache

/-! ## Fresh views -/

/-- Views and events were stored and returned in calls so far. -/
structure Numbered (world : World Tables View Owner) : Prop where
  stored : ∀ key entry, world.cache.find? key = some entry → entry.storedAt < world.count
  events : ∀ owner, world.lastEvent owner ≤ world.count

def Fresh (world : World Tables View Owner) : Prop :=
  Numbered world ∧ ∀ query entry, served service world query world.now = some entry →
    world.lastEvent (service.owner query) ≤ entry.storedAt

variable {service} {world : World Tables View Owner}

omit [DecidableEq Owner] in
theorem fresh_iff (hnumbered : Numbered world) :
    Fresh service world ↔ ServesFresh service world := by
  constructor
  · intro hfresh query elapsed entry hentry
    exact hfresh.2 query entry
      (served_of_later (le_add_of_nonneg_right (Int.natCast_nonneg elapsed)) hentry)
  · intro hserves
    refine ⟨hnumbered, fun query entry hentry => hserves query 0 entry ?_⟩
    rwa [Nat.cast_zero, add_zero]

/-- The worlds that a query may leave. -/
theorem step_read (service : Service Tables Query Event View Owner)
    (world : World Tables View Owner) (query : Query) (elapsed loading : ℕ) :
    (step service world (.read query elapsed loading)).tables = world.tables ∧
      (step service world (.read query elapsed loading)).lastEvent = world.lastEvent ∧
      (step service world (.read query elapsed loading)).count = world.count + 1 ∧
      world.now ≤ (step service world (.read query elapsed loading)).now ∧
      ∀ key entry, (step service world (.read query elapsed loading)).cache.find? key =
        some entry → world.cache.find? key = some entry ∨ entry.storedAt = world.count := by
  have hlater : world.now ≤ world.now + elapsed :=
    le_add_of_nonneg_right (Int.natCast_nonneg elapsed)
  rw [step]
  split
  · exact ⟨rfl, rfl, rfl, hlater, fun _ _ => .inl⟩
  · split
    · exact ⟨rfl, rfl, rfl, hlater, fun _ _ hfind => .inl (find?_of_dropExpired hfind)⟩
    · refine ⟨rfl, rfl, rfl, hlater.trans (le_add_of_nonneg_right (Int.natCast_nonneg loading)),
        ?_⟩
      intro key entry hfind
      dsimp only at hfind
      rw [InsertionMap.find?_set] at hfind
      split at hfind
      · obtain rfl := Option.some.inj hfind
        exact .inr rfl
      · exact .inl (find?_of_dropExpired hfind)

theorem numbered_step (hnumbered : Numbered world) (call : Call Query Event) :
    Numbered (step service world call) := by
  cases call with
  | read query elapsed loading =>
      obtain ⟨-, hevents, hcount, -, hcache⟩ := step_read service world query elapsed loading
      constructor
      · intro key entry hfind
        rw [hcount]
        rcases hcache key entry hfind with hold | hnew
        · exact (hnumbered.stored key entry hold).trans (Nat.lt_succ_self _)
        · exact hnew.trans_lt (Nat.lt_succ_self _)
      · intro owner
        rw [hevents, hcount]
        exact (hnumbered.events owner).trans (Nat.le_succ _)
  | ingest event elapsed =>
      rw [step]
      split
      · exact ⟨fun key entry hfind => (hnumbered.stored key entry hfind).trans
          (Nat.lt_succ_self _), fun owner => (hnumbered.events owner).trans (Nat.le_succ _)⟩
      · constructor
        · intro key entry hfind
          dsimp only at hfind
          rw [find?_deleteAll] at hfind
          split at hfind
          · cases hfind
          · exact (hnumbered.stored key entry hfind).trans (Nat.lt_succ_self _)
        · intro owner
          dsimp only
          split
          · exact Nat.le_succ _
          · exact (hnumbered.events owner).trans (Nat.le_succ _)

/-- A call keeps the views fresh exactly when it is no event that leaves a live view of one of
its owners. -/
theorem fresh_step_iff (hfresh : Fresh service world) (call : Call Query Event) :
    Fresh service (step service world call) ↔ DeletesLive service world call := by
  have hnumbered : Numbered (step service world call) := numbered_step hfresh.1 call
  cases call with
  | read query elapsed loading =>
      refine iff_of_true ⟨hnumbered, ?_⟩ trivial
      obtain ⟨-, hevents, -, hnow, hcache⟩ := step_read service world query elapsed loading
      intro other entry hserved
      obtain ⟨hfind, hlive, hserves⟩ := served_eq_some.mp hserved
      rw [hevents]
      rcases hcache _ entry hfind with hold | hnew
      · exact hfresh.2 other entry (served_eq_some.mpr ⟨hold, hnow.trans hlive, hserves⟩)
      · rw [hnew]
        exact hfresh.1.events _
  | ingest event elapsed =>
      have hlater : world.now ≤ world.now + elapsed :=
        le_add_of_nonneg_right (Int.natCast_nonneg elapsed)
      rw [Fresh, and_iff_right hnumbered, step, DeletesLive]
      cases hingest : service.ingest world.tables event (world.now + elapsed) with
      | mk tables deleted =>
          cases deleted with
          | none =>
              refine iff_of_true ?_ nofun
              intro query entry hserved
              exact hfresh.2 query entry (served_of_later hlater hserved)
          | some keys =>
              dsimp only
              constructor
              · intro hserves other hkeys query howner hsome
                obtain rfl := Option.some.inj hkeys
                obtain ⟨entry, hentry⟩ := Option.isSome_iff_exists.mp hsome
                obtain ⟨hfind, hlive⟩ := served_eq_some.mp hentry
                by_contra hkept
                have hleft := hserves query entry (served_eq_some.mpr
                  ⟨(find?_deleteAll keys).trans ((if_neg hkept).trans hfind), hlive⟩)
                rw [if_pos howner] at hleft
                exact absurd (hfresh.1.stored _ entry hfind) (not_lt.mpr hleft)
              · intro hdeletes query entry hserved
                obtain ⟨hfind, hlive⟩ := served_eq_some.mp hserved
                dsimp only at hfind
                rw [find?_deleteAll] at hfind
                split at hfind
                · cases hfind
                · rename_i hkept
                  have hbefore : served service world query (world.now + elapsed) = some entry :=
                    served_eq_some.mpr ⟨hfind, hlive⟩
                  have hother : service.owner query ∉ service.owners event := fun howner =>
                    hkept (hdeletes keys rfl query howner
                      (Option.isSome_iff_exists.mpr ⟨_, hbefore⟩))
                  rw [if_neg hother]
                  exact hfresh.2 query entry (served_of_later hlater hbefore)

theorem numbered_worldAfter (service : Service Tables Query Event View Owner) (tables : Tables)
    (now : ℤ) (calls : List (Call Query Event)) :
    Numbered (worldAfter service tables now calls) := by
  induction calls using List.reverseRecOn with
  | nil => exact ⟨fun _ _ hfind => absurd hfind (Option.some_ne_none _).symm, fun _ => le_rfl⟩
  | append_singleton calls call ih =>
      rw [worldAfter, List.foldl_append]
      exact numbered_step ih call

/-- After every part of a run no query is served a view from before an event of its owner,
exactly when each event deletes the live views of its owners. -/
theorem servesFresh_iff (service : Service Tables Query Event View Owner) (tables : Tables)
    (now : ℤ) (calls : List (Call Query Event)) :
    (∀ front, front <+: calls → ServesFresh service (worldAfter service tables now front)) ↔
      ∀ front call rest, calls = front ++ call :: rest →
        DeletesLive service (worldAfter service tables now front) call := by
  have hempty := numbered_worldAfter service tables now []
  have hfirst : Fresh service ({ tables := tables, now := now } : World Tables View Owner) :=
    (fresh_iff hempty).mpr fun query elapsed entry hentry =>
      absurd (served_eq_some.mp hentry).1 (Option.some_ne_none entry).symm
  have hexact : ∀ {world : World Tables View Owner} {call : Call Query Event},
      Fresh service world →
        (Fresh service (step service world call) ↔ DeletesLive service world call) :=
    fun hfresh => fresh_step_iff hfresh _
  refine Iff.trans (forall₂_congr fun front _ => ?_) (foldl_invariant_iff hexact hfirst calls)
  exact (fresh_iff (numbered_worldAfter service tables now front)).symm

end StellarSettle.KeyedViews
