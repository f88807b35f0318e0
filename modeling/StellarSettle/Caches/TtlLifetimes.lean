import StellarSettle.Caches.TtlReference
import StellarSettle.Core.FoldedRuns

/-!
# How long a cache with Redis answers

A `set` stores its text in Redis and in the map of the process, each with the lifetime of the
value.  A read that Redis answers leaves a copy in the map, which answers when Redis fails.

A value is due at the expiry that its `set` computed.  Redis answers with no value that is due;
it may lose one before.  It may carry out a call and fail all the same.
-/

namespace StellarSettle.TtlCache

open StellarSettle.FoldedRuns
open StellarSettle.InsertionOrder
open StellarSettle.Numbers

/-! ## The two stores -/

/-- A text in Redis, and when its value is due. -/
structure Stored where
  raw : String
  due : JsNumber

/-- `due` is when the value in the map under a key is due; no step depends on it. -/
structure World where
  memory : Memory := .empty
  redis : String → Option Stored := fun _ => none
  due : String → JsNumber := fun _ => .nan

/-- A call, with whether Redis carries it out.  Redis may also lose a text. -/
inductive Event (Value : Type*) where
  | set (key : String) (value : Value) (ttlSeconds : Option JsNumber) (now prunedAt : JsNumber)
      (applied : Bool)
  | get (key : String) (now : JsNumber) (answered : Bool)
  | delete (key : String) (applied : Bool)
  | lose (namespaced : String)

def World.inRedis (world : World) (namespaced : String) (now : JsNumber) : Option Stored :=
  (world.redis namespaced).filter fun stored => !stored.due.lt now

/-- What Redis replies to a read. -/
def World.reply (world : World) (namespaced : String) (now : JsNumber) :
    (answered : Bool) → RedisReply
  | true => .replied ((world.inRedis namespaced now).map Stored.raw)
  | false => .unavailable

/-- When the value that a read returns is due. -/
def World.dueOf (world : World) (namespaced : String) (now : JsNumber) :
    (answered : Bool) → JsNumber
  | true => ((world.inRedis namespaced now).map Stored.due).getD (world.due namespaced)
  | false => world.due namespaced

/-- Redis after a call that it carries out or not. -/
def World.writeRedis (world : World) (applied : Bool) (namespaced : String)
    (stored : Option Stored) : String → Option Stored :=
  if applied then Function.update world.redis namespaced stored else world.redis

variable {Value : Type*} (json : Json Value) (options : TtlCacheOptions)

def step (world : World) : Event Value → World
  | .set key value ttlSeconds now prunedAt applied =>
      if options.enabled = false then world
      else
        let namespaced := buildKey options key
        let due := expiryOf now (ttlSeconds.getD (.finite options.ttlSeconds))
        { memory := set json options world.memory key value ttlSeconds now prunedAt
          redis := world.writeRedis applied namespaced (some ⟨json.stringify value, due⟩)
          due := Function.update world.due namespaced due }
  | .get key now answered =>
      let namespaced := buildKey options key
      { world with
        memory :=
          (get json options world.memory (world.reply namespaced now answered) key now).1
        due := Function.update world.due namespaced (world.dueOf namespaced now answered) }
  | .delete key applied =>
      { world with
        memory := delete options world.memory key
        redis := world.writeRedis applied (buildKey options key) none }
  | .lose namespaced => { world with redis := world.writeRedis true namespaced none }

def worldAfter (events : List (Event Value)) : World := events.foldl (step json options) {}

/-- A read returns a value that is due. -/
def Late (world : World) (key : String) (now : JsNumber) (answered : Bool) : Prop :=
  (get json options world.memory (world.reply (buildKey options key) now answered) key
      now).2.isSome = true ∧
    (world.dueOf (buildKey options key) now answered).lt now = true

instance (world : World) (key : String) (now : JsNumber) (answered : Bool) :
    Decidable (Late json options world key now answered) :=
  inferInstanceAs (Decidable (_ ∧ _))

/-- What expires at `expiresAt` has expired whenever its value is due. -/
def EndsBy (expiresAt due : JsNumber) : Prop :=
  ∀ now : JsNumber, due.lt now = true → expiresAt.lt now = true

/-- The copy that a hit in Redis leaves in the map, for the lifetime of the cache from then on,
ends by the time its value is due. -/
def KeepsLifetime (world : World) : Event Value → Prop
  | .get key now true => ∀ stored ∈ world.inRedis (buildKey options key) now,
      EndsBy (expiryOf now (.finite options.ttlSeconds)) stored.due
  | _ => True

/-! ## What always holds -/

/-- Both stores hold texts of values, and nothing when the cache is disabled. -/
structure Sound (world : World) : Prop where
  memory : ∀ entry ∈ world.memory.entries, options.enabled = true ∧ ∃ key value,
    entry.1 = buildKey options key ∧ entry.2.value = json.stringify value
  redis : ∀ namespaced stored, world.redis namespaced = some stored →
    options.enabled = true ∧ ∃ value, stored.raw = json.stringify value

/-- The entries of the map end by the time their values are due. -/
def EntriesEnd (world : World) : Prop :=
  ∀ entry ∈ world.memory.entries, EndsBy entry.2.expiresAt (world.due entry.1)

def OnTime (world : World) : Prop := Sound json options world ∧ EntriesEnd world

variable {json : Json Value} {options : TtlCacheOptions} {world : World}

section Replies

variable {namespaced : String} {now : JsNumber} {stored : Stored}

theorem inRedis_eq_some (hstored : world.inRedis namespaced now = some stored) :
    world.redis namespaced = some stored ∧ stored.due.lt now = false := by
  simpa [World.inRedis, Option.filter_eq_some_iff] using hstored

/-- What is in Redis after a call was there, or is what the call stores. -/
theorem writeRedis_eq_some {applied : Bool} {other : String} {written : Option Stored}
    (hstored : world.writeRedis applied namespaced written other = some stored) :
    written = some stored ∨ world.redis other = some stored := by
  cases applied with
  | false => exact .inr hstored
  | true =>
      rw [World.writeRedis, if_pos rfl] at hstored
      by_cases hsame : other = namespaced
      · rw [hsame, Function.update_self] at hstored
        exact .inl hstored
      · rw [Function.update_of_ne hsame] at hstored
        exact .inr hstored

theorem get_of_inRedis (hsound : Sound json options world) {key : String}
    (hstored : world.inRedis (buildKey options key) now = some stored) :
    ∃ value, get json options world.memory (world.reply (buildKey options key) now true) key now =
      (remember options world.memory (buildKey options key) stored.raw none now, some value) := by
  obtain ⟨henabled, value, hraw⟩ := hsound.redis _ _ (inRedis_eq_some hstored).1
  have hparse : json.parse stored.raw = some (json.image value) := by
    rw [hraw, json.parse_stringify]
  refine ⟨json.image value, ?_⟩
  rw [get, if_neg (not_disabled henabled), World.reply, hstored]
  simp only [Option.map_some, hparse]

theorem get_of_not_inRedis {key : String}
    (hnone : world.inRedis (buildKey options key) now = none) :
    get json options world.memory (world.reply (buildKey options key) now true) key now =
      (world.memory, none) := by
  rw [get, World.reply, hnone]
  split <;> rfl

end Replies

/-- Every step leaves texts of values in both stores. -/
theorem Sound.step (hsound : Sound json options world) (event : Event Value) :
    Sound json options (step json options world event) := by
  cases event with
  | set key value ttlSeconds now prunedAt applied =>
      rw [TtlCache.step]
      split
      · exact hsound
      · rename_i henabled
        constructor
        · intro entry hentry
          rcases mem_of_mem_set henabled hentry with ⟨hold, -⟩ | rfl
          · exact hsound.memory entry hold
          · exact ⟨eq_true_of_ne_false henabled, key, value, rfl, rfl⟩
        · intro namespaced stored hstored
          rcases writeRedis_eq_some hstored with hwritten | hold
          · obtain rfl := Option.some.inj hwritten
            exact ⟨eq_true_of_ne_false henabled, value, rfl⟩
          · exact hsound.redis namespaced stored hold
  | get key now answered =>
      refine ⟨?_, hsound.redis⟩
      intro entry hentry
      cases answered with
      | false =>
          rw [TtlCache.step, get, World.reply] at hentry
          split at hentry
          · exact hsound.memory entry hentry
          · exact hsound.memory entry (mem_of_mem_getFromMemory hentry)
      | true =>
          rw [TtlCache.step] at hentry
          cases hredis : world.inRedis (buildKey options key) now with
          | none =>
              rw [get_of_not_inRedis hredis] at hentry
              exact hsound.memory entry hentry
          | some stored =>
              obtain ⟨value, hget⟩ := get_of_inRedis hsound hredis
              rw [hget] at hentry
              rcases mem_of_mem_remember hentry with ⟨hold, -⟩ | rfl
              · exact hsound.memory entry hold
              · obtain ⟨henabled, text, htext⟩ := hsound.redis _ _ (inRedis_eq_some hredis).1
                exact ⟨henabled, key, text, rfl, htext⟩
  | delete key applied =>
      constructor
      · intro entry hentry
        exact hsound.memory entry (mem_of_mem_delete hentry)
      · intro namespaced stored hstored
        exact hsound.redis namespaced stored
          ((writeRedis_eq_some hstored).resolve_left (Option.some_ne_none stored).symm)
  | lose lost =>
      refine ⟨hsound.memory, ?_⟩
      intro namespaced stored hstored
      change world.writeRedis true lost none namespaced = some stored at hstored
      exact hsound.redis namespaced stored
        ((writeRedis_eq_some hstored).resolve_left (Option.some_ne_none stored).symm)

/-! ## Late answers -/

/-- No read is late, at any time and whether Redis answers or not, exactly when the entries of
the map end in time. -/
theorem not_late_iff (hsound : Sound json options world) :
    (∀ key now answered, ¬Late json options world key now answered) ↔ EntriesEnd world := by
  constructor
  · intro hpunctual entry hentry now hdue
    by_contra hlive
    obtain ⟨namespaced, entry⟩ := entry
    obtain ⟨henabled, key, value, rfl, htext⟩ := hsound.memory _ hentry
    apply hpunctual key now false
    refine ⟨?_, hdue⟩
    have hparse : json.parse entry.value = some (json.image value) := by
      rw [htext, json.parse_stringify]
    rw [World.reply, get_unavailable henabled]
    rw [getFromMemory_of_live (InsertionMap.find?_eq_some.mpr hentry)
      (eq_false_of_ne_true hlive) hparse]
    rfl
  · rintro hends key now answered ⟨hfound, hdue⟩
    cases answered with
    | true =>
        cases hredis : world.inRedis (buildKey options key) now with
        | none =>
            rw [get_of_not_inRedis hredis] at hfound
            cases hfound
        | some stored =>
            rw [World.dueOf, hredis] at hdue
            exact absurd (hdue.symm.trans (inRedis_eq_some hredis).2) (by decide)
    | false =>
        have hmemory : (getFromMemory json world.memory (buildKey options key) now).2.isSome := by
          rw [get] at hfound
          split at hfound
          · cases hfound
          · exact hfound
        obtain ⟨entry, hentry, hlive⟩ := exists_live_of_getFromMemory hmemory
        exact absurd ((hends _ hentry now hdue).symm.trans hlive) (by decide)

/-- A step keeps the entries of the map ending in time exactly when it is no hit in Redis whose
copy outlives its value. -/
theorem entriesEnd_step_iff (hsound : Sound json options world) (hends : EntriesEnd world)
    (event : Event Value) :
    EntriesEnd (step json options world event) ↔ KeepsLifetime options world event := by
  cases event with
  | set key value ttlSeconds now prunedAt applied =>
      refine iff_of_true ?_ trivial
      rw [step]
      split
      · exact hends
      · rename_i henabled
        intro entry hentry
        dsimp only
        rcases mem_of_mem_set henabled hentry with ⟨hold, hother⟩ | rfl
        · rw [Function.update_of_ne hother]
          exact hends entry hold
        · rw [Function.update_self]
          exact fun _ => id
  | get key now answered =>
      cases answered with
      | false =>
          refine iff_of_true ?_ trivial
          intro entry hentry
          rw [step, World.dueOf, Function.update_eq_self]
          apply hends entry
          rw [step, get] at hentry
          split at hentry
          · exact hentry
          · exact mem_of_mem_getFromMemory hentry
      | true =>
          cases hredis : world.inRedis (buildKey options key) now with
          | none =>
              refine iff_of_true ?_ ?_
              · intro entry hentry
                rw [step, get_of_not_inRedis hredis] at hentry
                rw [step, World.dueOf, hredis, Option.map_none, Option.getD_none,
                  Function.update_eq_self]
                exact hends entry hentry
              · rw [KeepsLifetime, hredis]
                intro stored hstored
                cases hstored
          | some stored =>
              obtain ⟨value, hget⟩ := get_of_inRedis hsound hredis
              have hdue : (step json options world (.get key now true)).due =
                  Function.update world.due (buildKey options key) stored.due := by
                rw [step, World.dueOf, hredis, Option.map_some, Option.getD_some]
              have hmemory : (step json options world (.get key now true)).memory =
                  remember options world.memory (buildKey options key) stored.raw none now := by
                rw [step, hget]
              rw [EntriesEnd, hmemory, hdue, KeepsLifetime, hredis]
              constructor
              · intro hkeeps other hother
                obtain rfl := Option.some.inj hother
                have hcopy := hkeeps _ (mem_remember_self none)
                rw [Function.update_self] at hcopy
                exact hcopy
              · intro hkeeps entry hentry
                rcases mem_of_mem_remember hentry with ⟨hold, hother⟩ | rfl
                · rw [Function.update_of_ne hother]
                  exact hends entry hold
                · rw [Function.update_self]
                  exact hkeeps stored rfl
  | delete key applied =>
      refine iff_of_true ?_ trivial
      exact fun entry hentry => hends entry (mem_of_mem_delete hentry)
  | lose namespaced => exact iff_of_true hends trivial

theorem sound_empty : Sound json options {} where
  memory := fun _ hentry => absurd hentry List.not_mem_nil
  redis := fun _ _ hstored => absurd hstored (Option.some_ne_none _).symm

theorem entriesEnd_empty : EntriesEnd {} := fun _ hentry => absurd hentry List.not_mem_nil

theorem sound_worldAfter (events : List (Event Value)) :
    Sound json options (worldAfter json options events) := by
  induction events using List.reverseRecOn with
  | nil => exact sound_empty
  | append_singleton events event ih =>
      rw [worldAfter, List.foldl_append]
      exact ih.step event

/-- After every part of a run no read is late, whatever its time and whether Redis answers it or
not, exactly when no hit in Redis leaves a copy that outlives its value. -/
theorem reads_punctual_iff (json : Json Value) (options : TtlCacheOptions)
    (events : List (Event Value)) :
    (∀ front, front <+: events → ∀ key now answered,
        ¬Late json options (worldAfter json options front) key now answered) ↔
      ∀ front event rest, events = front ++ event :: rest →
        KeepsLifetime options (worldAfter json options front) event := by
  have hexact : ∀ {world : World} {event : Event Value}, OnTime json options world →
      (OnTime json options (step json options world event) ↔
        KeepsLifetime options world event) := by
    rintro world event ⟨hsound, hends⟩
    rw [OnTime, and_iff_right (hsound.step event)]
    exact entriesEnd_step_iff hsound hends event
  have hfirst : OnTime json options {} := ⟨sound_empty, entriesEnd_empty⟩
  refine Iff.trans (forall₂_congr fun front hfront => ?_)
    (foldl_invariant_iff hexact hfirst events)
  rw [not_late_iff (sound_worldAfter front)]
  exact (and_iff_right (sound_worldAfter front)).symm

/-- A value for a second is returned a second and a half after it was set, when a read that
Redis answered came between. -/
theorem hit_restarts_lifetime :
    Late booleans oneEntry
      (worldAfter booleans oneEntry
        [.set "key" true none (millisecond 0 (by decide)) (millisecond 0 (by decide)) true,
          .get "key" (millisecond 900 (by decide)) true])
      "key" (millisecond 1500 (by decide)) false := by
  decide +kernel

end StellarSettle.TtlCache
