import StellarSettle.Core.InsertionOrder
import StellarSettle.Projections.Numbers

/-!
# The cache with lifetimes

Values are kept as JSON texts in a map of the process, at most `maxEntries` of them, and where
there is a Redis client also there.  Redis answers a read when it can; the map answers when
there is no client or Redis fails.  A hit is inserted again at the end, so the first entry is
the least recently used one.

Expired entries are also swept by a timer, which prunes as a caller may do at any time.
-/

namespace StellarSettle.TtlCache

open StellarSettle.InsertionOrder
open StellarSettle.Numbers

/-- The JSON texts of the values that have one.  `image` is what a value is after it was
written and read, which for a date or an undefined field is something else. -/
structure Json (Value : Type*) where
  stringify : Value → String
  parse : String → Option Value
  image : Value → Value
  parse_stringify : ∀ value, parse (stringify value) = some (image value)

def DEFAULT_MAX_ENTRIES : ℕ := 5000

/-- The options that the constructor accepts. -/
structure TtlCacheOptions where
  ttlSeconds : Double
  ttlSeconds_pos : 0 < ttlSeconds.val
  keyNamespace : String := "cache"
  enabled : Bool := true
  maxEntries : ℕ := DEFAULT_MAX_ENTRIES
  maxEntries_pos : 0 < maxEntries := by decide

structure MemoryEntry where
  value : String
  expiresAt : JsNumber
  deriving DecidableEq

abbrev Memory := InsertionMap String MemoryEntry

/-- What Redis answers to a read; `unavailable` also stands for no client. -/
inductive RedisReply where
  | unavailable
  | replied (raw : Option String)
  deriving DecidableEq, Repr

/-! ## Operations -/

/-- `now + ttl * 1000`. -/
def expiryOf (now ttl : JsNumber) : JsNumber :=
  now.add (ttl.mulBy (Double.ofInt 1000 abs_thousand_le_digits))

/-- `now > entry.expiresAt`. -/
def MemoryEntry.expired (now : JsNumber) (entry : MemoryEntry) : Bool := entry.expiresAt.lt now

variable {Value : Type*} (json : Json Value) (options : TtlCacheOptions)

def buildKey (key : String) : String := options.keyNamespace ++ ":" ++ key

/-- `key.startsWith(prefix)`. -/
def startsWith (key start : String) : Bool := start.toList.isPrefixOf key.toList

/-- Drops the expired entries, and counts them. -/
def pruneExpired (memory : Memory) (now : JsNumber) : Memory × ℕ :=
  let kept := memory.keep fun entry => !entry.2.expired now
  (kept, memory.size - kept.size)

def evictToCapacity (memory : Memory) : Memory := memory.evictTo options.maxEntries

def remember (memory : Memory) (namespaced raw : String) (ttlSeconds : Option JsNumber)
    (now : JsNumber) : Memory :=
  let ttl := ttlSeconds.getD (.finite options.ttlSeconds)
  evictToCapacity options
    (memory.reinsert namespaced { value := raw, expiresAt := expiryOf now ttl })

/-- The answer of the map of the process. -/
def getFromMemory (memory : Memory) (namespaced : String) (now : JsNumber) :
    Memory × Option Value :=
  match memory.find? namespaced with
  | none => (memory, none)
  | some entry =>
      if entry.expired now then (memory.delete namespaced, none)
      else
        let refreshed := memory.reinsert namespaced entry
        match json.parse entry.value with
        | some value => (refreshed, some value)
        | none => (refreshed.delete namespaced, none)

/-- A text of Redis that does not parse is left in the map, which then answers. -/
def get (memory : Memory) (redis : RedisReply) (key : String) (now : JsNumber) :
    Memory × Option Value :=
  if options.enabled = false then (memory, none)
  else
    let namespaced := buildKey options key
    match redis with
    | .unavailable => getFromMemory json memory namespaced now
    | .replied none => (memory, none)
    | .replied (some raw) =>
        let remembered := remember options memory namespaced raw none now
        match json.parse raw with
        | some value => (remembered, some value)
        | none => getFromMemory json remembered namespaced now

/-- The map after a `set`; the clock is read for the entry, and again to prune. -/
def set (memory : Memory) (key : String) (value : Value) (ttlSeconds : Option JsNumber)
    (now prunedAt : JsNumber) : Memory :=
  if options.enabled = false then memory
  else
    let ttl := ttlSeconds.getD (.finite options.ttlSeconds)
    let written := memory.reinsert (buildKey options key)
      { value := json.stringify value, expiresAt := expiryOf now ttl }
    evictToCapacity options (pruneExpired written prunedAt).1

def delete (memory : Memory) (key : String) : Memory :=
  if options.enabled = false then memory else memory.delete (buildKey options key)

def invalidatePrefix (memory : Memory) (start : String) : Memory :=
  memory.keep fun entry => !startsWith entry.1 (buildKey options start)

def clear (_memory : Memory) : Memory := .empty

/-! ## Facts -/

section Facts

variable {options : TtlCacheOptions} {key other : String}

theorem toList_buildKey : (buildKey options key).toList =
    (options.keyNamespace ++ ":").toList ++ key.toList := by
  rw [buildKey, String.toList_append]

theorem buildKey_injective : Function.Injective (buildKey options) := by
  intro key other hsame
  have hlists := congrArg String.toList hsame
  rw [toList_buildKey, toList_buildKey] at hlists
  exact String.toList_inj.mp (List.append_cancel_left hlists)

/-- Under one namespace, keys start with each other as without it. -/
theorem startsWith_buildKey :
    startsWith (buildKey options key) (buildKey options other) = startsWith key other := by
  rw [startsWith, startsWith, Bool.eq_iff_iff, List.isPrefixOf_iff_prefix,
    List.isPrefixOf_iff_prefix, toList_buildKey, toList_buildKey, List.prefix_append_right_inj]

theorem not_disabled (henabled : options.enabled = true) : ¬options.enabled = false := by
  rw [henabled]
  decide

theorem size_evictToCapacity_le (memory : Memory) :
    (evictToCapacity options memory).size ≤ options.maxEntries :=
  memory.size_evictTo_le options.maxEntries

theorem size_set_le (henabled : options.enabled = true) (memory : Memory) (value : Value)
    (ttlSeconds : Option JsNumber) (now prunedAt : JsNumber) :
    (set json options memory key value ttlSeconds now prunedAt).size ≤ options.maxEntries := by
  rw [set, if_neg (not_disabled henabled)]
  exact size_evictToCapacity_le _

theorem get_unavailable {json : Json Value} {memory : Memory} {now : JsNumber}
    (henabled : options.enabled = true) : get json options memory .unavailable key now =
      getFromMemory json memory (buildKey options key) now := by
  rw [get, if_neg (not_disabled henabled)]

section Reads

variable {json : Json Value} {memory : Memory} {namespaced : String} {entry : MemoryEntry}
  {now : JsNumber}

theorem getFromMemory_of_none (hfind : memory.find? namespaced = none) :
    getFromMemory json memory namespaced now = (memory, none) := by
  rw [getFromMemory, hfind]

theorem getFromMemory_of_expired (hfind : memory.find? namespaced = some entry)
    (hexpired : entry.expired now = true) :
    getFromMemory json memory namespaced now = (memory.delete namespaced, none) := by
  rw [getFromMemory, hfind]
  exact if_pos hexpired

theorem getFromMemory_of_live {value : Value} (hfind : memory.find? namespaced = some entry)
    (hlive : entry.expired now = false) (hparse : json.parse entry.value = some value) :
    getFromMemory json memory namespaced now =
      (memory.reinsert namespaced entry, some value) := by
  simp [getFromMemory, hfind, hlive, hparse]

/-- A read of the map adds no entry. -/
theorem mem_of_mem_getFromMemory {found : String × MemoryEntry}
    (hmem : found ∈ (getFromMemory json memory namespaced now).1.entries) :
    found ∈ memory.entries := by
  rw [getFromMemory] at hmem
  split at hmem
  · exact hmem
  · rename_i entry hfind
    have hentry := InsertionMap.find?_eq_some.mp hfind
    have hrefreshed : ∀ other ∈ (memory.reinsert namespaced entry).entries,
        other ∈ memory.entries := by
      intro other hother
      rcases InsertionMap.mem_reinsert.mp hother with ⟨hold, -⟩ | rfl
      · exact hold
      · exact hentry
    split at hmem
    · exact (InsertionMap.mem_delete.mp hmem).1
    · dsimp only at hmem
      split at hmem
      · exact hrefreshed found hmem
      · exact hrefreshed found (InsertionMap.mem_delete.mp hmem).1

/-- A read of the map returns a value only from an entry that has not expired. -/
theorem exists_live_of_getFromMemory
    (hfound : (getFromMemory json memory namespaced now).2.isSome = true) :
    ∃ entry, (namespaced, entry) ∈ memory.entries ∧ entry.expired now = false := by
  cases hfind : memory.find? namespaced with
  | none =>
      rw [getFromMemory_of_none hfind] at hfound
      cases hfound
  | some entry =>
      cases hexpired : entry.expired now with
      | true =>
          rw [getFromMemory_of_expired hfind hexpired] at hfound
          cases hfound
      | false => exact ⟨entry, InsertionMap.find?_eq_some.mp hfind, hexpired⟩

end Reads

section Writes

variable {memory : Memory} {namespaced raw : String} {now : JsNumber}
  {entry : String × MemoryEntry}

/-- A remembered text is there, since the map has room for an entry. -/
theorem mem_remember_self (ttlSeconds : Option JsNumber) :
    (namespaced, ⟨raw, expiryOf now (ttlSeconds.getD (.finite options.ttlSeconds))⟩) ∈
      (remember options memory namespaced raw ttlSeconds now).entries := by
  rw [remember, evictToCapacity, InsertionMap.entries_evictTo, InsertionMap.size,
    InsertionMap.entries_reinsert]
  apply List.mem_of_getLast?
  have hroom := options.maxEntries_pos
  rw [List.getLast?_drop, if_neg (by rw [List.length_append, List.length_singleton]; omega),
    List.getLast?_append_of_ne_nil _ (List.cons_ne_nil _ _), List.getLast?_singleton]

theorem mem_of_mem_remember {ttlSeconds : Option JsNumber}
    (hmem : entry ∈ (remember options memory namespaced raw ttlSeconds now).entries) :
    (entry ∈ memory.entries ∧ entry.1 ≠ namespaced) ∨ entry =
      (namespaced, ⟨raw, expiryOf now (ttlSeconds.getD (.finite options.ttlSeconds))⟩) :=
  InsertionMap.mem_reinsert.mp (InsertionMap.mem_of_mem_evictTo hmem)

theorem mem_of_mem_set {json : Json Value} {value : Value} {ttlSeconds : Option JsNumber}
    {prunedAt : JsNumber} (henabled : ¬options.enabled = false)
    (hmem : entry ∈ (set json options memory key value ttlSeconds now prunedAt).entries) :
    (entry ∈ memory.entries ∧ entry.1 ≠ buildKey options key) ∨ entry =
      (buildKey options key, ⟨json.stringify value,
        expiryOf now (ttlSeconds.getD (.finite options.ttlSeconds))⟩) := by
  rw [set, if_neg henabled] at hmem
  have hpruned := InsertionMap.mem_of_mem_evictTo hmem
  exact InsertionMap.mem_reinsert.mp (InsertionMap.mem_keep.mp hpruned).1

theorem mem_of_mem_delete (hmem : entry ∈ (delete options memory key).entries) :
    entry ∈ memory.entries := by
  rw [delete] at hmem
  split at hmem
  · exact hmem
  · exact (InsertionMap.mem_delete.mp hmem).1

end Writes

end Facts

end StellarSettle.TtlCache
