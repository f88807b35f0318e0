import StellarSettle.Caches.TtlCache

/-!
# The cache refines a reference map

The reference map holds the value that was last set under each key, with its expiry, until it
is deleted or evicted; it never looks for expired values, and it has no order but the number of
the last use of each key.  Without Redis every answer of the cache is one of the reference map.
-/

namespace StellarSettle.TtlCache

open StellarSettle.InsertionOrder
open StellarSettle.Numbers

/-! ## The reference map -/

structure Held (Value : Type*) where
  value : Value
  expiresAt : JsNumber

/-- `usedAt` numbers the last read or write of a key, out of `count` so far. -/
structure Reference (Value : Type*) where
  held : String → Option (Held Value) := fun _ => none
  usedAt : String → ℕ := fun _ => 0
  count : ℕ := 0

variable {Value : Type*}

namespace Reference

/-- The keys whose value has not expired. -/
def liveKeys (reference : Reference Value) (now : JsNumber) : Set String :=
  {key | ∃ held, reference.held key = some held ∧ held.expiresAt.lt now = false}

/-- The JSON image of a value that is live. -/
def answer (json : Json Value) (reference : Reference Value) (now : JsNumber) (key : String) :
    Option Value :=
  ((reference.held key).filter fun held => !held.expiresAt.lt now).map fun held =>
    json.image held.value

def touch (reference : Reference Value) (key : String) : Reference Value :=
  { reference with
    usedAt := Function.update reference.usedAt key reference.count
    count := reference.count + 1 }

def write (reference : Reference Value) (key : String) (held : Held Value) : Reference Value :=
  { reference with held := Function.update reference.held key (some held) }.touch key

open Classical in
noncomputable def forget (reference : Reference Value) (keys : Set String) : Reference Value :=
  { reference with held := fun key => if key ∈ keys then none else reference.held key }

/-- Of the live keys, as many as are too many are evicted, each used less recently than all
that stay. -/
structure Evicts (reference : Reference Value) (maxEntries : ℕ) (now : JsNumber)
    (evicted : Set String) : Prop where
  finite : (reference.liveKeys now).Finite
  live : evicted ⊆ reference.liveKeys now
  ncard : evicted.ncard = (reference.liveKeys now).ncard - maxEntries
  oldest : ∀ key ∈ evicted, ∀ other ∈ reference.liveKeys now, other ∉ evicted →
    reference.usedAt key < reference.usedAt other

section Facts

variable {reference : Reference Value} {key other : String} {held : Held Value}
  {keys : Set String}

theorem answer_eq_none {json : Json Value} {now : JsNumber} (hdead : key ∉ reference.liveKeys now) :
    reference.answer json now key = none := by
  rw [answer, Option.map_eq_none_iff, Option.filter_eq_none_iff]
  intro held hheld hlive
  exact hdead ⟨held, hheld, by simpa using hlive⟩

theorem answer_of_live {json : Json Value} {now : JsNumber} (hheld : reference.held key = some held)
    (hlive : held.expiresAt.lt now = false) :
    reference.answer json now key = some (json.image held.value) := by
  simp [answer, hheld, hlive]

theorem held_forget_of_mem (hkey : key ∈ keys) : (reference.forget keys).held key = none :=
  if_pos hkey

theorem held_forget_of_not_mem (hkey : key ∉ keys) :
    (reference.forget keys).held key = reference.held key :=
  if_neg hkey

theorem held_write_self : (reference.write key held).held key = some held := by
  simp [write, touch]

theorem held_write_of_ne (hother : other ≠ key) :
    (reference.write key held).held other = reference.held other := by
  simp [write, touch, hother]

theorem usedAt_write_self : (reference.write key held).usedAt key = reference.count := by
  simp [write, touch]

theorem usedAt_write_of_ne (hother : other ≠ key) :
    (reference.write key held).usedAt other = reference.usedAt other := by
  simp [write, touch, hother]

theorem count_write : (reference.write key held).count = reference.count + 1 := rfl

/-- Writing what is held is a use of the key. -/
theorem write_held (hheld : reference.held key = some held) :
    reference.write key held = reference.touch key := by
  rw [write, ← hheld, Function.update_eq_self]

end Facts

end Reference

/-- A call, with what it reads from the clock. -/
inductive Call (Value : Type*) where
  | get (key : String) (now : JsNumber)
  | set (key : String) (value : Value) (ttlSeconds : Option JsNumber) (now prunedAt : JsNumber)
  | delete (key : String)
  | invalidatePrefix (start : String)
  | clear
  | pruneExpired (now : JsNumber)

def Call.readings : Call Value → List JsNumber
  | .get _ now => [now]
  | .set _ _ _ now prunedAt => [now, prunedAt]
  | .pruneExpired now => [now]
  | _ => []

section Runs

variable (json : Json Value) (options : TtlCacheOptions)

/-- The calls of the reference map, and what a `get` answers. -/
inductive Reference.Step : Reference Value → Call Value → Option Value → Reference Value → Prop
  | hit {reference : Reference Value} {key : String} {now : JsNumber} {value : Value}
      (hanswer : reference.answer json now key = some value) :
      Step reference (.get key now) (some value) (reference.touch key)
  | miss {reference : Reference Value} {key : String} {now : JsNumber}
      (hanswer : reference.answer json now key = none) :
      Step reference (.get key now) none reference
  | set {reference written : Reference Value} {key : String} {value : Value}
      {ttlSeconds : Option JsNumber} {now prunedAt : JsNumber} {evicted : Set String}
      (hwritten : written = reference.write key
        ⟨value, expiryOf now (ttlSeconds.getD (.finite options.ttlSeconds))⟩)
      (hevicts : written.Evicts options.maxEntries prunedAt evicted) :
      Step reference (.set key value ttlSeconds now prunedAt) none (written.forget evicted)
  | delete (reference : Reference Value) (key : String) :
      Step reference (.delete key) none (reference.forget {key})
  | invalidatePrefix (reference : Reference Value) (start : String) :
      Step reference (.invalidatePrefix start) none
        (reference.forget {key | startsWith key start = true})
  | clear (reference : Reference Value) :
      Step reference .clear none (reference.forget Set.univ)
  | pruneExpired (reference : Reference Value) (now : JsNumber) :
      Step reference (.pruneExpired now) none reference

/-- Calls with their answers, one after another. -/
inductive Reference.Run :
    Reference Value → List (Call Value × Option Value) → Reference Value → Prop
  | nil (reference : Reference Value) : Run reference [] reference
  | cons {before middle after : Reference Value} {call : Call Value} {answer : Option Value}
      {rest : List (Call Value × Option Value)}
      (hstep : Reference.Step json options before call answer middle)
      (hrest : Run middle rest after) : Run before ((call, answer) :: rest) after

/-- A call of the cache without Redis. -/
def perform (memory : Memory) : Call Value → Memory × Option Value
  | .get key now => get json options memory .unavailable key now
  | .set key value ttlSeconds now prunedAt =>
      (set json options memory key value ttlSeconds now prunedAt, none)
  | .delete key => (delete options memory key, none)
  | .invalidatePrefix start => (invalidatePrefix options memory start, none)
  | .clear => (clear memory, none)
  | .pruneExpired now => ((pruneExpired memory now).1, none)

def memoryAfter (memory : Memory) (calls : List (Call Value)) : Memory :=
  calls.foldl (fun memory call => (perform json options memory call).1) memory

/-- The calls with the answers of the cache. -/
def transcript (memory : Memory) : List (Call Value) → List (Call Value × Option Value)
  | [] => []
  | call :: rest =>
      (call, (perform json options memory call).2) ::
        transcript (perform json options memory call).1 rest

end Runs

/-! ## The simulation -/

variable {json : Json Value} {options : TtlCacheOptions}

/-- The map has the texts of what is held under its keys, in the order of their last use.  What
is held and not in the map has expired by one of the past readings of the clock. -/
structure Simulates (json : Json Value) (options : TtlCacheOptions) (past : List JsNumber)
    (memory : Memory) (reference : Reference Value) : Prop where
  named : ∀ entry ∈ memory.entries, ∃ key, entry.1 = buildKey options key
  held : ∀ {key entry}, (buildKey options key, entry) ∈ memory.entries →
    ∃ value, reference.held key = some ⟨value, entry.expiresAt⟩ ∧
      entry.value = json.stringify value
  spent : ∀ {key held}, reference.held key = some held →
    (∃ entry, (buildKey options key, entry) ∈ memory.entries) ∨
      ∃ reading ∈ past, held.expiresAt.lt reading = true
  used : ∀ {key entry}, (buildKey options key, entry) ∈ memory.entries →
    reference.usedAt key < reference.count
  ordered : memory.entries.Pairwise fun before after => ∀ left right,
    before.1 = buildKey options left → after.1 = buildKey options right →
      reference.usedAt left < reference.usedAt right

namespace Simulates

variable {past : List JsNumber} {memory : Memory} {reference : Reference Value} {now : JsNumber}
  {key : String}

theorem empty : Simulates json options [] .empty ({} : Reference Value) where
  named := fun _ hentry => absurd hentry List.not_mem_nil
  held := fun hentry => absurd hentry List.not_mem_nil
  spent := fun hheld => absurd hheld (Option.some_ne_none _).symm
  used := fun hentry => absurd hentry List.not_mem_nil
  ordered := .nil

theorem mono {more : List JsNumber} (hsim : Simulates json options past memory reference)
    (hmore : past ⊆ more) : Simulates json options more memory reference :=
  { hsim with
    spent := fun hheld => (hsim.spent hheld).imp_right fun ⟨reading, hreading, hless⟩ =>
      ⟨reading, hmore hreading, hless⟩ }

/-- At a reading of the clock that is no earlier than the past ones, the live keys are those of
the unexpired entries of the map. -/
theorem mem_liveKeys (hsim : Simulates json options past memory reference)
    (hnow : ∀ reading ∈ past, now.ge reading = true) : key ∈ reference.liveKeys now ↔
      ∃ entry, (buildKey options key, entry) ∈ memory.entries ∧ entry.expired now = false := by
  constructor
  · rintro ⟨held, hheld, hlive⟩
    rcases hsim.spent hheld with ⟨entry, hentry⟩ | ⟨reading, hreading, hless⟩
    · obtain ⟨value, hvalue, -⟩ := hsim.held hentry
      obtain rfl := Option.some.inj (hheld.symm.trans hvalue)
      exact ⟨entry, hentry, hlive⟩
    · have hspent := JsNumber.lt_of_lt_of_ge hless (hnow reading hreading)
      exact absurd (hspent.symm.trans hlive) (by decide)
  · rintro ⟨entry, hentry, hlive⟩
    obtain ⟨value, hvalue, -⟩ := hsim.held hentry
    exact ⟨_, hvalue, hlive⟩

/-- Deleting entries that have expired changes nothing that is held. -/
theorem keep_live (hsim : Simulates json options past memory reference)
    {passes : String × MemoryEntry → Bool}
    (hpasses : ∀ entry ∈ memory.entries, passes entry = false → entry.2.expired now = true) :
    Simulates json options (past ++ [now]) (memory.keep passes) reference where
  named := fun entry hentry => hsim.named entry (InsertionMap.mem_keep.mp hentry).1
  held := fun hentry => hsim.held (InsertionMap.mem_keep.mp hentry).1
  spent := by
    intro key held hheld
    rcases hsim.spent hheld with ⟨entry, hentry⟩ | ⟨reading, hreading, hless⟩
    · cases hpass : passes (buildKey options key, entry) with
      | true => exact .inl ⟨entry, InsertionMap.mem_keep.mpr ⟨hentry, hpass⟩⟩
      | false =>
          obtain ⟨value, hvalue, -⟩ := hsim.held hentry
          obtain rfl := Option.some.inj (hheld.symm.trans hvalue)
          exact .inr ⟨now, List.mem_append_right _ (List.mem_singleton_self now),
            hpasses _ hentry hpass⟩
    · exact .inr ⟨reading, List.mem_append_left _ hreading, hless⟩
  used := fun hentry => hsim.used (InsertionMap.mem_keep.mp hentry).1
  ordered := hsim.ordered.sublist List.filter_sublist

theorem prune (hsim : Simulates json options past memory reference) (now : JsNumber) :
    Simulates json options (past ++ [now]) (pruneExpired memory now).1 reference := by
  apply hsim.keep_live
  intro entry _ hpass
  simpa using hpass

/-- Deleting the entries of some keys forgets them. -/
theorem keep_forget (hsim : Simulates json options past memory reference)
    {passes : String × MemoryEntry → Bool} {keys : Set String}
    (hpasses : ∀ key entry, passes (buildKey options key, entry) = true ↔ key ∉ keys) :
    Simulates json options past (memory.keep passes) (reference.forget keys) where
  named := fun entry hentry => hsim.named entry (InsertionMap.mem_keep.mp hentry).1
  held := by
    intro key entry hentry
    obtain ⟨hmem, hpass⟩ := InsertionMap.mem_keep.mp hentry
    obtain ⟨value, hvalue, htext⟩ := hsim.held hmem
    have hkept : (reference.forget keys).held key = reference.held key :=
      Reference.held_forget_of_not_mem ((hpasses key entry).mp hpass)
    exact ⟨value, hkept.trans hvalue, htext⟩
  spent := by
    intro key held hheld
    by_cases hkey : key ∈ keys
    · rw [Reference.held_forget_of_mem hkey] at hheld
      cases hheld
    · rw [Reference.held_forget_of_not_mem hkey] at hheld
      refine (hsim.spent hheld).imp_left ?_
      rintro ⟨entry, hentry⟩
      exact ⟨entry, InsertionMap.mem_keep.mpr ⟨hentry, (hpasses key entry).mpr hkey⟩⟩
  used := fun hentry => hsim.used (InsertionMap.mem_keep.mp hentry).1
  ordered := hsim.ordered.sublist List.filter_sublist

/-- An entry at the end is the one that was used last. -/
theorem reinsert (hsim : Simulates json options past memory reference) (key : String)
    (value : Value) (expiresAt : JsNumber) :
    Simulates json options past
      (memory.reinsert (buildKey options key) ⟨json.stringify value, expiresAt⟩)
      (reference.write key ⟨value, expiresAt⟩) where
  named := by
    intro entry hentry
    rcases InsertionMap.mem_reinsert.mp hentry with ⟨hmem, -⟩ | rfl
    · exact hsim.named entry hmem
    · exact ⟨key, rfl⟩
  held := by
    intro other entry hentry
    rcases InsertionMap.mem_reinsert.mp hentry with ⟨hmem, hother⟩ | hsame
    · have hne : other ≠ key := fun hsame => hother (congrArg (buildKey options) hsame)
      obtain ⟨found, hfound, htext⟩ := hsim.held hmem
      exact ⟨found, (Reference.held_write_of_ne hne).trans hfound, htext⟩
    · obtain ⟨hkey, rfl⟩ := Prod.mk.inj hsame
      obtain rfl := buildKey_injective hkey
      exact ⟨value, Reference.held_write_self, rfl⟩
  spent := by
    intro other held hheld
    by_cases hsame : other = key
    · subst hsame
      exact .inl ⟨_, InsertionMap.mem_reinsert.mpr (.inr rfl)⟩
    · rw [Reference.held_write_of_ne hsame] at hheld
      refine (hsim.spent hheld).imp_left ?_
      rintro ⟨entry, hentry⟩
      refine ⟨entry, InsertionMap.mem_reinsert.mpr (.inl ⟨hentry, ?_⟩)⟩
      exact fun hkeys => hsame (buildKey_injective hkeys)
  used := by
    intro other entry hentry
    rw [Reference.count_write]
    by_cases hsame : other = key
    · rw [hsame, Reference.usedAt_write_self]
      exact Nat.lt_succ_self _
    · rw [Reference.usedAt_write_of_ne hsame]
      rcases InsertionMap.mem_reinsert.mp hentry with ⟨hmem, -⟩ | hlast
      · exact (hsim.used hmem).trans (Nat.lt_succ_self _)
      · exact absurd (buildKey_injective (Prod.mk.inj hlast).1) hsame
  ordered := by
    rw [InsertionMap.entries_reinsert]
    have hothers : ∀ entry ∈ (memory.delete (buildKey options key)).entries, ∀ other,
        entry.1 = buildKey options other → entry ∈ memory.entries ∧ other ≠ key := by
      intro entry hentry other hname
      obtain ⟨hmem, hne⟩ := InsertionMap.mem_delete.mp hentry
      exact ⟨hmem, fun hsame => hne (hname.trans (congrArg (buildKey options) hsame))⟩
    refine List.pairwise_append.mpr ⟨?_, List.pairwise_singleton _ _, ?_⟩
    · refine List.Pairwise.imp_of_mem ?_ (hsim.ordered.sublist List.filter_sublist)
      intro before after hbefore hafter hless left right hleft hright
      have hne := (hothers before hbefore left hleft).2
      have hnext := (hothers after hafter right hright).2
      rw [Reference.usedAt_write_of_ne hne, Reference.usedAt_write_of_ne hnext]
      exact hless left right hleft hright
    · intro before hbefore after hafter left right hleft hright
      obtain ⟨hmem, hne⟩ := hothers before hbefore left hleft
      obtain rfl := List.mem_singleton.mp hafter
      obtain rfl := buildKey_injective hright
      rw [Reference.usedAt_write_of_ne hne, Reference.usedAt_write_self]
      obtain ⟨name, entry⟩ := before
      obtain rfl : name = buildKey options left := hleft
      exact hsim.used hmem

/-- A hit is a use of its key. -/
theorem refresh (hsim : Simulates json options past memory reference) {entry : MemoryEntry}
    (hentry : (buildKey options key, entry) ∈ memory.entries) :
    Simulates json options past (memory.reinsert (buildKey options key) entry)
      (reference.touch key) := by
  obtain ⟨value, hvalue, htext⟩ := hsim.held hentry
  have hsame : entry = ⟨json.stringify value, entry.expiresAt⟩ := by rw [← htext]
  rw [← Reference.write_held hvalue]
  rw [hsame]
  exact hsim.reinsert key value entry.expiresAt

/-- Where every entry is live, the evicted keys are those of a reference map. -/
theorem evict (hsim : Simulates json options past memory reference)
    (hnow : ∀ reading ∈ past, now.ge reading = true)
    (hlive : ∀ entry ∈ memory.entries, entry.2.expired now = false) :
    ∃ evicted, reference.Evicts options.maxEntries now evicted ∧
      Simulates json options past (evictToCapacity options memory) (reference.forget evicted) := by
  set dropped := memory.entries.take (memory.size - options.maxEntries) with hdropped
  have hpart : ∀ entry ∈ dropped, entry ∈ memory.entries := fun _ => List.mem_of_mem_take
  have hkeys : reference.liveKeys now =
      {key | buildKey options key ∈ memory.entries.map Prod.fst} := by
    ext key
    rw [hsim.mem_liveKeys hnow, Set.mem_ofPred_eq, List.mem_map]
    constructor
    · rintro ⟨entry, hentry, -⟩
      exact ⟨_, hentry, rfl⟩
    · rintro ⟨⟨_, entry⟩, hentry, rfl⟩
      exact ⟨entry, hentry, hlive _ hentry⟩
  have hnamed : ∀ name ∈ memory.entries.map Prod.fst, ∃ key, name = buildKey options key := by
    intro name hname
    obtain ⟨entry, hentry, rfl⟩ := List.mem_map.mp hname
    exact hsim.named entry hentry
  obtain ⟨hfinite, hall⟩ := ncard_names buildKey_injective memory.nodup hnamed
  obtain ⟨-, hmany⟩ := ncard_names buildKey_injective
    (memory.nodup.sublist ((List.take_sublist (memory.size - options.maxEntries) _).map Prod.fst))
    fun name hname => hnamed name ((List.take_sublist _ _).map Prod.fst |>.subset hname)
  refine ⟨{key | buildKey options key ∈ dropped.map Prod.fst}, ?_, ?_⟩
  · rw [← hkeys] at hfinite hall
    refine ⟨hfinite, ?_, ?_, ?_⟩
    · intro key hkey
      rw [hkeys]
      exact ((List.take_sublist _ _).map Prod.fst).subset hkey
    · rw [hmany, hall, memory.length_take_evicted, List.length_map]
      rfl
    · intro key hkey other hother hstays
      obtain ⟨before, hbefore, hname⟩ := List.mem_map.mp hkey
      rw [hkeys] at hother
      obtain ⟨after, hafter, hnext⟩ := List.mem_map.mp hother
      rcases InsertionMap.mem_take_or_mem_evictTo options.maxEntries hafter with hgone | hkept
      · exact absurd (List.mem_map.mpr ⟨after, hgone, hnext⟩) hstays
      · exact InsertionMap.before_of_evictTo hsim.ordered hbefore hkept key other hname hnext
  · rw [evictToCapacity, InsertionMap.evictTo_eq_keep]
    apply hsim.keep_forget
    intro key entry
    rw [decide_eq_true_eq]
    rfl

theorem getFromMemory (hsim : Simulates json options past memory reference)
    (hnow : ∀ reading ∈ past, now.ge reading = true) :
    ∃ after, Reference.Step json options reference (.get key now)
        (getFromMemory json memory (buildKey options key) now).2 after ∧
      Simulates json options (past ++ [now])
        (TtlCache.getFromMemory json memory (buildKey options key) now).1 after := by
  cases hfind : memory.find? (buildKey options key) with
  | none =>
      rw [getFromMemory_of_none hfind]
      refine ⟨reference, .miss (Reference.answer_eq_none ?_), ?_⟩
      · rw [hsim.mem_liveKeys hnow]
        rintro ⟨entry, hentry, -⟩
        rw [InsertionMap.find?_eq_some.mpr hentry] at hfind
        cases hfind
      · exact hsim.mono (List.subset_append_left past [now])
  | some entry =>
      have hentry := InsertionMap.find?_eq_some.mp hfind
      obtain ⟨value, hvalue, htext⟩ := hsim.held hentry
      cases hexpired : entry.expired now with
      | true =>
          rw [getFromMemory_of_expired hfind hexpired]
          refine ⟨reference, .miss (Reference.answer_eq_none ?_), ?_⟩
          · rintro ⟨held, hheld, hlive⟩
            obtain rfl := Option.some.inj (hheld.symm.trans hvalue)
            exact absurd (hexpired.symm.trans hlive) (by decide)
          · apply hsim.keep_live
            intro other hother hkey
            have hsame := InsertionMap.eq_of_key hother hentry (by simpa using hkey)
            rw [hsame]
            exact hexpired
      | false =>
          have hparse : json.parse entry.value = some (json.image value) := by
            rw [htext, json.parse_stringify]
          rw [getFromMemory_of_live hfind hexpired hparse]
          refine ⟨reference.touch key, .hit (Reference.answer_of_live hvalue hexpired), ?_⟩
          exact (hsim.refresh hentry).mono (List.subset_append_left past [now])

/-- Every call of the cache is one of the reference map. -/
theorem step (henabled : options.enabled = true)
    (hsim : Simulates json options past memory reference) {call : Call Value}
    (hclock : (past ++ call.readings).Pairwise fun earlier later => later.ge earlier = true) :
    ∃ after, Reference.Step json options reference call (perform json options memory call).2
        after ∧
      Simulates json options (past ++ call.readings) (perform json options memory call).1
        after := by
  have hon := not_disabled henabled
  obtain ⟨-, hwithin, hpast⟩ := List.pairwise_append.mp hclock
  cases call with
  | get key now =>
      rw [perform, get_unavailable henabled]
      exact hsim.getFromMemory fun reading hreading =>
        hpast reading hreading now (List.mem_singleton_self now)
  | set key value ttlSeconds now prunedAt =>
      rw [perform, set, if_neg hon]
      have hread : prunedAt.ge now = true :=
        List.rel_of_pairwise_cons hwithin (List.mem_singleton_self prunedAt)
      have hlater : ∀ reading ∈ past ++ [prunedAt], prunedAt.ge reading = true := by
        intro reading hreading
        rcases List.mem_append.mp hreading with hbefore | hlast
        · exact hpast reading hbefore prunedAt (by simp [Call.readings])
        · obtain rfl := List.mem_singleton.mp hlast
          exact JsNumber.ge_self_of_ge hread
      have hwritten := hsim.reinsert key value
        (expiryOf now (ttlSeconds.getD (.finite options.ttlSeconds)))
      have hpruned := hwritten.prune prunedAt
      obtain ⟨evicted, hevicts, hafter⟩ := hpruned.evict hlater fun entry hentry => by
        simpa using (InsertionMap.mem_keep.mp hentry).2
      refine ⟨_, .set rfl hevicts, hafter.mono ?_⟩
      intro reading hreading
      rw [Call.readings, List.mem_append, List.mem_cons]
      exact (List.mem_append.mp hreading).imp_right .inr
  | delete key =>
      rw [perform, delete, if_neg hon]
      refine ⟨reference.forget {key}, .delete reference key, ?_⟩
      refine (hsim.keep_forget ?_).mono (List.subset_append_left past _)
      intro other entry
      rw [decide_eq_true_eq, Set.mem_singleton_iff, ne_eq, buildKey_injective.eq_iff]
  | invalidatePrefix start =>
      refine ⟨_, .invalidatePrefix reference start, ?_⟩
      refine (hsim.keep_forget ?_).mono (List.subset_append_left past _)
      intro key entry
      rw [startsWith_buildKey, Bool.not_eq_true', Set.mem_ofPred_eq, Bool.not_eq_true]
  | clear =>
      refine ⟨_, .clear reference, ?_⟩
      have hnothing : clear memory = memory.keep fun _ => false := by
        apply InsertionMap.ext
        exact (List.filter_eq_nil_iff.mpr fun _ _ => Bool.false_ne_true).symm
      rw [perform, hnothing]
      refine (hsim.keep_forget ?_).mono (List.subset_append_left past _)
      simp
  | pruneExpired now =>
      exact ⟨reference, .pruneExpired reference now, hsim.prune now⟩

/-- Every run of the cache is one of the reference map. -/
theorem run (henabled : options.enabled = true) {calls : List (Call Value)}
    (hsim : Simulates json options past memory reference)
    (hclock : (past ++ calls.flatMap Call.readings).Pairwise
      fun earlier later => later.ge earlier = true) :
    ∃ after, Reference.Run json options reference (transcript json options memory calls)
      after := by
  induction calls generalizing past memory reference with
  | nil => exact ⟨reference, .nil reference⟩
  | cons call rest ih =>
      rw [List.flatMap_cons, ← List.append_assoc] at hclock
      obtain ⟨middle, hstep, hmiddle⟩ :=
        hsim.step henabled (hclock.sublist (List.sublist_append_left _ _))
      obtain ⟨after, hrest⟩ := ih hmiddle hclock
      exact ⟨after, .cons hstep hrest⟩

end Simulates

/-- For a clock that does not go back, the cache answers as the reference map, and after each
`set` it holds at most `maxEntries` entries. -/
theorem refines_reference (json : Json Value) (options : TtlCacheOptions)
    (henabled : options.enabled = true) (calls : List (Call Value))
    (hclock : (calls.flatMap Call.readings).Pairwise
      fun earlier later => later.ge earlier = true) :
    (∃ reference, Reference.Run json options {} (transcript json options .empty calls)
      reference) ∧
      ∀ front key value ttlSeconds now prunedAt,
        calls = front ++ [.set key value ttlSeconds now prunedAt] →
          (memoryAfter json options .empty calls).size ≤ options.maxEntries := by
  refine ⟨Simulates.empty.run henabled hclock, ?_⟩
  rintro front key value ttlSeconds now prunedAt rfl
  rw [memoryAfter, List.foldl_append, List.foldl_cons, List.foldl_nil]
  exact size_set_le json henabled _ value ttlSeconds now prunedAt

def booleans : Json Bool where
  stringify value := if value then "true" else "false"
  parse text :=
    if text = "true" then some true else if text = "false" then some false else none
  image := id
  parse_stringify value := by cases value <;> rfl

def millisecond (number : ℤ) (hnumber : |number| ≤ 2 ^ 53) : JsNumber :=
  .finite (Double.ofInt number hnumber)

/-- One entry, for a second. -/
def oneEntry : TtlCacheOptions where
  ttlSeconds := Double.ofInt 1 (by decide)
  ttlSeconds_pos := one_pos
  maxEntries := 1

/-- A second entry evicts the first, which was read when its lifetime ended. -/
def evictingCalls : List (Call Bool) :=
  [.set "first" true none (millisecond 0 abs_zero_le_digits) (millisecond 0 abs_zero_le_digits),
    .get "first" (millisecond 1000 abs_thousand_le_digits),
    .set "second" false none (millisecond 1000 abs_thousand_le_digits)
      (millisecond 1001 (by decide)),
    .get "first" (millisecond 1001 (by decide))]

theorem evictingCalls_refine :
    (∃ reference, Reference.Run booleans oneEntry {}
      (transcript booleans oneEntry .empty evictingCalls) reference) ∧
      ∀ front key value ttlSeconds now prunedAt,
        evictingCalls = front ++ [.set key value ttlSeconds now prunedAt] →
          (memoryAfter booleans oneEntry .empty evictingCalls).size ≤ 1 :=
  refines_reference booleans oneEntry rfl evictingCalls (by decide)

end StellarSettle.TtlCache
