import StellarSettle.Core.RecentEntries
import StellarSettle.Model.Entities

/-!
# The bounded cache of the auth service

A cache has room for so many keys.  A read of a key that has not expired moves it to the end, and a
new key that finds no room takes the place of the first one.  An answer is what was set last and has
not expired, and a key that is used before too many others are is not evicted.
-/

namespace StellarSettle.LruCache

open StellarSettle.Entities (Timestamp)
open StellarSettle.InsertionOrder
open StellarSettle.RecentEntries

variable {Key Value : Type} [DecidableEq Key]

/-! ## The cache -/

structure Entry (Value : Type) where
  value : Value
  expiresAt : Timestamp
  deriving DecidableEq, Repr

abbrev Cache (Key Value : Type) : Type := InsertionMap Key (Entry Value)

def get (cache : Cache Key Value) (key : Key) (now : Timestamp) :
    Option Value × Cache Key Value :=
  match cache.find? key with
  | none => (none, cache)
  | some entry =>
      if entry.expiresAt < now then (none, cache.delete key)
      else (some entry.value, cache.reinsert key entry)

/-- Makes room for a key: the key's own place, or that of the least recently used entry. -/
def makeRoom (maxSize : ℕ) (cache : Cache Key Value) (key : Key) : Cache Key Value :=
  if cache.has key then cache.delete key
  else if maxSize ≤ cache.size then dropOldest cache
  else cache

def set (maxSize : ℕ) (cache : Cache Key Value) (key : Key) (value : Value) (ttlMs : ℤ)
    (now : Timestamp) : Cache Key Value :=
  if ttlMs ≤ 0 then cache else (makeRoom maxSize cache key).set key ⟨value, now + ttlMs⟩

/-- The methods that change a cache.  `has` is a read. -/
inductive Operation (Key Value : Type) where
  | get (key : Key)
  | set (key : Key) (value : Value) (ttlMs : ℤ)
  | delete (key : Key)
  | clear

structure Call (Key Value : Type) where
  operation : Operation Key Value
  now : Timestamp

def step (maxSize : ℕ) (cache : Cache Key Value) (call : Call Key Value) : Cache Key Value :=
  match call.operation with
  | .get key => (get cache key call.now).2
  | .set key value ttlMs => set maxSize cache key value ttlMs call.now
  | .delete key => cache.delete key
  | .clear => .empty

def run (maxSize : ℕ) (calls : List (Call Key Value)) : Cache Key Value :=
  calls.foldl (step maxSize) .empty

/-- An answer is the value of an entry that has not expired. -/
theorem exists_entry_of_get {cache : Cache Key Value} {key : Key} {now : Timestamp} {value : Value}
    (hanswer : (get cache key now).1 = some value) :
    ∃ entry, (key, entry) ∈ cache.entries ∧ now ≤ entry.expiresAt ∧ entry.value = value := by
  rw [get] at hanswer
  split at hanswer
  · cases hanswer
  · rename_i entry hfound
    split at hanswer
    · cases hanswer
    · rename_i hlive
      exact ⟨entry, InsertionMap.find?_eq_some.mp hfound, not_lt.mp hlive,
        Option.some.inj hanswer⟩

/-! ## Room -/

section Room

variable {maxSize : ℕ} {cache : Cache Key Value} {key : Key}

theorem not_mem_makeRoom : key ∉ (makeRoom maxSize cache key).entries.map Prod.fst := by
  rw [makeRoom]
  split
  · intro hmem
    obtain ⟨entry, hentry, hkey⟩ := List.mem_map.mp hmem
    exact (InsertionMap.mem_delete.mp hentry).2 hkey
  · rename_i hhas
    have hnew : key ∉ cache.entries.map Prod.fst := fun hmem => hhas (decide_eq_true hmem)
    split
    · exact fun hmem => hnew (((List.tail_sublist _).map Prod.fst).subset hmem)
    · exact hnew

theorem entries_set_makeRoom (entry : Entry Value) :
    ((makeRoom maxSize cache key).set key entry).entries =
      (makeRoom maxSize cache key).entries ++ [(key, entry)] :=
  InsertionMap.setEntry_of_not_mem not_mem_makeRoom

theorem size_delete_lt (hhas : cache.has key = true) : (cache.delete key).size < cache.size := by
  obtain ⟨entry, hentry, hkey⟩ := List.mem_map.mp (of_decide_eq_true hhas)
  apply List.length_filter_lt_length_iff_exists.mpr
  exact ⟨entry, hentry, fun hstays => of_decide_eq_true hstays hkey⟩

theorem size_makeRoom_lt (hpos : 0 < maxSize) (hsize : cache.size ≤ maxSize) :
    (makeRoom maxSize cache key).size < maxSize := by
  rw [makeRoom]
  split
  · rename_i hhas
    exact (size_delete_lt hhas).trans_le hsize
  · split
    · change cache.entries.tail.length < maxSize
      rw [List.length_tail]
      have hlength : cache.entries.length ≤ maxSize := hsize
      omega
    · rename_i hfull
      exact not_le.mp hfull

theorem mem_of_mem_makeRoom {entry : Key × Entry Value}
    (hentry : entry ∈ (makeRoom maxSize cache key).entries) : entry ∈ cache.entries := by
  rw [makeRoom] at hentry
  split at hentry
  · exact (InsertionMap.mem_delete.mp hentry).1
  · split at hentry
    · exact List.mem_of_mem_tail hentry
    · exact hentry

end Room

/-! ## The size -/

theorem size_keep_le (cache : Cache Key Value) (key : Key) :
    (cache.delete key).size ≤ cache.size := List.length_filter_le _ _

theorem size_step_le {maxSize : ℕ} (hpos : 0 < maxSize) {cache : Cache Key Value}
    (call : Call Key Value) (hsize : cache.size ≤ maxSize) :
    (step maxSize cache call).size ≤ maxSize := by
  rw [step]
  split
  · rename_i key _
    rw [get]
    split
    · exact hsize
    · rename_i entry hfound
      split
      · exact (size_keep_le cache key).trans hsize
      · have hhas : cache.has key = true :=
          decide_eq_true (List.mem_map_of_mem (InsertionMap.find?_eq_some.mp hfound))
        have hless := size_delete_lt hhas
        change (cache.reinsert key entry).entries.length ≤ maxSize
        rw [InsertionMap.entries_reinsert, List.length_append, List.length_singleton]
        exact Nat.succ_le_of_lt (hless.trans_le hsize)
  · rename_i key value ttlMs _
    rw [set]
    split
    · exact hsize
    · change ((makeRoom maxSize cache key).set key _).entries.length ≤ maxSize
      rw [entries_set_makeRoom, List.length_append, List.length_singleton]
      exact size_makeRoom_lt hpos hsize
  · exact (size_keep_le cache _).trans hsize
  · exact Nat.zero_le maxSize

/-! ## What is answered was set -/

/-- A call after which the value that a key had before is not answered. -/
def Overwrites (key : Key) (call : Call Key Value) : Prop :=
  match call.operation with
  | .get _ => False
  | .set other _ ttlMs => other = key ∧ 0 < ttlMs
  | .delete other => other = key
  | .clear => True

/-- An entry is from a call that set it and that none of the later ones overwrites. -/
def SetBy (calls : List (Call Key Value)) (key : Key) (entry : Entry Value) : Prop :=
  ∃ before ttlMs setAt after, calls = before ++ ⟨.set key entry.value ttlMs, setAt⟩ :: after ∧
    0 < ttlMs ∧ entry.expiresAt = setAt + ttlMs ∧ ∀ call ∈ after, ¬Overwrites key call

omit [DecidableEq Key] in
theorem SetBy.snoc {calls : List (Call Key Value)} {key : Key} {entry : Entry Value}
    {call : Call Key Value} (hset : SetBy calls key entry) (hkept : ¬Overwrites key call) :
    SetBy (calls ++ [call]) key entry := by
  obtain ⟨before, ttlMs, setAt, after, hcalls, hpos, hexpires, hafter⟩ := hset
  refine ⟨before, ttlMs, setAt, after ++ [call], ?_, hpos, hexpires, fun later hlater => ?_⟩
  · rw [hcalls, List.append_assoc, List.cons_append]
  · rcases List.mem_append.mp hlater with hold | hlast
    · exact hafter later hold
    · exact List.mem_singleton.mp hlast ▸ hkept

/-- The entries behind a call are those that it sets and those that it does not overwrite. -/
theorem mem_step {maxSize : ℕ} {cache : Cache Key Value} {call : Call Key Value}
    {entry : Key × Entry Value} (hentry : entry ∈ (step maxSize cache call).entries) :
    (entry ∈ cache.entries ∧ ¬Overwrites entry.1 call) ∨
      ∃ ttlMs, call.operation = .set entry.1 entry.2.value ttlMs ∧ 0 < ttlMs ∧
        entry.2.expiresAt = call.now + ttlMs := by
  obtain ⟨operation, now⟩ := call
  cases operation with
  | get key =>
      left
      refine ⟨?_, id⟩
      change entry ∈ (get cache key now).2.entries at hentry
      rw [get] at hentry
      split at hentry
      · exact hentry
      · rename_i found hfound
        split at hentry
        · exact (InsertionMap.mem_delete.mp hentry).1
        · rcases InsertionMap.mem_reinsert.mp hentry with hold | hmoved
          · exact hold.1
          · exact hmoved ▸ InsertionMap.find?_eq_some.mp hfound
  | set key value ttlMs =>
      change entry ∈ (set maxSize cache key value ttlMs now).entries at hentry
      rw [set] at hentry
      split at hentry
      · rename_i hnone
        exact .inl ⟨hentry, fun hover => absurd hover.2 (not_lt.mpr hnone)⟩
      · rename_i hsome
        rw [entries_set_makeRoom] at hentry
        rcases List.mem_append.mp hentry with hold | hnew
        · refine .inl ⟨mem_of_mem_makeRoom hold, fun hover => ?_⟩
          exact not_mem_makeRoom (hover.1 ▸ List.mem_map_of_mem hold)
        · rw [List.mem_singleton.mp hnew]
          exact .inr ⟨ttlMs, rfl, not_le.mp hsome, rfl⟩
  | delete key =>
      obtain ⟨hold, hother⟩ := InsertionMap.mem_delete.mp hentry
      exact .inl ⟨hold, hother.symm⟩
  | clear => cases hentry

theorem setBy_run (maxSize : ℕ) (calls : List (Call Key Value)) :
    ∀ entry ∈ (run maxSize calls).entries, SetBy calls entry.1 entry.2 := by
  induction calls using List.reverseRecOn with
  | nil => exact fun _ hentry => nomatch hentry
  | append_singleton calls call ih =>
      intro entry hentry
      rw [run, List.foldl_append] at hentry
      rcases mem_step hentry with ⟨hold, hkept⟩ | ⟨ttlMs, hset, hpos, hexpires⟩
      · exact (ih entry hold).snoc hkept
      · exact ⟨calls, ttlMs, call.now, [], by rw [← hset], hpos, hexpires, List.forall_mem_nil _⟩

/-! ## What is set is answered -/

/-- The other keys that were used since a key was. -/
def usedLater (key : Key) (later : Finset Key) (call : Call Key Value) : Finset Key :=
  match call.operation with
  | .get other => if other = key then ∅ else insert other later
  | .set other _ ttlMs => if ttlMs ≤ 0 then later else insert other later
  | _ => later

/-- Between two uses of a key fewer other keys are used than there is room for. -/
def UsedOften (maxSize : ℕ) (key : Key) : Finset Key → List (Call Key Value) → Prop
  | _, [] => True
  | later, call :: rest =>
      (usedLater key later call).card < maxSize ∧
        UsedOften maxSize key (usedLater key later call) rest

/-- The entry of a key is there, or it has expired and its key is not there. -/
def Kept (cache : Cache Key Value) (key : Key) (entry : Entry Value) (now : Timestamp)
    (later : Finset Key) : Prop :=
  UsedBefore cache key entry later ∨
    (entry.expiresAt < now ∧ key ∉ cache.entries.map Prod.fst)

section Kept

variable {maxSize : ℕ} {cache : Cache Key Value} {key : Key} {entry : Entry Value}
  {now : Timestamp} {later : Finset Key}

theorem answer_of_kept (hkept : Kept cache key entry now later) :
    (get cache key now).1 = if entry.expiresAt < now then none else some entry.value := by
  rcases hkept with hused | ⟨hexpired, hgone⟩
  · rw [get, hused.find?_eq]
    dsimp only
    split <;> rfl
  · rw [get, InsertionMap.find?_eq_none.mpr hgone, if_pos hexpired]

/-- No call brings back a key that is not there but one that overwrites it. -/
theorem not_mem_step {call : Call Key Value} (hgone : key ∉ cache.entries.map Prod.fst)
    (hover : ¬Overwrites key call) : key ∉ (step maxSize cache call).entries.map Prod.fst := by
  intro hmem
  obtain ⟨found, hfound, rfl⟩ := List.mem_map.mp hmem
  rcases mem_step hfound with hold | ⟨ttlMs, hset, hpos, -⟩
  · exact hgone (List.mem_map_of_mem hold.1)
  · apply hover
    rw [Overwrites, hset]
    exact ⟨rfl, hpos⟩

theorem kept_get {other : Key} (hkept : UsedBefore cache key entry later) :
    Kept (get cache other now).2 key entry now
      (if other = key then ∅ else insert other later) := by
  by_cases hother : other = key
  · subst hother
    rw [if_pos rfl, get, hkept.find?_eq]
    dsimp only
    split
    · rename_i hexpired
      refine .inr ⟨hexpired, fun hmem => ?_⟩
      obtain ⟨found, hfound, hkey⟩ := List.mem_map.mp hmem
      exact (InsertionMap.mem_delete.mp hfound).2 hkey
    · exact .inl (usedBefore_reinsert cache other entry)
  · rw [if_neg hother, get]
    left
    split
    · exact hkept.mono (Finset.subset_insert other later)
    · split
      · exact (hkept.delete hother).mono (Finset.subset_insert other later)
      · exact hkept.reinsert hother

theorem kept_set {other : Key} {value : Value} {ttlMs : ℤ} (hother : other ≠ key)
    (hkept : UsedBefore cache key entry later) (hfew : (insert other later).card < maxSize) :
    UsedBefore ((makeRoom maxSize cache other).set other ⟨value, now + ttlMs⟩) key entry
      (insert other later) := by
  apply UsedBefore.set_new not_mem_makeRoom
  rw [makeRoom]
  split
  · exact hkept.delete hother
  · rename_i hhas
    split
    · rename_i hfull
      exact hkept.dropOldest hfull (fun hmem => hhas (decide_eq_true hmem)) hfew
    · exact hkept

theorem kept_step {call : Call Key Value} {before : Timestamp} (hover : ¬Overwrites key call)
    (hfew : (usedLater key later call).card < maxSize) (hbefore : before ≤ now)
    (hcall : call.now ≤ now) (hkept : Kept cache key entry before later) :
    Kept (step maxSize cache call) key entry now (usedLater key later call) := by
  rcases hkept with hused | ⟨hexpired, hgone⟩
  · obtain ⟨operation, callNow⟩ := call
    cases operation with
    | get other =>
        have hget : Kept (get cache other callNow).2 key entry callNow
            (if other = key then ∅ else insert other later) := kept_get hused
        rcases hget with hstays | ⟨hexpired, hgone⟩
        · exact .inl hstays
        · exact .inr ⟨hexpired.trans_le hcall, hgone⟩
    | set other value ttlMs =>
        left
        dsimp only [usedLater] at hfew ⊢
        change UsedBefore (set maxSize cache other value ttlMs callNow) key entry _
        rw [set]
        split
        · exact hused
        · rename_i hsome
          rw [if_neg hsome] at hfew
          exact kept_set (fun hsame => hover ⟨hsame, not_le.mp hsome⟩) hused hfew
    | delete other => exact .inl (hused.delete hover)
    | clear => exact absurd trivial hover
  · exact .inr ⟨hexpired.trans_le hbefore, not_mem_step hgone hover⟩

theorem kept_run {calls : List (Call Key Value)} (hkept : Kept cache key entry now later)
    (hover : ∀ call ∈ calls, ¬Overwrites key call ∧ call.now ≤ now)
    (hoften : UsedOften maxSize key later calls) :
    ∃ last, Kept (calls.foldl (step maxSize) cache) key entry now last := by
  induction calls generalizing cache later with
  | nil => exact ⟨later, hkept⟩
  | cons call calls ih =>
      obtain ⟨hcall, hrest⟩ := List.forall_mem_cons.mp hover
      exact ih (kept_step hcall.1 hoften.1 le_rfl hcall.2 hkept) hrest hoften.2

end Kept

/-! ## Runs -/

/-- A cache holds no more keys than it has room for.  It answers what was set last, was not deleted
since and has not expired, and where fewer other keys than there is room for are used between two
uses of a key, it does not miss it. -/
theorem lru_spec {maxSize : ℕ} (hpos : 0 < maxSize) (calls : List (Call Key Value)) :
    (run maxSize calls).size ≤ maxSize ∧
    (∀ key now value, (get (run maxSize calls) key now).1 = some value →
      ∃ before ttlMs setAt after, calls = before ++ ⟨.set key value ttlMs, setAt⟩ :: after ∧
        0 < ttlMs ∧ now ≤ setAt + ttlMs ∧ ∀ call ∈ after, ¬Overwrites key call) ∧
    ∀ key now value before ttlMs setAt after,
      calls = before ++ ⟨.set key value ttlMs, setAt⟩ :: after → 0 < ttlMs →
      (∀ call ∈ after, ¬Overwrites key call ∧ call.now ≤ now) → UsedOften maxSize key ∅ after →
        (get (run maxSize calls) key now).1 =
          if setAt + ttlMs < now then none else some value := by
  refine ⟨?_, fun key now value hanswer => ?_, ?_⟩
  · have hbounded : ∀ cache : Cache Key Value, cache.size ≤ maxSize →
        (calls.foldl (step maxSize) cache).size ≤ maxSize := by
      induction calls with
      | nil => exact fun _ hsize => hsize
      | cons call calls ih => exact fun cache hsize => ih _ (size_step_le hpos call hsize)
    exact hbounded .empty (Nat.zero_le maxSize)
  · obtain ⟨entry, hentry, hlive, rfl⟩ := exists_entry_of_get hanswer
    obtain ⟨before, ttlMs, setAt, after, hcalls, httl, hexpires, hafter⟩ :=
      setBy_run maxSize calls _ hentry
    exact ⟨before, ttlMs, setAt, after, hcalls, httl, hexpires ▸ hlive, hafter⟩
  · rintro key now value before ttlMs setAt after rfl httl hafter hoften
    let entry : Entry Value := ⟨value, setAt + ttlMs⟩
    have hset : UsedBefore (step maxSize (run maxSize before) ⟨.set key value ttlMs, setAt⟩) key
        entry ∅ := by
      change UsedBefore (set maxSize (run maxSize before) key value ttlMs setAt) key entry ∅
      rw [set, if_neg (not_le.mpr httl)]
      exact ⟨_, [], entries_set_makeRoom entry, List.forall_mem_nil _⟩
    obtain ⟨later, hkept⟩ := kept_run (.inl hset) hafter hoften
    rw [run, List.foldl_append, List.foldl_cons]
    exact answer_of_kept hkept

/-- A key that is read in time outlasts one that is not. -/
theorem lru_spec_two :
    (get (run 2 [⟨.set "a" 1 100, 0⟩, ⟨.set "b" 2 100, 1⟩, ⟨.get "a", 2⟩, ⟨.set "c" 3 100, 3⟩]) "a"
      4).1 = some 1 :=
  (lru_spec (by decide) _).2.2 "a" 4 1 [] 100 0
    [⟨.set "b" 2 100, 1⟩, ⟨.get "a", 2⟩, ⟨.set "c" 3 100, 3⟩] rfl (by decide)
    (by simp [Overwrites]) ⟨by decide, by decide, by decide, trivial⟩

end StellarSettle.LruCache
