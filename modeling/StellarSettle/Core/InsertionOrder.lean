import Mathlib.Data.List.Nodup
import Mathlib.Data.Set.Card

/-!
# Maps in insertion order

A map keeps its entries in the order in which their keys were inserted.  Setting a key that
is there leaves it in its place, so a key moves to the end when it is deleted and set again.
While more entries are held than there is room for, the first one is deleted.
-/

namespace StellarSettle.InsertionOrder

variable {Key Value : Type*}

/-- The items of a set, in the order in which they were added, are distinct. -/
theorem nodup_eraseDups {Item : Type*} [DecidableEq Item] (items : List Item) :
    items.eraseDups.Nodup := by
  induction hlength : items.length using Nat.strong_induction_on generalizing items with
  | _ length ih =>
      cases items with
      | nil => exact List.nodup_nil
      | cons first rest =>
          rw [List.eraseDups_cons]
          have hshorter := List.length_filter_le (fun item => !item == first) rest
          rw [List.length_cons] at hlength
          refine List.nodup_cons.mpr ⟨?_, ih _ (by omega) _ rfl⟩
          simp

/-- Entries under distinct keys, the oldest first. -/
@[ext]
structure InsertionMap (Key Value : Type*) where
  entries : List (Key × Value)
  nodup : (entries.map Prod.fst).Nodup

namespace InsertionMap

/-! ## Operations -/

def empty : InsertionMap Key Value where
  entries := []
  nodup := List.nodup_nil

def size (map : InsertionMap Key Value) : ℕ := map.entries.length

/-- Deletes the entries that do not pass a test. -/
def keep (map : InsertionMap Key Value) (passes : Key × Value → Bool) :
    InsertionMap Key Value where
  entries := map.entries.filter passes
  nodup := map.nodup.sublist (List.filter_sublist.map Prod.fst)

/-- Deletes the first entries while there are more than `capacity`. -/
def evictEntries (capacity : ℕ) : List (Key × Value) → List (Key × Value)
  | [] => []
  | entry :: rest =>
      if capacity < (entry :: rest).length then evictEntries capacity rest else entry :: rest

theorem evictEntries_eq_drop (capacity : ℕ) (entries : List (Key × Value)) :
    evictEntries capacity entries = entries.drop (entries.length - capacity) := by
  induction entries with
  | nil => rw [evictEntries, List.drop_nil]
  | cons entry rest ih =>
      rw [evictEntries]
      split
      · rename_i hfull
        have hmore : (entry :: rest).length - capacity = rest.length - capacity + 1 := by
          rw [List.length_cons] at hfull ⊢
          omega
        rw [hmore, List.drop_succ_cons, ih]
      · rename_i hroom
        rw [Nat.sub_eq_zero_of_le (not_lt.mp hroom), List.drop_zero]

def evictTo (map : InsertionMap Key Value) (capacity : ℕ) : InsertionMap Key Value where
  entries := evictEntries capacity map.entries
  nodup := by
    rw [evictEntries_eq_drop]
    exact map.nodup.sublist ((List.drop_sublist _ _).map Prod.fst)

variable [DecidableEq Key]

def find? (map : InsertionMap Key Value) (key : Key) : Option Value :=
  (map.entries.find? fun entry => entry.1 = key).map Prod.snd

def has (map : InsertionMap Key Value) (key : Key) : Bool :=
  decide (key ∈ map.entries.map Prod.fst)

def delete (map : InsertionMap Key Value) (key : Key) : InsertionMap Key Value :=
  map.keep fun entry => entry.1 ≠ key

/-- Replaces the value of a key in its place, or appends the key. -/
def setEntry (key : Key) (value : Value) : List (Key × Value) → List (Key × Value)
  | [] => [(key, value)]
  | entry :: rest =>
      if entry.1 = key then (key, value) :: rest else entry :: setEntry key value rest

theorem keys_setEntry (key : Key) (value : Value) (entries : List (Key × Value)) :
    (setEntry key value entries).map Prod.fst =
      if key ∈ entries.map Prod.fst then entries.map Prod.fst
      else entries.map Prod.fst ++ [key] := by
  induction entries with
  | nil => rfl
  | cons entry rest ih =>
      rw [setEntry]
      by_cases hkey : entry.1 = key
      · simp [hkey]
      · rw [if_neg hkey, List.map_cons, ih, List.map_cons]
        have hother : key ∈ entry.1 :: rest.map Prod.fst ↔ key ∈ rest.map Prod.fst := by
          rw [List.mem_cons, or_iff_right (Ne.symm hkey)]
        simp only [hother]
        split <;> rfl

theorem setEntry_of_not_mem {key : Key} {value : Value} {entries : List (Key × Value)}
    (habsent : key ∉ entries.map Prod.fst) :
    setEntry key value entries = entries ++ [(key, value)] := by
  induction entries with
  | nil => rfl
  | cons entry rest ih =>
      rw [List.map_cons, List.mem_cons, not_or] at habsent
      rw [setEntry, if_neg (Ne.symm habsent.1), ih habsent.2, List.cons_append]

def set (map : InsertionMap Key Value) (key : Key) (value : Value) :
    InsertionMap Key Value where
  entries := setEntry key value map.entries
  nodup := by
    rw [keys_setEntry]
    split
    · exact map.nodup
    · rename_i habsent
      exact List.Nodup.append map.nodup (List.nodup_singleton key)
        (List.disjoint_singleton.mpr habsent)

/-- Deletes a key and sets it again, at the end. -/
def reinsert (map : InsertionMap Key Value) (key : Key) (value : Value) :
    InsertionMap Key Value :=
  (map.delete key).set key value

/-! ## Facts -/

variable {map : InsertionMap Key Value} {key other : Key} {value : Value}

omit [DecidableEq Key] in
theorem eq_of_key {left right : Key × Value} (hleft : left ∈ map.entries)
    (hright : right ∈ map.entries) (hkey : left.1 = right.1) : left = right :=
  List.inj_on_of_nodup_map map.nodup hleft hright hkey

theorem find?_eq_some : map.find? key = some value ↔ (key, value) ∈ map.entries := by
  constructor
  · intro hfind
    obtain ⟨entry, hentry, rfl⟩ := Option.map_eq_some_iff.mp hfind
    have hkey : entry.1 = key := by simpa using List.find?_some hentry
    rw [← hkey]
    exact List.mem_of_find?_eq_some hentry
  · intro hmem
    have hsome : (map.entries.find? fun entry => entry.1 = key).isSome :=
      List.find?_isSome.mpr ⟨_, hmem, decide_eq_true rfl⟩
    obtain ⟨entry, hentry⟩ := Option.isSome_iff_exists.mp hsome
    have hkey : entry.1 = key := by simpa using List.find?_some hentry
    obtain rfl := eq_of_key (List.mem_of_find?_eq_some hentry) hmem hkey
    rw [find?, hentry, Option.map_some]

theorem find?_eq_none : map.find? key = none ↔ key ∉ map.entries.map Prod.fst := by
  rw [find?, Option.map_eq_none_iff, List.find?_eq_none]
  constructor
  · intro hnone hmem
    obtain ⟨entry, hentry, rfl⟩ := List.mem_map.mp hmem
    exact hnone entry hentry (decide_eq_true rfl)
  · intro habsent entry hentry hkey
    exact habsent (List.mem_map.mpr ⟨entry, hentry, of_decide_eq_true hkey⟩)

theorem find?_set (map : InsertionMap Key Value) (key : Key) (value : Value) (other : Key) :
    (map.set key value).find? other = if other = key then some value else map.find? other := by
  rw [find?, find?, set]
  dsimp only
  induction map.entries with
  | nil =>
      rw [setEntry, List.find?_singleton]
      by_cases hother : other = key
      · simp [hother]
      · simp [hother, Ne.symm hother]
  | cons entry rest ih =>
      rw [setEntry]
      by_cases hkey : entry.1 = key
      · by_cases hother : other = key
        · simp [hkey, hother]
        · simp [hkey, hother, Ne.symm hother]
      · by_cases hfound : entry.1 = other
        · have hother : other ≠ key := fun hsame => hkey (hfound.trans hsame)
          simp [hfound, hother]
        · rw [if_neg hkey, List.find?_cons_of_neg (by simpa using hfound),
            List.find?_cons_of_neg (by simpa using hfound)]
          exact ih

theorem find?_delete (map : InsertionMap Key Value) (key other : Key) :
    (map.delete key).find? other = if other = key then none else map.find? other := by
  by_cases hother : other = key
  · rw [if_pos hother, find?_eq_none]
    intro hmem
    obtain ⟨entry, hentry, rfl⟩ := List.mem_map.mp hmem
    have hkept := (List.mem_filter.mp hentry).2
    exact of_decide_eq_true hkept hother
  · rw [if_neg hother, find?, find?, delete, keep, List.find?_filter]
    congr 2
    funext entry
    by_cases hfound : entry.1 = other
    · simp [hfound, hother]
    · simp [hfound]

omit [DecidableEq Key] in
theorem mem_keep {passes : Key × Value → Bool} {entry : Key × Value} :
    entry ∈ (map.keep passes).entries ↔ entry ∈ map.entries ∧ passes entry = true :=
  List.mem_filter

theorem mem_delete {entry : Key × Value} :
    entry ∈ (map.delete key).entries ↔ entry ∈ map.entries ∧ entry.1 ≠ key := by
  rw [delete, mem_keep, decide_eq_true_eq]

theorem entries_reinsert :
    (map.reinsert key value).entries = (map.delete key).entries ++ [(key, value)] := by
  apply setEntry_of_not_mem
  intro hmem
  obtain ⟨entry, hentry, hkey⟩ := List.mem_map.mp hmem
  exact (mem_delete.mp hentry).2 hkey

theorem mem_reinsert {entry : Key × Value} : entry ∈ (map.reinsert key value).entries ↔
    (entry ∈ map.entries ∧ entry.1 ≠ key) ∨ entry = (key, value) := by
  rw [entries_reinsert, List.mem_append, mem_delete, List.mem_singleton]

omit [DecidableEq Key] in
theorem entries_evictTo (map : InsertionMap Key Value) (capacity : ℕ) :
    (map.evictTo capacity).entries = map.entries.drop (map.size - capacity) :=
  evictEntries_eq_drop capacity map.entries

omit [DecidableEq Key] in
theorem size_evictTo_le (map : InsertionMap Key Value) (capacity : ℕ) :
    (map.evictTo capacity).size ≤ capacity := by
  rw [size, entries_evictTo, List.length_drop, size]
  omega

omit [DecidableEq Key] in
theorem mem_of_mem_evictTo {capacity : ℕ} {entry : Key × Value}
    (hmem : entry ∈ (map.evictTo capacity).entries) : entry ∈ map.entries := by
  rw [entries_evictTo] at hmem
  exact List.mem_of_mem_drop hmem

omit [DecidableEq Key] in
/-- An order in which the entries stand puts what is evicted before what stays. -/
theorem before_of_evictTo {before : Key × Value → Key × Value → Prop} {capacity : ℕ}
    (hordered : map.entries.Pairwise before) {dropped kept : Key × Value}
    (hdropped : dropped ∈ map.entries.take (map.size - capacity))
    (hkept : kept ∈ (map.evictTo capacity).entries) : before dropped kept := by
  rw [entries_evictTo] at hkept
  rw [← List.take_append_drop (map.size - capacity) map.entries] at hordered
  exact (List.pairwise_append.mp hordered).2.2 dropped hdropped kept hkept

omit [DecidableEq Key] in
/-- So many keys are evicted as are too many. -/
theorem length_take_evicted (map : InsertionMap Key Value) (capacity : ℕ) :
    ((map.entries.take (map.size - capacity)).map Prod.fst).length = map.size - capacity := by
  rw [List.length_map, List.length_take]
  exact min_eq_left (Nat.sub_le map.size capacity)

omit [DecidableEq Key] in
theorem mem_take_or_mem_evictTo (capacity : ℕ) {entry : Key × Value}
    (hmem : entry ∈ map.entries) : entry ∈ map.entries.take (map.size - capacity) ∨
      entry ∈ (map.evictTo capacity).entries := by
  rw [entries_evictTo, ← List.mem_append, List.take_append_drop]
  exact hmem

/-- Evicting deletes the keys of the first entries. -/
theorem evictTo_eq_keep (map : InsertionMap Key Value) (capacity : ℕ) :
    map.evictTo capacity = map.keep fun entry =>
      entry.1 ∉ (map.entries.take (map.size - capacity)).map Prod.fst := by
  apply InsertionMap.ext
  rw [entries_evictTo, keep]
  set count := map.size - capacity
  have hsplit := map.entries.take_append_drop count
  have hdistinct := map.nodup
  rw [← hsplit, List.map_append] at hdistinct
  have hapart := (List.nodup_append.mp hdistinct).2.2
  calc
    map.entries.drop count = (map.entries.take count).filter
          (fun entry => entry.1 ∉ (map.entries.take count).map Prod.fst) ++
        (map.entries.drop count).filter
          (fun entry => entry.1 ∉ (map.entries.take count).map Prod.fst) := by
      have hgone : (map.entries.take count).filter
          (fun entry => entry.1 ∉ (map.entries.take count).map Prod.fst) = [] := by
        rw [List.filter_eq_nil_iff]
        intro entry hentry hstays
        exact of_decide_eq_true hstays (List.mem_map_of_mem hentry)
      have hkept : (map.entries.drop count).filter
          (fun entry => entry.1 ∉ (map.entries.take count).map Prod.fst) =
            map.entries.drop count := by
        rw [List.filter_eq_self]
        intro entry hentry
        apply decide_eq_true
        intro hmem
        exact hapart entry.1 hmem entry.1 (List.mem_map_of_mem hentry) rfl
      rw [hgone, hkept, List.nil_append]
    _ = map.entries.filter
          (fun entry => entry.1 ∉ (map.entries.take count).map Prod.fst) := by
      rw [← List.filter_append, hsplit]

end InsertionMap

/-- There are as many names of distinct keys as there are keys. -/
theorem ncard_names {Name : Type*} {name : Name → Key} (hname : Function.Injective name)
    {keys : List Key} (hdistinct : keys.Nodup) (hnamed : ∀ key ∈ keys, ∃ known, key = name known) :
    {known | name known ∈ keys}.Finite ∧ {known | name known ∈ keys}.ncard = keys.length := by
  classical
  have himage : name '' {known | name known ∈ keys} = ↑keys.toFinset := by
    ext key
    rw [List.coe_toFinset]
    constructor
    · rintro ⟨known, hmem, rfl⟩
      exact hmem
    · intro hmem
      obtain ⟨known, rfl⟩ := hnamed key hmem
      exact ⟨known, hmem, rfl⟩
  constructor
  · apply Set.Finite.of_finite_image _ hname.injOn
    rw [himage]
    exact keys.toFinset.finite_toSet
  · rw [← Set.ncard_image_of_injective _ hname, himage, Set.ncard_coe_finset,
      List.toFinset_card_of_nodup hdistinct]

end StellarSettle.InsertionOrder
