import Mathlib.Data.Finset.Card
import StellarSettle.Core.InsertionOrder

/-!
# Recently used entries

A map whose keys move to the end when they are used has its least recently used entry at the front.
Where the first entry makes room, an entry goes only after as many other keys have been used since
its own last use as the map has room for.
-/

namespace StellarSettle.RecentEntries

open StellarSettle.InsertionOrder

variable {Key Value : Type*}

/-- Deletes the first entry. -/
def dropOldest (map : InsertionMap Key Value) : InsertionMap Key Value where
  entries := map.entries.tail
  nodup := map.nodup.sublist ((List.tail_sublist _).map Prod.fst)

/-- The entry of a key, with nothing behind it but entries of the given keys. -/
def UsedBefore (map : InsertionMap Key Value) (key : Key) (value : Value) (later : Finset Key) :
    Prop :=
  ∃ front back, map.entries = front ++ (key, value) :: back ∧ ∀ entry ∈ back, entry.1 ∈ later

variable [DecidableEq Key] {map : InsertionMap Key Value} {key other : Key} {value : Value}
  {later : Finset Key}

omit [DecidableEq Key] in
theorem UsedBefore.mem (hused : UsedBefore map key value later) : (key, value) ∈ map.entries := by
  obtain ⟨front, back, hentries, -⟩ := hused
  rw [hentries]
  exact List.mem_append_right _ (List.mem_cons_self ..)

theorem UsedBefore.find?_eq (hused : UsedBefore map key value later) :
    map.find? key = some value :=
  InsertionMap.find?_eq_some.mpr hused.mem

/-- A key that is used stands at the end. -/
theorem usedBefore_reinsert (map : InsertionMap Key Value) (key : Key) (value : Value) :
    UsedBefore (map.reinsert key value) key value ∅ := by
  refine ⟨(map.delete key).entries, [], ?_, List.forall_mem_nil _⟩
  rw [InsertionMap.entries_reinsert]

omit [DecidableEq Key] in
theorem UsedBefore.mono {wider : Finset Key} (hwider : later ⊆ wider)
    (hused : UsedBefore map key value later) : UsedBefore map key value wider := by
  obtain ⟨front, back, hentries, hback⟩ := hused
  exact ⟨front, back, hentries, fun entry hentry => hwider (hback entry hentry)⟩

theorem UsedBefore.delete (hother : other ≠ key) (hused : UsedBefore map key value later) :
    UsedBefore (map.delete other) key value later := by
  obtain ⟨front, back, hentries, hback⟩ := hused
  refine ⟨front.filter fun entry => entry.1 ≠ other, back.filter fun entry => entry.1 ≠ other,
    ?_, fun entry hentry => hback entry (List.mem_of_mem_filter hentry)⟩
  change map.entries.filter (fun entry => entry.1 ≠ other) = _
  have hkept : decide ((key, value).1 ≠ other) = true := decide_eq_true hother.symm
  rw [hentries, List.filter_append, List.filter_cons, if_pos hkept]

theorem UsedBefore.append {longer : InsertionMap Key Value} {used : Value}
    (hentries : longer.entries = map.entries ++ [(other, used)])
    (hused : UsedBefore map key value later) :
    UsedBefore longer key value (insert other later) := by
  obtain ⟨front, back, hmap, hback⟩ := hused
  refine ⟨front, back ++ [(other, used)], ?_, fun entry hentry => ?_⟩
  · rw [hentries, hmap, List.append_assoc, List.cons_append]
  · rcases List.mem_append.mp hentry with hbefore | hlast
    · exact Finset.mem_insert_of_mem (hback entry hbefore)
    · rw [List.mem_singleton.mp hlast]
      exact Finset.mem_insert_self other later

/-- The use of another key keeps an entry, and is one of the later ones. -/
theorem UsedBefore.reinsert {used : Value} (hother : other ≠ key)
    (hused : UsedBefore map key value later) :
    UsedBefore (map.reinsert other used) key value (insert other later) :=
  (hused.delete hother).append InsertionMap.entries_reinsert

/-- A new key is appended. -/
theorem UsedBefore.set_new {used : Value} (hnew : other ∉ map.entries.map Prod.fst)
    (hused : UsedBefore map key value later) :
    UsedBefore (map.set other used) key value (insert other later) :=
  hused.append (InsertionMap.setEntry_of_not_mem hnew)

/-- The first entry that makes room for a new key is another one while fewer keys were used later
than there is room for. -/
theorem UsedBefore.dropOldest {capacity : ℕ} (hfull : capacity ≤ map.size)
    (hnew : other ∉ map.entries.map Prod.fst) (hfew : (insert other later).card < capacity)
    (hused : UsedBefore map key value later) :
    UsedBefore (dropOldest map) key value later := by
  obtain ⟨front, back, hentries, hback⟩ := hused
  cases front with
  | cons first front =>
      refine ⟨front, back, ?_, hback⟩
      change map.entries.tail = _
      rw [hentries, List.cons_append, List.tail_cons]
  | nil =>
      have hdistinct := map.nodup
      rw [hentries, List.nil_append, List.map_cons] at hdistinct
      have hsubset : (back.map Prod.fst).toFinset ⊆ later := by
        intro used hmem
        obtain ⟨entry, hentry, rfl⟩ := List.mem_map.mp (List.mem_toFinset.mp hmem)
        exact hback entry hentry
      have hotherBack : other ∉ (back.map Prod.fst).toFinset := by
        rw [List.mem_toFinset]
        intro hmem
        apply hnew
        rw [hentries, List.nil_append, List.map_cons]
        exact List.mem_cons_of_mem _ hmem
      have hcount : (insert other (back.map Prod.fst).toFinset).card = map.size := by
        rw [Finset.card_insert_of_notMem hotherBack,
          List.toFinset_card_of_nodup (List.nodup_cons.mp hdistinct).2, List.length_map,
          InsertionMap.size, hentries]
        rfl
      have hmore := Finset.card_le_card (Finset.insert_subset_insert other hsubset)
      omega

end StellarSettle.RecentEntries
