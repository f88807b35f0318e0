import Mathlib.Data.List.Induction
import Mathlib.Data.List.Nodup

/-!
# Recording what is not found

A recorder looks each entry up among its rows and appends it where the look-up finds
nothing.  Looked up by an identity, the rows are the first entries of each identity; any
other look-up records the same rows exactly when it finds an earlier entry where, and only
where, the identity does.
-/

namespace StellarSettle.Recording

variable {Row Identity : Type*}

def record (found : Row → Row → Bool) (rows : List Row) (entry : Row) : List Row :=
  if rows.any (found entry) then rows else rows ++ [entry]

def recordAll (found : Row → Row → Bool) (rows entries : List Row) : List Row :=
  entries.foldl (record found) rows

/-! ## What is recorded -/

section Found

variable {found : Row → Row → Bool} {rows entries : List Row}

theorem recordAll_append (rest : List Row) :
    recordAll found rows (entries ++ rest) =
      recordAll found (recordAll found rows entries) rest :=
  List.foldl_append

theorem recordAll_cons_of_found {entry : Row} (hfound : rows.any (found entry) = true) :
    recordAll found rows (entry :: entries) = recordAll found rows entries := by
  rw [recordAll, List.foldl_cons, record, if_pos hfound, recordAll]

theorem recordAll_cons_of_missing {entry : Row} (hmissing : ¬rows.any (found entry) = true) :
    recordAll found rows (entry :: entries) = recordAll found (rows ++ [entry]) entries := by
  rw [recordAll, List.foldl_cons, record, if_neg hmissing, recordAll]

/-- What is recorded is appended, and was not found among the rows before. -/
theorem exists_added (found : Row → Row → Bool) (rows entries : List Row) :
    ∃ added, recordAll found rows entries = rows ++ added ∧
      ∀ entry ∈ added, entry ∈ entries ∧ rows.any (found entry) = false := by
  induction entries generalizing rows with
  | nil => exact ⟨[], (List.append_nil rows).symm, fun _ hmem => by cases hmem⟩
  | cons entry rest ih =>
      by_cases hfound : rows.any (found entry) = true
      · obtain ⟨added, hadded, hmem⟩ := ih rows
        rw [recordAll_cons_of_found hfound]
        exact ⟨added, hadded, fun other hother =>
          ⟨List.mem_cons_of_mem _ (hmem other hother).1, (hmem other hother).2⟩⟩
      · obtain ⟨added, hadded, hmem⟩ := ih (rows ++ [entry])
        rw [recordAll_cons_of_missing hfound]
        refine ⟨entry :: added, by rw [hadded]; simp, ?_⟩
        intro other hother
        rcases List.mem_cons.mp hother with rfl | hrest
        · exact ⟨List.mem_cons_self, Bool.not_eq_true _ |>.mp hfound⟩
        · obtain ⟨hin, hnone⟩ := hmem other hrest
          rw [List.any_append, Bool.or_eq_false_iff] at hnone
          exact ⟨List.mem_cons_of_mem _ hin, hnone.1⟩

theorem recordAll_of_found (hfound : ∀ entry ∈ entries, rows.any (found entry) = true) :
    recordAll found rows entries = rows := by
  induction entries with
  | nil => rfl
  | cons entry rest ih =>
      rw [recordAll_cons_of_found (hfound entry List.mem_cons_self)]
      exact ih fun other hother => hfound other (List.mem_cons_of_mem _ hother)

/-- An entry that one recorder finds and another appends keeps the two apart. -/
theorem recordAll_ne {other : Row → Row → Bool} {entry : Row} {rest : List Row}
    (hfound : rows.any (found entry) = true) :
    recordAll found rows entries ≠ recordAll other (rows ++ [entry]) rest := by
  intro hsame
  obtain ⟨added, hadded, hmissing⟩ := exists_added found rows entries
  obtain ⟨more, hmore, -⟩ := exists_added other (rows ++ [entry]) rest
  rw [hadded, hmore, List.append_assoc, List.append_cancel_left_eq] at hsame
  have hmem : entry ∈ added := by
    rw [hsame]
    exact List.mem_cons_self
  rw [(hmissing entry hmem).2] at hfound
  cases hfound

/-- A system that records the entries of each delivery records them all. -/
theorem rows_foldl {Delivery State : Type*} {step : State → Delivery → State}
    {entriesOf : Delivery → List Row} (rowsOf : State → List Row)
    (hstep : ∀ state delivery,
      rowsOf (step state delivery) = recordAll found (rowsOf state) (entriesOf delivery))
    (deliveries : List Delivery) (state : State) :
    rowsOf (deliveries.foldl step state) =
      recordAll found (rowsOf state) (deliveries.flatMap entriesOf) := by
  induction deliveries generalizing state with
  | nil => rfl
  | cons delivery rest ih =>
      rw [List.foldl_cons, ih, hstep, List.flatMap_cons, recordAll_append]

end Found

/-! ## Recording by an identity -/

section Identity

variable [DecidableEq Identity] {identity : Row → Identity} {rows entries : List Row}

def sameAs (identity : Row → Identity) (entry row : Row) : Bool :=
  decide (identity row = identity entry)

/-- The first entry of each identity, in the order of their arrival. -/
def distinctBy (identity : Row → Identity) (entries : List Row) : List Row :=
  recordAll (sameAs identity) [] entries

theorem any_sameAs {entry : Row} :
    rows.any (sameAs identity entry) = true ↔ ∃ row ∈ rows, identity row = identity entry := by
  simp [sameAs]

theorem distinctBy_append_singleton (entry : Row) :
    distinctBy identity (entries ++ [entry]) =
      record (sameAs identity) (distinctBy identity entries) entry :=
  recordAll_append [entry]

theorem mem_of_mem_distinctBy {row : Row} (hrow : row ∈ distinctBy identity entries) :
    row ∈ entries := by
  obtain ⟨added, hadded, hmem⟩ := exists_added (sameAs identity) [] entries
  rw [distinctBy, hadded, List.nil_append] at hrow
  exact (hmem row hrow).1

theorem exists_mem_distinctBy (value : Identity) :
    (∃ row ∈ distinctBy identity entries, identity row = value) ↔
      ∃ row ∈ entries, identity row = value := by
  constructor
  · rintro ⟨row, hrow, hvalue⟩
    exact ⟨row, mem_of_mem_distinctBy hrow, hvalue⟩
  · induction entries using List.reverseRecOn with
    | nil => rintro ⟨row, hrow, -⟩; cases hrow
    | append_singleton before entry ih =>
        rintro ⟨row, hrow, hvalue⟩
        rw [distinctBy_append_singleton, record]
        split
        · rename_i hfound
          rcases List.mem_append.mp hrow with hbefore | hlast
          · exact ih ⟨row, hbefore, hvalue⟩
          · obtain rfl := List.mem_singleton.mp hlast
            obtain ⟨first, hfirst, hsame⟩ := any_sameAs.mp hfound
            exact ⟨first, hfirst, hsame.trans hvalue⟩
        · rcases List.mem_append.mp hrow with hbefore | hlast
          · obtain ⟨first, hfirst, hsame⟩ := ih ⟨row, hbefore, hvalue⟩
            exact ⟨first, List.mem_append_left _ hfirst, hsame⟩
          · exact ⟨row, List.mem_append_right _ hlast, hvalue⟩

theorem recordAll_sameAs_of_fresh (hdistinct : (entries.map identity).Nodup)
    (hfresh : ∀ entry ∈ entries, ∀ row ∈ rows, identity row ≠ identity entry) :
    recordAll (sameAs identity) rows entries = rows ++ entries := by
  induction entries generalizing rows with
  | nil => exact (List.append_nil rows).symm
  | cons entry rest ih =>
      rw [List.map_cons, List.nodup_cons] at hdistinct
      have hmissing : ¬rows.any (sameAs identity entry) = true := by
        rw [any_sameAs]
        rintro ⟨row, hrow, hsame⟩
        exact hfresh entry List.mem_cons_self row hrow hsame
      rw [recordAll_cons_of_missing hmissing, ih hdistinct.2]
      · simp
      · intro other hother row hrow
        rcases List.mem_append.mp hrow with hbefore | hlast
        · exact hfresh other (List.mem_cons_of_mem _ hother) row hbefore
        · obtain rfl := List.mem_singleton.mp hlast
          exact fun hsame => hdistinct.1 (hsame ▸ List.mem_map_of_mem hother)

/-- The entries of the distinct sources are the distinct entries, where a source comes with
the same identities each time and each of them tells its source. -/
theorem distinctBy_flatMap {Source Delivery : Type*} [DecidableEq Source]
    {source : Delivery → Source} {sourceOf : Identity → Source}
    {entriesOf : Delivery → List Row} {deliveries : List Delivery}
    (hdistinct : ∀ delivery ∈ deliveries, ((entriesOf delivery).map identity).Nodup)
    (hsame : ∀ left ∈ deliveries, ∀ right ∈ deliveries, source left = source right →
      (entriesOf left).map identity = (entriesOf right).map identity)
    (hsource : ∀ delivery ∈ deliveries, ∀ entry ∈ entriesOf delivery,
      sourceOf (identity entry) = source delivery) :
    distinctBy identity (deliveries.flatMap entriesOf) =
      (distinctBy source deliveries).flatMap entriesOf := by
  induction deliveries using List.reverseRecOn with
  | nil => rfl
  | append_singleton before delivery ih =>
      have hbefore : ∀ {earlier}, earlier ∈ before → earlier ∈ before ++ [delivery] :=
        fun hmem => List.mem_append_left _ hmem
      have hlast : delivery ∈ before ++ [delivery] := by simp
      have hrest := ih (fun earlier hmem => hdistinct earlier (hbefore hmem))
        (fun left hleft right hright => hsame left (hbefore hleft) right (hbefore hright))
        (fun earlier hmem => hsource earlier (hbefore hmem))
      rw [distinctBy] at hrest
      rw [List.flatMap_append, List.flatMap_singleton, distinctBy, recordAll_append, hrest,
        distinctBy_append_singleton, record]
      split
      · rename_i hseen
        obtain ⟨earlier, hmem, hsameSource⟩ := any_sameAs.mp hseen
        refine recordAll_of_found fun entry hentry => any_sameAs.mpr ?_
        have hidentity : identity entry ∈ (entriesOf earlier).map identity := by
          rw [hsame earlier (hbefore (mem_of_mem_distinctBy hmem)) delivery hlast
            hsameSource]
          exact List.mem_map_of_mem hentry
        obtain ⟨row, hrow, hequal⟩ := List.mem_map.mp hidentity
        exact ⟨row, List.mem_flatMap.mpr ⟨earlier, hmem, hrow⟩, hequal⟩
      · rename_i hnew
        rw [List.flatMap_append, List.flatMap_singleton]
        refine recordAll_sameAs_of_fresh (hdistinct delivery hlast)
          fun entry hentry row hrow hidentity => ?_
        obtain ⟨earlier, hmem, hrow⟩ := List.mem_flatMap.mp hrow
        refine hnew (any_sameAs.mpr ⟨earlier, hmem, ?_⟩)
        calc source earlier = sourceOf (identity row) :=
              (hsource earlier (hbefore (mem_of_mem_distinctBy hmem)) row hrow).symm
          _ = sourceOf (identity entry) := by rw [hidentity]
          _ = source delivery := hsource delivery hlast entry hentry

end Identity

/-! ## Other look-ups -/

section Lookup

variable [DecidableEq Identity] {found : Row → Row → Bool} {identity : Row → Identity}

/-- Each entry finds an earlier one exactly where an earlier one has its identity. -/
def FindsItself (found : Row → Row → Bool) (identity : Row → Identity) :
    List Row → List Row → Prop
  | _, [] => True
  | before, entry :: rest =>
      ((∃ row ∈ before, found entry row = true) ↔ ∃ row ∈ before, identity row = identity entry) ∧
        FindsItself found identity (before ++ [entry]) rest

def decideFindsItself (found : Row → Row → Bool) (identity : Row → Identity) :
    (before entries : List Row) → Decidable (FindsItself found identity before entries)
  | _, [] => inferInstanceAs (Decidable True)
  | before, entry :: rest =>
      have := decideFindsItself found identity (before ++ [entry]) rest
      inferInstanceAs (Decidable (_ ∧ _))

instance (before entries : List Row) : Decidable (FindsItself found identity before entries) :=
  decideFindsItself found identity before entries

/-- Entries of one identity find the same, and are found alike. -/
structure Respects (found : Row → Row → Bool) (identity : Row → Identity) (entries : List Row) :
    Prop where
  finds : ∀ left ∈ entries, ∀ right ∈ entries, identity left = identity right →
    ∀ row, found left row = found right row
  foundAlike : ∀ left ∈ entries, ∀ right ∈ entries, identity left = identity right →
    ∀ entry, found entry left = found entry right

theorem any_distinctBy {before : List Row} (hrespects : Respects found identity before)
    (entry : Row) :
    (distinctBy identity before).any (found entry) = true ↔
      ∃ row ∈ before, found entry row = true := by
  rw [List.any_eq_true]
  constructor
  · rintro ⟨row, hrow, hfound⟩
    exact ⟨row, mem_of_mem_distinctBy hrow, hfound⟩
  · rintro ⟨row, hrow, hfound⟩
    obtain ⟨first, hfirst, hsame⟩ := (exists_mem_distinctBy (identity row)).mpr ⟨row, hrow, rfl⟩
    exact ⟨first, hfirst, by
      rw [hrespects.foundAlike first (mem_of_mem_distinctBy hfirst) row hrow hsame entry]
      exact hfound⟩

theorem recordAll_eq_iff {before rest : List Row}
    (hrespects : Respects found identity (before ++ rest)) :
    recordAll found (distinctBy identity before) rest =
        recordAll (sameAs identity) (distinctBy identity before) rest ↔
      FindsItself found identity before rest := by
  induction rest generalizing before with
  | nil => exact iff_of_true rfl trivial
  | cons entry rest ih =>
      have hbefore : Respects found identity before :=
        ⟨fun left hleft right hright => hrespects.finds left (List.mem_append_left _ hleft) right
            (List.mem_append_left _ hright),
          fun left hleft right hright => hrespects.foundAlike left (List.mem_append_left _ hleft)
            right (List.mem_append_left _ hright)⟩
      have hnext := ih (show Respects found identity ((before ++ [entry]) ++ rest) by
        simpa using hrespects)
      rw [FindsItself, ← any_distinctBy hbefore entry,
        ← exists_mem_distinctBy (identity entry), ← any_sameAs]
      rw [distinctBy_append_singleton, record] at hnext
      by_cases hfound : (distinctBy identity before).any (found entry) = true
      · by_cases hseen : (distinctBy identity before).any (sameAs identity entry) = true
        · rw [if_pos hseen] at hnext
          rw [recordAll_cons_of_found hfound, recordAll_cons_of_found hseen, hnext]
          exact ⟨fun hrest => ⟨iff_of_true hfound hseen, hrest⟩, fun hboth => hboth.2⟩
        · rw [recordAll_cons_of_found hfound, recordAll_cons_of_missing hseen]
          exact iff_of_false (recordAll_ne hfound) fun hboth => hseen (hboth.1.mp hfound)
      · by_cases hseen : (distinctBy identity before).any (sameAs identity entry) = true
        · rw [recordAll_cons_of_missing hfound, recordAll_cons_of_found hseen]
          exact iff_of_false (fun hsame => recordAll_ne hseen hsame.symm)
            fun hboth => hfound (hboth.1.mpr hseen)
        · rw [if_neg hseen] at hnext
          rw [recordAll_cons_of_missing hfound, recordAll_cons_of_missing hseen, hnext]
          exact ⟨fun hrest => ⟨iff_of_false hfound hseen, hrest⟩, fun hboth => hboth.2⟩

/-- A look-up records the distinct entries exactly where it finds each entry itself. -/
theorem recordAll_eq_distinctBy_iff {entries : List Row}
    (hrespects : Respects found identity entries) :
    recordAll found [] entries = distinctBy identity entries ↔
      FindsItself found identity [] entries := by
  have hempty : Respects found identity ([] ++ entries) := hrespects
  exact recordAll_eq_iff hempty

/-- What is recorded for the deliveries are the entries of the distinct sources exactly where
the look-up finds each entry itself. -/
theorem recordAll_flatMap_iff {Source Delivery : Type*} [DecidableEq Source]
    {source : Delivery → Source} (sourceOf : Identity → Source)
    {entriesOf : Delivery → List Row} {deliveries : List Delivery}
    (hdistinct : ∀ delivery ∈ deliveries, ((entriesOf delivery).map identity).Nodup)
    (hsame : ∀ left ∈ deliveries, ∀ right ∈ deliveries, source left = source right →
      (entriesOf left).map identity = (entriesOf right).map identity)
    (hsource : ∀ delivery ∈ deliveries, ∀ entry ∈ entriesOf delivery,
      sourceOf (identity entry) = source delivery)
    (hrespects : Respects found identity (deliveries.flatMap entriesOf)) :
    recordAll found [] (deliveries.flatMap entriesOf) =
        (distinctBy source deliveries).flatMap entriesOf ↔
      FindsItself found identity [] (deliveries.flatMap entriesOf) := by
  rw [← distinctBy_flatMap hdistinct hsame hsource]
  exact recordAll_eq_distinctBy_iff hrespects

end Lookup

end StellarSettle.Recording
