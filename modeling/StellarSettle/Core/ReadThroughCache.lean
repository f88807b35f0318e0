import StellarSettle.Core.TransitionSystem

/-!
# Caches that are filled by reads and emptied by events

A read that misses loads its rows, stores the view and then registers the key of the view
under its group.  An event records rows of one group or of all groups, and then deletes the
views whose keys are registered.  Reads and events take turns at every pause between these
steps.  A view is known by the number of records of its group that it was computed from.

The keys are registered in a map of sets that is walked while it changes: a new entry comes
last, and a removed one leaves its place empty.
-/

namespace StellarSettle.ReadThroughCache

open StellarSettle.TransitionSystem

/-! ## The cache and its calls -/

/-- The groups that an event touches. -/
inductive Target (Group : Type*) where
  | one (group : Group)
  | all
  deriving DecidableEq, Repr

/-- An entry of the map of registered keys; a removed one is not live. -/
structure Slot (Group Variant : Type*) where
  group : Group
  keys : List Variant
  live : Bool := true
  deriving DecidableEq, Repr

/-- How far a read is.  `floor` is the number of records that were settled when it started;
no step depends on it. -/
inductive Reader (Group Variant : Type*) where
  | missed (group : Group) (variant : Variant)
  | loading (group : Group) (variant : Variant) (seen : ℕ)
  | stored (group : Group) (variant : Variant) (seen : ℕ)
  | loaded (group : Group) (variant : Variant) (seen : ℕ)
  | hit (group : Group) (variant : Variant) (floor seen : ℕ)
  | failed
  deriving DecidableEq, Repr

/-- How far an event is.  `index` counts the records of each group up to its own. -/
inductive Handler (Group Variant : Type*) where
  | started (target : Target Group)
  | recorded (target : Target Group) (index : Group → ℕ)
  | deleting (group : Group) (index : Group → ℕ) (keys : List Variant)
  | iterating (index : Group → ℕ) (slot key : ℕ)
  | resolved
  | failed

/-- `begun` and `settled` count the records of each group up to those whose invalidation has
begun, and whose event has resolved; no step depends on them. -/
structure World (Group Variant : Type*) where
  records : Group → ℕ := fun _ => 0
  memory : Group → Variant → Option ℕ := fun _ _ => none
  slots : List (Slot Group Variant) := []
  readers : List (Reader Group Variant) := []
  handlers : List (Handler Group Variant) := []
  begun : Group → ℕ := fun _ => 0
  settled : Group → ℕ := fun _ => 0

/-- A view may expire or be evicted at any time. -/
inductive Event (Group Variant : Type*) where
  | startRead (group : Group) (variant : Variant)
  | load (reader : ℕ)
  | store (reader : ℕ)
  | remember (reader : ℕ)
  | failRead (reader : ℕ)
  | startHandle (target : Target Group)
  | record (handler : ℕ)
  | failHandle (handler : ℕ)
  | invalidate (handler : ℕ)
  | advance (handler : ℕ)
  | evict (group : Group) (variant : Variant)
  deriving DecidableEq, Repr

variable {Group Variant : Type*} [DecidableEq Group] [DecidableEq Variant]

def Target.Covers : Target Group → Group → Prop
  | .one group, other => group = other
  | .all, _ => True

instance (target : Target Group) (group : Group) : Decidable (target.Covers group) := by
  cases target <;> unfold Target.Covers <;> infer_instance

/-- Two events touch a common group. -/
def Target.Overlaps : Target Group → Target Group → Prop
  | .one left, .one right => left = right
  | _, _ => True

instance (left right : Target Group) : Decidable (left.Overlaps right) := by
  cases left <;> cases right <;> unfold Target.Overlaps <;> infer_instance

/-- The counts of the covered groups. -/
def Target.raise (target : Target Group) (counts raised : Group → ℕ) : Group → ℕ :=
  fun group => if target.Covers group then max (counts group) (raised group) else counts group

/-! ## Registered keys -/

/-- The keys that are registered for a group. -/
def keysOf (slots : List (Slot Group Variant)) (group : Group) : List Variant :=
  ((slots.find? fun slot => slot.live ∧ slot.group = group).map Slot.keys).getD []

/-- Registers a key, under a new entry where the group has none. -/
def remember (group : Group) (variant : Variant) :
    List (Slot Group Variant) → List (Slot Group Variant)
  | [] => [{ group := group, keys := [variant] }]
  | slot :: rest =>
      if slot.live ∧ slot.group = group then
        { slot with
          keys := if variant ∈ slot.keys then slot.keys else slot.keys ++ [variant] } :: rest
      else slot :: remember group variant rest

/-- Removes the entries that a target covers. -/
def removeEntries (target : Target Group) (slots : List (Slot Group Variant)) :
    List (Slot Group Variant) :=
  slots.map fun slot => if target.Covers slot.group then { slot with live := false } else slot

/-! ## Steps -/

def setView (memory : Group → Variant → Option ℕ) (group : Group) (variant : Variant)
    (view : Option ℕ) : Group → Variant → Option ℕ :=
  fun other key => if other = group ∧ key = variant then view else memory other key

def World.moveReader (world : World Group Variant) (index : ℕ) (reader : Reader Group Variant) :
    World Group Variant :=
  { world with readers := world.readers.set index reader }

def World.moveHandler (world : World Group Variant) (index : ℕ)
    (handler : Handler Group Variant) : World Group Variant :=
  { world with handlers := world.handlers.set index handler }

/-- The end of an event. -/
def World.settle (world : World Group Variant) (handler : ℕ) (target : Target Group)
    (index : Group → ℕ) : World Group Variant :=
  { world with settled := target.raise world.settled index }.moveHandler handler .resolved

def World.deleteView (world : World Group Variant) (group : Group) (variant : Variant) :
    World Group Variant :=
  { world with memory := setView world.memory group variant none }

/-- The next step of an invalidation: a walk over the registered keys of all groups ends with
clearing them. -/
def advance (world : World Group Variant) (handler : ℕ) :
    Handler Group Variant → Option (World Group Variant)
  | .deleting group index [] => some (world.settle handler (.one group) index)
  | .deleting group index (variant :: keys) =>
      some ((world.deleteView group variant).moveHandler handler (.deleting group index keys))
  | .iterating index slot key =>
      match world.slots[slot]? with
      | none =>
          some ({ world with slots := removeEntries .all world.slots }.settle handler .all index)
      | some entry =>
          if key = 0 ∧ entry.live = false then
            some (world.moveHandler handler (.iterating index (slot + 1) 0))
          else
            match entry.keys[key]? with
            | some variant =>
                some ((world.deleteView entry.group variant).moveHandler handler
                  (.iterating index slot (key + 1)))
            | none => some (world.moveHandler handler (.iterating index (slot + 1) 0))
  | _ => none

def step (world : World Group Variant) : Event Group Variant → Option (World Group Variant)
  | .startRead group variant =>
      some { world with
        readers := world.readers ++ [match world.memory group variant with
          | some seen => .hit group variant (world.settled group) seen
          | none => .missed group variant] }
  | .load reader =>
      match world.readers[reader]? with
      | some (.missed group variant) =>
          some (world.moveReader reader (.loading group variant (world.records group)))
      | _ => none
  | .store reader =>
      match world.readers[reader]? with
      | some (.loading group variant seen) =>
          some ({ world with
            memory := setView world.memory group variant (some seen) }.moveReader reader
              (.stored group variant seen))
      | _ => none
  | .remember reader =>
      match world.readers[reader]? with
      | some (.stored group variant seen) =>
          some ({ world with slots := remember group variant world.slots }.moveReader reader
            (.loaded group variant seen))
      | _ => none
  | .failRead reader =>
      match world.readers[reader]? with
      | some (.missed _ _) => some (world.moveReader reader .failed)
      | some (.loading _ _ _) => some (world.moveReader reader .failed)
      | _ => none
  | .startHandle target => some { world with handlers := world.handlers ++ [.started target] }
  | .record handler =>
      match world.handlers[handler]? with
      | some (.started target) =>
          let records := target.raise world.records fun group => world.records group + 1
          some ({ world with records := records }.moveHandler handler (.recorded target records))
      | _ => none
  | .failHandle handler =>
      match world.handlers[handler]? with
      | some (.started _) => some (world.moveHandler handler .failed)
      | _ => none
  | .invalidate handler =>
      match world.handlers[handler]? with
      | some (.recorded (.one group) index) =>
          some ({ world with
            slots := removeEntries (.one group) world.slots
            begun := (Target.one group).raise world.begun index }.moveHandler handler
              (.deleting group index (keysOf world.slots group)))
      | some (.recorded .all index) =>
          some ({ world with begun := Target.all.raise world.begun index }.moveHandler handler
            (.iterating index 0 0))
      | _ => none
  | .advance handler => (world.handlers[handler]?).bind (advance world handler)
  | .evict group variant => some (world.deleteView group variant)

/-- A read that has loaded rows, and whose key is not registered yet. -/
def Reader.unregistered : Reader Group Variant → Option (Group × ℕ)
  | .loading group _ seen => some (group, seen)
  | .stored group _ seen => some (group, seen)
  | _ => none

/-- What an event is deleting the views of. -/
def Handler.invalidates : Handler Group Variant → Option (Target Group)
  | .deleting group _ _ => some (.one group)
  | .iterating _ _ _ => some .all
  | _ => none

/-- An invalidation begins when no read of its groups is on its way with rows from before the
record, and no other invalidation of its groups is going on.  The keys of all groups are
cleared when no registered view is left. -/
def Orderly (world : World Group Variant) : Event Group Variant → Prop
  | .invalidate handler =>
      match world.handlers[handler]? with
      | some (.recorded target index) =>
          (∀ reader ∈ world.readers, ∀ loaded ∈ reader.unregistered,
            target.Covers loaded.1 → index loaded.1 ≤ loaded.2) ∧
          ∀ other ∈ world.handlers, ∀ current ∈ other.invalidates, ¬target.Overlaps current
      | _ => True
  | .advance handler =>
      match world.handlers[handler]? with
      | some (.iterating _ slot _) =>
          world.slots[slot]? = none → ∀ entry ∈ world.slots, entry.live = true →
            ∀ variant ∈ entry.keys, world.memory entry.group variant = none
      | _ => True
  | _ => True

instance (world : World Group Variant) (event : Event Group Variant) :
    Decidable (Orderly world event) := by
  cases event <;> unfold Orderly
  case invalidate => dsimp only; split <;> infer_instance
  case advance => dsimp only; split <;> infer_instance
  all_goals infer_instance

/-- No read returns a cached view from before an event that had resolved when it started. -/
def ReadsSettled (world : World Group Variant) : Prop :=
  ∀ group variant floor seen, Reader.hit group variant floor seen ∈ world.readers → floor ≤ seen

/-! ## Registered keys: facts -/

section Keys

variable {slots : List (Slot Group Variant)} {slot : Slot Group Variant} {group other : Group}
  {variant key : Variant}

omit [DecidableEq Variant] in
theorem keysOf_cons (slot : Slot Group Variant) (slots : List (Slot Group Variant))
    (group : Group) : keysOf (slot :: slots) group =
      if slot.live = true ∧ slot.group = group then slot.keys else keysOf slots group := by
  rw [keysOf, List.find?_cons]
  by_cases hfound : slot.live = true ∧ slot.group = group
  · simp [hfound]
  · simp [hfound, keysOf]

/-- Registering a key adds it to the keys of its group. -/
theorem mem_keysOf_remember : key ∈ keysOf (remember group variant slots) other ↔
    key ∈ keysOf slots other ∨ other = group ∧ key = variant := by
  induction slots with
  | nil =>
      rw [remember, keysOf_cons]
      by_cases hgroup : group = other
      · simp [hgroup, keysOf]
      · simp [hgroup, keysOf, Ne.symm hgroup]
  | cons slot rest ih =>
      by_cases hslot : slot.live = true ∧ slot.group = group
      · rw [remember, if_pos hslot, keysOf_cons, keysOf_cons]
        by_cases hother : slot.group = other
        · have hsame : other = group := hother.symm.trans hslot.2
          by_cases hknown : variant ∈ slot.keys
          · simp only [hslot.1, hother, hknown, if_true, true_and, and_self, hsame]
            refine ⟨.inl, ?_⟩
            rintro (hmem | rfl)
            · exact hmem
            · exact hknown
          · simp [hslot.1, hother, hknown, hsame]
        · have hdifferent : ¬other = group := fun hsame => hother (hslot.2.trans hsame.symm)
          simp [hother, hdifferent]
      · rw [remember, if_neg hslot, keysOf_cons, keysOf_cons]
        by_cases hother : slot.live = true ∧ slot.group = other
        · have hdifferent : ¬other = group := fun hsame => hslot ⟨hother.1, hother.2.trans hsame⟩
          simp [hother, hdifferent]
        · rw [if_neg hother, if_neg hother]
          exact ih

omit [DecidableEq Variant] in
/-- Removing entries leaves the keys of the other groups. -/
theorem keysOf_removeEntries (target : Target Group) (slots : List (Slot Group Variant))
    (group : Group) : keysOf (removeEntries target slots) group =
      if target.Covers group then [] else keysOf slots group := by
  induction slots with
  | nil => simp [removeEntries, keysOf]
  | cons slot rest ih =>
      rw [removeEntries, List.map_cons, ← removeEntries, keysOf_cons, ih, keysOf_cons]
      by_cases hcovers : target.Covers slot.group
      · by_cases hgroup : slot.group = group
        · subst hgroup
          simp [hcovers]
        · simp [hcovers, hgroup]
      · by_cases hgroup : slot.group = group
        · subst hgroup
          simp [hcovers]
        · simp [hcovers, hgroup]

omit [DecidableEq Variant] in
theorem exists_mem_of_mem_keysOf (hmem : variant ∈ keysOf slots group) :
    ∃ entry ∈ slots, entry.live = true ∧ entry.group = group ∧ variant ∈ entry.keys := by
  rw [keysOf] at hmem
  cases hfound : slots.find? fun slot => slot.live ∧ slot.group = group with
  | none =>
      rw [hfound] at hmem
      cases hmem
  | some entry =>
      rw [hfound] at hmem
      have hentry := List.find?_some hfound
      simp only [decide_eq_true_eq] at hentry
      exact ⟨entry, List.mem_of_find?_eq_some hfound, hentry.1, hentry.2, hmem⟩

/-- The key is in a live entry, not before the place where the walk is. -/
def Ahead (slots : List (Slot Group Variant)) (slot key : ℕ) (group : Group)
    (variant : Variant) : Prop :=
  ∃ (place : ℕ) (position : ℕ) (entry : Slot Group Variant), slots[place]? = some entry ∧
    entry.live = true ∧ entry.group = group ∧ entry.keys[position]? = some variant ∧
    (slot < place ∨ slot = place ∧ key ≤ position)

omit [DecidableEq Variant] in
/-- A walk begins before every registered key. -/
theorem ahead_of_mem_keysOf (hmem : variant ∈ keysOf slots group) :
    Ahead slots 0 0 group variant := by
  obtain ⟨entry, hentry, hlive, hgroup, hvariant⟩ := exists_mem_of_mem_keysOf hmem
  obtain ⟨place, hplace⟩ := List.mem_iff_getElem?.mp hentry
  obtain ⟨position, hposition⟩ := List.mem_iff_getElem?.mp hvariant
  refine ⟨place, position, entry, hplace, hlive, hgroup, hposition, ?_⟩
  omega

/-- Registering a key leaves the others in their places. -/
theorem getElem?_remember {place : ℕ} (hplace : slots[place]? = some slot) :
    ∃ kept, (remember group variant slots)[place]? = some kept ∧ kept.live = slot.live ∧
      kept.group = slot.group ∧ slot.keys <+: kept.keys := by
  induction slots generalizing place with
  | nil => simp at hplace
  | cons first rest ih =>
      rw [remember]
      by_cases hfirst : first.live = true ∧ first.group = group
      · rw [if_pos hfirst]
        cases place with
        | zero =>
            obtain rfl := Option.some.inj hplace
            refine ⟨_, rfl, rfl, rfl, ?_⟩
            dsimp only
            split
            · exact List.prefix_refl _
            · exact List.prefix_append _ _
        | succ place => exact ⟨slot, hplace, rfl, rfl, List.prefix_refl _⟩
      · rw [if_neg hfirst]
        cases place with
        | zero => exact ⟨slot, hplace, rfl, rfl, List.prefix_refl _⟩
        | succ place => exact ih hplace

theorem Ahead.remember {place position : ℕ} (hahead : Ahead slots place position other key) :
    Ahead (remember group variant slots) place position other key := by
  obtain ⟨found, foundKey, entry, hentry, hlive, hgroup, hkey, hlater⟩ := hahead
  obtain ⟨kept, hkept, hkeptLive, hkeptGroup, added, hadded⟩ := getElem?_remember hentry
  refine ⟨found, foundKey, kept, hkept, hkeptLive.trans hlive, hkeptGroup.trans hgroup, ?_,
    hlater⟩
  have hlength : foundKey < entry.keys.length := (List.getElem?_eq_some_iff.mp hkey).1
  rw [← hadded, List.getElem?_append_left hlength, hkey]

end Keys

/-! ## The invariant -/

/-- The event is going to delete the view. -/
def Dooms (slots : List (Slot Group Variant)) (group : Group) (variant : Variant) :
    Handler Group Variant → Prop
  | .deleting own _ keys => own = group ∧ variant ∈ keys
  | .iterating _ slot key => Ahead slots slot key group variant
  | _ => False

/-- The event has taken the key out of the map. -/
def Holds (group : Group) (variant : Variant) : Handler Group Variant → Prop
  | .deleting own _ keys => own = group ∧ variant ∈ keys
  | _ => False

/-- An event's own records have been made; those of an event that deletes views have begun to
be invalidated. -/
def Counted (world : World Group Variant) : Handler Group Variant → Prop
  | .recorded target index => ∀ group, target.Covers group → index group ≤ world.records group
  | .deleting group index _ => index group ≤ world.begun group
  | .iterating index _ _ => ∀ group, index group ≤ world.begun group
  | _ => True

/-- There is an event of this kind. -/
def Someone (handlers : List (Handler Group Variant)) (kind : Handler Group Variant → Prop) :
    Prop :=
  ∃ (index : ℕ) (handler : Handler Group Variant), handlers[index]? = some handler ∧ kind handler

/-- A cached view is as new as what has begun to be invalidated, or it is going to be deleted;
and its key can be found. -/
structure Kept (world : World Group Variant) (group : Group) (variant : Variant) (seen : ℕ) :
    Prop where
  settled : world.settled group ≤ seen
  current : world.begun group ≤ seen ∨
    Someone world.handlers (Dooms world.slots group variant)
  found : variant ∈ keysOf world.slots group ∨
    Someone world.handlers (Holds group variant) ∨
    ∃ reader : ℕ, world.readers[reader]? = some (.stored group variant seen)

structure Consistent (world : World Group Variant) : Prop where
  begun : ∀ group, world.settled group ≤ world.begun group ∧
    world.begun group ≤ world.records group
  cached : ∀ group variant seen, world.memory group variant = some seen →
    Kept world group variant seen
  unregistered : ∀ reader ∈ world.readers, ∀ loaded, reader.unregistered = some loaded →
    world.begun loaded.1 ≤ loaded.2
  counted : ∀ handler ∈ world.handlers, Counted world handler
  alone : ∀ (left right : ℕ) (first second : Handler Group Variant) (target other : Target Group),
    world.handlers[left]? = some first → world.handlers[right]? = some second →
    first.invalidates = some target → second.invalidates = some other →
    target.Overlaps other → left = right
  hits : ReadsSettled world

section Moves

variable {handlers : List (Handler Group Variant)} {index : ℕ}
  {handler next : Handler Group Variant} {kind other : Handler Group Variant → Prop}

omit [DecidableEq Group] [DecidableEq Variant] in
/-- Where the moved event stays of the kind, someone is of the kind. -/
theorem Someone.set (hsomeone : Someone handlers kind) (hhandler : handlers[index]? = some handler)
    (hmoved : kind handler → other next)
    (hothers : ∀ state ∈ handlers, kind state → other state) :
    Someone (handlers.set index next) other := by
  obtain ⟨found, state, hfound, hkind⟩ := hsomeone
  by_cases hsame : index = found
  · subst hsame
    obtain rfl := Option.some.inj (hhandler.symm.trans hfound)
    have hlength : index < handlers.length := (List.getElem?_eq_some_iff.mp hfound).1
    exact ⟨index, next, by rw [List.getElem?_set_self hlength], hmoved hkind⟩
  · exact ⟨found, state, by rw [List.getElem?_set_ne hsame, hfound],
      hothers state (List.mem_of_getElem? hfound) hkind⟩

omit [DecidableEq Group] [DecidableEq Variant] in
theorem Someone.append (hsomeone : Someone handlers kind) :
    Someone (handlers ++ [next]) kind := by
  obtain ⟨found, state, hfound, hkind⟩ := hsomeone
  have hlength : found < handlers.length := (List.getElem?_eq_some_iff.mp hfound).1
  exact ⟨found, state, by rw [List.getElem?_append_left hlength, hfound], hkind⟩

omit [DecidableEq Group] [DecidableEq Variant] in
theorem getElem?_set_cases {states : List (Handler Group Variant)} {found : ℕ}
    {state : Handler Group Variant} (hfound : (states.set index next)[found]? = some state) :
    found = index ∧ state = next ∨ states[found]? = some state := by
  by_cases hsame : index = found
  · subst hsame
    by_cases hlength : index < states.length
    · rw [List.getElem?_set_self hlength] at hfound
      exact .inl ⟨rfl, (Option.some.inj hfound).symm⟩
    · rw [List.set_eq_of_length_le (Nat.not_lt.mp hlength)] at hfound
      exact .inr hfound
  · rw [List.getElem?_set_ne hsame] at hfound
    exact .inr hfound

end Moves

section Reads

variable {world : World Group Variant} {index : ℕ} {reader next : Reader Group Variant}
  {group : Group} {variant : Variant} {seen : ℕ}

omit [DecidableEq Group] [DecidableEq Variant] in
/-- A read that moves leaves the others where they are. -/
theorem getElem?_set_other {readers : List (Reader Group Variant)} {other : Reader Group Variant}
    (hreader : readers[index]? = some reader) (hdifferent : reader ≠ other) {found : ℕ}
    (hfound : readers[found]? = some other) : (readers.set index next)[found]? = some other := by
  have hne : index ≠ found := by
    rintro rfl
    exact hdifferent (Option.some.inj (hreader.symm.trans hfound))
  rw [List.getElem?_set_ne hne, hfound]

omit [DecidableEq Variant] in
/-- A step of a read that touches neither the cache nor the registered keys. -/
theorem Consistent.moveReader (hconsistent : Consistent world)
    (hreader : world.readers[index]? = some reader)
    (hstored : ∀ group variant seen, reader ≠ .stored group variant seen)
    (hloaded : ∀ loaded, next.unregistered = some loaded → world.begun loaded.1 ≤ loaded.2)
    (hhit : ∀ group variant floor seen, next ≠ .hit group variant floor seen) :
    Consistent (world.moveReader index next) :=
  { hconsistent with
    cached := fun group variant seen hview =>
      { hconsistent.cached group variant seen hview with
        found := by
          rcases (hconsistent.cached group variant seen hview).found with hkey | hheld | hfound
          · exact .inl hkey
          · exact .inr (.inl hheld)
          · obtain ⟨found, hfound⟩ := hfound
            exact .inr (.inr ⟨found, getElem?_set_other hreader (hstored _ _ _) hfound⟩) }
    unregistered := fun other hother => by
      rcases List.mem_or_eq_of_mem_set hother with hmem | rfl
      · exact hconsistent.unregistered other hmem
      · exact hloaded
    hits := fun group variant floor seen hmem => by
      rcases List.mem_or_eq_of_mem_set hmem with hmem | hsame
      · exact hconsistent.hits group variant floor seen hmem
      · exact absurd hsame.symm (hhit group variant floor seen) }

omit [DecidableEq Variant] in
theorem Consistent.startRead (hconsistent : Consistent world) (group : Group) (variant : Variant) :
    Consistent { world with
      readers := world.readers ++ [match world.memory group variant with
        | some seen => .hit group variant (world.settled group) seen
        | none => .missed group variant] } := by
  refine
    { hconsistent with
      cached := fun other key seen hview =>
        { hconsistent.cached other key seen hview with
          found := ?_ }
      unregistered := fun reader hreader loaded hloaded => ?_
      hits := fun other key floor seen hmem => ?_ }
  · rcases (hconsistent.cached other key seen hview).found with hkey | hheld | ⟨found, hfound⟩
    · exact .inl hkey
    · exact .inr (.inl hheld)
    · have hlength := (List.getElem?_eq_some_iff.mp hfound).1
      exact .inr (.inr ⟨found, by rw [List.getElem?_append_left hlength, hfound]⟩)
  · rcases List.mem_append.mp hreader with hmem | hlast
    · exact hconsistent.unregistered reader hmem loaded hloaded
    · rw [List.mem_singleton] at hlast
      subst hlast
      split at hloaded <;> cases hloaded
  · rcases List.mem_append.mp hmem with hmem | hlast
    · exact hconsistent.hits other key floor seen hmem
    · rw [List.mem_singleton] at hlast
      split at hlast
      · rename_i found hfound
        obtain ⟨rfl, rfl, rfl, rfl⟩ := Reader.hit.inj hlast
        exact (hconsistent.cached _ _ _ hfound).settled
      · cases hlast

theorem Consistent.store (hconsistent : Consistent world)
    (hreader : world.readers[index]? = some (.loading group variant seen)) :
    Consistent ({ world with
      memory := setView world.memory group variant (some seen) }.moveReader index
        (.stored group variant seen)) := by
  have hmem : Reader.loading group variant seen ∈ world.readers := List.mem_of_getElem? hreader
  have hcurrent : world.begun group ≤ seen := hconsistent.unregistered _ hmem (group, seen) rfl
  have hlength : index < world.readers.length := (List.getElem?_eq_some_iff.mp hreader).1
  refine
    { hconsistent with
      cached := fun other key found hview => ?_
      unregistered := fun reader hother loaded hloaded => ?_
      hits := fun other key floor found hhit => ?_ }
  · change (if other = group ∧ key = variant then some seen else world.memory other key) =
      some found at hview
    by_cases hown : other = group ∧ key = variant
    · rw [if_pos hown] at hview
      obtain rfl := Option.some.inj hview
      obtain ⟨rfl, rfl⟩ := hown
      exact
        { settled := Nat.le_trans (hconsistent.begun other).1 hcurrent
          current := .inl hcurrent
          found := .inr (.inr ⟨index, List.getElem?_set_self hlength⟩) }
    · rw [if_neg hown] at hview
      have hkept := hconsistent.cached other key found hview
      refine { hkept with found := ?_ }
      rcases hkept.found with hkey | hheld | ⟨place, hplace⟩
      · exact .inl hkey
      · exact .inr (.inl hheld)
      · exact .inr (.inr ⟨place, getElem?_set_other hreader (fun hsame => by cases hsame) hplace⟩)
  · rcases List.mem_or_eq_of_mem_set hother with hmem | rfl
    · exact hconsistent.unregistered reader hmem loaded hloaded
    · obtain rfl := Option.some.inj hloaded
      exact hcurrent
  · rcases List.mem_or_eq_of_mem_set hhit with hmem | hsame
    · exact hconsistent.hits other key floor found hmem
    · cases hsame

theorem Consistent.remember (hconsistent : Consistent world)
    (hreader : world.readers[index]? = some (.stored group variant seen)) :
    Consistent ({ world with
      slots := ReadThroughCache.remember group variant world.slots }.moveReader index
        (.loaded group variant seen)) := by
  refine
    { hconsistent with
      cached := fun other key found hview => ?_
      unregistered := fun reader hother loaded hloaded => ?_
      hits := fun other key floor found hhit => ?_ }
  · have hkept := hconsistent.cached other key found hview
    refine { hkept with current := ?_, found := ?_ }
    · refine hkept.current.imp_right fun ⟨place, state, hstate, hdooms⟩ =>
        ⟨place, state, hstate, ?_⟩
      cases state with
      | iterating counts slot position => exact Ahead.remember hdooms
      | deleting own counts keys => exact hdooms
      | _ => exact hdooms
    · rcases hkept.found with hkey | hheld | ⟨place, hplace⟩
      · exact .inl (mem_keysOf_remember.mpr (.inl hkey))
      · exact .inr (.inl hheld)
      · by_cases hsame : index = place
        · subst hsame
          obtain ⟨rfl, rfl, rfl⟩ :=
            Reader.stored.inj (Option.some.inj (hreader.symm.trans hplace))
          exact .inl (mem_keysOf_remember.mpr (.inr ⟨rfl, rfl⟩))
        · exact .inr (.inr ⟨place, (List.getElem?_set_ne hsame).trans hplace⟩)
  · rcases List.mem_or_eq_of_mem_set hother with hmem | rfl
    · exact hconsistent.unregistered reader hmem loaded hloaded
    · cases hloaded
  · rcases List.mem_or_eq_of_mem_set hhit with hmem | hsame
    · exact hconsistent.hits other key floor found hmem
    · cases hsame

end Reads

section Events

variable {world : World Group Variant} {place : ℕ} {handler next : Handler Group Variant}
  {group : Group} {target : Target Group} {index : Group → ℕ}

omit [DecidableEq Group] in
theorem overlaps_of_covers {left right : Target Group} (hleft : left.Covers group)
    (hright : right.Covers group) : left.Overlaps right := by
  cases left <;> cases right
  · exact Eq.trans hleft (Eq.symm hright)
  all_goals trivial

omit [DecidableEq Group] [DecidableEq Variant] in
/-- Who deletes the views of a group is invalidating it. -/
theorem invalidates_of_dooms {slots : List (Slot Group Variant)} {variant : Variant}
    (hdooms : Dooms slots group variant handler) :
    ∃ target, handler.invalidates = some target ∧ target.Covers group := by
  cases handler with
  | deleting own counts keys => exact ⟨.one own, rfl, hdooms.1⟩
  | iterating counts slot key => exact ⟨.all, rfl, trivial⟩
  | _ => exact hdooms.elim

omit [DecidableEq Group] [DecidableEq Variant] in
theorem invalidates_of_holds {variant : Variant} (hholds : Holds group variant handler) :
    ∃ target, handler.invalidates = some target ∧ target.Covers group := by
  cases handler with
  | deleting own counts keys => exact ⟨.one own, rfl, hholds.1⟩
  | _ => exact hholds.elim

omit [DecidableEq Variant] in
theorem Consistent.startHandle (hconsistent : Consistent world) (target : Target Group) :
    Consistent { world with handlers := world.handlers ++ [.started target] } := by
  have hlast : ∀ (found : ℕ) (state : Handler Group Variant) (current : Target Group),
      (world.handlers ++ [.started target])[found]? = some state →
      state.invalidates = some current → world.handlers[found]? = some state := by
    intro found state current hfound hcurrent
    rcases Nat.lt_or_ge found world.handlers.length with hless | hlate
    · rwa [List.getElem?_append_left hless] at hfound
    · rw [List.getElem?_append_right hlate] at hfound
      obtain rfl := List.mem_singleton.mp (List.mem_of_getElem? hfound)
      cases hcurrent
  exact
    { hconsistent with
      cached := fun other key seen hview =>
        { hconsistent.cached other key seen hview with
          current := (hconsistent.cached other key seen hview).current.imp_right Someone.append
          found := (hconsistent.cached other key seen hview).found.imp_right fun hfound =>
            hfound.imp_left Someone.append }
      counted := fun state hmem => by
        rcases List.mem_append.mp hmem with hmem | hnew
        · exact hconsistent.counted state hmem
        · obtain rfl := List.mem_singleton.mp hnew
          trivial
      alone := fun left right first second one other hleft hright hfirst hsecond =>
        hconsistent.alone left right first second one other (hlast _ _ _ hleft hfirst)
          (hlast _ _ _ hright hsecond) hfirst hsecond }

omit [DecidableEq Variant] in
/-- A step of an event that may delete views, but only such as it was going to delete. -/
theorem Consistent.moveHandler (hconsistent : Consistent world)
    (hhandler : world.handlers[place]? = some handler) (memory : Group → Variant → Option ℕ)
    (hviews : ∀ group variant seen, memory group variant = some seen →
      world.memory group variant = some seen ∧
        (Dooms world.slots group variant handler → Dooms world.slots group variant next) ∧
        (Holds group variant handler → Holds group variant next))
    (hcounted : Counted world next)
    (halone : ∀ target, next.invalidates = some target → handler.invalidates = some target) :
    Consistent ({ world with memory := memory }.moveHandler place next) := by
  have hmoved : ∀ (found : ℕ) (state : Handler Group Variant) (current : Target Group),
      (world.handlers.set place next)[found]? = some state → state.invalidates = some current →
      ∃ before, world.handlers[found]? = some before ∧ before.invalidates = some current := by
    intro found state current hfound hcurrent
    rcases getElem?_set_cases hfound with ⟨rfl, rfl⟩ | hbefore
    · exact ⟨handler, hhandler, halone current hcurrent⟩
    · exact ⟨state, hbefore, hcurrent⟩
  exact
    { hconsistent with
      cached := fun other key seen hview => by
        obtain ⟨hbefore, hdooms, hholds⟩ := hviews other key seen hview
        have hkept := hconsistent.cached other key seen hbefore
        exact
          { hkept with
            current := hkept.current.imp_right fun hsomeone =>
              hsomeone.set hhandler hdooms fun _ _ hstate => hstate
            found := hkept.found.imp_right fun hfound => hfound.imp_left fun hsomeone =>
              hsomeone.set hhandler hholds fun _ _ hstate => hstate }
      counted := fun state hmem => by
        rcases List.mem_or_eq_of_mem_set hmem with hmem | rfl
        · exact hconsistent.counted state hmem
        · exact hcounted
      alone := fun left right first second one other hleft hright hfirst hsecond hoverlaps => by
        obtain ⟨_, hleftBefore, hfirstBefore⟩ := hmoved left first one hleft hfirst
        obtain ⟨_, hrightBefore, hsecondBefore⟩ := hmoved right second other hright hsecond
        exact hconsistent.alone left right _ _ one other hleftBefore hrightBefore hfirstBefore
          hsecondBefore hoverlaps }

omit [DecidableEq Variant] in
theorem Consistent.raiseRecords (hconsistent : Consistent world) {records : Group → ℕ}
    (hraised : ∀ group, world.records group ≤ records group) :
    Consistent { world with records := records } :=
  { hconsistent with
    begun := fun group => ⟨(hconsistent.begun group).1,
      Nat.le_trans (hconsistent.begun group).2 (hraised group)⟩
    cached := fun group variant seen hview => { hconsistent.cached group variant seen hview with }
    counted := fun state hmem => by
      have hcounted := hconsistent.counted state hmem
      cases state with
      | recorded target index =>
          exact fun group hcovers => Nat.le_trans (hcounted group hcovers) (hraised group)
      | _ => exact hcounted }

omit [DecidableEq Variant] in
theorem le_raise (target : Target Group) (counts raised : Group → ℕ) (group : Group) :
    counts group ≤ target.raise counts raised group := by
  rw [Target.raise]
  split
  · exact Nat.le_max_left _ _
  · exact Nat.le_refl _

omit [DecidableEq Variant] in
theorem le_raise_of_covers {counts raised : Group → ℕ} (hcovers : target.Covers group) :
    raised group ≤ target.raise counts raised group := by
  rw [Target.raise, if_pos hcovers]
  exact Nat.le_max_right _ _

omit [DecidableEq Variant] in
theorem raise_le {counts raised : Group → ℕ} {bound : ℕ} (hcounts : counts group ≤ bound)
    (hraised : target.Covers group → raised group ≤ bound) :
    target.raise counts raised group ≤ bound := by
  rw [Target.raise]
  split
  · rename_i hcovers
    exact Nat.max_le.mpr ⟨hcounts, hraised hcovers⟩
  · exact hcounts

omit [DecidableEq Variant] in
theorem Consistent.record (hconsistent : Consistent world)
    (hhandler : world.handlers[place]? = some (.started target)) :
    Consistent ({ world with
      records := target.raise world.records fun group => world.records group + 1 }.moveHandler
        place (.recorded target
          (target.raise world.records fun group => world.records group + 1))) := by
  have hraised := hconsistent.raiseRecords (le_raise target world.records
    fun group => world.records group + 1)
  exact hraised.moveHandler hhandler world.memory
    (fun _ _ _ hview => ⟨hview, fun hdooms => hdooms.elim, fun hholds => hholds.elim⟩)
    (fun _ _ => Nat.le_refl _) fun _ hnone => by cases hnone

omit [DecidableEq Variant] in
/-- An event that has deleted everything that it was going to delete. -/
theorem Consistent.settle (hconsistent : Consistent world)
    (hhandler : world.handlers[place]? = some handler)
    (htarget : handler.invalidates = some target)
    (hindex : ∀ group, target.Covers group → index group ≤ world.begun group)
    (hdone : ∀ group variant, ¬Dooms world.slots group variant handler) :
    Consistent (world.settle place target index) := by
  have hnone : ∀ group variant, ¬Holds group variant handler := by
    intro group variant hholds
    cases handler with
    | deleting own counts keys => exact hdone group variant hholds
    | _ => exact hholds
  have hmoved : Consistent (world.moveHandler place .resolved) :=
    hconsistent.moveHandler hhandler world.memory
      (fun group variant _ hview => ⟨hview, fun hdooms => absurd hdooms (hdone group variant),
        fun hholds => absurd hholds (hnone group variant)⟩)
      trivial fun _ hnever => by cases hnever
  exact
    { hmoved with
      begun := fun group =>
        ⟨raise_le (hconsistent.begun group).1 (hindex group), (hconsistent.begun group).2⟩
      cached := fun group variant seen hview =>
        { hmoved.cached group variant seen hview with
          settled := by
            have hkept := hconsistent.cached group variant seen hview
            refine raise_le hkept.settled fun hcovers => ?_
            rcases hkept.current with hcurrent | ⟨found, state, hstate, hdooms⟩
            · exact Nat.le_trans (hindex group hcovers) hcurrent
            · -- Whoever still has to delete the view invalidates the same group.
              obtain ⟨other, hother, hcoversOther⟩ := invalidates_of_dooms hdooms
              have hsame := hconsistent.alone place found handler state target other hhandler
                hstate htarget hother (overlaps_of_covers hcovers hcoversOther)
              subst hsame
              obtain rfl := Option.some.inj (hhandler.symm.trans hstate)
              exact absurd hdooms (hdone group variant) } }

omit [DecidableEq Group] in
theorem Target.Overlaps.symm {left right : Target Group} (hoverlaps : left.Overlaps right) :
    right.Overlaps left := by
  cases left <;> cases right
  · exact Eq.symm hoverlaps
  all_goals trivial

omit [DecidableEq Variant] in
/-- An invalidation begins by taking hold of the registered keys of its groups. -/
theorem Consistent.beginInvalidation (hconsistent : Consistent world)
    (slots : List (Slot Group Variant))
    (hhandler : world.handlers[place]? = some (.recorded target index))
    (hloaded : ∀ reader ∈ world.readers, ∀ loaded ∈ reader.unregistered,
      target.Covers loaded.1 → index loaded.1 ≤ loaded.2)
    (halone : ∀ other ∈ world.handlers, ∀ current ∈ other.invalidates, ¬target.Overlaps current)
    (hnext : next.invalidates = some target)
    (hkeys : ∀ group variant, variant ∈ keysOf world.slots group → target.Covers group →
      Dooms slots group variant next ∧ (variant ∈ keysOf slots group ∨ Holds group variant next))
    (hothers : ∀ group, ¬target.Covers group → keysOf slots group = keysOf world.slots group ∧
      ∀ state ∈ world.handlers, ∀ variant, Dooms world.slots group variant state →
        Dooms slots group variant state)
    (hcounted : Counted
      { world with begun := target.raise world.begun index } next) :
    Consistent ({ world with
      slots := slots
      begun := target.raise world.begun index }.moveHandler place next) := by
  have hlength : place < world.handlers.length := (List.getElem?_eq_some_iff.mp hhandler).1
  have hcountedIndex := hconsistent.counted _ (List.mem_of_getElem? hhandler)
  have hown : ∀ {kind : Handler Group Variant → Prop}, kind next →
      Someone (world.handlers.set place next) kind :=
    fun hkind => ⟨place, next, List.getElem?_set_self hlength, hkind⟩
  have hfree : ∀ (kind : Handler Group Variant → Prop) group, target.Covers group →
      (∀ state, kind state → ∃ current, state.invalidates = some current ∧
        current.Covers group) → ¬Someone world.handlers kind := by
    rintro kind group hcovers hkind ⟨found, state, hfound, hstate⟩
    obtain ⟨current, hcurrent, hcoversOther⟩ := hkind state hstate
    exact halone state (List.mem_of_getElem? hfound) current hcurrent
      (overlaps_of_covers hcovers hcoversOther)
  have hnew : ∀ (found : ℕ) (state : Handler Group Variant) (current : Target Group),
      (world.handlers.set place next)[found]? = some state → state.invalidates = some current →
      found = place ∧ current = target ∨
        world.handlers[found]? = some state ∧ ¬target.Overlaps current := by
    intro found state current hfound hcurrent
    rcases getElem?_set_cases hfound with ⟨hplace, rfl⟩ | hbefore
    · exact .inl ⟨hplace, Option.some.inj (hcurrent.symm.trans hnext)⟩
    · exact .inr ⟨hbefore, halone state (List.mem_of_getElem? hbefore) current hcurrent⟩
  refine
    { hconsistent with
      begun := fun group =>
        ⟨Nat.le_trans (hconsistent.begun group).1 (le_raise target world.begun index group),
          raise_le (hconsistent.begun group).2 (hcountedIndex group)⟩
      cached := fun group variant seen hview => ?_
      unregistered := fun reader hreader loaded hunregistered =>
        raise_le (hconsistent.unregistered reader hreader loaded hunregistered)
          (hloaded reader hreader loaded hunregistered)
      counted := fun state hmem => ?_
      alone := fun left right first second one other hleft hright hfirst hsecond hoverlaps => ?_ }
  · have hkept := hconsistent.cached group variant seen hview
    by_cases hcovers : target.Covers group
    · rcases hkept.found with hkey | hheld | ⟨reader, hreader⟩
      · obtain ⟨hdooms, hfound⟩ := hkeys group variant hkey hcovers
        exact
          { settled := hkept.settled
            current := .inr (hown hdooms)
            found := hfound.imp_right fun hholds => .inl (hown hholds) }
      · exact absurd hheld (hfree _ group hcovers fun _ => invalidates_of_holds)
      · have hmem := List.mem_of_getElem? hreader
        exact
          { settled := hkept.settled
            current := .inl (raise_le (hconsistent.unregistered _ hmem (group, seen) rfl)
              (hloaded _ hmem (group, seen) rfl))
            found := .inr (.inr ⟨reader, hreader⟩) }
    · obtain ⟨hsame, hdoomed⟩ := hothers group hcovers
      exact
        { settled := hkept.settled
          current := by
            refine hkept.current.imp (fun hcurrent => ?_) fun hsomeone =>
              hsomeone.set hhandler (fun hdooms => hdooms.elim) fun state hmem =>
                hdoomed state hmem variant
            exact raise_le hcurrent fun hcoversAgain => absurd hcoversAgain hcovers
          found := by
            refine hkept.found.imp (fun hkey => ?_) fun hfound => hfound.imp_left fun hsomeone =>
              hsomeone.set hhandler (fun hholds => hholds.elim) fun _ _ hstate => hstate
            change variant ∈ keysOf slots group
            rwa [hsame] }
  · rcases List.mem_or_eq_of_mem_set hmem with hmem | rfl
    · have hbefore := hconsistent.counted state hmem
      cases state with
      | deleting own counts keys =>
          exact Nat.le_trans hbefore (le_raise target world.begun index own)
      | iterating counts slot key =>
          exact fun group => Nat.le_trans (hbefore group) (le_raise target world.begun index group)
      | _ => exact hbefore
    · cases state with
      | _ => exact hcounted
  · rcases hnew left first one hleft hfirst with ⟨hleftPlace, rfl⟩ | ⟨hleftBefore, hleftFree⟩ <;>
      rcases hnew right second other hright hsecond with
        ⟨hrightPlace, rfl⟩ | ⟨hrightBefore, hrightFree⟩
    · exact hleftPlace.trans hrightPlace.symm
    · exact absurd hoverlaps hrightFree
    · exact absurd hoverlaps.symm hleftFree
    · exact hconsistent.alone left right first second one other hleftBefore hrightBefore hfirst
        hsecond hoverlaps

omit [DecidableEq Variant] in
/-- The keys of all groups may go when none of them has a view. -/
theorem Consistent.clear (hconsistent : Consistent world)
    (hviews : ∀ group variant, variant ∈ keysOf world.slots group →
      world.memory group variant = none)
    (hwalks : ∀ state ∈ world.handlers, state.invalidates ≠ some .all) :
    Consistent { world with slots := removeEntries .all world.slots } :=
  { hconsistent with
    cached := fun group variant seen hview => by
      have hkept := hconsistent.cached group variant seen hview
      refine { hkept with current := ?_, found := ?_ }
      · refine hkept.current.imp_right fun ⟨found, state, hfound, hdooms⟩ =>
          ⟨found, state, hfound, ?_⟩
        cases state with
        | iterating counts slot key =>
            exact absurd rfl (hwalks _ (List.mem_of_getElem? hfound))
        | _ => exact hdooms
      · rcases hkept.found with hkey | hfound
        · rw [hviews group variant hkey] at hview
          cases hview
        · exact .inr hfound
    counted := fun state hmem => by
      have hcounted := hconsistent.counted state hmem
      cases state with
      | _ => exact hcounted }

omit [DecidableEq Variant] in
theorem Consistent.invalidateOne (hconsistent : Consistent world)
    (hhandler : world.handlers[place]? = some (.recorded (.one group) index))
    (horderly : Orderly world (.invalidate place)) :
    Consistent ({ world with
      slots := removeEntries (.one group) world.slots
      begun := (Target.one group).raise world.begun index }.moveHandler place
        (.deleting group index (keysOf world.slots group))) := by
  simp only [Orderly, hhandler] at horderly
  obtain ⟨hloaded, halone⟩ := horderly
  refine hconsistent.beginInvalidation _ hhandler hloaded halone rfl
    (fun other variant hkey hcovers => ?_) (fun other hcovers => ⟨?_, fun state hmem variant => ?_⟩)
    (le_raise_of_covers rfl)
  · obtain rfl : group = other := hcovers
    exact ⟨⟨rfl, hkey⟩, .inr ⟨rfl, hkey⟩⟩
  · rw [keysOf_removeEntries, if_neg hcovers]
  · intro hdooms
    cases state with
    | iterating counts slot key => exact absurd trivial (halone _ hmem .all rfl)
    | _ => exact hdooms

omit [DecidableEq Variant] in
theorem Consistent.invalidateAll (hconsistent : Consistent world)
    (hhandler : world.handlers[place]? = some (.recorded .all index))
    (horderly : Orderly world (.invalidate place)) :
    Consistent ({ world with begun := Target.all.raise world.begun index }.moveHandler place
      (.iterating index 0 0)) := by
  simp only [Orderly, hhandler] at horderly
  obtain ⟨hloaded, halone⟩ := horderly
  exact hconsistent.beginInvalidation world.slots hhandler hloaded halone rfl
    (fun other variant hkey _ => ⟨ahead_of_mem_keysOf hkey, .inl hkey⟩)
    (fun other hcovers => absurd trivial hcovers)
    fun other => le_raise_of_covers (show Target.all.Covers other from trivial)

/-- A view that is still cached after another one was deleted. -/
theorem of_setView_none {memory : Group → Variant → Option ℕ} {own other : Group}
    {variant key : Variant} {seen : ℕ}
    (hview : setView memory own variant none other key = some seen) :
    memory other key = some seen ∧ ¬(other = own ∧ key = variant) := by
  rw [setView] at hview
  split at hview
  · cases hview
  · rename_i hdifferent
    exact ⟨hview, hdifferent⟩

/-- One turn of the loop over the keys of one group. -/
theorem Consistent.deleteNext (hconsistent : Consistent world) {variant : Variant}
    {keys : List Variant}
    (hhandler : world.handlers[place]? = some (.deleting group index (variant :: keys))) :
    Consistent ((world.deleteView group variant).moveHandler place
      (.deleting group index keys)) := by
  have hcounted : index group ≤ world.begun group :=
    hconsistent.counted _ (List.mem_of_getElem? hhandler)
  refine hconsistent.moveHandler hhandler (setView world.memory group variant none)
    (fun other key seen hview => ?_) hcounted fun _ hsame => hsame
  obtain ⟨hbefore, hdifferent⟩ := of_setView_none hview
  have hlater : group = other ∧ key ∈ variant :: keys → group = other ∧ key ∈ keys := by
    rintro ⟨rfl, hkey⟩
    rcases List.mem_cons.mp hkey with rfl | hkey
    · exact absurd ⟨rfl, rfl⟩ hdifferent
    · exact ⟨rfl, hkey⟩
  exact ⟨hbefore, hlater, hlater⟩

omit [DecidableEq Variant] in
/-- One turn of the loops over the keys of all groups. -/
theorem Consistent.walk (hconsistent : Consistent world) {slot key nextSlot nextKey : ℕ}
    (memory : Group → Variant → Option ℕ)
    (hhandler : world.handlers[place]? = some (.iterating index slot key))
    (hviews : ∀ group variant seen, memory group variant = some seen →
      world.memory group variant = some seen ∧
        (Ahead world.slots slot key group variant →
          Ahead world.slots nextSlot nextKey group variant)) :
    Consistent ({ world with memory := memory }.moveHandler place
      (.iterating index nextSlot nextKey)) := by
  have hcounted : ∀ group, index group ≤ world.begun group :=
    hconsistent.counted _ (List.mem_of_getElem? hhandler)
  exact hconsistent.moveHandler hhandler memory
    (fun group variant seen hview => ⟨(hviews group variant seen hview).1,
      (hviews group variant seen hview).2, fun hholds => hholds⟩) hcounted fun _ hsame => hsame

theorem Consistent.advance {after : World Group Variant} (hconsistent : Consistent world)
    (hhandler : world.handlers[place]? = some handler)
    (horderly : Orderly world (.advance place))
    (hadvance : advance world place handler = some after) : Consistent after := by
  cases handler with
  | deleting group index keys =>
      cases keys with
      | nil =>
          obtain rfl := Option.some.inj hadvance
          refine hconsistent.settle hhandler rfl (fun other hcovers => ?_)
            fun other variant hdooms => ?_
          · obtain rfl : group = other := hcovers
            exact hconsistent.counted _ (List.mem_of_getElem? hhandler)
          · cases hdooms.2
      | cons variant keys =>
          obtain rfl := Option.some.inj hadvance
          exact hconsistent.deleteNext hhandler
  | iterating index slot key =>
      simp only [ReadThroughCache.advance] at hadvance
      split at hadvance
      · -- The walk is past the last entry.
        rename_i hend
        obtain rfl := Option.some.inj hadvance
        have hpast : ∀ group variant, ¬Ahead world.slots slot key group variant := by
          rintro group variant ⟨found, position, entry, hentry, -, -, -, hlater⟩
          have hlength := List.getElem?_eq_none_iff.mp hend
          have hfound := (List.getElem?_eq_some_iff.mp hentry).1
          omega
        have hsettled : Consistent (world.settle place .all index) :=
          hconsistent.settle hhandler rfl
            (fun other _ => hconsistent.counted _ (List.mem_of_getElem? hhandler) other) hpast
        simp only [Orderly, hhandler] at horderly
        refine hsettled.clear (fun group variant hkey => ?_) fun state hmem hwalks => ?_
        · obtain ⟨entry, hentry, hlive, rfl, hvariant⟩ := exists_mem_of_mem_keysOf hkey
          exact horderly hend entry hentry hlive variant hvariant
        · obtain ⟨found, hfound⟩ := List.mem_iff_getElem?.mp hmem
          rcases getElem?_set_cases hfound with ⟨-, rfl⟩ | hbefore
          · cases hwalks
          · obtain rfl := hconsistent.alone place found _ state .all .all hhandler hbefore rfl
              hwalks trivial
            rw [World.settle, World.moveHandler,
              List.getElem?_set_self (List.getElem?_eq_some_iff.mp hhandler).1] at hfound
            obtain rfl := Option.some.inj hfound
            cases hwalks
      · rename_i entry hentry
        split at hadvance
        · rename_i hdead
          obtain rfl := Option.some.inj hadvance
          refine hconsistent.walk world.memory hhandler
            fun group variant seen hview => ⟨hview, ?_⟩
          rintro ⟨found, position, other, hother, hlive, hgroup, hkey, hlater⟩
          refine ⟨found, position, other, hother, hlive, hgroup, hkey, ?_⟩
          rcases hlater with hlater | ⟨rfl, -⟩
          · omega
          · obtain rfl := Option.some.inj (hentry.symm.trans hother)
            rw [hdead.2] at hlive
            cases hlive
        · split at hadvance
          · rename_i variant hvariant
            obtain rfl := Option.some.inj hadvance
            refine hconsistent.walk _ hhandler fun group other seen hview => ?_
            obtain ⟨hbefore, hdifferent⟩ := of_setView_none hview
            refine ⟨hbefore, ?_⟩
            rintro ⟨found, position, own, hown, hlive, hgroup, hkey, hlater⟩
            refine ⟨found, position, own, hown, hlive, hgroup, hkey, ?_⟩
            rcases hlater with hlater | ⟨rfl, hlater⟩
            · exact .inl hlater
            · obtain rfl := Option.some.inj (hentry.symm.trans hown)
              have hposition : position ≠ key := by
                rintro rfl
                exact hdifferent ⟨hgroup.symm, Option.some.inj (hkey.symm.trans hvariant)⟩
              omega
          · rename_i hnone
            obtain rfl := Option.some.inj hadvance
            refine hconsistent.walk world.memory hhandler
              fun group variant seen hview => ⟨hview, ?_⟩
            rintro ⟨found, position, other, hother, hlive, hgroup, hkey, hlater⟩
            refine ⟨found, position, other, hother, hlive, hgroup, hkey, ?_⟩
            rcases hlater with hlater | ⟨rfl, hlater⟩
            · omega
            · obtain rfl := Option.some.inj (hentry.symm.trans hother)
              have hlength := List.getElem?_eq_none_iff.mp hnone
              have hfound := (List.getElem?_eq_some_iff.mp hkey).1
              omega
  | _ => cases hadvance

theorem Consistent.evict (hconsistent : Consistent world) (group : Group) (variant : Variant) :
    Consistent (world.deleteView group variant) :=
  { hconsistent with
    cached := fun other key seen hview =>
      { hconsistent.cached other key seen (of_setView_none hview).1 with }
    counted := fun state hmem => by
      have hcounted := hconsistent.counted state hmem
      cases state with
      | _ => exact hcounted }

/-- An orderly step keeps the invariant. -/
theorem Consistent.step {after : World Group Variant} {event : Event Group Variant}
    (hconsistent : Consistent world) (horderly : Orderly world event)
    (hstep : step world event = some after) : Consistent after := by
  cases event with
  | startRead group variant =>
      obtain rfl := Option.some.inj hstep
      exact hconsistent.startRead group variant
  | load reader =>
      simp only [ReadThroughCache.step] at hstep
      split at hstep
      · rename_i group variant hreader
        obtain rfl := Option.some.inj hstep
        refine hconsistent.moveReader hreader (fun _ _ _ hsame => by cases hsame)
          (fun loaded hloaded => ?_) fun _ _ _ _ hsame => by cases hsame
        obtain rfl := Option.some.inj hloaded
        exact (hconsistent.begun group).2
      · cases hstep
  | store reader =>
      simp only [ReadThroughCache.step] at hstep
      split at hstep
      · rename_i group variant seen hreader
        obtain rfl := Option.some.inj hstep
        exact hconsistent.store hreader
      · cases hstep
  | remember reader =>
      simp only [ReadThroughCache.step] at hstep
      split at hstep
      · rename_i group variant seen hreader
        obtain rfl := Option.some.inj hstep
        exact hconsistent.remember hreader
      · cases hstep
  | failRead reader =>
      simp only [ReadThroughCache.step] at hstep
      split at hstep
      · rename_i hreader
        obtain rfl := Option.some.inj hstep
        exact hconsistent.moveReader hreader (fun _ _ _ hsame => by cases hsame)
          (fun _ hloaded => by cases hloaded) fun _ _ _ _ hsame => by cases hsame
      · rename_i hreader
        obtain rfl := Option.some.inj hstep
        exact hconsistent.moveReader hreader (fun _ _ _ hsame => by cases hsame)
          (fun _ hloaded => by cases hloaded) fun _ _ _ _ hsame => by cases hsame
      · cases hstep
  | startHandle target =>
      obtain rfl := Option.some.inj hstep
      exact hconsistent.startHandle target
  | record handler =>
      simp only [ReadThroughCache.step] at hstep
      split at hstep
      · rename_i target hhandler
        obtain rfl := Option.some.inj hstep
        exact hconsistent.record hhandler
      · cases hstep
  | failHandle handler =>
      simp only [ReadThroughCache.step] at hstep
      split at hstep
      · rename_i target hhandler
        obtain rfl := Option.some.inj hstep
        exact hconsistent.moveHandler hhandler world.memory
          (fun _ _ _ hview => ⟨hview, fun hdooms => hdooms.elim, fun hholds => hholds.elim⟩)
          trivial fun _ hnone => by cases hnone
      · cases hstep
  | invalidate handler =>
      simp only [ReadThroughCache.step] at hstep
      split at hstep
      · rename_i group index hhandler
        obtain rfl := Option.some.inj hstep
        exact hconsistent.invalidateOne hhandler horderly
      · rename_i index hhandler
        obtain rfl := Option.some.inj hstep
        exact hconsistent.invalidateAll hhandler horderly
      · cases hstep
  | advance handler =>
      obtain ⟨state, hhandler, hadvance⟩ := Option.bind_eq_some_iff.mp hstep
      exact hconsistent.advance hhandler horderly hadvance
  | evict group variant =>
      obtain rfl := Option.some.inj hstep
      exact hconsistent.evict group variant

end Events

/-! ## Runs -/

/-- Nothing has been recorded, cached or begun. -/
def initial : World Group Variant := {}

omit [DecidableEq Variant] in
theorem consistent_initial : Consistent (initial : World Group Variant) where
  begun _ := ⟨Nat.le_refl _, Nat.le_refl _⟩
  cached _ _ _ hview := by cases hview
  unregistered _ hmem := by cases hmem
  counted _ hmem := by cases hmem
  alone _ _ _ _ _ _ hleft := by cases hleft
  hits _ _ _ _ hmem := by cases hmem

/-- In an orderly run no read returns a cached view from before an event that had resolved
when the read started. -/
theorem readsSettled_of_run {last : World Group Variant} {events : List (Event Group Variant)}
    (hrun : GuardedRun step Orderly initial events last) : ReadsSettled last :=
  (hrun.invariant (fun horderly hstep hbefore => hbefore.step horderly hstep)
    consistent_initial).hits

end StellarSettle.ReadThroughCache
