import Mathlib.Algebra.Order.Group.Int
import Mathlib.Data.List.Basic
import StellarSettle.Core.TransitionSystem

/-!
# A shared store with private copies

Processes share one store of values with lifetimes, and each keeps copies of its own writes.
A read asks the store, and takes the copy of its process when the store has nothing.  An
invalidation goes through patterns of keys: its process deletes its copies, then it asks the
store for the keys of the pattern, and then has the store delete these.  Between two steps of
one call any other call may take steps.

An invalidation clears a key of what had been written when it started.
-/

namespace StellarSettle.FallbackCopies

open StellarSettle.TransitionSystem

/-! ## Calls and their steps -/

/-- A value with the number of the call that wrote it. -/
structure Copy (Value : Type*) where
  writer : ℕ
  value : Value
  expiresAt : ℤ
  deriving DecidableEq, Repr

/-- Which keys a pattern deletes from the copies of a process, and which from the store. -/
structure Pattern (Key : Type*) where
  inMemory : Key → Bool
  inStore : Key → Bool

def Pattern.Matches {Key : Type*} (pattern : Pattern Key) (key : Key) : Prop :=
  pattern.inMemory key = true ∧ pattern.inStore key = true

/-- The patterns that an invalidation goes through; those keys that it has to clear are matched
by one of them. -/
structure Invalidation (Key : Type*) where
  patterns : List (Pattern Key)
  covers : Key → Bool
  matched : ∀ key, covers key = true → ∃ pattern ∈ patterns, pattern.Matches key

/-- What an operation asks for. -/
inductive Request (Key Value : Type*) where
  | set (key : Key) (value : Value) (lifetime : ℤ)
  | get (key : Key)
  | invalidate (invalidation : Invalidation Key)
  | nothing

/-- How far a call is.  `cleared` are the writes that its key had been cleared of when a read
started, and `before` those that were done when an invalidation started; no step depends on
them. -/
inductive Call (Process Key Value : Type*) where
  | writing (process : Process) (key : Key) (value : Value) (lifetime : ℤ)
  | stored (process : Process) (key : Key) (value : Value) (lifetime : ℤ)
  | reading (process : Process) (key : Key) (cleared : List ℕ)
  | missed (process : Process) (key : Key) (cleared : List ℕ)
  | returned (cleared : List ℕ) (found : Option (Copy Value))
  | scanning (process : Process) (invalidation : Invalidation Key) (before : List ℕ)
      (pattern : Pattern Key) (rest : List (Pattern Key))
  | deleting (process : Process) (invalidation : Invalidation Key) (before : List ℕ)
      (keys : Key → Bool) (rest : List (Pattern Key))
  | deleted (process : Process) (invalidation : Invalidation Key) (before : List ℕ)
      (rest : List (Pattern Key))
  | done

/-- `written` are the writes that are done, and `cleared` those that invalidations which have
returned cleared a key of; no step depends on them. -/
structure World (Process Key Value : Type*) where
  now : ℤ
  store : Key → Option (Copy Value) := fun _ => none
  memory : Process → Key → Option (Copy Value) := fun _ _ => none
  calls : List (Call Process Key Value) := []
  written : List ℕ := []
  cleared : Key → List ℕ := fun _ => []

/-- The store may lose a value at any time, at the end of its lifetime or before. -/
inductive Event (Process Key Operation : Type*) where
  | start (process : Process) (operation : Operation)
  | store (call : ℕ)
  | keep (call : ℕ)
  | ask (call : ℕ)
  | fallBack (call : ℕ)
  | scan (call : ℕ)
  | delete (call : ℕ)
  | advance (call : ℕ)
  | lose (key : Key)
  | tick (later : ℤ)

variable {Process Key Value Operation : Type*} [DecidableEq Process] [DecidableEq Key]

namespace World

def begin (world : World Process Key Value) (call : Call Process Key Value) :
    World Process Key Value :=
  { world with calls := world.calls ++ [call] }

def move (world : World Process Key Value) (index : ℕ) (call : Call Process Key Value) :
    World Process Key Value :=
  { world with calls := world.calls.set index call }

def setStore (world : World Process Key Value) (key : Key) (copy : Option (Copy Value)) :
    World Process Key Value :=
  { world with store := Function.update world.store key copy }

def setMemory (world : World Process Key Value) (process : Process) (key : Key)
    (copy : Option (Copy Value)) : World Process Key Value :=
  { world with
    memory := Function.update world.memory process
      (Function.update (world.memory process) key copy) }

/-- A process deletes its copies under the keys of a pattern. -/
def sweep (world : World Process Key Value) (process : Process) (pattern : Pattern Key) :
    World Process Key Value :=
  { world with
    memory := fun other key =>
      if other = process ∧ pattern.inMemory key = true then none else world.memory other key }

/-- The next pattern of an invalidation, or its end. -/
def next (world : World Process Key Value) (process : Process) (invalidation : Invalidation Key)
    (before : List ℕ) :
    List (Pattern Key) → World Process Key Value × Call Process Key Value
  | [] =>
      ({ world with
          cleared := fun key =>
            if invalidation.covers key then world.cleared key ++ before else world.cleared key },
        .done)
  | pattern :: rest =>
      (world.sweep process pattern, .scanning process invalidation before pattern rest)

end World

def startCall (world : World Process Key Value) (process : Process) :
    Request Key Value → World Process Key Value
  | .set key value lifetime => world.begin (.writing process key value lifetime)
  | .get key => world.begin (.reading process key (world.cleared key))
  | .invalidate invalidation =>
      let (after, call) := world.next process invalidation world.written invalidation.patterns
      after.begin call
  | .nothing => world.begin .done

def step (request : Operation → Request Key Value) (world : World Process Key Value) :
    Event Process Key Operation → Option (World Process Key Value)
  | .start process operation => some (startCall world process (request operation))
  | .store index =>
      match world.calls[index]? with
      | some (.writing process key value lifetime) =>
          some ((world.setStore key (some ⟨index, value, world.now + lifetime⟩)).move index
            (.stored process key value lifetime))
      | _ => none
  | .keep index =>
      match world.calls[index]? with
      | some (.stored process key value lifetime) =>
          some ({ world.setMemory process key (some ⟨index, value, world.now + lifetime⟩) with
            written := index :: world.written }.move index .done)
      | _ => none
  | .ask index =>
      match world.calls[index]? with
      | some (.reading process key cleared) =>
          match world.store key with
          | some copy => some (world.move index (.returned cleared (some copy)))
          | none => some (world.move index (.missed process key cleared))
      | _ => none
  | .fallBack index =>
      match world.calls[index]? with
      | some (.missed process key cleared) =>
          match world.memory process key with
          | none => some (world.move index (.returned cleared none))
          | some copy =>
              if copy.expiresAt < world.now then
                some ((world.setMemory process key none).move index (.returned cleared none))
              else some (world.move index (.returned cleared (some copy)))
      | _ => none
  | .scan index =>
      match world.calls[index]? with
      | some (.scanning process invalidation before pattern rest) =>
          some (world.move index (.deleting process invalidation before
            (fun key => pattern.inStore key && (world.store key).isSome) rest))
      | _ => none
  | .delete index =>
      match world.calls[index]? with
      | some (.deleting process invalidation before keys rest) =>
          some ({ world with
            store := fun key => if keys key then none else world.store key }.move index
              (.deleted process invalidation before rest))
      | _ => none
  | .advance index =>
      match world.calls[index]? with
      | some (.deleted process invalidation before rest) =>
          let (after, call) := world.next process invalidation before rest
          some (after.move index call)
      | _ => none
  | .lose key => some (world.setStore key none)
  | .tick later => if world.now ≤ later then some { world with now := later } else none

/-- No read returns a value that its key had been cleared of when the read started. -/
def NothingCleared (world : World Process Key Value) : Prop :=
  ∀ cleared copy, Call.returned cleared (some copy) ∈ world.calls → copy.writer ∉ cleared

/-- When an invalidation starts, no other process has a live copy under a key that it covers. -/
def Alone (request : Operation → Request Key Value) (world : World Process Key Value) :
    Event Process Key Operation → Prop
  | .start process operation => ∀ invalidation, request operation = .invalidate invalidation →
      ∀ other, other ≠ process → ∀ key, invalidation.covers key = true →
        ∀ copy, world.memory other key = some copy → copy.expiresAt < world.now
  | _ => True

/-! ## What a step may do -/

section Steps

/-- From one world to a later one, only writes that were not done add copies, and what was
written or cleared stays so. -/
structure Follows (world after : World Process Key Value) : Prop where
  now : world.now ≤ after.now
  store : ∀ {key copy}, after.store key = some copy →
    world.store key = some copy ∨ copy.writer ∉ world.written
  memory : ∀ {process key copy}, after.memory process key = some copy →
    world.memory process key = some copy ∨ copy.writer ∉ world.written
  written : world.written ⊆ after.written
  cleared : ∀ key, world.cleared key ⊆ after.cleared key

variable {world after : World Process Key Value} {request : Operation → Request Key Value}
  {index : ℕ} {call : Call Process Key Value} {process : Process} {key : Key}

/-- The steps, with what each finds at its call and the world that it leaves. -/
inductive Takes (request : Operation → Request Key Value) (world : World Process Key Value) :
    Event Process Key Operation → World Process Key Value → Prop where
  | start (process : Process) (operation : Operation) :
      Takes request world (.start process operation)
        (startCall world process (request operation))
  | store {index : ℕ} {process : Process} {key : Key} {value : Value} {lifetime : ℤ}
      (hcall : world.calls[index]? = some (.writing process key value lifetime)) :
      Takes request world (.store index)
        ((world.setStore key (some ⟨index, value, world.now + lifetime⟩)).move index
          (.stored process key value lifetime))
  | keep {index : ℕ} {process : Process} {key : Key} {value : Value} {lifetime : ℤ}
      (hcall : world.calls[index]? = some (.stored process key value lifetime)) :
      Takes request world (.keep index)
        ({ world.setMemory process key (some ⟨index, value, world.now + lifetime⟩) with
            written := index :: world.written }.move index .done)
  | found {index : ℕ} {process : Process} {key : Key} {cleared : List ℕ} {copy : Copy Value}
      (hcall : world.calls[index]? = some (.reading process key cleared))
      (hcopy : world.store key = some copy) :
      Takes request world (.ask index) (world.move index (.returned cleared (some copy)))
  | missed {index : ℕ} {process : Process} {key : Key} {cleared : List ℕ}
      (hcall : world.calls[index]? = some (.reading process key cleared)) :
      Takes request world (.ask index) (world.move index (.missed process key cleared))
  | nothing {index : ℕ} {process : Process} {key : Key} {cleared : List ℕ}
      (hcall : world.calls[index]? = some (.missed process key cleared)) :
      Takes request world (.fallBack index) (world.move index (.returned cleared none))
  | expired {index : ℕ} {process : Process} {key : Key} {cleared : List ℕ}
      (hcall : world.calls[index]? = some (.missed process key cleared)) :
      Takes request world (.fallBack index)
        ((world.setMemory process key none).move index (.returned cleared none))
  | live {index : ℕ} {process : Process} {key : Key} {cleared : List ℕ} {copy : Copy Value}
      (hcall : world.calls[index]? = some (.missed process key cleared))
      (hcopy : world.memory process key = some copy) (hlive : world.now ≤ copy.expiresAt) :
      Takes request world (.fallBack index) (world.move index (.returned cleared (some copy)))
  | scan {index : ℕ} {process : Process} {invalidation : Invalidation Key} {before : List ℕ}
      {pattern : Pattern Key} {rest : List (Pattern Key)}
      (hcall : world.calls[index]? = some (.scanning process invalidation before pattern rest)) :
      Takes request world (.scan index)
        (world.move index (.deleting process invalidation before
          (fun key => pattern.inStore key && (world.store key).isSome) rest))
  | delete {index : ℕ} {process : Process} {invalidation : Invalidation Key} {before : List ℕ}
      {keys : Key → Bool} {rest : List (Pattern Key)}
      (hcall : world.calls[index]? = some (.deleting process invalidation before keys rest)) :
      Takes request world (.delete index)
        ({ world with store := fun key => if keys key then none else world.store key }.move index
          (.deleted process invalidation before rest))
  | advance {index : ℕ} {process : Process} {invalidation : Invalidation Key} {before : List ℕ}
      {rest : List (Pattern Key)}
      (hcall : world.calls[index]? = some (.deleted process invalidation before rest)) :
      Takes request world (.advance index)
        ((world.next process invalidation before rest).1.move index
          (world.next process invalidation before rest).2)
  | lose (key : Key) : Takes request world (.lose key) (world.setStore key none)
  | tick {later : ℤ} (hlater : world.now ≤ later) :
      Takes request world (.tick later) { world with now := later }

theorem takes_of_step {event : Event Process Key Operation}
    (hstep : step request world event = some after) : Takes request world event after := by
  cases event with
  | start process operation =>
      obtain rfl := Option.some.inj hstep
      exact .start process operation
  | store index =>
      simp only [step] at hstep
      split at hstep
      · rename_i hcall
        obtain rfl := Option.some.inj hstep
        exact .store hcall
      · cases hstep
  | keep index =>
      simp only [step] at hstep
      split at hstep
      · rename_i hcall
        obtain rfl := Option.some.inj hstep
        exact .keep hcall
      · cases hstep
  | ask index =>
      simp only [step] at hstep
      split at hstep
      · rename_i hcall
        split at hstep
        · rename_i hcopy
          obtain rfl := Option.some.inj hstep
          exact .found hcall hcopy
        · obtain rfl := Option.some.inj hstep
          exact .missed hcall
      · cases hstep
  | fallBack index =>
      simp only [step] at hstep
      split at hstep
      · rename_i hcall
        split at hstep
        · obtain rfl := Option.some.inj hstep
          exact .nothing hcall
        · rename_i hcopy
          split at hstep
          · obtain rfl := Option.some.inj hstep
            exact .expired hcall
          · rename_i hlive
            obtain rfl := Option.some.inj hstep
            exact .live hcall hcopy (not_lt.mp hlive)
      · cases hstep
  | scan index =>
      simp only [step] at hstep
      split at hstep
      · rename_i hcall
        obtain rfl := Option.some.inj hstep
        exact .scan hcall
      · cases hstep
  | delete index =>
      simp only [step] at hstep
      split at hstep
      · rename_i hcall
        obtain rfl := Option.some.inj hstep
        exact .delete hcall
      · cases hstep
  | advance index =>
      simp only [step] at hstep
      split at hstep
      · rename_i hcall
        obtain rfl := Option.some.inj hstep
        exact .advance hcall
      · cases hstep
  | lose key =>
      obtain rfl := Option.some.inj hstep
      exact .lose key
  | tick later =>
      simp only [step] at hstep
      split at hstep
      · rename_i hlater
        obtain rfl := Option.some.inj hstep
        exact .tick hlater
      · cases hstep

omit [DecidableEq Process] [DecidableEq Key] in
theorem Follows.refl (world : World Process Key Value) : Follows world world where
  now := le_rfl
  store := .inl
  memory := .inl
  written := List.Subset.refl _
  cleared := fun _ => List.Subset.refl _

omit [DecidableEq Process] [DecidableEq Key] in
theorem Follows.move (hfollows : Follows world after) (index : ℕ)
    (call : Call Process Key Value) : Follows world (after.move index call) :=
  { hfollows with }

omit [DecidableEq Process] [DecidableEq Key] in
theorem Follows.begin (hfollows : Follows world after) (call : Call Process Key Value) :
    Follows world (after.begin call) :=
  { hfollows with }

omit [DecidableEq Process] in
theorem follows_setStore {copy : Option (Copy Value)}
    (hcopy : ∀ written ∈ copy, written.writer ∉ world.written) :
    Follows world (world.setStore key copy) :=
  { Follows.refl world with
    store := by
      intro other found hfound
      dsimp only [World.setStore] at hfound
      by_cases hkey : other = key
      · rw [hkey, Function.update_self] at hfound
        exact .inr (hcopy found hfound)
      · rw [Function.update_of_ne hkey] at hfound
        exact .inl hfound }

theorem mem_setMemory {copy : Option (Copy Value)} {other : Process} {name : Key}
    {found : Copy Value}
    (hfound : (world.setMemory process key copy).memory other name = some found) :
    copy = some found ∧ name = key ∨ world.memory other name = some found := by
  dsimp only [World.setMemory] at hfound
  by_cases hprocess : other = process
  · subst hprocess
    rw [Function.update_self] at hfound
    by_cases hkey : name = key
    · rw [hkey, Function.update_self] at hfound
      exact .inl ⟨hfound, hkey⟩
    · rw [Function.update_of_ne hkey] at hfound
      exact .inr hfound
  · rw [Function.update_of_ne hprocess] at hfound
    exact .inr hfound

theorem follows_keep {value : Value} {lifetime : ℤ} (hnumber : index ∉ world.written) :
    Follows world
      { world.setMemory process key (some ⟨index, value, world.now + lifetime⟩) with
        written := index :: world.written } :=
  { Follows.refl world with
    memory := by
      intro other name copy hcopy
      rcases mem_setMemory hcopy with ⟨hnew, -⟩ | hold
      · obtain rfl := Option.some.inj hnew
        exact .inr hnumber
      · exact .inl hold
    written := List.subset_cons_self index world.written }

theorem follows_forget (world : World Process Key Value) (process : Process) (key : Key) :
    Follows world (world.setMemory process key none) :=
  { Follows.refl world with
    memory := fun hfound => .inl ((mem_setMemory hfound).resolve_left (by simp)) }

omit [DecidableEq Process] [DecidableEq Key] in
theorem follows_delete (world : World Process Key Value) (keys : Key → Bool) :
    Follows world
      { world with store := fun key => if keys key then none else world.store key } :=
  { Follows.refl world with
    store := by
      intro key copy hcopy
      dsimp only at hcopy
      split at hcopy
      · cases hcopy
      · exact .inl hcopy }

omit [DecidableEq Key] in
theorem mem_sweep {pattern : Pattern Key} {other : Process} {found : Copy Value}
    (hfound : (world.sweep process pattern).memory other key = some found) :
    world.memory other key = some found ∧ ¬(other = process ∧ pattern.inMemory key = true) := by
  dsimp only [World.sweep] at hfound
  split at hfound
  · cases hfound
  · rename_i hkept
    exact ⟨hfound, hkept⟩

omit [DecidableEq Key] in
theorem follows_next (process : Process) (invalidation : Invalidation Key) (before : List ℕ)
    (patterns : List (Pattern Key)) :
    Follows world (world.next process invalidation before patterns).1 := by
  cases patterns with
  | nil =>
      refine { Follows.refl world with cleared := ?_ }
      intro key
      rw [World.next]
      dsimp only
      split
      · exact List.subset_append_left _ _
      · exact List.Subset.refl _
  | cons pattern rest =>
      exact { Follows.refl world with memory := fun hfound => .inl (mem_sweep hfound).1 }

end Steps

/-! ## Cleared keys -/

/-- Where none of the patterns that are left matches a key that an invalidation covers, the
copies are of writes that were not done before it. -/
def Cleans (invalidation : Invalidation Key) (before : List ℕ) (rest : List (Pattern Key))
    (found : Key → Option (Copy Value)) : Prop :=
  ∀ key, invalidation.covers key = true → (∃ pattern ∈ rest, pattern.Matches key) ∨
    ∀ copy, found key = some copy → copy.writer ∉ before

/-- The other processes have no live copies that an invalidation has to clear. -/
def OthersClean (world : World Process Key Value) (process : Process)
    (invalidation : Invalidation Key) (before : List ℕ) : Prop :=
  before ⊆ world.written ∧ ∀ other, other ≠ process → ∀ key, invalidation.covers key = true →
    ∀ copy, world.memory other key = some copy → world.now ≤ copy.expiresAt →
      copy.writer ∉ before

/-- What holds of a call on its way. -/
def CallOk (world : World Process Key Value) (index : ℕ) : Call Process Key Value → Prop
  | .writing _ _ _ _ => index ∉ world.written
  | .stored _ _ _ _ => index ∉ world.written
  | .reading _ key cleared => cleared ⊆ world.cleared key
  | .missed _ key cleared => cleared ⊆ world.cleared key
  | .returned cleared found => ∀ copy, found = some copy → copy.writer ∉ cleared
  | .scanning process invalidation before pattern rest =>
      OthersClean world process invalidation before ∧
        Cleans invalidation before rest (world.memory process) ∧
        Cleans invalidation before (pattern :: rest) world.store
  | .deleting process invalidation before keys rest =>
      OthersClean world process invalidation before ∧
        Cleans invalidation before rest (world.memory process) ∧
        Cleans invalidation before rest
          fun key => if keys key then none else world.store key
  | .deleted process invalidation before rest =>
      OthersClean world process invalidation before ∧
        Cleans invalidation before rest (world.memory process) ∧
        Cleans invalidation before rest world.store
  | .done => True

/-- No copy of the store, and no live one of a process, is of a write that its key was
cleared of. -/
structure CopiesOk (world : World Process Key Value) : Prop where
  cleared : ∀ key, world.cleared key ⊆ world.written
  store : ∀ key copy, world.store key = some copy → copy.writer ∉ world.cleared key
  memory : ∀ process key copy, world.memory process key = some copy →
    world.now ≤ copy.expiresAt → copy.writer ∉ world.cleared key

structure Inv (world : World Process Key Value) : Prop where
  calls : ∀ index call, world.calls[index]? = some call → CallOk world index call
  fresh : ∀ writer ∈ world.written, writer < world.calls.length
  copies : CopiesOk world

section Invariant

variable {world after : World Process Key Value} {request : Operation → Request Key Value}
  {index : ℕ} {call : Call Process Key Value} {process : Process} {key : Key}
  {invalidation : Invalidation Key} {before : List ℕ} {rest : List (Pattern Key)}

omit [DecidableEq Process] [DecidableEq Key] in
theorem Cleans.mono {found later : Key → Option (Copy Value)}
    (hcleans : Cleans invalidation before rest found)
    (hlater : ∀ key copy, later key = some copy → found key = some copy ∨
      copy.writer ∉ before) : Cleans invalidation before rest later := by
  intro key hcovers
  refine (hcleans key hcovers).imp_right ?_
  intro hclean copy hcopy
  rcases hlater key copy hcopy with hold | hnew
  · exact hclean copy hold
  · exact hnew

omit [DecidableEq Process] [DecidableEq Key] in
theorem OthersClean.follows (hclean : OthersClean world process invalidation before)
    (hfollows : Follows world after) : OthersClean after process invalidation before := by
  refine ⟨List.Subset.trans hclean.1 hfollows.written, ?_⟩
  intro other hother key hcovers copy hcopy hlive
  rcases hfollows.memory hcopy with hold | hnew
  · exact hclean.2 other hother key hcovers copy hold (hfollows.now.trans hlive)
  · exact fun hmem => hnew (hclean.1 hmem)

omit [DecidableEq Process] [DecidableEq Key] in
/-- What holds of a call lasts while other calls take steps. -/
theorem CallOk.follows (hcall : CallOk world index call) (hfollows : Follows world after)
    (hnumber : index ∈ after.written → index ∈ world.written) : CallOk after index call := by
  have hmemory : ∀ {process key copy} {before : List ℕ}, before ⊆ world.written →
      after.memory process key = some copy →
        world.memory process key = some copy ∨ copy.writer ∉ before := by
    intro process key copy before hbefore hcopy
    exact (hfollows.memory hcopy).imp_right fun hnew hmem => hnew (hbefore hmem)
  have hstore : ∀ {key copy} {before : List ℕ}, before ⊆ world.written →
      after.store key = some copy → world.store key = some copy ∨ copy.writer ∉ before := by
    intro key copy before hbefore hcopy
    exact (hfollows.store hcopy).imp_right fun hnew hmem => hnew (hbefore hmem)
  cases call with
  | writing process key value lifetime => exact fun hmem => hcall (hnumber hmem)
  | stored process key value lifetime => exact fun hmem => hcall (hnumber hmem)
  | reading process key cleared => exact List.Subset.trans hcall (hfollows.cleared key)
  | missed process key cleared => exact List.Subset.trans hcall (hfollows.cleared key)
  | returned cleared found => exact hcall
  | scanning process invalidation before pattern rest =>
      obtain ⟨hothers, hown, hshared⟩ := hcall
      exact ⟨hothers.follows hfollows, hown.mono fun _ _ => hmemory hothers.1,
        hshared.mono fun _ _ => hstore hothers.1⟩
  | deleting process invalidation before keys rest =>
      obtain ⟨hothers, hown, hshared⟩ := hcall
      refine ⟨hothers.follows hfollows, hown.mono fun _ _ => hmemory hothers.1,
        hshared.mono ?_⟩
      intro key copy hcopy
      split at hcopy
      · cases hcopy
      · rename_i hkept
        rw [if_neg hkept]
        exact hstore hothers.1 hcopy
  | deleted process invalidation before rest =>
      obtain ⟨hothers, hown, hshared⟩ := hcall
      exact ⟨hothers.follows hfollows, hown.mono fun _ _ => hmemory hothers.1,
        hshared.mono fun _ _ => hstore hothers.1⟩
  | done => trivial

omit [DecidableEq Process] [DecidableEq Key] in
theorem CopiesOk.follows (hcopies : CopiesOk world) (hfollows : Follows world after)
    (hcleared : after.cleared = world.cleared) : CopiesOk after where
  cleared := by
    intro key
    rw [hcleared]
    exact List.Subset.trans (hcopies.cleared key) hfollows.written
  store := by
    intro key copy hcopy
    rw [hcleared]
    rcases hfollows.store hcopy with hold | hnew
    · exact hcopies.store key copy hold
    · exact fun hmem => hnew (hcopies.cleared key hmem)
  memory := by
    intro process key copy hcopy hlive
    rw [hcleared]
    rcases hfollows.memory hcopy with hold | hnew
    · exact hcopies.memory process key copy hold (hfollows.now.trans hlive)
    · exact fun hmem => hnew (hcopies.cleared key hmem)

omit [DecidableEq Key] in
/-- An invalidation that has gone through its patterns has cleared the keys that it covers. -/
theorem CopiesOk.next_nil (hcopies : CopiesOk world)
    (hcall : CallOk world index (.deleted process invalidation before [])) :
    CopiesOk (world.next process invalidation before []).1 := by
  obtain ⟨⟨hbefore, hothers⟩, hown, hshared⟩ := hcall
  refine ⟨?_, ?_, ?_⟩
  · intro key
    dsimp only [World.next]
    split
    · exact List.append_subset.mpr ⟨hcopies.cleared key, hbefore⟩
    · exact hcopies.cleared key
  · intro key copy hcopy
    dsimp only [World.next]
    split
    · rename_i hcovers
      rw [List.mem_append, not_or]
      refine ⟨hcopies.store key copy hcopy, ?_⟩
      exact (hshared key hcovers).resolve_left (by simp) copy hcopy
    · exact hcopies.store key copy hcopy
  · intro other key copy hcopy hlive
    dsimp only [World.next]
    split
    · rename_i hcovers
      rw [List.mem_append, not_or]
      refine ⟨hcopies.memory other key copy hcopy hlive, ?_⟩
      by_cases hother : other = process
      · subst hother
        exact (hown key hcovers).resolve_left (by simp) copy hcopy
      · exact hothers other hother key hcovers copy hcopy hlive
    · exact hcopies.memory other key copy hcopy hlive

omit [DecidableEq Process] [DecidableEq Key] in
theorem Inv.move (hinv : Inv world) (hfollows : Follows world after)
    (hcalls : after.calls = world.calls) (hcopies : CopiesOk after)
    (hwritten : ∀ writer ∈ after.written, writer ∈ world.written ∨ writer = index)
    (hindex : index < world.calls.length) (hcall : CallOk after index call) :
    Inv (after.move index call) where
  calls := by
    intro other moved hmoved
    rw [World.move, hcalls, List.getElem?_set] at hmoved
    have hlast := (Follows.refl after).move index call
    split at hmoved
    · rename_i hsame
      subst hsame
      obtain rfl := Option.some.inj hmoved
      exact hcall.follows hlast id
    · rename_i hother
      refine (hinv.calls other moved hmoved).follows (hfollows.move index call) ?_
      intro hmem
      exact (hwritten other hmem).resolve_right (Ne.symm hother)
  fresh := by
    intro writer hwriter
    rw [World.move, List.length_set, hcalls]
    rcases hwritten writer hwriter with hold | rfl
    · exact hinv.fresh writer hold
    · exact hindex
  copies := hcopies.follows ((Follows.refl after).move index call) rfl

omit [DecidableEq Process] [DecidableEq Key] in
theorem Inv.begin (hinv : Inv world) (hfollows : Follows world after)
    (hcalls : after.calls = world.calls) (hcopies : CopiesOk after)
    (hwritten : after.written = world.written)
    (hcall : CallOk after world.calls.length call) : Inv (after.begin call) where
  calls := by
    intro other started hstarted
    rw [World.begin, hcalls] at hstarted
    have hlast := (Follows.refl after).begin call
    rcases lt_or_ge other world.calls.length with hold | hnew
    · rw [List.getElem?_append_left hold] at hstarted
      refine (hinv.calls other started hstarted).follows (hfollows.begin call) ?_
      rw [World.begin, hwritten]
      exact id
    · rw [List.getElem?_append_right hnew, List.getElem?_singleton] at hstarted
      split at hstarted
      · rename_i hzero
        obtain rfl := Option.some.inj hstarted
        obtain rfl : other = world.calls.length := by omega
        exact hcall.follows hlast id
      · cases hstarted
  fresh := by
    intro writer hwriter
    rw [World.begin, hwritten] at hwriter
    rw [World.begin, List.length_append, hcalls]
    exact (hinv.fresh writer hwriter).trans_le (Nat.le_add_right _ _)
  copies := hcopies.follows ((Follows.refl after).begin call) rfl

omit [DecidableEq Key] in
/-- The next pattern of an invalidation: its process has no copies left under the keys of the
pattern, and at the end the keys that it covers are cleared. -/
theorem ok_next (hcopies : CopiesOk world)
    (hcall : CallOk world index (.deleted process invalidation before rest)) :
    CopiesOk (world.next process invalidation before rest).1 ∧
      CallOk (world.next process invalidation before rest).1 index
        (world.next process invalidation before rest).2 := by
  cases rest with
  | nil => exact ⟨hcopies.next_nil hcall, trivial⟩
  | cons pattern rest =>
      have hfollows : Follows world
          (world.next process invalidation before (pattern :: rest)).1 :=
        follows_next process invalidation before (pattern :: rest)
      refine ⟨hcopies.follows hfollows rfl, ?_⟩
      obtain ⟨hothers, hown, hshared⟩ := hcall
      refine ⟨hothers.follows hfollows, ?_, hshared⟩
      intro key hcovers
      rcases hown key hcovers with ⟨matching, hmem, hmatches⟩ | hclean
      · rcases List.mem_cons.mp hmem with rfl | hlater
        · refine .inr fun copy hcopy => ?_
          exact absurd ⟨rfl, hmatches.1⟩ (mem_sweep hcopy).2
        · exact .inl ⟨matching, hlater, hmatches⟩
      · exact .inr fun copy hcopy => hclean copy (mem_sweep hcopy).1

omit [DecidableEq Process] [DecidableEq Key] in
theorem cleans_patterns (before : List ℕ) (found : Key → Option (Copy Value)) :
    Cleans invalidation before invalidation.patterns found :=
  fun key hcovers => .inl (invalidation.matched key hcovers)

omit [DecidableEq Key] in
/-- A call that starts keeps the invariant, provided that an invalidation is alone. -/
theorem Inv.startCall (hinv : Inv world) (asked : Request Key Value)
    (halone : ∀ invalidation, asked = .invalidate invalidation →
      ∀ other, other ≠ process → ∀ key, invalidation.covers key = true →
        ∀ copy, world.memory other key = some copy → copy.expiresAt < world.now) :
    Inv (startCall world process asked) := by
  have hrefl := Follows.refl world
  cases asked with
  | set key value lifetime =>
      refine hinv.begin hrefl rfl hinv.copies rfl ?_
      exact fun hmem => lt_irrefl _ (hinv.fresh _ hmem)
  | get key => exact hinv.begin hrefl rfl hinv.copies rfl (List.Subset.refl _)
  | invalidate invalidation =>
      have hcall : CallOk world world.calls.length
          (.deleted process invalidation world.written invalidation.patterns) := by
        refine ⟨⟨List.Subset.refl _, ?_⟩, cleans_patterns _ _, cleans_patterns _ _⟩
        intro other hother key hcovers copy hcopy hlive
        exact absurd (halone invalidation rfl other hother key hcovers copy hcopy)
          (not_lt.mpr hlive)
      obtain ⟨hcopies, hnext⟩ := ok_next hinv.copies hcall
      refine hinv.begin (follows_next process invalidation _ _) ?_ hcopies ?_ hnext
      · cases invalidation.patterns <;> rfl
      · cases invalidation.patterns <;> rfl
  | nothing => exact hinv.begin hrefl rfl hinv.copies rfl trivial

omit [DecidableEq Process] [DecidableEq Key] in
/-- A call goes on, and the keys are cleared of what they were. -/
theorem Inv.change {moving : Call Process Key Value} (hinv : Inv world)
    (hcalls : world.calls[index]? = some moving) (hfollows : Follows world after)
    (hsame : after.calls = world.calls) (hcleared : after.cleared = world.cleared)
    (hwritten : ∀ writer ∈ after.written, writer ∈ world.written ∨ writer = index)
    (hcall : CallOk after index call) : Inv (after.move index call) :=
  hinv.move hfollows hsame (hinv.copies.follows hfollows hcleared) hwritten
    (List.getElem?_eq_some_iff.mp hcalls).1 hcall

omit [DecidableEq Process] [DecidableEq Key] in
/-- A call goes on, and nothing else changes. -/
theorem Inv.goOn {moving : Call Process Key Value} (hinv : Inv world)
    (hcalls : world.calls[index]? = some moving) (hcall : CallOk world index call) :
    Inv (world.move index call) :=
  hinv.change hcalls (Follows.refl world) rfl rfl (fun _ => .inl) hcall

omit [DecidableEq Process] [DecidableEq Key] in
theorem callOk_nothing (world : World Process Key Value) (index : ℕ) (cleared : List ℕ) :
    CallOk world index (.returned cleared none) :=
  fun _ hfound => absurd hfound (Option.some_ne_none _).symm

omit [DecidableEq Process] [DecidableEq Key] in
theorem callOk_returned {copy : Copy Value} {cleared : List ℕ}
    (hcleared : cleared ⊆ world.cleared key) (hkept : copy.writer ∉ world.cleared key) :
    CallOk world index (.returned cleared (some copy)) := by
  intro found hfound
  obtain rfl := Option.some.inj hfound
  exact fun hmem => hkept (hcleared hmem)

omit [DecidableEq Process] [DecidableEq Key] in
/-- Without those keys of a pattern that the store has, no copy of the store is left to the
pattern. -/
theorem Cleans.scan {pattern : Pattern Key} {found : Key → Option (Copy Value)}
    (hshared : Cleans invalidation before (pattern :: rest) found) :
    Cleans invalidation before rest
      fun key => if (pattern.inStore key && (found key).isSome) then none else found key := by
  intro key hcovers
  rcases hshared key hcovers with ⟨matching, hmem, hmatches⟩ | hclean
  · rcases List.mem_cons.mp hmem with rfl | hlater
    · refine .inr fun copy hcopy => ?_
      simp only [hmatches.2, Bool.true_and, Option.isSome_iff_ne_none] at hcopy
      split at hcopy
      · cases hcopy
      · rename_i hgone
        exact absurd (Option.ne_none_iff_exists'.mpr ⟨copy, hcopy⟩) hgone
    · exact .inl ⟨matching, hlater, hmatches⟩
  · refine .inr fun copy hcopy => ?_
    dsimp only at hcopy
    split at hcopy
    · cases hcopy
    · exact hclean copy hcopy

/-- Every step keeps the invariant, provided that an invalidation is alone when it starts. -/
theorem inv_step {event : Event Process Key Operation} (hinv : Inv world)
    (halone : Alone request world event) (hstep : step request world event = some after) :
    Inv after := by
  cases takes_of_step hstep with
  | start process operation => exact hinv.startCall (request operation) halone
  | store hcall =>
      have hnumber := hinv.calls _ _ hcall
      refine hinv.change hcall (follows_setStore ?_) rfl rfl (fun _ => .inl) hnumber
      intro written hwritten
      obtain rfl := Option.some.inj hwritten
      exact hnumber
  | keep hcall =>
      have hnumber := hinv.calls _ _ hcall
      refine hinv.change hcall (follows_keep hnumber) rfl rfl ?_ trivial
      intro writer hwriter
      exact (List.mem_cons.mp hwriter).symm
  | found hcall hcopy =>
      exact hinv.goOn hcall
        (callOk_returned (hinv.calls _ _ hcall) (hinv.copies.store _ _ hcopy))
  | missed hcall =>
      have hcleared := hinv.calls _ _ hcall
      exact hinv.goOn hcall hcleared
  | nothing hcall => exact hinv.goOn hcall (callOk_nothing _ _ _)
  | expired hcall =>
      exact hinv.change hcall (follows_forget world _ _) rfl rfl (fun _ => .inl)
        (callOk_nothing _ _ _)
  | live hcall hcopy hlive =>
      exact hinv.goOn hcall
        (callOk_returned (hinv.calls _ _ hcall) (hinv.copies.memory _ _ _ hcopy hlive))
  | scan hcall =>
      obtain ⟨hothers, hown, hshared⟩ := hinv.calls _ _ hcall
      exact hinv.goOn hcall ⟨hothers, hown, hshared.scan⟩
  | delete hcall =>
      obtain ⟨hothers, hown, hshared⟩ := hinv.calls _ _ hcall
      exact hinv.change hcall (follows_delete world _) rfl rfl (fun _ => .inl)
        ⟨hothers, hown, hshared⟩
  | @advance index process invalidation before rest hcall =>
      obtain ⟨hcopies, hnext⟩ := ok_next hinv.copies (hinv.calls index _ hcall)
      refine hinv.move (follows_next process invalidation before rest) ?_ hcopies ?_
        (List.getElem?_eq_some_iff.mp hcall).1 hnext
      · cases rest <;> rfl
      · cases rest <;> exact fun _ => .inl
  | lose key =>
      have hfollows : Follows world (world.setStore key none) := follows_setStore nofun
      exact ⟨fun index call hcall => (hinv.calls index call hcall).follows hfollows id,
        hinv.fresh, hinv.copies.follows hfollows rfl⟩
  | @tick later hlater =>
      have hfollows : Follows world { world with now := later } :=
        { Follows.refl world with now := hlater }
      exact ⟨fun index call hcall => (hinv.calls index call hcall).follows hfollows id,
        hinv.fresh, hinv.copies.follows hfollows rfl⟩

omit [DecidableEq Process] [DecidableEq Key] in
theorem inv_idle (now : ℤ) : Inv ({ now := now } : World Process Key Value) where
  calls := fun _ _ hcall => by simp at hcall
  fresh := fun _ hwriter => absurd hwriter List.not_mem_nil
  copies :=
    { cleared := fun _ => List.Subset.refl _
      store := fun _ _ hcopy => absurd hcopy (Option.some_ne_none _).symm
      memory := fun _ _ _ hcopy => absurd hcopy (Option.some_ne_none _).symm }

omit [DecidableEq Process] [DecidableEq Key] in
theorem Inv.nothingCleared (hinv : Inv world) : NothingCleared world := by
  intro cleared copy hcall
  obtain ⟨index, hindex⟩ := List.mem_iff_getElem?.mp hcall
  exact hinv.calls index _ hindex copy rfl

/-- Where every invalidation is alone when it starts, no read returns a value that its key had
been cleared of. -/
theorem nothingCleared_of_alone {now : ℤ} {events : List (Event Process Key Operation)}
    (hrun : GuardedRun (step request) (Alone request)
      ({ now := now } : World Process Key Value) events after) : NothingCleared after :=
  (hrun.invariant (fun halone hstep hinv => inv_step hinv halone hstep)
    (inv_idle now)).nothingCleared

end Invariant

/-! ## Copies that are left -/

section Leftovers

variable {world after : World Process Key Value} {request : Operation → Request Key Value}
  {index : ℕ} {process : Process} {key : Key} {invalidation : Invalidation Key}
  {before : List ℕ} {pattern : Pattern Key} {rest : List (Pattern Key)}

/-- A process has copies only of writes that are done. -/
def Held (world : World Process Key Value) : Prop :=
  ∀ process key copy, world.memory process key = some copy → copy.writer ∈ world.written

omit [DecidableEq Key] in
theorem held_next (hheld : Held world) (patterns : List (Pattern Key)) :
    Held (world.next process invalidation before patterns).1 := by
  cases patterns with
  | nil => exact hheld
  | cons pattern rest => exact fun other key copy hcopy => hheld other key copy (mem_sweep hcopy).1

theorem held_step {event : Event Process Key Operation} (hheld : Held world)
    (hstep : step request world event = some after) : Held after := by
  cases takes_of_step hstep with
  | start process operation =>
      cases hasked : request operation with
      | invalidate invalidation => exact held_next hheld invalidation.patterns
      | set key value lifetime => exact hheld
      | get key => exact hheld
      | nothing => exact hheld
  | keep hcall =>
      intro other name copy hcopy
      rcases mem_setMemory hcopy with ⟨hnew, -⟩ | hold
      · obtain rfl := Option.some.inj hnew
        exact List.mem_cons_self
      · exact List.mem_cons_of_mem _ (hheld other name copy hold)
  | expired hcall =>
      intro other name copy hcopy
      exact hheld other name copy ((mem_setMemory hcopy).resolve_left (by simp))
  | advance hcall => exact held_next hheld _
  | store hcall => exact hheld
  | found hcall hcopy => exact hheld
  | missed hcall => exact hheld
  | nothing hcall => exact hheld
  | live hcall hcopy hlive => exact hheld
  | scan hcall => exact hheld
  | delete hcall => exact hheld
  | lose key => exact hheld
  | tick hlater => exact hheld

/-- What an invalidation that goes on alone leaves. -/
structure Leaves (world after : World Process Key Value) (process : Process) (key : Key)
    (before : List ℕ) : Prop where
  now : after.now = world.now
  memory : ∀ other, other ≠ process → after.memory other = world.memory other
  cleared : before ⊆ after.cleared key
  store : after.store key = none

omit [DecidableEq Key] in
theorem memory_next (world : World Process Key Value) (invalidation : Invalidation Key)
    (before : List ℕ) (patterns : List (Pattern Key)) {other : Process} (hother : other ≠ process) :
    (world.next process invalidation before patterns).1.memory other = world.memory other := by
  cases patterns with
  | nil => rfl
  | cons pattern rest =>
      funext key
      exact if_neg fun hsame => hother hsame.1

/-- The steps of one pattern, which deletes its keys from the store. -/
theorem exists_run_pattern (request : Operation → Request Key Value)
    (hcall : world.calls[index]? = some (.scanning process invalidation before pattern rest)) :
    ∃ middle : World Process Key Value, middle.now = world.now ∧ middle.memory = world.memory ∧
      middle.calls.length = world.calls.length ∧
      (∀ key, middle.store key = none ↔ pattern.inStore key = true ∨ world.store key = none) ∧
      Run (step request) world [.scan index, .delete index, .advance index]
        ((middle.next process invalidation before rest).1.move index
          (middle.next process invalidation before rest).2) := by
  have hindex := (List.getElem?_eq_some_iff.mp hcall).1
  set scanned := world.move index (.deleting process invalidation before
    (fun key => pattern.inStore key && (world.store key).isSome) rest) with hscanned
  have hdeleting : scanned.calls[index]? = some (.deleting process invalidation before
      (fun key => pattern.inStore key && (world.store key).isSome) rest) :=
    List.getElem?_set_self hindex
  set deleted := ({ scanned with
      store := fun key =>
        if pattern.inStore key && (world.store key).isSome then none
        else scanned.store key }).move index
      (.deleted process invalidation before rest) with hdeleted
  have hlength : scanned.calls.length = world.calls.length := List.length_set
  have hadvancing : deleted.calls[index]? = some (.deleted process invalidation before rest) :=
    List.getElem?_set_self (hindex.trans_eq hlength.symm)
  refine ⟨deleted, rfl, rfl, List.length_set.trans hlength, ?_, ?_⟩
  · intro key
    cases hmatches : pattern.inStore key <;> cases hfound : world.store key <;>
      simp [deleted, scanned, World.move, hmatches, hfound]
  · have hscan : step request world (.scan index) = some scanned := by
      simp [step, hcall, hscanned]
    have hdelete : step request scanned (.delete index) = some deleted := by
      simp [step, hdeleting, hdeleted]
    refine .cons trivial hscan (.cons trivial hdelete (.cons trivial ?_ (.nil _)))
    simp [step, hadvancing]

/-- An invalidation may go on to its end while no other call takes a step. -/
theorem exists_run_scanning (request : Operation → Request Key Value)
    (hcovers : invalidation.covers key = true)
    (hcall : world.calls[index]? = some (.scanning process invalidation before pattern rest))
    (hgone : world.store key = none ∨ ∃ matching ∈ pattern :: rest, matching.Matches key) :
    ∃ later after, Run (step request) world later after ∧
      Leaves world after process key before := by
  induction rest generalizing world pattern with
  | nil =>
      obtain ⟨middle, hnow, hmemory, -, hstore, hrun⟩ := exists_run_pattern request hcall
      refine ⟨_, _, hrun, hnow, fun other _ => congrFun hmemory other, ?_, ?_⟩
      · simp [World.next, World.move, hcovers]
      · apply (hstore key).mpr
        rcases hgone with hnone | ⟨matching, hmem, hmatches⟩
        · exact .inr hnone
        · obtain rfl := List.mem_singleton.mp hmem
          exact .inl hmatches.2
  | cons following rest ih =>
      obtain ⟨middle, hnow, hmemory, hlength, hstore, hrun⟩ :=
        exists_run_pattern request hcall
      have hindex := (List.getElem?_eq_some_iff.mp hcall).1
      have hgoes : (middle.move index
            (.scanning process invalidation before following rest)).store key = none ∨
          ∃ matching ∈ following :: rest, matching.Matches key := by
        rcases hgone with hnone | ⟨matching, hmem, hmatches⟩
        · exact .inl ((hstore key).mpr (.inr hnone))
        · rcases List.mem_cons.mp hmem with rfl | hrest
          · exact .inl ((hstore key).mpr (.inl hmatches.2))
          · exact .inr ⟨matching, hrest, hmatches⟩
      have hscanning : ((middle.sweep process following).move index
          (.scanning process invalidation before following rest)).calls[index]? =
            some (.scanning process invalidation before following rest) :=
        List.getElem?_set_self (hindex.trans_eq hlength.symm)
      obtain ⟨later, after, hlater, hleaves⟩ := ih hscanning hgoes
      refine ⟨_, after, hrun.append hlater, hleaves.now.trans hnow, ?_, hleaves.cleared,
        hleaves.store⟩
      intro other hother
      have hswept : (middle.sweep process following).memory other = middle.memory other :=
        memory_next middle invalidation before (following :: rest) hother
      exact (hleaves.memory other hother).trans (hswept.trans (congrFun hmemory other))

/-- A read that finds nothing in the store may return the live copy of its process. -/
theorem exists_run_read {reading : Operation} (hreads : request reading = .get key)
    (hstore : world.store key = none) {copy : Copy Value}
    (hcopy : world.memory process key = some copy) (hlive : world.now ≤ copy.expiresAt) :
    ∃ later after, Run (step request) world later after ∧
      .returned (world.cleared key) (some copy) ∈ after.calls := by
  set index := world.calls.length with hindex
  set started := world.begin (.reading process key (world.cleared key)) with hstarted
  have hasking : started.calls[index]? = some (.reading process key (world.cleared key)) :=
    List.getElem?_concat_length
  set asked := started.move index (.missed process key (world.cleared key)) with hasked
  have hlength : index < started.calls.length := (List.getElem?_eq_some_iff.mp hasking).1
  have hmissed : asked.calls[index]? = some (.missed process key (world.cleared key)) :=
    List.getElem?_set_self hlength
  have hstart : step request world (.start process reading) = some started := by
    rw [step, hreads]
    rfl
  have hask : step request started (.ask index) = some asked := by
    have hnone : started.store key = none := hstore
    simp [step, hasking, hnone, hasked]
  refine ⟨[.start process reading, .ask index, .fallBack index],
    asked.move index (.returned (world.cleared key) (some copy)),
    .cons trivial hstart (.cons trivial hask (.cons trivial ?_ (.nil _))), ?_⟩
  · have hfound : asked.memory process key = some copy := hcopy
    have hkept : ¬copy.expiresAt < asked.now := not_lt.mpr hlive
    simp [step, hmissed, hfound, hkept]
  · have hlast : index < asked.calls.length := hlength.trans_eq List.length_set.symm
    exact List.mem_set hlast _

/-- Where a process holds a live copy under a key that an invalidation of another process
covers, a read after it may return that copy. -/
theorem exists_cleared_returned {now : ℤ} {events : List (Event Process Key Operation)}
    (hrun : Run (step request) ({ now := now } : World Process Key Value) events world)
    {operation reading : Operation} (hasks : request operation = .invalidate invalidation)
    (hreads : request reading = .get key) (hcovers : invalidation.covers key = true)
    {other : Process} (hother : other ≠ process) {copy : Copy Value}
    (hcopy : world.memory other key = some copy) (hlive : world.now ≤ copy.expiresAt) :
    ∃ later after, Run (step request) world (.start process operation :: later) after ∧
      ¬NothingCleared after := by
  have hwritten : copy.writer ∈ world.written := by
    have hheld : Held world := hrun.invariant (fun _ hstep hheld => held_step hheld hstep)
      (fun _ _ _ hcopy => absurd hcopy (Option.some_ne_none _).symm)
    exact hheld other key copy hcopy
  obtain ⟨matching, hmem, hmatches⟩ := invalidation.matched key hcovers
  cases hpatterns : invalidation.patterns with
  | nil =>
      rw [hpatterns] at hmem
      cases hmem
  | cons pattern rest =>
      rw [hpatterns] at hmem
      set started := (world.sweep process pattern).begin
        (.scanning process invalidation world.written pattern rest) with hstarted
      have hstart : step request world (.start process operation) = some started := by
        rw [step, hasks, startCall, hpatterns]
        rfl
      have hscanning : started.calls[world.calls.length]? =
          some (.scanning process invalidation world.written pattern rest) :=
        List.getElem?_concat_length
      obtain ⟨later, cleared, hlater, hleaves⟩ := exists_run_scanning request hcovers hscanning
        (.inr ⟨matching, hmem, hmatches⟩)
      have hkept : cleared.memory other key = some copy := by
        rw [hleaves.memory other hother]
        exact (if_neg fun hsame => hother hsame.1).trans hcopy
      obtain ⟨reads, after, hafter, hreturned⟩ := exists_run_read hreads hleaves.store hkept
        (hleaves.now.trans_le hlive)
      refine ⟨later ++ reads, after, .cons trivial hstart (hlater.append hafter), ?_⟩
      exact fun hnothing => hnothing _ copy hreturned (hleaves.cleared hwritten)

end Leftovers

end StellarSettle.FallbackCopies
