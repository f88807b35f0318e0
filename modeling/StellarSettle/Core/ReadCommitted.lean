import StellarSettle.Core.TransitionSystem

/-!
# Transactions at read committed

A transaction is a list of queries followed by its writes.  Each query sees what other
transactions have committed by then, in whatever order the database returns the rows, and the
writes appear together when the transaction commits.  Between two steps of one transaction any
other may commit.
-/

namespace StellarSettle.ReadCommitted

open StellarSettle.TransitionSystem

variable {Store Write Error Operation Index : Type*}

/-- A transaction: it queries the store, commits what it has decided to write, or throws. -/
inductive Transaction (Store Write Error : Type*) where
  | query (next : Store → Transaction Store Write Error)
  | commit (write : Write)
  | throw (error : Error)

/-- What a transaction does with the result of one query that must find something. -/
def Transaction.require {Found : Type*} (find : Store → Except Error (Option Found))
    (missing : Error) (next : Found → Transaction Store Write Error) :
    Transaction Store Write Error :=
  .query fun store =>
    match find store with
    | .error error => .throw error
    | .ok none => .throw missing
    | .ok (some found) => next found

/-- What a transaction does with the result of one query, whether it finds something or not. -/
def Transaction.lookUp {Found : Type*} (find : Store → Except Error (Option Found))
    (next : Option Found → Transaction Store Write Error) : Transaction Store Write Error :=
  .query fun store =>
    match find store with
    | .error error => .throw error
    | .ok found => next found

/-- The committed store, and the open transaction of each connection. -/
structure System (Index Store Write Error : Type*) where
  committed : Store
  connection : Index → Option (Transaction Store Write Error)

/-- One step of one connection.  A query sees the rows of the store in some order. -/
inductive Event (Index Store Operation : Type*) where
  | start (index : Index) (operation : Operation)
  | query (index : Index) (seen : Store)
  | commit (index : Index)
  | rollback (index : Index)

/-- How an operation begins, what a query may see, and what a write does unless it violates a
constraint of the store. -/
structure Database (Store Write Error Operation : Type*) where
  code : Operation → Transaction Store Write Error
  shows : Store → Store → Prop
  decidableShows : ∀ store seen, Decidable (shows store seen)
  apply : Write → Store → Option Store

variable [DecidableEq Index] {database : Database Store Write Error Operation}

/-- The connection carries on with `next`. -/
def System.resume (system : System Index Store Write Error) (index : Index)
    (next : Option (Transaction Store Write Error)) : System Index Store Write Error :=
  { system with connection := setProcess system.connection index next }

/-- A write that violates a constraint fails the transaction, as a throw does: both are rolled
back. -/
def step (database : Database Store Write Error Operation)
    (system : System Index Store Write Error) :
    Event Index Store Operation → Option (System Index Store Write Error)
  | .start index operation =>
      match system.connection index with
      | none => some (system.resume index (some (database.code operation)))
      | some _ => none
  | .query index seen =>
      match system.connection index with
      | some (.query next) =>
          have := database.decidableShows system.committed seen
          if database.shows system.committed seen then
            some (system.resume index (some (next seen)))
          else none
      | _ => none
  | .commit index =>
      match system.connection index with
      | some (.commit write) =>
          (database.apply write system.committed).map fun after =>
            { system.resume index none with committed := after }
      | _ => none
  | .rollback index => some (system.resume index none)

/-- A guard on the commits alone: what holds of the store and the write that is committed. -/
def OnCommit (guard : Store → Write → Prop) (system : System Index Store Write Error) :
    Event Index Store Operation → Prop
  | .commit index => ∀ write, system.connection index = some (.commit write) →
      guard system.committed write
  | _ => True

/-- Nothing is open. -/
def System.idle (store : Store) : System Index Store Write Error :=
  { committed := store
    connection := fun _ => none }

section Commits

variable {system after : System Index Store Write Error}

/-- A step leaves the committed store, or commits the write of its connection. -/
theorem committed_of_step {event : Event Index Store Operation}
    (hstep : step database system event = some after) :
    (after.committed = system.committed ∧ ∀ index, event ≠ .commit index) ∨
      ∃ index write, event = .commit index ∧ system.connection index = some (.commit write) ∧
        database.apply write system.committed = some after.committed := by
  cases event with
  | start index operation =>
      simp only [step] at hstep
      split at hstep
      · obtain rfl := Option.some.inj hstep
        exact .inl ⟨rfl, nofun⟩
      · cases hstep
  | query index seen =>
      simp only [step] at hstep
      split at hstep
      · split at hstep
        · obtain rfl := Option.some.inj hstep
          exact .inl ⟨rfl, nofun⟩
        · cases hstep
      · cases hstep
  | commit index =>
      simp only [step] at hstep
      split at hstep
      · rename_i write hopen
        obtain ⟨store, hstore, rfl⟩ := Option.map_eq_some_iff.mp hstep
        exact .inr ⟨index, write, rfl, hopen, hstore⟩
      · cases hstep
  | rollback index =>
      obtain rfl := Option.some.inj hstep
      exact .inl ⟨rfl, nofun⟩

/-- Where `guard` says exactly which writes keep an invariant of the store, it says exactly which
steps do. -/
theorem invariant_of_step_iff {Inv : Store → Prop} {guard : Store → Write → Prop}
    (hexact : ∀ {store next : Store} {write : Write}, database.apply write store = some next →
      Inv store → (Inv next ↔ guard store write))
    {event : Event Index Store Operation} (hstep : step database system event = some after)
    (hinv : Inv system.committed) : Inv after.committed ↔ OnCommit guard system event := by
  rcases committed_of_step hstep with ⟨hsame, hother⟩ | ⟨index, write, rfl, hopen, happly⟩
  · have hguard : OnCommit guard system event := by
      cases event with
      | commit index => exact absurd rfl (hother index)
      | _ => exact trivial
    rw [hsame]
    exact iff_of_true hinv hguard
  · rw [hexact happly hinv]
    constructor
    · intro hguard other hother
      obtain rfl : write = other := by simpa [hopen] using hother
      exact hguard
    · intro hguard
      exact hguard write hopen

/-- In a run from a store with the invariant, every store that is reached has it exactly when
every commit meets the guard. -/
theorem invariant_of_run_iff {Inv : Store → Prop} {guard : Store → Write → Prop}
    (hexact : ∀ {store next : Store} {write : Write}, database.apply write store = some next →
      Inv store → (Inv next ↔ guard store write))
    {last : System Index Store Write Error} {events : List (Event Index Store Operation)}
    (hrun : Run (step database) system events last) (hinv : Inv system.committed) :
    (∀ front, front <+: events → ∀ reached, exec (step database) system front = some reached →
        Inv reached.committed) ↔
      GuardedRun (step database) (OnCommit guard) system events last :=
  by
  have hcommitted : ∀ {before after : System Index Store Write Error}
      {event : Event Index Store Operation}, step database before event = some after →
        Inv before.committed → (Inv after.committed ↔ OnCommit guard before event) :=
    fun hstep hbefore => invariant_of_step_iff hexact hstep hbefore
  exact (guardedRun_iff_invariant hcommitted hrun hinv).symm

end Commits

section Rely

/-! ## What an operation secures

Between two steps of a transaction the others change the store, but only as `rely` allows.  What
a transaction secures is what holds of the store and its write whenever it may commit. -/

variable {rely : Store → Store → Prop} {post : Store → Write → Prop}

/-- Whatever the transaction sees of stores that `rely` allows from here on, `post` holds of the
store and of the write when it commits. -/
def Transaction.Secures (shows rely : Store → Store → Prop) (post : Store → Write → Prop) :
    Transaction Store Write Error → Store → Prop
  | .query next, store =>
      ∀ later, rely store later → ∀ seen, shows later seen →
        (next seen).Secures shows rely post later
  | .commit write, store => ∀ later, rely store later → post later write
  | .throw _, _ => True

theorem Transaction.secures_require {shows : Store → Store → Prop} {Found : Type*}
    {find : Store → Except Error (Option Found)} {missing : Error}
    {next : Found → Transaction Store Write Error} {store : Store}
    (hnext : ∀ later, rely store later → ∀ seen, shows later seen → ∀ found,
      find seen = .ok (some found) → (next found).Secures shows rely post later) :
    (Transaction.require find missing next).Secures shows rely post store := by
  intro later hrely seen hshows
  dsimp only
  split
  · exact trivial
  · exact trivial
  · rename_i found hfind
    exact hnext later hrely seen hshows found hfind

theorem Transaction.secures_lookUp {shows : Store → Store → Prop} {Found : Type*}
    {find : Store → Except Error (Option Found)}
    {next : Option Found → Transaction Store Write Error} {store : Store}
    (hnext : ∀ later, rely store later → ∀ seen, shows later seen → ∀ found,
      find seen = .ok found → (next found).Secures shows rely post later) :
    (Transaction.lookUp find next).Secures shows rely post store := by
  intro later hrely seen hshows
  dsimp only
  split
  · exact trivial
  · rename_i found hfind
    exact hnext later hrely seen hshows found hfind

/-- What is secured stays so while the others do what they may. -/
theorem Transaction.Secures.later (htrans : ∀ first middle last, rely first middle →
      rely middle last → rely first last)
    {shows : Store → Store → Prop} {transaction : Transaction Store Write Error}
    {store later : Store} (hsecures : transaction.Secures shows rely post store)
    (hrely : rely store later) : transaction.Secures shows rely post later := by
  cases transaction with
  | query next =>
      intro last hlast
      exact hsecures last (htrans _ _ _ hrely hlast)
  | commit write =>
      intro last hlast
      exact hsecures last (htrans _ _ _ hrely hlast)
  | throw error => exact trivial

/-- Every open transaction secures `post`. -/
def System.Secured (database : Database Store Write Error Operation)
    (rely : Store → Store → Prop) (post : Store → Write → Prop)
    (system : System Index Store Write Error) : Prop :=
  ∀ index transaction, system.connection index = some transaction →
    transaction.Secures database.shows rely post system.committed

variable {system after : System Index Store Write Error}

omit [DecidableEq Index] in
theorem System.secured_idle (store : Store) :
    (System.idle store : System Index Store Write Error).Secured database rely post := by
  intro index transaction hopen
  cases hopen

/-- A connection that carries on with a transaction that secures `post` leaves all others. -/
theorem System.Secured.resume (hsecured : system.Secured database rely post) {index : Index}
    {next : Option (Transaction Store Write Error)}
    (hnext : ∀ transaction ∈ next,
      transaction.Secures database.shows rely post system.committed) :
    (system.resume index next).Secured database rely post := by
  intro other transaction hopen
  by_cases hother : other = index
  · subst other
    refine hnext transaction ?_
    simpa [System.resume] using hopen
  · refine hsecured other transaction ?_
    simpa [System.resume, hother] using hopen

/-- Every operation secures `post`, so every step that changes the store as `rely` allows keeps it
secured. -/
theorem System.Secured.step (hrefl : ∀ store, rely store store)
    (htrans : ∀ first middle last, rely first middle → rely middle last →
      rely first last)
    (hcode : ∀ operation store, (database.code operation).Secures database.shows rely post store)
    {event : Event Index Store Operation} (hstep : step database system event = some after)
    (hrely : rely system.committed after.committed)
    (hsecured : system.Secured database rely post) : after.Secured database rely post := by
  cases event with
  | start index operation =>
      simp only [ReadCommitted.step] at hstep
      split at hstep
      · obtain rfl := Option.some.inj hstep
        refine hsecured.resume ?_
        rintro transaction ⟨⟩
        exact hcode operation _
      · cases hstep
  | query index seen =>
      simp only [ReadCommitted.step] at hstep
      split at hstep
      · rename_i next hopen
        split at hstep
        · rename_i hshows
          obtain rfl := Option.some.inj hstep
          refine hsecured.resume ?_
          rintro transaction ⟨⟩
          exact hsecured index _ hopen _ (hrefl _) seen hshows
        · cases hstep
      · cases hstep
  | commit index =>
      simp only [ReadCommitted.step] at hstep
      split at hstep
      · obtain ⟨store, _, rfl⟩ := Option.map_eq_some_iff.mp hstep
        have hresumed : (system.resume index none).Secured database rely post :=
          hsecured.resume (by rintro transaction ⟨⟩)
        intro other transaction hopen
        have hbefore := hresumed other transaction hopen
        exact hbefore.later htrans hrely
      · cases hstep
  | rollback index =>
      obtain rfl := Option.some.inj hstep
      exact hsecured.resume (by rintro transaction ⟨⟩)

/-- Where the operations secure `post`, and `guard` says exactly which writes with `post` keep an
invariant and such writes change the store as `rely` allows, every store that a run reaches has the
invariant exactly when every commit meets the guard. -/
theorem invariant_of_run_iff_of_secures (hrefl : ∀ store, rely store store)
    (htrans : ∀ first middle last, rely first middle → rely middle last →
      rely first last)
    (hcode : ∀ operation store, (database.code operation).Secures database.shows rely post store)
    {Inv : Store → Prop} {guard : Store → Write → Prop}
    (hexact : ∀ {store next : Store} {write : Write}, database.apply write store = some next →
      Inv store → post store write → (Inv next ↔ guard store write))
    (hguard : ∀ {store next : Store} {write : Write}, database.apply write store = some next →
      Inv store → post store write → guard store write → rely store next)
    {store : Store} {last : System Index Store Write Error}
    {events : List (Event Index Store Operation)}
    (hrun : Run (ReadCommitted.step database) (System.idle store) events last) (hinv : Inv store) :
    (∀ front, front <+: events → ∀ reached,
        exec (ReadCommitted.step database) (System.idle store) front = some reached →
          Inv reached.committed) ↔
      GuardedRun (ReadCommitted.step database) (OnCommit guard) (System.idle store) events
        last := by
  -- A step from a secured system keeps the invariant exactly when its commit, if it is one, fits.
  have hboth : ∀ {before after : System Index Store Write Error}
      {event : Event Index Store Operation}, ReadCommitted.step database before event = some after →
        Inv before.committed ∧ before.Secured database rely post →
          (Inv after.committed ↔ OnCommit guard before event) ∧
            (OnCommit guard before event → rely before.committed after.committed) := by
    rintro before after event hstep ⟨hbefore, hsecured⟩
    rcases committed_of_step hstep with ⟨hsame, hother⟩ | ⟨index, write, rfl, hopen, happly⟩
    · have hmeets : OnCommit guard before event := by
        cases event with
        | commit index => exact absurd rfl (hother index)
        | _ => exact trivial
      rw [hsame]
      exact ⟨iff_of_true hbefore hmeets, fun _ => hrefl _⟩
    · have hpost : post before.committed write := hsecured index _ hopen _ (hrefl _)
      have hmeets : OnCommit guard before (.commit index : Event Index Store Operation) ↔
          guard before.committed write := by
        simp [OnCommit, hopen]
      rw [hexact happly hbefore hpost, hmeets]
      exact ⟨Iff.rfl, hguard happly hbefore hpost⟩
  have hobserved : ∀ {state : System Index Store Write Error},
      Inv state.committed ∧ state.Secured database rely post → Inv state.committed :=
    fun hstate => hstate.1
  have hsteps : ∀ {before after : System Index Store Write Error}
      {event : Event Index Store Operation}, ReadCommitted.step database before event = some after →
        Inv before.committed ∧ before.Secured database rely post →
          (Inv after.committed ↔ OnCommit guard before event) :=
    fun hstep hbefore => (hboth hstep hbefore).1
  refine (guardedRun_iff_observed hobserved hsteps ?_ hrun
    ⟨hinv, System.secured_idle store⟩).symm
  intro before after event hmeets hstep hbefore
  obtain ⟨hafter, hrely⟩ := hboth hstep hbefore
  exact ⟨hafter.mpr hmeets, hbefore.2.step hrefl htrans hcode hstep (hrely hmeets)⟩

end Rely

end StellarSettle.ReadCommitted
