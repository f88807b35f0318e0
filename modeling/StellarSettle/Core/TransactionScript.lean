import Mathlib.Data.List.Basic

/-!
# Effects that announce committed changes

The code of an operation is a tree: what it does next depends on how each of its steps went.  A
step is answered, it fails, or it is carried out and its answer is lost; where the replies end,
the process has stopped.  Changes are made in transactions, and an effect announces a change to
the outside, where no rollback reaches it.
-/

namespace StellarSettle.TransactionScript

variable {Answer Change Effect Error Result Next : Type}

/-! ## Scripts -/

inductive Reply (Answer Error : Type) where
  | answered (answer : Answer)
  | failed (error : Error)
  | lost (error : Error)

namespace Reply

/-- What the code gets to see of a reply. -/
def seen : Reply Answer Error → Except Error Answer
  | answered answer => .ok answer
  | failed error => .error error
  | lost error => .error error

def takesPlace : Reply Answer Error → Bool
  | answered _ => true
  | failed _ => false
  | lost _ => true

end Reply

inductive Action (Change Effect : Type) where
  | start
  | change (change : Change)
  | commit
  | announce (effect : Effect)

/-- The code of an operation: a statement whose answer it reads, an action, or its end. -/
inductive Script (Answer Change Effect Error Result : Type) where
  | done (result : Except Error Result)
  | query (next : Except Error Answer → Script Answer Change Effect Error Result)
  | perform (action : Action Change Effect)
      (next : Except Error Unit → Script Answer Change Effect Error Result)

namespace Script

def bind : Script Answer Change Effect Error Result →
    (Result → Script Answer Change Effect Error Next) → Script Answer Change Effect Error Next
  | done (.ok value), rest => rest value
  | done (.error error), _ => done (.error error)
  | query next, rest => query fun reply => (next reply).bind rest
  | perform action next, rest => perform action fun reply => (next reply).bind rest

def catching : Script Answer Change Effect Error Result →
    (Error → Script Answer Change Effect Error Result) →
      Script Answer Change Effect Error Result
  | done (.ok value), _ => done (.ok value)
  | done (.error error), handler => handler error
  | query next, handler => query fun reply => (next reply).catching handler
  | perform action next, handler => perform action fun reply => (next reply).catching handler

instance : Monad (Script Answer Change Effect Error) where
  pure value := .done (.ok value)
  bind := Script.bind

instance : MonadExceptOf Error (Script Answer Change Effect Error) where
  throw error := .done (.error error)
  tryCatch := Script.catching

/-- A computation that waits for nothing. -/
def ofExcept (result : Except Error Result) : Script Answer Change Effect Error Result :=
  .done result

def statement : Script Answer Change Effect Error Answer := .query .done

def act (action : Action Change Effect) : Script Answer Change Effect Error Unit :=
  .perform action .done

/-- A transaction that is not committed is rolled back. -/
def transaction (body : Script Answer Change Effect Error Result) :
    Script Answer Change Effect Error Result := do
  act .start
  let value ← body
  act .commit
  return value

/-- An effect whose failure is only logged. -/
def tell (effect : Effect) : Script Answer Change Effect Error Unit :=
  tryCatch (act (.announce effect)) fun _ => pure ()

theorem bind_done (script : Script Answer Change Effect Error Result) :
    script.bind (fun value => done (.ok value)) = script := by
  induction script with
  | done result =>
      cases result with
      | error error => rfl
      | ok value => rfl
  | query next ih =>
      rw [bind]
      congr
      funext reply
      exact ih reply
  | perform action next ih =>
      rw [bind]
      congr
      funext reply
      exact ih reply

theorem bind_bind {Last : Type} (script : Script Answer Change Effect Error Result)
    (rest : Result → Script Answer Change Effect Error Next)
    (last : Next → Script Answer Change Effect Error Last) :
    (script.bind rest).bind last = script.bind fun value => (rest value).bind last := by
  induction script with
  | done result =>
      cases result with
      | error error => rfl
      | ok value => rfl
  | query next ih =>
      rw [bind, bind, bind]
      congr
      funext reply
      exact ih reply
  | perform action next ih =>
      rw [bind, bind, bind]
      congr
      funext reply
      exact ih reply

instance : LawfulMonad (Script Answer Change Effect Error) :=
  LawfulMonad.mk' _ bind_done (fun _ _ => rfl) bind_bind

end Script

/-! ## Playing a script -/

/-- A transaction: what it changed, whether it was committed, and the effects of the operation
until the next one starts. -/
structure Attempt (Change Effect : Type) where
  changes : List Change := []
  committed : Bool := false
  effects : List Effect := []
  deriving DecidableEq, Repr

structure Ledger (Change Effect : Type) where
  closed : List (Attempt Change Effect) := []
  current : Attempt Change Effect := {}
  deriving DecidableEq, Repr

namespace Ledger

def perform (ledger : Ledger Change Effect) : Action Change Effect → Ledger Change Effect
  | .start => { closed := ledger.closed ++ [ledger.current], current := {} }
  | .change change =>
      { ledger with
        current := { ledger.current with changes := ledger.current.changes ++ [change] } }
  | .commit => { ledger with current := { ledger.current with committed := true } }
  | .announce effect =>
      { ledger with
        current := { ledger.current with effects := ledger.current.effects ++ [effect] } }

end Ledger

/-- What a script leaves: its ledger and, unless the process stopped, its result and the replies
that are left. -/
structure Played (Answer Change Effect Error Result : Type) where
  ledger : Ledger Change Effect
  outcome : Option (Except Error Result × List (Reply Answer Error))

namespace Played

/-- Going on after a normal end. -/
def andThen (played : Played Answer Change Effect Error Result)
    (rest : Result → List (Reply Answer Error) → Ledger Change Effect →
      Played Answer Change Effect Error Next) : Played Answer Change Effect Error Next :=
  match played.outcome with
  | none => ⟨played.ledger, none⟩
  | some (.error error, replies) => ⟨played.ledger, some (.error error, replies)⟩
  | some (.ok value, replies) => rest value replies played.ledger

/-- Going on after an error. -/
def orElse (played : Played Answer Change Effect Error Result)
    (handler : Error → List (Reply Answer Error) → Ledger Change Effect →
      Played Answer Change Effect Error Result) : Played Answer Change Effect Error Result :=
  match played.outcome with
  | some (.error error, replies) => handler error replies played.ledger
  | _ => played

end Played

namespace Script

def play : Script Answer Change Effect Error Result → List (Reply Answer Error) →
    Ledger Change Effect → Played Answer Change Effect Error Result
  | done result, replies, ledger => ⟨ledger, some (result, replies)⟩
  | query _, [], ledger => ⟨ledger, none⟩
  | query next, reply :: replies, ledger => (next reply.seen).play replies ledger
  | perform _ _, [], ledger => ⟨ledger, none⟩
  | perform action next, reply :: replies, ledger =>
      (next (reply.seen.map fun _ => ())).play replies
        (if reply.takesPlace then ledger.perform action else ledger)

variable {script : Script Answer Change Effect Error Result}
  {rest : Result → Script Answer Change Effect Error Next}
  {handler : Error → Script Answer Change Effect Error Result}

theorem play_bind (replies : List (Reply Answer Error)) (ledger : Ledger Change Effect) :
    (script >>= rest).play replies ledger =
      (script.play replies ledger).andThen fun value => (rest value).play := by
  change (script.bind rest).play replies ledger = _
  induction script generalizing replies ledger with
  | done result =>
      cases result with
      | error error => rfl
      | ok value => rfl
  | query next ih =>
      cases replies with
      | nil => rfl
      | cons reply replies => exact ih reply.seen replies ledger
  | perform action next ih =>
      cases replies with
      | nil => rfl
      | cons reply replies => exact ih _ replies _

theorem play_tryCatch (replies : List (Reply Answer Error)) (ledger : Ledger Change Effect) :
    (tryCatch script handler).play replies ledger =
      (script.play replies ledger).orElse fun error => (handler error).play := by
  change (script.catching handler).play replies ledger = _
  induction script generalizing replies ledger with
  | done result =>
      cases result with
      | error error => rfl
      | ok value => rfl
  | query next ih =>
      cases replies with
      | nil => rfl
      | cons reply replies => exact ih reply.seen replies ledger
  | perform action next ih =>
      cases replies with
      | nil => rfl
      | cons reply replies => exact ih _ replies _

end Script

/-! ## Effects and commits -/

section Announcing

variable (announced : Effect → Change)

/-- Every effect announces a change that its transaction made and committed. -/
def Attempt.AnnouncesCommitted (attempt : Attempt Change Effect) : Prop :=
  ∀ effect ∈ attempt.effects, attempt.committed = true ∧ announced effect ∈ attempt.changes

instance [DecidableEq Change] (attempt : Attempt Change Effect) :
    Decidable (attempt.AnnouncesCommitted announced) :=
  inferInstanceAs (Decidable (∀ effect ∈ attempt.effects, _))

def Ledger.AnnouncesCommitted (ledger : Ledger Change Effect) : Prop :=
  (∀ attempt ∈ ledger.closed, attempt.AnnouncesCommitted announced) ∧
    ledger.current.AnnouncesCommitted announced

instance [DecidableEq Change] (ledger : Ledger Change Effect) :
    Decidable (ledger.AnnouncesCommitted announced) :=
  inferInstanceAs (Decidable (_ ∧ _))

theorem Ledger.announcesCommitted_start {ledger : Ledger Change Effect}
    (hledger : ledger.AnnouncesCommitted announced) :
    (ledger.perform .start).AnnouncesCommitted announced := by
  refine ⟨fun attempt hmem => ?_, fun _ hnone => by cases hnone⟩
  rcases List.mem_append.mp hmem with hclosed | hcurrent
  · exact hledger.1 attempt hclosed
  · rw [List.mem_singleton.mp hcurrent]
    exact hledger.2

theorem Ledger.announcesCommitted_change {ledger : Ledger Change Effect} (change : Change)
    (hledger : ledger.AnnouncesCommitted announced) :
    (ledger.perform (.change change)).AnnouncesCommitted announced := by
  refine ⟨hledger.1, fun effect hmem => ?_⟩
  obtain ⟨hcommitted, hmade⟩ := hledger.2 effect hmem
  exact ⟨hcommitted, List.mem_append_left _ hmade⟩

theorem Ledger.announcesCommitted_commit {ledger : Ledger Change Effect}
    (hledger : ledger.AnnouncesCommitted announced) :
    (ledger.perform .commit).AnnouncesCommitted announced :=
  ⟨hledger.1, fun effect hmem => ⟨rfl, (hledger.2 effect hmem).2⟩⟩

theorem Ledger.announcesCommitted_announce {ledger : Ledger Change Effect} {effect : Effect}
    (hledger : ledger.AnnouncesCommitted announced)
    (hcommitted : ledger.current.committed = true)
    (hmade : announced effect ∈ ledger.current.changes) :
    (ledger.perform (.announce effect)).AnnouncesCommitted announced := by
  refine ⟨hledger.1, fun other hmem => ?_⟩
  rcases List.mem_append.mp hmem with hold | hnew
  · exact hledger.2 other hold
  · rw [List.mem_singleton.mp hnew]
    exact ⟨hcommitted, hmade⟩

/-! ## Rules -/

/-- From a transaction with `before`, the script keeps its effects to committed changes whatever
the replies are, and leaves a transaction with `after`. -/
def Ensures (before : Attempt Change Effect → Prop)
    (script : Script Answer Change Effect Error Result)
    (after : Except Error Result → Attempt Change Effect → Prop) : Prop :=
  ∀ (replies : List (Reply Answer Error)) (ledger : Ledger Change Effect),
    ledger.AnnouncesCommitted announced → before ledger.current →
      (script.play replies ledger).ledger.AnnouncesCommitted announced ∧
        ∀ result left, (script.play replies ledger).outcome = some (result, left) →
          after result (script.play replies ledger).ledger.current

variable {announced} {script : Script Answer Change Effect Error Result}
  {rest : Result → Script Answer Change Effect Error Next}
  {handler : Error → Script Answer Change Effect Error Result}
  {before : Attempt Change Effect → Prop}

theorem Ensures.weaken {after weaker : Except Error Result → Attempt Change Effect → Prop}
    (hscript : Ensures announced before script after)
    (hweaker : ∀ result attempt, after result attempt → weaker result attempt) :
    Ensures announced before script weaker := by
  intro replies ledger hledger hbefore
  obtain ⟨hsound, hafter⟩ := hscript replies ledger hledger hbefore
  exact ⟨hsound, fun result left houtcome => hweaker _ _ (hafter result left houtcome)⟩

theorem Ensures.strengthen {stronger : Attempt Change Effect → Prop}
    {after : Except Error Result → Attempt Change Effect → Prop}
    (hscript : Ensures announced before script after)
    (hstronger : ∀ attempt, stronger attempt → before attempt) :
    Ensures announced stronger script after :=
  fun replies ledger hledger hcurrent => hscript replies ledger hledger (hstronger _ hcurrent)

theorem ensures_bind {between : Except Error Result → Attempt Change Effect → Prop}
    {after : Except Error Next → Attempt Change Effect → Prop}
    (hscript : Ensures announced before script between)
    (hrest : ∀ value, Ensures announced (between (.ok value)) (rest value) after)
    (herror : ∀ error attempt, between (.error error) attempt → after (.error error) attempt) :
    Ensures announced before (script >>= rest) after := by
  intro replies ledger hledger hbefore
  obtain ⟨hsound, hbetween⟩ := hscript replies ledger hledger hbefore
  rw [Script.play_bind, Played.andThen]
  split
  · exact ⟨hsound, nofun⟩
  · rename_i error left houtcome
    refine ⟨hsound, fun result others hsame => ?_⟩
    obtain ⟨rfl, rfl⟩ := Prod.mk.inj (Option.some.inj hsame)
    exact herror error _ (hbetween _ _ houtcome)
  · rename_i value left houtcome
    exact hrest value left _ hsound (hbetween _ _ houtcome)

theorem ensures_tryCatch {between after : Except Error Result → Attempt Change Effect → Prop}
    (hscript : Ensures announced before script between)
    (hhandler : ∀ error, Ensures announced (between (.error error)) (handler error) after)
    (hvalue : ∀ value attempt, between (.ok value) attempt → after (.ok value) attempt) :
    Ensures announced before (tryCatch script handler) after := by
  intro replies ledger hledger hbefore
  obtain ⟨hsound, hbetween⟩ := hscript replies ledger hledger hbefore
  rw [Script.play_tryCatch, Played.orElse]
  split
  · rename_i error left houtcome
    exact hhandler error left _ hsound (hbetween _ _ houtcome)
  · rename_i hnoError
    refine ⟨hsound, fun result left houtcome => ?_⟩
    cases result with
    | error error => exact absurd houtcome (hnoError error left)
    | ok value => exact hvalue value _ (hbetween _ _ houtcome)

theorem ensures_done {result : Except Error Result}
    {after : Except Error Result → Attempt Change Effect → Prop}
    (hafter : ∀ attempt, before attempt → after result attempt) :
    Ensures announced before
      (.done result : Script Answer Change Effect Error Result) after := by
  intro replies ledger hledger hbefore
  refine ⟨hledger, fun ended left houtcome => ?_⟩
  obtain ⟨rfl, _⟩ := Prod.mk.inj (Option.some.inj houtcome)
  exact hafter _ hbefore

/-- An action may not take place, and its answer may be lost. -/
theorem ensures_act {action : Action Change Effect}
    {after : Except Error Unit → Attempt Change Effect → Prop}
    (hsound : ∀ ledger : Ledger Change Effect, ledger.AnnouncesCommitted announced →
      before ledger.current → (ledger.perform action).AnnouncesCommitted announced)
    (hplace : ∀ (ledger : Ledger Change Effect) result, before ledger.current →
      after result (ledger.perform action).current)
    (hfailed : ∀ attempt error, before attempt → after (.error error) attempt) :
    Ensures announced before
      (Script.act action : Script Answer Change Effect Error Unit) after := by
  intro replies ledger hledger hbefore
  cases replies with
  | nil => exact ⟨hledger, nofun⟩
  | cons reply replies =>
      cases reply with
      | answered answer =>
          refine ⟨hsound ledger hledger hbefore, fun result left houtcome => ?_⟩
          obtain ⟨rfl, _⟩ := Prod.mk.inj (Option.some.inj houtcome)
          exact hplace ledger _ hbefore
      | failed error =>
          refine ⟨hledger, fun result left houtcome => ?_⟩
          obtain ⟨rfl, _⟩ := Prod.mk.inj (Option.some.inj houtcome)
          exact hfailed _ error hbefore
      | lost error =>
          refine ⟨hsound ledger hledger hbefore, fun result left houtcome => ?_⟩
          obtain ⟨rfl, _⟩ := Prod.mk.inj (Option.some.inj houtcome)
          exact hplace ledger _ hbefore

variable (announced) in
/-- The script leaves `kept` as it is, however it ends. -/
def Keeps (kept : Attempt Change Effect → Prop)
    (script : Script Answer Change Effect Error Result) : Prop :=
  Ensures announced kept script fun _ => kept

section Keeping

variable {kept : Attempt Change Effect → Prop}

theorem keeps_done (result : Except Error Result) :
    Keeps announced kept (.done result : Script Answer Change Effect Error Result) :=
  ensures_done fun _ hkept => hkept

theorem keeps_statement :
    Keeps announced kept (Script.statement : Script Answer Change Effect Error Answer) := by
  intro replies ledger hledger hkept
  cases replies with
  | nil => exact ⟨hledger, nofun⟩
  | cons reply replies => exact ⟨hledger, fun _ _ _ => hkept⟩

theorem keeps_bind (hscript : Keeps announced kept script)
    (hrest : ∀ value, Keeps announced kept (rest value)) :
    Keeps announced kept (script >>= rest) :=
  ensures_bind hscript hrest fun _ _ hkept => hkept

theorem keeps_tryCatch (hscript : Keeps announced kept script)
    (hhandler : ∀ error, Keeps announced kept (handler error)) :
    Keeps announced kept (tryCatch script handler) :=
  ensures_tryCatch hscript hhandler fun _ _ hkept => hkept

theorem keeps_forM {Item : Type} {items : List Item}
    {body : Item → Script Answer Change Effect Error PUnit}
    (hbody : ∀ item ∈ items, Keeps announced kept (body item)) :
    Keeps announced kept (items.forM body) := by
  induction items with
  | nil => exact keeps_done _
  | cons item items ih =>
      exact keeps_bind (hbody item (by simp)) fun _ =>
        ih fun other hmem => hbody other (by simp [hmem])

end Keeping

/-! ## Reading and changing -/

/-- An assertion that further changes leave true. -/
def Stable (kept : Attempt Change Effect → Prop) : Prop :=
  ∀ attempt change, kept attempt → kept { attempt with changes := attempt.changes ++ [change] }

variable (announced) in
/-- The script only reads and changes. -/
def Quiet (script : Script Answer Change Effect Error Result) : Prop :=
  ∀ kept, Stable kept → Keeps announced kept script

theorem quiet_done (result : Except Error Result) :
    Quiet announced (.done result : Script Answer Change Effect Error Result) :=
  fun _ _ => keeps_done result

theorem quiet_statement :
    Quiet announced (Script.statement : Script Answer Change Effect Error Answer) :=
  fun _ _ => keeps_statement

theorem quiet_bind (hscript : Quiet announced script)
    (hrest : ∀ value, Quiet announced (rest value)) : Quiet announced (script >>= rest) :=
  fun kept hstable => keeps_bind (hscript kept hstable) fun value => hrest value kept hstable

theorem quiet_tryCatch (hscript : Quiet announced script)
    (hhandler : ∀ error, Quiet announced (handler error)) :
    Quiet announced (tryCatch script handler) :=
  fun kept hstable =>
    keeps_tryCatch (hscript kept hstable) fun error => hhandler error kept hstable

theorem quiet_mapM {Item Value : Type} {items : List Item}
    {body : Item → Script Answer Change Effect Error Value}
    (hbody : ∀ item, Quiet announced (body item)) : Quiet announced (items.mapM body) := by
  induction items with
  | nil => exact quiet_done _
  | cons item items ih =>
      rw [List.mapM_cons]
      exact quiet_bind (hbody item) fun _ => quiet_bind ih fun _ => quiet_done _

variable (announced) in
/-- The script only reads and changes, and ends normally once it has made the changes that go
with its result.  Those in `known` were made before. -/
def Makes (known : List Change) (made : Result → List Change)
    (script : Script Answer Change Effect Error Result) : Prop :=
  ∀ kept : Attempt Change Effect → Prop, Stable kept →
    Ensures announced (fun attempt => kept attempt ∧ known ⊆ attempt.changes) script
      fun result attempt =>
        kept attempt ∧ ∀ value, result = .ok value → made value ⊆ attempt.changes

section Making

variable {known : List Change} {made : Next → List Change}

theorem makes_pure {value : Next} (hmade : made value ⊆ known) :
    Makes announced known made (pure value : Script Answer Change Effect Error Next) := by
  intro kept _
  apply ensures_done
  rintro attempt ⟨hkept, hknown⟩
  refine ⟨hkept, fun result hresult => ?_⟩
  rw [← Except.ok.inj hresult]
  exact List.Subset.trans hmade hknown

theorem stable_known {kept : Attempt Change Effect → Prop} (hstable : Stable kept) :
    Stable fun attempt => kept attempt ∧ known ⊆ attempt.changes :=
  fun attempt change hboth =>
    ⟨hstable attempt change hboth.1, List.Subset.trans hboth.2 (List.subset_append_left _ _)⟩

theorem makes_after_quiet (hscript : Quiet announced script)
    (hrest : ∀ value, Makes announced known made (rest value)) :
    Makes announced known made (script >>= rest) := by
  intro kept hstable
  apply ensures_bind (hscript _ (stable_known hstable)) (fun value => hrest value kept hstable)
  exact fun _ _ hboth => ⟨hboth.1, nofun⟩

theorem makes_bind {between : Result → List Change}
    (hscript : Makes announced known between script)
    (hrest : ∀ value, Makes announced (between value) made (rest value)) :
    Makes announced known made (script >>= rest) := by
  intro kept hstable
  apply ensures_bind (hscript kept hstable)
  · intro value replies ledger hledger hbetween
    exact hrest value kept hstable replies ledger hledger ⟨hbetween.1, hbetween.2 value rfl⟩
  · exact fun _ _ hboth => ⟨hboth.1, nofun⟩

/-- A change that takes place is made, whether or not the code gets to know. -/
theorem makes_change (change : Change) :
    Makes announced known (fun _ => change :: known)
      (Script.act (.change change) : Script Answer Change Effect Error Unit) := by
  intro kept hstable
  apply ensures_act
  · exact fun ledger hledger _ => ledger.announcesCommitted_change announced change hledger
  · rintro ledger result ⟨hkept, hknown⟩
    refine ⟨hstable _ change hkept, fun _ _ => ?_⟩
    apply List.cons_subset.mpr
    constructor
    · exact List.mem_append_right _ (List.mem_singleton_self change)
    · exact List.Subset.trans hknown (List.subset_append_left _ _)
  · exact fun attempt error hboth => ⟨hboth.1, nofun⟩

end Making

/-! ## After the commit -/

/-- The transaction made these changes and was committed. -/
def Committed (changes : List Change) (attempt : Attempt Change Effect) : Prop :=
  attempt.committed = true ∧ changes ⊆ attempt.changes

section Committing

variable {changes : List Change} {made : Result → List Change}

theorem stable_committed : Stable (Committed changes : Attempt Change Effect → Prop) :=
  fun _ _ hcommitted =>
    ⟨hcommitted.1, List.Subset.trans hcommitted.2 (List.subset_append_left _ _)⟩

theorem keeps_announce {effect : Effect} (hannounced : announced effect ∈ changes) :
    Keeps announced (Committed changes)
      (Script.act (.announce effect) : Script Answer Change Effect Error Unit) := by
  apply ensures_act
  · intro ledger hledger hcommitted
    exact ledger.announcesCommitted_announce announced hledger hcommitted.1
      (hcommitted.2 hannounced)
  · exact fun ledger _ hcommitted => hcommitted
  · exact fun _ _ hcommitted => hcommitted

theorem keeps_tell {effect : Effect} (hannounced : announced effect ∈ changes) :
    Keeps announced (Committed changes)
      (Script.tell effect : Script Answer Change Effect Error Unit) :=
  keeps_tryCatch (keeps_announce hannounced) fun _ => keeps_done _

theorem ensures_start :
    Ensures announced (fun _ => True)
      (Script.act .start : Script Answer Change Effect Error Unit)
      fun result attempt => ∀ value, result = .ok value → attempt = {} := by
  apply ensures_act
  · exact fun ledger hledger _ => ledger.announcesCommitted_start announced hledger
  · exact fun _ _ _ _ _ => rfl
  · exact fun _ _ _ => nofun

theorem ensures_commit :
    Ensures announced (fun attempt => changes ⊆ attempt.changes)
      (Script.act .commit : Script Answer Change Effect Error Unit)
      fun result attempt => ∀ value, result = .ok value → Committed changes attempt := by
  apply ensures_act
  · exact fun ledger hledger _ => ledger.announcesCommitted_commit announced hledger
  · exact fun ledger _ hmade _ _ => ⟨rfl, hmade⟩
  · exact fun _ _ _ => nofun

variable (announced) in
/-- Started at any point, the script keeps its effects to committed changes. -/
def Safe (script : Script Answer Change Effect Error Result) : Prop :=
  Keeps announced (fun _ => True) script

theorem Quiet.safe (hscript : Quiet announced script) : Safe announced script :=
  hscript _ fun _ _ _ => trivial

theorem safe_bind (hscript : Safe announced script) (hrest : ∀ value, Safe announced (rest value)) :
    Safe announced (script >>= rest) :=
  keeps_bind hscript hrest

theorem safe_tryCatch (hscript : Safe announced script)
    (hhandler : ∀ error, Safe announced (handler error)) :
    Safe announced (tryCatch script handler) :=
  keeps_tryCatch hscript hhandler

/-- A script that is safe wherever it starts is safe from the start. -/
theorem Safe.announcesCommitted (hscript : Safe announced script)
    (replies : List (Reply Answer Error)) :
    (script.play replies {}).ledger.AnnouncesCommitted announced :=
  (hscript replies {} ⟨nofun, fun _ hnone => by cases hnone⟩ trivial).1

theorem safe_commit_bind {next : Script Answer Change Effect Error Next}
    (hnext : Keeps announced (Committed changes) next) :
    Ensures announced (fun attempt => changes ⊆ attempt.changes)
      (Script.act .commit >>= fun _ => next) fun _ _ => True := by
  apply ensures_bind ensures_commit
  · intro value replies ledger hledger hcommitted
    exact hnext.weaken (fun _ _ _ => trivial) replies ledger hledger (hcommitted value rfl)
  · exact fun _ _ _ => trivial

/-- A transaction that only reads and changes, and then effects that announce its changes. -/
theorem safe_transaction_bind (hscript : Makes announced [] made script)
    (hrest : ∀ value, Keeps announced (Committed (made value)) (rest value)) :
    Safe announced (Script.transaction script >>= rest) := by
  rw [Script.transaction]
  simp only [bind_assoc, pure_bind]
  unfold Safe Keeps
  have hbody : Ensures announced (fun _ => True) script fun result attempt =>
      ∀ value, result = .ok value → made value ⊆ attempt.changes := by
    intro replies ledger hledger _
    have hmakes := hscript (fun _ => True) (fun _ _ _ => trivial) replies ledger hledger
      ⟨trivial, List.nil_subset _⟩
    exact ⟨hmakes.1, fun result left houtcome => (hmakes.2 result left houtcome).2⟩
  apply ensures_bind ensures_start
  · intro _
    apply ensures_bind (hbody.strengthen fun _ _ => trivial)
    · intro value replies ledger hledger hmade
      exact safe_commit_bind (hrest value) replies ledger hledger (hmade value rfl)
    · exact fun _ _ _ => trivial
  · exact fun _ _ _ => trivial

/-- A transaction that announces nothing. -/
theorem safe_transaction (hscript : Quiet announced script) :
    Safe announced (Script.transaction script) := by
  have hmakes : Makes announced [] (fun _ => []) script := by
    intro kept hstable
    apply (hscript _ (stable_known hstable)).weaken
    exact fun _ _ hboth => ⟨hboth.1, fun _ _ => List.nil_subset _⟩
  have hdone : ∀ value : Result,
      Keeps announced (Committed [])
        (.done (.ok value) : Script Answer Change Effect Error Result) :=
    fun value => keeps_done (.ok value)
  have hsafe := safe_transaction_bind hmakes hdone
  exact bind_pure (Script.transaction script) ▸ hsafe

end Committing

/-! ## Effects before the commit -/

/-- What a transaction is left with when it announces its change and then commits: if the effect
takes place, the commit does. -/
def CommitFollows : List (Reply Answer Error) → Prop
  | [] => True
  | told :: left => told.takesPlace = true → ∃ reply ∈ left.head?, reply.takesPlace = true

/-- The state of a transaction that has made its changes and announced none. -/
def Unannounced (changes : List Change) (attempt : Attempt Change Effect) : Prop :=
  (attempt.effects = [] ∧ attempt.committed = false) ∧ changes ⊆ attempt.changes

section Inside

variable {Early : Type} {prelude : Script Answer Change Effect Error Early}
  {body : Early → Script Answer Change Effect Error Result} {made : Result → List Change}
  {effect : Result → Effect} {last : Result → Script Answer Change Effect Error Next}

theorem not_announcesCommitted_announce {told : Effect} {ledger : Ledger Change Effect}
    (hopen : ledger.current.committed = false) :
    ¬(ledger.perform (.announce told)).AnnouncesCommitted announced := by
  intro hledger
  have hcommitted := (hledger.2 told (List.mem_append_right _ (List.mem_singleton_self told))).1
  rw [show (ledger.perform (.announce told)).current.committed = false from hopen] at hcommitted
  cases hcommitted

theorem announcesCommitted_announce_commit {changes : List Change} {told : Effect}
    (hannounced : announced told ∈ changes) {ledger : Ledger Change Effect}
    (hledger : ledger.AnnouncesCommitted announced)
    (hbefore : Unannounced changes ledger.current) :
    ((ledger.perform (.announce told)).perform .commit).AnnouncesCommitted announced := by
  refine ⟨hledger.1, fun effect hmem => ⟨rfl, ?_⟩⟩
  have hsole : effect ∈ ledger.current.effects ++ [told] := hmem
  rw [hbefore.1.1, List.nil_append] at hsole
  rw [List.mem_singleton.mp hsole]
  exact hbefore.2 hannounced

/-- Telling, committing and the rest, from a transaction that has made its changes. -/
theorem announcesCommitted_tell_iff {changes : List Change} {told : Effect}
    (hannounced : announced told ∈ changes) {next : Script Answer Change Effect Error Next}
    (hnext : Keeps announced (Committed changes) next) (replies : List (Reply Answer Error))
    {ledger : Ledger Change Effect} (hledger : ledger.AnnouncesCommitted announced)
    (hbefore : Unannounced changes ledger.current) :
    ((Script.tell told >>= fun _ => Script.act .commit >>= fun _ => next).play replies
        ledger).ledger.AnnouncesCommitted announced ↔ CommitFollows replies := by
  have htold : ∀ left, ((Script.act .commit >>= fun _ => next).play left
      (ledger.perform (.announce told))).ledger.AnnouncesCommitted announced ↔
        ∃ reply ∈ left.head?, reply.takesPlace = true := by
    intro left
    have hcommit := announcesCommitted_announce_commit hannounced hledger hbefore
    have hopen : ¬(ledger.perform (.announce told)).AnnouncesCommitted announced :=
      not_announcesCommitted_announce hbefore.1.2
    cases left with
    | nil => exact iff_of_false hopen (by simp)
    | cons reply left =>
        cases reply with
        | answered answer =>
            apply iff_of_true (hnext left _ hcommit ⟨rfl, hbefore.2⟩).1
            simp [Reply.takesPlace]
        | failed error => exact iff_of_false hopen (by simp [Reply.takesPlace])
        | lost error => exact iff_of_true hcommit (by simp [Reply.takesPlace])
  cases replies with
  | nil => exact iff_of_true hledger trivial
  | cons reply left =>
      cases reply with
      | answered answer => exact (htold left).trans (by simp [CommitFollows, Reply.takesPlace])
      | failed error =>
          apply iff_of_true (safe_commit_bind hnext left ledger hledger hbefore.2).1
          intro hplace
          cases hplace
      | lost error => exact (htold left).trans (by simp [CommitFollows, Reply.takesPlace])

/-- What comes before the effect leaves a transaction that has made its changes. -/
theorem ensures_unannounced (hprelude : Quiet announced prelude)
    (hbody : ∀ early, Makes announced [] made (body early)) :
    Ensures announced (fun _ => True)
      (prelude >>= fun early => Script.act .start >>= fun _ => body early)
      fun result attempt => ∀ value, result = .ok value → Unannounced (made value) attempt := by
  have hsafe : Ensures announced (fun _ => True) prelude fun _ _ => True := hprelude.safe
  apply ensures_bind hsafe
  · intro early
    apply ensures_bind ensures_start
    · intro _ replies ledger hledger hfresh
      have hmakes := hbody early (fun attempt => attempt.effects = [] ∧ attempt.committed = false)
        (fun _ _ hunannounced => hunannounced) replies ledger hledger
        ⟨by rw [hfresh () rfl]; exact ⟨rfl, rfl⟩, List.nil_subset _⟩
      exact ⟨hmakes.1, fun result left houtcome value hvalue =>
        ⟨(hmakes.2 result left houtcome).1, (hmakes.2 result left houtcome).2 value hvalue⟩⟩
    · exact fun _ _ _ => nofun
  · exact fun _ _ _ => nofun

/-- An operation that announces the changes of its transaction as the last thing before it
commits keeps its effects to committed changes exactly on those replies where the commit follows
the effect. -/
theorem announcesCommitted_inside_iff (hprelude : Quiet announced prelude)
    (hbody : ∀ early, Makes announced [] made (body early))
    (hannounced : ∀ result, announced (effect result) ∈ made result)
    (hlast : ∀ result, Keeps announced (Committed (made result)) (last result))
    (replies : List (Reply Answer Error)) :
    ((prelude >>= fun early =>
        Script.transaction (do
          let result ← body early
          Script.tell (effect result)
          return result) >>= last).play replies {}).ledger.AnnouncesCommitted announced ↔
      ∀ result left,
        ((prelude >>= fun early => Script.act .start >>= fun _ => body early).play replies
          {}).outcome = some (.ok result, left) → CommitFollows left := by
  have hshape : (prelude >>= fun early =>
      Script.transaction (do
        let result ← body early
        Script.tell (effect result)
        return result) >>= last) =
      (prelude >>= fun early => Script.act .start >>= fun _ => body early) >>= fun result =>
        Script.tell (effect result) >>= fun _ => Script.act .commit >>= fun _ => last result := by
    simp only [Script.transaction, bind_assoc, pure_bind]
  have hledger : ({} : Ledger Change Effect).AnnouncesCommitted announced :=
    ⟨nofun, fun _ hnone => by cases hnone⟩
  obtain ⟨hsound, hunannounced⟩ :=
    ensures_unannounced hprelude hbody replies {} hledger trivial
  rw [hshape, Script.play_bind, Played.andThen]
  split
  · rename_i hstopped
    exact iff_of_true hsound fun result left houtcome => by simp [hstopped] at houtcome
  · rename_i error left hthrown
    exact iff_of_true hsound fun result others houtcome => by simp [hthrown] at houtcome
  · rename_i value left hended
    rw [announcesCommitted_tell_iff (hannounced value) (hlast value) left hsound
      (hunannounced _ _ hended value rfl)]
    constructor
    · intro hfollows result others houtcome
      rw [hended] at houtcome
      obtain ⟨_, rfl⟩ := Prod.mk.inj (Option.some.inj houtcome)
      exact hfollows
    · exact fun hfollows => hfollows value left hended

end Inside

end Announcing

end StellarSettle.TransactionScript
