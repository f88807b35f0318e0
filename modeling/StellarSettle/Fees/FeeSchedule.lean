import StellarSettle.Core.TransitionSystem
import StellarSettle.Model.Entities

/-!
# Fee schedules

Calls of `updateFeeSchedule` next to each other, as READ COMMITTED transactions.  A call
reads the active schedule without a lock, deactivates it, inserts its successor and records
both in the history.  The updated row is locked until the transaction ends, and a second
active row waits for the first and then fails.  A transaction may fail at any time; that
covers a violated constraint, a deadlock and a rate that is not a whole number.
-/

namespace StellarSettle.FeeSchedule

open StellarSettle.Entities
open StellarSettle.TransitionSystem

/-! ## Rates -/

structure FeeRates where
  investmentFeeBps : ℤ
  settlementFeeBps : ℤ
  platformFeeBps : ℤ
  secondaryMarketFeeBps : ℤ
  deriving DecidableEq, Repr

structure UpdateFeeScheduleInput where
  investmentFeeBps : Option ℤ := none
  settlementFeeBps : Option ℤ := none
  platformFeeBps : Option ℤ := none
  secondaryMarketFeeBps : Option ℤ := none
  changeReason : Option String := none
  deriving DecidableEq, Repr

def minimumFee : ℤ := 0

def maximumFee : ℤ := 1000

def validateFeeRate (feeBps : ℤ) (feeName : String) : Except ServiceError Unit :=
  if feeBps < minimumFee ∨ maximumFee < feeBps then
    .error
      { code := .invalidFeeRate
        message :=
          s!"{feeName} must be between {minimumFee} and {maximumFee} basis points" }
  else .ok ()

def validateGiven (feeBps : Option ℤ) (feeName : String) : Except ServiceError Unit :=
  match feeBps with
  | none => .ok ()
  | some feeBps => validateFeeRate feeBps feeName

/-- What `updateFeeSchedule` checks before its transaction. -/
def validateInput (input : UpdateFeeScheduleInput) : Except ServiceError Unit := do
  validateGiven input.investmentFeeBps "investmentFeeBps"
  validateGiven input.settlementFeeBps "settlementFeeBps"
  validateGiven input.platformFeeBps "platformFeeBps"
  validateGiven input.secondaryMarketFeeBps "secondaryMarketFeeBps"
  if input.investmentFeeBps = none ∧ input.settlementFeeBps = none ∧
      input.platformFeeBps = none ∧ input.secondaryMarketFeeBps = none then
    .error { code := .noChanges, message := "At least one fee rate must be provided" }

/-- The given rates, and the current ones for the others. -/
def UpdateFeeScheduleInput.merge (input : UpdateFeeScheduleInput) (current : FeeRates) :
    FeeRates where
  investmentFeeBps := input.investmentFeeBps.getD current.investmentFeeBps
  settlementFeeBps := input.settlementFeeBps.getD current.settlementFeeBps
  platformFeeBps := input.platformFeeBps.getD current.platformFeeBps
  secondaryMarketFeeBps := input.secondaryMarketFeeBps.getD current.secondaryMarketFeeBps

/-! ## Tables -/

structure Schedule where
  id : ℕ
  rates : FeeRates
  isActive : Bool
  effectiveFrom : Timestamp
  effectiveUntil : Option Timestamp
  deriving DecidableEq, Repr

/-- `input` is what the update was called with, which the table keeps no column for. -/
structure FeeScheduleHistory where
  feeScheduleId : ℕ
  actorWallet : String
  actorRole : String
  oldRates : FeeRates
  newRates : FeeRates
  changeReason : Option String
  input : UpdateFeeScheduleInput
  deriving DecidableEq, Repr

structure Arguments where
  input : UpdateFeeScheduleInput
  actorWallet : String
  actorRole : String := "admin"
  deriving DecidableEq, Repr

/-- The schedule that an update inserts. -/
def createSchedule (input : UpdateFeeScheduleInput) (current : Schedule) (id : ℕ)
    (now : Timestamp) : Schedule where
  id := id
  rates := input.merge current.rates
  isActive := true
  effectiveFrom := now
  effectiveUntil := none

def createHistory (args : Arguments) (current saved : Schedule) : FeeScheduleHistory where
  feeScheduleId := saved.id
  actorWallet := args.actorWallet
  actorRole := args.actorRole
  oldRates := current.rates
  newRates := saved.rates
  changeReason := args.input.changeReason
  input := args.input

/-! ## Transactions -/

/-- What a transaction has written to the row that it read. -/
structure Deactivation where
  current : Schedule
  effectiveUntil : Timestamp
  deriving DecidableEq, Repr

/-- How far a call is.  `inserting` has its id and waits for the constraint. -/
inductive Call where
  | idle
  | started (args : Arguments)
  | read (args : Arguments) (current : Schedule)
  | deactivated (args : Arguments) (old : Deactivation)
  | inserting (args : Arguments) (old : Deactivation) (new : Schedule)
  | inserted (args : Arguments) (old : Deactivation) (new : Schedule)
  | recorded (old : Deactivation) (new : Schedule) (history : FeeScheduleHistory)
  | committed (saved : Schedule)
  | failed
  deriving DecidableEq, Repr

/-- The committed tables, the next id, and the transactions: who has locked a row, and who
has inserted an active one. -/
structure World where
  schedules : List Schedule
  history : List FeeScheduleHistory := []
  nextId : ℕ
  rowHolder : ℕ → Option ℕ := fun _ => none
  inserter : Option ℕ := none
  call : ℕ → Call := fun _ => .idle

/-- `current` is the row that the query returns: of several rows, one of those that came
into effect last. -/
inductive Action where
  | start (args : Arguments)
  | findActive (current : Schedule)
  | deactivate (now : Timestamp)
  | insert (now : Timestamp)
  | inserted
  | record
  | commit
  | fail
  deriving DecidableEq, Repr

structure Event where
  call : ℕ
  action : Action
  deriving DecidableEq, Repr

def World.move (world : World) (index : ℕ) (call : Call) : World :=
  { world with call := setProcess world.call index call }

/-- The end of a transaction gives its locks free. -/
def World.release (world : World) (index : ℕ) : World :=
  { world with
    rowHolder := fun row => if world.rowHolder row = some index then none else world.rowHolder row
    inserter := if world.inserter = some index then none else world.inserter }

/-- `findOne({ where: { isActive: true }, order: { effectiveFrom: "DESC" } })`. -/
def FindsActive (schedules : List Schedule) (current : Schedule) : Prop :=
  current ∈ schedules ∧ current.isActive = true ∧
    ∀ other ∈ schedules, other.isActive = true → other.effectiveFrom ≤ current.effectiveFrom

instance (schedules : List Schedule) (current : Schedule) :
    Decidable (FindsActive schedules current) := inferInstanceAs (Decidable (_ ∧ _ ∧ _))

/-- The rows after the update of the old one. -/
def deactivate (schedules : List Schedule) (old : Deactivation) : List Schedule :=
  schedules.map fun row =>
    if row.id = old.current.id then
      { row with isActive := false, effectiveUntil := some old.effectiveUntil }
    else row

/-- The constraint lets the insert through: no other transaction has inserted an active row,
and no committed row is active but the one that this transaction has deactivated. -/
def Unblocked (world : World) (old : Deactivation) : Prop :=
  world.inserter = none ∧
    ∀ row ∈ world.schedules, row.isActive = true → row.id = old.current.id

instance (world : World) (old : Deactivation) : Decidable (Unblocked world old) :=
  inferInstanceAs (Decidable (_ ∧ _))

def step (world : World) (event : Event) : Option World :=
  let index := event.call
  match event.action, world.call index with
  | .start args, .idle =>
      match validateInput args.input with
      | .ok _ => some (world.move index (.started args))
      | .error _ => some (world.move index .failed)
  | .findActive current, .started args =>
      if FindsActive world.schedules current then some (world.move index (.read args current))
      else none
  | .deactivate now, .read args current =>
      if Available (world.rowHolder current.id) index then
        some ({ world with
          rowHolder := Function.update world.rowHolder current.id (some index) }.move index
            (.deactivated args { current := current, effectiveUntil := now }))
      else none
  | .insert now, .deactivated args old =>
      some ({ world with nextId := world.nextId + 1 }.move index
        (.inserting args old (createSchedule args.input old.current world.nextId now)))
  | .inserted, .inserting args old new =>
      if Unblocked world old then
        some ({ world with inserter := some index }.move index (.inserted args old new))
      else none
  | .record, .inserted args old new =>
      some (world.move index (.recorded old new (createHistory args old.current new)))
  | .commit, .recorded old new history =>
      some (({ world with
        schedules := deactivate world.schedules old ++ [new]
        history := world.history ++ [history] }.release index).move index (.committed new))
  | .fail, .idle => none
  | .fail, .committed _ => none
  | .fail, _ => some ((world.release index).move index .failed)
  | _, _ => none

/-! ## Steps -/

@[simp]
theorem schedules_move (world : World) (index : ℕ) (call : Call) :
    (world.move index call).schedules = world.schedules := rfl

@[simp]
theorem history_move (world : World) (index : ℕ) (call : Call) :
    (world.move index call).history = world.history := rfl

/-- What a step of a call can do. -/
inductive Steps (world : World) (index : ℕ) : World → Prop
  | start {args : Arguments} (hcall : world.call index = .idle) :
      Steps world index (world.move index (.started args))
  | refuse (hcall : world.call index = .idle) : Steps world index (world.move index .failed)
  | findActive {args : Arguments} {current : Schedule} (hcall : world.call index = .started args)
      (hfinds : FindsActive world.schedules current) :
      Steps world index (world.move index (.read args current))
  | deactivate {args : Arguments} {current : Schedule} {now : Timestamp}
      (hcall : world.call index = .read args current)
      (havailable : Available (world.rowHolder current.id) index) :
      Steps world index ({ world with
        rowHolder := Function.update world.rowHolder current.id (some index) }.move index
          (.deactivated args { current := current, effectiveUntil := now }))
  | insert {args : Arguments} {old : Deactivation} {now : Timestamp}
      (hcall : world.call index = .deactivated args old) :
      Steps world index ({ world with nextId := world.nextId + 1 }.move index
        (.inserting args old (createSchedule args.input old.current world.nextId now)))
  | inserted {args : Arguments} {old : Deactivation} {new : Schedule}
      (hcall : world.call index = .inserting args old new) (hunblocked : Unblocked world old) :
      Steps world index ({ world with inserter := some index }.move index (.inserted args old new))
  | record {args : Arguments} {old : Deactivation} {new : Schedule}
      (hcall : world.call index = .inserted args old new) :
      Steps world index (world.move index
        (.recorded old new (createHistory args old.current new)))
  | commit {old : Deactivation} {new : Schedule} {history : FeeScheduleHistory}
      (hcall : world.call index = .recorded old new history) :
      Steps world index (({ world with
        schedules := FeeSchedule.deactivate world.schedules old ++ [new]
        history := world.history ++ [history] }.release index).move index (.committed new))
  | fail (hopen : ∀ saved, world.call index ≠ .committed saved) :
      Steps world index ((world.release index).move index .failed)

theorem steps_of_step {world after : World} {event : Event}
    (hstep : step world event = some after) : Steps world event.call after := by
  obtain ⟨index, action⟩ := event
  cases action <;> cases hcall : world.call index <;> simp only [step, hcall, reduceCtorEq] at hstep
  case start.idle args =>
      split at hstep <;> obtain rfl := Option.some.inj hstep
      · exact .start hcall
      · exact .refuse hcall
  case findActive.started =>
      obtain ⟨hfinds, hafter⟩ := Option.ite_none_right_eq_some.mp hstep
      obtain rfl := Option.some.inj hafter
      exact .findActive hcall hfinds
  case deactivate.read =>
      obtain ⟨havailable, hafter⟩ := Option.ite_none_right_eq_some.mp hstep
      obtain rfl := Option.some.inj hafter
      exact .deactivate hcall havailable
  case insert.deactivated =>
      obtain rfl := Option.some.inj hstep
      exact .insert hcall
  case inserted.inserting =>
      obtain ⟨hunblocked, hafter⟩ := Option.ite_none_right_eq_some.mp hstep
      obtain rfl := Option.some.inj hafter
      exact .inserted hcall hunblocked
  case record.inserted =>
      obtain rfl := Option.some.inj hstep
      exact .record hcall
  case commit.recorded =>
      obtain rfl := Option.some.inj hstep
      exact .commit hcall
  all_goals
    obtain rfl := Option.some.inj hstep
    exact .fail fun saved hsaved => by
      rw [hcall] at hsaved
      cases hsaved

end StellarSettle.FeeSchedule
