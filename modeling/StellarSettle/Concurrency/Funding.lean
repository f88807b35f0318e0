import StellarSettle.Core.TransitionSystem
import StellarSettle.Investments.InvestmentService

/-!
# Concurrent funding of one invoice

Transactions read committed rows and their own writes, and appear when they
commit.  `createInvestment` locks the invoice row when it reads it;
`investInInvoice` reads it without a lock and waits for it in its conditional
update, which looks at the committed row again.  A statement may fail at any
point: the attempt is rolled back, and after a conflict it is made again.
-/

namespace StellarSettle.Funding

open StellarSettle.Checks
open StellarSettle.DecimalJs
open StellarSettle.Entities
open StellarSettle.InvestmentService
open StellarSettle.InvoiceLifecycle
open StellarSettle.TransitionSystem

/-! ## Processes -/

inductive InvestStage where
  | read
  | duplicate (invoice : Invoice)
  | update (invoice : Invoice)
  | insert (invoice row : Invoice)
  | fund (invoice row : Invoice) (investment : Investment)
  | commit (writes : FundingWrites)

inductive CreateStage where
  | lock
  | capacity (invoice : Invoice)
  | insert (invoice : Invoice) (totalInvested : Decimal)
  | save (invoice : Invoice) (totalInvested : Decimal) (investment : Investment)
  | commit (writes : FundingWrites)

inductive Process where
  | idle
  | finished (thrown : Option Thrown)
  | investInInvoice (input : InvestInInvoiceInput) (fundingBlock attempt : ℕ)
      (stage : InvestStage)
  | createInvestment (input : CreateInvestmentInput) (attempt : ℕ) (stage : CreateStage)

inductive Request where
  | investInInvoice (input : InvestInInvoiceInput)
  | createInvestment (input : CreateInvestmentInput)

/-- The checks before the first attempt. -/
def Request.process (now : Timestamp) : Request → Process
  | .investInInvoice input =>
      match checkInvestAmount input.amount with
      | .error thrown => .finished (some thrown)
      | .ok () => .investInInvoice input (input.fundingBlock now) 1 .read
  | .createInvestment input =>
      match checkCreateAmount input.investmentAmount with
      | .error thrown => .finished (some thrown)
      | .ok () => .createInvestment input 1 .lock

/-- Why a statement fails: a lost race, which is tried again, or anything else. -/
inductive Failure where
  | conflict
  | raised (thrown : Thrown)

/-- What becomes of a call whose statement failed. -/
def Process.failed (failure : Failure) : Process → Process
  | .investInInvoice input fundingBlock attempt _ =>
      match failure with
      | .raised thrown => .finished (some thrown)
      | .conflict =>
          if MAX_ATTEMPTS ≤ attempt then .finished (some (.service concurrentInvestmentConflict))
          else .investInInvoice input fundingBlock (attempt + 1) .read
  | .createInvestment input attempt _ =>
      match failure with
      | .raised thrown => .finished (some thrown)
      | .conflict =>
          if MAX_RETRIES ≤ attempt then .finished (some (.service concurrentInvestmentConflict))
          else .createInvestment input (attempt + 1) .lock
  | process => process

/-! ## Steps of one process -/

structure Environment where
  newId : Uuid := 0
  now : Timestamp := 0

/-- The database that other transactions see, the process, and whether it holds
the invoice row. -/
structure Outcome where
  db : Database
  process : Process
  holdsInvoice : Bool := false

/-- Go on with the value, or roll back and end the call with the error. -/
def Outcome.attempt {α : Type} (db : Database) (result : Except Thrown α)
    (next : α → Outcome) : Outcome :=
  match result with
  | .error thrown => { db := db, process := .finished (some thrown) }
  | .ok value => next value

theorem Outcome.attempt_rule {α : Type} {P : Outcome → Prop} {db : Database}
    {result : Except Thrown α} {next : α → Outcome}
    (hfail : ∀ thrown, P { db := db, process := .finished (some thrown) })
    (hnext : ∀ value, result = .ok value → P (next value)) : P (.attempt db result next) := by
  cases result with
  | error thrown => exact hfail thrown
  | ok value => exact hnext value rfl

def advanceInvest (input : InvestInInvoiceInput) (fundingBlock attempt : ℕ)
    (environment : Environment) (db : Database) : InvestStage → Outcome
  | .read =>
      .attempt db (readInvoiceToInvest db input environment.now) fun invoice =>
        { db := db
          process := .investInInvoice input fundingBlock attempt (.duplicate invoice) }
  | .duplicate invoice =>
      .attempt db (checkDuplicate db input.walletAddress fundingBlock) fun _ =>
        { db := db, process := .investInInvoice input fundingBlock attempt (.update invoice) }
  | .update invoice =>
      .attempt db (advanceFundedAmount db.invoice invoice.version input.amount) fun updated =>
        match updated with
        | none =>
            { db := db
              process := Process.failed .conflict
                (.investInInvoice input fundingBlock attempt (.update invoice)) }
        | some row =>
            { db := db
              process := .investInInvoice input fundingBlock attempt (.insert invoice row)
              holdsInvoice := true }
  | .insert invoice row =>
      let investment := investedShare input fundingBlock invoice environment.newId
      .attempt db (insertInvestment db.investments investment) fun _ =>
        { db := db
          process := .investInInvoice input fundingBlock attempt (.fund invoice row investment)
          holdsInvoice := true }
  | .fund invoice row investment =>
      .attempt db (fundInvestedInvoice db.intentInFlight input invoice row investment)
        fun writes =>
          { db := db
            process := .investInInvoice input fundingBlock attempt (.commit writes)
            holdsInvoice := true }
  | .commit writes => { db := commitFunding db writes, process := .finished none }

def advanceCreate (input : CreateInvestmentInput) (attempt : ℕ) (environment : Environment)
    (db : Database) : CreateStage → Outcome
  | .lock =>
      .attempt db (lockInvoiceToInvest db input environment.now) fun invoice =>
        { db := db
          process := .createInvestment input attempt (.capacity invoice)
          holdsInvoice := true }
  | .capacity invoice =>
      .attempt db (checkCapacity db invoice input.investmentAmount) fun totalInvested =>
        { db := db
          process := .createInvestment input attempt (.insert invoice totalInvested)
          holdsInvoice := true }
  | .insert invoice totalInvested =>
      let investment := createdInvestment input invoice environment.newId
      .attempt db (insertInvestment db.investments investment) fun _ =>
        { db := db
          process := .createInvestment input attempt (.save invoice totalInvested investment)
          holdsInvoice := true }
  | .save invoice totalInvested investment =>
      .attempt db (saveCreatedFunding db.intentInFlight input invoice invoice totalInvested
        investment) fun writes =>
          { db := db
            process := .createInvestment input attempt (.commit writes)
            holdsInvoice := true }
  | .commit writes => { db := commitFunding db writes, process := .finished none }

/-- The next step of a process, if it has one. -/
def advance (environment : Environment) (db : Database) : Process → Option Outcome
  | .idle => none
  | .finished _ => none
  | .investInInvoice input fundingBlock attempt stage =>
      some (advanceInvest input fundingBlock attempt environment db stage)
  | .createInvestment input attempt stage =>
      some (advanceCreate input attempt environment db stage)

/-- The next step waits for the invoice row. -/
def needsInvoice : Process → Bool
  | .investInInvoice _ _ _ .read => false
  | .investInInvoice _ _ _ (.duplicate _) => false
  | .investInInvoice _ _ _ _ => true
  | .createInvestment _ _ _ => true
  | _ => false

/-! ## The system -/

structure World where
  db : Database
  holder : Option ℕ := none
  process : ℕ → Process := fun _ => .idle

inductive Action where
  | start (request : Request) (now : Timestamp)
  | advance (environment : Environment)
  | fail (failure : Failure)

structure Event where
  process : ℕ
  action : Action

def World.apply (world : World) (index : ℕ) (outcome : Outcome) : World :=
  { db := outcome.db
    holder := nextHolder world.holder index outcome.holdsInvoice
    process := setProcess world.process index outcome.process }

def step (world : World) (event : Event) : Option World :=
  match event.action with
  | .start request now =>
      match world.process event.process with
      | .idle =>
          some (world.apply event.process { db := world.db, process := request.process now })
      | _ => none
  | .advance environment =>
      if needsInvoice (world.process event.process) = true ∧
          ¬Available world.holder event.process then
        none
      else
        (advance environment world.db (world.process event.process)).map
          (world.apply event.process)
  | .fail failure =>
      some (world.apply event.process
        { db := world.db, process := (world.process event.process).failed failure })

theorem step_cases {world after : World} {event : Event} (hstep : step world event = some after) :
    (∃ request now, after = world.apply event.process
        { db := world.db, process := Request.process now request }) ∨
    (∃ environment outcome, event.action = .advance environment ∧
      (needsInvoice (world.process event.process) = true →
        Available world.holder event.process) ∧
      advance environment world.db (world.process event.process) = some outcome ∧
      after = world.apply event.process outcome) ∨
    (∃ failure, after = world.apply event.process
        { db := world.db, process := (world.process event.process).failed failure }) := by
  rw [step] at hstep
  split at hstep
  · rename_i request now haction
    split at hstep
    · exact .inl ⟨request, now, (Option.some.inj hstep).symm⟩
    · cases hstep
  · rename_i environment haction
    split at hstep
    · cases hstep
    · rename_i hfree
      obtain ⟨outcome, houtcome, hafter⟩ := Option.map_eq_some_iff.mp hstep
      refine .inr (.inl ⟨environment, outcome, haction, fun hneeds => ?_, houtcome, hafter.symm⟩)
      by_contra hheld
      exact hfree ⟨hneeds, hheld⟩
  · rename_i failure haction
    exact .inr (.inr ⟨failure, (Option.some.inj hstep).symm⟩)

/-! ## What a process knows -/

/-- The invoice was the stored row when it was read. -/
def Seen (db : Database) (invoice : Invoice) : Prop :=
  ∃ row, db.invoice = some row ∧ (invoice = row ∨ invoice.version < row.version)

/-- The stored row is the one that was read, and the pending one advances it. -/
def Advanced (db : Database) (amount : Decimal) (invoice row : Invoice) : Prop :=
  db.invoice = some invoice ∧ row = advancedRow invoice amount ∧ Storable row

/-- The capacity check was made on the stored rows. -/
def Fits (exact : Prop) (db : Database) (amount : Decimal) (invoice : Invoice)
    (totalInvested : Decimal) : Prop :=
  db.invoice = some invoice ∧ totalInvested = ofUnits (activeTotal db.investments) ∧
    ofUnits (activeTotal db.investments) + amount ≤ ofUnits invoice.netAmount ∧
    (exact → ¬CounterCarried db.investments invoice amount)

/-- The pending investment. -/
def Share (amount : Decimal) (investment : Investment) : Prop :=
  investment.status = .pending ∧ investment.investmentAmount = toFixed4 amount

/-- The pending rows keep the counter above the sum. -/
def Committable (exact : Prop) (db : Database) (writes : FundingWrites) : Prop :=
  Covers exact (db.investments ++ [writes.investment]) writes.invoice ∧
    ∃ row, db.invoice = some row ∧
      (writes.invoice = row ∨ row.version < writes.invoice.version)

def Knows (db : Database) : Process → Prop
  | .investInInvoice input _ _ stage =>
      (0 < input.amount ∧ decimalPlacesAtMost 4 input.amount = true) ∧
        match stage with
        | .duplicate invoice => Seen db invoice
        | .update invoice => Seen db invoice
        | _ => True
  | .createInvestment input _ _ => 0 < input.investmentAmount
  | _ => True

/-- The transaction holds the invoice row. -/
def locked : Process → Bool
  | .investInInvoice _ _ _ (.insert _ _) => true
  | .investInInvoice _ _ _ (.fund _ _ _) => true
  | .investInInvoice _ _ _ (.commit _) => true
  | .createInvestment _ _ (.capacity _) => true
  | .createInvestment _ _ (.insert _ _) => true
  | .createInvestment _ _ (.save _ _ _) => true
  | .createInvestment _ _ (.commit _) => true
  | _ => false

def KnowsLocked (exact : Prop) (db : Database) : Process → Prop
  | .investInInvoice input _ _ (.insert invoice row) => Advanced db input.amount invoice row
  | .investInInvoice input _ _ (.fund invoice row investment) =>
      Advanced db input.amount invoice row ∧ Share input.amount investment
  | .investInInvoice _ _ _ (.commit writes) => Committable exact db writes
  | .createInvestment _ _ (.capacity invoice) => db.invoice = some invoice
  | .createInvestment input _ (.insert invoice totalInvested) =>
      Fits exact db input.investmentAmount invoice totalInvested
  | .createInvestment input _ (.save invoice totalInvested investment) =>
      Fits exact db input.investmentAmount invoice totalInvested ∧
        Share input.investmentAmount investment
  | .createInvestment _ _ (.commit writes) => Committable exact db writes
  | _ => True

/-- Everything a step of one process brings about. -/
structure Moves (exact : Prop) (db : Database) (process : Process) (outcome : Outcome) :
    Prop where
  commits : outcome.db = db ∨ needsInvoice process = true ∧
    ∃ writes, Committable exact db writes ∧ outcome.db = commitFunding db writes
  knows : Knows outcome.db outcome.process
  knowsLocked : KnowsLocked exact outcome.db outcome.process
  holds : locked outcome.process = true → outcome.holdsInvoice = true
  needs : outcome.holdsInvoice = true → needsInvoice process = true

section Steps

variable {exact : Prop} {db : Database} {process : Process}

theorem knowsLocked_of_free (hfree : locked process = false) :
    KnowsLocked exact db process := by
  simp only [KnowsLocked]
  split <;> trivial

/-- A step that commits nothing and goes on without the invoice row. -/
theorem Moves.unlocked {next : Process} (hknows : Knows db next) (hfree : locked next = false) :
    Moves exact db process { db := db, process := next } where
  commits := .inl rfl
  knows := hknows
  knowsLocked := knowsLocked_of_free hfree
  holds := fun hlocked => by
    rw [hfree] at hlocked
    cases hlocked
  needs := fun hholds => by cases hholds

theorem Moves.rolledBack (thrown : Thrown) :
    Moves exact db process { db := db, process := .finished (some thrown) } :=
  .unlocked trivial rfl

/-- A step that goes on with the invoice row. -/
theorem Moves.holding {next : Process} (hneeds : needsInvoice process = true)
    (hknows : Knows db next) (hknowsLocked : KnowsLocked exact db next) :
    Moves exact db process { db := db, process := next, holdsInvoice := true } where
  commits := .inl rfl
  knows := hknows
  knowsLocked := hknowsLocked
  holds := fun _ => rfl
  needs := fun _ => hneeds

theorem Moves.commit {writes : FundingWrites} (hneeds : needsInvoice process = true)
    (hcommittable : Committable exact db writes) :
    Moves exact db process { db := commitFunding db writes, process := .finished none } where
  commits := .inr ⟨hneeds, writes, hcommittable, rfl⟩
  knows := trivial
  knowsLocked := trivial
  holds := fun hlocked => by cases hlocked
  needs := fun hholds => by cases hholds

/-- A call that fails is over, or starts again from its first statement. -/
theorem failed_knows (failure : Failure) (hknows : Knows db process) :
    Knows db (process.failed failure) ∧ locked (process.failed failure) = false := by
  cases process with
  | idle => exact ⟨trivial, rfl⟩
  | finished thrown => exact ⟨trivial, rfl⟩
  | investInInvoice input fundingBlock attempt stage =>
      cases failure with
      | raised thrown => exact ⟨trivial, rfl⟩
      | conflict =>
          simp only [Process.failed]
          split
          · exact ⟨trivial, rfl⟩
          · exact ⟨⟨hknows.1, trivial⟩, rfl⟩
  | createInvestment input attempt stage =>
      cases failure with
      | raised thrown => exact ⟨trivial, rfl⟩
      | conflict =>
          simp only [Process.failed]
          split
          · exact ⟨trivial, rfl⟩
          · exact ⟨hknows, rfl⟩

theorem moves_invest {input : InvestInInvoiceInput} {fundingBlock attempt : ℕ}
    {environment : Environment} {stage : InvestStage}
    (hcovers : Covered exact db)
    (hknows : Knows db (.investInInvoice input fundingBlock attempt stage))
    (hlocked : KnowsLocked exact db (.investInInvoice input fundingBlock attempt stage)) :
    Moves exact db (.investInInvoice input fundingBlock attempt stage)
      (advanceInvest input fundingBlock attempt environment db stage) := by
  obtain ⟨hamount, hstage⟩ := hknows
  cases stage with
  | read =>
      refine Outcome.attempt_rule Moves.rolledBack fun invoice hread => ?_
      exact .unlocked ⟨hamount, invoice, invoice_of_readInvoiceToInvest hread, .inl rfl⟩ rfl
  | duplicate invoice =>
      exact Outcome.attempt_rule Moves.rolledBack fun _ _ => .unlocked ⟨hamount, hstage⟩ rfl
  | update invoice =>
      refine Outcome.attempt_rule Moves.rolledBack fun updated hupdated => ?_
      cases updated with
      | none =>
          have hseen : Knows db (.investInInvoice input fundingBlock attempt (.update invoice)) :=
            ⟨hamount, hstage⟩
          obtain ⟨hretry, hfree⟩ := failed_knows .conflict hseen
          exact .unlocked hretry hfree
      | some row =>
          obtain ⟨found, hfound, hversion, rfl, hstorable⟩ := advanceFundedAmount_eq_ok hupdated
          obtain ⟨seen, hseen, hsame | hlater⟩ := hstage
          · obtain rfl : found = seen := Option.some.inj (hfound.symm.trans hseen)
            subst hsame
            exact .holding rfl ⟨hamount, trivial⟩ ⟨hfound, rfl, hstorable⟩
          · obtain rfl : found = seen := Option.some.inj (hfound.symm.trans hseen)
            omega
  | insert invoice row =>
      refine Outcome.attempt_rule Moves.rolledBack fun _ _ => ?_
      exact .holding rfl ⟨hamount, trivial⟩ ⟨hlocked, rfl, rfl⟩
  | fund invoice row investment =>
      obtain ⟨⟨hinvoice, rfl, hstorable⟩, hpending, hshare⟩ := hlocked
      obtain ⟨found, hfound, hcovers⟩ := hcovers
      obtain rfl : found = invoice := Option.some.inj (hfound.symm.trans hinvoice)
      refine Outcome.attempt_rule Moves.rolledBack fun writes hwrites => ?_
      obtain ⟨hcovered, rfl, hlater⟩ := covers_of_fundInvestedInvoice hcovers hamount.1 hamount.2
        hstorable hpending hshare hwrites
      exact .holding rfl ⟨hamount, trivial⟩ ⟨hcovered, found, hfound, .inr hlater⟩
  | commit writes => exact .commit rfl hlocked

theorem moves_create {input : CreateInvestmentInput} {attempt : ℕ} {environment : Environment}
    {stage : CreateStage}
    (hcovers : Covered exact db)
    (hknows : Knows db (.createInvestment input attempt stage))
    (hlocked : KnowsLocked exact db (.createInvestment input attempt stage))
    (hcarried : exact → ∀ invoice, stage = .capacity invoice →
      ¬CounterCarried db.investments invoice input.investmentAmount) :
    Moves exact db (.createInvestment input attempt stage)
      (advanceCreate input attempt environment db stage) := by
  cases stage with
  | lock =>
      refine Outcome.attempt_rule Moves.rolledBack fun invoice hread => ?_
      exact .holding rfl hknows (invoice_of_lockInvoiceToInvest hread)
  | capacity invoice =>
      obtain ⟨found, hfound, hcovers⟩ := hcovers
      obtain rfl : found = invoice := Option.some.inj (hfound.symm.trans hlocked)
      refine Outcome.attempt_rule Moves.rolledBack fun totalInvested hcapacity => ?_
      obtain ⟨htotal, hfits⟩ := checkCapacity_eq_ok hcovers hcapacity
      exact .holding rfl hknows ⟨hfound, htotal, hfits, fun hholds => hcarried hholds found rfl⟩
  | insert invoice totalInvested =>
      exact Outcome.attempt_rule Moves.rolledBack fun _ _ =>
        .holding rfl hknows ⟨hlocked, rfl, rfl⟩
  | save invoice totalInvested investment =>
      obtain ⟨⟨hinvoice, rfl, hfits, hexact⟩, hpending, hshare⟩ := hlocked
      obtain ⟨found, hfound, hcovers⟩ := hcovers
      obtain rfl : found = invoice := Option.some.inj (hfound.symm.trans hinvoice)
      refine Outcome.attempt_rule Moves.rolledBack fun writes hwrites => ?_
      obtain ⟨hcovered, rfl, hlater⟩ := covers_of_saveCreatedFunding hcovers hknows hfits hexact
        hpending hshare hwrites
      exact .holding rfl hknows ⟨hcovered, found, hfound, hlater⟩
  | commit writes => exact .commit rfl hlocked

end Steps

/-! ## The invariant -/

structure Invariant (exact : Prop) (world : World) : Prop where
  covered : Covered exact world.db
  knows : ∀ index, Knows world.db (world.process index)
  holds : ∀ index, locked (world.process index) = true → world.holder = some index
  knowsLocked : ∀ index, KnowsLocked exact world.db (world.process index)

/-- No call is under way on a storable invoice whose counter is the sum of its
active investments. -/
structure Initial (world : World) : Prop where
  covered : Covered True world.db
  noHolder : world.holder = none
  allIdle : ∀ index, world.process index = .idle

theorem invariant_initial {world : World} (exact : Prop) (hinitial : Initial world) :
    Invariant exact world where
  covered := by
    obtain ⟨invoice, hinvoice, hcovers⟩ := hinitial.covered
    exact ⟨invoice, hinvoice, hcovers.storable, hcovers.nonneg, hcovers.covered,
      fun _ => hcovers.exactly trivial⟩
  knows := fun index => by rw [hinitial.allIdle]; trivial
  holds := fun index hlocked => by
    rw [hinitial.allIdle] at hlocked
    cases hlocked
  knowsLocked := fun index => by rw [hinitial.allIdle]; trivial

/-- A commit leaves a later row, or the same one. -/
theorem Seen.commit {exact : Prop} {db : Database} {writes : FundingWrites} {invoice : Invoice}
    (hseen : Seen db invoice) (hcommittable : Committable exact db writes) :
    Seen (commitFunding db writes) invoice := by
  obtain ⟨row, hrow, hversion⟩ := hseen
  obtain ⟨_, found, hfound, hwrites⟩ := hcommittable
  obtain rfl : row = found := Option.some.inj (hrow.symm.trans hfound)
  refine ⟨writes.invoice, rfl, ?_⟩
  rcases hwrites with hsame | hlater
  · rwa [hsame]
  · rcases hversion with rfl | hbefore
    · exact .inr hlater
    · exact .inr (hbefore.trans hlater)

theorem Knows.commit {exact : Prop} {db : Database} {writes : FundingWrites} {process : Process}
    (hknows : Knows db process) (hcommittable : Committable exact db writes) :
    Knows (commitFunding db writes) process := by
  cases process with
  | investInInvoice input fundingBlock attempt stage =>
      refine ⟨hknows.1, ?_⟩
      cases stage with
      | duplicate invoice => exact Seen.commit hknows.2 hcommittable
      | update invoice => exact Seen.commit hknows.2 hcommittable
      | _ => trivial
  | _ => exact hknows

theorem Invariant.apply {exact : Prop} {world : World} {index : ℕ} {outcome : Outcome}
    (hinvariant : Invariant exact world) (process : Process)
    (havailable : needsInvoice process = true → Available world.holder index)
    (hmoves : Moves exact world.db process outcome) :
    Invariant exact (world.apply index outcome) := by
  -- While another transaction holds the row, the step neither takes it nor commits.
  have hfree : ∀ other, other ≠ index → locked (world.process other) = true →
      outcome.db = world.db ∧ outcome.holdsInvoice = false := by
    intro other hother hlocked
    have hneedless : ¬needsInvoice process = true := fun hneeds =>
      not_available_of_held (hinvariant.holds other hlocked) hother (havailable hneeds)
    refine ⟨hmoves.commits.resolve_right fun hcommit => hneedless hcommit.1, ?_⟩
    by_contra hholds
    exact hneedless (hmoves.needs (by simpa using hholds))
  refine ⟨?_, ?_, ?_, ?_⟩
  · change Covered exact outcome.db
    rcases hmoves.commits with hsame | ⟨_, writes, hcommittable, hcommit⟩
    · rw [hsame]
      exact hinvariant.covered
    · rw [hcommit]
      exact ⟨writes.invoice, rfl, hcommittable.1⟩
  · refine forall_setProcess (P := fun _ process => Knows outcome.db process) hmoves.knows
      fun other _ => ?_
    rcases hmoves.commits with hsame | ⟨_, writes, hcommittable, hcommit⟩
    · rw [hsame]
      exact hinvariant.knows other
    · rw [hcommit]
      exact (hinvariant.knows other).commit hcommittable
  · refine forall_setProcess (P := fun other process => locked process = true →
        (world.apply index outcome).holder = some other) (fun hlocked => ?_)
      fun other hother hlocked => ?_
    · change nextHolder world.holder index outcome.holdsInvoice = some index
      rw [hmoves.holds hlocked, nextHolder_self]
    · exact nextHolder_of_held (hinvariant.holds other hlocked) hother
        (hfree other hother hlocked).2
  · refine forall_setProcess (P := fun _ process => KnowsLocked exact outcome.db process)
      hmoves.knowsLocked fun other hother => ?_
    by_cases hlocked : locked (world.process other) = true
    · rw [(hfree other hother hlocked).1]
      exact hinvariant.knowsLocked other
    · exact knowsLocked_of_free (by simpa using hlocked)

/-! ## The condition -/

/-- The capacity check that the process is about to make. -/
def checkingCapacity : Process → Option (Invoice × Decimal)
  | .createInvestment input _ (.capacity invoice) => some (invoice, input.investmentAmount)
  | _ => none

/-- No amount that passes the capacity check is carried to the next unit. -/
def RoundsOnce (world : World) (event : Event) : Prop :=
  ∀ check ∈ checkingCapacity (world.process event.process),
    ¬CounterCarried world.db.investments check.1 check.2

instance (world : World) (event : Event) : Decidable (RoundsOnce world event) :=
  inferInstanceAs (Decidable (∀ check ∈ checkingCapacity _, _))

theorem Invariant.step {exact : Prop} {world after : World} {event : Event}
    (hinvariant : Invariant exact world) (hguard : exact → RoundsOnce world event)
    (hstep : Funding.step world event = some after) : Invariant exact after := by
  rcases step_cases hstep with ⟨request, now, rfl⟩ |
    ⟨environment, outcome, _, havailable, hadvance, rfl⟩ | ⟨failure, rfl⟩
  · have hstarted : Knows world.db (Request.process now request) ∧
        locked (Request.process now request) = false := by
      cases request with
      | investInInvoice input =>
          simp only [Request.process]
          split
          · exact ⟨trivial, rfl⟩
          · rename_i hamount
            have hchecked := checkInvestAmount_eq_ok.mp hamount
            exact ⟨⟨hchecked, trivial⟩, rfl⟩
      | createInvestment input =>
          simp only [Request.process]
          split
          · exact ⟨trivial, rfl⟩
          · rename_i hamount
            have hchecked := checkCreateAmount_eq_ok.mp hamount
            exact ⟨hchecked, rfl⟩
    have hmoves : Moves exact world.db .idle
        { db := world.db, process := Request.process now request } :=
      .unlocked hstarted.1 hstarted.2
    exact hinvariant.apply .idle (fun hneeds => by cases hneeds) hmoves
  · refine hinvariant.apply _ havailable ?_
    have hknows := hinvariant.knows event.process
    have hlocked := hinvariant.knowsLocked event.process
    have hcarried : exact → ∀ check ∈ checkingCapacity (world.process event.process),
        ¬CounterCarried world.db.investments check.1 check.2 := hguard
    revert hknows hlocked hadvance hcarried
    cases world.process event.process with
    | idle => intro hnever; cases hnever
    | finished thrown => intro hnever; cases hnever
    | investInInvoice input fundingBlock attempt stage =>
        intro hadvance hknows hlocked _
        obtain rfl := Option.some.inj hadvance
        exact moves_invest hinvariant.covered hknows hlocked
    | createInvestment input attempt stage =>
        intro hadvance hknows hlocked hcarried
        obtain rfl := Option.some.inj hadvance
        refine moves_create hinvariant.covered hknows hlocked fun hholds invoice hstage => ?_
        subst hstage
        exact hcarried hholds (invoice, input.investmentAmount) rfl
  · obtain ⟨hfailed, hunlocked⟩ := failed_knows failure (hinvariant.knows event.process)
    exact hinvariant.apply .idle (fun hneeds => by cases hneeds)
      (.unlocked hfailed hunlocked)

theorem invariant_of_run (exact : Prop) {first last : World} {events : List Event}
    (hinitial : Initial first)
    (hrun : GuardedRun Funding.step (fun world event => exact → RoundsOnce world event)
      first events last) : Invariant exact last :=
  hrun.invariant (fun hguard hstep hinvariant => hinvariant.step hguard hstep)
    (invariant_initial exact hinitial)

/-- In every run the counter and the sum stay within the net amount, and in every
run in which each capacity check rounds once the counter is the sum. -/
theorem funded_within_net {first last : World} {events : List Event} (hinitial : Initial first)
    (hrun : Run Funding.step first events last) :
    ∃ invoice, last.db.invoice = some invoice ∧ invoice.fundedAmount ≤ invoice.netAmount ∧
      activeTotal last.db.investments ≤ invoice.netAmount ∧
      (GuardedRun Funding.step RoundsOnce first events last →
        invoice.fundedAmount = activeTotal last.db.investments) := by
  obtain ⟨invoice, hinvoice, hcovers⟩ :=
    (invariant_of_run False hinitial (hrun.mono fun _ _ _ => False.elim)).covered
  have hfunded := hcovers.storable.2.1
  refine ⟨invoice, hinvoice, hfunded, hcovers.covered.trans hfunded, fun hguarded => ?_⟩
  obtain ⟨found, hfound, hexact⟩ :=
    (invariant_of_run True hinitial (hguarded.mono fun _ _ hrounds _ => hrounds)).covered
  obtain rfl : found = invoice := Option.some.inj (hfound.symm.trans hinvoice)
  exact (hexact.exactly trivial).symm

/-! ## A counter carried to the next unit, and a lost race -/

def created (index : ℕ) (input : CreateInvestmentInput) : List Event :=
  [⟨index, .start (.createInvestment input) 0⟩, ⟨index, .advance {}⟩, ⟨index, .advance {}⟩,
    ⟨index, .advance { newId := index }⟩, ⟨index, .advance {}⟩, ⟨index, .advance {}⟩]

theorem dustInvestment_counted_twice :
    (exec Funding.step { db := openDatabase }
      (created 0 wholeInvestment ++ created 1 dustInvestment)).map (fun last =>
        (last.db.invoice.map Invoice.fundedAmount, activeTotal last.db.investments)) =
      some (some 10001, 10000) := by
  decide +kernel

def quarterInvestment : InvestInInvoiceInput :=
  { investorId := 4, walletAddress := "GINVESTOR", amount := 5 / 2 }

/-- The row is read before another investment commits, so the update matches
nothing and the attempt is made again. -/
def lostRace : List Event :=
  [⟨0, .start (.investInInvoice quarterInvestment) 0⟩, ⟨0, .advance {}⟩] ++
    created 1 wholeInvestment ++ [⟨0, .advance {}⟩, ⟨0, .advance {}⟩, ⟨0, .advance {}⟩,
      ⟨0, .advance {}⟩, ⟨0, .advance {}⟩, ⟨0, .advance { newId := 9 }⟩, ⟨0, .advance {}⟩,
      ⟨0, .advance {}⟩]

theorem initial_openDatabase : Initial { db := openDatabase } where
  covered := covered_openDatabase
  noHolder := rfl
  allIdle := fun _ => rfl

theorem lostRace_funded_within_net :
    ∃ last, GuardedRun Funding.step RoundsOnce { db := openDatabase } lostRace last ∧
      ∃ invoice, last.db.invoice = some invoice ∧ invoice.fundedAmount ≤ invoice.netAmount ∧
        invoice.fundedAmount = activeTotal last.db.investments := by
  obtain ⟨last, hexec⟩ : ∃ last, execGuarded Funding.step RoundsOnce
      { db := openDatabase } lostRace = some last :=
    Option.isSome_iff_exists.mp (by decide +kernel)
  have hrun := guardedRun_of_exec hexec
  obtain ⟨invoice, hinvoice, hwithin, _, hexact⟩ :=
    funded_within_net initial_openDatabase hrun.toRun
  exact ⟨last, hrun, invoice, hinvoice, hwithin, hexact hrun⟩

end StellarSettle.Funding
