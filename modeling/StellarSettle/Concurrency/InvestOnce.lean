import StellarSettle.Core.RowLock
import StellarSettle.Concurrency.Funding

/-!
# Investing once

Calls of `investInInvoice` next to each other, up to the notification and the
dispatch that follow a commit.  Both stand inside the loop that tries a conflict
again, so a call can come back after it has committed.  The log holds what the
calls brought about, in order.
-/

namespace StellarSettle.InvestOnce

open StellarSettle.Checks
open StellarSettle.Entities
open StellarSettle.Funding
open StellarSettle.InvestmentService
open StellarSettle.RowLock
open StellarSettle.TransitionSystem

/-! ## Calls -/

/-- A commit, and the calls of the notifier and of the state machine's `dispatch`, each
with the number of its attempt. -/
inductive Effect where
  | committed (attempt : ℕ) (writes : FundingWrites)
  | investmentCreated (attempt : ℕ)
  | dispatch (attempt : ℕ)
  deriving DecidableEq, Repr

/-- A call inside its transactions, or after the commit of one. -/
inductive Call where
  | running (process : Process)
  | notify (input : InvestInInvoiceInput) (fundingBlock attempt : ℕ) (writes : FundingWrites)
  | dispatch (input : InvestInInvoiceInput) (fundingBlock attempt : ℕ)
      (writes : FundingWrites)

/-- What becomes of a call that throws; the loop is the same before and after the
commit. -/
def Call.failed (failure : Failure) : Call → Call
  | .running process => .running (process.failed failure)
  | .notify input fundingBlock attempt writes =>
      .running (Process.failed failure
        (.investInInvoice input fundingBlock attempt (.commit writes)))
  | .dispatch input fundingBlock attempt writes =>
      .running (Process.failed failure
        (.investInInvoice input fundingBlock attempt (.commit writes)))

def needsRow : Call → Bool
  | .running process => needsInvoice process
  | _ => false

/-- The invoice row's database, the call, whether it holds the row, and what it has
brought about. -/
structure CallOutcome where
  db : Database
  call : Call
  holdsInvoice : Bool := false
  effects : List Effect := []

/-- A step inside a transaction. -/
def CallOutcome.inside (outcome : Outcome) : CallOutcome :=
  { db := outcome.db
    call := .running outcome.process
    holdsInvoice := outcome.holdsInvoice }

/-- `notifier` says whether the service has one. -/
structure CallEnvironment where
  statement : Environment := {}
  notifier : Bool := true

/-- The next step of a call, if it has one. -/
def advanceCall (environment : CallEnvironment) (db : Database) : Call → Option CallOutcome
  | .running (.investInInvoice input fundingBlock attempt (.commit writes)) =>
      some
        { db := commitFunding db writes
          call := .notify input fundingBlock attempt writes
          effects := [.committed attempt writes] }
  | .running process =>
      (advance environment.statement db process).map .inside
  | .notify input fundingBlock attempt writes =>
      some
        { db := db
          call := .dispatch input fundingBlock attempt writes
          effects := if environment.notifier then [.investmentCreated attempt] else [] }
  | .dispatch _ _ attempt writes =>
      some
        { db := db
          call := .running (.finished none)
          effects := if writes.history = [] then [] else [.dispatch attempt] }

/-! ## The system -/

structure World where
  db : Database
  holder : Option ℕ := none
  call : ℕ → Call := fun _ => .running .idle
  log : List (ℕ × Effect) := []

inductive Action where
  | start (input : InvestInInvoiceInput) (now : Timestamp)
  | advance (environment : CallEnvironment)
  | fail (failure : Failure)

structure Event where
  call : ℕ
  action : Action

def World.apply (world : World) (index : ℕ) (outcome : CallOutcome) : World :=
  { db := outcome.db
    holder := nextHolder world.holder index outcome.holdsInvoice
    call := setProcess world.call index outcome.call
    log := world.log ++ outcome.effects.map fun effect => (index, effect) }

def step (world : World) (event : Event) : Option World :=
  match event.action with
  | .start input now =>
      match world.call event.call with
      | .running .idle =>
          some (world.apply event.call
            { db := world.db
              call := .running ((Request.investInInvoice input).process now) })
      | _ => none
  | .advance environment =>
      if needsRow (world.call event.call) = true ∧ ¬Available world.holder event.call then
        none
      else
        (advanceCall environment world.db (world.call event.call)).map
          (world.apply event.call)
  | .fail failure =>
      some (world.apply event.call
        { db := world.db, call := (world.call event.call).failed failure })

/-- The writes of a commit. -/
def Effect.writes : Effect → Option FundingWrites
  | .committed _ writes => some writes
  | _ => none

/-- The writes that the log has committed, in order. -/
def committed (log : List (ℕ × Effect)) : List FundingWrites :=
  log.filterMap fun entry => entry.2.writes

/-- What the log has of one call. -/
def effectsOf (log : List (ℕ × Effect)) (index : ℕ) : List Effect :=
  (log.filter fun entry => entry.1 == index).map Prod.snd

/-- The row is of this wallet and this block. -/
def inBlock (wallet : String) (fundingBlock : ℕ) (row : Investment) : Bool :=
  row.investorWallet == some wallet && row.fundingBlock == some fundingBlock

/-- At most one investment for a wallet and a block. -/
def OnePerBlock (investments : List Investment) : Prop :=
  ∀ wallet fundingBlock, investments.countP (inBlock wallet fundingBlock) ≤ 1

/-- Nothing, or a commit followed by at most one notification and then at most one
dispatch, all of the attempt that committed. -/
def AtMostOnce (effects : List Effect) : Prop :=
  effects = [] ∨ ∃ attempt writes later,
    effects = .committed attempt writes :: later ∧
      later.Sublist [.investmentCreated attempt, .dispatch attempt]

/-! ## What a call knows -/

/-- An investment of this call's wallet and block is stored. -/
def Stored (db : Database) (input : InvestInInvoiceInput) (fundingBlock : ℕ) : Prop :=
  (db.investments.any (inBlock input.walletAddress fundingBlock)) = true

/-- The pending investment is the only one of its wallet and block. -/
def Fresh (db : Database) (input : InvestInInvoiceInput) (fundingBlock : ℕ)
    (investment : Investment) : Prop :=
  investment.investorWallet = some input.walletAddress ∧
    investment.fundingBlock = some fundingBlock ∧
    (db.investments.any fun row => sameBlock row investment) = false

/-- Only calls of `investInInvoice` are under way. -/
def Investing : Call → Prop
  | .running (.createInvestment _ _ _) => False
  | _ => True

def pendingShare : Call → Option (InvestInInvoiceInput × ℕ × Investment)
  | .running (.investInInvoice input fundingBlock _ (.fund _ _ investment)) =>
      some (input, fundingBlock, investment)
  | .running (.investInInvoice input fundingBlock _ (.commit writes)) =>
      some (input, fundingBlock, writes.investment)
  | _ => none

def holdsRow : Call → Bool
  | .running process => locked process
  | _ => false

def knowledge : Knowledge Database Call where
  always := fun _ call => Investing call
  holding := holdsRow
  locked := fun db call => ∀ share ∈ pendingShare call, Fresh db share.1 share.2.1 share.2.2

/-- A call that is back in the loop after its commit gets no further than the duplicate
check. -/
def Ended (db : Database) : Process → Prop
  | .finished _ => True
  | .investInInvoice input fundingBlock _ .read => Stored db input fundingBlock
  | .investInInvoice input fundingBlock _ (.duplicate _) => Stored db input fundingBlock
  | _ => False

/-- How far a call has come, and what the log has of it. -/
inductive Progress (db : Database) : Call → List Effect → Prop
  | running (process : Process) : Progress db (.running process) []
  | notify {input : InvestInInvoiceInput} {fundingBlock attempt : ℕ} {writes : FundingWrites}
      (hstored : Stored db input fundingBlock) :
      Progress db (.notify input fundingBlock attempt writes) [.committed attempt writes]
  | dispatch {input : InvestInInvoiceInput} {fundingBlock attempt : ℕ} {writes : FundingWrites}
      {later : List Effect} (hstored : Stored db input fundingBlock)
      (hlater : later.Sublist [.investmentCreated attempt]) :
      Progress db (.dispatch input fundingBlock attempt writes)
        (.committed attempt writes :: later)
  | ended {process : Process} {attempt : ℕ} {writes : FundingWrites} {later : List Effect}
      (hended : Ended db process)
      (hlater : later.Sublist [.investmentCreated attempt, .dispatch attempt]) :
      Progress db (.running process) (.committed attempt writes :: later)

theorem Progress.atMostOnce {db : Database} {call : Call} {effects : List Effect}
    (hprogress : Progress db call effects) : AtMostOnce effects := by
  cases hprogress with
  | running process => exact .inl rfl
  | notify hstored => exact .inr ⟨_, _, [], rfl, List.nil_sublist _⟩
  | dispatch hstored hlater =>
      exact .inr ⟨_, _, _, rfl, hlater.trans (List.sublist_append_left [_] [_])⟩
  | ended hended hlater => exact .inr ⟨_, _, _, rfl, hlater⟩

/-- Rows are only ever added. -/
def Grows (db after : Database) : Prop :=
  ∀ input fundingBlock, Stored db input fundingBlock → Stored after input fundingBlock

theorem Grows.refl (db : Database) : Grows db db := fun _ _ hstored => hstored

theorem Ended.grows {db after : Database} {process : Process} (hended : Ended db process)
    (hgrows : Grows db after) : Ended after process := by
  cases process with
  | finished thrown => trivial
  | investInInvoice input fundingBlock attempt stage =>
      cases stage with
      | read => exact hgrows input fundingBlock hended
      | duplicate invoice => exact hgrows input fundingBlock hended
      | _ => exact hended.elim
  | _ => exact hended.elim

theorem Progress.grows {db after : Database} {call : Call} {effects : List Effect}
    (hprogress : Progress db call effects) (hgrows : Grows db after) :
    Progress after call effects := by
  cases hprogress with
  | running process => exact .running process
  | notify hstored => exact .notify (hgrows _ _ hstored)
  | dispatch hstored hlater => exact .dispatch (hgrows _ _ hstored) hlater
  | ended hended hlater => exact .ended (hended.grows hgrows) hlater

/-! ## One step of one call -/

/-- Everything a step of one call brings about; `needs` says whether it waited for the
row. -/
structure Moves (needs : Bool) (db : Database) (call : Call) (outcome : CallOutcome) :
    Prop where
  keeps : Keeps knowledge db outcome.db needs outcome.holdsInvoice outcome.call
  once : OnePerBlock db.investments → OnePerBlock outcome.db.investments
  replays : outcome.db = (outcome.effects.filterMap Effect.writes).foldl commitFunding db
  grows : Grows db outcome.db
  progress : ∀ effects, Progress db call effects →
    Progress outcome.db outcome.call (effects ++ outcome.effects)

section Steps

variable {db : Database} {input : InvestInInvoiceInput} {fundingBlock attempt : ℕ}
  {process next : Process} {needs : Bool}

/-- A call that has committed stays so. -/
theorem progress_running (hended : Ended db process → Ended db next) :
    ∀ effects, Progress db (.running process) effects →
      Progress db (.running next) (effects ++ []) := by
  intro effects hprogress
  rw [List.append_nil]
  cases hprogress with
  | running _ => exact .running next
  | ended hbefore hlater => exact .ended (hended hbefore) hlater

/-- A step that commits nothing and goes on without the row. -/
theorem Moves.released {call : Call} (hinvesting : Investing (.running next))
    (hfree : locked next = false)
    (hprogress : ∀ effects, Progress db call effects →
      Progress db (.running next) (effects ++ [])) :
    Moves needs db call { db := db, call := .running next } where
  keeps := Keeps.released hinvesting hfree
  once := fun honce => honce
  replays := rfl
  grows := Grows.refl db
  progress := hprogress

/-- A step that goes on with the row. -/
theorem Moves.holding (hinvesting : Investing (.running next))
    (hfresh : ∀ share ∈ pendingShare (.running next), Fresh db share.1 share.2.1 share.2.2)
    (hended : Ended db process → Ended db next) :
    Moves true db (.running process)
      { db := db, call := .running next, holdsInvoice := true } where
  keeps := Keeps.taken hinvesting fun _ => hfresh
  once := fun honce => honce
  replays := rfl
  grows := Grows.refl db
  progress := progress_running hended

theorem Moves.thrown (thrown : Thrown) :
    Moves needs db (.running process)
      { db := db, call := .running (.finished (some thrown)) } :=
  .released trivial rfl (progress_running fun _ => trivial)

/-- An attempt that fails is over, or the next one starts from the first read. -/
theorem ended_failed (failure : Failure) (stage : InvestStage)
    (hended : Stored db input fundingBlock) :
    Ended db (Process.failed failure (.investInInvoice input fundingBlock attempt stage)) := by
  cases failure with
  | raised thrown => trivial
  | conflict =>
      simp only [Process.failed]
      split
      · trivial
      · exact hended

theorem failed_free (process : Process) (failure : Failure)
    (hinvesting : Investing (.running process)) :
    Investing (.running (process.failed failure)) ∧ locked (process.failed failure) = false := by
  cases process with
  | idle => exact ⟨trivial, rfl⟩
  | finished thrown => exact ⟨trivial, rfl⟩
  | createInvestment input attempt stage => exact hinvesting.elim
  | investInInvoice input fundingBlock attempt stage =>
      cases failure with
      | raised thrown => exact ⟨trivial, rfl⟩
      | conflict =>
          simp only [Process.failed]
          split
          · exact ⟨trivial, rfl⟩
          · exact ⟨trivial, rfl⟩

theorem ended_failed_of_ended (failure : Failure) (hended : Ended db process) :
    Ended db (process.failed failure) := by
  cases process with
  | finished thrown => trivial
  | investInInvoice input fundingBlock attempt stage =>
      cases stage with
      | read => exact ended_failed failure .read hended
      | duplicate invoice => exact ended_failed failure (.duplicate invoice) hended
      | _ => exact hended.elim
  | _ => exact hended.elim

theorem moves_failed {call : Call} (failure : Failure) (hinvesting : Investing call) :
    Moves needs db call { db := db, call := call.failed failure } := by
  cases call with
  | running process =>
      obtain ⟨hnext, hfree⟩ := failed_free process failure hinvesting
      exact .released hnext hfree (progress_running (ended_failed_of_ended failure))
  | notify input fundingBlock attempt writes =>
      obtain ⟨hnext, hfree⟩ := failed_free
        (.investInInvoice input fundingBlock attempt (.commit writes)) failure trivial
      refine .released hnext hfree fun effects hprogress => ?_
      cases hprogress with
      | notify hstored => exact .ended (ended_failed failure _ hstored) (List.nil_sublist _)
  | dispatch input fundingBlock attempt writes =>
      obtain ⟨hnext, hfree⟩ := failed_free
        (.investInInvoice input fundingBlock attempt (.commit writes)) failure trivial
      refine .released hnext hfree fun effects hprogress => ?_
      rw [List.append_nil]
      cases hprogress with
      | dispatch hstored hlater =>
          exact .ended (ended_failed failure _ hstored)
            (hlater.trans (List.sublist_append_left [_] [_]))

theorem not_stored_of_checkDuplicate {result : Unit}
    (hcheck : checkDuplicate db input.walletAddress fundingBlock = .ok result) :
    ¬Stored db input fundingBlock := by
  intro hstored
  exact throwIf_eq_ok.mp hcheck hstored

theorem investment_of_fundInvestedInvoice {intentInFlight : Bool} {invoice row : Invoice}
    {investment : Investment} {writes : FundingWrites}
    (hok : fundInvestedInvoice intentInFlight input invoice row investment = .ok writes) :
    writes.investment = investment := by
  rw [fundInvestedInvoice] at hok
  split at hok
  · obtain ⟨moved, _, hwrites⟩ := bind_eq_ok.mp hok
    obtain rfl := pure_eq_ok.mp hwrites
    rfl
  · obtain rfl := Except.ok.inj hok
    rfl

/-- A fresh row is the first of its wallet and block. -/
theorem OnePerBlock.append {investment : Investment} (honce : OnePerBlock db.investments)
    (hfresh : Fresh db input fundingBlock investment) :
    OnePerBlock (db.investments ++ [investment]) := by
  intro wallet block
  rw [List.countP_append]
  by_cases hsame : inBlock wallet block investment = true
  · have hnone : db.investments.countP (inBlock wallet block) = 0 := by
      rw [List.countP_eq_zero]
      intro row hrow hrowBlock
      obtain ⟨hwallet, hblock, hothers⟩ := hfresh
      have hother := List.any_eq_false.mp hothers row hrow
      simp only [inBlock, Bool.and_eq_true, beq_iff_eq] at hsame hrowBlock
      refine hother ?_
      simp [sameBlock, hsame.1, hsame.2, hrowBlock.1, hrowBlock.2]
    rw [hnone, Nat.zero_add]
    exact List.countP_le_length
  · have hother : List.countP (inBlock wallet block) [investment] = 0 := by
      simpa using hsame
    rw [hother, Nat.add_zero]
    exact honce wallet block

theorem moves_commit {writes : FundingWrites}
    (hfresh : Fresh db input fundingBlock writes.investment) :
    Moves true db (.running (.investInInvoice input fundingBlock attempt (.commit writes)))
      { db := commitFunding db writes
        call := .notify input fundingBlock attempt writes
        effects := [.committed attempt writes] } where
  keeps :=
    { always := trivial
      holding := fun hholding => by cases hholding
      waited := fun hholds => by cases hholds
      others := fun _ hinvesting => hinvesting
      frame := fun hneeds => by cases hneeds }
  once := fun honce => honce.append hfresh
  replays := rfl
  grows := fun other block hstored => by
    change (db.investments ++ [writes.investment]).any _ = true
    rw [List.any_append, Bool.or_eq_true]
    exact .inl hstored
  progress := fun effects hprogress => by
    cases hprogress with
    | running _ =>
        refine .notify ?_
        change (db.investments ++ [writes.investment]).any _ = true
        simp [inBlock, hfresh.1, hfresh.2.1]
    | ended hended _ => exact hended.elim

theorem moves_invest {environment : Environment} {stage : InvestStage}
    (hcommit : ∀ writes, stage ≠ .commit writes)
    (hfresh : ∀ share ∈ pendingShare (.running (.investInInvoice input fundingBlock attempt stage)),
      Fresh db share.1 share.2.1 share.2.2) :
    Moves (needsRow (.running (.investInInvoice input fundingBlock attempt stage))) db
      (.running (.investInInvoice input fundingBlock attempt stage))
      (.inside (advanceInvest input fundingBlock attempt environment db stage)) := by
  cases stage with
  | read =>
      refine Outcome.attempt_rule (P := fun outcome => Moves _ db _ (.inside outcome)) Moves.thrown
        fun invoice _ => ?_
      exact .released trivial rfl (progress_running fun hended => hended)
  | duplicate invoice =>
      refine Outcome.attempt_rule (P := fun outcome => Moves _ db _ (.inside outcome)) Moves.thrown
        fun _ hcheck => ?_
      exact .released trivial rfl
        (progress_running fun hended => not_stored_of_checkDuplicate hcheck hended)
  | update invoice =>
      refine Outcome.attempt_rule (P := fun outcome => Moves _ db _ (.inside outcome)) Moves.thrown
        fun updated _ => ?_
      cases updated with
      | none =>
          obtain ⟨hnext, hfree⟩ := failed_free
            (.investInInvoice input fundingBlock attempt (.update invoice)) .conflict trivial
          exact .released hnext hfree (progress_running False.elim)
      | some row =>
          exact .holding trivial (fun _ hnone => by cases hnone) False.elim
  | insert invoice row =>
      refine Outcome.attempt_rule (P := fun outcome => Moves _ db _ (.inside outcome)) Moves.thrown
        fun _ hinsert => ?_
      obtain ⟨_, hunique, _⟩ := bind_eq_ok.mp hinsert
      refine .holding trivial (fun share hshare => ?_) False.elim
      obtain rfl := Option.some.inj (Option.mem_def.mp hshare)
      exact ⟨rfl, rfl, by simpa using throwIf_eq_ok.mp hunique⟩
  | fund invoice row investment =>
      refine Outcome.attempt_rule (P := fun outcome => Moves _ db _ (.inside outcome)) Moves.thrown
        fun writes hwrites => ?_
      refine .holding trivial (fun share hshare => ?_) False.elim
      obtain rfl := Option.some.inj (Option.mem_def.mp hshare)
      have hinvestment := investment_of_fundInvestedInvoice hwrites
      dsimp only
      rw [hinvestment]
      exact hfresh _ rfl
  | commit writes => exact absurd rfl (hcommit writes)

theorem moves_advance {call : Call} {environment : CallEnvironment} {outcome : CallOutcome}
    (hinvesting : Investing call)
    (hfresh : ∀ share ∈ pendingShare call, Fresh db share.1 share.2.1 share.2.2)
    (hadvance : advanceCall environment db call = some outcome) :
    Moves (needsRow call) db call outcome := by
  cases call with
  | notify input fundingBlock attempt writes =>
      obtain rfl := Option.some.inj hadvance
      refine ⟨Keeps.released trivial rfl, fun honce => honce, ?_, Grows.refl db, ?_⟩
      · dsimp only
        split <;> rfl
      · intro effects hprogress
        cases hprogress with
        | notify hstored =>
            refine .dispatch hstored ?_
            split
            · exact List.Sublist.refl _
            · exact List.nil_sublist _
  | dispatch input fundingBlock attempt writes =>
      obtain rfl := Option.some.inj hadvance
      refine ⟨Keeps.released trivial rfl, fun honce => honce, ?_, Grows.refl db, ?_⟩
      · dsimp only
        split <;> rfl
      · intro effects hprogress
        cases hprogress with
        | dispatch hstored hlater =>
            refine .ended trivial (hlater.append ?_)
            split
            · exact List.nil_sublist _
            · exact List.Sublist.refl _
  | running process =>
      cases process with
      | idle => cases hadvance
      | finished thrown => cases hadvance
      | createInvestment input attempt stage => exact hinvesting.elim
      | investInInvoice input fundingBlock attempt stage =>
          cases stage with
          | commit writes =>
              obtain rfl := Option.some.inj hadvance
              exact moves_commit (hfresh _ rfl)
          | _ =>
              obtain rfl := Option.some.inj hadvance
              exact moves_invest (fun _ hstage => by cases hstage) hfresh

end Steps

/-! ## Runs -/

theorem effectsOf_append (log : List (ℕ × Effect)) (index other : ℕ) (effects : List Effect) :
    effectsOf (log ++ effects.map fun effect => (index, effect)) other =
      effectsOf log other ++ if other = index then effects else [] := by
  rw [effectsOf, List.filter_append, List.map_append]
  congr 1
  split
  · rename_i hsame
    simp [hsame, List.filter_map, Function.comp_def]
  · rename_i hother
    have hne : index ≠ other := fun hsame => hother hsame.symm
    simp [List.filter_map, Function.comp_def, hne]

theorem committed_append (log : List (ℕ × Effect)) (index : ℕ) (effects : List Effect) :
    committed (log ++ effects.map fun effect => (index, effect)) =
      committed log ++ effects.filterMap Effect.writes := by
  rw [committed, List.filterMap_append, List.filterMap_map]
  rfl

structure Invariant (first : Database) (world : World) : Prop where
  known : Known knowledge world.db world.holder world.call
  onePerBlock : OnePerBlock world.db.investments
  replayed : world.db = (committed world.log).foldl commitFunding first
  progress : ∀ index, Progress world.db (world.call index) (effectsOf world.log index)

/-- No call is under way, and the rows keep the unique index. -/
structure Initial (world : World) : Prop where
  onePerBlock : OnePerBlock world.db.investments
  noHolder : world.holder = none
  allIdle : ∀ index, world.call index = .running .idle
  noLog : world.log = []

theorem invariant_initial {world : World} (hinitial : Initial world) :
    Invariant world.db world where
  known :=
    { always := fun index => by rw [hinitial.allIdle]; trivial
      holds := fun index hholding => by
        rw [hinitial.allIdle] at hholding
        cases hholding
      locked := fun index hholding => by
        rw [hinitial.allIdle] at hholding
        cases hholding }
  onePerBlock := hinitial.onePerBlock
  replayed := by rw [hinitial.noLog]; rfl
  progress := fun index => by
    rw [hinitial.allIdle, hinitial.noLog]
    exact .running .idle

theorem Invariant.apply {first : Database} {world : World} {index : ℕ} {outcome : CallOutcome}
    {needs : Bool} (hinvariant : Invariant first world)
    (havailable : needs = true → Available world.holder index)
    (hmoves : Moves needs world.db (world.call index) outcome) :
    Invariant first (world.apply index outcome) where
  known := hinvariant.known.step havailable hmoves.keeps
  onePerBlock := hmoves.once hinvariant.onePerBlock
  replayed := by
    change outcome.db = (committed (world.log ++ _)).foldl commitFunding first
    rw [committed_append, List.foldl_append, ← hinvariant.replayed]
    exact hmoves.replays
  progress := by
    intro other
    change Progress outcome.db (setProcess world.call index outcome.call other)
      (effectsOf (world.log ++ _) other)
    rw [effectsOf_append, setProcess]
    by_cases hsame : other = index
    · subst hsame
      rw [if_pos rfl, Function.update_self]
      exact hmoves.progress _ (hinvariant.progress other)
    · rw [if_neg hsame, List.append_nil, Function.update_of_ne hsame]
      exact (hinvariant.progress other).grows hmoves.grows

theorem holdsRow_of_pendingShare {call : Call} {share : InvestInInvoiceInput × ℕ × Investment}
    (hshare : share ∈ pendingShare call) : holdsRow call = true := by
  rw [pendingShare.eq_def] at hshare
  split at hshare
  · rfl
  · rfl
  · cases hshare

theorem Invariant.step {first : Database} {world after : World} {event : Event}
    (hinvariant : Invariant first world)
    (hstep : InvestOnce.step world event = some after) : Invariant first after := by
  rw [InvestOnce.step.eq_def] at hstep
  split at hstep
  · rename_i input now haction
    split at hstep
    · rename_i hidle
      obtain rfl := Option.some.inj hstep
      have hmoves : Moves false world.db (world.call event.call)
          { db := world.db
            call := .running ((Request.investInInvoice input).process now) } := by
        rw [hidle]
        simp only [Request.process]
        split
        · exact .thrown _
        · exact .released trivial rfl (progress_running False.elim)
      exact hinvariant.apply (fun hneeds => by cases hneeds) hmoves
    · cases hstep
  · rename_i environment haction
    split at hstep
    · cases hstep
    · rename_i hfree
      obtain ⟨outcome, houtcome, rfl⟩ := Option.map_eq_some_iff.mp hstep
      refine hinvariant.apply (fun hneeds => ?_)
        (moves_advance (hinvariant.known.always event.call) (fun share hshare => ?_) houtcome)
      · by_contra hheld
        exact hfree ⟨hneeds, hheld⟩
      · exact hinvariant.known.locked event.call (holdsRow_of_pendingShare hshare) share hshare
  · rename_i failure haction
    obtain rfl := Option.some.inj hstep
    have hmoves : Moves false world.db (world.call event.call)
        { db := world.db, call := (world.call event.call).failed failure } :=
      moves_failed failure (hinvariant.known.always event.call)
    exact hinvariant.apply (fun hneeds => by cases hneeds) hmoves

theorem invariant_of_run {first last : World} {events : List Event} (hinitial : Initial first)
    (hrun : Run InvestOnce.step first events last) : Invariant first.db last :=
  hrun.invariant (fun _ hstep hinvariant => hinvariant.step hstep) (invariant_initial hinitial)

/-- In every run a wallet has at most one investment of a block, the rows are the first
ones and what the committed attempts wrote, and a call commits, notifies and dispatches
at most once each, in one attempt. -/
theorem invested_once {first last : World} {events : List Event} (hinitial : Initial first)
    (hrun : Run InvestOnce.step first events last) :
    OnePerBlock last.db.investments ∧
      last.db = (committed last.log).foldl commitFunding first.db ∧
      ∀ index, AtMostOnce (effectsOf last.log index) := by
  have hinvariant := invariant_of_run hinitial hrun
  exact ⟨hinvariant.onePerBlock, hinvariant.replayed,
    fun index => (hinvariant.progress index).atMostOnce⟩

/-! ## A lost race and a duplicate -/

def otherInvestment : InvestInInvoiceInput :=
  { quarterInvestment with walletAddress := "GOTHER" }

def advances (index count : ℕ) : List Event :=
  List.replicate count ⟨index, .advance { statement := { newId := index } }⟩

/-- Calls 0 and 2 are duplicates; call 1 commits after both have read the invoice. -/
def duplicates : List Event :=
  [⟨0, .start quarterInvestment 0⟩, ⟨1, .start otherInvestment 0⟩,
    ⟨2, .start quarterInvestment 0⟩] ++
    advances 0 1 ++ advances 2 2 ++ advances 1 8 ++ advances 0 10 ++ advances 2 3

theorem duplicates_investedOnce : ∃ last,
    Run InvestOnce.step { db := openDatabase } duplicates last ∧
      last.db.investments.map Investment.id = [1, 0] ∧
      (effectsOf last.log 0).length = 2 ∧ effectsOf last.log 2 = [] ∧
      OnePerBlock last.db.investments ∧
      last.db = (committed last.log).foldl commitFunding openDatabase ∧
      ∀ index, AtMostOnce (effectsOf last.log index) := by
  have hexec : (exec InvestOnce.step { db := openDatabase } duplicates).map (fun last =>
      (last.db.investments.map Investment.id, (effectsOf last.log 0).length,
        effectsOf last.log 2)) = some ([1, 0], 2, []) := by
    decide +kernel
  obtain ⟨last, hrun, hlast⟩ := exists_run hexec
  simp only [Prod.mk.injEq] at hlast
  have hinitial : Initial { db := openDatabase } :=
    { onePerBlock := fun _ _ => Nat.zero_le 1
      noHolder := rfl
      allIdle := fun _ => rfl
      noLog := rfl }
  exact ⟨last, hrun, hlast.1, hlast.2.1, hlast.2.2, invested_once hinitial hrun⟩

end StellarSettle.InvestOnce
