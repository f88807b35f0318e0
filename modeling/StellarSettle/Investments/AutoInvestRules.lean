import StellarSettle.Core.StoppedLoops
import StellarSettle.Investments.InvestmentService

/-!
# The auto-invest rules

`AutoInvestRuleEngineService` runs the enabled rules that match a published invoice, one after
another, and records an execution for each.  Every call of another service and every write may
fail, each time it is made.
-/

namespace StellarSettle.AutoInvestRules

open StellarSettle.DecimalJs
open StellarSettle.Entities
open StellarSettle.InvestmentService (CreateInvestmentInput)
open StellarSettle.StoppedLoops

/-! ## Rules and executions -/

inductive RiskTier where
  | low
  | medium
  | high
  deriving DecidableEq, Repr

inductive AutoInvestExecutionStatus where
  | executed
  | skippedInsufficientBalance
  | failed
  deriving DecidableEq, Repr

/-- The yield in units of `10 ^ -2`, the other amounts in units of `10 ^ -4`. -/
structure AutoInvestRule where
  id : Uuid
  investorId : Uuid
  category : Option String
  minYield : ℤ
  maxFaceValue : ℤ
  riskTier : Option RiskTier
  maxPerInvoice : ℤ
  minWalletBalance : ℤ
  enabled : Bool
  deriving DecidableEq, Repr

/-- The table of rules with its primary key. -/
structure RuleTable where
  rows : List AutoInvestRule
  uniqueRules : (rows.map AutoInvestRule.id).Nodup

/-- An invoice with the columns that only rules read, its risk score in units of `10 ^ -2`. -/
structure RatedInvoice extends Invoice where
  category : Option String
  riskScore : Option ℤ
  deriving DecidableEq, Repr

structure AutoInvestExecution where
  ruleId : Uuid
  investorId : Uuid
  invoiceId : Uuid
  investmentId : Option Uuid
  amount : ℤ
  status : AutoInvestExecutionStatus
  reason : Option String
  deriving DecidableEq, Repr

/-- A missing score has no tier. -/
def riskTierFor (riskScore : Option ℤ) : Option RiskTier :=
  riskScore.map fun score =>
    if score ≤ 3000 then .low else if score ≤ 7000 then .medium else .high

def matchesInvoice (rule : AutoInvestRule) (invoice : RatedInvoice) : Bool :=
  if rule.category ≠ none ∧ rule.category ≠ invoice.category then false
  else if invoice.discountRate < rule.minYield then false
  else if rule.maxFaceValue < invoice.amount then false
  else if rule.riskTier ≠ none ∧ rule.riskTier ≠ riskTierFor invoice.riskScore then false
  else true

def RuleTable.matching (rules : RuleTable) (invoice : RatedInvoice) :
    List AutoInvestRule :=
  (rules.rows.filter AutoInvestRule.enabled).filter fun rule => matchesInvoice rule invoice

/-! ## What the rules rely on -/

structure Investor where
  stellarAddress : String
  deriving DecidableEq, Repr

/-- What became of the write of an execution.  A write may be stored although it fails. -/
inductive Write where
  | stored
  | refused (error : Thrown)
  | lost (error : Thrown)
  deriving DecidableEq, Repr

/-- What became of a call of `createInvestment`.  It may fail after its transaction committed. -/
inductive Creation where
  | created (investmentId : Uuid)
  | failed (error : Thrown) (investmentId : Option Uuid)
  deriving DecidableEq, Repr

/-- What is met while one rule runs. -/
structure Services where
  findOneBy : Uuid → Except Thrown (Option Investor)
  getBalance : String → Except Thrown Decimal
  createInvestment : CreateInvestmentInput → Creation
  save : AutoInvestExecution → Write
  saveInCatch : AutoInvestExecution → Write

/-- `error.message`. -/
def messageOf : Thrown → String
  | .service error => error.message
  | .appError _ message _ => message
  | .rangeError message => message
  | .error message => message
  | .chain error => error.message

/-! ## Running the rules -/

/-- What a rule did. -/
structure RuleRun where
  ruleId : Uuid
  investmentId : Option Uuid
  executions : List AutoInvestExecution
  deriving DecidableEq, Repr

def Write.save (write : AutoInvestExecution → Write) (execution : AutoInvestExecution)
    (run : RuleRun) : RuleRun × Except Thrown Unit :=
  match write execution with
  | .stored => ({ run with executions := run.executions ++ [execution] }, .ok ())
  | .refused error => (run, .error error)
  | .lost error => ({ run with executions := run.executions ++ [execution] }, .error error)

def investedAmount (rule : AutoInvestRule) (invoice : RatedInvoice) : Decimal :=
  min (ofUnits rule.maxPerInvoice) (ofUnits invoice.netAmount)

/-- The row of `recordExecution`. -/
def execution (rule : AutoInvestRule) (invoice : RatedInvoice)
    (status : AutoInvestExecutionStatus) (reason : Option String)
    (investmentId : Option Uuid := none) : AutoInvestExecution :=
  { ruleId := rule.id
    investorId := rule.investorId
    invoiceId := invoice.id
    investmentId := investmentId
    amount := toFixed4 (investedAmount rule invoice)
    status := status
    reason := reason }

def belowMinimum (rule : AutoInvestRule) (balance : Decimal) : String :=
  "Wallet balance " ++ decimalText balance ++ " is below the rule's minimum " ++
    fixed4Text rule.minWalletBalance

/-- Where the `try` block stands before it writes: it throws, or it records an execution.  Either
may follow the creation of an investment. -/
inductive Reached where
  | throws (error : Thrown) (investmentId : Option Uuid)
  | records (execution : AutoInvestExecution) (investmentId : Option Uuid)
  deriving DecidableEq, Repr

/-- The `try` block of `executeRule` up to its write. -/
def reached (services : Services) (invoice : RatedInvoice) (rule : AutoInvestRule) : Reached :=
  match services.findOneBy rule.investorId with
  | .error error => .throws error none
  | .ok none => .records (execution rule invoice .failed (some "Investor not found")) none
  | .ok (some investor) =>
      match services.getBalance investor.stellarAddress with
      | .error error => .throws error none
      | .ok balance =>
          if balance < ofUnits rule.minWalletBalance then
            .records (execution rule invoice .skippedInsufficientBalance
              (some (belowMinimum rule balance))) none
          else
            match services.createInvestment
                { investorId := rule.investorId
                  investmentAmount := ofUnits (toFixed4 (investedAmount rule invoice))
                  investorWallet := investor.stellarAddress } with
            | .failed error investmentId => .throws error investmentId
            | .created investmentId =>
                .records (execution rule invoice .executed none (some investmentId))
                  (some investmentId)

def tryBlock (services : Services) (invoice : RatedInvoice) (rule : AutoInvestRule) :
    RuleRun × Except Thrown Unit :=
  match reached services invoice rule with
  | .throws error investmentId =>
      ({ ruleId := rule.id, investmentId := investmentId, executions := [] }, .error error)
  | .records execution investmentId =>
      Write.save services.save execution
        { ruleId := rule.id, investmentId := investmentId, executions := [] }

/-- The write in the `catch` block is under no `try` of its own. -/
def executeRule (services : Services) (invoice : RatedInvoice) (rule : AutoInvestRule) :
    RuleRun × Except Thrown Unit :=
  match tryBlock services invoice rule with
  | (run, .ok ()) => (run, .ok ())
  | (run, .error error) =>
      Write.save services.saveInCatch
        (execution rule invoice .failed (some (messageOf error))) run

/-- What is met may differ from rule to rule. -/
def evaluateInvoice (services : Uuid → Services) (rules : RuleTable)
    (invoice : RatedInvoice) : List RuleRun × Except Thrown Unit :=
  forEach (fun rule => executeRule (services rule.id) invoice rule) (rules.matching invoice)

/-! ## Truthful books -/

/-- The executions that were recorded for a rule. -/
def recorded (runs : List RuleRun) (ruleId : Uuid) : List AutoInvestExecution :=
  (runs.flatMap RuleRun.executions).filter fun execution => decide (execution.ruleId = ruleId)

/-- A rule is attempted, has at most one execution, and the execution tells whether the rule
invested. -/
structure BooksKept (runs : List RuleRun) (ruleId : Uuid) : Prop where
  attempted : ∃ run ∈ runs, run.ruleId = ruleId
  atMostOne : (recorded runs ruleId).length ≤ 1
  truthful : ∀ execution ∈ recorded runs ruleId,
    execution.status = .executed ↔
      ∃ run ∈ runs, run.ruleId = ruleId ∧ run.investmentId.isSome

def Write.thrown : Write → Option Thrown
  | stored => none
  | refused error => some error
  | lost error => some error

def Write.stores : Write → Bool
  | stored => true
  | refused _ => false
  | lost _ => true

def Reached.investmentId : Reached → Option Uuid
  | throws _ investmentId => investmentId
  | records _ investmentId => investmentId

variable (services : Services) (invoice : RatedInvoice) (rule : AutoInvestRule)

/-- The error that the `catch` block handles. -/
def caught : Option Thrown :=
  match reached services invoice rule with
  | .throws error _ => some error
  | .records execution _ => (services.save execution).thrown

/-- What the `try` block stored. -/
def firstExecutions : List AutoInvestExecution :=
  match reached services invoice rule with
  | .throws _ _ => []
  | .records execution _ => if (services.save execution).stores then [execution] else []

/-- The `try` block has made an investment or stored an execution. -/
def LeavesTrace : Prop :=
  (reached services invoice rule).investmentId.isSome ∨ firstExecutions services invoice rule ≠ []

def caughtExecution (error : Thrown) : AutoInvestExecution :=
  execution rule invoice .failed (some (messageOf error))

/-- The `catch` block, where it is entered, can write. -/
def CatchWrites : Prop :=
  ∀ error, caught services invoice rule = some error →
    (services.saveInCatch (caughtExecution invoice rule error)).thrown = none

/-- The `catch` block stores nothing after an investment or an execution. -/
def CatchSilent : Prop :=
  ∀ error, caught services invoice rule = some error → LeavesTrace services invoice rule →
    (services.saveInCatch (caughtExecution invoice rule error)).stores = false

/-- What the `catch` block stored. -/
def laterExecutions : List AutoInvestExecution :=
  match caught services invoice rule with
  | none => []
  | some error =>
      if (services.saveInCatch (caughtExecution invoice rule error)).stores then
        [caughtExecution invoice rule error]
      else []

variable {services invoice rule}

theorem save_snd {write : AutoInvestExecution → Write} {row : AutoInvestExecution} {run : RuleRun} :
    (Write.save write row run).2 = (write row).thrown.elim (.ok ()) .error := by
  cases hwrite : write row <;> simp [Write.save, Write.thrown, hwrite]

theorem save_fst {write : AutoInvestExecution → Write} {row : AutoInvestExecution} {run : RuleRun} :
    (Write.save write row run).1 =
      { run with executions := run.executions ++ if (write row).stores then [row] else [] } := by
  cases hwrite : write row <;> simp [Write.save, Write.stores, hwrite]

theorem tryBlock_eq :
    tryBlock services invoice rule =
      ({ ruleId := rule.id
         investmentId := (reached services invoice rule).investmentId
         executions := firstExecutions services invoice rule },
        (caught services invoice rule).elim (.ok ()) .error) := by
  cases hreached : reached services invoice rule with
  | throws error investmentId =>
      simp [tryBlock, firstExecutions, caught, hreached, Reached.investmentId]
  | records row investmentId =>
      simp only [tryBlock, firstExecutions, caught, hreached, Reached.investmentId]
      exact Prod.ext (by rw [save_fst, List.nil_append]) save_snd

/-- What `executeRule` did, and whether it threw. -/
theorem executeRule_eq :
    executeRule services invoice rule =
      ({ ruleId := rule.id
         investmentId := (reached services invoice rule).investmentId
         executions := firstExecutions services invoice rule ++
           laterExecutions services invoice rule },
        (caught services invoice rule).elim (.ok ()) fun error =>
          (services.saveInCatch (caughtExecution invoice rule error)).thrown.elim (.ok ())
            .error) := by
  rw [executeRule, tryBlock_eq, laterExecutions]
  cases hcaught : caught services invoice rule with
  | none => simp
  | some error => exact Prod.ext save_fst save_snd

theorem completes_iff :
    Completes (executeRule services invoice) rule ↔ CatchWrites services invoice rule := by
  rw [Completes, executeRule_eq, CatchWrites]
  cases hcaught : caught services invoice rule with
  | none => simp
  | some error =>
      cases hthrown : (services.saveInCatch (caughtExecution invoice rule error)).thrown <;>
        simp [hthrown]

/-- The execution that the `try` block records tells whether an investment was made. -/
theorem status_of_records {row : AutoInvestExecution} {investmentId : Option Uuid}
    (hreached : reached services invoice rule = .records row investmentId) :
    row.ruleId = rule.id ∧ (row.status = .executed ↔ investmentId.isSome) := by
  unfold reached at hreached
  split at hreached
  · cases hreached
  · cases hreached
    simp [execution]
  · split at hreached
    · cases hreached
    · split at hreached
      · cases hreached
        simp [execution]
      · split at hreached
        · cases hreached
        · cases hreached
          simp [execution]

theorem firstExecutions_cases (services : Services) (invoice : RatedInvoice)
    (rule : AutoInvestRule) :
    firstExecutions services invoice rule = [] ∨
      ∃ row, firstExecutions services invoice rule = [row] ∧ row.ruleId = rule.id ∧
        (row.status = .executed ↔ (reached services invoice rule).investmentId.isSome) := by
  cases hreached : reached services invoice rule with
  | throws error investmentId => simp [firstExecutions, hreached]
  | records row investmentId =>
      have hrow := status_of_records hreached
      cases hstores : (services.save row).stores with
      | false => simp [firstExecutions, hreached, hstores]
      | true =>
          refine .inr ⟨row, ?_, hrow.1, hrow.2⟩
          simp [firstExecutions, hreached, hstores]

theorem laterExecutions_cases (services : Services) (invoice : RatedInvoice)
    (rule : AutoInvestRule) :
    laterExecutions services invoice rule = [] ∧ CatchSilent services invoice rule ∨
      ∃ error, laterExecutions services invoice rule = [caughtExecution invoice rule error] ∧
        (CatchSilent services invoice rule ↔ ¬LeavesTrace services invoice rule) := by
  cases hcaught : caught services invoice rule with
  | none => exact .inl (by simp [laterExecutions, CatchSilent, hcaught])
  | some error =>
      cases hstores : (services.saveInCatch (caughtExecution invoice rule error)).stores with
      | false => exact .inl (by simp [laterExecutions, CatchSilent, hcaught, hstores])
      | true => exact .inr ⟨error, by simp [laterExecutions, CatchSilent, hcaught, hstores]⟩

theorem ruleId_of_mem_executions {row : AutoInvestExecution}
    (hrow : row ∈ (executeRule services invoice rule).1.executions) : row.ruleId = rule.id := by
  rw [executeRule_eq, List.mem_append] at hrow
  rcases hrow with hfirst | hlater
  · rcases firstExecutions_cases services invoice rule with
      hnone | ⟨found, hfound, hruleId, _⟩
    · simp [hnone] at hfirst
    · rw [hfound, List.mem_singleton] at hfirst
      rw [hfirst, hruleId]
  · rcases laterExecutions_cases services invoice rule with
      ⟨hnone, _⟩ | ⟨error, hfound, _⟩
    · simp [hnone] at hlater
    · rw [hfound, List.mem_singleton] at hlater
      rw [hlater, caughtExecution, execution]

/-- One rule's executions are right exactly when the `catch` block does not add one to a trace. -/
theorem executions_right_iff :
    ((executeRule services invoice rule).1.executions.length ≤ 1 ∧
      ∀ row ∈ (executeRule services invoice rule).1.executions,
        row.status = .executed ↔ (executeRule services invoice rule).1.investmentId.isSome) ↔
      CatchSilent services invoice rule := by
  simp only [executeRule_eq]
  rcases laterExecutions_cases services invoice rule with
    ⟨hlater, hsilent⟩ | ⟨error, hlater, hsilent⟩
  · rcases firstExecutions_cases services invoice rule with
      hfirst | ⟨row, hfirst, _, hstatus⟩
    · simp [hlater, hfirst, hsilent]
    · simp [hlater, hfirst, hsilent, hstatus]
  · rw [hsilent, LeavesTrace]
    have hfailed : (caughtExecution invoice rule error).status ≠ .executed := by
      simp [caughtExecution, execution]
    rcases firstExecutions_cases services invoice rule with
      hfirst | ⟨row, hfirst, _, _⟩
    · simp [hlater, hfirst, hfailed]
    · simp [hlater, hfirst]

/-! ## All rules -/

/-- Rules with distinct ids keep their books apart. -/
theorem recorded_map {services : Uuid → Services} {rules : List AutoInvestRule}
    (hids : (rules.map AutoInvestRule.id).Nodup) (hrule : rule ∈ rules) :
    recorded (rules.map fun rule => (executeRule (services rule.id) invoice rule).1) rule.id =
      (executeRule (services rule.id) invoice rule).1.executions := by
  induction rules with
  | nil => cases hrule
  | cons first rest ih =>
      rw [List.map_cons, List.nodup_cons] at hids
      have hown : ∀ row ∈ (executeRule (services first.id) invoice first).1.executions,
          row.ruleId = first.id := fun row hrow => ruleId_of_mem_executions hrow
      rw [recorded, List.map_cons, List.flatMap_cons, List.filter_append]
      rcases List.mem_cons.1 hrule with rfl | hrest
      · have hothers : ∀ row ∈ (rest.map fun rule =>
            (executeRule (services rule.id) invoice rule).1).flatMap RuleRun.executions,
            row.ruleId ≠ rule.id := by
          intro row hrow hsame
          obtain ⟨run, hrun, hrow⟩ := List.mem_flatMap.1 hrow
          obtain ⟨other, hother, rfl⟩ := List.mem_map.1 hrun
          have hotherId := ruleId_of_mem_executions hrow
          exact hids.1 (List.mem_map.2 ⟨other, hother, by rw [← hotherId, hsame]⟩)
        rw [List.filter_eq_self.2 (by simpa using hown),
          List.filter_eq_nil_iff.2 (by simpa using hothers), List.append_nil]
      · have hfirst : first.id ≠ rule.id := fun hsame =>
          hids.1 (List.mem_map.2 ⟨rule, hrest, hsame.symm⟩)
        have hnone : ∀ row ∈ (executeRule (services first.id) invoice first).1.executions,
            row.ruleId ≠ rule.id := fun row hrow => by rw [hown row hrow]; exact hfirst
        rw [List.filter_eq_nil_iff.2 (by simpa using hnone), List.nil_append]
        exact ih hids.2 hrest

theorem run_of_map {services : Uuid → Services} {rules : List AutoInvestRule}
    (hids : (rules.map AutoInvestRule.id).Nodup) (hrule : rule ∈ rules) {P : RuleRun → Prop} :
    (∃ run ∈ rules.map fun rule => (executeRule (services rule.id) invoice rule).1,
      run.ruleId = rule.id ∧ P run) ↔
      P (executeRule (services rule.id) invoice rule).1 := by
  have hid : ∀ other : AutoInvestRule,
      (executeRule (services other.id) invoice other).1.ruleId = other.id := fun other => by
    rw [executeRule_eq]
  constructor
  · rintro ⟨run, hrun, hsame, hP⟩
    obtain ⟨other, hother, rfl⟩ := List.mem_map.1 hrun
    rw [hid] at hsame
    rwa [List.inj_on_of_nodup_map hids hother hrule hsame] at hP
  · exact fun hP => ⟨_, List.mem_map.2 ⟨rule, hrule, rfl⟩, hid rule, hP⟩

theorem matching_ids (rules : RuleTable) (invoice : RatedInvoice) :
    ((rules.matching invoice).map AutoInvestRule.id).Nodup := by
  rw [RuleTable.matching]
  exact rules.uniqueRules.sublist
    ((List.filter_sublist.trans List.filter_sublist).map AutoInvestRule.id)

/-- Every rule is attempted exactly when the loop reaches the last. -/
theorem attempted_iff {services : Uuid → Services} {rules : List AutoInvestRule}
    (hids : (rules.map AutoInvestRule.id).Nodup) :
    (∀ rule ∈ rules, ∃ run ∈
        (forEach (fun rule => executeRule (services rule.id) invoice rule) rules).1,
        run.ruleId = rule.id) ↔
      ∀ rule ∈ rules.dropLast, CatchWrites (services rule.id) invoice rule := by
  have hmap := forEach_eq_map_iff
    (fun rule => executeRule (services rule.id) invoice rule) rules
  have hcompletes : ∀ rule, Completes (fun rule => executeRule (services rule.id) invoice rule)
      rule ↔ CatchWrites (services rule.id) invoice rule := fun rule => completes_iff
  simp only [hcompletes] at hmap
  rw [← hmap]
  constructor
  · intro hattempted
    obtain ⟨reached, hprefix, hreached⟩ := exists_prefix
      (fun rule => executeRule (services rule.id) invoice rule) rules
    have hsubset : rules.map AutoInvestRule.id ⊆ reached.map AutoInvestRule.id := by
      intro id hid
      obtain ⟨rule, hrule, rfl⟩ := List.mem_map.1 hid
      obtain ⟨run, hrun, hsame⟩ := hattempted rule hrule
      rw [hreached] at hrun
      obtain ⟨other, hother, rfl⟩ := List.mem_map.1 hrun
      rw [executeRule_eq] at hsame
      exact List.mem_map.2 ⟨other, hother, hsame⟩
    have hlength := (hids.subperm hsubset).length_le
    rw [List.length_map, List.length_map] at hlength
    rw [hreached, hprefix.eq_of_length_le hlength]
  · intro hall rule hrule
    rw [hall]
    exact ⟨_, List.mem_map.2 ⟨rule, hrule, rfl⟩, by rw [executeRule_eq]⟩

/-- The books are right exactly when every `catch` block but the last one's can write, and none
writes after an investment or an execution. -/
theorem booksKept_iff (services : Uuid → Services) (rules : RuleTable) (invoice : RatedInvoice) :
    (∀ rule ∈ rules.matching invoice,
      BooksKept (evaluateInvoice services rules invoice).1 rule.id) ↔
      (∀ rule ∈ (rules.matching invoice).dropLast,
        CatchWrites (services rule.id) invoice rule) ∧
      ∀ rule ∈ rules.matching invoice, CatchSilent (services rule.id) invoice rule := by
  have hids := matching_ids rules invoice
  rw [← attempted_iff hids]
  have hbooks : ∀ rule ∈ rules.matching invoice,
      (∀ rule ∈ (rules.matching invoice).dropLast,
        CatchWrites (services rule.id) invoice rule) →
      ((recorded (evaluateInvoice services rules invoice).1 rule.id).length ≤ 1 ∧
        (∀ row ∈ recorded (evaluateInvoice services rules invoice).1 rule.id,
          row.status = .executed ↔
            ∃ run ∈ (evaluateInvoice services rules invoice).1,
              run.ruleId = rule.id ∧ run.investmentId.isSome) ↔
        CatchSilent (services rule.id) invoice rule) := by
    intro rule hrule hwrites
    have hall : (evaluateInvoice services rules invoice).1 =
        (rules.matching invoice).map fun rule =>
          (executeRule (services rule.id) invoice rule).1 := by
      refine (forEach_eq_map_iff _ (rules.matching invoice)).2 fun other hother => ?_
      exact completes_iff.2 (hwrites other hother)
    rw [hall, recorded_map hids hrule]
    simp only [run_of_map hids hrule]
    exact executions_right_iff
  constructor
  · intro hkept
    have hattempted := fun rule hrule => (hkept rule hrule).attempted
    have hwrites := (attempted_iff hids).1 hattempted
    refine ⟨hattempted, fun rule hrule => ?_⟩
    exact (hbooks rule hrule hwrites).1 ⟨(hkept rule hrule).atMostOne, (hkept rule hrule).truthful⟩
  · rintro ⟨hattempted, hsilent⟩ rule hrule
    have hwrites := (attempted_iff hids).1 hattempted
    obtain ⟨hone, htruthful⟩ := (hbooks rule hrule hwrites).2 (hsilent rule hrule)
    exact ⟨hattempted rule hrule, hone, htruthful⟩

/-! ## A failing write after an investment -/

def eagerRule : AutoInvestRule :=
  { id := 1
    investorId := 5
    category := none
    minYield := 0
    maxFaceValue := 100000000
    riskTier := none
    maxPerInvoice := 5000000
    minWalletBalance := 0
    enabled := true }

def publishedInvoice : RatedInvoice :=
  { fundedInvoice with
    fundedAmount := 0, status := .published, category := none, riskScore := none }

/-- Only the write of the executed row fails. -/
def lockedOut : Services :=
  { findOneBy := fun _ => .ok (some { stellarAddress := "GINVESTOR" })
    getBalance := fun _ => .ok 500
    createInvestment := fun _ => .created 9
    save := fun _ => .refused (.error "connection terminated")
    saveInCatch := fun _ => .stored }

/-- The investment exists and its rule is recorded as failed. -/
theorem failedWrite_hidesInvestment :
    ¬∀ (services : Uuid → Services) (rules : RuleTable) (invoice : RatedInvoice),
      ∀ rule ∈ rules.matching invoice,
        BooksKept (evaluateInvoice services rules invoice).1 rule.id := by
  intro hall
  have hkept := hall (fun _ => lockedOut) ⟨[eagerRule], by simp⟩ publishedInvoice eagerRule
    (by decide +kernel)
  have hruns : (evaluateInvoice (fun _ => lockedOut) ⟨[eagerRule], by simp⟩ publishedInvoice).1 =
      [{ ruleId := 1
         investmentId := some 9
         executions := [execution eagerRule publishedInvoice .failed
          (some "connection terminated")] }] := by
    decide +kernel
  rw [hruns] at hkept
  have htruthful := hkept.truthful _ (List.mem_singleton.2 rfl)
  simp [execution, eagerRule] at htruthful

end StellarSettle.AutoInvestRules
