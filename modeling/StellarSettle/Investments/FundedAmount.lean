import StellarSettle.Core.TransitionSystem
import StellarSettle.Investments.InvestmentService
import StellarSettle.Investments.InvoiceRefund

/-!
# The funded amount under investments and refunds

Sequences of calls on one invoice, each from start to end.  Both funding paths
keep `fundedAmount` in step with the investments; `refundInvestment` removes a row
and leaves the counter alone, in statements that commit one by one.
-/

namespace StellarSettle.FundedAmount

open StellarSettle.Checks
open StellarSettle.Entities
open StellarSettle.InvestmentService
open StellarSettle.InvoiceLifecycle
open StellarSettle.InvoiceRefund
open StellarSettle.TransitionSystem

/-! ## Sequences of calls -/

inductive Operation where
  | investInInvoice (input : InvestInInvoiceInput) (id : Uuid) (now : Timestamp)
  | createInvestment (input : CreateInvestmentInput) (id : Uuid) (now : Timestamp)
  | refundInvestment (walletAddress : String) (now : Timestamp) (failure : RefundFailure)

/-- A funding call is one transaction: it leaves the rows alone when it throws. -/
def committed (db : Database) (result : Except Thrown Database) : Database :=
  match result with
  | .error _ => db
  | .ok after => after

def apply (db : Database) : Operation → Database
  | .investInInvoice input id now => committed db (investInInvoice db input id now)
  | .createInvestment input id now => committed db (createInvestment db input id now)
  | .refundInvestment walletAddress now failure =>
      (InvoiceRefund.refundInvestment db walletAddress now failure).1

def step (db : Database) (operation : Operation) : Option Database := some (apply db operation)

/-! ## The condition -/

/-- The call ends before it removes anything. -/
def RefundRejected (db : Database) (walletAddress : String) (now : Timestamp)
    (failure : RefundFailure) : Prop :=
  (∃ cause ∈ failure, cause.1.beforeRemoval = true) ∨ db.invoice = none ∨
    findWalletInvestment db walletAddress = none ∨ canRefund db now ≠ none

/-- The investment is the only one left. -/
def LastInvestment (db : Database) (investment : Investment) : Prop :=
  ∀ row ∈ db.investments, row.id = investment.id

/-- The call removes a row that counts for nothing, and goes through. -/
def RefundEmpty (db : Database) (walletAddress : String) (failure : RefundFailure) : Prop :=
  ∃ investment ∈ findWalletInvestment db walletAddress,
    (∀ row ∈ db.investments, row.id = investment.id → activeAmount row = 0) ∧
    (∀ cause ∈ failure, cause.1 ≠ .count) ∧
    (LastInvestment db investment →
      (∀ cause ∈ failure, cause.1 ≠ .save) ∧
        ∀ invoice ∈ db.invoice, ∃ saved,
          persistInvoice invoice { invoice with status := .cancelled } = .ok saved)

/-- The calls that keep the counter: investments whose sum rounds once, and
refunds that take nothing away. -/
def KeepsCounter (db : Database) : Operation → Prop
  | .investInInvoice _ _ _ => True
  | .createInvestment input _ _ =>
      ∀ invoice ∈ db.invoice, ¬CounterCarried db.investments invoice input.investmentAmount
  | .refundInvestment walletAddress now failure =>
      RefundRejected db walletAddress now failure ∨ RefundEmpty db walletAddress failure

/-! ## Refunds -/

theorem runStatement_eq_ok {failure : RefundFailure} {statement : RefundStatement}
    {result : Unit} :
    runStatement failure statement = .ok result ↔ ∀ cause ∈ failure, cause.1 ≠ statement := by
  cases failure with
  | none => simp [runStatement]
  | some cause => simp [runStatement]

theorem checkRefund_eq_ok {db : Database} {walletAddress : String} {now : Timestamp}
    {failure : RefundFailure} {invoice : Invoice} {investment : Investment}
    (hok : checkRefund db walletAddress now failure = .ok (invoice, investment)) :
    db.invoice = some invoice ∧ findWalletInvestment db walletAddress = some investment ∧
      ¬RefundRejected db walletAddress now failure := by
  simp only [checkRefund, bind_eq_ok, runStatement_eq_ok, orThrow_eq_ok, throwIf_eq_ok,
    pure_eq_ok, Prod.mk.injEq, exists_const] at hok
  obtain ⟨hfind, found, hfound, hlookup, held, hheld, hcheck, hallowed, hremove, rfl, rfl⟩ := hok
  refine ⟨hfound, hheld, ?_⟩
  rintro (⟨cause, hcause, hbefore⟩ | hmissing | hmissing | hrefused)
  · cases hstatement : cause.1 with
    | findInvoice => exact hfind cause hcause hstatement
    | findInvestment => exact hlookup cause hcause hstatement
    | canRefund => exact hcheck cause hcause hstatement
    | remove => exact hremove cause hcause hstatement
    | count => simp [hstatement, RefundStatement.beforeRemoval] at hbefore
    | save => simp [hstatement, RefundStatement.beforeRemoval] at hbefore
  · rw [hfound] at hmissing
    cases hmissing
  · rw [hheld] at hmissing
    cases hmissing
  · exact hrefused (by simpa using hallowed)

theorem activeTotal_removeInvestment {investments : List Investment} {investment : Investment}
    (hempty : ∀ row ∈ investments, row.id = investment.id → activeAmount row = 0) :
    activeTotal (investments.filter fun row => row.id != investment.id) =
      activeTotal investments := by
  induction investments with
  | nil => rfl
  | cons row rest ih =>
      have hrest := ih fun other hmem => hempty other (List.mem_cons_of_mem _ hmem)
      by_cases hremoved : row.id = investment.id
      · rw [List.filter_cons_of_neg (by simpa using hremoved), hrest, activeTotal_cons,
          hempty row List.mem_cons_self hremoved, zero_add]
      · rw [List.filter_cons_of_pos (by simpa using hremoved), activeTotal_cons,
          activeTotal_cons, hrest]

/-- A refund that goes through and removes nothing of value. -/
theorem finishRefund_of_refundEmpty {exact : Prop} {db : Database} {walletAddress : String}
    {failure : RefundFailure} {invoice : Invoice} {investment : Investment}
    (hinvoice : db.invoice = some invoice) (hcovers : Covers exact db.investments invoice)
    (hheld : findWalletInvestment db walletAddress = some investment)
    (hempty : RefundEmpty db walletAddress failure) :
    ∃ after, finishRefund (removeInvestment db investment) invoice failure = .ok after ∧
      Covered exact after := by
  obtain ⟨found, hfound, hworthless, hcount, hlast⟩ := hempty
  obtain rfl : investment = found := Option.some.inj (hheld.symm.trans hfound)
  have hremoved : Covers exact (removeInvestment db investment).investments invoice := by
    have hsum := activeTotal_removeInvestment hworthless
    exact
      { storable := hcovers.storable
        nonneg := fun row hmem => hcovers.nonneg row (List.mem_of_mem_filter hmem)
        covered := hsum.trans_le hcovers.covered
        exactly := fun hholds => hsum.trans (hcovers.exactly hholds) }
  have hcounted : runStatement failure .count = .ok () := runStatement_eq_ok.mpr hcount
  rw [finishRefund, hcounted, ok_bind]
  split
  · rename_i hnone
    have honly : LastInvestment db investment := fun row hmem => by
      by_contra hother
      have hkept : row ∈ (removeInvestment db investment).investments :=
        List.mem_filter.mpr ⟨hmem, by simpa using hother⟩
      rw [hnone] at hkept
      cases hkept
    obtain ⟨hsave, hcancel⟩ := hlast honly
    obtain ⟨saved, hsaved⟩ := hcancel invoice hinvoice
    obtain ⟨hstorable, hfunded, _⟩ := persistInvoice_later hsaved hcovers.storable rfl
    have hsaving : runStatement failure .save = .ok () := runStatement_eq_ok.mpr hsave
    have hrow : (removeInvestment db investment).invoice = some invoice := hinvoice
    refine ⟨{ removeInvestment db investment with invoice := some saved }, ?_, saved, rfl,
      { storable := hstorable
        nonneg := hremoved.nonneg
        covered := hremoved.covered.trans_eq hfunded.symm
        exactly := fun hholds => (hremoved.exactly hholds).trans hfunded.symm }⟩
    rw [hsaving, ok_bind, cancelInvoice, hrow, orThrow_some, ok_bind, hsaved]
    rfl
  · exact ⟨_, rfl, invoice, hinvoice, hremoved⟩

/-- A refund that keeps the counter leaves the rows alone when it throws. -/
theorem refundInvestment_of_keepsCounter {exact : Prop} {db : Database}
    {walletAddress : String} {now : Timestamp} {failure : RefundFailure}
    (hcovered : Covered exact db)
    (hkeeps : RefundRejected db walletAddress now failure ∨
      RefundEmpty db walletAddress failure) :
    Covered exact (refundInvestment db walletAddress now failure).1 ∧
      ∀ thrown, (refundInvestment db walletAddress now failure).2 = .error thrown →
        (refundInvestment db walletAddress now failure).1 = db := by
  rw [refundInvestment]
  cases hcheck : checkRefund db walletAddress now failure with
  | error thrown => exact ⟨hcovered, fun _ _ => rfl⟩
  | ok found =>
      obtain ⟨invoice, investment⟩ := found
      obtain ⟨hinvoice, hheld, haccepted⟩ := checkRefund_eq_ok hcheck
      obtain ⟨row, hrow, hcovers⟩ := hcovered
      obtain rfl : row = invoice := Option.some.inj (hrow.symm.trans hinvoice)
      obtain ⟨after, hafter, hcoveredAfter⟩ :=
        finishRefund_of_refundEmpty hinvoice hcovers hheld (hkeeps.resolve_left haccepted)
      dsimp only
      rw [hafter]
      exact ⟨hcoveredAfter, fun _ hthrown => by cases hthrown⟩

/-! ## Every sequence of calls -/

theorem covered_step {exact : Prop} {db after : Database} {operation : Operation}
    (hguard : KeepsCounter db operation) (hstep : step db operation = some after)
    (hcovered : Covered exact db) : Covered exact after := by
  obtain rfl := Option.some.inj hstep
  cases operation with
  | investInInvoice input id now =>
      simp only [apply]
      cases hcall : investInInvoice db input id now with
      | error thrown => exact hcovered
      | ok after => exact covered_of_investInInvoice hcovered hcall
  | createInvestment input id now =>
      simp only [apply]
      cases hcall : createInvestment db input id now with
      | error thrown => exact hcovered
      | ok after => exact covered_of_createInvestment hcovered (fun _ => hguard) hcall
  | refundInvestment walletAddress now failure =>
      exact (refundInvestment_of_keepsCounter hcovered hguard).1

/-- While every call keeps the counter, it is the sum of the active investments
after each of them, and a refund that throws has changed nothing. -/
theorem funded_eq_activeTotal {first last : Database} {operations : List Operation}
    (hinitial : Covered True first)
    (hrun : GuardedRun step KeepsCounter first operations last) :
    (∃ invoice, last.invoice = some invoice ∧
      invoice.fundedAmount = activeTotal last.investments) ∧
    ∀ walletAddress now failure thrown,
      KeepsCounter last (.refundInvestment walletAddress now failure) →
      (refundInvestment last walletAddress now failure).2 = .error thrown →
        (refundInvestment last walletAddress now failure).1 = last := by
  have hcovered : Covered True last := hrun.invariant covered_step hinitial
  refine ⟨?_, fun walletAddress now failure thrown hkeeps => ?_⟩
  · obtain ⟨invoice, hinvoice, hcovers⟩ := hcovered
    exact ⟨invoice, hinvoice, (hcovers.exactly trivial).symm⟩
  · exact (refundInvestment_of_keepsCounter hcovered hkeeps).2 thrown

/-! ## A refund of a pending investment -/

def invested : Operation := .createInvestment wholeInvestment 1 0

def connectionLost : Thrown := .error "Connection terminated unexpectedly"

/-- The refund leaves its amount in the counter, and a refund that fails in its
last statement has removed the investment. -/
theorem refundedInvestment_still_counted :
    (exec step openDatabase [invested, .refundInvestment "GINVESTOR" 0 none]).map (fun db =>
      (db.invoice.map Invoice.fundedAmount, activeTotal db.investments)) = some (some 10000, 0) ∧
    (refundInvestment (apply openDatabase invested) "GINVESTOR" 0
      (some (.save, connectionLost))).2 = .error connectionLost ∧
    (refundInvestment (apply openDatabase invested) "GINVESTOR" 0
      (some (.save, connectionLost))).1.investments ≠
        (apply openDatabase invested).investments := by
  refine ⟨?_, ?_, ?_⟩ <;> decide +kernel

/-- An investment, and a refund for a wallet without one. -/
theorem refusedRefund_counter_exact :
    ∃ last, GuardedRun step KeepsCounter openDatabase
        [invested, .refundInvestment "GOTHER" 0 none] last ∧
      ∃ invoice, last.invoice = some invoice ∧
        invoice.fundedAmount = activeTotal last.investments := by
  have hinvested : KeepsCounter openDatabase invested := by
    change ∀ invoice ∈ openDatabase.invoice, ¬CounterCarried _ _ _
    decide +kernel
  have hrefused : KeepsCounter (apply openDatabase invested)
      (.refundInvestment "GOTHER" 0 none) := by
    refine .inl (.inr (.inr (.inl ?_)))
    decide +kernel
  have hrun : GuardedRun step KeepsCounter openDatabase
      [invested, .refundInvestment "GOTHER" 0 none] _ :=
    .cons hinvested rfl (.cons hrefused rfl (.nil _))
  exact ⟨_, hrun, (funded_eq_activeTotal covered_openDatabase hrun).1⟩

end StellarSettle.FundedAmount
