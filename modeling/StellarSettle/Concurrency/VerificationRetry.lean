import StellarSettle.Concurrency.PaymentVerification

/-!
# A verification made again

A whole call of `verifyPayment` with no other call in between, made after another
call has confirmed the investment.  The claim table spells a hash in upper case;
the checks on the investment compare the hash as it was sent.
-/

namespace StellarSettle.VerificationRetry

open StellarSettle.Checks
open StellarSettle.Entities
open StellarSettle.KeyedRows
open StellarSettle.PaymentVerification
open StellarSettle.StellarPaymentClaims (toList_upper upper)
open StellarSettle.TransitionSystem
open StellarSettle.VerifyPayment

/-! ## One call on its own -/

/-- What a call returns; `status` is always CONFIRMED and is left out. -/
structure PaymentVerificationResult where
  outcome : VerificationOutcome
  investmentId : Uuid
  stellarTxHash : String
  operationIndex : ℕ
  transactionId : Option Uuid
  deriving DecidableEq, Repr

/-- The answer of the look-up before the payment is fetched. -/
def earlierVerification (tables : PaymentTables) (input : PaymentVerificationInput) :
    PaymentVerificationResult :=
  let storedIndex := (tables.findInvestment input.investmentId).bind
    Investment.stellarOperationIndex
  { outcome := .alreadyVerified
    investmentId := input.investmentId
    stellarTxHash := input.stellarTxHash
    operationIndex := (storedIndex.or input.operationIndex).getD 0
    transactionId := none }

/-- The statements of the transaction, one after the other. -/
def verifyInTransaction (tables : PaymentTables) (input : PaymentVerificationInput)
    (matchedPayment : PaymentMatch) (newId : Uuid) :
    Except Thrown (PaymentVerificationResult × PaymentTables) := do
  let investment ← readInvestment tables input matchedPayment
  let check ← readTransactions tables input matchedPayment investment
  let result := fun outcome transactionId =>
    ({ outcome := outcome
       investmentId := investment.id
       stellarTxHash := input.stellarTxHash
       operationIndex := matchedPayment.operationIndex
       transactionId := transactionId } : PaymentVerificationResult)
  match check with
  | .alreadyVerified =>
      return (result .alreadyVerified
        ((tables.linkedTransactions investment.id).head?.map StoredTransaction.id), tables)
  | .ready existing =>
      let operation := claimedOperation input matchedPayment
      let missing ← findClaim tables operation investment.id
      if missing then insertClaim tables operation
      let committed ←
        commitVerification tables input matchedPayment investment existing missing newId
      return (result .verified
        (savedTransaction input matchedPayment investment existing newId).id, committed)

/-- `verifyPayment`; `fetched` is what `fetchAndValidatePayment` makes of Horizon's
answer. -/
def verifyPayment (tables : PaymentTables) (input : PaymentVerificationInput)
    (fetched : Except Thrown PaymentMatch) (newId : Uuid) :
    Except Thrown (PaymentVerificationResult × PaymentTables) := do
  let needed ← lookUp tables input
  if needed then
    let matchedPayment ← fetched
    verifyInTransaction tables input matchedPayment newId
  else return (earlierVerification tables input, tables)

/-- A confirmed investment decides the call before the payment is fetched. -/
theorem verifyPayment_of_confirmed {tables : PaymentTables} {input : PaymentVerificationInput}
    {fetched : Except Thrown PaymentMatch} {newId : Uuid} {investment : Investment}
    (hfound : tables.findInvestment input.investmentId = some investment)
    (hconfirmed : investment.status = .confirmed) :
    verifyPayment tables input fetched newId =
      if investment.transactionHash = some input.stellarTxHash ∧
          investment.stellarOperationIndex =
            input.operationIndex.or investment.stellarOperationIndex then
        .ok (earlierVerification tables input, tables)
      else .error (.service (reconciliationConflict
        "Investment is already confirmed with a different Stellar payment.")) := by
  have hlookUp : lookUp tables input =
      if investment.transactionHash = some input.stellarTxHash ∧
          investment.stellarOperationIndex =
            input.operationIndex.or investment.stellarOperationIndex then
        .ok false
      else .error (.service (reconciliationConflict
        "Investment is already confirmed with a different Stellar payment.")) := by
    have hrow : (Database.mk none [] tables.investments none [] [] [] [] [] [] []).findInvestment
        input.investmentId = some investment := hfound
    rw [lookUp, needsVerification, hrow, orThrow_some, ok_bind, if_pos hconfirmed]
    split
    · rename_i hsame
      rw [throwIf_neg (not_not.mpr hsame), ok_bind]
      rfl
    · rename_i hother
      rw [throwIf_pos hother, error_bind]
  rw [verifyPayment, hlookUp]
  split
  · rfl
  · rfl

/-- A hash that is not the stored one, compared as spelled. -/
theorem verifyPayment_of_otherHash {tables : PaymentTables} {input : PaymentVerificationInput}
    {fetched : Except Thrown PaymentMatch} {newId : Uuid} {investment : Investment}
    (hfound : tables.findInvestment input.investmentId = some investment)
    (hconfirmed : investment.status = .confirmed)
    (hother : investment.transactionHash ≠ some input.stellarTxHash) :
    verifyPayment tables input fetched newId =
      .error (.service (reconciliationConflict
        "Investment is already confirmed with a different Stellar payment.")) := by
  rw [verifyPayment_of_confirmed hfound hconfirmed, if_neg fun hsame => hother hsame.1]

/-! ## The investment that a call is about -/

/-- A transaction works on the investment that its call names. -/
def ReadsOwn : Process → Prop
  | .verifyPayment input (.readTransactions _ investment) => investment.id = input.investmentId
  | .verifyPayment input (.findClaim _ investment _) => investment.id = input.investmentId
  | .verifyPayment input (.insertClaim _ investment _) => investment.id = input.investmentId
  | .verifyPayment input (.commit _ investment _ _) => investment.id = input.investmentId
  | _ => True

theorem readsOwn_of_advance {environment : Environment} {tables : PaymentTables}
    {process : Process} {outcome : Outcome} (howns : ReadsOwn process)
    (hadvance : advance environment tables process = some outcome) :
    ReadsOwn outcome.process := by
  cases process with
  | idle => cases hadvance
  | finished result => cases hadvance
  | verifyPayment input stage =>
      obtain rfl := Option.some.inj hadvance
      -- A call that ends is about no investment any more.
      have hended : ∀ thrown, ReadsOwn
          (Outcome.process { tables := tables, process := .finished (.error thrown) }) :=
        fun _ => trivial
      cases stage with
      | find =>
          refine Outcome.attempt_rule (P := fun outcome => ReadsOwn outcome.process) hended
            fun needed _ => ?_
          cases needed <;> trivial
      | fetched =>
          refine Outcome.attempt_rule (P := fun outcome => ReadsOwn outcome.process) hended
            fun investment hread => ?_
          obtain ⟨found, hfound, hrest⟩ := bind_eq_ok.mp hread
          obtain ⟨_, _, hsame⟩ := bind_eq_ok.mp hrest
          obtain rfl := pure_eq_ok.mp hsame
          have hkey := List.find?_some (orThrow_eq_ok.mp hfound)
          exact eq_of_beq hkey
      | readTransactions matchedPayment investment =>
          refine Outcome.attempt_rule (P := fun outcome => ReadsOwn outcome.process) hended
            fun check _ => ?_
          cases check with
          | alreadyVerified => trivial
          | ready existing => exact howns
      | findClaim matchedPayment investment existing =>
          refine Outcome.attempt_rule (P := fun outcome => ReadsOwn outcome.process) hended
            fun missing _ => ?_
          cases missing
          · exact howns
          · exact howns
      | insertClaim matchedPayment investment existing =>
          exact Outcome.attempt_rule (P := fun outcome => ReadsOwn outcome.process) hended
            fun _ _ => howns
      | commit matchedPayment investment existing inserted =>
          exact Outcome.attempt_rule (P := fun outcome => ReadsOwn outcome.process) hended
            fun _ _ => trivial

def OwnReads (world : World) : Prop := ∀ index, ReadsOwn (world.process index)

theorem OwnReads.step {before after : World} {event : Event} (howns : OwnReads before)
    (hstep : PaymentVerification.step before event = some after) : OwnReads after := by
  rcases step_cases hstep with ⟨input, rfl⟩ | ⟨thrown, rfl⟩ |
    ⟨environment, outcome, _, _, hadvance, rfl⟩
  · exact forall_setProcess (P := fun _ process => ReadsOwn process) trivial
      fun other _ => howns other
  · exact forall_setProcess (P := fun _ process => ReadsOwn process) trivial
      fun other _ => howns other
  · exact forall_setProcess (P := fun _ process => ReadsOwn process)
      (readsOwn_of_advance (howns _) hadvance) fun other _ => howns other

theorem ownReads_of_run {first last : World} {events : List Event} (hinitial : Initial first)
    (hrun : Run step first events last) : OwnReads last := by
  refine hrun.invariant (fun _ hstep howns => howns.step hstep) fun index => ?_
  rw [hinitial.allIdle]
  trivial

/-! ## The retry -/

/-- A call returned `verified`: the step that ended it committed its transaction. -/
structure ReturnedVerified (before after : World) (index : ℕ) (call : PaymentVerificationInput)
    (matchedPayment : PaymentMatch) : Prop where
  committing : ∃ investment existing inserted,
    before.process index =
      .verifyPayment call (.commit matchedPayment investment existing inserted)
  committed : ∃ environment, step before ⟨index, .advance environment⟩ = some after
  verified : after.process index = .finished (.ok .verified)

/-- The row that a verified call leaves. -/
theorem findInvestment_of_verified {first before after : World} {events : List Event}
    {index : ℕ} {call : PaymentVerificationInput} {matchedPayment : PaymentMatch}
    (hinitial : Initial first) (hrun : Run step first events before)
    (hreturned : ReturnedVerified before after index call matchedPayment) :
    ∃ investment, after.tables.findInvestment call.investmentId = some investment ∧
      investment.status = .confirmed ∧
      investment.transactionHash = some call.stellarTxHash ∧
      investment.stellarOperationIndex = some matchedPayment.operationIndex := by
  obtain ⟨investment, existing, inserted, hprocess⟩ := hreturned.committing
  obtain ⟨environment, hstep⟩ := hreturned.committed
  have howns := ownReads_of_run hinitial hrun index
  rw [hprocess] at howns
  have hadvanced : step before ⟨index, .advance environment⟩ =
      some (before.apply index (advanceVerification call environment before.tables
        (.commit matchedPayment investment existing inserted))) := by
    simp [step, hprocess, needsKey, advance]
  obtain rfl := Option.some.inj (hstep.symm.trans hadvanced)
  have hverified := hreturned.verified
  rw [advanceVerification] at hverified ⊢
  cases hcommit : PaymentVerification.commitVerification before.tables call matchedPayment
      investment existing inserted environment.newId with
  | error thrown => simp [hcommit, Outcome.attempt, World.apply] at hverified
  | ok committed =>
      refine ⟨verifiedInvestment call matchedPayment investment, ?_, rfl, rfl, rfl⟩
      obtain ⟨_, rfl⟩ := commitVerification_eq_ok.mp hcommit
      have hsaved : findRow Investment.id (saveRow Investment.id before.tables.investments
          (verifiedInvestment call matchedPayment investment))
          (verifiedInvestment call matchedPayment investment).id =
            some (verifiedInvestment call matchedPayment investment) := findRow_saveRow_self
      have hid : (verifiedInvestment call matchedPayment investment).id = call.investmentId :=
        howns
      rw [hid] at hsaved
      exact hsaved

/-- After a call that returned `verified`, and with its investment unchanged, a call
with no operation index or the same one is answered `already_verified`, and changes
nothing, exactly when it spells the hash the same way. -/
theorem retry_alreadyVerified_iff {first before after : World} {events : List Event}
    {index : ℕ} {call retry : PaymentVerificationInput} {matchedPayment : PaymentMatch}
    {later : PaymentTables} {fetched : Except Thrown PaymentMatch} {newId : Uuid}
    (hinitial : Initial first) (hrun : Run step first events before)
    (hreturned : ReturnedVerified before after index call matchedPayment)
    (hunchanged : later.findInvestment call.investmentId =
      after.tables.findInvestment call.investmentId)
    (hinvestment : retry.investmentId = call.investmentId)
    (hindex : retry.operationIndex = none ∨
      retry.operationIndex = some matchedPayment.operationIndex) :
    (∃ result, verifyPayment later retry fetched newId = .ok (result, later) ∧
        result.outcome = .alreadyVerified) ↔
      retry.stellarTxHash = call.stellarTxHash := by
  obtain ⟨investment, hfound, hconfirmed, hstoredHash, hstoredIndex⟩ :=
    findInvestment_of_verified hinitial hrun hreturned
  have hlater : later.findInvestment retry.investmentId = some investment := by
    rw [hinvestment, hunchanged, hfound]
  have hsameIndex : investment.stellarOperationIndex =
      retry.operationIndex.or investment.stellarOperationIndex := by
    rcases hindex with hnone | hsome
    · rw [hnone, Option.none_or]
    · rw [hsome, hstoredIndex, Option.some_or]
  constructor
  · intro hanswered
    by_contra hother
    have hotherHash : investment.transactionHash ≠ some retry.stellarTxHash := by
      rw [hstoredHash]
      exact fun hsame => hother (Option.some.inj hsame).symm
    obtain ⟨_, hreturned, _⟩ := hanswered
    rw [verifyPayment_of_otherHash hlater hconfirmed hotherHash] at hreturned
    cases hreturned
  · intro hsame
    have hsameHash : investment.transactionHash = some retry.stellarTxHash := by
      rw [hstoredHash, hsame]
    rw [verifyPayment_of_confirmed hlater hconfirmed, if_pos ⟨hsameHash, hsameIndex⟩]
    exact ⟨earlierVerification later retry, rfl, rfl⟩

/-! ## A payment verified once -/

def verifiedEvents : List Event :=
  [⟨0, .start ⟨3, "a1b2", none⟩⟩, ⟨0, .advance {}⟩, ⟨0, .advance (paidBy 0)⟩, ⟨0, .advance {}⟩,
    ⟨0, .advance {}⟩, ⟨0, .advance {}⟩]

/-- The investment as the verification leaves it. -/
def paidInvestment : Investment :=
  { awaitingInvestment 3 with
    status := .confirmed, transactionHash := some "a1b2", stellarOperationIndex := some 0 }

def Process.pendingCommit : Process → Option (PaymentVerificationInput × PaymentMatch)
  | .verifyPayment call (.commit matchedPayment _ _ _) => some (call, matchedPayment)
  | _ => none

def Process.answer : Process → Option VerificationOutcome
  | .finished (.ok outcome) => some outcome
  | _ => none

theorem exists_paidWorld : ∃ before after,
    Run step { tables := awaitingTables } verifiedEvents before ∧
      ReturnedVerified before after 0 ⟨3, "a1b2", none⟩ ⟨0, "GINVESTOR"⟩ ∧
      after.tables.findInvestment 3 = some paidInvestment := by
  have hpending : (exec step { tables := awaitingTables } verifiedEvents).map (fun world =>
      Process.pendingCommit (world.process 0)) =
        some (some (⟨3, "a1b2", none⟩, ⟨0, "GINVESTOR"⟩)) := by
    decide +kernel
  have hanswered : (exec step { tables := awaitingTables }
      (verifiedEvents ++ [⟨0, .advance (paidBy 7)⟩])).map (fun world =>
        (Process.answer (world.process 0), world.tables.findInvestment 3)) =
        some (some .verified, some paidInvestment) := by
    decide +kernel
  obtain ⟨after, hrun, hafter⟩ := exists_run hanswered
  obtain ⟨before, hbefore, _, hstep⟩ := hrun.last_event
  rw [hbefore, Option.map_some, Option.some.injEq] at hpending
  simp only [Prod.mk.injEq] at hafter
  refine ⟨before, after, run_of_exec hbefore, ⟨?_, ⟨_, hstep⟩, ?_⟩, hafter.2⟩
  · revert hpending
    cases hprocess : before.process 0 with
    | verifyPayment call stage =>
        cases stage with
        | commit matchedPayment investment existing inserted =>
            intro hpending
            simp only [Process.pendingCommit, Option.some.injEq, Prod.mk.injEq] at hpending
            obtain ⟨rfl, rfl⟩ := hpending
            exact ⟨investment, existing, inserted, rfl⟩
        | _ => intro hnone; cases hnone
    | _ => intro hnone; cases hnone
  · have hverified := hafter.1
    revert hverified
    cases hprocess : after.process 0 with
    | finished result =>
        cases result with
        | ok outcome =>
            intro hverified
            rw [Option.some.inj hverified]
        | error thrown => intro hnone; cases hnone
    | _ => intro hnone; cases hnone

/-- The same payment again, spelled the same way and named by its operation. -/
theorem sameSpelling_alreadyVerified : ∃ before after,
    Run step { tables := awaitingTables } verifiedEvents before ∧
      ReturnedVerified before after 0 ⟨3, "a1b2", none⟩ ⟨0, "GINVESTOR"⟩ ∧
      ∃ result, verifyPayment after.tables ⟨3, "a1b2", some 0⟩
          (.error (.error "fetch failed")) 9 = .ok (result, after.tables) ∧
        result.outcome = .alreadyVerified := by
  obtain ⟨before, after, hrun, hreturned, _⟩ := exists_paidWorld
  refine ⟨before, after, hrun, hreturned, ?_⟩
  refine (retry_alreadyVerified_iff initial_awaitingTables hrun hreturned ?_ ?_ ?_).mpr ?_
  · rfl
  · rfl
  · exact .inr rfl
  · rfl

/-- The hash as Horizon and the claim table spell it. -/
theorem upperCaseRetry_conflicts : ∃ before after,
    Run step { tables := awaitingTables } verifiedEvents before ∧
      ReturnedVerified before after 0 ⟨3, "a1b2", none⟩ ⟨0, "GINVESTOR"⟩ ∧
      upper "A1B2" = upper "a1b2" ∧
      verifyPayment after.tables ⟨3, "A1B2", none⟩ (.ok ⟨0, "GINVESTOR"⟩) 9 =
        .error (.service (reconciliationConflict
          "Investment is already confirmed with a different Stellar payment.")) := by
  obtain ⟨before, after, hrun, hreturned, hfound⟩ := exists_paidWorld
  have hsameUpper : upper "A1B2" = upper "a1b2" := by
    rw [← String.toList_inj, toList_upper, toList_upper]
    decide
  have hother : paidInvestment.transactionHash ≠ some "A1B2" := by decide
  exact ⟨before, after, hrun, hreturned, hsameUpper,
    verifyPayment_of_otherHash hfound rfl hother⟩

end StellarSettle.VerificationRetry
