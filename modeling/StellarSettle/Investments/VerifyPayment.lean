import StellarSettle.Core.Checks
import StellarSettle.Model.Entities

/-!
# Payment verification

`VerifyPaymentService.verifyPayment` looks the investment up, finds the matching
Stellar payment and confirms the investment in a transaction of its own.  The
rows that transaction reads are not locked, so its checks and its writes are two
steps.  The payment that Horizon reports is an input.
-/

namespace StellarSettle.VerifyPayment

open StellarSettle.Checks
open StellarSettle.Entities

structure PaymentVerificationInput where
  investmentId : Uuid
  stellarTxHash : String
  operationIndex : Option ℕ := none
  deriving DecidableEq, Repr

/-- The payment operation that matched. -/
structure PaymentMatch where
  operationIndex : ℕ
  sourceAccount : String
  deriving DecidableEq, Repr

def investmentNotFound : ServiceError :=
  { code := .investmentNotFound, message := "Investment not found.", statusCode := 404 }

def reconciliationConflict (message : String) : ServiceError :=
  { code := .reconciliationConflict, message := message, statusCode := 409 }

def sourceAccountMismatch : ServiceError :=
  { code := .invalidPayment
    message := "The Stellar payment source account does not match the investment wallet."
    statusCode := 422 }

def stellarPaymentAlreadyUsed : ServiceError :=
  { code := .stellarPaymentAlreadyUsed
    message := "This Stellar payment operation has already been claimed."
    statusCode := 409 }

/-- The look-up before the payment is fetched: whether there is anything left to
verify. -/
def needsVerification (db : Database) (input : PaymentVerificationInput) :
    Except Thrown Bool := do
  let investment ← orThrow (db.findInvestment input.investmentId) (.service investmentNotFound)
  if investment.status = .confirmed then
    throwIf (¬(investment.transactionHash = some input.stellarTxHash ∧
        investment.stellarOperationIndex =
          input.operationIndex.or investment.stellarOperationIndex))
      (.service (reconciliationConflict
        "Investment is already confirmed with a different Stellar payment."))
    return false
  else return true

/-- The rows that the transaction saves. -/
structure VerificationWrites where
  investment : Investment
  transaction : Transaction
  deriving DecidableEq, Repr

def linkedTransactions (db : Database) (investmentId : Uuid) : List Transaction :=
  db.transactions.filter fun transaction => transaction.investmentId == some investmentId

def verifiedInvestment (input : PaymentVerificationInput) (matchedPayment : PaymentMatch)
    (investment : Investment) : Investment :=
  { investment with
    status := .confirmed
    transactionHash := some input.stellarTxHash
    stellarOperationIndex := some matchedPayment.operationIndex }

/-- The transaction as it is saved: its hook puts the hash in upper case. -/
def verifiedTransaction (input : PaymentVerificationInput) (matchedPayment : PaymentMatch)
    (investment : Investment) : Transaction :=
  { userId := some investment.investorId
    investmentId := some investment.id
    type := .investment
    amount := investment.investmentAmount
    stellarTxHash := some input.stellarTxHash.toUpper
    stellarOperationIndex := some matchedPayment.operationIndex
    status := .completed }

/-- The checks of the transaction, up to its writes; nothing is written for a
payment that is verified already.  `claimedElsewhere` says that another
investment has claimed the payment operation. -/
def readVerification (db : Database) (input : PaymentVerificationInput)
    (matchedPayment : PaymentMatch) (claimedElsewhere : Bool) :
    Except Thrown (Option VerificationWrites) := do
  let investment ← orThrow (db.findInvestment input.investmentId) (.service investmentNotFound)
  throwIf (investment.investorWallet ≠ some matchedPayment.sourceAccount)
    (.service sourceAccountMismatch)
  let linked := linkedTransactions db investment.id
  throwIf (1 < linked.length)
    (.service (reconciliationConflict
      "Multiple transaction rows are linked to the same investment."))
  if investment.status = .confirmed then
    throwIf (¬(investment.transactionHash = some input.stellarTxHash ∧
        investment.stellarOperationIndex = some matchedPayment.operationIndex))
      (.service (reconciliationConflict
        ("Investment was confirmed by another transaction while verification was in " ++
          "progress.")))
    return none
  else
    throwIf (linked.any fun transaction =>
        transaction.stellarTxHash.any fun hash => hash != "" && hash != input.stellarTxHash)
      (.service (reconciliationConflict
        "Transaction row is already linked to a different Stellar hash."))
    throwIf (claimedElsewhere = true) (.service stellarPaymentAlreadyUsed)
    return some {
      investment := verifiedInvestment input matchedPayment investment
      transaction := verifiedTransaction input matchedPayment investment }

/-- The two saves and the commit. -/
def commitVerification (db : Database) (writes : VerificationWrites) : Database :=
  { db with
    investments := saveInvestment db.investments writes.investment
    transactions :=
      if linkedTransactions db writes.investment.id = [] then
        db.transactions ++ [writes.transaction]
      else
        db.transactions.map fun transaction =>
          if transaction.investmentId = some writes.investment.id then writes.transaction
          else transaction }

/-- The saved investment is always confirmed. -/
theorem confirmed_of_readVerification {db : Database} {input : PaymentVerificationInput}
    {matchedPayment : PaymentMatch} {claimedElsewhere : Bool} {writes : VerificationWrites}
    (hread : readVerification db input matchedPayment claimedElsewhere = .ok (some writes)) :
    writes.investment.status = .confirmed := by
  obtain ⟨investment, _, hrest⟩ := bind_eq_ok.mp hread
  obtain ⟨_, _, hrest⟩ := bind_eq_ok.mp hrest
  obtain ⟨_, _, hrest⟩ := bind_eq_ok.mp hrest
  split at hrest
  · obtain ⟨_, _, hnone⟩ := bind_eq_ok.mp hrest
    cases hnone
  · obtain ⟨_, _, hrest⟩ := bind_eq_ok.mp hrest
    obtain ⟨_, _, hsome⟩ := bind_eq_ok.mp hrest
    obtain rfl := Option.some.inj (pure_eq_ok.mp hsome)
    rfl

end StellarSettle.VerifyPayment
