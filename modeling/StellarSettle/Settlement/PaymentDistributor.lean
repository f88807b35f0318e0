import StellarSettle.Core.Checks
import StellarSettle.Model.Entities

/-!
# The payment distributor contract service

`distributePayouts` checks the recipients against the settlement total, builds
one transaction and submits it.  What the chain does with it is an input of the
model: a submission may land although the call throws.
-/

namespace StellarSettle.PaymentDistributor

open StellarSettle.Checks
open StellarSettle.Entities

def MAX_FEE_BPS : ℤ := 10000

structure PayoutRecipient where
  address : PayoutAddress
  amountStroops : ℤ
  deriving DecidableEq, Repr

structure DistributePayoutsInput where
  recipients : List PayoutRecipient
  totalAmountStroops : ℤ
  feeRecipient : String
  feeBps : ℤ
  deriving DecidableEq, Repr

def DistributePayoutsInput.recipientTotal (input : DistributePayoutsInput) : ℤ :=
  input.recipients.foldl (fun sum recipient => sum + recipient.amountStroops) 0

/-- The fee the distributor withholds, floored at stroop scale. -/
def DistributePayoutsInput.fee (input : DistributePayoutsInput) : ℤ :=
  (input.totalAmountStroops * input.feeBps).tdiv 10000

/-- The distributor's own arithmetic check. -/
def DistributePayoutsInput.WithinTotal (input : DistributePayoutsInput) : Prop :=
  input.recipientTotal + input.fee ≤ input.totalAmountStroops

instance (input : DistributePayoutsInput) : Decidable input.WithinTotal :=
  inferInstanceAs (Decidable (_ ≤ _))

/-- `buildDistributePayoutsTx`. -/
def buildDistributePayoutsTx (input : DistributePayoutsInput) : Except Thrown Unit := do
  throwIf (input.recipients = []) (.error "At least one payout recipient is required.")
  throwIf (input.feeBps < 0 ∨ MAX_FEE_BPS < input.feeBps)
    (.error "feeBps must be an integer between 0 and 10000.")

/-- Everything `distributePayouts` verifies before it submits. -/
def checkPayouts (input : DistributePayoutsInput) : Except Thrown Unit := do
  throwIf (¬input.WithinTotal)
    (.error "Payout recipients and protocol fee exceed the settlement total.")
  buildDistributePayoutsTx input

/-- One call of `distributePayouts`: whether its transaction landed on chain, and
what the call returned. -/
structure PayoutCall where
  input : DistributePayoutsInput
  landed : Bool
  result : Except Thrown TransactionHash

def distributePayouts (input : DistributePayoutsInput) (chain : ChainOutcome) : PayoutCall :=
  match chain, checkPayouts input with
  | .unconfigured thrown, _ => ⟨input, false, .error (.chain thrown)⟩
  | _, .error rejected => ⟨input, false, .error rejected⟩
  | .failed thrown, .ok () => ⟨input, false, .error (.chain thrown)⟩
  | .lost thrown, .ok () => ⟨input, true, .error (.chain thrown)⟩
  | .confirmed hash, .ok () => ⟨input, true, .ok hash⟩

theorem distributePayouts_input (input : DistributePayoutsInput) (chain : ChainOutcome) :
    (distributePayouts input chain).input = input := by
  cases chain <;> cases hcheck : checkPayouts input <;> simp [distributePayouts, hcheck]

/-- A call that returns a hash did land. -/
theorem landed_of_distributePayouts_eq_ok {input : DistributePayoutsInput}
    {chain : ChainOutcome} {hash : TransactionHash}
    (hok : (distributePayouts input chain).result = .ok hash) :
    (distributePayouts input chain).landed = true := by
  revert hok
  cases chain <;> cases hcheck : checkPayouts input <;> simp [distributePayouts, hcheck]

/-- An error of a call was raised by its checks or by the chain. -/
theorem distributePayouts_eq_error {input : DistributePayoutsInput} {chain : ChainOutcome}
    {thrown : Thrown} (herror : (distributePayouts input chain).result = .error thrown) :
    checkPayouts input = .error thrown ∨ ∃ raised, .chain raised = thrown := by
  revert herror
  cases chain <;> cases hcheck : checkPayouts input <;>
    simp [distributePayouts, hcheck] <;> grind

theorem recipientTotal_eq_sum (input : DistributePayoutsInput) :
    input.recipientTotal =
      (input.recipients.map fun recipient => recipient.amountStroops).sum := by
  have hfold : ∀ (recipients : List PayoutRecipient) (start : ℤ),
      recipients.foldl (fun sum recipient => sum + recipient.amountStroops) start =
        start + (recipients.map fun recipient => recipient.amountStroops).sum := by
    intro recipients
    induction recipients with
    | nil => simp
    | cons recipient rest ih =>
        intro start
        rw [List.foldl_cons, ih, List.map_cons, List.sum_cons, add_assoc]
  rw [DistributePayoutsInput.recipientTotal, hfold, zero_add]

end StellarSettle.PaymentDistributor
