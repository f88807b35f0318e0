import StellarSettle.Model.InvoiceLifecycle

/-!
# Investing in an invoice

The two funding paths of `InvestmentService`, statement by statement, so that
other transactions can run in between.  `investInInvoice` checks the stored
counter and advances it with a version-checked update; `createInvestment` locks
the row and checks the sum over the investments.  Amounts are finite numbers: any
other text ends a call before it writes.
-/

namespace StellarSettle.InvestmentService

open StellarSettle.Checks
open StellarSettle.DecimalJs
open StellarSettle.DecimalRounding
open StellarSettle.Entities
open StellarSettle.InvoiceLifecycle

/-! ## Inputs -/

structure InvestInInvoiceInput where
  investorId : Uuid
  walletAddress : String
  amount : Decimal
  ledgerSequence : Option ℕ := none
  deriving DecidableEq, Repr

structure CreateInvestmentInput where
  investorId : Uuid
  investmentAmount : Decimal
  investorWallet : String
  deriving DecidableEq, Repr

/-- Approximate Stellar ledger close time. -/
def FUNDING_WINDOW_MS : ℤ := 5000

def currentFundingWindow (now : Timestamp) : ℕ := (now / FUNDING_WINDOW_MS).toNat

def InvestInInvoiceInput.fundingBlock (input : InvestInInvoiceInput) (now : Timestamp) : ℕ :=
  input.ledgerSequence.getD (currentFundingWindow now)

/-! ## Errors -/

def invalidAmount (message : String) : ServiceError :=
  { code := .invalidAmount, message := message }

def invoiceNotFound : ServiceError :=
  { code := .invoiceNotFound, message := "Invoice not found", statusCode := 404 }

def invoiceNotOpenForInvestment (status : InvoiceStatus) : ServiceError :=
  { code := .invoiceNotOpenForInvestment
    message := s!"Cannot invest in an invoice with status {status.text}"
    statusCode := 422 }

/-- The status check of `createInvestment`. -/
def cannotInvest (status : InvoiceStatus) : ServiceError :=
  if status = .funded then
    { code := .insufficientCapacity, message := "Invoice is already fully funded" }
  else
    { code := .invalidInvoiceStatus
      message := s!"Cannot invest in an invoice with status {status.text}" }

def invoiceExpired : ServiceError :=
  { code := .invoiceExpired
    message := "Invoice has passed its due date and is no longer accepting investments"
    statusCode := 422 }

def fundingDeadlinePassed : ServiceError :=
  { code := .fundingDeadlinePassed, message := "Funding deadline has passed", statusCode := 422 }

def selfDealing (statusCode : ℕ) : ServiceError :=
  { code := .selfDealing
    message := "Investors cannot invest in their own invoices"
    statusCode := statusCode }

def duplicateInvestmentError (fundingBlock : ℕ) : ServiceError :=
  { code := .duplicateInvestment
    message := "This wallet has already invested in this invoice within the same block"
    statusCode := 409
    details := .fundingBlock fundingBlock }

def concurrentInvestmentConflict : ServiceError :=
  { code := .concurrentInvestmentConflict
    message := "Unable to process investment due to concurrent modifications. Please retry."
    statusCode := 409 }

/-! ## Shared statements -/

/-- Due date and funding deadline. -/
def checkDates (invoice : Invoice) (now : Timestamp) : Except Thrown Unit := do
  throwIf (invoice.dueDate.any fun day => isPastDueDate day now) (.service invoiceExpired)
  throwIf (invoice.fundingDeadline.any fun deadline => deadline < now)
    (.service fundingDeadlinePassed)

/-- `amount.times(faceAmount.dividedBy(netAmount)).toDecimalPlaces(4)`, as `toFixed(4)`
prints it. -/
def expectedReturn (amount : Decimal) (invoice : Invoice) : ℤ :=
  toFixed4 (times amount (dividedBy (ofUnits invoice.amount) (ofUnits invoice.netAmount)))

/-- The unique index on invoice, wallet and block; null columns never collide. -/
def sameBlock (row investment : Investment) : Bool :=
  row.investorWallet.isSome && row.investorWallet == investment.investorWallet &&
    (row.fundingBlock.isSome && row.fundingBlock == investment.fundingBlock)

/-- The two amounts fit their `decimal(18,4)` columns. -/
def FitsColumns (investment : Investment) : Prop :=
  |investment.investmentAmount| < 10 ^ 18 ∧ |investment.expectedReturn| < 10 ^ 18

instance (investment : Investment) : Decidable (FitsColumns investment) :=
  inferInstanceAs (Decidable (_ ∧ _))

/-- `manager.save(Investment, investment)` of a new row. -/
def insertInvestment (rows : List Investment) (investment : Investment) : Except Thrown Unit := do
  throwIf (rows.any fun row => sameBlock row investment)
    (.service (duplicateInvestmentError (investment.fundingBlock.getD 0)))
  throwIf (¬FitsColumns investment) (.error "QueryFailedError: numeric field overflow")

/-- What a funding transaction has written when it commits. -/
structure FundingWrites where
  invoice : Invoice
  investment : Investment
  history : List InvoiceStatusHistory
  deriving DecidableEq, Repr

def commitFunding (db : Database) (writes : FundingWrites) : Database :=
  { db with
    invoice := some writes.invoice
    investments := db.investments ++ [writes.investment]
    statusHistory := db.statusHistory ++ writes.history }

def fullyFunded (wallet : String) (newFunded : Decimal) : TransitionOptions :=
  { actor := { role := .system, wallet := some wallet }
    trigger := .fullyFunded
    context := { fundedAmount := some (toFixed4 newFunded) } }

/-! ## `investInInvoice` -/

def checkInvestAmount (amount : Decimal) : Except Thrown Unit := do
  throwIf (amount ≤ 0) (.service (invalidAmount "Investment amount must be greater than zero"))
  throwIf (decimalPlacesAtMost 4 amount = false)
    (.service (invalidAmount "Investment amount supports at most 4 decimal places"))

def insufficientCapacity (amount remaining : Decimal) : ServiceError :=
  { code := .insufficientCapacity
    message := s!"Investment amount {fixed4Text (toFixed4 amount)} exceeds remaining capacity " ++
      fixed4Text (toFixed4 remaining)
    statusCode := 422
    details := .remainingCapacity (toFixed4 remaining) }

/-- The read of the invoice, without a lock, and the checks on it. -/
def readInvoiceToInvest (db : Database) (input : InvestInInvoiceInput) (now : Timestamp) :
    Except Thrown Invoice := do
  let invoice ← orThrow db.invoice (.service invoiceNotFound)
  throwIf (invoice.status ≠ .published) (.service (invoiceNotOpenForInvestment invoice.status))
  checkDates invoice now
  throwIf (invoice.sellerId = some input.investorId) (.service (selfDealing 403))
  let remaining := max (minus (ofUnits invoice.netAmount) (ofUnits invoice.fundedAmount)) 0
  throwIf (remaining < input.amount) (.service (insufficientCapacity input.amount remaining))
  return invoice

def checkDuplicate (db : Database) (walletAddress : String) (fundingBlock : ℕ) :
    Except Thrown Unit :=
  throwIf (db.investments.any fun row =>
      row.investorWallet == some walletAddress && row.fundingBlock == some fundingBlock)
    (.service (duplicateInvestmentError fundingBlock))

/-- The conditional update: the row it leaves, or nothing when it matched none. -/
def advanceFundedAmount (row : Option Invoice) (version : ℕ) (amount : Decimal) :
    Except Thrown (Option Invoice) :=
  match row with
  | none => .ok none
  | some row =>
      if row.version = version ∧ row.status = .published ∧
          row.fundedAmount + toFixed4 amount ≤ row.netAmount then do
        let updated ← writeInvoice { row with
          fundedAmount := row.fundedAmount + toFixed4 amount
          version := row.version + 1 }
        return some updated
      else .ok none

/-- `funded.plus(amount)`. -/
def newFunded (invoice : Invoice) (amount : Decimal) : Decimal :=
  plus (ofUnits invoice.fundedAmount) amount

/-- The entity in memory, kept in step with the row just written. -/
def investedInvoice (invoice : Invoice) (amount : Decimal) : Invoice :=
  { invoice with
    fundedAmount := toFixed4 (newFunded invoice amount)
    version := invoice.version + 1 }

def investedShare (input : InvestInInvoiceInput) (fundingBlock : ℕ) (invoice : Invoice)
    (id : Uuid) : Investment :=
  { id := id
    investorId := input.investorId
    investorWallet := some input.walletAddress
    fundingBlock := some fundingBlock
    investmentAmount := toFixed4 input.amount
    expectedReturn := expectedReturn input.amount invoice
    actualReturn := none
    status := .pending
    transactionHash := none
    stellarOperationIndex := none }

/-- The end of the transaction: the move to FUNDED when the invoice fills up. -/
def fundInvestedInvoice (intentInFlight : Bool) (input : InvestInInvoiceInput)
    (invoice row : Invoice) (investment : Investment) : Except Thrown FundingWrites :=
  if ofUnits invoice.netAmount ≤ newFunded invoice input.amount then do
    let moved ← transition intentInFlight row (investedInvoice invoice input.amount) .funded
      (fullyFunded input.walletAddress (newFunded invoice input.amount))
    return { invoice := moved.invoice, investment := investment, history := [moved.history] }
  else .ok { invoice := row, investment := investment, history := [] }

def MAX_ATTEMPTS : ℕ := 3

/-! ## `createInvestment` -/

def checkCreateAmount (amount : Decimal) : Except Thrown Unit :=
  throwIf (amount < 0 ∨ amount = 0)
    (.service (invalidAmount "Investment amount must be greater than zero"))

/-- The locked read of the invoice and the checks on it. -/
def lockInvoiceToInvest (db : Database) (input : CreateInvestmentInput) (now : Timestamp) :
    Except Thrown Invoice := do
  let invoice ← orThrow db.invoice (.service invoiceNotFound)
  throwIf (invoice.status ≠ .published) (.service (cannotInvest invoice.status))
  checkDates invoice now
  throwIf (invoice.sellerId = some input.investorId) (.service (selfDealing 400))
  return invoice

/-- `find(Investment, { where: [{ invoiceId, status: PENDING }, { ..., CONFIRMED }] })`. -/
def activeInvestments (investments : List Investment) : List Investment :=
  investments.filter fun investment =>
    investment.status == .pending || investment.status == .confirmed

def exceedsCapacity (amount remainingCapacity : Decimal) : ServiceError :=
  { code := .insufficientCapacity
    message := s!"Investment amount {decimalText amount} exceeds remaining capacity " ++
      decimalText remainingCapacity }

/-- The capacity check: the sum of the active investments. -/
def checkCapacity (db : Database) (invoice : Invoice) (amount : Decimal) :
    Except Thrown Decimal := do
  let totalInvested := sumAmounts
    ((activeInvestments db.investments).map fun investment => investment.investmentAmount)
  let remainingCapacity := minus (ofUnits invoice.netAmount) totalInvested
  throwIf (remainingCapacity < amount) (.service (exceedsCapacity amount remainingCapacity))
  return totalInvested

def createdInvestment (input : CreateInvestmentInput) (invoice : Invoice) (id : Uuid) :
    Investment :=
  { id := id
    investorId := input.investorId
    investorWallet := some input.investorWallet
    fundingBlock := none
    investmentAmount := toFixed4 input.investmentAmount
    expectedReturn := expectedReturn input.investmentAmount invoice
    actualReturn := none
    status := .pending
    transactionHash := none
    stellarOperationIndex := none }

/-- The end of the transaction: the counter, and the move to FUNDED when the
invoice fills up. -/
def saveCreatedFunding (intentInFlight : Bool) (input : CreateInvestmentInput)
    (invoice row : Invoice) (totalInvested : Decimal) (investment : Investment) :
    Except Thrown FundingWrites :=
  let newTotalInvested := plus totalInvested input.investmentAmount
  let funded := { invoice with fundedAmount := toFixed4 newTotalInvested }
  if ofUnits invoice.netAmount ≤ newTotalInvested then do
    let moved ← transition intentInFlight row funded .funded
      (fullyFunded input.investorWallet newTotalInvested)
    return { invoice := moved.invoice, investment := investment, history := [moved.history] }
  else do
    let saved ← persistInvoice row funded
    return { invoice := saved, investment := investment, history := [] }

def MAX_RETRIES : ℕ := 3

/-! ## One call on its own -/

/-- One transaction of `investInInvoice`; it has no writes when it loses a race. -/
def attemptInvestment (db : Database) (input : InvestInInvoiceInput) (fundingBlock : ℕ)
    (id : Uuid) (now : Timestamp) : Except Thrown (Option FundingWrites) := do
  let invoice ← readInvoiceToInvest db input now
  checkDuplicate db input.walletAddress fundingBlock
  let updated ← advanceFundedAmount db.invoice invoice.version input.amount
  match updated with
  | none => return none
  | some row =>
      let investment := investedShare input fundingBlock invoice id
      insertInvestment db.investments investment
      let writes ← fundInvestedInvoice db.intentInFlight input invoice row investment
      return some writes

/-- The attempts that are left, each on the same rows. -/
def attemptInvestments (db : Database) (input : InvestInInvoiceInput) (fundingBlock : ℕ)
    (id : Uuid) (now : Timestamp) : ℕ → Except Thrown FundingWrites
  | 0 => .error (.service concurrentInvestmentConflict)
  | attempts + 1 => do
      match ← attemptInvestment db input fundingBlock id now with
      | some writes => return writes
      | none => attemptInvestments db input fundingBlock id now attempts

def investInInvoice (db : Database) (input : InvestInInvoiceInput) (id : Uuid)
    (now : Timestamp) : Except Thrown Database := do
  checkInvestAmount input.amount
  let writes ← attemptInvestments db input (input.fundingBlock now) id now MAX_ATTEMPTS
  return commitFunding db writes

def createInvestment (db : Database) (input : CreateInvestmentInput) (id : Uuid)
    (now : Timestamp) : Except Thrown Database := do
  checkCreateAmount input.investmentAmount
  let invoice ← lockInvoiceToInvest db input now
  let totalInvested ← checkCapacity db invoice input.investmentAmount
  let investment := createdInvestment input invoice id
  insertInvestment db.investments investment
  let writes ← saveCreatedFunding db.intentInFlight input invoice invoice totalInvested investment
  return commitFunding db writes

/-! ## The counter and the sum -/

/-- The sum of the pending and confirmed amounts. -/
def activeTotal (investments : List Investment) : ℤ :=
  ((activeInvestments investments).map fun investment => investment.investmentAmount).sum

/-- The stored counter covers the active investments; when `exact` holds it is
their sum. -/
structure Covers (exact : Prop) (investments : List Investment) (invoice : Invoice) : Prop where
  storable : Storable invoice
  nonneg : ∀ investment ∈ investments, 0 ≤ investment.investmentAmount
  covered : activeTotal investments ≤ invoice.fundedAmount
  exactly : exact → activeTotal investments = invoice.fundedAmount

/-- The counter of the stored invoice covers its stored investments. -/
def Covered (exact : Prop) (db : Database) : Prop :=
  ∃ invoice, db.invoice = some invoice ∧ Covers exact db.investments invoice

/-- What a row adds to the sum. -/
def activeAmount (investment : Investment) : ℤ :=
  if investment.status = .pending ∨ investment.status = .confirmed then
    investment.investmentAmount
  else 0

theorem activeTotal_cons (investment : Investment) (rest : List Investment) :
    activeTotal (investment :: rest) = activeAmount investment + activeTotal rest := by
  by_cases hactive : investment.status = .pending ∨ investment.status = .confirmed
  · simp [activeTotal, activeInvestments, activeAmount, hactive]
  · simp [activeTotal, activeInvestments, activeAmount, hactive]

theorem activeTotal_append_pending {investments : List Investment} {investment : Investment}
    (hpending : investment.status = .pending) :
    activeTotal (investments ++ [investment]) =
      activeTotal investments + investment.investmentAmount := by
  simp [activeTotal, activeInvestments, hpending]

theorem checkInvestAmount_eq_ok {amount : Decimal} {result : Unit} :
    checkInvestAmount amount = .ok result ↔
      0 < amount ∧ decimalPlacesAtMost 4 amount = true := by
  simp [checkInvestAmount]

theorem checkCreateAmount_eq_ok {amount : Decimal} {result : Unit} :
    checkCreateAmount amount = .ok result ↔ 0 < amount := by
  simp only [checkCreateAmount, throwIf_eq_ok, not_or, not_lt]
  exact ⟨fun hpositive => lt_of_le_of_ne hpositive.1 (Ne.symm hpositive.2),
    fun hpositive => ⟨hpositive.le, hpositive.ne'⟩⟩

theorem invoice_of_readInvoiceToInvest {db : Database} {input : InvestInInvoiceInput}
    {now : Timestamp} {invoice : Invoice}
    (hread : readInvoiceToInvest db input now = .ok invoice) : db.invoice = some invoice := by
  simp only [readInvoiceToInvest, bind_eq_ok, orThrow_eq_ok, pure_eq_ok] at hread
  obtain ⟨found, hfound, _, _, _, _, _, _, _, _, rfl⟩ := hread
  exact hfound

theorem invoice_of_lockInvoiceToInvest {db : Database} {input : CreateInvestmentInput}
    {now : Timestamp} {invoice : Invoice}
    (hread : lockInvoiceToInvest db input now = .ok invoice) : db.invoice = some invoice := by
  simp only [lockInvoiceToInvest, bind_eq_ok, orThrow_eq_ok, pure_eq_ok] at hread
  obtain ⟨found, hfound, _, _, _, _, _, _, rfl⟩ := hread
  exact hfound

/-- The row that the conditional update leaves. -/
def advancedRow (row : Invoice) (amount : Decimal) : Invoice :=
  { row with fundedAmount := row.fundedAmount + toFixed4 amount, version := row.version + 1 }

theorem advanceFundedAmount_eq_ok {row : Option Invoice} {version : ℕ} {amount : Decimal}
    {updated : Invoice} (hok : advanceFundedAmount row version amount = .ok (some updated)) :
    ∃ found, row = some found ∧ found.version = version ∧ updated = advancedRow found amount ∧
      Storable updated := by
  simp only [advanceFundedAmount] at hok
  cases row with
  | none => cases hok
  | some found =>
      dsimp only at hok
      split at hok
      · rename_i hmatches
        simp only [bind_eq_ok, writeInvoice_eq_ok, pure_eq_ok, Option.some.injEq] at hok
        obtain ⟨_, ⟨hstorable, rfl⟩, rfl⟩ := hok
        exact ⟨found, rfl, hmatches.1, rfl, hstorable⟩
      · cases hok

/-- Saving an entity of the row's version writes nothing, or a storable row of a
later version. -/
theorem persistInvoice_later {row entity saved : Invoice}
    (hsave : persistInvoice row entity = .ok saved) (hstorable : Storable row)
    (hversion : entity.version = row.version) :
    Storable saved ∧ saved.fundedAmount = entity.fundedAmount ∧
      (saved = row ∨ row.version < saved.version) := by
  rcases persistInvoice_cases hsave with ⟨rfl, rfl⟩ | ⟨_, hsaved, netAmount, rfl⟩
  · exact ⟨hstorable, rfl, .inl rfl⟩
  · exact ⟨hsaved, rfl, .inr (by simp [hversion])⟩

section Covering

variable {exact : Prop} {investments : List Investment} {invoice : Invoice}
  {investment : Investment} {intentInFlight : Bool} {writes : FundingWrites}

theorem Covers.active_nonneg (hcovers : Covers exact investments invoice) :
    ∀ amount ∈ (activeInvestments investments).map
      fun investment => investment.investmentAmount, 0 ≤ amount := by
  intro amount hmem
  obtain ⟨row, hrow, rfl⟩ := List.mem_map.mp hmem
  exact hcovers.nonneg row (List.mem_of_mem_filter hrow)

theorem Covers.activeTotal_nonneg (hcovers : Covers exact investments invoice) :
    0 ≤ activeTotal investments :=
  List.sum_nonneg hcovers.active_nonneg

theorem Covers.append (hcovers : Covers exact investments invoice) {saved : Invoice}
    (hstorable : Storable saved) (hpending : investment.status = .pending)
    (hnonneg : 0 ≤ investment.investmentAmount)
    (hcovered : activeTotal investments + investment.investmentAmount ≤ saved.fundedAmount)
    (hexact : exact →
      activeTotal investments + investment.investmentAmount = saved.fundedAmount) :
    Covers exact (investments ++ [investment]) saved where
  storable := hstorable
  nonneg := fun other hmem => by
    rcases List.mem_append.mp hmem with hold | hnew
    · exact hcovers.nonneg other hold
    · obtain rfl := List.mem_singleton.mp hnew
      exact hnonneg
  covered := by rwa [activeTotal_append_pending hpending]
  exactly := fun hholds => by rw [activeTotal_append_pending hpending, hexact hholds]

/-- The amount fits into the invoice, and its sum with the active investments is
carried to the next unit when the counter is computed. -/
def CounterCarried (investments : List Investment) (invoice : Invoice) (amount : Decimal) :
    Prop :=
  ofUnits (activeTotal investments) + amount ≤ ofUnits invoice.netAmount ∧
    SumCarried (activeTotal investments) amount

instance (investments : List Investment) (invoice : Invoice) (amount : Decimal) :
    Decidable (CounterCarried investments invoice amount) :=
  inferInstanceAs (Decidable (_ ∧ _))

/-- Both paths advance the counter by at least what they add to the sum. -/
theorem covers_of_fundInvestedInvoice {input : InvestInInvoiceInput}
    (hcovers : Covers exact investments invoice)
    (hamount : 0 < input.amount) (hplaces : decimalPlacesAtMost 4 input.amount = true)
    (hstorable : Storable (advancedRow invoice input.amount))
    (hpending : investment.status = .pending)
    (hshare : investment.investmentAmount = toFixed4 input.amount)
    (hok : fundInvestedInvoice intentInFlight input invoice (advancedRow invoice input.amount)
      investment = .ok writes) :
    Covers exact (investments ++ [investment]) writes.invoice ∧ writes.investment = investment ∧
      invoice.version < writes.invoice.version := by
  have hnonneg : 0 ≤ toFixed4 input.amount := toFixed4_nonneg hamount.le
  have hentity : investedInvoice invoice input.amount = advancedRow invoice input.amount := by
    have hbounds := hstorable
    simp only [Storable, advancedRow] at hbounds
    rw [investedInvoice, newFunded, toFixed4_plus_of_decimalPlaces hplaces
      (by rw [abs_of_nonneg hbounds.1, precision]; omega)]
    rfl
  have hcovered : ∀ saved : Invoice, Storable saved →
      saved.fundedAmount = invoice.fundedAmount + toFixed4 input.amount →
        Covers exact (investments ++ [investment]) saved := by
    intro saved hsaved hfunded
    refine hcovers.append hsaved hpending (hshare ▸ hnonneg) ?_ fun hholds => ?_
    · rw [hshare, hfunded]
      exact Int.add_le_add_right hcovers.covered _
    · rw [hshare, hfunded, hcovers.exactly hholds]
  rw [fundInvestedInvoice] at hok
  split at hok
  · obtain ⟨moved, hmoved, hwrites⟩ := bind_eq_ok.mp hok
    obtain rfl := pure_eq_ok.mp hwrites
    have hsave := (transition_eq_ok hmoved).2.1
    rw [hentity] at hsave
    obtain ⟨hsaved, hfunded, hlater⟩ := persistInvoice_later hsave hstorable rfl
    refine ⟨hcovered _ hsaved hfunded, rfl, ?_⟩
    change invoice.version < moved.invoice.version
    have hnext : (advancedRow invoice input.amount).version = invoice.version + 1 := rfl
    rcases hlater with hsame | hlater
    · rw [hsame]
      omega
    · omega
  · obtain rfl := Except.ok.inj hok
    exact ⟨hcovered _ hstorable rfl, rfl, Nat.lt_succ_self _⟩

/-- The running total is exact, and the amount fits above it. -/
theorem checkCapacity_eq_ok {db : Database} {amount total : Decimal}
    (hcovers : Covers exact db.investments invoice)
    (hok : checkCapacity db invoice amount = .ok total) :
    total = ofUnits (activeTotal db.investments) ∧
      ofUnits (activeTotal db.investments) + amount ≤ ofUnits invoice.netAmount := by
  obtain ⟨hfundedNonneg, hfunded, hnet⟩ := hcovers.storable
  have hcovered := hcovers.covered
  have hnonneg := hcovers.activeTotal_nonneg
  have hsum := sumAmounts_eq hcovers.active_nonneg (by
    change activeTotal db.investments < _
    simp only [precision]
    omega)
  simp only [checkCapacity, bind_eq_ok, throwIf_eq_ok, pure_eq_ok, exists_const, not_lt,
    hsum] at hok
  obtain ⟨hfits, rfl⟩ := hok
  refine ⟨rfl, ?_⟩
  change amount ≤ minus (ofUnits invoice.netAmount) (ofUnits (activeTotal db.investments)) at hfits
  rw [minus_ofUnits (by rw [abs_of_nonneg (by omega), precision]; omega), ofUnits_sub] at hfits
  linarith

theorem covers_of_saveCreatedFunding {input : CreateInvestmentInput}
    (hcovers : Covers exact investments invoice) (hamount : 0 < input.investmentAmount)
    (hfits : ofUnits (activeTotal investments) + input.investmentAmount ≤
      ofUnits invoice.netAmount)
    (hcarried : exact → ¬CounterCarried investments invoice input.investmentAmount)
    (hpending : investment.status = .pending)
    (hshare : investment.investmentAmount = toFixed4 input.investmentAmount)
    (hok : saveCreatedFunding intentInFlight input invoice invoice
      (ofUnits (activeTotal investments)) investment = .ok writes) :
    Covers exact (investments ++ [investment]) writes.invoice ∧ writes.investment = investment ∧
      (writes.invoice = invoice ∨ invoice.version < writes.invoice.version) := by
  have hnet := hcovers.storable.2.2
  have hnonneg : 0 ≤ toFixed4 input.investmentAmount := toFixed4_nonneg hamount.le
  have hsum := hcovers.activeTotal_nonneg
  have hbelow : activeTotal investments + toFixed4 input.investmentAmount ≤ invoice.netAmount := by
    rw [← toFixed4_ofUnits_add hsum hamount.le]
    exact roundPlaces_le (add_nonneg (ofUnits_nonneg.mpr hsum) hamount.le) hfits
  have hcovered : ∀ saved : Invoice, Storable saved →
      saved.fundedAmount =
        toFixed4 (plus (ofUnits (activeTotal investments)) input.investmentAmount) →
        Covers exact (investments ++ [investment]) saved := by
    intro saved hsaved hfunded
    refine hcovers.append hsaved hpending (hshare ▸ hnonneg) ?_ fun hholds => ?_
    · rw [hshare, hfunded]
      exact add_toFixed4_le_toFixed4_plus hsum hamount.le (by simp only [precision]; omega)
    · rw [hshare, hfunded, toFixed4_plus hsum hamount
        (hfits.trans (ofUnits_le_ofUnits.mpr hnet.le))
        fun hsumCarried => hcarried hholds ⟨hfits, hsumCarried⟩]
  unfold saveCreatedFunding at hok
  dsimp only at hok
  split at hok
  · obtain ⟨moved, hmoved, hwrites⟩ := bind_eq_ok.mp hok
    obtain rfl := pure_eq_ok.mp hwrites
    obtain ⟨hsaved, hfunded, hlater⟩ :=
      persistInvoice_later (transition_eq_ok hmoved).2.1 hcovers.storable rfl
    exact ⟨hcovered _ hsaved hfunded, rfl, hlater⟩
  · obtain ⟨saved, hsave, hwrites⟩ := bind_eq_ok.mp hok
    obtain rfl := pure_eq_ok.mp hwrites
    obtain ⟨hsaved, hfunded, hlater⟩ := persistInvoice_later hsave hcovers.storable rfl
    exact ⟨hcovered _ hsaved hfunded, rfl, hlater⟩

theorem attemptInvestment_of_attempts {db : Database} {input : InvestInInvoiceInput}
    {fundingBlock attempts : ℕ} {id : Uuid} {now : Timestamp}
    (hok : attemptInvestments db input fundingBlock id now attempts = .ok writes) :
    attemptInvestment db input fundingBlock id now = .ok (some writes) := by
  induction attempts with
  | zero => cases hok
  | succ attempts ih =>
      obtain ⟨result, hresult, hnext⟩ := bind_eq_ok.mp hok
      cases result with
      | none => exact ih hnext
      | some found =>
          obtain rfl := pure_eq_ok.mp hnext
          exact hresult

/-- A call on its own keeps the counter. -/
theorem covered_of_investInInvoice {db after : Database} {input : InvestInInvoiceInput}
    {id : Uuid} {now : Timestamp} (hcovered : Covered exact db)
    (hok : investInInvoice db input id now = .ok after) : Covered exact after := by
  obtain ⟨_, hamount, hrest⟩ := bind_eq_ok.mp hok
  obtain ⟨hpositive, hplaces⟩ := checkInvestAmount_eq_ok.mp hamount
  obtain ⟨writes, hattempts, hafter⟩ := bind_eq_ok.mp hrest
  obtain rfl := pure_eq_ok.mp hafter
  obtain ⟨invoice, hinvoice, hcovers⟩ := hcovered
  obtain ⟨read, hread, hrest⟩ := bind_eq_ok.mp (attemptInvestment_of_attempts hattempts)
  obtain ⟨_, _, hrest⟩ := bind_eq_ok.mp hrest
  obtain ⟨updated, hupdated, hrest⟩ := bind_eq_ok.mp hrest
  cases updated with
  | none => cases hrest
  | some row =>
      obtain ⟨found, hfound, _, rfl, hstorable⟩ := advanceFundedAmount_eq_ok hupdated
      obtain rfl := Option.some.inj (hinvoice.symm.trans hfound)
      obtain rfl := Option.some.inj (hinvoice.symm.trans (invoice_of_readInvoiceToInvest hread))
      obtain ⟨_, _, hrest⟩ := bind_eq_ok.mp hrest
      obtain ⟨funded, hfunded, hsome⟩ := bind_eq_ok.mp hrest
      obtain rfl := Option.some.inj (pure_eq_ok.mp hsome)
      obtain ⟨hafter, hinvestment, _⟩ := covers_of_fundInvestedInvoice hcovers hpositive hplaces
        hstorable rfl rfl hfunded
      exact ⟨writes.invoice, rfl, by rwa [← hinvestment] at hafter⟩

theorem covered_of_createInvestment {db after : Database} {input : CreateInvestmentInput}
    {id : Uuid} {now : Timestamp} (hcovered : Covered exact db)
    (hcarried : exact → ∀ invoice ∈ db.invoice,
      ¬CounterCarried db.investments invoice input.investmentAmount)
    (hok : createInvestment db input id now = .ok after) : Covered exact after := by
  obtain ⟨_, hamount, hrest⟩ := bind_eq_ok.mp hok
  obtain ⟨invoice, hread, hrest⟩ := bind_eq_ok.mp hrest
  obtain ⟨total, hcapacity, hrest⟩ := bind_eq_ok.mp hrest
  obtain ⟨_, _, hrest⟩ := bind_eq_ok.mp hrest
  obtain ⟨writes, hwrites, hafter⟩ := bind_eq_ok.mp hrest
  obtain rfl := pure_eq_ok.mp hafter
  have hinvoice := invoice_of_lockInvoiceToInvest hread
  obtain ⟨found, hfound, hcovers⟩ := hcovered
  obtain rfl : found = invoice := Option.some.inj (hfound.symm.trans hinvoice)
  obtain ⟨rfl, hfits⟩ := checkCapacity_eq_ok hcovers hcapacity
  obtain ⟨hafter, hinvestment, _⟩ := covers_of_saveCreatedFunding hcovers
    (checkCreateAmount_eq_ok.mp hamount) hfits (fun hholds => hcarried hholds found hfound)
    rfl rfl hwrites
  exact ⟨writes.invoice, rfl, by rwa [← hinvestment] at hafter⟩

end Covering

/-! ## A published invoice over 10.0000 -/

def openInvoice : Invoice :=
  { fundedInvoice with
    amount := 100000
    netAmount := 100000
    fundedAmount := 0
    status := .published }

def openDatabase : Database :=
  { fundedDatabase with invoice := some openInvoice, investments := [] }

/-- 1.0000, and an amount just below half of the fourth decimal. -/
def wholeInvestment : CreateInvestmentInput :=
  { investorId := 4, investmentAmount := 1, investorWallet := "GINVESTOR" }

def dustInvestment : CreateInvestmentInput :=
  { investorId := 4
    investmentAmount := 499999999999999999999 / 10 ^ 25
    investorWallet := "GINVESTOR" }

theorem covered_openDatabase : Covered True openDatabase := by
  have hstorable : Storable openInvoice := by decide
  have hnone : activeTotal openDatabase.investments = openInvoice.fundedAmount := by decide
  refine ⟨openInvoice, rfl, hstorable, fun _ hmem => ?_, hnone.le, fun _ => hnone⟩
  cases hmem

end StellarSettle.InvestmentService
