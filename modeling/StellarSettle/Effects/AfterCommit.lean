import StellarSettle.Effects.StatusChanges

/-!
# Effects after the commit

Five of the seven operations announce a change only when its transaction has committed, whatever
step fails and wherever the process stops.  The settlement by an administrator and the review of
a verification announce it before, and then depend on the commit.
-/

namespace StellarSettle.AfterCommit

open StellarSettle.AdminSettlement (AdminSettleInvoiceInput)
open StellarSettle.DecimalJs (Decimal)
open StellarSettle.Entities
open StellarSettle.InvoiceLifecycle
open StellarSettle.KycService (Key KycReviewInput)
open StellarSettle.KycWebhook (Documents KYCStatus)
open StellarSettle.SettleInvoice (DistributedIntent SettleInvoiceInput SettlementPlan
  SettlementService)
open StellarSettle.SettlementIntents (PrepareSettlementIntentInput)
open StellarSettle.StatusChanges
open StellarSettle.TransactionScript
open StellarSettle.TransactionScript.Script

/-! ## Reads and writes -/

section Steps

variable {Result : Type}

theorem quiet_check (result : Except Thrown Result) : Quiet announced (check result) :=
  quiet_done _

theorem quiet_checkHttp (result : Except KycWebhook.WebhookError Result) :
    Quiet announced (checkHttp result) :=
  quiet_done _

theorem quiet_return (value : Result) : Quiet announced (pure value : StatusScript Result) :=
  quiet_done _

theorem quiet_throw (raised : Raised) : Quiet announced (throw raised : StatusScript Result) :=
  quiet_done _

theorem quiet_write : Quiet announced write :=
  quiet_bind quiet_statement fun _ => quiet_return _

theorem quiet_lockInvoice : Quiet announced lockInvoice :=
  quiet_tryCatch quiet_statement fun _ => quiet_statement

end Steps

/-- A transition is made when its history row is stored. -/
theorem makes_moveInvoice (known : List Change) (entity : Invoice) (target : InvoiceStatus)
    (options : TransitionOptions) :
    Makes announced known (fun moved => .moved moved :: known)
      (moveInvoice entity target options) := by
  rw [moveInvoice]
  apply makes_after_quiet (quiet_check _)
  intro _
  apply makes_after_quiet quiet_statement
  intro stored
  apply makes_after_quiet (quiet_check _)
  intro row
  apply makes_after_quiet (quiet_check _)
  intro moved
  apply makes_bind (makes_change _)
  exact fun _ => makes_pure (List.Subset.refl _)

/-- Announcing a change whose transaction has committed. -/
theorem keeps_announced {changes : List Change} {effect : Effect}
    (hannounced : announced effect ∈ changes) :
    Keeps announced (Committed changes)
      (act (.announce effect) : StatusScript Unit) :=
  keeps_announce hannounced

/-- Dispatching a transition whose transaction has committed. -/
theorem keeps_dispatch {changes : List Change} {transition : InvoiceTransition}
    (hmoved : .moved transition ∈ changes) :
    Keeps announced (Committed changes) (dispatch transition) :=
  keeps_tell hmoved

/-! ## Settlements -/

theorem quiet_checkSellerWallet (compared : Bool) (actorWallet : String) (invoice : Invoice) :
    Quiet announced (checkSellerWallet compared actorWallet invoice) := by
  rw [checkSellerWallet]
  split
  · exact quiet_bind quiet_statement fun _ => quiet_check _
  · exact quiet_return ()

theorem quiet_payDirectly (service : SettlementService) (db : Database)
    (investments : List Investment)
    (proceedsScaled totalFundedScaled distributableScaled : ℤ)
    (transactionHash : Option TransactionHash) :
    Quiet announced (payDirectly service db investments proceedsScaled totalFundedScaled
      distributableScaled transactionHash) := by
  rw [payDirectly]
  split
  · apply quiet_bind (quiet_check _)
    intro config
    apply quiet_bind (quiet_check _)
    intro arguments
    apply quiet_bind
    · exact quiet_bind (quiet_check _) fun _ => quiet_bind quiet_statement fun _ => quiet_return _
    · exact fun _ => quiet_return _
  · exact quiet_return _

theorem quiet_submitPayouts (input : PaymentDistributor.DistributePayoutsInput) :
    Quiet announced (submitPayouts input) :=
  quiet_bind (quiet_check _) fun _ => quiet_bind quiet_statement fun _ => quiet_return _

theorem quiet_savePayment (transactionHash : Option TransactionHash) :
    Quiet announced (savePayment transactionHash) := by
  rw [savePayment]
  split
  · exact quiet_write
  · exact quiet_return ()

theorem quiet_settleHolding (totalFundedScaled distributableScaled : ℤ)
    (investment : Investment) :
    Quiet announced (settleHolding totalFundedScaled distributableScaled investment) :=
  quiet_bind (quiet_check _) fun _ =>
    quiet_bind quiet_write fun _ => quiet_bind quiet_write fun _ => quiet_return _

theorem quiet_completeIntent (plan : SettlementPlan) : Quiet announced (completeIntent plan) := by
  rw [completeIntent]
  split
  · exact quiet_bind quiet_statement fun _ => quiet_bind (quiet_check _) fun _ => quiet_write
  · exact quiet_return ()

theorem makes_recordHoldings (service : SettlementService) (input : SettleInvoiceInput)
    (distributed : Option DistributedIntent) (invoice : Invoice) (db : Database)
    (investments : List Investment) :
    Makes announced [] RecordedSettlement.changes
      (recordHoldings service input distributed invoice db investments) := by
  rw [recordHoldings]
  apply makes_after_quiet (quiet_payDirectly _ _ _ _ _ _ _)
  intro transactionHash
  apply makes_after_quiet (quiet_savePayment _)
  intro _
  apply makes_after_quiet (quiet_mapM fun investment => quiet_settleHolding _ _ investment)
  intro settled
  apply makes_after_quiet quiet_write
  intro _
  apply makes_bind (makes_moveInvoice _ _ _ _)
  intro moved
  apply makes_after_quiet (quiet_completeIntent _)
  exact fun _ => makes_pure (List.Subset.refl _)

theorem makes_recordSettlement (service : SettlementService) (input : SettleInvoiceInput)
    (distributed : Option DistributedIntent) :
    Makes announced [] RecordedSettlement.changes
      (recordSettlement service input distributed) := by
  rw [recordSettlement]
  apply makes_after_quiet quiet_lockInvoice
  intro locked
  apply makes_after_quiet (quiet_check _)
  intro invoice
  apply makes_after_quiet (quiet_check _)
  intro _
  apply makes_after_quiet (quiet_checkSellerWallet _ _ _)
  intro _
  apply makes_after_quiet (quiet_check _)
  intro _
  apply makes_after_quiet (quiet_check _)
  intro _
  apply makes_after_quiet quiet_statement
  intro held
  apply makes_after_quiet (quiet_check _)
  intro _
  apply makes_after_quiet (quiet_check _)
  exact fun _ => makes_recordHoldings _ _ _ _ _ _

/-! ### The intent -/

theorem quiet_insertIntent (input : PrepareSettlementIntentInput) :
    Quiet announced (insertIntent input) := by
  rw [insertIntent]
  apply quiet_bind quiet_statement
  intro held
  apply quiet_bind (quiet_check _)
  intro _
  apply quiet_bind (quiet_check _)
  intro payload
  apply quiet_bind quiet_statement
  intro saved
  exact quiet_bind (quiet_check _) fun _ => quiet_return _

theorem quiet_findOrInsertIntent (input : PrepareSettlementIntentInput) :
    Quiet announced (findOrInsertIntent input) := by
  rw [findOrInsertIntent]
  apply quiet_bind quiet_lockInvoice
  intro locked
  apply quiet_bind (quiet_check _)
  intro invoice
  apply quiet_bind (quiet_check _)
  intro _
  apply quiet_bind (quiet_checkSellerWallet _ _ _)
  intro _
  apply quiet_bind (quiet_check _)
  intro _
  apply quiet_bind quiet_statement
  intro found
  split
  · exact quiet_bind (quiet_check _) fun _ => quiet_return _
  · exact quiet_insertIntent input

theorem safe_prepareSettlementIntent (input : PrepareSettlementIntentInput) :
    Safe announced (prepareSettlementIntent input) :=
  safe_bind (quiet_check _).safe fun _ => safe_transaction (quiet_findOrInsertIntent input)

theorem safe_claimAndPay (intent : SettlementIntent) : Safe announced (claimAndPay intent) := by
  rw [claimAndPay]
  apply safe_bind
  · apply safe_transaction
    exact quiet_bind quiet_statement fun _ => quiet_bind (quiet_check _) fun _ => quiet_write
  · intro _
    apply safe_bind (quiet_submitPayouts _).safe
    intro transactionHash
    apply safe_bind
    · apply safe_transaction
      exact quiet_bind quiet_statement fun _ => quiet_bind (quiet_check _) fun _ => quiet_write
    · exact fun _ => (quiet_return _).safe

theorem safe_handleIntent (service : SettlementService) (input : SettleInvoiceInput) :
    Safe announced (handleIntent service input) := by
  rw [handleIntent]
  apply safe_bind (quiet_check _).safe
  intro entered
  cases entered with
  | none => exact (quiet_return _).safe
  | some prepare =>
      apply safe_bind (safe_prepareSettlementIntent prepare)
      intro intent
      apply safe_bind
      · apply safe_bind (quiet_check _).safe
        intro route
        cases route with
        | claim => exact safe_claimAndPay intent
        | recorded transactionHash => exact (quiet_return _).safe
      · exact fun _ => (quiet_return _).safe

/-! ### After the settlement -/

section Settled

variable {dependencies : SettlementDependencies} {recorded : RecordedSettlement}

theorem keeps_updateReputation :
    Keeps announced (Committed recorded.changes)
      (updateReputation dependencies recorded.transition) := by
  rw [updateReputation]
  split
  · apply keeps_tryCatch
    · apply keeps_bind (quiet_write _ stable_committed)
      intro _
      apply keeps_bind (quiet_write _ stable_committed)
      exact fun _ => keeps_announce (List.mem_singleton_self _)
    · exact fun _ => keeps_done _
  · exact keeps_done _

theorem keeps_notifyHolders :
    Keeps announced (Committed recorded.changes) (notifyHolders dependencies recorded) := by
  rw [notifyHolders]
  split
  · apply keeps_tryCatch
    · exact keeps_forM fun _ _ => keeps_announce (List.mem_singleton_self _)
    · exact fun _ => keeps_done _
  · exact keeps_done _

end Settled

theorem safe_settleInvoice (dependencies : SettlementDependencies) (input : SettleInvoiceInput) :
    Safe announced (settleInvoice dependencies input) := by
  rw [settleInvoice]
  apply safe_bind (safe_handleIntent _ _)
  intro distributed
  apply safe_transaction_bind (makes_recordSettlement _ _ _)
  intro recorded
  have hmoved : Change.moved recorded.transition ∈ recorded.changes :=
    List.mem_singleton_self _
  apply keeps_bind (keeps_dispatch hmoved)
  intro _
  apply keeps_bind (keeps_announced hmoved)
  intro _
  apply keeps_bind keeps_updateReputation
  intro _
  exact keeps_bind keeps_notifyHolders fun _ => keeps_done _

/-! ## Investments -/

theorem safe_retrying {Result : Type} {attempt : StatusScript Result}
    (hattempt : Safe announced attempt) (conflict : Raised → Bool) (attempts : ℕ) :
    Safe announced (retrying conflict attempt attempts) := by
  induction attempts with
  | zero => exact (quiet_throw _).safe
  | succ attempts ih =>
      rw [retrying]
      apply safe_tryCatch hattempt
      intro raised
      split
      · exact ih
      · exact (quiet_throw _).safe

theorem makes_storeInvestment (investment : Uuid → Investment) :
    Makes announced [] (fun saved => [.invested saved]) (storeInvestment investment) := by
  rw [storeInvestment]
  apply makes_after_quiet quiet_statement
  intro saved
  apply makes_after_quiet (quiet_check _)
  intro _
  apply makes_bind (makes_change _)
  exact fun _ => makes_pure (List.Subset.refl _)

/-- The move to FUNDED, after the investment has been stored. -/
theorem makes_funded {entity : Invoice} {target : InvoiceStatus} {options : TransitionOptions}
    (investment : Investment) :
    Makes announced [.invested investment] RecordedInvestment.changes (do
      let moved ← moveInvoice entity target options
      return ⟨investment, some moved⟩) := by
  apply makes_bind (makes_moveInvoice _ _ _ _)
  intro moved
  apply makes_pure
  exact List.cons_subset.mpr ⟨by simp, by simp⟩

theorem makes_fundWhenFull (input : InvestmentService.InvestInInvoiceInput) (invoice : Invoice)
    (investment : Investment) :
    Makes announced [.invested investment] RecordedInvestment.changes
      (fundWhenFull input invoice investment) := by
  rw [fundWhenFull]
  split
  · exact makes_funded investment
  · exact makes_pure (List.Subset.refl _)

theorem makes_fundOrSave (input : InvestmentService.CreateInvestmentInput) (invoice : Invoice)
    (totalInvested : Decimal) (investment : Investment) :
    Makes announced [.invested investment] RecordedInvestment.changes
      (fundOrSave input invoice totalInvested investment) := by
  unfold fundOrSave
  dsimp only
  split
  · exact makes_funded investment
  · apply makes_after_quiet quiet_statement
    intro stored
    apply makes_after_quiet (quiet_check _)
    intro row
    apply makes_after_quiet (quiet_check _)
    exact fun _ => makes_pure (List.Subset.refl _)

theorem quiet_advance (invoice : Invoice) (amount : Decimal) :
    Quiet announced (advance invoice amount) := by
  rw [advance]
  apply quiet_bind quiet_statement
  intro updated
  apply quiet_bind (quiet_check _)
  intro row
  split
  · exact quiet_return ()
  · exact quiet_throw _

theorem makes_recordInvestment (input : InvestmentService.InvestInInvoiceInput)
    (fundingBlock : ℕ) :
    Makes announced [] RecordedInvestment.changes (recordInvestment input fundingBlock) := by
  rw [recordInvestment]
  apply makes_after_quiet quiet_statement
  intro read
  apply makes_after_quiet (quiet_check _)
  intro invoice
  apply makes_after_quiet quiet_statement
  intro found
  apply makes_after_quiet (quiet_check _)
  intro _
  apply makes_after_quiet (quiet_advance _ _)
  intro _
  exact makes_bind (makes_storeInvestment _) fun _ => makes_fundWhenFull _ _ _

theorem makes_recordCreatedInvestment (input : InvestmentService.CreateInvestmentInput) :
    Makes announced [] RecordedInvestment.changes (recordCreatedInvestment input) := by
  rw [recordCreatedInvestment]
  apply makes_after_quiet quiet_lockInvoice
  intro locked
  apply makes_after_quiet (quiet_check _)
  intro invoice
  apply makes_after_quiet quiet_statement
  intro held
  apply makes_after_quiet (quiet_check _)
  intro totalInvested
  exact makes_bind (makes_storeInvestment _) fun _ => makes_fundOrSave _ _ _ _

theorem keeps_announceInvestment (investmentNotifier : Bool) (recorded : RecordedInvestment) :
    Keeps announced (Committed recorded.changes)
      (announceInvestment investmentNotifier recorded) := by
  have hinvested : Change.invested recorded.investment ∈ recorded.changes :=
    List.mem_cons_self
  rw [announceInvestment]
  apply keeps_bind
  · rw [notifyInvestment]
    split
    · exact keeps_announce hinvested
    · exact keeps_done _
  · intro _
    apply keeps_bind
    · apply keeps_forM
      intro transition hmem
      apply keeps_dispatch
      apply List.mem_cons_of_mem
      rw [Option.toList_map]
      exact List.mem_map_of_mem hmem
    · exact fun _ => keeps_done _

theorem safe_investInInvoice (investmentNotifier : Bool)
    (input : InvestmentService.InvestInInvoiceInput) (now : Timestamp) :
    Safe announced (investInInvoice investmentNotifier input now) := by
  rw [investInInvoice]
  apply safe_bind quiet_write.safe
  intro _
  apply safe_bind (quiet_check _).safe
  intro _
  apply safe_retrying
  exact safe_transaction_bind (makes_recordInvestment _ _) fun recorded =>
    keeps_announceInvestment _ recorded

theorem quiet_checkSuitability (riskProfileService : Bool) :
    Quiet announced (checkSuitability riskProfileService) := by
  rw [checkSuitability]
  split
  · apply quiet_tryCatch
    · apply quiet_bind quiet_write
      intro _
      apply quiet_bind quiet_statement
      intro checked
      split
      · exact quiet_return ()
      · exact quiet_throw _
    · intro raised
      split
      · exact quiet_throw _
      · exact quiet_return ()
  · exact quiet_return ()

theorem safe_createInvestment (investmentNotifier riskProfileService : Bool)
    (input : InvestmentService.CreateInvestmentInput) :
    Safe announced (createInvestment investmentNotifier riskProfileService input) := by
  rw [createInvestment]
  apply safe_bind quiet_write.safe
  intro _
  apply safe_bind (quiet_checkSuitability _).safe
  intro _
  apply safe_bind (quiet_check _).safe
  intro _
  apply safe_retrying
  exact safe_transaction_bind (makes_recordCreatedInvestment _) fun recorded =>
    keeps_announceInvestment _ recorded

/-! ## Publications -/

theorem safe_publishInvoice (sellerId : Uuid) : Safe announced (publishInvoice sellerId) := by
  rw [publishInvoice]
  apply safe_tryCatch
  · apply safe_bind quiet_statement.safe
    intro found
    apply safe_bind (quiet_check _).safe
    rintro ⟨invoice, change⟩
    apply safe_transaction_bind (makes_moveInvoice _ _ _ _)
    intro moved
    exact keeps_bind (keeps_dispatch (List.mem_singleton_self _)) fun _ => keeps_done _
  · exact fun raised => (quiet_throw _).safe

/-! ## Decisions -/

theorem makes_recordDecision (verification : Answer → KycWebhook.KYCVerification) (userId : Uuid)
    (kycStatus : KYCStatus) :
    Makes announced [] RecordedDecision.changes
      (recordDecision verification userId kycStatus) := by
  rw [recordDecision]
  apply makes_after_quiet quiet_statement
  intro saved
  apply makes_after_quiet quiet_write
  intro _
  apply makes_bind (makes_change _)
  exact fun _ => makes_pure (List.Subset.refl _)

theorem makes_recordWebhook (userText : KycWebhook.IdText) (status : KYCStatus)
    (verificationId : Option KycWebhook.IdText) :
    Makes announced [] RecordedDecision.changes
      (recordWebhook userText status verificationId) := by
  rw [recordWebhook]
  apply makes_after_quiet quiet_statement
  intro read
  apply makes_after_quiet (quiet_checkHttp _)
  intro userId
  apply makes_after_quiet (quiet_checkHttp _)
  intro user
  apply makes_after_quiet quiet_statement
  intro found
  apply makes_after_quiet (quiet_checkHttp _)
  intro named
  apply makes_after_quiet (quiet_checkHttp _)
  exact fun verification => makes_recordDecision _ _ _

theorem safe_processWebhook (notificationService : Bool)
    (payload : KycWebhook.KycWebhookPayload) :
    Safe announced (processWebhook notificationService payload) := by
  rw [processWebhook]
  apply safe_bind (quiet_checkHttp _).safe
  rintro ⟨userText, status⟩
  apply safe_transaction_bind (makes_recordWebhook _ _ _)
  intro recorded
  rw [notifyDecision]
  split
  · exact keeps_tell (List.mem_singleton_self _)
  · exact keeps_done _

theorem quiet_findForReview (idOrUserId : Key) : Quiet announced (findForReview idOrUserId) := by
  rw [findForReview]
  apply quiet_bind quiet_statement
  intro read
  apply quiet_bind (quiet_checkHttp _)
  intro id
  split
  · exact quiet_return _
  · exact quiet_bind quiet_statement fun _ => quiet_return _

theorem quiet_findReviewed (idOrUserId : Key)
    (verification : Option KycWebhook.KYCVerification) :
    Quiet announced (findReviewed idOrUserId verification) := by
  rw [findReviewed]
  apply quiet_bind quiet_statement
  intro read
  cases verification with
  | none => exact quiet_bind (quiet_checkHttp _) fun _ => quiet_checkHttp _
  | some verification => exact quiet_checkHttp _

theorem makes_recordReview (idOrUserId : Key) (decision : KYCStatus)
    (reviewed : Option Documents → Documents) :
    Makes announced [] RecordedDecision.changes
      (recordReview idOrUserId decision reviewed) := by
  rw [recordReview]
  apply makes_after_quiet (quiet_findForReview _)
  intro found
  apply makes_after_quiet (quiet_findReviewed _ _)
  exact fun user => makes_recordDecision _ _ _

/-! ## Effects before the commit -/

theorem quiet_settleEscrow (input : AdminSettleInvoiceInput) :
    Quiet announced (settleEscrow input) := by
  rw [settleEscrow]
  apply quiet_bind (quiet_check _)
  intro _
  apply quiet_bind
  · exact quiet_tryCatch quiet_statement fun _ => quiet_throw _
  · exact fun _ => quiet_return _

theorem makes_recordAdminSettlement (input : AdminSettleInvoiceInput) :
    Makes announced [] RecordedSettlement.changes (recordAdminSettlement input) := by
  rw [recordAdminSettlement]
  apply makes_after_quiet quiet_lockInvoice
  intro locked
  apply makes_after_quiet (quiet_check _)
  intro invoice
  apply makes_after_quiet (quiet_check _)
  intro _
  apply makes_after_quiet quiet_statement
  intro held
  apply makes_after_quiet (quiet_check _)
  intro _
  apply makes_after_quiet quiet_write
  intro _
  apply makes_after_quiet
  · exact quiet_mapM fun investment => quiet_bind (quiet_check _) fun _ =>
      quiet_bind quiet_write fun _ => quiet_bind quiet_write fun _ => quiet_return _
  · intro payouts
    apply makes_bind (makes_moveInvoice _ _ _ _)
    exact fun moved => makes_pure (List.Subset.refl _)

/-- The call up to its dispatch. -/
def beforeDispatch (input : AdminSettleInvoiceInput) : StatusScript RecordedSettlement := do
  let _ ← settleEscrow input
  act .start
  recordAdminSettlement input

/-- The call up to its notification. -/
def beforeNotification (idOrUserId : Key) (input : KycReviewInput)
    (reviewed : Option Documents → Documents) : StatusScript RecordedDecision := do
  let decision ← checkHttp (checkReview input)
  act .start
  recordReview idOrUserId decision reviewed

/-- Where an operation announces its change before it commits, and the effect takes place, the
commit does. -/
def CommitFollowsEffect (operation : Operation) (replies : List StepReply) : Prop :=
  match operation with
  | .adminSettleInvoice input =>
      ∀ recorded left, ((beforeDispatch input).play replies {}).outcome =
        some (.ok recorded, left) → CommitFollows left
  | .reviewKyc true idOrUserId input reviewed =>
      ∀ recorded left, ((beforeNotification idOrUserId input reviewed).play replies {}).outcome =
        some (.ok recorded, left) → CommitFollows left
  | _ => True

theorem announcesCommitted_adminSettleInvoice_iff (input : AdminSettleInvoiceInput)
    (replies : List StepReply) :
    ((adminSettleInvoice input).play replies {}).ledger.AnnouncesCommitted announced ↔
      ∀ recorded left, ((beforeDispatch input).play replies {}).outcome =
        some (.ok recorded, left) → CommitFollows left := by
  apply announcesCommitted_inside_iff (quiet_settleEscrow input)
    (fun _ => makes_recordAdminSettlement input)
  · exact fun recorded => List.mem_singleton_self _
  · intro recorded
    exact keeps_bind (keeps_tell (List.mem_singleton_self _)) fun _ => keeps_done _

section Reviews

variable (idOrUserId : Key) (input : KycReviewInput) (reviewed : Option Documents → Documents)

theorem announcesCommitted_reviewKyc_iff (replies : List StepReply) :
    ((reviewKyc true idOrUserId input reviewed).play replies {}).ledger.AnnouncesCommitted
        announced ↔
      ∀ recorded left, ((beforeNotification idOrUserId input reviewed).play replies {}).outcome =
        some (.ok recorded, left) → CommitFollows left := by
  have hshape : reviewKyc true idOrUserId input reviewed =
      checkHttp (checkReview input) >>= fun decision => transaction (do
        let recorded ← recordReview idOrUserId decision reviewed
        tell (.createNotification recorded.userId recorded.kycStatus)
        return recorded) >>= fun recorded => pure recorded := by
    simp only [bind_pure]
    rfl
  rw [hshape]
  apply announcesCommitted_inside_iff (quiet_checkHttp _)
    (fun decision => makes_recordReview idOrUserId decision reviewed)
  · exact fun recorded => List.mem_singleton_self _
  · exact fun recorded => keeps_done _

theorem safe_reviewKyc : Safe announced (reviewKyc false idOrUserId input reviewed) := by
  rw [reviewKyc]
  apply safe_bind (quiet_checkHttp _).safe
  intro decision
  rw [← bind_pure (transaction _)]
  apply safe_transaction_bind
  · apply makes_bind (makes_recordReview _ _ _)
    intro recorded
    exact makes_after_quiet (quiet_return ()) fun _ => makes_pure (List.Subset.refl _)
  · exact fun recorded => keeps_done _

end Reviews

/-- Whatever the steps of an operation answer, each of its effects announces a change that its
transaction committed, exactly where no commit fails that an effect was ahead of. -/
theorem announcesCommitted_iff_commitFollowsEffect (operation : Operation)
    (replies : List StepReply) :
    (operation.ledger replies).AnnouncesCommitted announced ↔
      CommitFollowsEffect operation replies := by
  cases operation with
  | settleInvoice dependencies input =>
      exact iff_of_true ((safe_settleInvoice dependencies input).announcesCommitted replies)
        trivial
  | adminSettleInvoice input => exact announcesCommitted_adminSettleInvoice_iff input replies
  | investInInvoice investmentNotifier input now =>
      exact iff_of_true
        ((safe_investInInvoice investmentNotifier input now).announcesCommitted replies) trivial
  | createInvestment investmentNotifier riskProfileService input =>
      exact iff_of_true ((safe_createInvestment investmentNotifier riskProfileService
        input).announcesCommitted replies) trivial
  | publishInvoice sellerId =>
      exact iff_of_true ((safe_publishInvoice sellerId).announcesCommitted replies) trivial
  | reviewKyc notificationService idOrUserId input reviewed =>
      cases notificationService with
      | false =>
          exact iff_of_true
            ((safe_reviewKyc idOrUserId input reviewed).announcesCommitted replies) trivial
      | true => exact announcesCommitted_reviewKyc_iff idOrUserId input reviewed replies
  | processWebhook notificationService payload =>
      exact iff_of_true
        ((safe_processWebhook notificationService payload).announcesCommitted replies) trivial

/-- Every step sees the funded invoice with its one investment. -/
def fundedAnswer : Answer :=
  { db := fundedDatabase
    kyc := ⟨[], [], List.nodup_nil, nofun⟩
    transactionHash := firstHash
    suitable := true
    id := 9
    now := 0 }

/-- The escrow, ten steps of the transaction up to the dispatch, and a commit that fails. -/
def uncommittedSettlement : List StepReply :=
  List.replicate 10 (.answered fundedAnswer) ++
    [.failed (.thrown (.error "QueryFailedError: could not serialize access"))]

theorem settlement_dispatchedUncommitted :
    ¬(Operation.ledger (.adminSettleInvoice ⟨100, "GADMIN"⟩)
      uncommittedSettlement).AnnouncesCommitted announced := by
  decide +kernel

end StellarSettle.AfterCommit
