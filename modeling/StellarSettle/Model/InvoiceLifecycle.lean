import StellarSettle.Core.Checks
import StellarSettle.Model.Entities

/-!
# The invoice entity and its state machine

Saving an invoice runs the entity's update hook, which recomputes the net
amount, and meets the table's constraints.  A status change goes through the
transition rules, and its history row is written by the same transaction.
-/

namespace StellarSettle.InvoiceLifecycle

open StellarSettle.Checks
open StellarSettle.DecimalJs
open StellarSettle.Entities

/-! ## The entity -/

/-- `Invoice.calculateNetAmount`, for an amount in units of `10 ^ -4` and a rate
in units of `10 ^ -2`. -/
def calculateNetAmount (amount discountRate : ℤ) : Except Thrown ℤ := do
  throwIf (amount < 0 ∨ discountRate < 0 ∨ 100 * 10 ^ 2 < discountRate)
    (.appError 400
      "Amount must be non-negative and discount rate must be between 0 and 100"
      .invalidAmountOrDiscount)
  let amt := ofUnits amount
  let disc : Decimal := (discountRate : ℚ) / 10 ^ 2
  return toFixed4 (minus amt (times amt (dividedBy disc 100)))

/-- `calculateAndFormatAmounts`, which runs before an insert or an update. -/
def calculateAndFormatAmounts (invoice : Invoice) : Except Thrown Invoice := do
  throwIf (invoice.amount < 0) (.appError 400 "Amount must be positive" .invalidAmount)
  throwIf (invoice.discountRate < 0 ∨ 100 * 10 ^ 2 < invoice.discountRate)
    (.appError 400 "Discount rate must be between 0 and 100" .invalidDiscountRate)
  let netAmount ← calculateNetAmount invoice.amount invoice.discountRate
  return { invoice with netAmount := netAmount }

/-- What the `invoices` table accepts: `chk_invoices_funded_amount_within_net`
and the range of a `decimal(18,4)` column. -/
def Storable (invoice : Invoice) : Prop :=
  0 ≤ invoice.fundedAmount ∧ invoice.fundedAmount ≤ invoice.netAmount ∧
    invoice.netAmount < 10 ^ 18

instance (invoice : Invoice) : Decidable (Storable invoice) :=
  inferInstanceAs (Decidable (_ ∧ _ ∧ _))

/-- The table's answer to a new version of a row. -/
def writeInvoice (invoice : Invoice) : Except Thrown Invoice := do
  throwIf (¬Storable invoice) (.error "QueryFailedError: invoices row rejected by the table")
  return invoice

/-- `manager.save(Invoice, entity)` over the stored `row`: nothing is written when
no column differs, otherwise the hook runs and the version advances. -/
def persistInvoice (row entity : Invoice) : Except Thrown Invoice :=
  if entity = row then .ok row
  else do
    let formatted ← calculateAndFormatAmounts entity
    let version := if entity.version = row.version then row.version + 1 else entity.version
    writeInvoice { formatted with version := version }

@[simp]
theorem writeInvoice_eq_ok {invoice written : Invoice} :
    writeInvoice invoice = .ok written ↔ Storable invoice ∧ invoice = written := by
  simp [writeInvoice, pure, Except.pure]

/-- What a successful save leaves in the table. -/
theorem persistInvoice_cases {row entity saved : Invoice}
    (hsave : persistInvoice row entity = .ok saved) :
    (entity = row ∧ saved = row) ∨
      (entity ≠ row ∧ Storable saved ∧ ∃ netAmount, saved = { entity with
        netAmount := netAmount
        version := if entity.version = row.version then row.version + 1
          else entity.version }) := by
  unfold persistInvoice at hsave
  split at hsave
  · rename_i heq
    exact .inl ⟨heq, (Except.ok.inj hsave).symm⟩
  · rename_i hne
    obtain ⟨formatted, hformat, hwrite⟩ := bind_eq_ok.mp hsave
    obtain ⟨_, _, hformat⟩ := bind_eq_ok.mp hformat
    obtain ⟨_, _, hformat⟩ := bind_eq_ok.mp hformat
    obtain ⟨netAmount, _, hformat⟩ := bind_eq_ok.mp hformat
    obtain rfl := Except.ok.inj hformat
    obtain ⟨hstorable, rfl⟩ := writeInvoice_eq_ok.mp hwrite
    exact .inr ⟨hne, hstorable, netAmount, rfl⟩

/-- A save keeps every column of the entity but the net amount and the version. -/
theorem status_of_persistInvoice {row entity saved : Invoice}
    (hsave : persistInvoice row entity = .ok saved) : saved.status = entity.status := by
  rcases persistInvoice_cases hsave with ⟨rfl, rfl⟩ | ⟨_, _, netAmount, rfl⟩ <;> rfl

/-! ## Dates -/

def MS_PER_DAY : ℤ := 24 * 60 * 60 * 1000

/-- A `date` column carries no time: it stands for the end of its day. -/
def endOfDayUTC (dueDate : ℤ) : Timestamp := (dueDate + 1) * MS_PER_DAY - 1

def isPastDueDate (dueDate : ℤ) (now : Timestamp) : Bool := decide (endOfDayUTC dueDate < now)

/-- `new Date(dueDate)` of a `date` column is its midnight. -/
def startOfDayUTC (dueDate : ℤ) : Timestamp := dueDate * MS_PER_DAY

/-! ## Publishing -/

structure ValidationError where
  field : String
  code : String
  message : String
  deriving DecidableEq, Repr

def MIN_LEAD_TIME_MS : ℤ := 24 * 60 * 60 * 1000

/-- One hundred, in units of `10 ^ -4`. -/
def MIN_FACE_VALUE_XLM : ℤ := 100 * 10 ^ 4

def validateFundingDeadline (dueDate : Option ℤ) (now : Timestamp) : Option ValidationError :=
  match dueDate with
  | none => some ⟨"dueDate", "DUE_DATE_IN_PAST",
      "Invoice funding deadline is missing or not a valid date."⟩
  | some day =>
      let leadTimeMs := startOfDayUTC day - now
      if leadTimeMs ≤ 0 then
        some ⟨"dueDate", "DUE_DATE_IN_PAST", "Invoice funding deadline is in the past."⟩
      else if leadTimeMs < MIN_LEAD_TIME_MS then
        some ⟨"dueDate", "DUE_DATE_TOO_SOON",
          "Invoice funding deadline must be at least 24 hours in the future."⟩
      else none

def validateInvoiceForPublish (invoice : Invoice) (now : Timestamp) : List ValidationError :=
  (if invoice.amount < MIN_FACE_VALUE_XLM then
    [⟨"amount", "FACE_VALUE_TOO_LOW", "Invoice face value must be at least 100.0000 XLM."⟩]
  else []) ++
  (validateFundingDeadline invoice.dueDate now).toList ++
  (if invoice.ipfsHash.isNone then
    [⟨"ipfsHash", "MISSING_DOCUMENT",
      "Invoice must have at least one document attached before it can be published."⟩]
  else [])

/-! ## The state machine -/

structure TransitionActor where
  role : InvoiceTransitionActorRole
  id : Option Uuid := none
  wallet : Option String := none
  deriving DecidableEq, Repr

/-- `fundedAmount` is a four-decimal text in units of `10 ^ -4`. -/
structure TransitionContext where
  fundedAmount : Option ℤ := none
  reason : Option String := none
  now : Timestamp := 0
  deriving DecidableEq, Repr

inductive TransitionGuard where
  | publishReady
  | reasonRequired
  | fullyFunded
  deriving DecidableEq, Repr

structure TransitionRule where
  source : InvoiceStatus
  target : InvoiceStatus
  roles : List InvoiceTransitionActorRole
  guard : Option TransitionGuard := none
  guardCode : ErrorCode := .transitionPreconditionFailed
  deriving DecidableEq, Repr

def TRANSITION_RULES : List TransitionRule :=
  [ ⟨.draft, .pending, [.seller], some .publishReady, .invoiceNotPublishable⟩,
    ⟨.draft, .published, [.seller], some .publishReady, .invoiceNotPublishable⟩,
    ⟨.pending, .published, [.admin], some .publishReady, .invoiceNotPublishable⟩,
    { source := .draft, target := .rejected, roles := [.admin], guard := some .reasonRequired },
    { source := .pending, target := .rejected, roles := [.admin], guard := some .reasonRequired },
    { source := .published, target := .funded, roles := [.system], guard := some .fullyFunded },
    { source := .funded, target := .settled, roles := [.admin, .system] },
    { source := .published, target := .failed, roles := [.system] },
    { source := .draft, target := .cancelled, roles := [.seller, .admin] },
    { source := .pending, target := .cancelled, roles := [.seller, .admin] },
    { source := .published, target := .cancelled, roles := [.admin] },
    { source := .funded, target := .cancelled, roles := [.admin] } ]

def allowedTransitionsFrom (source : InvoiceStatus) : List InvoiceStatus :=
  (TRANSITION_RULES.filter fun rule => rule.source == source).map fun rule => rule.target

def findRule (source target : InvoiceStatus) : Option TransitionRule :=
  TRANSITION_RULES.find? fun rule => rule.source == source && rule.target == target

/-- Characters that JavaScript's `trim` removes. -/
def isTrimmed (c : Char) : Bool :=
  (9 ≤ c.toNat && c.toNat ≤ 13) || (0x2000 ≤ c.toNat && c.toNat ≤ 0x200A) ||
    [0x20, 0xA0, 0x1680, 0x2028, 0x2029, 0x202F, 0x205F, 0x3000, 0xFEFF].contains c.toNat

/-- `context.reason?.trim() || null`. -/
def trimmedReason (reason : Option String) : Option String :=
  match reason with
  | none => none
  | some text =>
      let kept := ((text.toList.dropWhile isTrimmed).reverse.dropWhile isTrimmed).reverse
      if kept.isEmpty then none else some (String.ofList kept)

/-- The message of a failed guard, or nothing when the precondition holds. -/
def TransitionGuard.failure (guard : TransitionGuard) (invoice : Invoice)
    (context : TransitionContext) : Option String :=
  match guard with
  | publishReady =>
      let errors := validateInvoiceForPublish invoice context.now
      if errors.isEmpty then none
      else some ("Invoice failed pre-publish validation: " ++
        " ".intercalate (errors.map fun error => error.message))
  | reasonRequired =>
      if (trimmedReason context.reason).isSome then none
      else some "A reason is required to reject an invoice."
  | fullyFunded =>
      match context.fundedAmount with
      | none => some "The funded amount is required to mark an invoice as funded."
      | some funded =>
          if invoice.netAmount ≤ funded then none
          else some (s!"Invoice is not fully funded: {fixed4Text funded} of " ++
            s!"{fixed4Text invoice.netAmount} committed.")

def invalidStatusTransition (source target : InvoiceStatus) : ServiceError :=
  let allowed := allowedTransitionsFrom source
  { code := .invalidStatusTransition
    message := s!"Cannot transition invoice from {source.text} to {target.text}. " ++
      (if allowed.isEmpty then s!"{source.text} is a terminal status."
      else s!"Allowed next statuses from {source.text}: " ++
        ", ".intercalate (allowed.map InvoiceStatus.text) ++ ".")
    statusCode := 422
    details := .transition source target }

def transitionNotPermitted (source target : InvoiceStatus) (message : String) : ServiceError :=
  { code := .transitionNotPermitted
    message := message
    statusCode := 403
    details := .transition source target }

def roleText : InvoiceTransitionActorRole → String
  | .seller => "seller"
  | .admin => "admin"
  | .system => "system"

def assertTransition (invoice : Invoice) (target : InvoiceStatus) (actor : TransitionActor)
    (context : TransitionContext) : Except Thrown Unit := do
  let rule ← orThrow (findRule invoice.status target)
    (.service (invalidStatusTransition invoice.status target))
  let ownerMismatch := actor.role == .seller && actor.id != invoice.sellerId
  throwIf (!rule.roles.contains actor.role || ownerMismatch)
    (.service (transitionNotPermitted invoice.status target
      (if ownerMismatch && rule.roles.contains .seller then
        s!"Only the invoice's seller can move it from {invoice.status.text} to {target.text}."
      else
        s!"Role {roleText actor.role} cannot move an invoice from {invoice.status.text} to {target.text}.")))
  match rule.guard.bind fun guard => guard.failure invoice context with
  | none => return ()
  | some failure =>
      .error (.service
        { code := rule.guardCode
          message := failure
          statusCode := 422
          details := .transition invoice.status target })

/-- The invoice as `transition` saves it, and the history row it appends. -/
structure InvoiceTransition where
  invoice : Invoice
  history : InvoiceStatusHistory
  deriving DecidableEq, Repr

structure TransitionOptions where
  actor : TransitionActor
  trigger : InvoiceTransitionReason
  context : TransitionContext := {}
  deriving DecidableEq, Repr

/-- `entityManagerTransitionStore(manager).saveInvoice` over the stored row. -/
def saveInvoice (intentInFlight : Bool) (row entity : Invoice) : Except Thrown Invoice := do
  throwIf (entity.status = .cancelled ∧ intentInFlight = true)
    (.service
      { code := .settlementInProgress
        message := "Invoice cannot be cancelled while a settlement payout is pending"
        statusCode := 409 })
  persistInvoice row entity

/-- `InvoiceStateMachine.transition` of the in-memory `entity` over the stored
`row`. -/
def transition (intentInFlight : Bool) (row entity : Invoice) (target : InvoiceStatus)
    (options : TransitionOptions) : Except Thrown InvoiceTransition := do
  assertTransition entity target options.actor options.context
  let reason := trimmedReason options.context.reason
  let saved ← saveInvoice intentInFlight row
    { entity with
      status := target
      rejectionReason := if target = .rejected then reason else entity.rejectionReason }
  return {
    invoice := saved
    history :=
      { fromStatus := entity.status
        toStatus := target
        actorRole := options.actor.role
        actorId := (options.actor.id.map fun id => toString id).or options.actor.wallet
        trigger := options.trigger
        reason := reason } }

/-- A successful transition passed the rules and saved the entity with its new
status, and its history row records the move. -/
theorem transition_eq_ok {intentInFlight : Bool} {row entity : Invoice}
    {target : InvoiceStatus} {options : TransitionOptions} {result : InvoiceTransition}
    (hok : transition intentInFlight row entity target options = .ok result) :
    assertTransition entity target options.actor options.context = .ok () ∧
      persistInvoice row { entity with
        status := target
        rejectionReason := if target = .rejected then trimmedReason options.context.reason
          else entity.rejectionReason } = .ok result.invoice ∧
      result.history.fromStatus = entity.status ∧ result.history.toStatus = target := by
  obtain ⟨_, hassert, hsave⟩ := bind_eq_ok.mp hok
  obtain ⟨saved, hsaved, hresult⟩ := bind_eq_ok.mp hsave
  obtain ⟨_, _, hpersist⟩ := bind_eq_ok.mp hsaved
  obtain rfl := Except.ok.inj hresult
  exact ⟨hassert, hpersist, rfl, rfl⟩

/-- A permitted transition whose save goes through succeeds. -/
theorem exists_transition {intentInFlight : Bool} {row entity saved : Invoice}
    {target : InvoiceStatus} {options : TransitionOptions}
    (hassert : assertTransition entity target options.actor options.context = .ok ())
    (hflight : ¬(target = .cancelled ∧ intentInFlight = true))
    (hsave : persistInvoice row { entity with
      status := target
      rejectionReason := if target = .rejected then trimmedReason options.context.reason
        else entity.rejectionReason } = .ok saved) :
    ∃ moved, transition intentInFlight row entity target options = .ok moved := by
  rw [transition, hassert, ok_bind]
  dsimp only
  rw [saveInvoice, throwIf_neg hflight, ok_bind, hsave]
  exact ⟨_, rfl⟩

theorem status_of_transition {intentInFlight : Bool} {row entity : Invoice}
    {target : InvoiceStatus} {options : TransitionOptions} {moved : InvoiceTransition}
    (hok : transition intentInFlight row entity target options = .ok moved) :
    moved.invoice.status = target :=
  status_of_persistInvoice (transition_eq_ok hok).2.1

/-- Codes of the service errors a transition can raise. -/
def transitionCodes : List ErrorCode :=
  [.invalidStatusTransition, .transitionNotPermitted, .invoiceNotPublishable,
    .transitionPreconditionFailed, .settlementInProgress]

theorem guardCode_mem_transitionCodes :
    ∀ rule ∈ TRANSITION_RULES, rule.guardCode ∈ transitionCodes := by
  decide

theorem assertTransition_error_code {invoice : Invoice} {target : InvoiceStatus}
    {actor : TransitionActor} {context : TransitionContext} {thrown : Thrown}
    {code : ErrorCode}
    (herror : assertTransition invoice target actor context = .error thrown)
    (hcode : thrown.hasCode code = true) : code ∈ transitionCodes := by
  rcases bind_eq_error.mp herror with hmissing | ⟨rule, hrule, hrest⟩
  · obtain ⟨_, rfl⟩ := orThrow_eq_error.mp hmissing
    obtain rfl := of_decide_eq_true hcode
    exact List.mem_cons_self
  · rcases bind_eq_error.mp hrest with hrole | ⟨_, _, hguard⟩
    · obtain ⟨_, rfl⟩ := throwIf_eq_error.mp hrole
      obtain rfl := of_decide_eq_true hcode
      exact List.mem_cons_of_mem _ List.mem_cons_self
    · have hmem := List.mem_of_find?_eq_some (orThrow_eq_ok.mp hrule)
      split at hguard
      · cases hguard
      · obtain rfl := Except.error.inj hguard
        obtain rfl := of_decide_eq_true hcode
        exact guardCode_mem_transitionCodes rule hmem

theorem persistInvoice_error_code {row entity : Invoice} {thrown : Thrown} {code : ErrorCode}
    (herror : persistInvoice row entity = .error thrown) : thrown.hasCode code = false := by
  unfold persistInvoice at herror
  split at herror
  · cases herror
  · simp only [bind_eq_error, calculateAndFormatAmounts, calculateNetAmount, writeInvoice,
      throwIf_eq_error, pure_ne_error, and_false, exists_false, or_false] at herror
    rcases herror with (⟨_, rfl⟩ | ⟨_, _, ⟨_, rfl⟩ | ⟨_, _, _, rfl⟩⟩) | ⟨_, _, _, rfl⟩ <;> rfl

/-- Every service error of a transition carries a code of the state machine. -/
theorem transition_error_code {intentInFlight : Bool} {row entity : Invoice}
    {target : InvoiceStatus} {options : TransitionOptions} {thrown : Thrown}
    {code : ErrorCode} (herror : transition intentInFlight row entity target options =
      .error thrown) (hcode : thrown.hasCode code = true) : code ∈ transitionCodes := by
  rcases bind_eq_error.mp herror with hassert | ⟨_, _, hrest⟩
  · exact assertTransition_error_code hassert hcode
  · rcases bind_eq_error.mp hrest with hsave | ⟨_, _, hnever⟩
    · rcases bind_eq_error.mp hsave with hcancelled | ⟨_, _, hpersist⟩
      · obtain ⟨_, rfl⟩ := throwIf_eq_error.mp hcancelled
        obtain rfl := of_decide_eq_true hcode
        decide
      · rw [persistInvoice_error_code hpersist] at hcode
        cases hcode
    · cases hnever

/-- Two versions of an invoice that agree on what a transition leaves alone. -/
def SameTerms (entity saved : Invoice) : Prop :=
  saved = { entity with
    status := saved.status
    rejectionReason := saved.rejectionReason
    netAmount := saved.netAmount
    version := saved.version }

theorem SameTerms.fundedAmount {entity saved : Invoice} (hterms : SameTerms entity saved) :
    saved.fundedAmount = entity.fundedAmount := by
  rw [SameTerms] at hterms
  rw [hterms]

/-- The context that a rule's precondition was checked in: its reason is the recorded
one, its funded amount the saved one, and its time the time of the move. -/
structure CheckedIn (now : Timestamp) (saved : Invoice) (history : InvoiceStatusHistory)
    (rule : TransitionRule) (context : TransitionContext) : Prop where
  reason : history.reason = trimmedReason context.reason
  fundedAmount : rule.guard = some .fullyFunded →
    context.fundedAmount = some saved.fundedAmount
  now : rule.guard = some .publishReady → context.now = now

/-- The saved invoice has the new status of the history row, and the rule for the move
admits the actor's role and found its precondition met. -/
structure Admitted (now : Timestamp) (saved : Invoice) (history : InvoiceStatusHistory) :
    Prop where
  target : saved.status = history.toStatus
  rule : ∃ rule entity context,
    findRule history.fromStatus history.toStatus = some rule ∧
      history.actorRole ∈ rule.roles ∧
      (∀ guard ∈ rule.guard, guard.failure entity context = none) ∧
      entity.status = history.fromStatus ∧ SameTerms entity saved ∧
      CheckedIn now saved history rule context

theorem assertTransition_eq_ok {invoice : Invoice} {target : InvoiceStatus}
    {actor : TransitionActor} {context : TransitionContext}
    (hok : assertTransition invoice target actor context = .ok ()) :
    ∃ rule, findRule invoice.status target = some rule ∧ actor.role ∈ rule.roles ∧
      ∀ guard ∈ rule.guard, guard.failure invoice context = none := by
  obtain ⟨rule, hrule, hrest⟩ := bind_eq_ok.mp hok
  obtain ⟨_, hroles, hguard⟩ := bind_eq_ok.mp hrest
  refine ⟨rule, orThrow_eq_ok.mp hrule, ?_, fun guard hmem => ?_⟩
  · have hpermitted := throwIf_eq_ok.mp hroles
    simp only [Bool.or_eq_true, not_or] at hpermitted
    simpa using hpermitted.1
  · rw [show rule.guard = some guard from hmem] at hguard
    split at hguard
    · rename_i hnone
      exact hnone
    · cases hguard

/-- The moves that have a precondition on the funded amount, or on the time. -/
theorem target_of_guard {source target : InvoiceStatus} {rule : TransitionRule}
    (hrule : findRule source target = some rule) :
    (rule.guard = some .fullyFunded → target = .funded) ∧
      (rule.guard = some .publishReady → target = .pending ∨ target = .published) := by
  have hguards : ∀ rule ∈ TRANSITION_RULES,
      (rule.guard = some .fullyFunded → rule.target = .funded) ∧
        (rule.guard = some .publishReady → rule.target = .pending ∨ rule.target = .published) := by
    decide
  have htarget : rule.target = target := by
    have hmatches := List.find?_some hrule
    rw [Bool.and_eq_true] at hmatches
    exact eq_of_beq hmatches.2
  rw [← htarget]
  exact hguards rule (List.mem_of_find?_eq_some hrule)

/-- What a transition writes is admitted, and starts from the entity's status. -/
theorem admitted_of_transition {intentInFlight : Bool} {row entity : Invoice}
    {target : InvoiceStatus} {options : TransitionOptions} {moved : InvoiceTransition}
    {now : Timestamp}
    (hfunded : target = .funded →
      ∀ funded ∈ options.context.fundedAmount, funded = entity.fundedAmount)
    (hnow : target = .pending ∨ target = .published → options.context.now = now)
    (hok : transition intentInFlight row entity target options = .ok moved) :
    Admitted now moved.invoice moved.history ∧ moved.history.fromStatus = entity.status ∧
      moved.history.toStatus = target := by
  have hstatus := status_of_transition hok
  obtain ⟨hassert, hsave, hfrom, hto⟩ := transition_eq_ok hok
  obtain ⟨hrole, hreason⟩ : moved.history.actorRole = options.actor.role ∧
      moved.history.reason = trimmedReason options.context.reason := by
    obtain ⟨_, _, hrest⟩ := bind_eq_ok.mp hok
    obtain ⟨_, _, hresult⟩ := bind_eq_ok.mp hrest
    obtain rfl := Except.ok.inj hresult
    exact ⟨rfl, rfl⟩
  have hterms : SameTerms entity moved.invoice := by
    rcases persistInvoice_cases hsave with ⟨hentity, hsame⟩ | ⟨_, _, netAmount, hsaved⟩
    · rw [SameTerms, hsame, ← hentity]
    · rw [SameTerms, hsaved]
  obtain ⟨rule, hrule, hroles, hguard⟩ := assertTransition_eq_ok hassert
  obtain ⟨hfull, hready⟩ := target_of_guard hrule
  refine ⟨⟨hstatus.trans hto.symm, rule, entity, options.context, ?_, ?_, hguard, hfrom.symm,
    hterms, hreason, fun hmem => ?_, fun hmem => hnow (hready hmem)⟩, hfrom, hto⟩
  · rw [hfrom, hto]
    exact hrule
  · rw [hrole]
    exact hroles
  · -- The precondition fails without a funded amount.
    have hpassed := hguard .fullyFunded hmem
    rw [TransitionGuard.failure] at hpassed
    cases hcontext : options.context.fundedAmount with
    | none => rw [hcontext] at hpassed; cases hpassed
    | some funded =>
        rw [hfunded (hfull hmem) funded hcontext, hterms.fundedAmount]

end StellarSettle.InvoiceLifecycle
