import StellarSettle.Core.TransitionSystem
import StellarSettle.Webhooks.UrlValidation

/-!
# The delivery of webhooks

`dispatchWebhookEvent` delivers an event to all subscriptions at once and awaits them together.
Requests and writes of the delivery log are answered later and in any order.  A call may be
rejected while deliveries of it go on.
-/

namespace StellarSettle.WebhookDispatcher

open StellarSettle.TransitionSystem
open StellarSettle.UrlValidation (Environment validateWebhookUrl)

/-! ## Data -/

structure WebhookSubscription where
  id : ℕ
  url : String
  active : Bool
  eventTypes : List String
  deriving DecidableEq, Repr

structure WebhookDeliveryLog where
  subscriptionId : ℕ
  eventType : String
  eventId : Option String
  attempt : ℕ
  responseStatus : Option ℕ
  delivered : Bool
  errorMessage : Option String
  deriving DecidableEq, Repr

structure WebhookDispatchResult where
  subscriptionId : ℕ
  delivered : Bool
  attempts : ℕ
  responseStatus : Option ℕ
  duplicate : Bool
  deriving DecidableEq, Repr

/-- What a delivery waits for. -/
inductive Phase where
  | checking
  | checked (found : Bool)
  /-- The log of an address that was refused. -/
  | refusing (errorMsg : String)
  | requested (attempt : ℕ) (lastStatus : Option ℕ)
  | logging (attempt status : ℕ)
  /-- The log in the catch block. -/
  | catching (attempt : ℕ) (lastStatus : Option ℕ) (lastError : String)
  | waiting (attempt : ℕ) (lastStatus : Option ℕ)
  | returned (result : WebhookDispatchResult)
  | thrown
  deriving DecidableEq, Repr

structure Delivery where
  call : ℕ
  eventType : String
  subscription : WebhookSubscription
  phase : Phase
  deriving DecidableEq, Repr

/-- A request, or the answer to one. -/
inductive Exchange where
  | sent (delivery subscriptionId : ℕ)
  | answered (delivery subscriptionId status : ℕ)
  deriving DecidableEq, Repr

/-- The latest rows and exchanges come first. -/
structure State where
  calls : ℕ := 0
  deliveries : List Delivery := []
  log : List WebhookDeliveryLog
  exchanges : List Exchange := []
  deriving DecidableEq, Repr

/-- What a delivery meets.  A write that fails may have stored its row. -/
inductive Happening where
  | read
  | resumed
  | answered (status : ℕ)
  | failed (error : String)
  | written
  | writeFailed (stored : Bool) (error : String)
  | timer
  deriving DecidableEq, Repr

inductive Event where
  | start (eventType : String) (subscriptions : List WebhookSubscription)
  | happens (delivery : ℕ) (happening : Happening)
  deriving DecidableEq, Repr

/-! ## A delivery -/

def successful (status : ℕ) : Bool := decide (200 ≤ status ∧ status < 300)

/-- No query is made for an empty event id. -/
def alreadyDelivered (log : List WebhookDeliveryLog) (subscriptionId : ℕ) (eventId : String) :
    Bool :=
  log.any fun row =>
    row.subscriptionId == subscriptionId && row.eventId == some eventId && row.delivered

structure Outcome where
  phase : Phase
  rows : List WebhookDeliveryLog := []
  exchanges : List Exchange := []
  deriving DecidableEq, Repr

section Deliver

variable (environment : Environment) (eventId : String) (log : List WebhookDeliveryLog)
  (index : ℕ) (delivery : Delivery)

def logRow (attempt : ℕ) (responseStatus : Option ℕ) (delivered : Bool)
    (errorMessage : Option String) : WebhookDeliveryLog :=
  { subscriptionId := delivery.subscription.id
    eventType := delivery.eventType
    eventId := some eventId
    attempt := attempt
    responseStatus := responseStatus
    delivered := delivered
    errorMessage := errorMessage }

def result (delivered : Bool) (attempts : ℕ) (responseStatus : Option ℕ) (duplicate : Bool) :
    Phase :=
  .returned
    { subscriptionId := delivery.subscription.id
      delivered := delivered
      attempts := attempts
      responseStatus := responseStatus
      duplicate := duplicate }

/-- The head of the loop, with the request of its body. -/
def iterate (attempt : ℕ) (lastStatus : Option ℕ) : Outcome :=
  if attempt ≤ 3 then
    { phase := .requested attempt lastStatus
      exchanges := [.sent index delivery.subscription.id] }
  else { phase := result delivery false 3 lastStatus false }

/-- What follows a request and its log. -/
def endAttempt (attempt : ℕ) (lastStatus : Option ℕ) : Outcome :=
  if attempt < 3 then { phase := .waiting attempt lastStatus }
  else iterate index delivery (attempt + 1) lastStatus

def responseRow (attempt status : ℕ) : WebhookDeliveryLog :=
  logRow eventId delivery attempt (some status) (successful status)
    (if successful status then none else some s!"HTTP {status}")

def storedRows (stored : Bool) (row : WebhookDeliveryLog) : List WebhookDeliveryLog :=
  if stored then [row] else []

def deliver : Happening → Option Outcome
  | .read =>
      match delivery.phase with
      | .checking =>
          let found := eventId != "" && alreadyDelivered log delivery.subscription.id eventId
          some { phase := .checked found }
      | _ => none
  | .resumed =>
      match delivery.phase with
      | .checked true => some { phase := result delivery false 0 none true }
      | .checked false =>
          match validateWebhookUrl environment delivery.subscription.url with
          | .error error => some { phase := .refusing error.message }
          | .ok () => some (iterate index delivery 1 none)
      | _ => none
  | .answered status =>
      match delivery.phase with
      | .requested attempt _ =>
          some
            { phase := .logging attempt status
              exchanges := [.answered index delivery.subscription.id status] }
      | _ => none
  | .failed error =>
      match delivery.phase with
      | .requested attempt lastStatus => some { phase := .catching attempt lastStatus error }
      | _ => none
  | .written =>
      match delivery.phase with
      | .refusing errorMsg =>
          some
            { phase := result delivery false 0 none false
              rows := [logRow eventId delivery 0 none false (some errorMsg)] }
      | .logging attempt status =>
          let next := if successful status then
              { phase := result delivery true attempt (some status) false }
            else endAttempt index delivery attempt (some status)
          some { next with rows := [responseRow eventId delivery attempt status] }
      | .catching attempt lastStatus lastError =>
          some
            { endAttempt index delivery attempt lastStatus with
              rows := [logRow eventId delivery attempt lastStatus false (some lastError)] }
      | _ => none
  | .writeFailed stored error =>
      match delivery.phase with
      | .refusing errorMsg =>
          some
            { phase := .thrown
              rows := storedRows stored (logRow eventId delivery 0 none false (some errorMsg)) }
      | .logging attempt status =>
          some
            { phase := .catching attempt (some status) error
              rows := storedRows stored (responseRow eventId delivery attempt status) }
      | .catching attempt lastStatus lastError =>
          some
            { phase := .thrown
              rows := storedRows stored
                (logRow eventId delivery attempt lastStatus false (some lastError)) }
      | _ => none
  | .timer =>
      match delivery.phase with
      | .waiting attempt lastStatus => some (iterate index delivery (attempt + 1) lastStatus)
      | _ => none

end Deliver

/-! ## Calls -/

def Phase.result? : Phase → Option WebhookDispatchResult
  | .returned result => some result
  | _ => none

/-- `Promise.all`: the results in the order of the subscriptions, or the first error. -/
def outcome (state : State) (call : ℕ) : Option (Except Unit (List WebhookDispatchResult)) :=
  let own := state.deliveries.filter fun delivery => delivery.call == call
  if own.any fun delivery : Delivery => delivery.phase == .thrown then some (.error ())
  else (own.mapM fun delivery : Delivery => delivery.phase.result?).map .ok

def eligible (eventType : String) (subscriptions : List WebhookSubscription) :
    List WebhookSubscription :=
  subscriptions.filter fun subscription =>
    subscription.active && subscription.eventTypes.contains eventType

def afterMove (state : State) (index : ℕ) (delivery : Delivery) (moved : Outcome) : State :=
  { state with
    deliveries := state.deliveries.set index { delivery with phase := moved.phase }
    log := moved.rows ++ state.log
    exchanges := moved.exchanges ++ state.exchanges }

def newDelivery (call : ℕ) (eventType : String) (subscription : WebhookSubscription) : Delivery :=
  { call := call, eventType := eventType, subscription := subscription, phase := .checking }

/-- A call starts when the one before has settled, and reads the subscriptions of that time. -/
def step (environment : Environment) (eventId : String) (state : State) : Event → Option State
  | .start eventType subscriptions =>
      if (∀ call < state.calls, (outcome state call).isSome = true) ∧
          (subscriptions.map WebhookSubscription.id).Nodup then
        some
          { state with
            calls := state.calls + 1
            deliveries := state.deliveries ++
              (eligible eventType subscriptions).map (newDelivery state.calls eventType) }
      else none
  | .happens index happening => do
      let delivery ← state.deliveries[index]?
      let next ← deliver environment eventId state.log index delivery happening
      return afterMove state index delivery next

/-! ## What calls promise -/

/-- An endpoint has answered with a 2xx status. -/
def Succeeded (exchanges : List Exchange) (subscriptionId : ℕ) : Prop :=
  ∃ delivery status, .answered delivery subscriptionId status ∈ exchanges ∧
    successful status = true

/-- No request follows a success of its subscription. -/
def NoneAfterSuccess : List Exchange → Prop
  | [] => True
  | .sent _ subscriptionId :: before => ¬Succeeded before subscriptionId ∧ NoneAfterSuccess before
  | .answered .. :: before => NoneAfterSuccess before

def requests (exchanges : List Exchange) (delivery : ℕ) : ℕ :=
  exchanges.countP fun exchange =>
    match exchange with
    | .sent index _ => index == delivery
    | .answered .. => false

structure Lawful (state : State) : Prop where
  once : NoneAfterSuccess state.exchanges
  attempts : ∀ delivery, requests state.exchanges delivery ≤ 3
  /-- A call that is rejected loses no result of another subscription. -/
  kept : ∀ call, outcome state call = some (.error ()) →
    ∀ {index other : ℕ} {delivery another : Delivery}, state.deliveries[index]? = some delivery →
      state.deliveries[other]? = some another → delivery.call = call → another.call = call →
        index = other

def Alone (state : State) (index : ℕ) (delivery : Delivery) : Prop :=
  ∀ (other : ℕ) (another : Delivery), state.deliveries[other]? = some another →
    another.call = delivery.call → other = index

/-- The log of a success fails on the last attempt only, and then has stored its row.  Where a
log fails that ends the delivery, the call has no other.  With an empty event id, nothing is sent
to an endpoint that has succeeded. -/
def CarefulMove (environment : Environment) (eventId : String) (state : State) (index : ℕ)
    (delivery : Delivery) : Happening → Phase → Prop
  | .resumed, .checked false =>
      eventId = "" → validateWebhookUrl environment delivery.subscription.url = .ok () →
        ¬Succeeded state.exchanges delivery.subscription.id
  | .writeFailed stored _, .logging attempt status =>
      successful status = true → 3 ≤ attempt ∧ stored = true
  | .writeFailed .., .refusing _ | .writeFailed .., .catching .. => Alone state index delivery
  | _, _ => True

def Careful (environment : Environment) (eventId : String) (state : State) : Event → Prop
  | .start .. => True
  | .happens index happening =>
      ∀ delivery, state.deliveries[index]? = some delivery →
        CarefulMove environment eventId state index delivery happening delivery.phase

/-! ## The steps of a delivery -/

variable {environment : Environment} {eventId : String} {state next : State}

/-- No request follows the third attempt. -/
def endPhase (delivery : Delivery) (attempt : ℕ) (lastStatus : Option ℕ) : Phase :=
  if attempt < 3 then .waiting attempt lastStatus else result delivery false 3 lastStatus false

/-- What a delivery can do. -/
inductive Moves (environment : Environment) (eventId : String) (log : List WebhookDeliveryLog)
    (index : ℕ) (delivery : Delivery) : Happening → Phase → Outcome → Prop where
  | read : Moves environment eventId log index delivery .read .checking
      { phase := .checked
          (eventId != "" && alreadyDelivered log delivery.subscription.id eventId) }
  | skipped : Moves environment eventId log index delivery .resumed (.checked true)
      { phase := result delivery false 0 none true }
  | refused {errorMsg : String}
      (hinvalid : validateWebhookUrl environment delivery.subscription.url ≠ .ok ()) :
      Moves environment eventId log index delivery .resumed (.checked false)
        { phase := .refusing errorMsg }
  | begun (hvalid : validateWebhookUrl environment delivery.subscription.url = .ok ()) :
      Moves environment eventId log index delivery .resumed (.checked false)
        { phase := .requested 1 none, exchanges := [.sent index delivery.subscription.id] }
  | answered {attempt status : ℕ} {lastStatus : Option ℕ} :
      Moves environment eventId log index delivery (.answered status)
        (.requested attempt lastStatus)
        { phase := .logging attempt status
          exchanges := [.answered index delivery.subscription.id status] }
  | failed {attempt : ℕ} {lastStatus : Option ℕ} {error : String} :
      Moves environment eventId log index delivery (.failed error)
        (.requested attempt lastStatus) { phase := .catching attempt lastStatus error }
  | loggedRefusal {errorMsg : String} :
      Moves environment eventId log index delivery .written (.refusing errorMsg)
        { phase := result delivery false 0 none false
          rows := [logRow eventId delivery 0 none false (some errorMsg)] }
  | loggedSuccess {attempt status : ℕ} (hsuccess : successful status = true) :
      Moves environment eventId log index delivery .written (.logging attempt status)
        { phase := result delivery true attempt (some status) false
          rows := [responseRow eventId delivery attempt status] }
  | loggedStatus {attempt status : ℕ} (hfailure : successful status = false) :
      Moves environment eventId log index delivery .written (.logging attempt status)
        { phase := endPhase delivery attempt (some status)
          rows := [responseRow eventId delivery attempt status] }
  | loggedError {attempt : ℕ} {lastStatus : Option ℕ} {lastError : String} :
      Moves environment eventId log index delivery .written
        (.catching attempt lastStatus lastError)
        { phase := endPhase delivery attempt lastStatus
          rows := [logRow eventId delivery attempt lastStatus false (some lastError)] }
  | lostRefusal {errorMsg error : String} {stored : Bool} :
      Moves environment eventId log index delivery (.writeFailed stored error)
        (.refusing errorMsg)
        { phase := .thrown
          rows := storedRows stored (logRow eventId delivery 0 none false (some errorMsg)) }
  | lostResponse {attempt status : ℕ} {error : String} {stored : Bool} :
      Moves environment eventId log index delivery (.writeFailed stored error)
        (.logging attempt status)
        { phase := .catching attempt (some status) error
          rows := storedRows stored (responseRow eventId delivery attempt status) }
  | lostError {attempt : ℕ} {lastStatus : Option ℕ} {lastError error : String} {stored : Bool} :
      Moves environment eventId log index delivery (.writeFailed stored error)
        (.catching attempt lastStatus lastError)
        { phase := .thrown
          rows := storedRows stored
            (logRow eventId delivery attempt lastStatus false (some lastError)) }
  | retried {attempt : ℕ} {lastStatus : Option ℕ} (hattempt : attempt < 3) :
      Moves environment eventId log index delivery .timer (.waiting attempt lastStatus)
        { phase := .requested (attempt + 1) lastStatus
          exchanges := [.sent index delivery.subscription.id] }
  | exhausted {attempt : ℕ} {lastStatus : Option ℕ} (hattempt : 3 ≤ attempt) :
      Moves environment eventId log index delivery .timer (.waiting attempt lastStatus)
        { phase := result delivery false 3 lastStatus false }

variable {log : List WebhookDeliveryLog} {index : ℕ} {delivery : Delivery}
  {happening : Happening} {phase : Phase} {moved : Outcome}

theorem endAttempt_eq (attempt : ℕ) (lastStatus : Option ℕ) :
    endAttempt index delivery attempt lastStatus =
      { phase := endPhase delivery attempt lastStatus } := by
  rw [endAttempt, endPhase]
  split
  · rfl
  · rw [iterate, if_neg (by omega)]

theorem moves_of_deliver
    (hdeliver : deliver environment eventId log index delivery happening = some moved) :
    Moves environment eventId log index delivery happening delivery.phase moved := by
  unfold deliver at hdeliver
  split at hdeliver
  · split at hdeliver
    · rename_i hphase
      cases hdeliver
      rw [hphase]
      exact .read
    · cases hdeliver
  · split at hdeliver
    · rename_i hphase
      cases hdeliver
      rw [hphase]
      exact .skipped
    · rename_i hphase
      rw [hphase]
      split at hdeliver
      · rename_i hinvalid
        cases hdeliver
        exact .refused (by rw [hinvalid]; nofun)
      · rename_i hvalid
        cases hdeliver
        exact .begun hvalid
    · cases hdeliver
  · split at hdeliver
    · rename_i hphase
      cases hdeliver
      rw [hphase]
      exact .answered
    · cases hdeliver
  · split at hdeliver
    · rename_i hphase
      cases hdeliver
      rw [hphase]
      exact .failed
    · cases hdeliver
  · split at hdeliver
    · rename_i hphase
      cases hdeliver
      rw [hphase]
      exact .loggedRefusal
    · rename_i attempt status hphase
      cases hdeliver
      rw [hphase]
      cases hsuccess : successful status with
      | true => exact .loggedSuccess hsuccess
      | false =>
          rw [if_neg (by simp), endAttempt_eq]
          exact .loggedStatus hsuccess
    · rename_i hphase
      cases hdeliver
      rw [hphase, endAttempt_eq]
      exact .loggedError
    · cases hdeliver
  · split at hdeliver
    · rename_i hphase
      cases hdeliver
      rw [hphase]
      exact .lostRefusal
    · rename_i hphase
      cases hdeliver
      rw [hphase]
      exact .lostResponse
    · rename_i hphase
      cases hdeliver
      rw [hphase]
      exact .lostError
    · cases hdeliver
  · split at hdeliver
    · rename_i attempt lastStatus hphase
      cases hdeliver
      rw [hphase, iterate]
      split
      · exact .retried (by omega)
      · exact .exhausted (by omega)
    · cases hdeliver

theorem step_happens
    (hstep : step environment eventId state (.happens index happening) = some next) :
    ∃ delivery moved, state.deliveries[index]? = some delivery ∧
      Moves environment eventId state.log index delivery happening delivery.phase moved ∧
        next = afterMove state index delivery moved := by
  obtain ⟨delivery, hdelivery, hstep⟩ := Option.bind_eq_some_iff.mp hstep
  obtain ⟨moved, hmoved, hnext⟩ := Option.bind_eq_some_iff.mp hstep
  exact ⟨delivery, moved, hdelivery, moves_of_deliver hmoved, (Option.some.inj hnext).symm⟩

theorem step_start {eventType : String} {subscriptions : List WebhookSubscription}
    (hstep : step environment eventId state (.start eventType subscriptions) = some next) :
    (∀ call < state.calls, (outcome state call).isSome = true) ∧
      (subscriptions.map WebhookSubscription.id).Nodup ∧
        next = { state with
          calls := state.calls + 1
          deliveries := state.deliveries ++
            (eligible eventType subscriptions).map (newDelivery state.calls eventType) } := by
  rw [step] at hstep
  split at hstep
  · rename_i hstart
    exact ⟨hstart.1, hstart.2, (Option.some.inj hstep).symm⟩
  · cases hstep

theorem get_afterMove (hdelivery : state.deliveries[index]? = some delivery) (moved : Outcome) :
    (afterMove state index delivery moved).deliveries[index]? =
      some { delivery with phase := moved.phase } :=
  List.getElem?_set_self (List.getElem?_eq_some_iff.mp hdelivery).1

/-- After a step, a delivery is the one that moved or one that was there. -/
theorem get_set_cases {deliveries : List Delivery} {changed another : Delivery} {other : ℕ}
    (hget : (deliveries.set index changed)[other]? = some another) :
    other = index ∧ another = changed ∨ other ≠ index ∧ deliveries[other]? = some another := by
  rw [List.getElem?_set] at hget
  split at hget
  · rename_i hsame
    split at hget
    · exact .inl ⟨hsame.symm, (Option.some.inj hget).symm⟩
    · cases hget
  · rename_i hother
    exact .inr ⟨fun hsame => hother hsame.symm, hget⟩

/-- A step leaves the calls and subscriptions of the deliveries. -/
theorem exists_get_of_set {deliveries : List Delivery} {delivery another : Delivery} {other : ℕ}
    {phase : Phase} (hdelivery : deliveries[index]? = some delivery)
    (hget : (deliveries.set index { delivery with phase := phase })[other]? = some another) :
    ∃ before, deliveries[other]? = some before ∧ before.call = another.call ∧
      before.subscription = another.subscription := by
  rcases get_set_cases hget with ⟨rfl, rfl⟩ | ⟨-, hbefore⟩
  · exact ⟨delivery, hdelivery, rfl, rfl⟩
  · exact ⟨another, hbefore, rfl, rfl⟩

theorem alone_afterMove {another : Delivery} {other : ℕ}
    (hdelivery : state.deliveries[index]? = some delivery) (halone : Alone state other another) :
    Alone (afterMove state index delivery moved) other another := by
  intro third later hlater hcall
  obtain ⟨before, hbefore, hsame, -⟩ := exists_get_of_set hdelivery hlater
  exact halone third before hbefore (hsame.trans hcall)

theorem get_append_cases {deliveries added : List Delivery} {another : Delivery} {other : ℕ}
    (hget : (deliveries ++ added)[other]? = some another) :
    deliveries[other]? = some another ∨
      deliveries.length ≤ other ∧ added[other - deliveries.length]? = some another := by
  rw [List.getElem?_append] at hget
  split at hget
  · exact .inl hget
  · exact .inr ⟨by omega, hget⟩

/-! ## Requests of a delivery -/

def Phase.active : Phase → Bool
  | .returned _ | .thrown => false
  | _ => true

/-- The requests that may still follow. -/
def Phase.remaining : Phase → ℕ
  | .checking | .checked _ => 3
  | .requested attempt _ | .logging attempt _ | .catching attempt .. | .waiting attempt _ =>
      3 - attempt
  | .refusing _ | .returned _ | .thrown => 0

/-- The address was accepted and the delivery has not ended. -/
def Phase.accepted : Phase → Bool
  | .requested .. | .logging .. | .catching .. | .waiting .. => true
  | _ => false

/-- The delivery may still send a request without another look at the log. -/
def Phase.continues (eventId : String) : Phase → Bool
  | .checked found => !found && eventId != ""
  | .requested .. | .waiting .. => true
  | .logging _ status => !successful status
  | .catching attempt .. => decide (attempt < 3)
  | _ => false

/-- The delivery looked at the log and has not recorded a success since. -/
def Phase.unrecorded (eventId : String) : Phase → Bool
  | .logging .. => true
  | phase => phase.continues eventId

theorem Phase.unrecorded_iff {phase : Phase} :
    phase.unrecorded eventId = true ↔
      (∃ attempt status, phase = .logging attempt status) ∨ phase.continues eventId = true := by
  cases phase <;> simp [Phase.unrecorded]

theorem Phase.active_of_unrecorded {phase : Phase}
    (hunrecorded : phase.unrecorded eventId = true) : phase.active = true := by
  cases phase with
  | returned => cases hunrecorded
  | thrown => cases hunrecorded
  | _ => rfl

/-- What holds of each delivery in every run. -/
structure Traced (environment : Environment) (state : State) (index : ℕ) (delivery : Delivery) :
    Prop where
  budget : requests state.exchanges index + delivery.phase.remaining ≤ 3
  numbered : delivery.call < state.calls
  listed : (delivery.subscription.active &&
    delivery.subscription.eventTypes.contains delivery.eventType) = true
  apart : ∀ {other : ℕ} {another : Delivery}, state.deliveries[other]? = some another →
    another.call = delivery.call → another.subscription.id = delivery.subscription.id →
      other = index
  valid : delivery.phase.accepted = true →
    validateWebhookUrl environment delivery.subscription.url = .ok ()
  heard : ∀ attempt status, delivery.phase = .logging attempt status →
    .answered index delivery.subscription.id status ∈ state.exchanges

structure AllTraced (environment : Environment) (state : State) : Prop where
  known : ∀ {index : ℕ} {delivery : Delivery}, state.deliveries[index]? = some delivery →
    Traced environment state index delivery
  unknown : ∀ {index : ℕ}, state.deliveries[index]? = none → requests state.exchanges index = 0

theorem requests_afterMove (other : ℕ) :
    requests (afterMove state index delivery moved).exchanges other =
      requests moved.exchanges other + requests state.exchanges other :=
  List.countP_append

theorem endPhase_cases (delivery : Delivery) (attempt : ℕ) (lastStatus : Option ℕ) :
    attempt < 3 ∧ endPhase delivery attempt lastStatus = .waiting attempt lastStatus ∨
      endPhase delivery attempt lastStatus = result delivery false 3 lastStatus false := by
  by_cases hattempt : attempt < 3
  · exact .inl ⟨hattempt, if_pos hattempt⟩
  · exact .inr (if_neg hattempt)

theorem endPhase_remaining (delivery : Delivery) (attempt : ℕ) (lastStatus : Option ℕ) :
    (endPhase delivery attempt lastStatus).remaining ≤ 3 - attempt := by
  rcases endPhase_cases delivery attempt lastStatus with ⟨-, hend⟩ | hend <;> rw [hend]
  · exact le_rfl
  · exact Nat.zero_le _

theorem endPhase_ne_thrown (delivery : Delivery) (attempt : ℕ) (lastStatus : Option ℕ) :
    endPhase delivery attempt lastStatus ≠ .thrown := by
  rcases endPhase_cases delivery attempt lastStatus with ⟨-, hend⟩ | hend <;> rw [hend] <;> nofun

theorem endPhase_continues {attempt : ℕ} {lastStatus : Option ℕ}
    (hcontinues : (endPhase delivery attempt lastStatus).continues eventId = true) :
    attempt < 3 := by
  rcases endPhase_cases delivery attempt lastStatus with ⟨hattempt, -⟩ | hend
  · exact hattempt
  · rw [hend] at hcontinues
    cases hcontinues

theorem endPhase_ne_logging (delivery : Delivery) (attempt : ℕ) (lastStatus : Option ℕ)
    (other status : ℕ) : endPhase delivery attempt lastStatus ≠ .logging other status := by
  rcases endPhase_cases delivery attempt lastStatus with ⟨-, hend⟩ | hend <;> rw [hend] <;> nofun

theorem Moves.budget (hmoves : Moves environment eventId log index delivery happening phase moved) :
    requests moved.exchanges index + moved.phase.remaining ≤ phase.remaining := by
  cases hmoves with
  | retried hattempt =>
      have hone : requests [.sent index delivery.subscription.id] index = 1 := by simp [requests]
      rw [hone, Phase.remaining, Phase.remaining]
      omega
  | loggedStatus => exact (Nat.zero_add _).le.trans (endPhase_remaining delivery _ _)
  | loggedError => exact (Nat.zero_add _).le.trans (endPhase_remaining delivery _ _)
  | _ => simp [requests, Phase.remaining, result]

theorem Moves.others (hmoves : Moves environment eventId log index delivery happening phase moved)
    {other : ℕ} (hother : other ≠ index) : requests moved.exchanges other = 0 := by
  cases hmoves <;> simp [requests, hother.symm]

theorem Moves.active (hmoves : Moves environment eventId log index delivery happening phase moved) :
    phase.active = true := by
  cases hmoves <;> rfl

theorem Moves.valid (hmoves : Moves environment eventId log index delivery happening phase moved)
    (hbefore : phase.accepted = true →
      validateWebhookUrl environment delivery.subscription.url = .ok ())
    (hafter : moved.phase.accepted = true) :
    validateWebhookUrl environment delivery.subscription.url = .ok () := by
  cases hmoves with
  | begun hvalid => exact hvalid
  | answered => exact hbefore rfl
  | failed => exact hbefore rfl
  | loggedStatus => exact hbefore rfl
  | loggedError => exact hbefore rfl
  | lostResponse => exact hbefore rfl
  | retried => exact hbefore rfl
  | _ => cases hafter

theorem Moves.heard (hmoves : Moves environment eventId log index delivery happening phase moved)
    {attempt status : ℕ} (hphase : moved.phase = .logging attempt status) :
    moved.exchanges = [.answered index delivery.subscription.id status] := by
  cases hmoves with
  | answered =>
      cases hphase
      rfl
  | loggedStatus => exact (endPhase_ne_logging _ _ _ _ _ hphase).elim
  | loggedError => exact (endPhase_ne_logging _ _ _ _ _ hphase).elim
  | _ => cases hphase

theorem allTraced_happens (htraced : AllTraced environment state)
    (hstep : step environment eventId state (.happens index happening) = some next) :
    AllTraced environment next := by
  obtain ⟨delivery, moved, hdelivery, hmoves, rfl⟩ := step_happens hstep
  have hown := htraced.known hdelivery
  constructor
  · intro other another hanother
    obtain ⟨before, hbefore, hcall, hsubscription⟩ := exists_get_of_set hdelivery hanother
    have hapart : ∀ {third : ℕ} {later : Delivery},
        (state.deliveries.set index { delivery with phase := moved.phase })[third]? = some later →
          later.call = another.call → later.subscription.id = another.subscription.id →
            third = other := by
      intro third later hlater hsame hid
      obtain ⟨earlier, hearlier, hearlierCall, hearlierSubscription⟩ :=
        exists_get_of_set hdelivery hlater
      refine (htraced.known hbefore).apart hearlier ?_ ?_
      · rw [hearlierCall, hcall, hsame]
      · rw [hearlierSubscription, hsubscription, hid]
    rcases get_set_cases hanother with ⟨rfl, rfl⟩ | ⟨hother, hsame⟩
    · refine ⟨?_, hown.numbered, hown.listed, hapart, hmoves.valid hown.valid, ?_⟩
      · rw [requests_afterMove]
        have hbudget := hown.budget
        have hmove := hmoves.budget
        simp only at hbudget ⊢
        omega
      · intro attempt status hphase
        refine List.mem_append_left _ ?_
        rw [hmoves.heard hphase]
        exact List.mem_cons_self
    · have hold := htraced.known hsame
      refine ⟨?_, hold.numbered, hold.listed, hapart, hold.valid, fun attempt status hphase =>
        List.mem_append_right _ (hold.heard attempt status hphase)⟩
      rw [requests_afterMove, hmoves.others hother, Nat.zero_add]
      exact hold.budget
  · intro other hnone
    have hold : state.deliveries[other]? = none := by
      rw [List.getElem?_eq_none_iff] at hnone ⊢
      rwa [afterMove, List.length_set] at hnone
    have hother : other ≠ index := by
      rintro rfl
      rw [hold] at hdelivery
      cases hdelivery
    rw [requests_afterMove, hmoves.others hother, htraced.unknown hold]

theorem ids_eligible_nodup (eventType : String) {subscriptions : List WebhookSubscription}
    (hnodup : (subscriptions.map WebhookSubscription.id).Nodup) :
    ((eligible eventType subscriptions).map WebhookSubscription.id).Nodup :=
  hnodup.sublist (List.filter_sublist.map WebhookSubscription.id)

theorem get_map_newDelivery {call place : ℕ} {eventType : String}
    {subscriptions : List WebhookSubscription} {another : Delivery}
    (hget : ((eligible eventType subscriptions).map (newDelivery call eventType))[place]? =
      some another) :
    ∃ subscription, (eligible eventType subscriptions)[place]? = some subscription ∧
      another = newDelivery call eventType subscription := by
  rw [List.getElem?_map] at hget
  obtain ⟨subscription, hsubscription, hanother⟩ := Option.map_eq_some_iff.mp hget
  exact ⟨subscription, hsubscription, hanother.symm⟩

theorem allTraced_start {eventType : String} {subscriptions : List WebhookSubscription}
    (htraced : AllTraced environment state)
    (hstep : step environment eventId state (.start eventType subscriptions) = some next) :
    AllTraced environment next := by
  obtain ⟨-, hnodup, rfl⟩ := step_start hstep
  constructor
  · intro index delivery hdelivery
    rcases get_append_cases hdelivery with hold | ⟨hlength, hnew⟩
    · have hbefore := htraced.known hold
      refine ⟨hbefore.budget, Nat.lt_succ_of_lt hbefore.numbered, hbefore.listed, ?_,
        hbefore.valid, hbefore.heard⟩
      intro other another hanother hcall hid
      rcases get_append_cases hanother with hsame | ⟨-, hlater⟩
      · exact hbefore.apart hsame hcall hid
      · obtain ⟨subscription, -, rfl⟩ := get_map_newDelivery hlater
        exact absurd hcall (ne_of_gt hbefore.numbered)
    · obtain ⟨subscription, hsubscription, rfl⟩ := get_map_newDelivery hnew
      refine ⟨?_, Nat.lt_succ_self _, ?_, ?_, by nofun, by nofun⟩
      · rw [htraced.unknown (List.getElem?_eq_none hlength)]
        exact le_rfl
      · exact (List.mem_filter.mp (List.mem_of_getElem? hsubscription)).2
      · intro other another hanother hcall hid
        rcases get_append_cases hanother with hearlier | ⟨hbeyond, hlater⟩
        · exact absurd hcall (ne_of_lt (htraced.known hearlier).numbered)
        · obtain ⟨later, hlaterSubscription, rfl⟩ := get_map_newDelivery hlater
          have hplaces : other - state.deliveries.length = index - state.deliveries.length := by
            have hids := ids_eligible_nodup eventType hnodup
            refine (List.getElem?_inj ?_ hids).mp ?_
            · rw [List.length_map]
              exact (List.getElem?_eq_some_iff.mp hlaterSubscription).1
            · rw [List.getElem?_map, List.getElem?_map, hlaterSubscription, hsubscription]
              exact congrArg some hid
          omega
  · intro index hnone
    refine htraced.unknown ?_
    rw [List.getElem?_eq_none_iff] at hnone ⊢
    rw [List.length_append] at hnone
    omega

theorem allTraced_step {event : Event} (hstep : step environment eventId state event = some next)
    (htraced : AllTraced environment state) : AllTraced environment next := by
  cases event with
  | start eventType subscriptions => exact allTraced_start htraced hstep
  | happens index happening => exact allTraced_happens htraced hstep

theorem allTraced_initial (log : List WebhookDeliveryLog) :
    AllTraced environment { log := log } where
  known := by
    intro index delivery hdelivery
    cases hdelivery
  unknown := fun _ => rfl

/-- No delivery makes more than three requests, whatever fails. -/
theorem AllTraced.requests_le (htraced : AllTraced environment state) (index : ℕ) :
    requests state.exchanges index ≤ 3 := by
  cases hdelivery : state.deliveries[index]? with
  | none => exact (htraced.unknown hdelivery).le.trans (Nat.zero_le 3)
  | some delivery => exact (Nat.le_add_right _ _).trans (htraced.known hdelivery).budget

/-! ## Careful runs -/

/-- What holds of each delivery in careful runs. -/
structure Kept (eventId : String) (state : State) (index : ℕ) (delivery : Delivery) : Prop where
  alone : delivery.phase = .thrown → Alone state index delivery
  latest : delivery.phase.active = true → delivery.call + 1 = state.calls
  quiet : delivery.phase.continues eventId = true →
    ¬Succeeded state.exchanges delivery.subscription.id
  unrecorded : delivery.phase.unrecorded eventId = true → eventId ≠ "" →
    alreadyDelivered state.log delivery.subscription.id eventId = false

structure AllKept (eventId : String) (state : State) : Prop where
  known : ∀ {index : ℕ} {delivery : Delivery}, state.deliveries[index]? = some delivery →
    Kept eventId state index delivery
  once : NoneAfterSuccess state.exchanges
  /-- A success is in the log or on its way there. -/
  recorded : ∀ {subscriptionId : ℕ}, Succeeded state.exchanges subscriptionId → eventId ≠ "" →
    alreadyDelivered state.log subscriptionId eventId = true ∨
      ∃ (index : ℕ) (delivery : Delivery) (attempt status : ℕ),
        state.deliveries[index]? = some delivery ∧
        delivery.subscription.id = subscriptionId ∧ delivery.phase = .logging attempt status ∧
          successful status = true

theorem succeeded_append {later before : List Exchange} {subscriptionId : ℕ} :
    Succeeded (later ++ before) subscriptionId ↔
      Succeeded later subscriptionId ∨ Succeeded before subscriptionId := by
  simp only [Succeeded, List.mem_append, or_and_right, exists_or]

theorem alreadyDelivered_append (rows log : List WebhookDeliveryLog) (subscriptionId : ℕ) :
    alreadyDelivered (rows ++ log) subscriptionId eventId =
      (alreadyDelivered rows subscriptionId eventId ||
        alreadyDelivered log subscriptionId eventId) :=
  List.any_append

theorem not_succeeded_sent {another subscriptionId other : ℕ} :
    ¬Succeeded [.sent another other] subscriptionId := by
  rintro ⟨delivery, status, hmem, -⟩
  cases List.mem_singleton.mp hmem

theorem not_succeeded_nil {subscriptionId : ℕ} : ¬Succeeded [] subscriptionId := by
  rintro ⟨delivery, status, hmem, -⟩
  cases hmem

theorem succeeded_answered {another subscriptionId other status : ℕ} :
    Succeeded [.answered another other status] subscriptionId ↔
      subscriptionId = other ∧ successful status = true := by
  constructor
  · rintro ⟨delivery, later, hmem, hsuccess⟩
    cases List.mem_singleton.mp hmem
    exact ⟨rfl, hsuccess⟩
  · rintro ⟨rfl, hsuccess⟩
    exact ⟨another, status, List.mem_singleton.mpr rfl, hsuccess⟩

theorem alreadyDelivered_storedRows {row : WebhookDeliveryLog} {subscriptionId : ℕ} {stored : Bool}
    (hrow : alreadyDelivered [row] subscriptionId eventId = false) :
    alreadyDelivered (storedRows stored row) subscriptionId eventId = false := by
  cases stored with
  | false => rfl
  | true => exact hrow

section Moves

variable (hmoves : Moves environment eventId log index delivery happening phase moved)
include hmoves

/-- A success of a step is the answer that the delivery goes on to log. -/
theorem Moves.success {subscriptionId : ℕ} (hsuccess : Succeeded moved.exchanges subscriptionId) :
    subscriptionId = delivery.subscription.id ∧
      ∃ attempt status, moved.phase = .logging attempt status ∧ successful status = true := by
  cases hmoves with
  | answered =>
      obtain ⟨rfl, hstatus⟩ := succeeded_answered.mp hsuccess
      exact ⟨rfl, _, _, rfl, hstatus⟩
  | begun => exact absurd hsuccess not_succeeded_sent
  | retried => exact absurd hsuccess not_succeeded_sent
  | _ => exact absurd hsuccess not_succeeded_nil

/-- The rows that a delivery writes are of its subscription. -/
theorem Moves.rows_other {subscriptionId : ℕ} (hother : subscriptionId ≠ delivery.subscription.id) :
    alreadyDelivered moved.rows subscriptionId eventId = false := by
  have hrow (attempt : ℕ) (status : Option ℕ) (delivered : Bool) (error : Option String) :
      alreadyDelivered [logRow eventId delivery attempt status delivered error] subscriptionId
        eventId = false := by
    simp [alreadyDelivered, logRow, hother.symm]
  cases hmoves with
  | loggedRefusal => exact hrow ..
  | loggedSuccess => exact hrow ..
  | loggedStatus => exact hrow ..
  | loggedError => exact hrow ..
  | lostRefusal => exact alreadyDelivered_storedRows (hrow ..)
  | lostResponse => exact alreadyDelivered_storedRows (hrow ..)
  | lostError => exact alreadyDelivered_storedRows (hrow ..)
  | _ => rfl

theorem Moves.thrown
    (hcareful : CarefulMove environment eventId state index delivery happening phase)
    (hthrown : moved.phase = .thrown) : Alone state index delivery := by
  cases hmoves with
  | lostRefusal => exact hcareful
  | lostError => exact hcareful
  | loggedStatus => exact (endPhase_ne_thrown _ _ _ hthrown).elim
  | loggedError => exact (endPhase_ne_thrown _ _ _ hthrown).elim
  | _ => cases hthrown

/-- A successful answer is in the log when its delivery has gone on. -/
theorem Moves.recorded
    (hcareful : CarefulMove environment eventId state index delivery happening phase)
    {attempt status : ℕ} (hphase : phase = .logging attempt status)
    (hsuccess : successful status = true) :
    alreadyDelivered moved.rows delivery.subscription.id eventId = true := by
  have hrow : alreadyDelivered [responseRow eventId delivery attempt status]
      delivery.subscription.id eventId = true := by
    simp [alreadyDelivered, responseRow, logRow, hsuccess]
  cases hmoves with
  | loggedSuccess =>
      cases hphase
      exact hrow
  | loggedStatus hfailure =>
      cases hphase
      rw [hsuccess] at hfailure
      cases hfailure
  | lostResponse =>
      cases hphase
      rw [(hcareful hsuccess).2]
      exact hrow
  | _ => cases hphase

/-- What goes on after a step went on before it, or was allowed to begin. -/
theorem Moves.continues
    (hcareful : CarefulMove environment eventId state index delivery happening phase)
    (hafter : moved.phase.continues eventId = true) :
    phase.continues eventId = true ∨
      (eventId = "" → ¬Succeeded state.exchanges delivery.subscription.id) ∧
        (eventId ≠ "" → phase = .checking ∧
          alreadyDelivered log delivery.subscription.id eventId = false) := by
  cases hmoves with
  | read =>
      obtain ⟨hfound, hid⟩ := Bool.and_eq_true_iff.mp hafter
      rw [hid, Bool.true_and, Bool.not_eq_true'] at hfound
      exact .inr ⟨fun hempty => absurd hempty (bne_iff_ne.mp hid), fun _ => ⟨rfl, hfound⟩⟩
  | begun hvalid =>
      by_cases hempty : eventId = ""
      · exact .inr ⟨fun h => hcareful h hvalid, fun hid => absurd hempty hid⟩
      · exact .inl (bne_iff_ne.mpr hempty)
  | answered => exact .inl rfl
  | failed => exact .inl rfl
  | loggedStatus hfailure =>
      left
      rw [Phase.continues, hfailure]
      rfl
  | loggedError => exact .inl (decide_eq_true (endPhase_continues hafter))
  | @lostResponse attempt status error stored =>
      left
      cases hstatus : successful status with
      | false =>
          rw [Phase.continues, hstatus]
          rfl
      | true => exact absurd (hcareful hstatus).1 (Nat.not_le.mpr (of_decide_eq_true hafter))
  | retried => exact .inl rfl
  | _ => cases hafter

/-- What a delivery writes before a success says that there was none. -/
theorem Moves.rows_quiet
    (hcareful : CarefulMove environment eventId state index delivery happening phase)
    (hafter : moved.phase.unrecorded eventId = true) :
    alreadyDelivered moved.rows delivery.subscription.id eventId = false := by
  cases hmoves with
  | loggedStatus hfailure => simp [alreadyDelivered, responseRow, logRow, hfailure]
  | loggedError => simp [alreadyDelivered, logRow]
  | @lostResponse attempt status error stored =>
      refine alreadyDelivered_storedRows ?_
      cases hstatus : successful status with
      | false => simp [alreadyDelivered, responseRow, logRow, hstatus]
      | true => exact absurd (hcareful hstatus).1 (Nat.not_le.mpr (of_decide_eq_true hafter))
  | read => rfl
  | begun => rfl
  | answered => rfl
  | failed => rfl
  | retried => rfl
  | _ => cases hafter

theorem Moves.unrecorded
    (hcareful : CarefulMove environment eventId state index delivery happening phase)
    (hafter : moved.phase.unrecorded eventId = true) (hid : eventId ≠ "") :
    phase.unrecorded eventId = true ∨ phase = .checking ∧
      alreadyDelivered log delivery.subscription.id eventId = false := by
  rcases Phase.unrecorded_iff.mp hafter with ⟨attempt, status, hlogging⟩ | hcontinues
  · cases hmoves with
    | answered => exact .inl rfl
    | loggedStatus => exact (endPhase_ne_logging _ _ _ _ _ hlogging).elim
    | loggedError => exact (endPhase_ne_logging _ _ _ _ _ hlogging).elim
    | _ => cases hlogging
  · rcases hmoves.continues hcareful hcontinues with hbefore | ⟨-, hread⟩
    · exact .inl (Phase.unrecorded_iff.mpr (.inr hbefore))
    · exact .inr (hread hid)

/-- A request is only sent where no success is known. -/
theorem Moves.once
    (hcareful : CarefulMove environment eventId state index delivery happening phase)
    (hquiet : phase.continues eventId = true →
      ¬Succeeded state.exchanges delivery.subscription.id)
    (honce : NoneAfterSuccess state.exchanges) :
    NoneAfterSuccess (moved.exchanges ++ state.exchanges) := by
  cases hmoves with
  | begun hvalid =>
      refine ⟨?_, honce⟩
      by_cases hempty : eventId = ""
      · exact hcareful hempty hvalid
      · exact hquiet (bne_iff_ne.mpr hempty)
  | retried => exact ⟨hquiet rfl, honce⟩
  | _ => exact honce

end Moves

section Step

variable (htraced : AllTraced environment state) (hkept : AllKept eventId state)
include htraced hkept

/-- A subscription has at most one delivery that goes on. -/
theorem active_unique {other : ℕ} {another : Delivery}
    (hdelivery : state.deliveries[index]? = some delivery)
    (hanother : state.deliveries[other]? = some another) (hactive : delivery.phase.active = true)
    (hothersActive : another.phase.active = true)
    (hid : another.subscription.id = delivery.subscription.id) : other = index := by
  have hcall := (hkept.known hdelivery).latest hactive
  have hothersCall := (hkept.known hanother).latest hothersActive
  exact (htraced.known hdelivery).apart hanother (by omega) hid

/-- While a delivery checks the log and finds no success, there was none. -/
theorem not_succeeded_of_unread (hdelivery : state.deliveries[index]? = some delivery)
    (hchecking : delivery.phase = .checking) (hid : eventId ≠ "")
    (hunread : alreadyDelivered state.log delivery.subscription.id eventId = false) :
    ¬Succeeded state.exchanges delivery.subscription.id := by
  intro hsuccess
  rcases hkept.recorded hsuccess hid with hread | ⟨other, another, attempt, status, hanother, hsame,
    hlogging, -⟩
  · rw [hread] at hunread
    cases hunread
  · have hactive : delivery.phase.active = true := by rw [hchecking]; rfl
    have hothersActive : another.phase.active = true := by rw [hlogging]; rfl
    obtain rfl := active_unique htraced hkept hdelivery hanother hactive hothersActive hsame
    rw [hdelivery] at hanother
    cases hanother
    rw [hchecking] at hlogging
    cases hlogging

/-- The delivery that moved. -/
theorem kept_moved (hdelivery : state.deliveries[index]? = some delivery)
    (hmoves : Moves environment eventId state.log index delivery happening delivery.phase moved)
    (hcareful : CarefulMove environment eventId state index delivery happening delivery.phase) :
    Kept eventId (afterMove state index delivery moved) index
      { delivery with phase := moved.phase } := by
  have hown := hkept.known hdelivery
  refine ⟨?_, fun _ => hown.latest hmoves.active, ?_, ?_⟩
  · intro hthrown
    exact alone_afterMove hdelivery (hmoves.thrown hcareful hthrown)
  · intro hcontinues hsuccess
    rcases succeeded_append.mp hsuccess with hnew | hold
    · obtain ⟨-, attempt, status, hlogging, hstatus⟩ := hmoves.success hnew
      simp [hlogging, Phase.continues, hstatus] at hcontinues
    · rcases hmoves.continues hcareful hcontinues with hbefore | ⟨hempty, hread⟩
      · exact hown.quiet hbefore hold
      · by_cases hid : eventId = ""
        · exact hempty hid hold
        · obtain ⟨hchecking, hunread⟩ := hread hid
          exact not_succeeded_of_unread htraced hkept hdelivery hchecking hid hunread hold
  · intro hunrecorded hid
    change alreadyDelivered (moved.rows ++ state.log) delivery.subscription.id eventId = false
    rw [alreadyDelivered_append, hmoves.rows_quiet hcareful hunrecorded, Bool.false_or]
    rcases hmoves.unrecorded hcareful hunrecorded hid with hbefore | ⟨-, hunread⟩
    · exact hown.unrecorded hbefore hid
    · exact hunread

/-- The deliveries that did not move. -/
theorem kept_other {other : ℕ} {another : Delivery}
    (hdelivery : state.deliveries[index]? = some delivery)
    (hmoves : Moves environment eventId state.log index delivery happening delivery.phase moved)
    (hanother : state.deliveries[other]? = some another) (hother : other ≠ index) :
    Kept eventId (afterMove state index delivery moved) other another := by
  have hold := hkept.known hanother
  have hapart (hactive : another.phase.active = true) :
      another.subscription.id ≠ delivery.subscription.id := by
    intro hid
    exact hother (active_unique htraced hkept hdelivery hanother hmoves.active hactive hid)
  refine ⟨?_, hold.latest, ?_, ?_⟩
  · intro hthrown
    exact alone_afterMove hdelivery (hold.alone hthrown)
  · intro hcontinues hsuccess
    rcases succeeded_append.mp hsuccess with hnew | hbefore
    · exact hapart (Phase.active_of_unrecorded (Phase.unrecorded_iff.mpr (.inr hcontinues)))
        (hmoves.success hnew).1
    · exact hold.quiet hcontinues hbefore
  · intro hunrecorded hid
    change alreadyDelivered (moved.rows ++ state.log) another.subscription.id eventId = false
    rw [alreadyDelivered_append,
      hmoves.rows_other (hapart (Phase.active_of_unrecorded hunrecorded)), Bool.false_or]
    exact hold.unrecorded hunrecorded hid

omit htraced in
theorem recorded_afterMove (hdelivery : state.deliveries[index]? = some delivery)
    (hmoves : Moves environment eventId state.log index delivery happening delivery.phase moved)
    (hcareful : CarefulMove environment eventId state index delivery happening delivery.phase)
    {subscriptionId : ℕ}
    (hsuccess : Succeeded (moved.exchanges ++ state.exchanges) subscriptionId)
    (hid : eventId ≠ "") :
    alreadyDelivered (moved.rows ++ state.log) subscriptionId eventId = true ∨
      ∃ (other : ℕ) (another : Delivery) (attempt status : ℕ),
        (afterMove state index delivery moved).deliveries[other]? = some another ∧
        another.subscription.id = subscriptionId ∧ another.phase = .logging attempt status ∧
          successful status = true := by
  rw [alreadyDelivered_append, Bool.or_eq_true]
  rcases succeeded_append.mp hsuccess with hnew | hold
  · obtain ⟨rfl, attempt, status, hlogging, hstatus⟩ := hmoves.success hnew
    exact .inr ⟨index, { delivery with phase := moved.phase }, attempt, status,
      get_afterMove hdelivery moved, rfl, hlogging, hstatus⟩
  · rcases hkept.recorded hold hid with hread | ⟨other, another, attempt, status, hanother, rfl,
      hlogging, hstatus⟩
    · exact .inl (.inr hread)
    · by_cases hsame : other = index
      · subst hsame
        rw [hdelivery] at hanother
        cases hanother
        exact .inl (.inl (hmoves.recorded hcareful hlogging hstatus))
      · refine .inr ⟨other, another, attempt, status, ?_, rfl, hlogging, hstatus⟩
        exact (List.getElem?_set_ne fun h => hsame h.symm).trans hanother

theorem allKept_afterMove (hdelivery : state.deliveries[index]? = some delivery)
    (hmoves : Moves environment eventId state.log index delivery happening delivery.phase moved)
    (hcareful : CarefulMove environment eventId state index delivery happening delivery.phase) :
    AllKept eventId (afterMove state index delivery moved) where
  known := by
    intro other another hanother
    rcases get_set_cases hanother with ⟨rfl, rfl⟩ | ⟨hother, hbefore⟩
    · exact kept_moved htraced hkept hdelivery hmoves hcareful
    · exact kept_other htraced hkept hdelivery hmoves hbefore hother
  once := hmoves.once hcareful (hkept.known hdelivery).quiet hkept.once
  recorded := recorded_afterMove hkept hdelivery hmoves hcareful

end Step

/-! ## Calls that have settled -/

theorem mapM_isSome {α β : Type} {read : α → Option β} (items : List α) :
    (items.mapM read).isSome = items.all fun item => (read item).isSome := by
  induction items with
  | nil => rfl
  | cons item rest ih =>
      rw [List.mapM_cons, List.all_cons, ← ih]
      cases read item with
      | none => rfl
      | some value => cases rest.mapM read <;> rfl

theorem any_thrown_iff {call : ℕ} :
    ((state.deliveries.filter fun delivery => delivery.call == call).any
      fun delivery => delivery.phase == .thrown) = true ↔
        ∃ delivery ∈ state.deliveries, delivery.call = call ∧ delivery.phase = .thrown := by
  simp only [List.any_eq_true, List.mem_filter, beq_iff_eq, and_assoc]

theorem result?_isSome {phase : Phase} :
    phase.result?.isSome = true ↔ ∃ result, phase = .returned result := by
  cases phase <;> simp [Phase.result?]

/-- A call is rejected as soon as one of its deliveries has thrown. -/
theorem outcome_error_iff {call : ℕ} :
    outcome state call = some (.error ()) ↔
      ∃ delivery ∈ state.deliveries, delivery.call = call ∧ delivery.phase = .thrown := by
  rw [← any_thrown_iff, outcome]
  split
  · rename_i hthrown
    exact iff_of_true rfl hthrown
  · rename_i hthrown
    refine iff_of_false (fun herror => ?_) hthrown
    obtain ⟨results, -, herror⟩ := Option.map_eq_some_iff.mp herror
    cases herror

/-- A call has settled when a delivery has thrown or all have returned. -/
theorem outcome_isSome_iff {call : ℕ} :
    (outcome state call).isSome = true ↔
      (∃ delivery ∈ state.deliveries, delivery.call = call ∧ delivery.phase = .thrown) ∨
        ∀ delivery ∈ state.deliveries, delivery.call = call →
          ∃ result, delivery.phase = .returned result := by
  rw [← any_thrown_iff, outcome]
  split
  · rename_i hthrown
    exact iff_of_true rfl (.inl hthrown)
  · rename_i hthrown
    rw [or_iff_right hthrown, Option.isSome_map, mapM_isSome, List.all_eq_true]
    simp only [List.mem_filter, beq_iff_eq, and_imp, result?_isSome]

theorem not_active_of_outcome (hkept : AllKept eventId state)
    (hsettled : (outcome state delivery.call).isSome = true)
    (hdelivery : state.deliveries[index]? = some delivery) : delivery.phase.active = false := by
  rcases outcome_isSome_iff.mp hsettled with ⟨another, hanother, hcall, hthrown⟩ | hreturned
  · obtain ⟨other, hother⟩ := List.mem_iff_getElem?.mp hanother
    obtain rfl : index = other := (hkept.known hother).alone hthrown _ _ hdelivery hcall.symm
    rw [hother] at hdelivery
    cases hdelivery
    rw [hthrown]
    rfl
  · obtain ⟨result, hphase⟩ := hreturned delivery (List.mem_of_getElem? hdelivery) rfl
    rw [hphase]
    rfl

theorem allKept_start {eventType : String} {subscriptions : List WebhookSubscription}
    (htraced : AllTraced environment state) (hkept : AllKept eventId state)
    (hstep : step environment eventId state (.start eventType subscriptions) = some next) :
    AllKept eventId next := by
  obtain ⟨hsettled, -, rfl⟩ := step_start hstep
  constructor
  · intro index delivery hdelivery
    rcases get_append_cases hdelivery with hold | ⟨-, hnew⟩
    · have hbefore := hkept.known hold
      have hended := not_active_of_outcome hkept (hsettled _ (htraced.known hold).numbered) hold
      refine ⟨?_, fun hactive => ?_, hbefore.quiet, hbefore.unrecorded⟩
      · intro hthrown other another hanother hcall
        rcases get_append_cases hanother with hsame | ⟨-, hlater⟩
        · exact hbefore.alone hthrown _ _ hsame hcall
        · obtain ⟨subscription, -, rfl⟩ := get_map_newDelivery hlater
          exact absurd hcall (ne_of_gt (htraced.known hold).numbered)
      · rw [hended] at hactive
        cases hactive
    · obtain ⟨subscription, -, rfl⟩ := get_map_newDelivery hnew
      exact ⟨by nofun, fun _ => rfl, by nofun, by nofun⟩
  · exact hkept.once
  · intro subscriptionId hsuccess hid
    rcases hkept.recorded hsuccess hid with hread | ⟨index, delivery, attempt, status, hdelivery,
      hrest⟩
    · exact .inl hread
    · refine .inr ⟨index, delivery, attempt, status, ?_, hrest⟩
      have hlength := (List.getElem?_eq_some_iff.mp hdelivery).1
      exact (List.getElem?_append_left hlength).trans hdelivery

theorem allKept_step {event : Event} (hcareful : Careful environment eventId state event)
    (hstep : step environment eventId state event = some next)
    (htraced : AllTraced environment state) (hkept : AllKept eventId state) :
    AllKept eventId next := by
  cases event with
  | start eventType subscriptions => exact allKept_start htraced hkept hstep
  | happens index happening =>
      obtain ⟨delivery, moved, hdelivery, hmoves, rfl⟩ := step_happens hstep
      exact allKept_afterMove htraced hkept hdelivery hmoves (hcareful delivery hdelivery)

theorem allKept_initial (log : List WebhookDeliveryLog) : AllKept eventId { log := log } where
  known := by
    intro index delivery hdelivery
    cases hdelivery
  once := trivial
  recorded := fun hsuccess _ => absurd hsuccess not_succeeded_nil

theorem invariants_of_run {log : List WebhookDeliveryLog} {events : List Event}
    (hrun : GuardedRun (step environment eventId) (Careful environment eventId) { log := log }
      events state) : AllTraced environment state ∧ AllKept eventId state := by
  have hpreserve : ∀ {before after : State} {event : Event},
      Careful environment eventId before event →
        step environment eventId before event = some after →
          AllTraced environment before ∧ AllKept eventId before →
            AllTraced environment after ∧ AllKept eventId after :=
    fun hcareful hstep hinv =>
      ⟨allTraced_step hstep hinv.1, allKept_step hcareful hstep hinv.1 hinv.2⟩
  exact hrun.invariant hpreserve ⟨allTraced_initial log, allKept_initial log⟩

theorem lawful_of_allKept (htraced : AllTraced environment state) (hkept : AllKept eventId state) :
    Lawful state where
  once := hkept.once
  attempts := htraced.requests_le
  kept := by
    intro call herror index other delivery another hdelivery hanother hcall hothersCall
    obtain ⟨thrown, hmem, hthrownCall, hthrown⟩ := outcome_error_iff.mp herror
    obtain ⟨place, hplace⟩ := List.mem_iff_getElem?.mp hmem
    have halone := (hkept.known hplace).alone hthrown
    rw [halone index delivery hdelivery (hcall.trans hthrownCall.symm),
      halone other another hanother (hothersCall.trans hthrownCall.symm)]

/-! ## Careless steps -/

theorem step_of_deliver (hdelivery : state.deliveries[index]? = some delivery)
    (hdeliver : deliver environment eventId state.log index delivery happening = some moved) :
    step environment eventId state (.happens index happening) =
        some (afterMove state index delivery moved) ∧
      (afterMove state index delivery moved).deliveries[index]? =
        some { delivery with phase := moved.phase } := by
  constructor
  · rw [step, hdelivery, Option.bind_eq_bind, Option.bind_some, hdeliver]
    rfl
  · exact get_afterMove hdelivery moved

theorem exists_later {event : Event} (hstep : step environment eventId state event = some next)
    (hnext : ∃ later last, Run (step environment eventId) next later last ∧ ¬Lawful last) :
    ∃ later last, Run (step environment eventId) state later last ∧ ¬Lawful last := by
  obtain ⟨later, last, hrun, hunlawful⟩ := hnext
  exact ⟨event :: later, last, .cons trivial hstep hrun, hunlawful⟩

theorem exists_now (hunlawful : ¬Lawful state) :
    ∃ later last, Run (step environment eventId) state later last ∧ ¬Lawful last :=
  ⟨[], state, .nil state, hunlawful⟩

/-- A request after a success. -/
theorem not_lawful_of_sent {subscriptionId : ℕ} {before : List Exchange}
    (hsent : state.exchanges = .sent index subscriptionId :: before)
    (hsuccess : Succeeded before subscriptionId) : ¬Lawful state := by
  intro hlawful
  have honce := hlawful.once
  rw [hsent] at honce
  exact honce.1 hsuccess

/-- A rejected call with another delivery. -/
theorem not_lawful_of_thrown (hdelivery : state.deliveries[index]? = some delivery)
    (halone : ¬Alone state index delivery) (hthrown : moved.phase = .thrown) :
    ¬Lawful (afterMove state index delivery moved) := by
  intro hlawful
  simp only [Alone, not_forall] at halone
  obtain ⟨other, another, hanother, hcall, hother⟩ := halone
  have hmoved := get_afterMove hdelivery moved
  have herror : outcome (afterMove state index delivery moved) delivery.call = some (.error ()) :=
    outcome_error_iff.mpr ⟨_, List.mem_of_getElem? hmoved, rfl, hthrown⟩
  have hkeptOther : (afterMove state index delivery moved).deliveries[other]? = some another :=
    (List.getElem?_set_ne fun h => hother h.symm).trans hanother
  exact hother (hlawful.kept _ herror hkeptOther hmoved hcall rfl)

/-- After a success that is neither recorded nor the last attempt, the delivery tries again. -/
theorem exists_retry {attempt : ℕ} {lastStatus : Option ℕ} {lastError : String}
    (hdelivery : state.deliveries[index]? = some delivery)
    (hphase : delivery.phase = .catching attempt lastStatus lastError) (hattempt : attempt < 3)
    (hsuccess : Succeeded state.exchanges delivery.subscription.id) :
    ∃ later last, Run (step environment eventId) state later last ∧ ¬Lawful last := by
  have hwritten : deliver environment eventId state.log index delivery .written =
      some { phase := .waiting attempt lastStatus
             rows := [logRow eventId delivery attempt lastStatus false (some lastError)] } := by
    simp [deliver, hphase, endAttempt, hattempt]
  obtain ⟨hlogged, hwaiting⟩ := step_of_deliver hdelivery hwritten
  have htimer (log : List WebhookDeliveryLog) :
      deliver environment eventId log index
          { delivery with phase := .waiting attempt lastStatus } .timer =
        some { phase := .requested (attempt + 1) lastStatus
               exchanges := [.sent index delivery.subscription.id] } := by
    simp [deliver, iterate, Nat.lt_iff_add_one_le.mp hattempt]
  obtain ⟨hsent, -⟩ := step_of_deliver hwaiting (htimer _)
  exact exists_later hlogged (exists_later hsent (exists_now (not_lawful_of_sent rfl hsuccess)))

/-- A delivery that checks the log without finding a success sends a request. -/
theorem exists_check (hdelivery : state.deliveries[index]? = some delivery)
    (hphase : delivery.phase = .checking)
    (hunread : eventId ≠ "" → alreadyDelivered state.log delivery.subscription.id eventId = false)
    (hvalid : validateWebhookUrl environment delivery.subscription.url = .ok ())
    (hsuccess : Succeeded state.exchanges delivery.subscription.id) :
    ∃ later last, Run (step environment eventId) state later last ∧ ¬Lawful last := by
  have hread : deliver environment eventId state.log index delivery .read =
      some { phase := .checked false } := by
    by_cases hid : eventId = ""
    · simp [deliver, hphase, hid]
    · simp [deliver, hphase, hunread hid]
  obtain ⟨hchecked, hget⟩ := step_of_deliver hdelivery hread
  have hresumed (log : List WebhookDeliveryLog) :
      deliver environment eventId log index { delivery with phase := .checked false } .resumed =
        some { phase := .requested 1 none
               exchanges := [.sent index delivery.subscription.id] } := by
    simp [deliver, hvalid, iterate]
  obtain ⟨hsent, -⟩ := step_of_deliver hget (hresumed _)
  exact exists_later hchecked (exists_later hsent (exists_now (not_lawful_of_sent rfl hsuccess)))

/-- When all calls have settled, the next one looks for a success in the log only. -/
theorem exists_next_call
    (hsettled : ∀ call < state.calls, (outcome state call).isSome = true)
    (hlisted : (delivery.subscription.active &&
      delivery.subscription.eventTypes.contains delivery.eventType) = true)
    (hunread : eventId ≠ "" → alreadyDelivered state.log delivery.subscription.id eventId = false)
    (hvalid : validateWebhookUrl environment delivery.subscription.url = .ok ())
    (hsuccess : Succeeded state.exchanges delivery.subscription.id) :
    ∃ later last, Run (step environment eventId) state later last ∧ ¬Lawful last := by
  have heligible : eligible delivery.eventType [delivery.subscription] =
      [delivery.subscription] := by
    rw [eligible, List.filter_singleton, hlisted]
    rfl
  obtain ⟨started, hstart, hadded, hlog, hexchanges⟩ : ∃ started,
      step environment eventId state (.start delivery.eventType [delivery.subscription]) =
          some started ∧
        started.deliveries[state.deliveries.length]? =
            some (newDelivery state.calls delivery.eventType delivery.subscription) ∧
          started.log = state.log ∧ started.exchanges = state.exchanges := by
    rw [step, if_pos ⟨hsettled, by simp⟩, heligible]
    exact ⟨_, rfl, List.getElem?_concat_length, rfl, rfl⟩
  rw [← hlog] at hunread
  rw [← hexchanges] at hsuccess
  exact exists_later hstart (exists_check hadded rfl hunread hvalid hsuccess)

/-- Only the latest call goes on. -/
def LatestOnly (state : State) : Prop :=
  ∀ {index : ℕ} {delivery : Delivery}, state.deliveries[index]? = some delivery →
    delivery.phase.active = true → delivery.call + 1 = state.calls

theorem latestOnly_afterMove (hlatest : LatestOnly state)
    (hdelivery : state.deliveries[index]? = some delivery)
    (hactive : delivery.phase.active = true) :
    LatestOnly (afterMove state index delivery moved) := by
  intro other another hanother hothersActive
  rcases get_set_cases hanother with ⟨rfl, rfl⟩ | ⟨-, hbefore⟩
  · have hown := hlatest hdelivery hactive
    exact hown
  · exact hlatest hbefore hothersActive

/-- When a delivery of the latest call throws, all calls have settled. -/
theorem settled_of_thrown (hlatest : LatestOnly state)
    (hdelivery : state.deliveries[index]? = some delivery)
    (hactive : delivery.phase.active = true) (hthrown : moved.phase = .thrown) :
    ∀ call < state.calls, (outcome (afterMove state index delivery moved) call).isSome = true := by
  intro call _
  rw [outcome_isSome_iff, or_iff_not_imp_left]
  intro hnone another hmem hcall
  obtain ⟨other, hanother⟩ := List.mem_iff_getElem?.mp hmem
  have hmoved := get_afterMove hdelivery moved
  cases hphase : another.phase with
  | returned result => exact ⟨result, rfl⟩
  | thrown => exact absurd ⟨another, hmem, hcall, hphase⟩ hnone
  | _ =>
      have hothersActive : another.phase.active = true := by rw [hphase]; rfl
      have hsame : another.call + 1 = state.calls :=
        latestOnly_afterMove hlatest hdelivery hactive hanother hothersActive
      have hown := hlatest hdelivery hactive
      refine absurd ⟨_, List.mem_of_getElem? hmoved, ?_, hthrown⟩ hnone
      show delivery.call = call
      omega

/-- After a success whose log failed, a run can send another request. -/
theorem exists_request {attempt status : ℕ} {stored : Bool} {error : String}
    (htraced : AllTraced environment state) (hkept : AllKept eventId state)
    (hdelivery : state.deliveries[index]? = some delivery)
    (hphase : delivery.phase = .logging attempt status)
    (hsuccess : successful status = true) (hlost : ¬(3 ≤ attempt ∧ stored = true)) :
    ∃ later last, Run (step environment eventId)
        (afterMove state index delivery
          { phase := .catching attempt (some status) error
            rows := storedRows stored (responseRow eventId delivery attempt status) })
        later last ∧ ¬Lawful last := by
  have hown := htraced.known hdelivery
  have hactive : delivery.phase.active = true := by rw [hphase]; rfl
  have hheard : Succeeded state.exchanges delivery.subscription.id :=
    ⟨index, status, hown.heard attempt status hphase, hsuccess⟩
  have hcatching := get_afterMove hdelivery
    { phase := .catching attempt (some status) error
      rows := storedRows stored (responseRow eventId delivery attempt status) }
  by_cases hattempt : attempt < 3
  · exact exists_retry hcatching rfl hattempt hheard
  · have hstored : stored = false := by
      rw [Bool.eq_false_iff]
      exact fun h => hlost ⟨Nat.le_of_not_lt hattempt, h⟩
    subst hstored
    have hlatest : LatestOnly state := fun hget => (hkept.known hget).latest
    have hfails (log : List WebhookDeliveryLog) :
        deliver environment eventId log index
            { delivery with phase := .catching attempt (some status) error }
            (.writeFailed false error) = some { phase := .thrown } := rfl
    obtain ⟨hthrown, -⟩ := step_of_deliver hcatching (hfails _)
    have hunread (hid : eventId ≠ "") :
        alreadyDelivered state.log delivery.subscription.id eventId = false :=
      (hkept.known hdelivery).unrecorded (by rw [hphase]; rfl) hid
    have hvalid : validateWebhookUrl environment delivery.subscription.url = .ok () :=
      hown.valid (by rw [hphase]; rfl)
    refine exists_later hthrown (exists_next_call ?_ hown.listed hunread hvalid hheard)
    exact settled_of_thrown (latestOnly_afterMove hlatest hdelivery hactive) hcatching rfl rfl

/-- After a step that is not careful, a run can break a promise. -/
theorem exists_unlawful {event : Event} (htraced : AllTraced environment state)
    (hkept : AllKept eventId state)
    (hstep : step environment eventId state event = some next)
    (hcareless : ¬Careful environment eventId state event) :
    ∃ later last, Run (step environment eventId) next later last ∧ ¬Lawful last := by
  cases event with
  | start eventType subscriptions => exact absurd trivial hcareless
  | happens index happening =>
      obtain ⟨delivery, moved, hdelivery, hmoves, rfl⟩ := step_happens hstep
      have hmove : ¬CarefulMove environment eventId state index delivery happening
          delivery.phase := by
        intro hmove
        refine hcareless fun other hother => ?_
        rw [hdelivery] at hother
        cases hother
        exact hmove
      have hown := htraced.known hdelivery
      generalize hphase : delivery.phase = phase at hmoves hmove
      cases hmoves with
      | refused hinvalid => exact absurd (fun _ hvalid => absurd hvalid hinvalid) hmove
      | begun hvalid =>
          have hsuccess : Succeeded state.exchanges delivery.subscription.id := by
            by_contra hnone
            exact hmove fun _ _ => hnone
          exact exists_now (not_lawful_of_sent rfl hsuccess)
      | lostRefusal =>
          exact exists_now (not_lawful_of_thrown hdelivery hmove rfl)
      | lostError =>
          exact exists_now (not_lawful_of_thrown hdelivery hmove rfl)
      | lostResponse =>
          obtain ⟨hsuccess, hlost⟩ := Classical.not_imp.mp hmove
          exact exists_request htraced hkept hdelivery hphase hsuccess hlost
      | _ => exact absurd trivial hmove

/-! ## The dispatcher -/

def hookEnvironment : Environment :=
  { parse := fun _ => some { protocol := "https:", host := some (.domain "hooks.example.com") }
    nodeEnv := some "production" }

def hookSubscription : WebhookSubscription :=
  { id := 1, url := "https://hooks.example.com/in", active := true
    eventTypes := ["invoice.paid"] }

/-- The log of a delivered event fails, so that it is delivered once more. -/
def failedLog : List Event :=
  [.start "invoice.paid" [hookSubscription], .happens 0 .read, .happens 0 .resumed,
    .happens 0 (.answered 200), .happens 0 (.writeFailed false "connection terminated"),
    .happens 0 .written, .happens 0 .timer]

end StellarSettle.WebhookDispatcher
