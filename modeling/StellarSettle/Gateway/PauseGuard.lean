import StellarSettle.Core.Checks
import StellarSettle.Core.InsertionOrder
import StellarSettle.Core.TransitionSystem
import StellarSettle.Model.Entities
import StellarSettle.Projections.EventReader

/-!
# The contract pause guard

The guard reads the pause state of its contracts concurrently, under a timeout.  A paused contract
rejects the check at once, errors of reads wait for the other reads.  Each event runs the
callbacks that it makes ready to their end: the next event finds none of them waiting.
-/

namespace StellarSettle.PauseGuard

open StellarSettle.Checks
open StellarSettle.Entities (Thrown)
open StellarSettle.EventReader (trimText)
open StellarSettle.InsertionOrder (nodup_eraseDups)
open StellarSettle.TransitionSystem

/-! ## The configuration -/

def PAUSED_RETRY_AFTER_SECONDS : ℕ := 15

structure ContractPauseGuardOptions where
  contractId : Option String
  contractIds : List (Option String) := []
  timeoutMs : ℤ := 3000
  deriving DecidableEq, Repr

/-- `new Contract(trimmed)` fails on a text that is no contract id. -/
def normaliseContractId (isContract : String → Bool) :
    Option String → Except String (Option String)
  | none => .ok none
  | some contractId => do
      let trimmed := trimText contractId
      if trimmed = "" then return none
      throwIf (isContract trimmed = false)
        "Contract pause guard contractId is not a valid Soroban contract id."
      return some trimmed

def resolveGuardedContracts (isContract : String → Bool) (contractId : Option String)
    (contractIds : List (Option String)) : Except String (List String) := do
  let normalised ← (contractId :: contractIds).mapM (normaliseContractId isContract)
  return normalised.reduceOption.eraseDups

/-- The contracts of a guard.  A guard that cannot be configured throws at startup. -/
def checkContractNotPaused (isContract : String → Bool) (options : ContractPauseGuardOptions) :
    Except String (List String) := do
  let guarded ← resolveGuardedContracts isContract options.contractId options.contractIds
  throwIf (options.timeoutMs ≤ 0 ∨ 2 ^ 53 ≤ options.timeoutMs)
    "Contract pause guard timeoutMs must be a positive integer."
  return guarded

/-! ## One request -/

inductive Outcome where
  | notPaused
  | paused
  | failed (error : Thrown)
  deriving DecidableEq, Repr

/-- What rejects the check. -/
inductive Reason where
  | contractPaused (contractId : String)
  | readFailed (error : Thrown)
  | timedOut
  deriving DecidableEq, Repr

structure GuardError where
  statusCode : ℕ
  message : String
  code : String
  deriving DecidableEq, Repr

inductive Answer where
  | next (error : Option GuardError)
  | response (status : ℕ) (retryAfter : ℕ) (code message : String)
  deriving DecidableEq, Repr

def pauseCheckFailed : GuardError :=
  { statusCode := 503
    message := "Unable to verify smart contract status. Please try again shortly."
    code := "CONTRACT_PAUSE_CHECK_FAILED" }

def contractPausedAnswer : Answer :=
  .response 503 PAUSED_RETRY_AFTER_SECONDS "CONTRACT_PAUSED"
    "Smart contract operations are currently paused by administration."

/-- A promise that is settled stays so. -/
abbrev Settlement := Option (Except Reason Unit)

/-- A request at the guard: the reads that run, the errors of those that failed, the promise of
all reads, the one that the timeout may reject, its timer, and what was answered. -/
structure Request where
  waiting : List String
  errors : List Thrown
  all : Settlement
  timed : Settlement
  timerArmed : Bool
  headersSent : Bool
  answers : List Answer

/-- Without contracts the guard is inert. -/
def start (guarded : List String) : Request :=
  { waiting := guarded
    errors := []
    all := none
    timed := none
    timerArmed := !guarded.isEmpty
    headersSent := false
    answers := if guarded = [] then [.next none] else [] }

/-- The handler after its `await`. -/
def answer (result : Except Reason Unit) (request : Request) : Request :=
  match result with
  | .ok () => { request with answers := request.answers ++ [.next none] }
  | .error (.contractPaused _) =>
      if request.headersSent then request
      else
        { request with
          headersSent := true
          answers := request.answers ++ [contractPausedAnswer] }
  | .error (.readFailed _) | .error .timedOut =>
      { request with answers := request.answers ++ [.next (some pauseCheckFailed)] }

/-- The first settlement is the one that counts. -/
def settle (result : Except Reason Unit) (request : Request) : Request :=
  match request.timed with
  | some _ => request
  | none => answer result { request with timed := some result }

/-- One read completes within `Promise.all`. -/
def completeRead (contractId : String) (outcome : Outcome) (request : Request) : Request :=
  let waiting := request.waiting.erase contractId
  let fulfilled : Settlement := if waiting = [] then some (.ok ()) else none
  match outcome with
  | .notPaused => { request with waiting := waiting, all := request.all <|> fulfilled }
  | .failed error =>
      { request with
        waiting := waiting
        errors := request.errors ++ [error]
        all := request.all <|> fulfilled }
  | .paused =>
      { request with
        waiting := waiting
        all := request.all <|> some (.error (.contractPaused contractId)) }

/-- The promise of `processEfficiently`. -/
def processEfficiently (request : Request) : Settlement :=
  request.all.map fun result => do
    result
    match request.errors.head? with
    | some error => .error (.readFailed error)
    | none => .ok ()

/-- The timer is cleared when the check settles. -/
def flush (request : Request) : Request :=
  match processEfficiently request with
  | none => request
  | some result => { settle result request with timerArmed := false }

inductive Event where
  | complete (contractId : String) (outcome : Outcome)
  | timeout
  deriving DecidableEq, Repr

def step (request : Request) : Event → Option Request
  | .complete contractId outcome =>
      if contractId ∈ request.waiting then some (flush (completeRead contractId outcome request))
      else none
  | .timeout =>
      if request.timerArmed then
        some (settle (.error .timedOut) { request with timerArmed := false })
      else none

/-- The events before the timeout. -/
def beforeTimeout (events : List Event) : List Event := events.takeWhile (· ≠ .timeout)

/-! ## Open and answered requests -/

/-- Nothing has been decided, and some read still runs. -/
structure Open (request : Request) : Prop where
  timerArmed : request.timerArmed = true
  timed : request.timed = none
  all : request.all = none
  headersSent : request.headersSent = false
  answers : request.answers = []
  waiting : request.waiting ≠ []
  distinct : request.waiting.Nodup

/-- There is one answer, and no settlement can give another. -/
structure Answered (given : Answer) (request : Request) : Prop where
  timerArmed : request.timerArmed = false
  answers : request.answers = [given]
  settled : request.timed = none → request.waiting = []

variable {request after last : Request} {event : Event} {events : List Event}
variable {contractId : String} {outcome : Outcome} {given : Answer}

theorem waiting_completeRead :
    (completeRead contractId outcome request).waiting = request.waiting.erase contractId := by
  cases outcome <;> rfl

theorem waiting_settle (result : Except Reason Unit) :
    (settle result request).waiting = request.waiting := by
  unfold settle answer
  split
  · rfl
  · split
    · rfl
    · split <;> rfl
    · rfl
    · rfl

theorem waiting_flush : (flush request).waiting = request.waiting := by
  unfold flush
  split
  · rfl
  · exact waiting_settle _

/-- A step completes a read that runs, or none. -/
theorem waiting_of_step (hstep : step request event = some after) :
    match event with
    | .complete contractId _ =>
        contractId ∈ request.waiting ∧ after.waiting = request.waiting.erase contractId
    | .timeout => after.waiting = request.waiting := by
  cases event with
  | complete contractId outcome =>
      simp only [step, Option.ite_none_right_eq_some, Option.some_inj] at hstep
      obtain ⟨hwaiting, rfl⟩ := hstep
      exact ⟨hwaiting, by rw [waiting_flush, waiting_completeRead]⟩
  | timeout =>
      simp only [step, Option.ite_none_right_eq_some, Option.some_inj] at hstep
      obtain ⟨_, rfl⟩ := hstep
      exact waiting_settle _

/-- Only reads that run complete later. -/
theorem mem_waiting_of_run (hrun : Run step request events last)
    (hcomplete : .complete contractId outcome ∈ events) : contractId ∈ request.waiting := by
  induction hrun with
  | nil state => cases hcomplete
  | @cons before middle _ event _ _ hstep _ ih =>
      have hwaiting := waiting_of_step hstep
      rcases List.mem_cons.1 hcomplete with rfl | hrest
      · exact hwaiting.1
      · cases event with
        | complete other _ =>
            have hmiddle := ih hrest
            rw [hwaiting.2] at hmiddle
            exact List.mem_of_mem_erase hmiddle
        | timeout =>
            have hmiddle := ih hrest
            rwa [hwaiting] at hmiddle

theorem settle_of_timed {result : Except Reason Unit} (htimed : request.timed ≠ none) :
    settle result request = request := by
  unfold settle
  split
  · rfl
  · exact absurd ‹_› htimed

/-- An answered request stays as it is answered. -/
theorem Answered.step (hanswered : Answered given request)
    (hstep : step request event = some after) : Answered given after := by
  cases event with
  | timeout =>
      simp only [PauseGuard.step, Option.ite_none_right_eq_some] at hstep
      rw [hanswered.timerArmed] at hstep
      cases hstep.1
  | complete contractId outcome =>
      simp only [PauseGuard.step, Option.ite_none_right_eq_some, Option.some_inj] at hstep
      obtain ⟨hwaiting, rfl⟩ := hstep
      have htimed : request.timed ≠ none := fun hnone => by
        rw [hanswered.settled hnone] at hwaiting
        cases hwaiting
      have hsame : (completeRead contractId outcome request).timed = request.timed ∧
          (completeRead contractId outcome request).timerArmed = request.timerArmed ∧
          (completeRead contractId outcome request).answers = request.answers := by
        cases outcome <;> exact ⟨rfl, rfl, rfl⟩
      obtain ⟨htimedSame, harmed, hanswers⟩ := hsame
      have hstill : ∀ result, settle result (completeRead contractId outcome request) =
          completeRead contractId outcome request :=
        fun _ => settle_of_timed (by rwa [htimedSame])
      unfold flush
      split
      · exact ⟨by rw [harmed, hanswered.timerArmed], by rw [hanswers, hanswered.answers],
          fun hnone => absurd (htimedSame ▸ hnone) htimed⟩
      · rw [hstill]
        exact ⟨rfl, by rw [← hanswered.answers, ← hanswers],
          fun hnone => absurd (htimedSame ▸ hnone) htimed⟩

/-- The answer once all reads have completed, none of them paused. -/
def verdict (errors : List Thrown) : Answer :=
  match errors.head? with
  | none => .next none
  | some _ => .next (some pauseCheckFailed)

def errorsAfter (outcome : Outcome) (errors : List Thrown) : List Thrown :=
  match outcome with
  | .failed error => errors ++ [error]
  | _ => errors

theorem Open.flush_of_waiting (hopen : Open request) (hpaused : outcome ≠ .paused)
    (hothers : request.waiting.erase contractId ≠ []) :
    Open (flush (completeRead contractId outcome request)) ∧
      (flush (completeRead contractId outcome request)).errors =
        errorsAfter outcome request.errors := by
  obtain ⟨waiting, errors, all, timed, timerArmed, headersSent, answers⟩ := request
  obtain ⟨rfl, rfl, rfl, rfl, rfl, _, hdistinct⟩ := hopen
  have hrest := hdistinct.erase contractId
  cases outcome with
  | paused => exact absurd rfl hpaused
  | notPaused =>
      simp only [completeRead, if_neg hothers, flush, processEfficiently]
      exact ⟨⟨rfl, rfl, rfl, rfl, rfl, hothers, hrest⟩, rfl⟩
  | failed error =>
      simp only [completeRead, if_neg hothers, flush, processEfficiently]
      exact ⟨⟨rfl, rfl, rfl, rfl, rfl, hothers, hrest⟩, rfl⟩

theorem Open.flush_of_last (hopen : Open request) (hpaused : outcome ≠ .paused)
    (hlast : request.waiting.erase contractId = []) :
    Answered (verdict (errorsAfter outcome request.errors))
      (flush (completeRead contractId outcome request)) := by
  obtain ⟨waiting, errors, all, timed, timerArmed, headersSent, answers⟩ := request
  obtain ⟨rfl, rfl, rfl, rfl, rfl, _, _⟩ := hopen
  cases outcome with
  | paused => exact absurd rfl hpaused
  | notPaused =>
      cases errors <;>
        simp only [completeRead, if_pos hlast, flush, processEfficiently] <;>
        exact ⟨rfl, rfl, fun _ => hlast⟩
  | failed error =>
      cases errors <;>
        simp only [completeRead, if_pos hlast, flush, processEfficiently] <;>
        exact ⟨rfl, rfl, fun _ => hlast⟩

theorem Open.flush_of_paused (hopen : Open request) :
    Answered contractPausedAnswer (flush (completeRead contractId .paused request)) := by
  obtain ⟨waiting, errors, all, timed, timerArmed, headersSent, answers⟩ := request
  obtain ⟨rfl, rfl, rfl, rfl, rfl, _, _⟩ := hopen
  exact ⟨rfl, rfl, fun hnone => by cases hnone⟩

theorem Open.timeout (hopen : Open request) (hstep : step request .timeout = some after) :
    Answered (.next (some pauseCheckFailed)) after := by
  obtain ⟨waiting, errors, all, timed, timerArmed, headersSent, answers⟩ := request
  obtain ⟨rfl, rfl, rfl, rfl, rfl, _, _⟩ := hopen
  simp only [step, if_true, Option.some_inj] at hstep
  subst hstep
  exact ⟨rfl, rfl, fun hnone => by cases hnone⟩

theorem mem_beforeTimeout_cons {other : Event} (hevent : event ≠ .timeout) :
    other ∈ beforeTimeout (event :: events) ↔ other = event ∨ other ∈ beforeTimeout events := by
  rw [beforeTimeout, List.takeWhile_cons_of_pos (by simpa using hevent), List.mem_cons]
  rfl

theorem mem_of_mem_beforeTimeout {other : Event} (hother : other ∈ beforeTimeout events) :
    other ∈ events := (List.takeWhile_prefix _).subset hother

/-- A read that has completed does not complete again. -/
theorem not_mem_of_completed (hdistinct : request.waiting.Nodup)
    (hstep : step request (.complete contractId outcome) = some after)
    (hrun : Run step after events last) (other : Outcome) :
    .complete contractId other ∉ beforeTimeout events := by
  intro hagain
  have hwaiting := mem_waiting_of_run hrun (mem_of_mem_beforeTimeout hagain)
  rw [(waiting_of_step hstep).2] at hwaiting
  exact hdistinct.not_mem_erase hwaiting

theorem answered_of_run (hanswered : Answered given request)
    (hrun : Run step request events last) : Answered given last :=
  hrun.invariant (fun _ hstep hinv => hinv.step hstep) hanswered

/-- What an open request comes to. -/
structure Decided (request : Request) (events : List Event) (last : Request) : Prop where
  passes : .next none ∈ last.answers ↔
    request.errors = [] ∧
      ∀ contractId ∈ request.waiting, .complete contractId .notPaused ∈ beforeTimeout events
  blocks : (∃ contractId, .complete contractId .paused ∈ beforeTimeout events) →
    last.answers = [contractPausedAnswer]
  once : Open last ∨ ∃ given, Answered given last

theorem decided_of_timeout (hopen : Open request)
    (hstep : step request .timeout = some after) (hrun : Run step after events last) :
    Decided request (.timeout :: events) last := by
  have hlast := answered_of_run (hopen.timeout hstep) hrun
  obtain ⟨contractId, hwaiting⟩ := List.exists_mem_of_ne_nil _ hopen.waiting
  refine ⟨iff_of_false ?_ ?_, ?_, .inr ⟨_, hlast⟩⟩
  · rw [hlast.answers]
    decide
  · rintro ⟨_, hall⟩
    cases hall contractId hwaiting
  · rintro ⟨_, hpaused⟩
    cases hpaused

theorem decided_of_paused (hopen : Open request)
    (hstep : step request (.complete contractId .paused) = some after)
    (hrun : Run step after events last) :
    Decided request (.complete contractId .paused :: events) last := by
  have hafter : Answered contractPausedAnswer after := by
    simp only [step, Option.ite_none_right_eq_some, Option.some_inj] at hstep
    rw [← hstep.2]
    exact hopen.flush_of_paused
  have hlast := answered_of_run hafter hrun
  refine ⟨iff_of_false ?_ ?_, fun _ => hlast.answers, .inr ⟨_, hlast⟩⟩
  · rw [hlast.answers]
    decide
  · rintro ⟨_, hall⟩
    rcases (mem_beforeTimeout_cons (by simp)).1
      (hall contractId (waiting_of_step hstep).1) with hsame | hlater
    · cases hsame
    · exact not_mem_of_completed hopen.distinct hstep hrun _ hlater

theorem errorsAfter_eq_nil (hpaused : outcome ≠ .paused) {errors : List Thrown} :
    errorsAfter outcome errors = [] ↔ errors = [] ∧ outcome = .notPaused := by
  cases outcome with
  | paused => exact absurd rfl hpaused
  | notPaused => simp [errorsAfter]
  | failed error => simp [errorsAfter]

theorem decided_of_last (hopen : Open request) (hpaused : outcome ≠ .paused)
    (hstep : step request (.complete contractId outcome) = some after)
    (hothers : request.waiting.erase contractId = []) (hrun : Run step after events last) :
    Decided request (.complete contractId outcome :: events) last := by
  have hwaiting := waiting_of_step hstep
  have hafter : Answered (verdict (errorsAfter outcome request.errors)) after := by
    simp only [step, Option.ite_none_right_eq_some, Option.some_inj] at hstep
    rw [← hstep.2]
    exact hopen.flush_of_last hpaused hothers
  have hlast := answered_of_run hafter hrun
  have hnone : ∀ other result, .complete other result ∉ beforeTimeout events := by
    intro other result hlater
    have hmem := mem_waiting_of_run hrun (mem_of_mem_beforeTimeout hlater)
    rw [hwaiting.2, hothers] at hmem
    cases hmem
  have hsole : ∀ other ∈ request.waiting, other = contractId := by
    intro other hother
    by_contra hne
    have hmem := (List.mem_erase_of_ne hne).2 hother
    rw [hothers] at hmem
    cases hmem
  refine ⟨?_, ?_, .inr ⟨_, hlast⟩⟩
  · have hverdict : .next none ∈ last.answers ↔ errorsAfter outcome request.errors = [] := by
      rw [hlast.answers]
      cases errorsAfter outcome request.errors <;> simp [verdict]
    rw [hverdict, errorsAfter_eq_nil hpaused]
    refine and_congr_right fun _ => ⟨?_, ?_⟩
    · rintro rfl other hother
      rw [hsole other hother, mem_beforeTimeout_cons (by simp)]
      exact .inl rfl
    · intro hall
      rcases (mem_beforeTimeout_cons (by simp)).1 (hall contractId hwaiting.1) with hsame | hlater
      · cases hsame
        rfl
      · exact absurd hlater (hnone _ _)
  · rintro ⟨other, hother⟩
    rcases (mem_beforeTimeout_cons (by simp)).1 hother with hsame | hlater
    · cases hsame
      exact absurd rfl hpaused
    · exact absurd hlater (hnone _ _)

theorem decided_of_complete (hopen : Open request) (hpaused : outcome ≠ .paused)
    (hstep : step request (.complete contractId outcome) = some after)
    (herrors : after.errors = errorsAfter outcome request.errors)
    (hrun : Run step after events last) (hrest : Decided after events last) :
    Decided request (.complete contractId outcome :: events) last := by
  have hwaiting := waiting_of_step hstep
  have hagain := not_mem_of_completed hopen.distinct hstep hrun
  refine ⟨?_, ?_, hrest.once⟩
  · rw [hrest.passes, herrors, errorsAfter_eq_nil hpaused, hwaiting.2, and_assoc]
    refine and_congr_right fun _ => ⟨?_, ?_⟩
    · rintro ⟨rfl, hall⟩ other hother
      rw [mem_beforeTimeout_cons (by simp)]
      by_cases hsame : other = contractId
      · exact .inl (by rw [hsame])
      · exact .inr (hall other ((List.mem_erase_of_ne hsame).2 hother))
    · intro hall
      refine ⟨?_, fun other hother => ?_⟩
      · rcases (mem_beforeTimeout_cons (by simp)).1 (hall contractId hwaiting.1) with
          hsame | hlater
        · cases hsame
          rfl
        · exact absurd hlater (hagain _)
      · rcases (mem_beforeTimeout_cons (by simp)).1
          (hall other (List.mem_of_mem_erase hother)) with hsame | hlater
        · cases hsame
          exact absurd hother hopen.distinct.not_mem_erase
        · exact hlater
  · rintro ⟨other, hother⟩
    rcases (mem_beforeTimeout_cons (by simp)).1 hother with hsame | hlater
    · cases hsame
      exact absurd rfl hpaused
    · exact hrest.blocks ⟨other, hlater⟩

/-- Whatever the order of the completions and the timeout. -/
theorem decided_of_run (hrun : Run step request events last) (hopen : Open request) :
    Decided request events last := by
  induction hrun with
  | nil request =>
      refine ⟨iff_of_false ?_ ?_, ?_, .inl hopen⟩
      · rw [hopen.answers]
        exact List.not_mem_nil
      · rintro ⟨_, hall⟩
        obtain ⟨contractId, hwaiting⟩ := List.exists_mem_of_ne_nil _ hopen.waiting
        cases hall contractId hwaiting
      · rintro ⟨_, hpaused⟩
        cases hpaused
  | @cons before middle _ event events _ hstep hrest ih =>
      cases event with
      | timeout => exact decided_of_timeout hopen hstep hrest
      | complete contractId outcome =>
          by_cases hpaused : outcome = .paused
          · subst hpaused
            exact decided_of_paused hopen hstep hrest
          · by_cases hothers : before.waiting.erase contractId = []
            · exact decided_of_last hopen hpaused hstep hothers hrest
            · have hafter : Open middle ∧
                  middle.errors = errorsAfter outcome before.errors := by
                have hflush := hopen.flush_of_waiting hpaused hothers
                simp only [step, Option.ite_none_right_eq_some, Option.some_inj] at hstep
                rwa [hstep.2] at hflush
              exact decided_of_complete hopen hpaused hstep hafter.2 hrest (ih hafter.1)

/-! ## The guard -/

/-- What the guard does with a request in every order of events.  As long as its timer runs it has
not answered, and the timeout would make it answer once. -/
structure Guards (guarded : List String) (events : List Event) (last : Request) : Prop where
  passes : .next none ∈ last.answers ↔
    ∀ contractId ∈ guarded, .complete contractId .notPaused ∈ beforeTimeout events
  blocks : (∃ contractId, .complete contractId .paused ∈ beforeTimeout events) →
    last.answers = [contractPausedAnswer]
  pending : last.timerArmed = true →
    last.answers = [] ∧ ∃ after given, step last .timeout = some after ∧ after.answers = [given]
  settled : last.timerArmed = false → ∃ given, last.answers = [given]

theorem nodup_of_guard {isContract : String → Bool} {options : ContractPauseGuardOptions}
    {guarded : List String} (hguard : checkContractNotPaused isContract options = .ok guarded) :
    guarded.Nodup := by
  simp only [checkContractNotPaused, resolveGuardedContracts, bind_eq_ok, pure_eq_ok] at hguard
  obtain ⟨_, ⟨normalised, _, rfl⟩, _, _, rfl⟩ := hguard
  exact nodup_eraseDups _

theorem pauseGuard_guards {isContract : String → Bool} {options : ContractPauseGuardOptions}
    {guarded : List String} {events : List Event} {last : Request}
    (hguard : checkContractNotPaused isContract options = .ok guarded)
    (hrun : Run step (start guarded) events last) : Guards guarded events last := by
  by_cases hempty : guarded = []
  · subst hempty
    have hstart : Answered (.next none) (start []) := ⟨rfl, rfl, fun _ => rfl⟩
    have hlast := answered_of_run hstart hrun
    have hnone : ∀ contractId outcome, .complete contractId outcome ∉ events := by
      intro contractId outcome hcomplete
      cases mem_waiting_of_run hrun hcomplete
    refine ⟨iff_of_true ?_ (by simp), ?_, ?_, fun _ => ⟨_, hlast.answers⟩⟩
    · rw [hlast.answers]
      exact List.mem_cons_self
    · rintro ⟨contractId, hpaused⟩
      exact absurd (mem_of_mem_beforeTimeout hpaused) (hnone _ _)
    · intro harmed
      rw [hlast.timerArmed] at harmed
      cases harmed
  · have hstart : Open (start guarded) :=
      ⟨by simpa [start] using hempty, rfl, rfl, rfl, if_neg hempty, hempty, nodup_of_guard hguard⟩
    have hdecided := decided_of_run hrun hstart
    refine ⟨by simpa [start] using hdecided.passes, hdecided.blocks, ?_, ?_⟩
    · intro harmed
      rcases hdecided.once with hopen | ⟨given, hanswered⟩
      · have hstep : ∃ after, step last .timeout = some after := by simp [step, harmed]
        obtain ⟨after, hafter⟩ := hstep
        exact ⟨hopen.answers, after, _, hafter, (hopen.timeout hafter).answers⟩
      · rw [hanswered.timerArmed] at harmed
        cases harmed
    · intro hcleared
      rcases hdecided.once with hopen | ⟨given, hanswered⟩
      · rw [hopen.timerArmed] at hcleared
        cases hcleared
      · exact ⟨given, hanswered.answers⟩

/-- Two contracts, one of them given twice, of which the second is paused after the first read has
failed. -/
theorem escrowAndToken_guards :
    ∃ last, Run step (start ["ESCROW", "TOKEN"])
        [.complete "ESCROW" (.failed (.error "fetch failed")), .complete "TOKEN" .paused] last ∧
      Guards ["ESCROW", "TOKEN"]
        [.complete "ESCROW" (.failed (.error "fetch failed")), .complete "TOKEN" .paused] last := by
  have hguard : checkContractNotPaused (fun _ => true)
      { contractId := some " ESCROW ", contractIds := [none, some "TOKEN", some "ESCROW"] } =
        .ok ["ESCROW", "TOKEN"] := by
    decide +kernel
  have hrun : Run step (start ["ESCROW", "TOKEN"])
      [.complete "ESCROW" (.failed (.error "fetch failed")), .complete "TOKEN" .paused]
      { waiting := []
        errors := [.error "fetch failed"]
        all := some (.error (.contractPaused "TOKEN"))
        timed := some (.error (.contractPaused "TOKEN"))
        timerArmed := false
        headersSent := true
        answers := [contractPausedAnswer] } :=
    run_of_exec rfl
  exact ⟨_, hrun, pauseGuard_guards hguard hrun⟩

end StellarSettle.PauseGuard
