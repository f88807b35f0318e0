import StellarSettle.Auth.AuthService

/-!
# One token for each challenge

Whatever verifications run at the same time, at most one of them consumes a challenge, and a token
is signed only after that, by a call whose checks the challenge has passed.
-/

namespace StellarSettle.SingleUse

open StellarSettle.AuthService
open StellarSettle.AuthService.ChallengeTable (Unconsumed)
open StellarSettle.Checks
open StellarSettle.Entities (Timestamp Uuid)
open StellarSettle.EventReader (trimText trimText_trimText)
open StellarSettle.TransitionSystem

/-! ## What stays of a challenge -/

/-- The challenge without its consumption: what it was created with. -/
def opened (challenge : ChallengeRecord) : ChallengeRecord := { challenge with consumedAt := none }

def Recorded (table : ChallengeTable) (challenge : ChallengeRecord) : Prop :=
  ∃ row ∈ table.rows, opened row = opened challenge

def Consumed (table : ChallengeTable) (id : Uuid) : Prop :=
  ∃ row ∈ table.rows, row.id = id ∧ row.consumedAt.isSome

/-- Challenges stay as they were created, and a consumed one stays consumed. -/
structure Grows (before after : ChallengeTable) : Prop where
  recorded : ∀ {challenge}, Recorded before challenge → Recorded after challenge
  consumed : ∀ {id}, Consumed before id → Consumed after id

section Tables

variable {table : ChallengeTable} {id : Uuid} {consumedAt : Timestamp}

theorem Grows.refl (table : ChallengeTable) : Grows table table where
  recorded := fun hrecorded => hrecorded
  consumed := fun hconsumed => hconsumed

theorem mem_create {challenge row : ChallengeRecord} (hrow : row ∈ table.rows) :
    row ∈ (table.create challenge).rows := by
  rw [ChallengeTable.create]
  split
  · exact hrow
  · exact List.mem_append_left _ hrow

theorem grows_create (challenge : ChallengeRecord) : Grows table (table.create challenge) where
  recorded := fun ⟨row, hrow, hopened⟩ => ⟨row, mem_create hrow, hopened⟩
  consumed := fun ⟨row, hrow, hboth⟩ => ⟨row, mem_create hrow, hboth⟩

/-- A row after the consumption: consumed if it was the wanted one, and the same otherwise. -/
theorem mem_consume {row : ChallengeRecord} (id : Uuid) (consumedAt : Timestamp)
    (hrow : row ∈ table.rows) :
    (if Unconsumed id row then { row with consumedAt := some consumedAt } else row) ∈
      (table.consume id consumedAt).rows := List.mem_map_of_mem hrow

theorem grows_consume : Grows table (table.consume id consumedAt) where
  recorded := by
    rintro challenge ⟨row, hrow, hopened⟩
    refine ⟨_, mem_consume id consumedAt hrow, ?_⟩
    split
    · exact hopened
    · exact hopened
  consumed := by
    rintro other ⟨row, hrow, hid, hconsumed⟩
    have hstays : ¬Unconsumed id row := by
      rintro ⟨_, hnone⟩
      rw [hnone] at hconsumed
      cases hconsumed
    have hmem := mem_consume id consumedAt hrow
    rw [if_neg hstays] at hmem
    exact ⟨row, hmem, hid, hconsumed⟩

/-- An update that affects a row consumes its challenge. -/
theorem consumed_of_affects (haffects : table.affects id = true) :
    Consumed (table.consume id consumedAt) id := by
  obtain ⟨row, hrow, hunconsumed⟩ := List.any_eq_true.mp haffects
  have hmem := mem_consume id consumedAt hrow
  rw [if_pos (of_decide_eq_true hunconsumed)] at hmem
  exact ⟨_, hmem, (of_decide_eq_true hunconsumed).1, rfl⟩

/-- An update affects only a challenge that nobody has consumed. -/
theorem not_consumed_of_affects (haffects : table.affects id = true) : ¬Consumed table id := by
  rintro ⟨other, hother, hid, hconsumed⟩
  obtain ⟨row, hrow, hunconsumed⟩ := List.any_eq_true.mp haffects
  obtain ⟨hrowId, hnone⟩ : Unconsumed id row := of_decide_eq_true hunconsumed
  have hsame : other = row :=
    List.inj_on_of_nodup_map table.uniqueIds hother hrow (hid.trans hrowId.symm)
  rw [hsame, hnone] at hconsumed
  cases hconsumed

end Tables

/-! ## What a call knows -/

section Calls

variable {Index Service Bytes : Type} (platform : Platform Bytes) (config : Service → AuthConfig)

/-- The challenge that a call has checked. -/
structure Passed (table : ChallengeTable) (checked : Checked Service Bytes) : Prop where
  recorded : Recorded table checked.challenge
  address : checked.challenge.stellarAddress = checked.request.sanitizedKey
  network : checked.challenge.network = (config checked.service).network
  alive : checked.checkedAt < checked.challenge.expiresAt
  signed : platform.verify checked.request.sanitizedKey checked.challenge.message
    checked.request.signature = some true

/-- The promise is for this address. -/
def PromiseFor (upsert : Index → Option (Upsert Service)) (joined : Index) (publicKey : String) :
    Prop :=
  ∃ promise, upsert joined = some promise ∧ promise.publicKey = publicKey

def Sanitized (request : VerifyRequest Bytes) : Prop :=
  trimText request.sanitizedKey = request.sanitizedKey

/-- What a call knows at each stage. -/
def Knows (table : ChallengeTable) (upsert : Index → Option (Upsert Service)) :
    Call Index Service Bytes → Prop
  | .idle | .failed _ => True
  | .lookingUp _ request => Sanitized request
  | .lookedUp _ request found => Sanitized request ∧
      ∀ challenge ∈ found, Recorded table challenge ∧
        challenge.stellarAddress = request.sanitizedKey
  | .processing checked joined consumed user => Passed platform config table checked ∧
      (consumed = .resolved true → Consumed table checked.challenge.id) ∧
      PromiseFor upsert joined checked.request.sanitizedKey ∧
      ∀ found, user = .resolved found → found.stellarAddress = checked.request.sanitizedKey
  | .issued checked token => Passed platform config table checked ∧
      Consumed table checked.challenge.id ∧
      ∃ user, user.stellarAddress = checked.request.sanitizedKey ∧ token = signToken user

/-- The challenge that the call has consumed. -/
def won : Call Index Service Bytes → Option Uuid
  | .processing checked _ (.resolved true) _ => some checked.challenge.id
  | .issued checked _ => some checked.challenge.id
  | _ => none

/-- The call has not come to its promises. -/
def unprocessed : Call Index Service Bytes → Bool
  | .idle | .lookingUp _ _ | .lookedUp _ _ _ => true
  | _ => false

variable {platform config} {before after : ChallengeTable}
  {upsert next : Index → Option (Upsert Service)} {call : Call Index Service Bytes}

/-- Promises stay promises for the same address. -/
def PromisesStay (upsert next : Index → Option (Upsert Service)) : Prop :=
  ∀ index publicKey, PromiseFor upsert index publicKey → PromiseFor next index publicKey

theorem Passed.mono (hgrows : Grows before after) {checked : Checked Service Bytes}
    (hpassed : Passed platform config before checked) : Passed platform config after checked :=
  { hpassed with recorded := hgrows.recorded hpassed.recorded }

theorem Knows.mono (hgrows : Grows before after) (hstay : PromisesStay upsert next)
    (hknows : Knows platform config before upsert call) :
    Knows platform config after next call := by
  cases call with
  | idle => trivial
  | failed error => trivial
  | lookingUp service request => exact hknows
  | lookedUp service request found =>
      obtain ⟨hsanitized, hfound⟩ := hknows
      exact ⟨hsanitized, fun challenge hmem =>
        ⟨hgrows.recorded (hfound challenge hmem).1, (hfound challenge hmem).2⟩⟩
  | processing checked joined consumed user =>
      obtain ⟨hpassed, hconsumed, hpromise, huser⟩ := hknows
      exact ⟨hpassed.mono hgrows, fun hwon => hgrows.consumed (hconsumed hwon),
        hstay _ _ hpromise, huser⟩
  | issued checked token =>
      obtain ⟨hpassed, hconsumed, htoken⟩ := hknows
      exact ⟨hpassed.mono hgrows, hgrows.consumed hconsumed, htoken⟩

/-- A call that has consumed a challenge knows that it is consumed. -/
theorem consumed_of_won {id : Uuid} (hknows : Knows platform config before upsert call)
    (hwon : won call = some id) : Consumed before id := by
  unfold won at hwon
  split at hwon
  · obtain rfl := Option.some.inj hwon
    exact hknows.2.1 rfl
  · obtain rfl := Option.some.inj hwon
    exact hknows.2.1
  · cases hwon

/-- Settling a call keeps what it knows. -/
theorem knows_settle {checked : Checked Service Bytes} {joined : Index} {consumed : Answer Bool}
    {user : Answer User}
    (hknows : Knows platform config before upsert (.processing checked joined consumed user)) :
    Knows platform config before upsert (settle checked joined consumed user) := by
  unfold settle
  split
  · exact ⟨hknows.1, hknows.2.1 rfl, _, hknows.2.2.2 _ rfl, rfl⟩
  · trivial
  · exact hknows

theorem won_settle {checked : Checked Service Bytes} {joined : Index} {consumed : Answer Bool}
    {user : Answer User} {id : Uuid}
    (hwon : won (settle checked joined consumed user) = some id) :
    consumed = .resolved true ∧ id = checked.challenge.id := by
  unfold settle at hwon
  split at hwon
  · exact ⟨rfl, (Option.some.inj hwon).symm⟩
  · cases hwon
  · unfold won at hwon
    split at hwon
    · rename_i heq
      obtain ⟨rfl, rfl, rfl, rfl⟩ := Call.processing.inj heq
      exact ⟨rfl, (Option.some.inj hwon).symm⟩
    · rename_i heq
      cases heq
    · cases hwon

/-- Whether a call has consumed its challenge does not depend on its user. -/
theorem won_processing {checked : Checked Service Bytes} {joined : Index} {consumed : Answer Bool}
    {user : Answer User} (other : Answer User) :
    won (.processing checked joined consumed user : Call Index Service Bytes) =
      won (.processing checked joined consumed other : Call Index Service Bytes) := by
  cases consumed with
  | waiting => rfl
  | rejected => rfl
  | resolved value => cases value <;> rfl

theorem unprocessed_settle {checked : Checked Service Bytes} {joined : Index}
    {consumed : Answer Bool} {user : Answer User} :
    unprocessed (settle checked joined consumed user) = false := by
  unfold settle
  split <;> rfl

/-! ## The invariant -/

/-- A promise that has settled with a user has found or created the one of its address. -/
def SettledFor (upsert : Index → Option (Upsert Service)) : Prop :=
  ∀ index promise user, upsert index = some promise → promise.stage = .settled (some user) →
    user.stellarAddress = promise.publicKey

/-- The promise in flight for an address is for that address. -/
def InflightFor (upsert : Index → Option (Upsert Service))
    (userUpsertInflight : Service → String → Option Index) : Prop :=
  ∀ service publicKey joined, userUpsertInflight service publicKey = some joined →
    PromiseFor upsert joined publicKey

variable (platform config) in
structure Inv (system : AuthSystem Index Service Bytes) : Prop where
  knows : ∀ index, Knows platform config system.challenges system.upsert (system.call index)
  single : ∀ left right id, won (system.call left) = some id →
    won (system.call right) = some id → left = right
  settled : SettledFor system.upsert
  inflight : InflightFor system.upsert system.userUpsertInflight
  fresh : ∀ index, unprocessed (system.call index) = true → system.upsert index = none

theorem inv_initial (challenges : ChallengeTable) (users : List User) :
    Inv platform config (AuthSystem.initial challenges users : AuthSystem Index Service Bytes) where
  knows := fun _ => trivial
  single := nofun
  settled := nofun
  inflight := nofun
  fresh := fun _ _ => rfl

section Preserved

variable [DecidableEq Index] {system final : AuthSystem Index Service Bytes} {index : Index}
  {following : Call Index Service Bytes}

/-- One call moves on.  What it has won, it had won before, or nobody had. -/
theorem Inv.move (hinv : Inv platform config system)
    (hcall : final.call = setProcess system.call index following)
    (hgrows : Grows system.challenges final.challenges)
    (hstay : PromisesStay system.upsert final.upsert)
    (hknows : Knows platform config final.challenges final.upsert following)
    (hwon : ∀ id, won following = some id →
      won (system.call index) = some id ∨ ¬Consumed system.challenges id)
    (hsettled : SettledFor final.upsert)
    (hinflight : InflightFor final.upsert final.userUpsertInflight)
    (hfresh : ∀ other, unprocessed (final.call other) = true → final.upsert other = none) :
    Inv platform config final where
  knows := by
    rw [hcall]
    exact forall_setProcess hknows fun other _ => (hinv.knows other).mono hgrows hstay
  single := by
    have hothers : ∀ other id, other ≠ index → won (system.call other) = some id →
        won following = some id → False := by
      intro other id hother hleft hright
      rcases hwon id hright with hbefore | hnobody
      · exact hother (hinv.single other index id hleft hbefore)
      · exact hnobody (consumed_of_won (hinv.knows other) hleft)
    intro left right id hleft hright
    rw [hcall] at hleft hright
    by_cases hleftIndex : left = index <;> by_cases hrightIndex : right = index
    · rw [hleftIndex, hrightIndex]
    · rw [hleftIndex, setProcess, Function.update_self] at hleft
      rw [setProcess, Function.update_of_ne hrightIndex] at hright
      exact (hothers right id hrightIndex hright hleft).elim
    · rw [hrightIndex, setProcess, Function.update_self] at hright
      rw [setProcess, Function.update_of_ne hleftIndex] at hleft
      exact (hothers left id hleftIndex hleft hright).elim
    · rw [setProcess, Function.update_of_ne hleftIndex] at hleft
      rw [setProcess, Function.update_of_ne hrightIndex] at hright
      exact hinv.single left right id hleft hright
  settled := hsettled
  inflight := hinflight
  fresh := hfresh

/-- A call moves on and leaves the promises. -/
theorem Inv.setCall {challenges : ChallengeTable} (hinv : Inv platform config system)
    (hgrows : Grows system.challenges challenges)
    (hknows : Knows platform config challenges system.upsert following)
    (hwon : ∀ id, won following = some id →
      won (system.call index) = some id ∨ ¬Consumed system.challenges id)
    (hfresh : unprocessed following = true → unprocessed (system.call index) = true) :
    Inv platform config { system.setCall index following with challenges := challenges } := by
  refine hinv.move rfl hgrows (fun _ _ hpromise => hpromise) hknows hwon hinv.settled
    hinv.inflight ?_
  exact forall_setProcess (P := fun other call => unprocessed call = true →
    system.upsert other = none) (fun hnext => hinv.fresh index (hfresh hnext))
    fun other _ => hinv.fresh other

omit [DecidableEq Index] in
/-- The promises move on and the calls stay. -/
theorem Inv.setUpserts {users : List User} {upsert : Index → Option (Upsert Service)}
    {userUpsertInflight : Service → String → Option Index} (hinv : Inv platform config system)
    (hstay : PromisesStay system.upsert upsert) (hsettled : SettledFor upsert)
    (hinflight : InflightFor upsert userUpsertInflight)
    (hfresh : ∀ other, unprocessed (system.call other) = true → upsert other = none) :
    Inv platform config { system with
      users := users, upsert := upsert, userUpsertInflight := userUpsertInflight } where
  knows := fun other => (hinv.knows other).mono (.refl _) hstay
  single := hinv.single
  settled := hsettled
  inflight := hinflight
  fresh := hfresh

/-! ## Promises -/

section Promises

variable {promise : Upsert Service} {stage : UpsertStage}

theorem setUpsert_self : (system.setUpsert index promise stage).upsert index =
    some { promise with stage := stage } := Function.update_self ..

theorem setUpsert_of_ne {other : Index} (hother : other ≠ index) :
    (system.setUpsert index promise stage).upsert other = system.upsert other :=
  Function.update_of_ne hother ..

/-- A promise that moves on stays a promise for its address. -/
theorem promisesStay_setUpsert (hpromise : system.upsert index = some promise) :
    PromisesStay system.upsert (system.setUpsert index promise stage).upsert := by
  rintro other publicKey ⟨old, hold, haddress⟩
  by_cases hother : other = index
  · subst hother
    obtain rfl := Option.some.inj (hpromise.symm.trans hold)
    exact ⟨_, setUpsert_self, haddress⟩
  · exact ⟨old, (setUpsert_of_ne hother).trans hold, haddress⟩

theorem settledFor_setUpsert (hsettled : SettledFor system.upsert)
    (hstage : ∀ user, stage = .settled (some user) → user.stellarAddress = promise.publicKey) :
    SettledFor (system.setUpsert index promise stage).upsert := by
  intro other found user hfound
  by_cases hother : other = index
  · subst hother
    rw [setUpsert_self] at hfound
    obtain rfl := Option.some.inj hfound
    exact hstage user
  · rw [setUpsert_of_ne hother] at hfound
    exact hsettled other found user hfound

/-- A call that has not come to its promises has started none. -/
theorem fresh_setUpsert (hinv : Inv platform config system)
    (hpromise : system.upsert index = some promise) {other : Index}
    (hunprocessed : unprocessed (system.call other) = true) :
    (system.setUpsert index promise stage).upsert other = none := by
  have hnone := hinv.fresh other hunprocessed
  have hother : other ≠ index := by
    rintro rfl
    rw [hpromise] at hnone
    cases hnone
  exact (setUpsert_of_ne hother).trans hnone

theorem inv_setUpsert (hinv : Inv platform config system)
    (hpromise : system.upsert index = some promise)
    (hstage : ∀ user, stage = .settled (some user) → user.stellarAddress = promise.publicKey) :
    Inv platform config (system.setUpsert index promise stage) :=
  hinv.setUpserts (promisesStay_setUpsert hpromise) (settledFor_setUpsert hinv.settled hstage)
    (fun service publicKey joined hjoined =>
      promisesStay_setUpsert hpromise joined publicKey
        (hinv.inflight service publicKey joined hjoined))
    fun _ hunprocessed => fresh_setUpsert hinv hpromise hunprocessed

theorem inv_settleUpsert [DecidableEq Service] {users : List User} {user : Option User}
    (hinv : Inv platform config system) (hpromise : system.upsert index = some promise)
    (huser : ∀ found, user = some found → found.stellarAddress = promise.publicKey) :
    Inv platform config { system.settleUpsert index promise user with users := users } := by
  have hstage : ∀ found, UpsertStage.settled user = .settled (some found) →
      found.stellarAddress = promise.publicKey := by
    intro found hfound
    exact huser found (UpsertStage.settled.inj hfound)
  refine hinv.setUpserts (promisesStay_setUpsert hpromise)
    (settledFor_setUpsert hinv.settled hstage) (fun service publicKey joined hjoined => ?_)
    fun _ hunprocessed => fresh_setUpsert hinv hpromise hunprocessed
  simp only [AuthSystem.settleUpsert] at hjoined
  split at hjoined
  · cases hjoined
  · exact promisesStay_setUpsert hpromise joined publicKey
      (hinv.inflight service publicKey joined hjoined)

omit [DecidableEq Index] in
theorem stellarAddress_of_find {stellarAddress : String} {user : User}
    (hfound : system.findByStellarAddress stellarAddress = some user) :
    user.stellarAddress = stellarAddress := by
  have hsame := List.find?_some hfound
  exact of_decide_eq_true hsame

end Promises

/-! ## Steps -/

variable [DecidableEq Service]

variable (platform config system) in
/-- What a step finds, and what it leaves.  The four steps of a promise move it on or settle it. -/
inductive Takes : AuthEvent Index Service → AuthSystem Index Service Bytes → Prop where
  | refused (event : AuthEvent Index Service) : Takes event system
  | created {service : Service} {publicKey nonce : String} {issuedAt : Timestamp} {id : Uuid}
      {challenge : ChallengeRecord}
      (hnew : newChallenge platform (config service) publicKey issuedAt nonce id =
        .ok challenge) :
      Takes (.createChallenge service publicKey issuedAt nonce id)
        { system with challenges := system.challenges.create challenge }
  | failed (event : AuthEvent Index Service) (index : Index) (error : AuthError) :
      Takes event (system.setCall index (.failed error))
  | read {index : Index} {service : Service} {input : VerifyChallengeInput}
      {request : VerifyRequest Bytes} (hcall : system.call index = .idle)
      (hread : readRequest platform input = .ok request) :
      Takes (.verifyChallenge index service input)
        (system.setCall index (.lookingUp service request))
  | lookedUp {index : Index} {service : Service} {request : VerifyRequest Bytes}
      (hcall : system.call index = .lookingUp service request) :
      Takes (.lookUp index)
        (system.setCall index (.lookedUp service request
          (system.challenges.findByAddressAndNonceHash request.sanitizedKey request.nonceHash)))
  | checked {index : Index} {service : Service} {request : VerifyRequest Bytes}
      {found : Option ChallengeRecord} {now : Timestamp}
      (hcall : system.call index = .lookedUp service request found) :
      Takes (.check index now)
        (enterProcessing platform config system index service request found now)
  | consumed {index joined : Index} {checked : Checked Service Bytes} {user : Answer User}
      (consumedAt : Timestamp)
      (hcall : system.call index = .processing checked joined .waiting user) :
      Takes (.consume index consumedAt)
        { system.setCall index
            (settle checked joined (.resolved (system.challenges.affects checked.challenge.id))
              user) with
          challenges := system.challenges.consume checked.challenge.id consumedAt }
  | consumeFailed {index joined : Index} {checked : Checked Service Bytes} {user : Answer User}
      (consumedAt : Timestamp) (applied : Bool)
      (hcall : system.call index = .processing checked joined .waiting user) :
      Takes (.consumeFails index consumedAt applied)
        { system.setCall index (.processing checked joined .rejected user) with
          challenges :=
            if applied then system.challenges.consume checked.challenge.id consumedAt
            else system.challenges }
  | moved (event : AuthEvent Index Service) {index : Index} {promise : Upsert Service}
      {stage : UpsertStage} (hpromise : system.upsert index = some promise)
      (hopen : ∀ user, stage ≠ .settled user) :
      Takes event (system.setUpsert index promise stage)
  | settled (event : AuthEvent Index Service) {index : Index} {promise : Upsert Service}
      {user : Option User} {users : List User} (hpromise : system.upsert index = some promise)
      (huser : ∀ found, user = some found → found.stellarAddress = promise.publicKey) :
      Takes event { system.settleUpsert index promise user with users := users }
  | userReceived {index joined : Index} {checked : Checked Service Bytes}
      {consumed : Answer Bool} {user : User}
      (hcall : system.call index = .processing checked joined consumed .waiting)
      (hsettled : (system.upsert joined).map Upsert.stage = some (.settled (some user))) :
      Takes (.receiveUser index)
        (system.setCall index (settle checked joined consumed (.resolved user)))
  | userRejected {index joined : Index} {checked : Checked Service Bytes}
      {consumed : Answer Bool}
      (hcall : system.call index = .processing checked joined consumed .waiting) :
      Takes (.receiveUser index)
        (system.setCall index (.processing checked joined consumed .rejected))

section Upserts

variable {promise : Upsert Service} {event : AuthEvent Index Service}

theorem takes_stepFindUser (hpromise : system.upsert index = some promise)
    (hstep : stepFindUser system index promise = some final) :
    Takes platform config system event final := by
  unfold stepFindUser at hstep
  split at hstep
  · rename_i user _ hfound
    obtain rfl := Option.some.inj hstep
    refine .settled event hpromise fun found hsome => ?_
    obtain rfl := Option.some.inj hsome
    exact stellarAddress_of_find hfound
  · rename_i user _ hfound
    obtain rfl := Option.some.inj hstep
    refine .settled event hpromise fun found hsome => ?_
    obtain rfl := Option.some.inj hsome
    exact stellarAddress_of_find hfound
  · obtain rfl := Option.some.inj hstep
    exact .moved event hpromise nofun
  · obtain rfl := Option.some.inj hstep
    exact .settled event hpromise nofun
  · cases hstep

theorem takes_stepSaveUser {id : Uuid} (hpromise : system.upsert index = some promise)
    (hstep : stepSaveUser system index promise id = some final) :
    Takes platform config system event final := by
  unfold stepSaveUser at hstep
  split at hstep
  · obtain rfl := Option.some.inj hstep
    exact .moved event hpromise nofun
  · obtain rfl := Option.some.inj hstep
    refine .settled event hpromise fun found hsome => ?_
    obtain rfl := Option.some.inj hsome
    rfl
  · cases hstep

theorem takes_stepSaveUserLost {id : Uuid} (hpromise : system.upsert index = some promise)
    (hstep : stepSaveUserLost system index promise id = some final) :
    Takes platform config system event final := by
  unfold stepSaveUserLost at hstep
  split at hstep
  · obtain rfl := Option.some.inj hstep
    exact .settled event hpromise nofun
  · cases hstep

theorem takes_stepUpsertFails {duplicateKey : Bool}
    (hpromise : system.upsert index = some promise)
    (hstep : stepUpsertFails system index promise duplicateKey = some final) :
    Takes platform config system event final := by
  unfold stepUpsertFails at hstep
  split at hstep
  · cases hstep
  · obtain rfl := Option.some.inj hstep
    exact .settled event hpromise nofun
  · split at hstep
    · obtain rfl := Option.some.inj hstep
      exact .moved event hpromise nofun
    · obtain rfl := Option.some.inj hstep
      exact .settled event hpromise nofun

end Upserts

theorem takes_of_step {event : AuthEvent Index Service}
    (hstep : step platform config system event = some final) :
    Takes platform config system event final := by
  cases event with
  | createChallenge service publicKey issuedAt nonce id =>
      simp only [step] at hstep
      split at hstep
      · obtain rfl := Option.some.inj hstep
        exact .refused _
      · rename_i challenge hnew
        obtain rfl := Option.some.inj hstep
        exact .created hnew
  | verifyChallenge index service input =>
      simp only [step] at hstep
      split at hstep
      · rename_i hcall
        split at hstep
        · obtain rfl := Option.some.inj hstep
          exact .failed _ index _
        · rename_i request hread
          obtain rfl := Option.some.inj hstep
          exact .read hcall hread
      · cases hstep
  | lookUp index =>
      simp only [step] at hstep
      split at hstep
      · rename_i service request hcall
        obtain rfl := Option.some.inj hstep
        exact .lookedUp hcall
      · cases hstep
  | lookUpFails index =>
      simp only [step] at hstep
      split at hstep
      · obtain rfl := Option.some.inj hstep
        exact .failed _ index _
      · cases hstep
  | check index now =>
      simp only [step] at hstep
      split at hstep
      · rename_i service request found hcall
        obtain rfl := Option.some.inj hstep
        exact .checked hcall
      · cases hstep
  | consume index consumedAt =>
      simp only [step] at hstep
      split at hstep
      · rename_i hcall
        obtain rfl := Option.some.inj hstep
        exact .consumed consumedAt hcall
      · cases hstep
  | consumeFails index consumedAt applied =>
      simp only [step] at hstep
      split at hstep
      · rename_i hcall
        obtain rfl := Option.some.inj hstep
        exact .consumeFailed consumedAt applied hcall
      · cases hstep
  | findUser index =>
      obtain ⟨promise, hpromise, hfind⟩ := Option.bind_eq_some_iff.mp hstep
      exact takes_stepFindUser hpromise hfind
  | saveUser index id =>
      obtain ⟨promise, hpromise, hsave⟩ := Option.bind_eq_some_iff.mp hstep
      exact takes_stepSaveUser hpromise hsave
  | saveUserLost index id =>
      obtain ⟨promise, hpromise, hsave⟩ := Option.bind_eq_some_iff.mp hstep
      exact takes_stepSaveUserLost hpromise hsave
  | upsertFails index duplicateKey =>
      obtain ⟨promise, hpromise, hfails⟩ := Option.bind_eq_some_iff.mp hstep
      exact takes_stepUpsertFails hpromise hfails
  | receiveUser index =>
      simp only [step] at hstep
      split at hstep
      · rename_i hcall
        split at hstep
        · rename_i hsettled
          obtain rfl := Option.some.inj hstep
          exact .userReceived hcall hsettled
        · obtain rfl := Option.some.inj hstep
          exact .userRejected hcall
        · cases hstep
      · cases hstep

omit [DecidableEq Index] [DecidableEq Service] in
/-- The address of a request has been trimmed. -/
theorem sanitized_of_readRequest {input : VerifyChallengeInput} {request : VerifyRequest Bytes}
    (hread : readRequest platform input = .ok request) : Sanitized request := by
  simp only [readRequest, bind_eq_ok, pure_eq_ok] at hread
  obtain ⟨rawKey, _, sanitizedKey, hkey, _, _, _, _, _, _, _, _, signature, _, rfl⟩ := hread
  unfold assertValidPublicKey at hkey
  dsimp only at hkey
  split at hkey
  · cases hkey
  · obtain rfl := Except.ok.inj hkey
    exact trimText_trimText rawKey

omit [DecidableEq Index] [DecidableEq Service] in
/-- What `checkChallenge` lets through. -/
theorem passed_of_checkChallenge {table : ChallengeTable} {service : Service}
    {request : VerifyRequest Bytes} {found : Option ChallengeRecord} {now : Timestamp}
    {challenge : ChallengeRecord}
    (hfound : ∀ other ∈ found, Recorded table other ∧ other.stellarAddress = request.sanitizedKey)
    (hcheck : checkChallenge platform (config service) request found now = .ok challenge) :
    Passed platform config table ⟨service, request, challenge, now⟩ := by
  simp only [checkChallenge, bind_eq_ok, orThrow_eq_ok, throwIf_eq_ok, pure_eq_ok] at hcheck
  obtain ⟨_, rfl, _, hnetwork, _, _, _, halive, valid, hverify, _, hvalid, rfl⟩ := hcheck
  obtain ⟨hrecorded, haddress⟩ := hfound _ rfl
  refine ⟨hrecorded, haddress, not_not.mp hnetwork, lt_of_not_ge halive, ?_⟩
  rw [hverify, Bool.eq_true_of_not_eq_false hvalid]

omit [DecidableEq Index] [DecidableEq Service] in
theorem recorded_of_find {table : ChallengeTable} {stellarAddress nonceHash : String}
    {challenge : ChallengeRecord}
    (hfound : table.findByAddressAndNonceHash stellarAddress nonceHash = some challenge) :
    Recorded table challenge ∧ challenge.stellarAddress = stellarAddress := by
  have hboth := List.find?_some hfound
  exact ⟨⟨challenge, List.mem_of_find?_eq_some hfound, rfl⟩, (of_decide_eq_true hboth).1⟩

/-- The call joins the promise in flight, or starts one of its own. -/
theorem inv_enterProcessing {service : Service} {request : VerifyRequest Bytes}
    {found : Option ChallengeRecord} {now : Timestamp} (hinv : Inv platform config system)
    (hcall : system.call index = .lookedUp service request found) :
    Inv platform config
      (enterProcessing platform config system index service request found now) := by
  have hknows := hinv.knows index
  rw [hcall] at hknows
  obtain ⟨hsanitized, hfound⟩ := hknows
  unfold enterProcessing
  split
  · exact hinv.setCall (.refl _) trivial nofun nofun
  · rename_i challenge hcheck
    have hpassed := passed_of_checkChallenge hfound hcheck
    rw [hsanitized, AuthSystem.joinUpsert]
    split
    · rename_i joined hjoined
      exact hinv.setCall (.refl _)
        ⟨hpassed, nofun, hinv.inflight service request.sanitizedKey joined hjoined, nofun⟩ nofun
        nofun
    · have hnone : system.upsert index = none := by
        apply hinv.fresh
        rw [hcall]
        rfl
      have hstay : PromisesStay system.upsert (setProcess system.upsert index
          (some ⟨service, request.sanitizedKey, .finding⟩)) := by
        rintro other publicKey ⟨promise, hpromise, haddress⟩
        have hother : other ≠ index := by
          rintro rfl
          rw [hnone] at hpromise
          cases hpromise
        exact ⟨promise, (Function.update_of_ne hother ..).trans hpromise, haddress⟩
      have hstarted : PromiseFor (setProcess system.upsert index
          (some ⟨service, request.sanitizedKey, .finding⟩)) index request.sanitizedKey :=
        ⟨_, Function.update_self .., rfl⟩
      refine hinv.move rfl (.refl _) hstay ⟨hpassed, nofun, hstarted, nofun⟩ nofun ?_ ?_ ?_
      · exact forall_setProcess (P := fun _ promise => ∀ (settled : Upsert Service) (user : User),
          promise = some settled → settled.stage = .settled (some user) →
            user.stellarAddress = settled.publicKey)
          (fun settled user hsettled hstage => by
            obtain rfl := Option.some.inj hsettled
            cases hstage)
          fun other _ settled user => hinv.settled other settled user
      · intro other publicKey joined hjoined
        simp only [AuthSystem.setCall] at hjoined
        split at hjoined
        · rename_i hsame
          obtain rfl := Option.some.inj hjoined
          rw [hsame.2]
          exact hstarted
        · exact hstay joined publicKey (hinv.inflight other publicKey joined hjoined)
      · intro other hunprocessed
        have hother : other ≠ index := by
          rintro rfl
          simp only [AuthSystem.setCall, setProcess, Function.update_self] at hunprocessed
          cases hunprocessed
        simp only [AuthSystem.setCall, setProcess, Function.update_of_ne hother] at hunprocessed ⊢
        exact hinv.fresh other hunprocessed

omit [DecidableEq Service] in
/-- A verification consumes its challenge: it has won only where nobody had consumed it. -/
theorem inv_consume {consumedAt : Timestamp} {checked : Checked Service Bytes} {joined : Index}
    {user : Answer User} (hinv : Inv platform config system)
    (hcall : system.call index = .processing checked joined .waiting user) :
    Inv platform config
      { system.setCall index
          (settle checked joined (.resolved (system.challenges.affects checked.challenge.id))
            user) with
        challenges := system.challenges.consume checked.challenge.id consumedAt } := by
  have hknows := hinv.knows index
  rw [hcall] at hknows
  obtain ⟨hpassed, _, hpromise, huser⟩ := hknows
  refine hinv.setCall grows_consume (knows_settle ⟨hpassed.mono grows_consume, ?_, hpromise,
    huser⟩) (fun id hwon => ?_) fun hunprocessed => ?_
  · intro hconsumed
    exact consumed_of_affects (Answer.resolved.inj hconsumed)
  · obtain ⟨hconsumed, rfl⟩ := won_settle hwon
    exact .inr (not_consumed_of_affects (Answer.resolved.inj hconsumed))
  · rw [unprocessed_settle] at hunprocessed
    cases hunprocessed

omit [DecidableEq Service] in
theorem inv_consumeFails {consumedAt : Timestamp} {applied : Bool}
    {checked : Checked Service Bytes} {joined : Index} {user : Answer User}
    (hinv : Inv platform config system)
    (hcall : system.call index = .processing checked joined .waiting user) :
    Inv platform config
      { system.setCall index (.processing checked joined .rejected user) with
        challenges :=
          if applied then system.challenges.consume checked.challenge.id consumedAt
          else system.challenges } := by
  have hknows := hinv.knows index
  rw [hcall] at hknows
  obtain ⟨hpassed, _, hpromise, huser⟩ := hknows
  have hgrows : Grows system.challenges (if applied = true then
      system.challenges.consume checked.challenge.id consumedAt else system.challenges) := by
    split
    · exact grows_consume
    · exact .refl _
  exact hinv.setCall hgrows ⟨hpassed.mono hgrows, nofun, hpromise, huser⟩ nofun nofun

omit [DecidableEq Service] in
/-- A verification receives the user of the promise that it joined. -/
theorem inv_receiveUser {checked : Checked Service Bytes} {joined : Index}
    {consumed : Answer Bool} {user : User} (hinv : Inv platform config system)
    (hcall : system.call index = .processing checked joined consumed .waiting)
    (hsettled : (system.upsert joined).map Upsert.stage = some (.settled (some user))) :
    Inv platform config
      (system.setCall index (settle checked joined consumed (.resolved user))) := by
  have hknows := hinv.knows index
  rw [hcall] at hknows
  obtain ⟨hpassed, hconsumed, ⟨promise, hpromise, haddress⟩, _⟩ := hknows
  rw [hpromise, Option.map_some] at hsettled
  have huser := hinv.settled joined promise user hpromise (Option.some.inj hsettled)
  refine hinv.setCall (.refl _) (knows_settle ⟨hpassed, hconsumed,
    ⟨promise, hpromise, haddress⟩, fun found hfound => ?_⟩) (fun id hwon => ?_)
    fun hunprocessed => ?_
  · obtain rfl := Answer.resolved.inj hfound
    exact huser.trans haddress
  · obtain ⟨rfl, rfl⟩ := won_settle hwon
    rw [hcall]
    exact .inl rfl
  · rw [unprocessed_settle] at hunprocessed
    cases hunprocessed

omit [DecidableEq Service] in
theorem inv_userRejected {checked : Checked Service Bytes} {joined : Index}
    {consumed : Answer Bool} (hinv : Inv platform config system)
    (hcall : system.call index = .processing checked joined consumed .waiting) :
    Inv platform config
      (system.setCall index (.processing checked joined consumed .rejected)) := by
  have hknows := hinv.knows index
  rw [hcall] at hknows
  obtain ⟨hpassed, hconsumed, hpromise, _⟩ := hknows
  refine hinv.setCall (.refl _) ⟨hpassed, hconsumed, hpromise, nofun⟩
    (fun id hwon => .inl ?_) nofun
  rw [hcall]
  rwa [won_processing .waiting] at hwon

/-- One step of whatever runs. -/
theorem inv_step {event : AuthEvent Index Service} (hinv : Inv platform config system)
    (hstep : step platform config system event = some final) : Inv platform config final := by
  cases takes_of_step hstep with
  | refused event => exact hinv
  | created hnew =>
      exact {
        knows := fun index =>
          (hinv.knows index).mono (grows_create _) fun _ _ hpromise => hpromise
        single := hinv.single
        settled := hinv.settled
        inflight := hinv.inflight
        fresh := hinv.fresh }
  | failed event index error => exact hinv.setCall (.refl _) trivial nofun nofun
  | read hcall hread =>
      refine hinv.setCall (.refl _) (sanitized_of_readRequest hread) nofun fun _ => ?_
      rw [hcall]
      rfl
  | @lookedUp index service request hcall =>
      have hknows := hinv.knows index
      rw [hcall] at hknows
      refine hinv.setCall (.refl _) ⟨hknows, fun challenge hfound => recorded_of_find hfound⟩
        nofun fun _ => ?_
      rw [hcall]
      rfl
  | checked hcall => exact inv_enterProcessing hinv hcall
  | consumed consumedAt hcall => exact inv_consume hinv hcall
  | consumeFailed consumedAt applied hcall => exact inv_consumeFails hinv hcall
  | moved event hpromise hopen =>
      exact inv_setUpsert hinv hpromise fun user hsettled => absurd hsettled (hopen _)
  | settled event hpromise huser => exact inv_settleUpsert hinv hpromise huser
  | userReceived hcall hsettled => exact inv_receiveUser hinv hcall hsettled
  | userRejected hcall => exact inv_userRejected hinv hcall

theorem inv_run {events : List (AuthEvent Index Service)} (hinv : Inv platform config system)
    (hrun : Run (step platform config) system events final) : Inv platform config final :=
  hrun.invariant (fun _ hstep hbefore => inv_step hbefore hstep) hinv

/-! ## Where challenges come from -/

/-- A step leaves the challenges, or creates one, or consumes one. -/
theorem challenges_of_step {event : AuthEvent Index Service}
    (hstep : step platform config system event = some final) :
    final.challenges = system.challenges ∨
      (∃ service publicKey issuedAt nonce id challenge,
        event = .createChallenge service publicKey issuedAt nonce id ∧
        newChallenge platform (config service) publicKey issuedAt nonce id = .ok challenge ∧
        final.challenges = system.challenges.create challenge) ∨
      ∃ id consumedAt, final.challenges = system.challenges.consume id consumedAt := by
  cases takes_of_step hstep with
  | refused event => exact .inl rfl
  | @created service publicKey nonce issuedAt id challenge hnew =>
      exact .inr (.inl ⟨_, _, _, _, _, challenge, rfl, hnew, rfl⟩)
  | failed event index error => exact .inl rfl
  | read hcall hread => exact .inl rfl
  | lookedUp hcall => exact .inl rfl
  | checked hcall =>
      left
      unfold enterProcessing AuthSystem.joinUpsert
      split
      · rfl
      · split <;> rfl
  | consumed consumedAt hcall => exact .inr (.inr ⟨_, _, rfl⟩)
  | consumeFailed consumedAt applied hcall =>
      cases applied with
      | false => exact .inl rfl
      | true => exact .inr (.inr ⟨_, _, rfl⟩)
  | moved event hpromise hopen => exact .inl rfl
  | settled event hpromise huser => exact .inl rfl
  | userReceived hcall hsettled => exact .inl rfl
  | userRejected hcall => exact .inl rfl

omit [DecidableEq Index] [DecidableEq Service] in
variable (platform config) in
/-- The challenge was there, or a call has created it. -/
def Created (challenges : ChallengeTable) (events : List (AuthEvent Index Service))
    (row : ChallengeRecord) : Prop :=
  Recorded challenges row ∨ ∃ service publicKey issuedAt nonce id,
    AuthEvent.createChallenge service publicKey issuedAt nonce id ∈ events ∧
      newChallenge platform (config service) publicKey issuedAt nonce id = .ok (opened row)

omit [DecidableEq Index] [DecidableEq Service] in
theorem opened_of_newChallenge {service : Service} {publicKey nonce : String}
    {issuedAt : Timestamp} {id : Uuid} {challenge : ChallengeRecord}
    (hnew : newChallenge platform (config service) publicKey issuedAt nonce id = .ok challenge) :
    opened challenge = challenge := by
  simp only [newChallenge, bind_eq_ok, pure_eq_ok] at hnew
  obtain ⟨_, _, rfl⟩ := hnew
  rfl

theorem created_of_step {event : AuthEvent Index Service} {row : ChallengeRecord}
    (hstep : step platform config system event = some final) (hrow : row ∈ final.challenges.rows) :
    Created platform config system.challenges [event] row := by
  rcases challenges_of_step hstep with
    hsame | ⟨service, publicKey, issuedAt, nonce, id, challenge, rfl, hnew, hcreate⟩ |
      ⟨id, consumedAt, hconsume⟩
  · rw [hsame] at hrow
    exact .inl ⟨row, hrow, rfl⟩
  · rw [hcreate, ChallengeTable.create] at hrow
    split at hrow
    · exact .inl ⟨row, hrow, rfl⟩
    · rcases List.mem_append.mp hrow with hold | hnewRow
      · exact .inl ⟨row, hold, rfl⟩
      · obtain rfl := List.mem_singleton.mp hnewRow
        exact .inr ⟨service, publicKey, issuedAt, nonce, id, List.mem_singleton_self _,
          by rw [opened_of_newChallenge hnew, hnew]⟩
  · rw [hconsume] at hrow
    obtain ⟨old, hold, rfl⟩ := List.mem_map.mp hrow
    refine .inl ⟨old, hold, ?_⟩
    split <;> rfl

/-- Every challenge of a run was there, or was created in the run, and has not changed since. -/
theorem created_of_run {events : List (AuthEvent Index Service)}
    (hrun : Run (step platform config) system events final) {row : ChallengeRecord}
    (hrow : row ∈ final.challenges.rows) :
    Created platform config system.challenges events row := by
  induction hrun with
  | nil system => exact .inl ⟨row, hrow, rfl⟩
  | cons _ hstep _ ih =>
      rcases ih hrow with ⟨middle, hmiddle, hopened⟩ |
        ⟨service, publicKey, issuedAt, nonce, id, hmem, hnew⟩
      · rcases created_of_step hstep hmiddle with
          ⟨old, hold, hsame⟩ | ⟨service, publicKey, issuedAt, nonce, id, hmem, hnew⟩
        · exact .inl ⟨old, hold, hsame.trans hopened⟩
        · rw [hopened] at hnew
          exact .inr ⟨service, publicKey, issuedAt, nonce, id,
            List.mem_cons.mpr (.inl (List.mem_singleton.mp hmem)), hnew⟩
      · exact .inr ⟨service, publicKey, issuedAt, nonce, id, List.mem_cons_of_mem _ hmem, hnew⟩

/-! ## Tokens -/

variable (platform config) in
/-- The token is for the address of a challenge of the service's network, which had not expired
when it was checked, and whose message the signature signs. -/
structure TokenFor (checked : Checked Service Bytes) (token : AuthTokenPayload)
    (row : ChallengeRecord) : Prop where
  id : row.id = checked.challenge.id
  address : ∃ user, user.stellarAddress = row.stellarAddress ∧ token = signToken user
  network : row.network = (config checked.service).network
  alive : checked.checkedAt < row.expiresAt
  signed : platform.verify row.stellarAddress row.message checked.request.signature = some true

omit [DecidableEq Index] [DecidableEq Service] in
theorem exists_tokenFor {table : ChallengeTable} {upsert : Index → Option (Upsert Service)}
    {checked : Checked Service Bytes} {token : AuthTokenPayload}
    (hknows : Knows platform config table upsert (.issued checked token)) :
    ∃ row ∈ table.rows, TokenFor platform config checked token row := by
  obtain ⟨hpassed, _, user, huser, rfl⟩ := hknows
  obtain ⟨row, hrow, hopened⟩ := hpassed.recorded
  obtain ⟨hid, haddress, -, hmessage, hnetwork, -, hexpires, -⟩ :=
    ChallengeRecord.mk.inj hopened
  refine ⟨row, hrow, hid, ⟨user, ?_, rfl⟩, ?_, ?_, ?_⟩
  · rw [haddress, hpassed.address]
    exact huser
  · rw [hnetwork]
    exact hpassed.network
  · rw [hexpires]
    exact hpassed.alive
  · rw [haddress, hmessage, hpassed.address]
    exact hpassed.signed

end Preserved

/-- In every run, a challenge yields one token at most, and a token is for a challenge that has
passed every check. -/
theorem tokens_singleUse [DecidableEq Index] [DecidableEq Service] {challenges : ChallengeTable}
    {users : List User} {events : List (AuthEvent Index Service)}
    {final : AuthSystem Index Service Bytes}
    (hrun : Run (step platform config) (AuthSystem.initial challenges users) events final) :
    (∀ left right checked other token second, final.call left = .issued checked token →
      final.call right = .issued other second → checked.challenge.id = other.challenge.id →
        left = right) ∧
    ∀ index checked token, final.call index = .issued checked token →
      ∃ row ∈ final.challenges.rows, TokenFor platform config checked token row ∧
        Created platform config challenges events row := by
  have hinv := inv_run (inv_initial challenges users) hrun
  constructor
  · intro left right checked other token second hleft hright hsame
    apply hinv.single left right checked.challenge.id
    · rw [hleft]
      rfl
    · rw [hright, hsame]
      rfl
  · intro index checked token hissued
    have hknows := hinv.knows index
    rw [hissued] at hknows
    obtain ⟨row, hrow, htoken⟩ := exists_tokenFor hknows
    exact ⟨row, hrow, htoken, created_of_run hrun hrow⟩

end Calls

/-! ## One login -/

/-- Every key is valid, a nonce is its own hash, and the signatures are those that say so. -/
def samplePlatform : Platform Bool :=
  { isValidEd25519PublicKey := fun _ => true
    verify := fun _ _ signature => some signature
    sha256 := fun nonce => nonce
    fromHex := fun text => decide (text = "aa")
    fromBase64 := fun _ => false
    toISOString := fun time => if time = 0 then "0" else "later" }

def sampleConfig : Unit → AuthConfig := fun _ => ⟨none, "testnet", "Test Network"⟩

def sampleNonce : String := "0123456789abcdef"

def noChallenges : ChallengeTable := ⟨[], List.nodup_nil⟩

def oneLogin : List (AuthEvent ℕ Unit) :=
  [.createChallenge () "GUSER" 0 sampleNonce 7,
    .verifyChallenge 0 () ⟨some "GUSER", none, some sampleNonce, none, some "aa"⟩,
    .lookUp 0, .check 0 10, .consume 0 11, .findUser 0, .saveUser 0 3, .receiveUser 0]

/-- The subject of the token that the call has returned. -/
def subject : Call ℕ Unit Bool → Option String
  | .issued _ token => some token.sub
  | _ => none

/-- The first login of a wallet gets a token for it. -/
theorem oneLogin_tokenFor : ∃ final : AuthSystem ℕ Unit Bool,
    Run (step samplePlatform sampleConfig) (AuthSystem.initial noChallenges []) oneLogin final ∧
      ∃ checked token, final.call 0 = .issued checked token ∧ token.sub = "GUSER" ∧
        ∃ row ∈ final.challenges.rows, TokenFor samplePlatform sampleConfig checked token row ∧
          Created samplePlatform sampleConfig noChallenges oneLogin row := by
  have hexec : (exec (step samplePlatform sampleConfig) (AuthSystem.initial noChallenges [])
      oneLogin).map (fun system => subject (system.call 0)) = some (some "GUSER") := by decide
  obtain ⟨final, hrun, hsubject⟩ := exists_run hexec
  refine ⟨final, hrun, ?_⟩
  cases hcall : final.call 0 with
  | issued checked token =>
      rw [hcall] at hsubject
      exact ⟨checked, token, rfl, Option.some.inj hsubject,
        (tokens_singleUse hrun).2 0 checked token hcall⟩
  | _ =>
      rw [hcall] at hsubject
      cases hsubject

end StellarSettle.SingleUse
