import StellarSettle.Core.Checks
import StellarSettle.Core.KeyedRows
import StellarSettle.Model.Entities

/-!
# The KYC webhook

A provider's payload names a user and, optionally, a verification.  The named verification is
looked up by its id alone, so it may be another user's.
-/

namespace StellarSettle.KycWebhook

open StellarSettle.Checks
open StellarSettle.Entities (Timestamp Uuid)
open StellarSettle.KeyedRows

/-! ## Tables -/

inductive KYCStatus where
  | pending
  | inReview
  | approved
  | rejected
  | expired
  deriving DecidableEq, Repr

inductive KYCVerificationType where
  | identity
  | address
  | business
  deriving DecidableEq, Repr

/-- The documents of a verification: the provider's reference, and the rest as it is stored. -/
structure Documents where
  providerReference : Option String
  content : String
  deriving DecidableEq, Repr

structure User where
  id : Uuid
  kycStatus : KYCStatus
  isKycVerified : Bool
  deriving DecidableEq, Repr

structure KYCVerification where
  id : Uuid
  userId : Uuid
  verificationType : KYCVerificationType
  status : KYCStatus
  documents : Option Documents
  wallet : Option String
  verifiedAt : Option Timestamp
  deriving DecidableEq, Repr

structure KycHistory where
  id : Uuid
  userId : Uuid
  wallet : Option String
  verificationType : KYCVerificationType
  status : KYCStatus
  documents : Option Documents
  rejectionReason : Option String
  providerReference : Option String
  isArchived : Bool
  archivedAt : Option Timestamp
  deriving DecidableEq, Repr

/-- The tables that the webhook writes, with the primary key of the verifications. -/
structure KycDatabase where
  users : List User
  verifications : List KYCVerification
  history : List KycHistory
  uniqueVerifications : (verifications.map KYCVerification.id).Nodup

namespace KycDatabase

def findUser (database : KycDatabase) (id : Uuid) : Option User :=
  findRow User.id database.users id

def findVerification (database : KycDatabase) (id : Uuid) : Option KYCVerification :=
  findRow KYCVerification.id database.verifications id

/-- `findOne({ where: { userId, status: PENDING } })`. -/
def findPending (database : KycDatabase) (userId : Uuid) : Option KYCVerification :=
  database.verifications.find? fun verification =>
    decide (verification.userId = userId ∧ verification.status = .pending)

def saveVerification (database : KycDatabase) (entity : KYCVerification) : KycDatabase :=
  { database with
    verifications := saveRow KYCVerification.id database.verifications entity
    uniqueVerifications := nodup_saveRow database.uniqueVerifications }

def updateUser (database : KycDatabase) (id : Uuid) (kycStatus : KYCStatus)
    (isKycVerified : Bool) : KycDatabase :=
  { database with
    users := database.users.map fun user =>
      if user.id = id then { user with kycStatus := kycStatus, isKycVerified := isKycVerified }
      else user }

end KycDatabase

/-! ## The webhook -/

/-- The text of an id.  A query for a text that is no uuid fails. -/
inductive IdText where
  | uuid (id : Uuid)
  | empty
  | other
  deriving DecidableEq, Repr

/-- The user's id is none where it is not a string, the status where it is no KYC status. -/
structure KycWebhookPayload where
  userId : Option IdText
  status : Option KYCStatus
  verificationId : Option IdText
  reason : Option String
  deriving DecidableEq, Repr

inductive WebhookError where
  | http (status : ℕ) (message : String)
  | queryFailed
  deriving DecidableEq, Repr

/-- The clock, when the verification is saved and when it is archived, and a new row's id. -/
structure Environment where
  verifiedAt : Timestamp
  archivedAt : Timestamp
  historyId : Uuid

/-- What `kyc.webhook.processed` logs. -/
structure ProcessedLog where
  userId : Uuid
  verificationId : Uuid
  status : KYCStatus
  reason : Option String
  deriving DecidableEq, Repr

structure Processed where
  database : KycDatabase
  log : ProcessedLog

def queryId : IdText → Except WebhookError Uuid
  | .uuid id => .ok id
  | _ => .error .queryFailed

/-- The verification that the payload names, else a pending one of its user. -/
def lookUpVerification (database : KycDatabase) (userId : Uuid) :
    Option IdText → Except WebhookError (Option KYCVerification)
  | none | some .empty => .ok (database.findPending userId)
  | some verificationId => do
      let id ← queryId verificationId
      return database.findVerification id

def archive (environment : Environment) (payload : KycWebhookPayload) (userId : Uuid)
    (status previousStatus : KYCStatus) (verification : KYCVerification) : KycHistory :=
  { id := environment.historyId
    userId := userId
    wallet := verification.wallet
    verificationType := verification.verificationType
    status := previousStatus
    documents := verification.documents
    rejectionReason := if status = .rejected then payload.reason else none
    providerReference :=
      (verification.documents.bind Documents.providerReference).filter (· ≠ "")
    isArchived := true
    archivedAt := some environment.archivedAt }

/-- The writes of the transaction. -/
def apply (database : KycDatabase) (environment : Environment) (payload : KycWebhookPayload)
    (userId : Uuid) (status : KYCStatus) (verification : KYCVerification) : Processed :=
  let updated := { verification with
    status := status
    verifiedAt := some environment.verifiedAt }
  let saved := database.saveVerification updated
  let entry := archive environment payload userId status verification.status updated
  let archived := { saved with history := saved.history ++ [entry] }
  { database := archived.updateUser userId status (decide (status = .approved))
    log := ⟨userId, verification.id, status, payload.reason⟩ }

/-- `[KYCStatus.APPROVED, KYCStatus.REJECTED].includes(status)`. -/
def isDecision (status : KYCStatus) : Bool := decide (status = .approved ∨ status = .rejected)

def processWebhook (database : KycDatabase) (environment : Environment)
    (payload : KycWebhookPayload) : Except WebhookError Processed := do
  let userText ← orThrow payload.userId (.http 400 "Webhook userId is required.")
  let status ← orThrow (payload.status.filter isDecision)
    (.http 400 "Webhook status must be approved or rejected.")
  let userId ← queryId userText
  let user ← orThrow (database.findUser userId) (.http 404 "User not found.")
  let found ← lookUpVerification database userId payload.verificationId
  let verification ← orThrow found (.http 404 "KYC verification not found.")
  return apply database environment payload user.id status verification

/-! ## Whose rows change -/

/-- The verification that was updated is the user's, and the rows of other users stay. -/
structure ChangesOnlyOwn (before : KycDatabase) (processed : Processed) (userId : Uuid) :
    Prop where
  own : ∃ verification ∈ processed.database.verifications,
    verification.id = processed.log.verificationId ∧ verification.userId = userId
  verifications : ∀ verification : KYCVerification, verification.userId ≠ userId →
    (verification ∈ processed.database.verifications ↔ verification ∈ before.verifications)
  users : ∀ user : User, user.id ≠ userId →
    (user ∈ processed.database.users ↔ user ∈ before.users)

/-- The call is not refused, and the verification that it names is another user's. -/
def NamesAnother (database : KycDatabase) (payload : KycWebhookPayload) (userId : Uuid) : Prop :=
  (payload.status = some .approved ∨ payload.status = some .rejected) ∧
    (∃ user, database.findUser userId = some user) ∧
    ∃ verificationId verification, payload.verificationId = some (.uuid verificationId) ∧
      database.findVerification verificationId = some verification ∧
      verification.userId ≠ userId

section Writes

variable {database : KycDatabase} {environment : Environment} {payload : KycWebhookPayload}
  {userId : Uuid} {status : KYCStatus} {verification : KYCVerification}

theorem findUser_id {user : User} (hfound : database.findUser userId = some user) :
    user.id = userId := by
  have hsame := List.find?_some hfound
  simpa using hsame

theorem mem_of_findVerification {id : Uuid}
    (hfound : database.findVerification id = some verification) :
    verification ∈ database.verifications := List.mem_of_find?_eq_some hfound

theorem mem_users_apply {user : User} (hother : user.id ≠ userId) :
    user ∈ (apply database environment payload userId status verification).database.users ↔
      user ∈ database.users := by
  change user ∈ database.users.map (fun old => if old.id = userId then _ else old) ↔ _
  rw [List.mem_map]
  constructor
  · rintro ⟨old, hold, rfl⟩
    split at hother
    · rename_i hsame
      exact absurd hsame hother
    · rename_i hdifferent
      rw [if_neg hdifferent]
      exact hold
  · intro hmem
    exact ⟨user, hmem, if_neg hother⟩

theorem mem_verifications_apply {row : KYCVerification} :
    row ∈ (apply database environment payload userId status verification).database.verifications ↔
      row = { verification with
        status := status, verifiedAt := some environment.verifiedAt } ∨
      row ∈ database.verifications ∧ row.id ≠ verification.id :=
  mem_saveRow

/-- The writes leave the rows of others exactly when the verification is the user's. -/
theorem changesOnlyOwn_apply_iff (hmem : verification ∈ database.verifications) :
    ChangesOnlyOwn database (apply database environment payload userId status verification)
      userId ↔ verification.userId = userId := by
  constructor
  · rintro ⟨⟨row, hrow, hid, howner⟩, _, _⟩
    rcases mem_verifications_apply.mp hrow with rfl | ⟨_, hother⟩
    · exact howner
    · exact absurd hid hother
  · intro howner
    refine ⟨⟨_, mem_verifications_apply.mpr (.inl rfl), rfl, howner⟩, fun row hother => ?_,
      fun user hother => mem_users_apply hother⟩
    rw [mem_verifications_apply]
    constructor
    · rintro (rfl | ⟨hold, _⟩)
      · exact absurd howner hother
      · exact hold
    · intro hold
      refine .inr ⟨hold, fun hid => hother ?_⟩
      have hsame : row = verification :=
        List.inj_on_of_nodup_map database.uniqueVerifications hold hmem hid
      rw [hsame, howner]

end Writes

section Lookup

variable {database : KycDatabase} {environment : Environment} {payload : KycWebhookPayload}
  {userId : Uuid} {processed : Processed}

/-- What a call that succeeds has found, and what it writes. -/
theorem exists_of_processWebhook (huser : payload.userId = some (.uuid userId))
    (hok : processWebhook database environment payload = .ok processed) :
    ∃ status verification, payload.status = some status ∧
      (status = .approved ∨ status = .rejected) ∧
      (∃ user, database.findUser userId = some user) ∧
      lookUpVerification database userId payload.verificationId = .ok (some verification) ∧
      processed = apply database environment payload userId status verification := by
  simp only [processWebhook, bind_eq_ok, orThrow_eq_ok, huser, pure_eq_ok] at hok
  obtain ⟨_, huserText, status, hstatus, foundId, hquery, user, hfound, _, hlookUp, verification,
    rfl, rfl⟩ := hok
  obtain rfl := Option.some.inj huserText
  obtain rfl : userId = foundId := Except.ok.inj hquery
  obtain ⟨hstatus, hpermitted⟩ := Option.filter_eq_some_iff.mp hstatus
  rw [findUser_id hfound]
  exact ⟨status, verification, hstatus, of_decide_eq_true hpermitted, ⟨user, hfound⟩, hlookUp, rfl⟩

theorem lookUpVerification_uuid {verificationId : Uuid} :
    lookUpVerification database userId (some (.uuid verificationId)) =
      .ok (database.findVerification verificationId) := rfl

theorem mem_of_lookUpVerification {named : Option IdText} {verification : KYCVerification}
    (hlookUp : lookUpVerification database userId named = .ok (some verification)) :
    verification ∈ database.verifications := by
  have hpending : ∀ found, database.findPending userId = some found →
      found ∈ database.verifications := fun found hfound => List.mem_of_find?_eq_some hfound
  match named with
  | none => exact hpending _ (Except.ok.inj hlookUp)
  | some .empty => exact hpending _ (Except.ok.inj hlookUp)
  | some (.uuid _) => exact mem_of_findVerification (Except.ok.inj hlookUp)
  | some .other => cases hlookUp

/-- A verification that is not the user's was named. -/
theorem exists_named {named : Option IdText} {verification : KYCVerification}
    (hlookUp : lookUpVerification database userId named = .ok (some verification))
    (hother : verification.userId ≠ userId) :
    ∃ verificationId, named = some (.uuid verificationId) ∧
      database.findVerification verificationId = some verification := by
  have hpending : ∀ found, database.findPending userId = some found → found.userId = userId := by
    intro found hfound
    have hboth := List.find?_some hfound
    exact (of_decide_eq_true hboth).1
  match named with
  | none => exact absurd (hpending _ (Except.ok.inj hlookUp)) hother
  | some .empty => exact absurd (hpending _ (Except.ok.inj hlookUp)) hother
  | some (.uuid verificationId) => exact ⟨verificationId, rfl, Except.ok.inj hlookUp⟩
  | some .other => cases hlookUp

/-- A call that is not refused finds the named verification and succeeds. -/
theorem exists_processed {verification : KYCVerification} {verificationId : Uuid}
    {status : KYCStatus} (huser : payload.userId = some (.uuid userId))
    (hstatus : payload.status = some status)
    (hpermitted : status = .approved ∨ status = .rejected)
    (hfound : ∃ user, database.findUser userId = some user)
    (hnamed : payload.verificationId = some (.uuid verificationId))
    (hverification : database.findVerification verificationId = some verification) :
    processWebhook database environment payload =
      .ok (apply database environment payload userId status verification) := by
  obtain ⟨user, hfound⟩ := hfound
  have hdecision : (some status).filter isDecision = some status :=
    Option.filter_eq_some_iff.mpr ⟨rfl, decide_eq_true hpermitted⟩
  rw [processWebhook, huser, hstatus, orThrow_some, ok_bind, hdecision, orThrow_some, ok_bind,
    queryId, ok_bind, hfound, orThrow_some, ok_bind, hnamed, lookUpVerification_uuid, ok_bind,
    hverification, orThrow_some, ok_bind, findUser_id hfound]
  rfl

end Lookup

/-- A webhook changes the rows of its user only, unless it names another user's verification. -/
theorem webhook_changesOnlyOwn_iff (database : KycDatabase) (environment : Environment)
    (payload : KycWebhookPayload) :
    (∀ userId processed, payload.userId = some (.uuid userId) →
        processWebhook database environment payload = .ok processed →
        ChangesOnlyOwn database processed userId) ↔
      ∀ userId, payload.userId = some (.uuid userId) → ¬NamesAnother database payload userId := by
  constructor
  · rintro howned userId huser
      ⟨hpermitted, hfound, verificationId, verification, hnamed, hverification, hother⟩
    obtain ⟨status, hstatus, hpermitted⟩ : ∃ status, payload.status = some status ∧
        (status = .approved ∨ status = .rejected) := by
      rcases hpermitted with hstatus | hstatus
      · exact ⟨_, hstatus, .inl rfl⟩
      · exact ⟨_, hstatus, .inr rfl⟩
    have hchanges := howned userId _ huser
      (exists_processed huser hstatus hpermitted hfound hnamed hverification)
    exact hother ((changesOnlyOwn_apply_iff (mem_of_findVerification hverification)).mp hchanges)
  · intro hown userId processed huser hok
    obtain ⟨status, verification, hstatus, hpermitted, hfound, hlookUp, rfl⟩ :=
      exists_of_processWebhook huser hok
    refine (changesOnlyOwn_apply_iff (mem_of_lookUpVerification hlookUp)).mpr ?_
    by_contra hother
    obtain ⟨verificationId, hnamed, hverification⟩ := exists_named hlookUp hother
    refine hown userId huser ⟨?_, hfound, verificationId, verification, hnamed, hverification,
      hother⟩
    rcases hpermitted with rfl | rfl
    · exact .inl hstatus
    · exact .inr hstatus

/-! ## A verification of someone else -/

/-- User 1 has no verification; user 2 has one that is pending. -/
def twoUsers : KycDatabase :=
  { users := [⟨1, .pending, false⟩, ⟨2, .pending, false⟩]
    verifications := [⟨7, 2, .identity, .pending, none, none, none⟩]
    history := []
    uniqueVerifications := List.nodup_singleton _ }

def approvedByAnother : KycWebhookPayload :=
  { userId := some (.uuid 1)
    status := some .approved
    verificationId := some (.uuid 7)
    reason := none }

/-- User 1 is approved with the verification of user 2. -/
theorem approvedByAnother_changes : ∃ processed,
    processWebhook twoUsers ⟨0, 0, 9⟩ approvedByAnother = .ok processed ∧
      processed.database.users = [⟨1, .approved, true⟩, ⟨2, .pending, false⟩] ∧
      processed.database.verifications =
        [⟨7, 2, .identity, .approved, none, none, some 0⟩] ∧
      ¬ChangesOnlyOwn twoUsers processed 1 := by
  refine ⟨_, rfl, by decide, by decide, fun hchanges => ?_⟩
  obtain ⟨verification, hmem, hid, howner⟩ := hchanges.own
  obtain rfl := List.mem_singleton.mp hmem
  revert howner
  decide

end StellarSettle.KycWebhook
