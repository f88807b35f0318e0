import Mathlib.Data.List.Perm.Basic
import StellarSettle.Core.ReadCommitted
import StellarSettle.Kyc.KycWebhook
import StellarSettle.Projections.EventReader

/-!
# Submitting and deciding verifications

Six operations create or decide verifications, each in a transaction that takes no lock.  They
look verifications up by user, by wallet or by id, and check different things before they write.
-/

namespace StellarSettle.KycService

open StellarSettle.Entities (Timestamp Uuid)
open StellarSettle.EventReader (trimText)
open StellarSettle.KeyedRows
open StellarSettle.KycWebhook (Documents IdText KYCStatus KYCVerification KYCVerificationType
  KycWebhookPayload WebhookError isDecision queryId)
open StellarSettle.ReadCommitted
open StellarSettle.TransitionSystem

/-! ## Tables -/

structure User extends KycWebhook.User where
  stellarAddress : String
  deriving DecidableEq, Repr

/-- The tables of users and verifications, with the primary key of the verifications and the
foreign key of their users. -/
structure KycTables where
  users : List User
  verifications : List KYCVerification
  uniqueVerifications : (verifications.map KYCVerification.id).Nodup
  owned : ∀ verification ∈ verifications, ∃ user ∈ users, user.id = verification.userId

/-- `PENDING_STATUSES`. -/
def pendingStatuses : List KYCStatus := [.pending, .approved]

/-- `RESUBMITTABLE_STATUSES`. -/
def resubmittableStatuses : List KYCStatus := [.rejected, .expired]

def statusText : KYCStatus → String
  | .pending => "pending"
  | .inReview => "in_review"
  | .approved => "approved"
  | .rejected => "rejected"
  | .expired => "expired"

/-- A text that is compared with a wallet and, where it spells a uuid, with an id. -/
structure Key where
  text : String
  uuid : Option Uuid
  deriving DecidableEq, Repr

namespace Key

def queryUuid (key : Key) : Except WebhookError Uuid := Checks.orThrow key.uuid .queryFailed

end Key

/-- `order: { verifiedAt: "DESC" }`, where a missing time comes first. -/
def verifiedNoEarlier : Option Timestamp → Option Timestamp → Bool
  | none, _ => true
  | some _, none => false
  | some left, some right => decide (right ≤ left)

namespace KycTables

def findUser (tables : KycTables) (id : Uuid) : Option User :=
  tables.users.find? fun user => decide (user.id = id)

def findWallet (tables : KycTables) (wallet : String) : Option User :=
  tables.users.find? fun user => decide (user.stellarAddress = wallet)

/-- `[{ stellarAddress: key }, { id: key }]`: the query fails for a text that is no uuid. -/
def findUserByKey (tables : KycTables) (key : Key) : Except WebhookError (Option User) := do
  let id ← key.queryUuid
  return tables.users.find? fun user => decide (user.stellarAddress = key.text ∨ user.id = id)

def findVerification (tables : KycTables) (id : Uuid) : Option KYCVerification :=
  findRow KYCVerification.id tables.verifications id

def findFirst (tables : KycTables) (selected : KYCVerification → Bool) : Option KYCVerification :=
  tables.verifications.find? selected

def findLatest (tables : KycTables) (selected : KYCVerification → Bool) :
    Option KYCVerification :=
  ((tables.verifications.filter selected).mergeSort fun left right =>
    verifiedNoEarlier left.verifiedAt right.verifiedAt).head?

end KycTables

/-! ## Writes -/

/-- The columns that `save` found different from the stored row. -/
structure Changes where
  status : Option KYCStatus
  verifiedAt : Option (Option Timestamp)
  documents : Option (Option Documents)
  deriving DecidableEq, Repr

namespace Changes

/-- The operations change no other column of a verification that is stored. -/
def between (stored entity : KYCVerification) : Changes :=
  { status := if entity.status = stored.status then none else some entity.status
    verifiedAt := if entity.verifiedAt = stored.verifiedAt then none else some entity.verifiedAt
    documents := if entity.documents = stored.documents then none else some entity.documents }

def applied (changes : Changes) (stored : KYCVerification) : KYCVerification :=
  { stored with
    status := changes.status.getD stored.status
    verifiedAt := changes.verifiedAt.getD stored.verifiedAt
    documents := changes.documents.getD stored.documents }

@[simp]
theorem applied_id (changes : Changes) (stored : KYCVerification) :
    (changes.applied stored).id = stored.id := rfl

@[simp]
theorem applied_userId (changes : Changes) (stored : KYCVerification) :
    (changes.applied stored).userId = stored.userId := rfl

end Changes

inductive RowWrite where
  | insert (verification : KYCVerification)
  | update (id : Uuid) (changes : Changes)
  deriving DecidableEq, Repr

/-- A transaction stores one verification and gives one user a status. -/
structure Write where
  row : RowWrite
  userId : Uuid
  kycStatus : KYCStatus
  deriving DecidableEq, Repr

namespace Write

/-- The verification as the write leaves it: a new one has an id of its own, and a stored one is
still there, as none is ever removed. -/
def verification (tables : KycTables) (write : Write) : Option KYCVerification :=
  match write.row with
  | .insert verification =>
      if (tables.findVerification verification.id).isSome then none else some verification
  | .update id changes => (tables.findVerification id).map changes.applied

end Write

namespace KycTables

def updateUser (users : List User) (id : Uuid) (kycStatus : KYCStatus) : List User :=
  users.map fun user =>
    if user.id = id then
      { user with kycStatus := kycStatus, isKycVerified := decide (kycStatus = .approved) }
    else user

theorem exists_updateUser {users : List User} {id owner : Uuid} {kycStatus : KYCStatus}
    (howner : ∃ user ∈ users, user.id = owner) :
    ∃ user ∈ updateUser users id kycStatus, user.id = owner := by
  obtain ⟨user, hmem, rfl⟩ := howner
  refine ⟨_, List.mem_map_of_mem hmem, ?_⟩
  split <;> rfl

/-- The verification has the user that the foreign key asks for. -/
def HasOwner (tables : KycTables) (verification : KYCVerification) : Prop :=
  ∃ user ∈ tables.users, user.id = verification.userId

instance (tables : KycTables) (verification : KYCVerification) :
    Decidable (tables.HasOwner verification) :=
  inferInstanceAs (Decidable (∃ user ∈ tables.users, user.id = verification.userId))

def store (tables : KycTables) (verification : KYCVerification)
    (howner : tables.HasOwner verification) (userId : Uuid) (kycStatus : KYCStatus) : KycTables :=
  { users := updateUser tables.users userId kycStatus
    verifications := saveRow KYCVerification.id tables.verifications verification
    uniqueVerifications := nodup_saveRow tables.uniqueVerifications
    owned := by
      intro row hrow
      apply exists_updateUser
      rcases mem_saveRow.mp hrow with rfl | ⟨hold, _⟩
      · exact howner
      · exact tables.owned row hold }

/-- A query may return the rows in any order. -/
structure Shows (tables seen : KycTables) : Prop where
  users : seen.users.Perm tables.users
  verifications : seen.verifications.Perm tables.verifications

end KycTables

/-- A write that violates a key fails. -/
def applyWrite (write : Write) (tables : KycTables) : Option KycTables := do
  let verification ← write.verification tables
  if howner : tables.HasOwner verification then
    return tables.store verification howner write.userId write.kycStatus
  else none

/-! ## Operations -/

abbrev KycTransaction := Transaction KycTables Write WebhookError

/-- The clock when the operation sets `verifiedAt`, and the id of a verification it creates. -/
structure Environment where
  verifiedAt : Timestamp
  verificationId : Uuid
  deriving DecidableEq, Repr

/-- `save` loads the stored row again and updates the columns that differ. -/
def save (entity : KYCVerification) (userId : Uuid) (kycStatus : KYCStatus) : KycTransaction :=
  .query fun tables =>
    match tables.findVerification entity.id with
    | none => .commit ⟨.insert entity, userId, kycStatus⟩
    | some stored => .commit ⟨.update entity.id (.between stored entity), userId, kycStatus⟩

def userNotFound : WebhookError := .http 404 "User not found."

def verificationNotFound : WebhookError := .http 404 "KYC verification not found."

/-- A submission creates a verification and sets its user to pending. -/
def create (environment : Environment) (userId : Uuid) (wallet : Option String)
    (verificationType : KYCVerificationType) (documents : Option Documents) : KycTransaction :=
  .commit
    { row := .insert
        { id := environment.verificationId
          userId := userId
          verificationType := verificationType
          status := .pending
          documents := documents
          wallet := wallet
          verifiedAt := none }
      userId := userId
      kycStatus := .pending }

def submitKycVerification (environment : Environment) (userId : IdText)
    (verificationType : Option KYCVerificationType) (documents : Option Documents) :
    KycTransaction :=
  .require (fun tables => return tables.findUser (← queryId userId)) userNotFound fun user =>
    create environment user.id none (verificationType.getD .identity) documents

def submitKycVerificationByWallet (environment : Environment) (wallet : String)
    (documents : Documents) : KycTransaction :=
  .require (fun tables => .ok (tables.findWallet wallet)) userNotFound fun user =>
    .lookUp (fun tables => .ok (tables.findFirst fun verification =>
      decide (verification.wallet = some wallet ∧ verification.status ∈ pendingStatuses)))
      fun existing =>
        match existing with
        | some _ => .throw
            (.http 409 "A KYC verification is already pending or approved for this wallet.")
        | none => create environment user.id (some wallet) .identity (some documents)

def resubmitKycVerification (environment : Environment) (wallet : String)
    (documents : Documents) : KycTransaction :=
  .require (fun tables => .ok (tables.findWallet wallet)) userNotFound fun user =>
    .require (fun tables => .ok (tables.findFirst fun verification =>
      decide (verification.wallet = some wallet ∧
        verification.status ∈ pendingStatuses ++ resubmittableStatuses)))
      (.http 404 "No existing KYC verification found for this wallet.") fun current =>
        if current.status ∈ resubmittableStatuses then
          create environment user.id (some wallet) .identity (some documents)
        else .throw (.http 400 ("Cannot resubmit KYC verification with status " ++
          statusText current.status ++
          ". Only rejected or expired verifications can be resubmitted."))

def submitKyc (environment : Environment) (walletOrUserId : Key)
    (verificationType : Option KYCVerificationType) (documents : Documents) : KycTransaction :=
  .require (fun tables => tables.findUserByKey walletOrUserId) userNotFound fun user =>
    .lookUp (fun tables => .ok (tables.findLatest fun verification =>
      decide ((verification.wallet = some user.stellarAddress ∨ verification.userId = user.id) ∧
        verification.status ∈ pendingStatuses ++ resubmittableStatuses)))
      fun existing =>
        match existing with
        | none => create environment user.id (some user.stellarAddress)
            (verificationType.getD .identity) (some documents)
        | some existing =>
            if existing.status = .pending then
              .throw (.http 409 "A KYC verification is already pending for this wallet.")
            else if existing.status = .approved then
              .throw (.http 409 "A KYC verification is already approved for this wallet.")
            else
              save { existing with
                status := .pending
                verifiedAt := none
                documents := some documents } user.id .pending

/-- The verification that the payload names, else a pending one of its user. -/
def findForWebhook (tables : KycTables) (userId : Uuid) :
    Option IdText → Except WebhookError (Option KYCVerification)
  | none | some .empty => .ok (tables.findFirst fun verification =>
      decide (verification.userId = userId ∧ verification.status = .pending))
  | some verificationId => return tables.findVerification (← queryId verificationId)

def processWebhook (environment : Environment) (payload : KycWebhookPayload) : KycTransaction :=
  match payload.userId, payload.status.filter isDecision with
  | none, _ => .throw (.http 400 "Webhook userId is required.")
  | some _, none => .throw (.http 400 "Webhook status must be approved or rejected.")
  | some userText, some status =>
      .require (fun tables => return tables.findUser (← queryId userText)) userNotFound fun user =>
        .require (fun tables => findForWebhook tables user.id payload.verificationId)
          verificationNotFound fun verification =>
            save { verification with
              status := status
              verifiedAt := some environment.verifiedAt } user.id status

structure KycReviewInput where
  status : Option String
  action : Option String
  decision : Option String
  reason : Option String
  rejectionReason : Option String

/-- `first || second || ""`. -/
def firstText (texts : List (Option String)) : String :=
  ((texts.reduceOption).find? (· ≠ "")).getD ""

def reviewDecision (input : KycReviewInput) : Option KYCStatus :=
  let rawAction := trimText (firstText [input.status, input.action, input.decision]).toLower
  if rawAction = "approved" ∨ rawAction = "approve" then some .approved
  else if rawAction = "rejected" ∨ rawAction = "reject" then some .rejected
  else none

/-- The verification by id, else the latest one of the user or wallet. -/
def findForReview (idOrUserId : Key) (next : Option KYCVerification → KycTransaction) :
    KycTransaction :=
  .lookUp (fun tables => return tables.findVerification (← idOrUserId.queryUuid)) fun named =>
    match named with
    | some verification => next (some verification)
    | none => .lookUp (fun tables => do
        let id ← idOrUserId.queryUuid
        return tables.findLatest fun verification =>
          decide (verification.userId = id ∨ verification.wallet = some idOrUserId.text)) next

/-- The documents that a review stores are those it found, with the reason of a rejection or
without any. -/
def reviewKyc (environment : Environment) (idOrUserId : Key) (input : KycReviewInput)
    (reviewed : Option Documents → Documents) : KycTransaction :=
  match reviewDecision input with
  | none => .throw (.http 400 "Status must be either 'approved' or 'rejected'.")
  | some decision =>
      if decision = .rejected ∧ trimText (firstText [input.reason, input.rejectionReason]) = "" then
        .throw (.http 400 "Rejection reason is required when rejecting KYC verification.")
      else
        findForReview idOrUserId fun found =>
          match found with
          | some verification =>
              .require (fun tables => .ok (tables.users.find? fun user =>
                decide (user.id = verification.userId ∨
                  user.stellarAddress = verification.wallet.getD ""))) verificationNotFound
                fun user =>
                  save { verification with
                    status := decision
                    verifiedAt := some environment.verifiedAt
                    documents := some (reviewed verification.documents) } user.id decision
          | none =>
              .require (fun tables => tables.findUserByKey idOrUserId) verificationNotFound
                fun user =>
                  .commit
                    { row := .insert
                        { id := environment.verificationId
                          userId := user.id
                          verificationType := .identity
                          status := decision
                          documents := some (reviewed none)
                          wallet := some user.stellarAddress
                          verifiedAt := some environment.verifiedAt }
                      userId := user.id
                      kycStatus := decision }

inductive KycOperation where
  | submitKycVerification (environment : Environment) (userId : IdText)
      (verificationType : Option KYCVerificationType) (documents : Option Documents)
  | submitKycVerificationByWallet (environment : Environment) (wallet : String)
      (documents : Documents)
  | submitKyc (environment : Environment) (walletOrUserId : Key)
      (verificationType : Option KYCVerificationType) (documents : Documents)
  | resubmitKycVerification (environment : Environment) (wallet : String) (documents : Documents)
  | processWebhook (environment : Environment) (payload : KycWebhookPayload)
  | reviewKyc (environment : Environment) (idOrUserId : Key) (input : KycReviewInput)
      (reviewed : Option Documents → Documents)

def KycOperation.code : KycOperation → KycTransaction
  | submitKycVerification environment userId verificationType documents =>
      KycService.submitKycVerification environment userId verificationType documents
  | submitKycVerificationByWallet environment wallet documents =>
      KycService.submitKycVerificationByWallet environment wallet documents
  | submitKyc environment walletOrUserId verificationType documents =>
      KycService.submitKyc environment walletOrUserId verificationType documents
  | resubmitKycVerification environment wallet documents =>
      KycService.resubmitKycVerification environment wallet documents
  | processWebhook environment payload => KycService.processWebhook environment payload
  | reviewKyc environment idOrUserId input reviewed =>
      KycService.reviewKyc environment idOrUserId input reviewed

instance (tables seen : KycTables) : Decidable (tables.Shows seen) :=
  decidable_of_iff (seen.users.Perm tables.users ∧
      seen.verifications.Perm tables.verifications)
    ⟨fun hboth => ⟨hboth.1, hboth.2⟩, fun hshows => ⟨hshows.users, hshows.verifications⟩⟩

def kyc : Database KycTables Write WebhookError KycOperation :=
  { code := KycOperation.code
    shows := KycTables.Shows
    decidableShows := fun _ _ => inferInstance
    apply := applyWrite }

abbrev KycSystem := System ℕ KycTables Write WebhookError

abbrev KycEvent := Event ℕ KycTables KycOperation

end StellarSettle.KycService
