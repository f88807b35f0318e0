import StellarSettle.Core.Checks
import StellarSettle.Core.TransitionSystem
import StellarSettle.Projections.EventReader

/-!
# Wallet challenges

A wallet asks for a challenge and returns its signature.  A verification awaits the lookup of the
challenge, then, at the same time, a conditional update that consumes it and the user that the
token is for.  Services share the database, and each has its own map of users that are being
found or created.
-/

namespace StellarSettle.AuthService

open StellarSettle.Checks
open StellarSettle.Entities (Timestamp Uuid)
open StellarSettle.EventReader (trimText)
open StellarSettle.TransitionSystem

/-! ## Data -/

inductive UserType where
  | seller
  | investor
  | both
  | admin
  deriving DecidableEq, Repr

structure User where
  id : Uuid
  stellarAddress : String
  userType : UserType
  deriving DecidableEq, Repr

structure ChallengeRecord where
  id : Uuid
  stellarAddress : String
  nonceHash : String
  message : String
  network : String
  issuedAt : Timestamp
  expiresAt : Timestamp
  consumedAt : Option Timestamp
  deriving DecidableEq, Repr

structure AuthError where
  status : ℕ
  message : String
  deriving DecidableEq, Repr

/-- What the Stellar SDK and Node compute.  `verify` gives nothing where it throws. -/
structure Platform (Bytes : Type) where
  isValidEd25519PublicKey : String → Bool
  verify : String → String → Bytes → Option Bool
  sha256 : String → String
  fromHex : String → Bytes
  fromBase64 : String → Bytes
  toISOString : Timestamp → String

structure AuthConfig where
  challengeTtlMs : Option ℤ
  network : String
  networkPassphrase : String

/-- The clause of the token that names its user. -/
structure AuthTokenPayload where
  sub : String
  stellarAddress : String
  wallet : String
  walletAddress : String
  role : UserType
  userType : UserType
  userId : Uuid
  deriving DecidableEq, Repr

section Code

variable {Bytes : Type} (platform : Platform Bytes) (config : AuthConfig)

/-! ## Creating a challenge -/

def assertValidPublicKey (publicKey : String) : Except AuthError String :=
  let sanitized := trimText publicKey
  if sanitized = "" ∨ platform.isValidEd25519PublicKey sanitized = false then
    .error ⟨400, "Invalid Stellar public key."⟩
  else .ok sanitized

def challengeTtlMs : ℤ :=
  match config.challengeTtlMs with
  | some ttl => if 0 < ttl then ttl else 60000
  | none => 60000

def buildChallengeMessage (publicKey nonce : String) (issuedAt expiresAt : Timestamp) : String :=
  "\n".intercalate
    ["StellarSettle Authentication Challenge",
      "Public Key: " ++ publicKey,
      "Network: " ++ config.network,
      "Network Passphrase: " ++ config.networkPassphrase,
      "Nonce: " ++ nonce,
      "Issued At: " ++ platform.toISOString issuedAt,
      "Expires At: " ++ platform.toISOString expiresAt,
      "",
      "Sign this exact message to authenticate with the StellarSettle API."]

/-- The row that `createChallenge` inserts, for the nonce that it has drawn. -/
def newChallenge (publicKey : String) (issuedAt : Timestamp) (nonce : String) (id : Uuid) :
    Except AuthError ChallengeRecord := do
  let sanitizedKey ← assertValidPublicKey platform publicKey
  let expiresAt := issuedAt + challengeTtlMs config
  return {
    id := id
    stellarAddress := sanitizedKey
    nonceHash := platform.sha256 nonce
    message := buildChallengeMessage platform config sanitizedKey nonce issuedAt expiresAt
    network := config.network
    issuedAt := issuedAt
    expiresAt := expiresAt
    consumedAt := none }

/-! ## Verifying a challenge -/

structure VerifyChallengeInput where
  publicKey : Option String
  wallet : Option String
  nonce : Option String
  challenge : Option String
  signature : Option String

def minNonceLength : ℕ := 16

def maxNonceLength : ℕ := 512

def maxSignatureLength : ℕ := 2048

/-- `text.length`, in UTF-16 code units. -/
def textLength (text : String) : ℕ :=
  (text.toList.map fun character => if character.toNat < 0x10000 then 1 else 2).sum

def isHex (character : Char) : Bool :=
  character.isDigit || ('a' ≤ character && character ≤ 'f') ||
    ('A' ≤ character && character ≤ 'F')

def isBase64 (character : Char) : Bool :=
  character.isAlphanum || character ∈ ['+', '/', '_', '=', '-']

/-- `text.slice(2)` where it starts with `0x`. -/
def stripHexMark (text : String) : String :=
  match text.toList with
  | '0' :: 'x' :: rest => String.ofList rest
  | _ => text

def padBase64 (text : String) : String :=
  let normalized := text.toList.map fun character =>
    if character = '-' then '+' else if character = '_' then '/' else character
  let paddingLength := normalized.length % 4
  if paddingLength = 0 then String.ofList normalized
  else String.ofList (normalized ++ List.replicate (4 - paddingLength) '=')

def decodeSignature (signature : String) : Except AuthError Bytes :=
  let trimmedSignature := trimText signature
  let hex := (stripHexMark trimmedSignature).toList
  if trimmedSignature = "" then .error ⟨400, "Signature is required."⟩
  else if maxSignatureLength < textLength trimmedSignature then
    .error ⟨400, "Signature exceeds maximum allowed length."⟩
  else if hex ≠ [] ∧ hex.all isHex ∧ hex.length % 2 = 0 then
    .ok (platform.fromHex (String.ofList hex))
  else if trimmedSignature.toList.all isBase64 = false then .error ⟨401, "Invalid signature."⟩
  else .ok (platform.fromBase64 (padBase64 trimmedSignature))

/-- What a verification looks up and checks. -/
structure VerifyRequest (Bytes : Type) where
  sanitizedKey : String
  nonceHash : String
  signature : Bytes
  deriving DecidableEq, Repr

/-- `first ?? second`, where an empty text counts as missing afterwards. -/
def firstGiven (first second : Option String) : Option String :=
  (first.orElse fun _ => second).filter (· ≠ "")

/-- The code of `verifyChallenge` before it looks the challenge up. -/
def readRequest (input : VerifyChallengeInput) : Except AuthError (VerifyRequest Bytes) := do
  let rawKey ← orThrow (firstGiven input.publicKey input.wallet)
    ⟨400, "publicKey or wallet is required."⟩
  let sanitizedKey ← assertValidPublicKey platform rawKey
  let rawNonce ← orThrow (firstGiven input.nonce input.challenge)
    ⟨400, "nonce or challenge is required."⟩
  let sanitizedNonce := trimText rawNonce
  throwIf (textLength sanitizedNonce < minNonceLength ∨ maxNonceLength < textLength sanitizedNonce)
    ⟨400, "Invalid nonce."⟩
  let rawSignature ← orThrow input.signature ⟨400, "signature is required."⟩
  let sanitizedSignature := trimText rawSignature
  throwIf (maxSignatureLength < textLength sanitizedSignature) ⟨400, "Invalid signature."⟩
  let signature ← decodeSignature platform sanitizedSignature
  return ⟨sanitizedKey, platform.sha256 sanitizedNonce, signature⟩

/-- The checks between the lookup and the consumption, at the clock `now`. -/
def checkChallenge (request : VerifyRequest Bytes) (found : Option ChallengeRecord)
    (now : Timestamp) : Except AuthError ChallengeRecord := do
  let challenge ← orThrow found ⟨401, "Invalid challenge."⟩
  throwIf (challenge.network ≠ config.network) ⟨401, "Challenge network mismatch."⟩
  throwIf (challenge.consumedAt.isSome) ⟨401, "Challenge already used."⟩
  throwIf (challenge.expiresAt ≤ now) ⟨401, "Challenge expired."⟩
  let isValid ← orThrow (platform.verify request.sanitizedKey challenge.message request.signature)
    ⟨401, "Invalid signature."⟩
  throwIf (isValid = false) ⟨401, "Invalid signature."⟩
  return challenge

def signToken (user : User) : AuthTokenPayload :=
  { sub := user.stellarAddress
    stellarAddress := user.stellarAddress
    wallet := user.stellarAddress
    walletAddress := user.stellarAddress
    role := user.userType
    userType := user.userType
    userId := user.id }

end Code

/-! ## The database -/

structure ChallengeTable where
  rows : List ChallengeRecord
  uniqueIds : (rows.map ChallengeRecord.id).Nodup

namespace ChallengeTable

/-- The row breaks the primary key or the unique index of addresses and nonces. -/
def Violates (table : ChallengeTable) (challenge : ChallengeRecord) : Prop :=
  ∃ row ∈ table.rows, row.id = challenge.id ∨
    (row.stellarAddress = challenge.stellarAddress ∧ row.nonceHash = challenge.nonceHash)

instance (table : ChallengeTable) (challenge : ChallengeRecord) :
    Decidable (table.Violates challenge) :=
  inferInstanceAs (Decidable (∃ row ∈ table.rows, _ ∨ _))

def create (table : ChallengeTable) (challenge : ChallengeRecord) : ChallengeTable :=
  if hviolates : table.Violates challenge then table
  else
    { rows := table.rows ++ [challenge]
      uniqueIds := by
        rw [List.map_append, List.nodup_append]
        refine ⟨table.uniqueIds, List.nodup_singleton _, fun id hid new hnew hsame => ?_⟩
        obtain ⟨row, hrow, rfl⟩ := List.mem_map.mp hid
        obtain rfl := List.mem_singleton.mp hnew
        exact hviolates ⟨row, hrow, .inl hsame⟩ }

def findByAddressAndNonceHash (table : ChallengeTable) (stellarAddress nonceHash : String) :
    Option ChallengeRecord :=
  table.rows.find? fun row =>
    decide (row.stellarAddress = stellarAddress ∧ row.nonceHash = nonceHash)

/-- The row that `consume` updates. -/
def Unconsumed (id : Uuid) (row : ChallengeRecord) : Prop := row.id = id ∧ row.consumedAt = none

instance (id : Uuid) (row : ChallengeRecord) : Decidable (Unconsumed id row) :=
  inferInstanceAs (Decidable (_ ∧ _))

/-- `update({ id, consumedAt: IsNull() }, { consumedAt })`. -/
def consume (table : ChallengeTable) (id : Uuid) (consumedAt : Timestamp) : ChallengeTable :=
  { rows := table.rows.map fun row =>
      if Unconsumed id row then { row with consumedAt := some consumedAt } else row
    uniqueIds := by
      have hids : (table.rows.map fun row =>
          if Unconsumed id row then { row with consumedAt := some consumedAt } else row).map
            ChallengeRecord.id = table.rows.map ChallengeRecord.id := by
        rw [List.map_map]
        refine List.map_congr_left fun row _ => ?_
        rw [Function.comp_apply]
        split <;> rfl
      rw [hids]
      exact table.uniqueIds }

/-- `(result.affected ?? 0) > 0`. -/
def affects (table : ChallengeTable) (id : Uuid) : Bool :=
  table.rows.any fun row => decide (Unconsumed id row)

end ChallengeTable

/-! ## Calls -/

/-- A promise of something. -/
inductive Answer (Value : Type) where
  | waiting
  | resolved (value : Value)
  | rejected
  deriving DecidableEq, Repr

/-- A challenge that has passed its checks at the clock `checkedAt`. -/
structure Checked (Service Bytes : Type) where
  service : Service
  request : VerifyRequest Bytes
  challenge : ChallengeRecord
  checkedAt : Timestamp
  deriving DecidableEq, Repr

/-- A verification: it looks its challenge up, checks what it has found, awaits the consumption
and the user of the promise `joined`, and returns a token or throws. -/
inductive Call (Index Service Bytes : Type) where
  | idle
  | lookingUp (service : Service) (request : VerifyRequest Bytes)
  | lookedUp (service : Service) (request : VerifyRequest Bytes) (found : Option ChallengeRecord)
  | processing (checked : Checked Service Bytes) (joined : Index) (consumed : Answer Bool)
      (user : Answer User)
  | issued (checked : Checked Service Bytes) (token : AuthTokenPayload)
  | failed (error : AuthError)
  deriving DecidableEq, Repr

/-- `upsertUser` of one address, and how far it has come. -/
inductive UpsertStage where
  | finding
  | saving
  | findingAgain
  | settled (user : Option User)
  deriving DecidableEq, Repr

structure Upsert (Service : Type) where
  service : Service
  publicKey : String
  stage : UpsertStage
  deriving DecidableEq, Repr

structure AuthSystem (Index Service Bytes : Type) where
  challenges : ChallengeTable
  users : List User
  call : Index → Call Index Service Bytes
  upsert : Index → Option (Upsert Service)
  userUpsertInflight : Service → String → Option Index

inductive AuthEvent (Index Service : Type) where
  | createChallenge (service : Service) (publicKey : String) (issuedAt : Timestamp)
      (nonce : String) (id : Uuid)
  | verifyChallenge (index : Index) (service : Service) (input : VerifyChallengeInput)
  | lookUp (index : Index)
  | lookUpFails (index : Index)
  | check (index : Index) (now : Timestamp)
  | consume (index : Index) (consumedAt : Timestamp)
  | consumeFails (index : Index) (consumedAt : Timestamp) (applied : Bool)
  | findUser (index : Index)
  | saveUser (index : Index) (id : Uuid)
  | saveUserLost (index : Index) (id : Uuid)
  | upsertFails (index : Index) (duplicateKey : Bool)
  | receiveUser (index : Index)

section Steps

variable {Index Service Bytes : Type} [DecidableEq Index] [DecidableEq Service]

/-- The call returns a token once it has consumed the challenge and has its user. -/
def settle (checked : Checked Service Bytes) (joined : Index) :
    Answer Bool → Answer User → Call Index Service Bytes
  | .resolved true, .resolved user => .issued checked (signToken user)
  | .resolved false, .resolved _ => .failed ⟨401, "Challenge already used."⟩
  | consumed, user => .processing checked joined consumed user

namespace AuthSystem

def setCall (system : AuthSystem Index Service Bytes) (index : Index)
    (next : Call Index Service Bytes) : AuthSystem Index Service Bytes :=
  { system with call := setProcess system.call index next }

/-- `upsertUser` joins the promise in flight for the address, or starts its own. -/
def joinUpsert (system : AuthSystem Index Service Bytes) (index : Index) (service : Service)
    (publicKey : String) : AuthSystem Index Service Bytes × Index :=
  match system.userUpsertInflight service publicKey with
  | some joined => (system, joined)
  | none =>
      ({ system with
          upsert := setProcess system.upsert index (some ⟨service, publicKey, .finding⟩)
          userUpsertInflight := fun other address =>
            if other = service ∧ address = publicKey then some index
            else system.userUpsertInflight other address }, index)

def setUpsert (system : AuthSystem Index Service Bytes) (index : Index) (upsert : Upsert Service)
    (stage : UpsertStage) : AuthSystem Index Service Bytes :=
  { system with upsert := setProcess system.upsert index (some { upsert with stage := stage }) }

/-- The promise settles, and is no longer in flight. -/
def settleUpsert (system : AuthSystem Index Service Bytes) (index : Index)
    (upsert : Upsert Service) (user : Option User) : AuthSystem Index Service Bytes :=
  { system.setUpsert index upsert (.settled user) with
    userUpsertInflight := fun service address =>
      if service = upsert.service ∧ address = upsert.publicKey then none
      else system.userUpsertInflight service address }

def findByStellarAddress (system : AuthSystem Index Service Bytes) (stellarAddress : String) :
    Option User :=
  system.users.find? fun user => decide (user.stellarAddress = stellarAddress)

end AuthSystem

variable (platform : Platform Bytes) (config : Service → AuthConfig)

/-- The code after the lookup: it checks what was found, and starts both promises. -/
def enterProcessing (system : AuthSystem Index Service Bytes) (index : Index) (service : Service)
    (request : VerifyRequest Bytes) (found : Option ChallengeRecord) (now : Timestamp) :
    AuthSystem Index Service Bytes :=
  match checkChallenge platform (config service) request found now with
  | .error error => system.setCall index (.failed error)
  | .ok challenge =>
      let joining := system.joinUpsert index service (trimText request.sanitizedKey)
      joining.1.setCall index
        (.processing ⟨service, request, challenge, now⟩ joining.2 .waiting .waiting)

/-- One step of `upsertUser` that queries for its user. -/
def stepFindUser (system : AuthSystem Index Service Bytes) (index : Index)
    (upsert : Upsert Service) : Option (AuthSystem Index Service Bytes) :=
  match upsert.stage, system.findByStellarAddress upsert.publicKey with
  | .finding, some user | .findingAgain, some user =>
      some (system.settleUpsert index upsert (some user))
  | .finding, none => some (system.setUpsert index upsert .saving)
  | .findingAgain, none => some (system.settleUpsert index upsert none)
  | _, _ => none

/-- The insertion fails with a duplicate key where the address has a user by now. -/
def stepSaveUser (system : AuthSystem Index Service Bytes) (index : Index)
    (upsert : Upsert Service) (id : Uuid) : Option (AuthSystem Index Service Bytes) :=
  match upsert.stage, system.findByStellarAddress upsert.publicKey with
  | .saving, some _ => some (system.setUpsert index upsert .findingAgain)
  | .saving, none =>
      let created : User := ⟨id, upsert.publicKey, .investor⟩
      some { system.settleUpsert index upsert (some created) with
        users := system.users ++ [created] }
  | _, _ => none

/-- The connection is lost after the insertion. -/
def stepSaveUserLost (system : AuthSystem Index Service Bytes) (index : Index)
    (upsert : Upsert Service) (id : Uuid) : Option (AuthSystem Index Service Bytes) :=
  match upsert.stage, system.findByStellarAddress upsert.publicKey with
  | .saving, none =>
      some { system.settleUpsert index upsert none with
        users := system.users ++ [⟨id, upsert.publicKey, .investor⟩] }
  | _, _ => none

/-- A query fails; after a message about a duplicate key the user is looked for again. -/
def stepUpsertFails (system : AuthSystem Index Service Bytes) (index : Index)
    (upsert : Upsert Service) (duplicateKey : Bool) : Option (AuthSystem Index Service Bytes) :=
  match upsert.stage with
  | .settled _ => none
  | .findingAgain => some (system.settleUpsert index upsert none)
  | _ =>
      if duplicateKey then some (system.setUpsert index upsert .findingAgain)
      else some (system.settleUpsert index upsert none)

def step (system : AuthSystem Index Service Bytes) :
    AuthEvent Index Service → Option (AuthSystem Index Service Bytes)
  | .createChallenge service publicKey issuedAt nonce id =>
      match newChallenge platform (config service) publicKey issuedAt nonce id with
      | .error _ => some system
      | .ok challenge => some { system with challenges := system.challenges.create challenge }
  | .verifyChallenge index service input =>
      match system.call index with
      | .idle =>
          match readRequest platform input with
          | .error error => some (system.setCall index (.failed error))
          | .ok request => some (system.setCall index (.lookingUp service request))
      | _ => none
  | .lookUp index =>
      match system.call index with
      | .lookingUp service request =>
          let found := system.challenges.findByAddressAndNonceHash request.sanitizedKey
            request.nonceHash
          some (system.setCall index (.lookedUp service request found))
      | _ => none
  | .lookUpFails index =>
      match system.call index with
      | .lookingUp _ _ =>
          some (system.setCall index (.failed ⟨500, "Failed to verify challenge."⟩))
      | _ => none
  | .check index now =>
      match system.call index with
      | .lookedUp service request found =>
          some (enterProcessing platform config system index service request found now)
      | _ => none
  | .consume index consumedAt =>
      match system.call index with
      | .processing checked joined .waiting user =>
          let consumed := system.challenges.affects checked.challenge.id
          some { system.setCall index (settle checked joined (.resolved consumed) user) with
            challenges := system.challenges.consume checked.challenge.id consumedAt }
      | _ => none
  | .consumeFails index consumedAt applied =>
      match system.call index with
      | .processing checked joined .waiting user =>
          some { system.setCall index (.processing checked joined .rejected user) with
            challenges :=
              if applied then system.challenges.consume checked.challenge.id consumedAt
              else system.challenges }
      | _ => none
  | .findUser index => (system.upsert index).bind fun upsert => stepFindUser system index upsert
  | .saveUser index id =>
      (system.upsert index).bind fun upsert => stepSaveUser system index upsert id
  | .saveUserLost index id =>
      (system.upsert index).bind fun upsert => stepSaveUserLost system index upsert id
  | .upsertFails index duplicateKey =>
      (system.upsert index).bind fun upsert => stepUpsertFails system index upsert duplicateKey
  | .receiveUser index =>
      match system.call index with
      | .processing checked joined consumed .waiting =>
          match (system.upsert joined).map Upsert.stage with
          | some (.settled (some user)) =>
              some (system.setCall index (settle checked joined consumed (.resolved user)))
          | some (.settled none) =>
              some (system.setCall index (.processing checked joined consumed .rejected))
          | _ => none
      | _ => none

end Steps

/-- No call has begun. -/
def AuthSystem.initial {Index Service Bytes : Type} (challenges : ChallengeTable)
    (users : List User) : AuthSystem Index Service Bytes :=
  { challenges := challenges
    users := users
    call := fun _ => .idle
    upsert := fun _ => none
    userUpsertInflight := fun _ _ => none }

end StellarSettle.AuthService
