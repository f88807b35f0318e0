import StellarSettle.Kyc.KycService

/-!
# One verification for each user

A user should have one verification at most that is pending or approved, and be marked as
verified exactly while it is approved.  Whether a commit keeps this depends on the user's other
verifications when it commits, which an operation has looked at before, or not at all.
-/

namespace StellarSettle.SingleVerification

open StellarSettle.Entities (Timestamp Uuid)
open StellarSettle.KeyedRows
open StellarSettle.KycService
open StellarSettle.KycWebhook (KYCStatus KYCVerification)
open StellarSettle.ReadCommitted
open StellarSettle.TransitionSystem

/-! ## The invariant -/

/-- The verification blocks another one. -/
def Active (verification : KYCVerification) : Prop := verification.status ∈ pendingStatuses

instance (verification : KYCVerification) : Decidable (Active verification) :=
  inferInstanceAs (Decidable (_ ∈ _))

/-- One of these verifications is the user's and is approved. -/
def Approved (verifications : List KYCVerification) (userId : Uuid) : Prop :=
  ∃ verification ∈ verifications, verification.userId = userId ∧ verification.status = .approved

/-- The user has one active verification at most, and is verified exactly when it is approved. -/
structure Single (tables : KycTables) (user : User) : Prop where
  unique : ∀ left ∈ tables.verifications, ∀ right ∈ tables.verifications,
    left.userId = user.id → right.userId = user.id → Active left → Active right → left = right
  verified : user.isKycVerified = true ↔ Approved tables.verifications user.id

def Consistent (tables : KycTables) : Prop := ∀ user ∈ tables.users, Single tables user

/-! ## What a commit needs -/

/-- The verifications other than the one that is written. -/
def others (tables : KycTables) (written : KYCVerification) : List KYCVerification :=
  tables.verifications.filter fun verification => decide (verification.id ≠ written.id)

/-- A commit that leaves `written` and gives the user a status: an active verification is alone;
the user's own verification, or another approved one, is approved if and only if the user
becomes verified; and where the verification is another user's, neither the user nor the
verification becomes approved or ceases to be. -/
structure Fits (tables : KycTables) (written : KYCVerification) (userId : Uuid)
    (kycStatus : KYCStatus) : Prop where
  alone : Active written → ∀ other ∈ others tables written, other.userId = written.userId →
    ¬Active other
  own : written.userId = userId →
    (kycStatus = .approved ↔
      written.status = .approved ∨ Approved (others tables written) userId)
  another : written.userId ≠ userId →
    (∀ user ∈ tables.users, user.id = userId →
      (user.isKycVerified = true ↔ kycStatus = .approved)) ∧
    (written.status = .approved ↔ ∃ stored ∈ tables.verifications,
      stored.id = written.id ∧ stored.status = .approved)

def WriteFits (tables : KycTables) (write : Write) : Prop :=
  ∀ written, write.verification tables = some written →
    Fits tables written write.userId write.kycStatus

section Commit

variable {tables : KycTables} {written : KYCVerification} {userId owner : Uuid}
  {kycStatus : KYCStatus} {howner : tables.HasOwner written}

theorem mem_others {verification : KYCVerification} :
    verification ∈ others tables written ↔
      verification ∈ tables.verifications ∧ verification.id ≠ written.id := by
  simp [others]

theorem mem_store {verification : KYCVerification} :
    verification ∈ (tables.store written howner userId kycStatus).verifications ↔
      verification = written ∨ verification ∈ others tables written := by
  rw [mem_others]
  exact mem_saveRow

/-- After the commit, the approved verification is the written one or another one. -/
theorem approved_store_iff :
    Approved (tables.store written howner userId kycStatus).verifications owner ↔
      (written.userId = owner ∧ written.status = .approved) ∨
        Approved (others tables written) owner := by
  constructor
  · rintro ⟨verification, hmem, hboth⟩
    rcases mem_store.mp hmem with rfl | hother
    · exact .inl hboth
    · exact .inr ⟨verification, hother, hboth⟩
  · rintro (hboth | ⟨verification, hother, hboth⟩)
    · exact ⟨written, mem_store.mpr (.inl rfl), hboth⟩
    · exact ⟨verification, mem_store.mpr (.inr hother), hboth⟩

/-- The stored row of the written verification, if there is one, has the same user. -/
def SameOwner (tables : KycTables) (written : KYCVerification) : Prop :=
  ∀ stored ∈ tables.verifications, stored.id = written.id → stored.userId = written.userId

/-- Before the commit, the approved verification is the one that is written or another one. -/
theorem approved_iff (hsame : SameOwner tables written) :
    Approved tables.verifications owner ↔
      (written.userId = owner ∧
        ∃ stored ∈ tables.verifications, stored.id = written.id ∧ stored.status = .approved) ∨
        Approved (others tables written) owner := by
  constructor
  · rintro ⟨verification, hmem, hown, happroved⟩
    by_cases hid : verification.id = written.id
    · exact .inl ⟨(hsame verification hmem hid).symm.trans hown, verification, hmem, hid, happroved⟩
    · exact .inr ⟨verification, mem_others.mpr ⟨hmem, hid⟩, hown, happroved⟩
  · rintro (⟨hown, verification, hmem, hid, happroved⟩ | ⟨verification, hother, hboth⟩)
    · exact ⟨verification, hmem, (hsame verification hmem hid).trans hown, happroved⟩
    · exact ⟨verification, (mem_others.mp hother).1, hboth⟩

theorem approved_others_of_ne (hsame : SameOwner tables written) (hother : written.userId ≠ owner) :
    Approved (others tables written) owner ↔ Approved tables.verifications owner := by
  rw [approved_iff hsame]
  exact (or_iff_right fun hboth => hother hboth.1).symm

/-- The users after the commit. -/
theorem mem_users_store {user : User} :
    user ∈ (tables.store written howner userId kycStatus).users ↔
      ∃ old ∈ tables.users, user = if old.id = userId then
        { old with kycStatus := kycStatus, isKycVerified := decide (kycStatus = .approved) }
        else old := by
  change user ∈ KycTables.updateUser tables.users userId kycStatus ↔ _
  rw [KycTables.updateUser, List.mem_map]
  simp only [eq_comm]

/-- The flag of a user after the commit. -/
def verifiedAfter (userId : Uuid) (kycStatus : KYCStatus) (user : User) : Prop :=
  if user.id = userId then kycStatus = .approved else user.isKycVerified = true

/-- The invariant after the commit, in terms of the tables before it. -/
theorem consistent_store_iff :
    Consistent (tables.store written howner userId kycStatus) ↔
      ∀ user ∈ tables.users,
        (∀ left ∈ (tables.store written howner userId kycStatus).verifications,
          ∀ right ∈ (tables.store written howner userId kycStatus).verifications,
          left.userId = user.id → right.userId = user.id → Active left → Active right →
            left = right) ∧
        (verifiedAfter userId kycStatus user ↔
          (written.userId = user.id ∧ written.status = .approved) ∨
            Approved (others tables written) user.id) := by
  constructor
  · intro hconsistent user hmem
    have hsingle := hconsistent _ (mem_users_store.mpr ⟨user, hmem, rfl⟩)
    have happroved : Approved (tables.store written howner userId kycStatus).verifications
        user.id ↔ _ := approved_store_iff
    rw [verifiedAfter]
    split at hsingle
    · rename_i hid
      refine ⟨hsingle.unique, ?_⟩
      rw [if_pos hid, ← happroved, ← hsingle.verified]
      exact decide_eq_true_iff.symm
    · rename_i hid
      refine ⟨hsingle.unique, ?_⟩
      rw [if_neg hid, ← happroved]
      exact hsingle.verified
  · intro hall user hmem
    obtain ⟨old, hold, rfl⟩ := mem_users_store.mp hmem
    obtain ⟨hunique, hverified⟩ := hall old hold
    rw [verifiedAfter] at hverified
    split
    · rename_i hid
      refine ⟨hunique, ?_⟩
      rw [approved_store_iff, ← hverified, if_pos hid]
      exact decide_eq_true_iff
    · rename_i hid
      refine ⟨hunique, ?_⟩
      rw [approved_store_iff, ← hverified, if_neg hid]

/-- One active verification for a user after the commit. -/
theorem unique_store_iff {user : User} (hsingle : Single tables user) :
    (∀ left ∈ (tables.store written howner userId kycStatus).verifications,
      ∀ right ∈ (tables.store written howner userId kycStatus).verifications,
      left.userId = user.id → right.userId = user.id → Active left → Active right →
        left = right) ↔
      (written.userId = user.id → Active written → ∀ other ∈ others tables written,
        other.userId = written.userId → ¬Active other) := by
  constructor
  · intro hunique hown hactive other hother hsame hotherActive
    have heq := hunique written (mem_store.mpr (.inl rfl)) other (mem_store.mpr (.inr hother)) hown
      (hsame.trans hown) hactive hotherActive
    exact (mem_others.mp hother).2 (congrArg KYCVerification.id heq.symm)
  · intro halone left hleft right hright hleftOwn hrightOwn hleftActive hrightActive
    rcases mem_store.mp hleft with rfl | hleft <;> rcases mem_store.mp hright with rfl | hright
    · rfl
    · exact absurd hrightActive
        (halone hleftOwn hleftActive right hright (hrightOwn.trans hleftOwn.symm))
    · exact absurd hleftActive
        (halone hrightOwn hrightActive left hleft (hleftOwn.trans hrightOwn.symm))
    · exact hsingle.unique left (mem_others.mp hleft).1 right (mem_others.mp hright).1 hleftOwn
        hrightOwn hleftActive hrightActive

theorem active_of_approved {verification : KYCVerification}
    (happroved : verification.status = .approved) : Active verification := by
  rw [Active, happroved]
  decide

/-- Where the written verification is active and alone, no other one is approved. -/
theorem not_approved_of_alone
    (halone : ∀ other ∈ others tables written, other.userId = written.userId → ¬Active other) :
    ¬Approved (others tables written) written.userId := by
  rintro ⟨other, hother, hsame, happroved⟩
  exact halone other hother hsame (active_of_approved happroved)

/-- Where its stored row is approved, no other one is. -/
theorem not_approved_of_stored {user : User} (hsingle : Single tables user)
    (hsame : SameOwner tables written) (hown : written.userId = user.id)
    (hstored : ∃ stored ∈ tables.verifications,
      stored.id = written.id ∧ stored.status = .approved) :
    ¬Approved (others tables written) user.id := by
  rintro ⟨other, hother, hotherOwn, happroved⟩
  obtain ⟨stored, hmem, hid, hstatus⟩ := hstored
  obtain ⟨hotherMem, hotherId⟩ := mem_others.mp hother
  have heq := hsingle.unique stored hmem other hotherMem ((hsame stored hmem hid).trans hown)
    hotherOwn (active_of_approved hstatus) (active_of_approved happroved)
  exact hotherId (heq ▸ hid)

theorem fits_of_consistent_store (hsame : SameOwner tables written)
    (hconsistent : Consistent tables)
    (hafter : Consistent (tables.store written howner userId kycStatus)) :
    Fits tables written userId kycStatus := by
  have hall := consistent_store_iff.mp hafter
  obtain ⟨owner, hmem, hid⟩ := id howner
  obtain ⟨hunique, hverified⟩ := hall owner hmem
  have halone := (unique_store_iff (hconsistent owner hmem)).mp hunique hid.symm
  refine ⟨halone, fun hown => ?_, fun hother => ⟨fun user huser hsameUser => ?_, ?_⟩⟩
  · rw [verifiedAfter, if_pos (hid.trans hown), hid, hown] at hverified
    simpa using hverified
  · have hothers : written.userId ≠ user.id := fun heq => hother (heq.trans hsameUser)
    have huserVerified := (hall user huser).2
    rw [verifiedAfter, if_pos hsameUser, or_iff_right fun hboth => hothers hboth.1,
      approved_others_of_ne hsame hothers, ← (hconsistent user huser).verified] at huserVerified
    exact huserVerified.symm
  · -- The owner's flag stays, and no other approved verification can stand in for it.
    rw [verifiedAfter, if_neg fun heq => hother (hid.symm.trans heq),
      (hconsistent owner hmem).verified, approved_iff hsame] at hverified
    constructor
    · intro hwritten
      have hnone := not_approved_of_alone (halone (active_of_approved hwritten))
      rw [← hid] at hnone
      exact ((or_iff_left hnone).mp (hverified.mpr (.inl ⟨hid.symm, hwritten⟩))).2
    · intro hstored
      have hnone := not_approved_of_stored (hconsistent owner hmem) hsame hid.symm hstored
      exact ((or_iff_left hnone).mp (hverified.mp (.inl ⟨hid.symm, hstored⟩))).2

theorem consistent_store_of_fits (hsame : SameOwner tables written)
    (hconsistent : Consistent tables) (hfits : Fits tables written userId kycStatus) :
    Consistent (tables.store written howner userId kycStatus) := by
  refine consistent_store_iff.mpr fun user hmem =>
    ⟨(unique_store_iff (hconsistent user hmem)).mpr fun _ => hfits.alone, ?_⟩
  have hbefore := (hconsistent user hmem).verified
  rw [verifiedAfter]
  by_cases hwritten : written.userId = user.id
  · by_cases huser : user.id = userId
    · rw [if_pos huser, hfits.own (hwritten.trans huser), ← huser]
      simp [hwritten]
    · have hstored := (hfits.another fun heq => huser (hwritten.symm.trans heq)).2
      rw [if_neg huser, hbefore, approved_iff hsame, hstored]
  · rw [or_iff_right fun hboth => hwritten hboth.1, approved_others_of_ne hsame hwritten,
      ← hbefore]
    split
    · rename_i huser
      exact ((hfits.another fun heq => hwritten (heq.trans huser.symm)).1 user hmem huser).symm
    · exact Iff.rfl

theorem sameOwner_of_verification {write : Write}
    (hwritten : write.verification tables = some written) : SameOwner tables written := by
  intro stored hmem hid
  have hfind := findRow_of_mem tables.uniqueVerifications hmem
  rw [hid] at hfind
  rw [Write.verification] at hwritten
  split at hwritten
  · split at hwritten
    · cases hwritten
    · rename_i hfresh
      obtain rfl := Option.some.inj hwritten
      rw [KycTables.findVerification, hfind] at hfresh
      exact absurd rfl hfresh
  · rename_i wanted changes _
    obtain ⟨old, hold, rfl⟩ := Option.map_eq_some_iff.mp hwritten
    rw [Changes.applied_id] at hfind
    have hkey : old.id = wanted := by simpa using List.find?_some hold
    rw [hkey] at hfind
    obtain rfl := Option.some.inj (hfind.symm.trans hold)
    rfl

/-- A commit keeps the invariant exactly when it fits. -/
theorem consistent_applyWrite_iff {next : KycTables} {write : Write}
    (happly : applyWrite write tables = some next) (hconsistent : Consistent tables) :
    Consistent next ↔ WriteFits tables write := by
  obtain ⟨written, hwritten, hstore⟩ := Option.bind_eq_some_iff.mp happly
  split at hstore
  · obtain rfl := Option.some.inj hstore
    have hsame := sameOwner_of_verification hwritten
    constructor
    · intro hafter other hother
      obtain rfl := Option.some.inj (hwritten.symm.trans hother)
      exact fits_of_consistent_store hsame hconsistent hafter
    · intro hfits
      exact consistent_store_of_fits hsame hconsistent (hfits written hwritten)
  · cases hstore

end Commit

/-- User 1 has no verification yet. -/
def newUser : KycTables :=
  { users := [⟨⟨1, .pending, false⟩, "GUSER"⟩]
    verifications := []
    uniqueVerifications := List.nodup_nil
    owned := nofun }

theorem newUser_consistent : Consistent newUser := by
  intro user hmem
  obtain rfl := List.mem_singleton.mp hmem
  exact ⟨nofun, nofun, fun ⟨_, hnone, _⟩ => absurd hnone List.not_mem_nil⟩

def submission (id : Uuid) : KycOperation :=
  .submitKycVerification ⟨0, id⟩ (.uuid 1) none none

def pendingVerification (id : Uuid) : KYCVerification :=
  ⟨id, 1, .identity, .pending, none, none, none⟩

/-- The verification 7 of user 1 is pending. -/
def submittedOnce : KycTables :=
  { users := newUser.users
    verifications := [pendingVerification 7]
    uniqueVerifications := List.nodup_singleton _
    owned := by decide }

def firstSubmission : List KycEvent := [.start 0 (submission 7), .query 0 newUser, .commit 0]

def secondSubmission : List KycEvent :=
  [.start 1 (submission 8), .query 1 submittedOnce, .commit 1]

end StellarSettle.SingleVerification
