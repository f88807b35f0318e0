import StellarSettle.Auth.AuthService
import StellarSettle.Auth.LruCache
import StellarSettle.Kyc.KycWebhook

/-!
# The current user

A request with a valid token is answered from the cache, or awaits the lookup of its wallet, which
requests of one wallet share.  What a lookup found is set in the cache when a request goes on, and a
login sets what it found as well.  An answer is never older than the last time when nothing of the
wallet was in flight or cached for longer.
-/

namespace StellarSettle.CurrentUser

open StellarSettle.AuthService (UserType)
open StellarSettle.Entities (Timestamp Uuid)
open StellarSettle.EventReader (trimText)
open StellarSettle.InsertionOrder
open StellarSettle.KycWebhook (KYCStatus)
open StellarSettle.LruCache (Cache)
open StellarSettle.TransitionSystem

/-! ## Data -/

structure User where
  id : Uuid
  stellarAddress : String
  email : Option String
  userType : UserType
  kycStatus : KYCStatus
  isKycVerified : Bool
  isSuspended : Bool
  suspendedAt : Option Timestamp
  suspensionReason : Option String
  createdAt : Timestamp
  updatedAt : Timestamp

structure PublicUser where
  id : Uuid
  stellarAddress : String
  email : Option String
  userType : UserType
  kycStatus : KYCStatus
  isKycVerified : Bool
  isSuspended : Bool
  createdAt : Timestamp
  updatedAt : Timestamp

def toPublicUser (user : User) : PublicUser :=
  { id := user.id
    stellarAddress := user.stellarAddress
    email := user.email
    userType := user.userType
    kycStatus := user.kycStatus
    isKycVerified := user.isKycVerified
    isSuspended := user.isSuspended
    createdAt := user.createdAt
    updatedAt := user.updatedAt }

/-- How far a lookup has come.  It is settled with nothing where its query failed. -/
inductive LookupStage where
  | finding
  | found (user : Option User)
  | settled (answer : Option (Option User))

/-- A promise of `fetchUserWithSingleFlight`. -/
structure Lookup where
  sub : String
  stage : LookupStage

inductive CallStage (Index : Type) where
  | awaiting (joined : Index)
  | loggingIn (user : User)
  | returned (user : PublicUser)
  | failed (status : ℕ)

/-- A request, or a login, of a wallet. -/
structure Call (Index : Type) where
  sub : String
  stage : CallStage Index

structure UserSystem (Index : Type) where
  users : String → Option User
  userCache : Cache String PublicUser
  lookups : Index → Option Lookup
  userLookupInflight : String → Option Index
  calls : Index → Option (Call Index)

inductive UserEvent (Index : Type) where
  | write (stellarAddress : String) (user : Option User)
  | getCurrentUser (index : Index) (sub : String) (now : Timestamp)
  | find (index : Index)
  | findFails (index : Index)
  | settle (index : Index)
  | resume (index : Index) (now : Timestamp)
  | login (index : Index) (sub : String)
  | finishLogin (index : Index) (now : Timestamp)
  | invalidateUserCache (stellarAddress : Option String)

/-! ## Steps -/

def userCacheSize : ℕ := 2000

section Steps

variable {Index : Type} [DecidableEq Index] (userCacheTtlMs : ℤ)

namespace UserSystem

def setCall (system : UserSystem Index) (index : Index) (sub : String) (stage : CallStage Index) :
    UserSystem Index :=
  { system with calls := setProcess system.calls index (some ⟨sub, stage⟩) }

def setLookup (system : UserSystem Index) (index : Index) (sub : String) (stage : LookupStage) :
    UserSystem Index :=
  { system with lookups := setProcess system.lookups index (some ⟨sub, stage⟩) }

/-- A new promise is in flight for its wallet. -/
def startLookup (system : UserSystem Index) (index : Index) (sub : String) : UserSystem Index :=
  { system.setLookup index sub .finding with
    userLookupInflight := setProcess system.userLookupInflight sub (some index) }

/-- A promise that settles is no longer in flight. -/
def settleLookup (system : UserSystem Index) (index : Index) (sub : String)
    (answer : Option (Option User)) : UserSystem Index :=
  { system.setLookup index sub (.settled answer) with
    userLookupInflight := setProcess system.userLookupInflight sub none }

/-- A call sets what it found in the cache, and returns it. -/
def returnUser (system : UserSystem Index) (index : Index) (sub : String) (user : User)
    (now : Timestamp) : UserSystem Index :=
  { system with
    userCache := LruCache.set userCacheSize system.userCache sub (toPublicUser user) userCacheTtlMs
      now }.setCall index sub (.returned (toPublicUser user))

/-- A request that the cache does not answer joins the lookup in flight, or starts its own. -/
def fetchUserWithSingleFlight (system : UserSystem Index) (index : Index) (sub : String) :
    UserSystem Index :=
  match system.userLookupInflight sub with
  | some joined => system.setCall index sub (.awaiting joined)
  | none => (system.startLookup index sub).setCall index sub (.awaiting index)

def getCurrentUser (system : UserSystem Index) (index : Index) (sub : String) (now : Timestamp) :
    UserSystem Index :=
  match LruCache.get system.userCache sub now with
  | (some user, userCache) =>
      { system with userCache := userCache }.setCall index sub (.returned user)
  | (none, userCache) =>
      { system with userCache := userCache }.fetchUserWithSingleFlight index sub

/-- What a request does once its lookup has settled. -/
def resume (system : UserSystem Index) (index : Index) (sub : String) (now : Timestamp) :
    Option (Option User) → UserSystem Index
  | some (some user) => system.returnUser userCacheTtlMs index sub user now
  | some none => system.setCall index sub (.failed 401)
  | none => system.setCall index sub (.failed 500)

def invalidateUserCache (system : UserSystem Index) (stellarAddress : Option String) :
    UserSystem Index :=
  match stellarAddress with
  | some address =>
      if address = "" then { system with userCache := .empty }
      else { system with userCache := system.userCache.delete (trimText address) }
  | none => { system with userCache := .empty }

end UserSystem

def step (system : UserSystem Index) : UserEvent Index → Option (UserSystem Index)
  | .write stellarAddress user =>
      some { system with users := setProcess system.users stellarAddress user }
  | .getCurrentUser index sub now =>
      match system.calls index, system.lookups index with
      | none, none => some (system.getCurrentUser index sub now)
      | _, _ => none
  | .find index =>
      match system.lookups index with
      | some ⟨sub, .finding⟩ => some (system.setLookup index sub (.found (system.users sub)))
      | _ => none
  | .findFails index =>
      match system.lookups index with
      | some ⟨sub, .finding⟩ => some (system.settleLookup index sub none)
      | _ => none
  | .settle index =>
      match system.lookups index with
      | some ⟨sub, .found user⟩ => some (system.settleLookup index sub (some user))
      | _ => none
  | .resume index now =>
      match system.calls index with
      | some ⟨sub, .awaiting joined⟩ =>
          match system.lookups joined with
          | some ⟨_, .settled answer⟩ => some (system.resume userCacheTtlMs index sub now answer)
          | _ => none
      | _ => none
  | .login index sub =>
      match system.calls index, system.lookups index, system.users sub with
      | none, none, some user => some (system.setCall index sub (.loggingIn user))
      | _, _, _ => none
  | .finishLogin index now =>
      match system.calls index with
      | some ⟨sub, .loggingIn user⟩ => some (system.returnUser userCacheTtlMs index sub user now)
      | _ => none
  | .invalidateUserCache stellarAddress => some (system.invalidateUserCache stellarAddress)

/-- What a step does, and when. -/
inductive Moves (system : UserSystem Index) : UserEvent Index → UserSystem Index → Prop
  | write (stellarAddress : String) (user : Option User) :
      Moves system (.write stellarAddress user)
        { system with users := setProcess system.users stellarAddress user }
  | getCurrentUser {index : Index} {sub : String} {now : Timestamp}
      (hcall : system.calls index = none) (hnew : system.lookups index = none) :
      Moves system (.getCurrentUser index sub now) (system.getCurrentUser index sub now)
  | find {index : Index} {sub : String} (hfinding : system.lookups index = some ⟨sub, .finding⟩) :
      Moves system (.find index) (system.setLookup index sub (.found (system.users sub)))
  | findFails {index : Index} {sub : String}
      (hfinding : system.lookups index = some ⟨sub, .finding⟩) :
      Moves system (.findFails index) (system.settleLookup index sub none)
  | settle {index : Index} {sub : String} {user : Option User}
      (hfound : system.lookups index = some ⟨sub, .found user⟩) :
      Moves system (.settle index) (system.settleLookup index sub (some user))
  | resume {index joined : Index} {sub looked : String} {now : Timestamp}
      {answer : Option (Option User)} (hcall : system.calls index = some ⟨sub, .awaiting joined⟩)
      (hanswer : system.lookups joined = some ⟨looked, .settled answer⟩) :
      Moves system (.resume index now) (system.resume userCacheTtlMs index sub now answer)
  | login {index : Index} {sub : String} {user : User} (hcall : system.calls index = none)
      (hnew : system.lookups index = none) (hrow : system.users sub = some user) :
      Moves system (.login index sub) (system.setCall index sub (.loggingIn user))
  | finishLogin {index : Index} {sub : String} {user : User} {now : Timestamp}
      (hcall : system.calls index = some ⟨sub, .loggingIn user⟩) :
      Moves system (.finishLogin index now) (system.returnUser userCacheTtlMs index sub user now)
  | invalidateUserCache (stellarAddress : Option String) :
      Moves system (.invalidateUserCache stellarAddress) (system.invalidateUserCache stellarAddress)

theorem moves_of_step {before after : UserSystem Index} {event : UserEvent Index}
    (hstep : step userCacheTtlMs before event = some after) :
    Moves userCacheTtlMs before event after := by
  cases event with
  | write | invalidateUserCache =>
      obtain rfl := Option.some.inj hstep
      constructor
  | getCurrentUser | find | findFails | settle | login | finishLogin =>
      simp only [step] at hstep
      split at hstep
      · obtain rfl := Option.some.inj hstep
        constructor <;> assumption
      · cases hstep
  | resume index now =>
      simp only [step] at hstep
      split at hstep
      · rename_i hcall
        split at hstep
        · rename_i hanswer
          obtain rfl := Option.some.inj hstep
          exact .resume hcall hanswer
        · cases hstep
      · cases hstep

/-! ## Components -/

section Components

variable (system : UserSystem Index) (index other : Index) (sub otherSub : String)

theorem calls_setCall (stage : CallStage Index) : (system.setCall index sub stage).calls other =
    if other = index then some ⟨sub, stage⟩ else system.calls other :=
  Function.update_apply ..

theorem lookups_setLookup (stage : LookupStage) :
    (system.setLookup index sub stage).lookups other =
      if other = index then some ⟨sub, stage⟩ else system.lookups other :=
  Function.update_apply ..

theorem lookups_startLookup : (system.startLookup index sub).lookups other =
    if other = index then some ⟨sub, .finding⟩ else system.lookups other :=
  Function.update_apply ..

theorem inflight_startLookup : (system.startLookup index sub).userLookupInflight otherSub =
    if otherSub = sub then some index else system.userLookupInflight otherSub :=
  Function.update_apply ..

theorem lookups_settleLookup (answer : Option (Option User)) :
    (system.settleLookup index sub answer).lookups other =
      if other = index then some ⟨sub, .settled answer⟩ else system.lookups other :=
  Function.update_apply ..

theorem inflight_settleLookup (answer : Option (Option User)) :
    (system.settleLookup index sub answer).userLookupInflight otherSub =
      if otherSub = sub then none else system.userLookupInflight otherSub :=
  Function.update_apply ..

end Components

/-! ## Promises -/

/-- The promise is the lookup of the wallet. -/
def LooksUp (lookups : Index → Option Lookup) (index : Index) (sub : String) : Prop :=
  ∃ stage, lookups index = some ⟨sub, stage⟩

def LookupStage.Unsettled : LookupStage → Prop
  | .settled _ => False
  | _ => True

/-- Who awaits a promise awaits the lookup of the wallet, and a lookup that has not settled is the
one in flight for its wallet. -/
structure Coherent (system : UserSystem Index) : Prop where
  awaiting : ∀ index sub joined, system.calls index = some ⟨sub, .awaiting joined⟩ →
    LooksUp system.lookups joined sub
  inflight : ∀ sub joined, system.userLookupInflight sub = some joined →
    LooksUp system.lookups joined sub
  single : ∀ index sub stage, system.lookups index = some ⟨sub, stage⟩ → stage.Unsettled →
    system.userLookupInflight sub = some index

/-- A promise that is new, or that was a lookup of the same wallet, leaves the others. -/
theorem LooksUp.setLookup {system : UserSystem Index} {index other : Index}
    {sub otherSub : String} {stage : LookupStage}
    (hlooks : LooksUp system.lookups other otherSub)
    (hbefore : system.lookups index = none ∨ LooksUp system.lookups index sub) :
    LooksUp (system.setLookup index sub stage).lookups other otherSub := by
  obtain ⟨found, hfound⟩ := hlooks
  rw [LooksUp, lookups_setLookup]
  by_cases hsame : other = index
  · subst hsame
    rcases hbefore with hnone | ⟨before, hbefore⟩
    · rw [hnone] at hfound
      cases hfound
    · obtain ⟨rfl, -⟩ := Lookup.mk.inj (Option.some.inj (hbefore.symm.trans hfound))
      exact ⟨stage, if_pos rfl⟩
  · exact ⟨found, (if_neg hsame).trans hfound⟩

namespace Coherent

variable {system : UserSystem Index} {index : Index} {sub : String}

omit [DecidableEq Index] in
theorem withCache (hcoherent : Coherent system) (userCache : Cache String PublicUser) :
    Coherent { system with userCache := userCache } :=
  ⟨hcoherent.awaiting, hcoherent.inflight, hcoherent.single⟩

theorem setCall {stage : CallStage Index} (hcoherent : Coherent system)
    (hstage : ∀ joined, stage = .awaiting joined → LooksUp system.lookups joined sub) :
    Coherent (system.setCall index sub stage) where
  inflight := hcoherent.inflight
  single := hcoherent.single
  awaiting other otherSub joined hcall := by
    rw [calls_setCall] at hcall
    split at hcall
    · obtain ⟨rfl, hawaiting⟩ := Call.mk.inj (Option.some.inj hcall)
      exact hstage joined hawaiting
    · exact hcoherent.awaiting other otherSub joined hcall

theorem found {user : Option User} (hbefore : system.lookups index = some ⟨sub, .finding⟩)
    (hcoherent : Coherent system) : Coherent (system.setLookup index sub (.found user)) where
  awaiting other otherSub joined hcall :=
    (hcoherent.awaiting other otherSub joined hcall).setLookup (.inr ⟨_, hbefore⟩)
  inflight otherSub joined hjoined :=
    (hcoherent.inflight otherSub joined hjoined).setLookup (.inr ⟨_, hbefore⟩)
  single other otherSub stage hlookup hunsettled := by
    rw [lookups_setLookup] at hlookup
    split at hlookup
    · rename_i hsame
      obtain ⟨rfl, -⟩ := Lookup.mk.inj (Option.some.inj hlookup)
      exact hsame ▸ hcoherent.single index sub .finding hbefore trivial
    · exact hcoherent.single other otherSub stage hlookup hunsettled

theorem settleLookup {before : LookupStage} {answer : Option (Option User)}
    (hbefore : system.lookups index = some ⟨sub, before⟩) (hunsettled : before.Unsettled)
    (hcoherent : Coherent system) : Coherent (system.settleLookup index sub answer) where
  awaiting other otherSub joined hcall :=
    (hcoherent.awaiting other otherSub joined hcall).setLookup (.inr ⟨_, hbefore⟩)
  inflight otherSub joined hjoined := by
    rw [inflight_settleLookup] at hjoined
    split at hjoined
    · cases hjoined
    · exact (hcoherent.inflight otherSub joined hjoined).setLookup (.inr ⟨_, hbefore⟩)
  single other otherSub stage hlookup hstage := by
    rw [lookups_settleLookup] at hlookup
    split at hlookup
    · obtain ⟨-, rfl⟩ := Lookup.mk.inj (Option.some.inj hlookup)
      cases hstage
    · rename_i hother
      have hinflight := hcoherent.single other otherSub stage hlookup hstage
      rw [inflight_settleLookup, if_neg]
      · exact hinflight
      · rintro rfl
        have hown := hcoherent.single index otherSub before hbefore hunsettled
        exact hother (Option.some.inj (hinflight.symm.trans hown))

theorem startLookup (hnew : system.lookups index = none)
    (hnone : system.userLookupInflight sub = none) (hcoherent : Coherent system) :
    Coherent (system.startLookup index sub) where
  awaiting other otherSub joined hcall :=
    (hcoherent.awaiting other otherSub joined hcall).setLookup (.inl hnew)
  inflight otherSub joined hjoined := by
    rw [inflight_startLookup] at hjoined
    split at hjoined
    · rename_i hsame
      exact ⟨.finding, by rw [lookups_startLookup, if_pos (Option.some.inj hjoined).symm, hsame]⟩
    · exact (hcoherent.inflight otherSub joined hjoined).setLookup (.inl hnew)
  single other otherSub stage hlookup hstage := by
    rw [lookups_startLookup] at hlookup
    rw [inflight_startLookup]
    split at hlookup
    · rename_i hsame
      obtain ⟨rfl, -⟩ := Lookup.mk.inj (Option.some.inj hlookup)
      rw [if_pos rfl, hsame]
    · have hinflight := hcoherent.single other otherSub stage hlookup hstage
      rw [if_neg]
      · exact hinflight
      · rintro rfl
        rw [hnone] at hinflight
        cases hinflight

theorem fetchUserWithSingleFlight (sub : String) (hnew : system.lookups index = none)
    (hcoherent : Coherent system) : Coherent (system.fetchUserWithSingleFlight index sub) := by
  unfold UserSystem.fetchUserWithSingleFlight
  split
  · rename_i joined hjoined
    apply hcoherent.setCall
    rintro _ ⟨⟩
    exact hcoherent.inflight sub joined hjoined
  · rename_i hnone
    apply (hcoherent.startLookup hnew hnone).setCall
    rintro _ ⟨⟩
    exact ⟨.finding, by rw [lookups_startLookup, if_pos rfl]⟩

theorem returnUser (hcoherent : Coherent system) (user : User) (now : Timestamp) :
    Coherent (system.returnUser userCacheTtlMs index sub user now) :=
  (hcoherent.withCache _).setCall fun _ hawaiting => nomatch hawaiting

theorem step {after : UserSystem Index} {event : UserEvent Index}
    (hstep : CurrentUser.step userCacheTtlMs system event = some after)
    (hcoherent : Coherent system) : Coherent after := by
  cases moves_of_step userCacheTtlMs hstep with
  | write => exact ⟨hcoherent.awaiting, hcoherent.inflight, hcoherent.single⟩
  | getCurrentUser _ hnew =>
      unfold UserSystem.getCurrentUser
      split
      · exact (hcoherent.withCache _).setCall fun _ hawaiting => nomatch hawaiting
      · exact (hcoherent.withCache _).fetchUserWithSingleFlight _ hnew
  | find hfinding => exact hcoherent.found hfinding
  | findFails hfinding => exact hcoherent.settleLookup hfinding trivial
  | settle hfound => exact hcoherent.settleLookup hfound trivial
  | resume =>
      unfold UserSystem.resume
      split
      · exact hcoherent.returnUser userCacheTtlMs _ _
      · exact hcoherent.setCall fun _ hawaiting => nomatch hawaiting
      · exact hcoherent.setCall fun _ hawaiting => nomatch hawaiting
  | login => exact hcoherent.setCall fun _ hawaiting => nomatch hawaiting
  | finishLogin => exact hcoherent.returnUser userCacheTtlMs _ _
  | invalidateUserCache =>
      unfold UserSystem.invalidateUserCache
      split
      · split <;> exact hcoherent.withCache _
      · exact hcoherent.withCache _

end Coherent

/-! ## Freshness -/

section Freshness

variable (wanted : Option User → Prop) (sub : String) (deadline : Timestamp)
  (first : UserSystem Index)

/-- A profile of a row that is wanted. -/
def Shows (user : PublicUser) : Prop := ∃ row, wanted (some row) ∧ user = toPublicUser row

/-- What a lookup has found is wanted. -/
def FindsWanted : LookupStage → Prop
  | .finding => True
  | .found user => wanted user
  | .settled (some user) => wanted user
  | .settled none => True

/-- A call awaits a promise that is new, or has what is wanted. -/
def CallsWanted : CallStage Index → Prop
  | .awaiting joined => first.lookups joined = none
  | .loggingIn user => wanted (some user)
  | .returned user => Shows wanted user
  | .failed _ => True

def CallStage.Done : CallStage Index → Prop
  | .returned _ => True
  | .failed _ => True
  | _ => False

/-- What a wallet's row is, and all that was found of it since, is wanted; what the cache had before
expires by the deadline. -/
structure Fresh (system : UserSystem Index) : Prop where
  row : wanted (system.users sub)
  cache : ∀ entry, (sub, entry) ∈ system.userCache.entries →
    Shows wanted entry.value ∨ entry.expiresAt ≤ deadline
  lookups : ∀ index stage, system.lookups index = some ⟨sub, stage⟩ →
    first.lookups index = none → FindsWanted wanted stage
  inflight : ∀ joined, system.userLookupInflight sub = some joined → first.lookups joined = none
  calls : ∀ index stage, system.calls index = some ⟨sub, stage⟩ →
    CallsWanted wanted first stage ∨ (first.calls index ≠ none ∧ stage.Done)
  kept : ∀ index, system.lookups index = none → first.lookups index = none

variable {wanted sub deadline first} {system : UserSystem Index} {index : Index} {moved : String}

namespace Fresh

omit [DecidableEq Index] in
theorem withCache {userCache : Cache String PublicUser}
    (hfresh : Fresh wanted sub deadline first system)
    (hcache : ∀ entry, (sub, entry) ∈ userCache.entries →
      (sub, entry) ∈ system.userCache.entries ∨ Shows wanted entry.value) :
    Fresh wanted sub deadline first { system with userCache := userCache } where
  row := hfresh.row
  cache entry hentry := (hcache entry hentry).elim (hfresh.cache entry) .inl
  lookups := hfresh.lookups
  inflight := hfresh.inflight
  calls := hfresh.calls
  kept := hfresh.kept

theorem setCall {stage : CallStage Index} (hfresh : Fresh wanted sub deadline first system)
    (hstage : moved = sub → CallsWanted wanted first stage) :
    Fresh wanted sub deadline first (system.setCall index moved stage) where
  row := hfresh.row
  cache := hfresh.cache
  lookups := hfresh.lookups
  inflight := hfresh.inflight
  kept := hfresh.kept
  calls other otherStage hcall := by
    rw [calls_setCall] at hcall
    split at hcall
    · obtain ⟨rfl, rfl⟩ := Call.mk.inj (Option.some.inj hcall)
      exact .inl (hstage rfl)
    · exact hfresh.calls other otherStage hcall

theorem found {stage : LookupStage} (hfresh : Fresh wanted sub deadline first system)
    (hstage : moved = sub → first.lookups index = none → FindsWanted wanted stage) :
    Fresh wanted sub deadline first (system.setLookup index moved stage) where
  row := hfresh.row
  cache := hfresh.cache
  inflight := hfresh.inflight
  calls := hfresh.calls
  lookups other otherStage hlookup hnew := by
    rw [lookups_setLookup] at hlookup
    split at hlookup
    · rename_i hsame
      obtain ⟨rfl, rfl⟩ := Lookup.mk.inj (Option.some.inj hlookup)
      exact hstage rfl (hsame ▸ hnew)
    · exact hfresh.lookups other otherStage hlookup hnew
  kept other hnone := by
    rw [lookups_setLookup] at hnone
    split at hnone
    · cases hnone
    · exact hfresh.kept other hnone

omit [DecidableEq Index] in
theorem withInflight {joined : Option Index} (hfresh : Fresh wanted sub deadline first system)
    (hjoined : moved = sub → ∀ promise, joined = some promise → first.lookups promise = none) :
    Fresh wanted sub deadline first
      { system with userLookupInflight := setProcess system.userLookupInflight moved joined } where
  row := hfresh.row
  cache := hfresh.cache
  lookups := hfresh.lookups
  calls := hfresh.calls
  kept := hfresh.kept
  inflight promise hpromise := by
    change setProcess system.userLookupInflight moved joined sub = some promise at hpromise
    rw [setProcess, Function.update_apply] at hpromise
    split at hpromise
    · rename_i hsame
      exact hjoined hsame.symm promise hpromise
    · exact hfresh.inflight promise hpromise

theorem startLookup (moved : String) (hnew : system.lookups index = none)
    (hfresh : Fresh wanted sub deadline first system) :
    Fresh wanted sub deadline first (system.startLookup index moved) := by
  have hfinding : FindsWanted wanted .finding := trivial
  apply (hfresh.found fun _ _ => hfinding).withInflight
  rintro - _ ⟨⟩
  exact hfresh.kept index hnew

theorem fetchUserWithSingleFlight (moved : String) (hnew : system.lookups index = none)
    (hfresh : Fresh wanted sub deadline first system) :
    Fresh wanted sub deadline first (system.fetchUserWithSingleFlight index moved) := by
  unfold UserSystem.fetchUserWithSingleFlight
  split
  · rename_i joined hjoined
    apply hfresh.setCall
    rintro rfl
    exact hfresh.inflight joined hjoined
  · exact (hfresh.startLookup moved hnew).setCall fun _ => hfresh.kept index hnew

/-- A request that the cache answers is answered with what is wanted, as what was there before has
expired. -/
theorem getCurrentUser {now : Timestamp} (hlate : moved = sub → deadline < now)
    (hnew : system.lookups index = none) (hfresh : Fresh wanted sub deadline first system) :
    Fresh wanted sub deadline first (system.getCurrentUser index moved now) := by
  have hcache : ∀ entry,
      (sub, entry) ∈ (LruCache.get system.userCache moved now).2.entries →
        (sub, entry) ∈ system.userCache.entries ∨ Shows wanted entry.value := by
    intro entry hentry
    let call : LruCache.Call String PublicUser := ⟨.get moved, now⟩
    have hstep : (sub, entry) ∈
        (LruCache.step userCacheSize system.userCache call).entries := hentry
    rcases LruCache.mem_step hstep with hold | ⟨_, hset, -⟩
    · exact .inl hold.1
    · cases hset
  unfold UserSystem.getCurrentUser
  split
  · rename_i user userCache hget
    rw [hget] at hcache
    apply (hfresh.withCache hcache).setCall
    rintro rfl
    obtain ⟨entry, hfound, hlive, rfl⟩ := LruCache.exists_entry_of_get (congrArg Prod.fst hget)
    exact (hfresh.cache entry hfound).resolve_right fun hexpires =>
      absurd (hexpires.trans_lt ((hlate rfl).trans_le hlive)) (lt_irrefl _)
  · rename_i userCache hget
    rw [hget] at hcache
    exact (hfresh.withCache hcache).fetchUserWithSingleFlight moved hnew

theorem returnUser {user : User} {now : Timestamp}
    (hfresh : Fresh wanted sub deadline first system) (huser : moved = sub → wanted (some user)) :
    Fresh wanted sub deadline first (system.returnUser userCacheTtlMs index moved user now) := by
  have hcache : ∀ entry, (sub, entry) ∈ (LruCache.set userCacheSize system.userCache moved
      (toPublicUser user) userCacheTtlMs now).entries →
        (sub, entry) ∈ system.userCache.entries ∨ Shows wanted entry.value := by
    intro entry hentry
    let call : LruCache.Call String PublicUser :=
      ⟨.set moved (toPublicUser user) userCacheTtlMs, now⟩
    have hstep : (sub, entry) ∈
        (LruCache.step userCacheSize system.userCache call).entries := hentry
    rcases LruCache.mem_step hstep with hold | ⟨_, hset, -⟩
    · exact .inl hold.1
    · injection hset with hsub hvalue
      exact .inr ⟨user, huser hsub, hvalue.symm⟩
  exact (hfresh.withCache hcache).setCall fun hsub => ⟨user, huser hsub, rfl⟩

end Fresh

/-- The events of a run: the row of the wallet stays wanted, and its requests come after the
deadline. -/
def Within (wanted : Option User → Prop) (sub : String) (deadline : Timestamp) :
    UserEvent Index → Prop
  | .write stellarAddress user => stellarAddress = sub → wanted user
  | .getCurrentUser _ requested now => requested = sub → deadline < now
  | _ => True

theorem Fresh.step {before after : UserSystem Index} {event : UserEvent Index}
    (hwithin : Within wanted sub deadline event)
    (hstep : CurrentUser.step userCacheTtlMs before event = some after)
    (hcoherent : Coherent before) (hfresh : Fresh wanted sub deadline first before) :
    Fresh wanted sub deadline first after := by
  cases moves_of_step userCacheTtlMs hstep with
  | write stellarAddress user =>
      refine ⟨?_, hfresh.cache, hfresh.lookups, hfresh.inflight, hfresh.calls, hfresh.kept⟩
      change wanted (setProcess before.users stellarAddress user sub)
      rw [setProcess, Function.update_apply]
      split
      · rename_i hsame
        exact hwithin hsame.symm
      · exact hfresh.row
  | getCurrentUser _ hnew => exact hfresh.getCurrentUser hwithin hnew
  | find =>
      apply hfresh.found
      rintro rfl -
      exact hfresh.row
  | findFails =>
      have hnothing : FindsWanted wanted (.settled none) := trivial
      exact (hfresh.found fun _ _ => hnothing).withInflight fun _ _ hjoined => nomatch hjoined
  | @settle _ _ user hfound =>
      refine (hfresh.found ?_).withInflight fun _ _ hjoined => nomatch hjoined
      rintro rfl hnew
      have hwanted : FindsWanted wanted (.found user) := hfresh.lookups _ _ hfound hnew
      exact hwanted
  | @resume _ joined called _ _ answer hcall hanswer =>
      have hwanted : called = sub → FindsWanted wanted (.settled answer) := by
        rintro rfl
        obtain ⟨stage, hstage⟩ := hcoherent.awaiting _ called joined hcall
        obtain ⟨rfl, -⟩ := Lookup.mk.inj (Option.some.inj (hanswer.symm.trans hstage))
        rcases hfresh.calls _ _ hcall with hnew | ⟨-, hdone⟩
        · exact hfresh.lookups joined _ hanswer hnew
        · cases hdone
      unfold UserSystem.resume
      split
      · exact hfresh.returnUser userCacheTtlMs hwanted
      · exact hfresh.setCall fun _ => trivial
      · exact hfresh.setCall fun _ => trivial
  | @login _ _ user _ _ hrow =>
      apply hfresh.setCall
      rintro rfl
      change wanted (some user)
      rw [← hrow]
      exact hfresh.row
  | finishLogin hcall =>
      apply hfresh.returnUser userCacheTtlMs
      rintro rfl
      rcases hfresh.calls _ _ hcall with hwanted | ⟨-, hdone⟩
      · exact hwanted
      · cases hdone
  | invalidateUserCache =>
      have hempty : Fresh wanted sub deadline first { before with userCache := .empty } :=
        hfresh.withCache fun _ hentry => nomatch hentry
      unfold UserSystem.invalidateUserCache
      split
      · split
        · exact hempty
        · exact hfresh.withCache fun _ hentry => .inl (InsertionMap.mem_delete.mp hentry).1
      · exact hempty

end Freshness

/-! ## Runs -/

/-- Before any request. -/
def UserSystem.initial (users : String → Option User) : UserSystem Index where
  users := users
  userCache := .empty
  lookups _ := none
  userLookupInflight _ := none
  calls _ := none

omit [DecidableEq Index] in
theorem coherent_initial (users : String → Option User) :
    Coherent (UserSystem.initial users : UserSystem Index) where
  awaiting _ _ _ hcall := nomatch hcall
  inflight _ _ hjoined := nomatch hjoined
  single _ _ _ hlookup := nomatch hlookup

/-- Nothing of a wallet is in flight. -/
structure Quiet (system : UserSystem Index) (sub : String) : Prop where
  inflight : system.userLookupInflight sub = none
  done : ∀ index stage, system.calls index = some ⟨sub, stage⟩ → stage.Done

end Steps

end StellarSettle.CurrentUser
