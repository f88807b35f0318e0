import StellarSettle.Core.ReadThroughCache
import StellarSettle.Core.TextPatterns
import StellarSettle.Projections.Contributions

/-!
# The caches of the read models

The dividend, royalty and subscription services answer a query from their cache, or load
rows, store the view and register its key under the wallet or the key it belongs to.  An
event records its rows and then deletes the views registered under the owners it names; the
rows of a subscription are on the chain before its event is handled.  The caches are those
of one process, without a Redis client.
-/

namespace StellarSettle.ReadModelCaches

open StellarSettle.Amounts
open StellarSettle.ContractEventBus
open StellarSettle.Contributions (parseInteger)
open StellarSettle.DividendDistribution (Allocation Claim Tables readIssuer readClaim)
open StellarSettle.EventReader
open StellarSettle.ReadThroughCache
open StellarSettle.Recording
open StellarSettle.RoyaltyEarnings (RoyaltyEvent readRoyaltyPaid)
open StellarSettle.TextPatterns (splitsAt not_mem_toString toString_injective)
open StellarSettle.TransitionSystem

/-! ## The read models -/

inductive ReadModel where
  | dividends
  | royalties
  | subscriptions
  deriving DecidableEq, Repr

/-- The views of a wallet. -/
inductive DividendView where
  | claimable
  | summary
  | claims (limit : ℕ) (cursor : String)
  deriving DecidableEq, Repr

/-- The views of a creator. -/
inductive RoyaltyView where
  | earnings (pageSize : ℕ)
  | history (limit : ℕ) (cursor : String)
  deriving DecidableEq, Repr

/-- The status of one wallet for a key. -/
structure StatusView where
  wallet : String
  deriving DecidableEq, Repr

def ReadModel.View : ReadModel → Type
  | .dividends => DividendView
  | .royalties => RoyaltyView
  | .subscriptions => StatusView

instance (model : ReadModel) : DecidableEq model.View := by
  cases model <;> unfold ReadModel.View <;> infer_instance

/-- The key under which a view is stored. -/
def cacheKey : (model : ReadModel) → (owner : String) → model.View → String
  | .dividends, wallet, .claimable => "claimable" ++ ":" ++ wallet
  | .dividends, wallet, .summary => "summary" ++ ":" ++ wallet
  | .dividends, wallet, .claims limit cursor =>
      "claims" ++ ":" ++ (wallet ++ ":" ++ (toString limit ++ ":" ++ cursor))
  | .royalties, creatorWallet, .earnings pageSize =>
      "earnings" ++ ":" ++ (creatorWallet ++ ":" ++ toString pageSize)
  | .royalties, creatorWallet, .history limit cursor =>
      "history" ++ ":" ++ (creatorWallet ++ ":" ++ (toString limit ++ ":" ++ cursor))
  | .subscriptions, keyId, ⟨wallet⟩ => "status" ++ ":" ++ (wallet ++ ":" ++ keyId)

section Keys

variable {left right leftRest rightRest : String}

/-- A part without a colon ends at the first one. -/
theorem keyPart_injective (hleft : ':' ∉ left.toList) (hright : ':' ∉ right.toList)
    (hsame : left ++ ":" ++ leftRest = right ++ ":" ++ rightRest) :
    left = right ∧ leftRest = rightRest := by
  have hlists := congrArg String.toList hsame
  simp only [String.toList_append, List.append_assoc] at hlists
  obtain ⟨hparts, hrests⟩ := splitsAt hleft hright hlists
  exact ⟨String.toList_inj.mp hparts, String.toList_inj.mp hrests⟩

theorem colon_not_mem_toString (number : ℕ) : ':' ∉ (toString number).toList :=
  not_mem_toString (by decide) number

/-- The views that a limit and a cursor ask for. -/
theorem pageKey_injective {leftLimit rightLimit : ℕ}
    (hleft : ':' ∉ left.toList) (hright : ':' ∉ right.toList)
    (hsame : left ++ ":" ++ (toString leftLimit ++ ":" ++ leftRest) =
      right ++ ":" ++ (toString rightLimit ++ ":" ++ rightRest)) :
    left = right ∧ leftLimit = rightLimit ∧ leftRest = rightRest := by
  obtain ⟨howners, hpages⟩ := keyPart_injective hleft hright hsame
  obtain ⟨hlimits, hcursors⟩ := keyPart_injective (colon_not_mem_toString leftLimit)
    (colon_not_mem_toString rightLimit) hpages
  exact ⟨howners, toString_injective hlimits, hcursors⟩

/-- The wallet that a key starts with. -/
def keyWallet : (model : ReadModel) → (owner : String) → model.View → String
  | .dividends, wallet, _ => wallet
  | .royalties, creatorWallet, _ => creatorWallet
  | .subscriptions, _, view => view.wallet

/-- Wallets have no colon, so a key stands for one view of one owner. -/
theorem cacheKey_injective {model : ReadModel} {owner other : String} {view next : model.View}
    (hwallet : ':' ∉ (keyWallet model owner view).toList)
    (hother : ':' ∉ (keyWallet model other next).toList)
    (hsame : cacheKey model owner view = cacheKey model other next) :
    owner = other ∧ view = next := by
  cases model with
  | dividends =>
      cases view <;> cases next <;>
        obtain ⟨hkinds, hrest⟩ := keyPart_injective (by decide) (by decide) hsame
      case claimable.claimable => exact ⟨hrest, rfl⟩
      case summary.summary => exact ⟨hrest, rfl⟩
      case claims.claims =>
        obtain ⟨rfl, rfl, rfl⟩ := pageKey_injective hwallet hother hrest
        exact ⟨rfl, rfl⟩
      all_goals exact absurd hkinds (by decide)
  | royalties =>
      cases view <;> cases next <;>
        obtain ⟨hkinds, hrest⟩ := keyPart_injective (by decide) (by decide) hsame
      case earnings.earnings pageSize nextSize =>
        obtain ⟨rfl, hsizes⟩ := keyPart_injective hwallet hother hrest
        exact ⟨rfl, congrArg RoyaltyView.earnings (toString_injective hsizes)⟩
      case history.history =>
        obtain ⟨rfl, rfl, rfl⟩ := pageKey_injective hwallet hother hrest
        exact ⟨rfl, rfl⟩
      all_goals exact absurd hkinds (by decide)
  | subscriptions =>
      obtain ⟨-, hrest⟩ := keyPart_injective (by decide) (by decide) hsame
      obtain ⟨hwallets, rfl⟩ := keyPart_injective hwallet hother hrest
      exact ⟨rfl, congrArg StatusView.mk hwallets⟩

end Keys

/-! ## Events -/

section Handlers

variable (parse : String → Option DecimalValue)

/-- `handleClaimed` and `handleRoyaltyPaid` record a row of one wallet, and
`handleDistributed` records rows of any; an event that is skipped records nothing. -/
def dividendTarget (delivery : Delivery) : Option (Target String) :=
  if normalizeTopic delivery.event.topic = DividendDistribution.distributedTopic then
    (readIssuer delivery.event).map fun _ => .all
  else if normalizeTopic delivery.event.topic = DividendDistribution.claimedTopic then
    (readClaim parse delivery).map fun claim => .one claim.recipientWallet
  else none

def royaltyClaimedTopic : String := "royalty_claimed"

/-- The creator of a claim with an amount. -/
def readRoyaltyClaim (event : Event) : Option String := do
  let creatorWallet ←
    readEventString event ["creator_wallet", "creatorWallet", "creator", "claimer", "0"] (some 1)
  let _ ← RoyaltyEarnings.readAmount parse event ["amount", "claimed", "claim_amount", "1"]
  return creatorWallet

def royaltyTarget (delivery : Delivery) : Option (Target String) :=
  if normalizeTopic delivery.event.topic = RoyaltyEarnings.royaltyPaidTopic then
    (readRoyaltyPaid parse delivery).map fun royalty => .one royalty.creatorWallet
  else if normalizeTopic delivery.event.topic = royaltyClaimedTopic then
    (readRoyaltyClaim parse delivery.event).map .one
  else none

def holdingChangedTopic : String := "holding_changed"

def keyHoldingChangedTopic : String := "key_holding_changed"

/-- Without a key the event cannot be scoped. -/
def subscriptionTarget (event : Event) : Option (Target String) :=
  if normalizeTopic event.topic ≠ holdingChangedTopic ∧
      normalizeTopic event.topic ≠ keyHoldingChangedTopic then none
  else
    match readEventString event ["key_id", "keyId", "key_address", "keyAddress", "key"] with
    | some keyId => some (.one keyId)
    | none => some .all

/-- The owners whose views an event invalidates; nothing where it is skipped. -/
def ReadModel.target (model : ReadModel) (delivery : Delivery) : Option (Target String) :=
  match model with
  | .dividends => dividendTarget parse delivery
  | .royalties => royaltyTarget parse delivery
  | .subscriptions => subscriptionTarget delivery.event

end Handlers

/-! ## Calls -/

/-- What happens next: a query or an event arrives, or a call goes on.  For a subscription
the event arrives when its change is sent to the chain, and is handled from the step that
invalidates. -/
inductive Action (View : Type) where
  | read (owner : String) (view : View)
  | handle (delivery : Delivery)
  | resume (event : ReadThroughCache.Event String View)

/-- Calls start with a query or an event. -/
def startsCall {View : Type} : ReadThroughCache.Event String View → Bool
  | .startRead _ _ => true
  | .startHandle _ => true
  | _ => false

def step (parse : String → Option DecimalValue) (model : ReadModel)
    (world : World String model.View) : Action model.View → Option (World String model.View)
  | .read owner view => ReadThroughCache.step world (.startRead owner view)
  | .handle delivery =>
      match model.target parse delivery with
      | some target => ReadThroughCache.step world (.startHandle target)
      | none => some world
  | .resume event => if startsCall event then none else ReadThroughCache.step world event

/-- An invalidation begins with no read of its owners on its way from rows of before the
record and no other invalidation of its owners going on, and the registered keys of all
owners are cleared when none of their views is left. -/
def Undisturbed (model : ReadModel) (world : World String model.View) :
    Action model.View → Prop
  | .resume event => Orderly world event
  | _ => True

instance (model : ReadModel) (world : World String model.View) (action : Action model.View) :
    Decidable (Undisturbed model world action) := by
  cases action <;> unfold Undisturbed <;> infer_instance

/-- Every run of a read model is a run of its cache. -/
theorem exists_cacheRun {parse : String → Option DecimalValue} {model : ReadModel}
    {first last : World String model.View} {actions : List (Action model.View)}
    (hrun : GuardedRun (step parse model) (Undisturbed model) first actions last) :
    ∃ events, GuardedRun ReadThroughCache.step Orderly first events last := by
  induction hrun with
  | nil state => exact ⟨[], .nil state⟩
  | @cons before middle after action _ hguard hstep hrest ih =>
      obtain ⟨events, hevents⟩ := ih
      cases action with
      | read owner view => exact ⟨.startRead owner view :: events, .cons trivial hstep hevents⟩
      | handle delivery =>
          simp only [step] at hstep
          split at hstep
          · rename_i target htarget
            exact ⟨.startHandle target :: events, .cons trivial hstep hevents⟩
          · obtain rfl := Option.some.inj hstep
            exact ⟨events, hevents⟩
      | resume event =>
          simp only [step] at hstep
          split at hstep
          · cases hstep
          · exact ⟨event :: events, .cons hguard hstep hevents⟩

/-! ## Reads of settled rows -/

/-- In an undisturbed run of any of the read models, no read returns a cached view of rows
from before an event whose handling had resolved when the read started. -/
theorem reads_settled (parse : String → Option DecimalValue) (model : ReadModel)
    {last : World String model.View} {actions : List (Action model.View)}
    (hrun : GuardedRun (step parse model) (Undisturbed model) initial actions last) :
    ReadsSettled last := by
  obtain ⟨events, hevents⟩ := exists_cacheRun hrun
  exact readsSettled_of_run hevents

/-! ## A view that is stored late -/

/-- An owner, one of its views, and an event that changes it. -/
def sampleOwner : ReadModel → String
  | .dividends => "GHOLDER"
  | .royalties => "GCREATOR"
  | .subscriptions => "CKEY"

def sampleView : (model : ReadModel) → model.View
  | .dividends => .claimable
  | .royalties => .earnings 100
  | .subscriptions => ⟨"GHOLDER"⟩

def sampleEvent (model : ReadModel) : Delivery where
  now := 91
  event :=
    { id := "e1", contractId := "CCONTRACT", ledger := 9, ledgerClosedAt := some 90
      txHash := some "a1b2", topics := []
      topic := match model with
        | .dividends => "dividend_claimed"
        | .royalties => "royalty_paid"
        | .subscriptions => "holding_changed"
      data := .object [("recipient", .string "GHOLDER"), ("creator", .string "GCREATOR"),
        ("key", .string "CKEY"), ("amount", .bigint 5)] }

/-- A read loads its rows, the event is recorded and handled, the read stores its view, and
another read starts. -/
def lateStore (model : ReadModel) : List (Action model.View) :=
  [.read (sampleOwner model) (sampleView model), .resume (.load 0),
    .handle (sampleEvent model), .resume (.record 0), .resume (.invalidate 0),
    .resume (.advance 0), .resume (.store 0), .resume (.remember 0),
    .read (sampleOwner model) (sampleView model)]

/-- The second read returns what the first one computed from the rows before the event. -/
def ReturnsLateView (model : ReadModel) : Prop :=
  ∃ last, Run (step parseInteger model) initial (lateStore model) last ∧ ¬ReadsSettled last

theorem returnsLateView (model : ReadModel) : ReturnsLateView model := by
  have hexec : ((exec (step parseInteger model) initial (lateStore model)).map World.readers) =
      some [.loaded (sampleOwner model) (sampleView model) 0,
        .hit (sampleOwner model) (sampleView model) 1 0] := by
    cases model <;> decide +kernel
  obtain ⟨last, hrun, hreaders⟩ := exists_run hexec
  refine ⟨last, hrun, fun hsettled => ?_⟩
  have hfloor : 1 ≤ 0 := hsettled (sampleOwner model) (sampleView model) 1 0 (by simp [hreaders])
  exact absurd hfloor (by decide)

theorem lateStore_notSettled :
    ReturnsLateView .dividends ∧ ReturnsLateView .royalties ∧ ReturnsLateView .subscriptions :=
  ⟨returnsLateView _, returnsLateView _, returnsLateView _⟩

/-- A view is stored, an event deletes it, the next read loads the new rows, and another
read finds its view. -/
def reloaded (model : ReadModel) : List (Action model.View) :=
  [.read (sampleOwner model) (sampleView model), .resume (.load 0), .resume (.store 0),
    .resume (.remember 0), .handle (sampleEvent model), .resume (.record 0),
    .resume (.invalidate 0), .resume (.advance 0), .resume (.advance 0),
    .read (sampleOwner model) (sampleView model), .resume (.load 1), .resume (.store 1),
    .resume (.remember 1), .read (sampleOwner model) (sampleView model)]

/-- The reads of that run, one of them from the cache. -/
def ReloadedReads (model : ReadModel) (last : World String model.View) : Prop :=
  last.readers = [.loaded (sampleOwner model) (sampleView model) 0,
    .loaded (sampleOwner model) (sampleView model) 1,
    .hit (sampleOwner model) (sampleView model) 1 1]

theorem exists_reloaded (model : ReadModel) :
    ∃ last, GuardedRun (step parseInteger model) (Undisturbed model) initial (reloaded model)
      last ∧ ReloadedReads model last := by
  have hexec : ((execGuarded (step parseInteger model) (Undisturbed model) initial
      (reloaded model)).map World.readers) =
      some [.loaded (sampleOwner model) (sampleView model) 0,
        .loaded (sampleOwner model) (sampleView model) 1,
        .hit (sampleOwner model) (sampleView model) 1 1] := by
    cases model <;> decide +kernel
  exact exists_guardedRun hexec

theorem reloaded_settled :
    (∃ last, ReloadedReads .dividends last ∧ ReadsSettled last) ∧
      (∃ last, ReloadedReads .royalties last ∧ ReadsSettled last) ∧
        ∃ last, ReloadedReads .subscriptions last ∧ ReadsSettled last := by
  obtain ⟨first, hfirst, hfirstReads⟩ := exists_reloaded .dividends
  obtain ⟨second, hsecond, hsecondReads⟩ := exists_reloaded .royalties
  obtain ⟨third, hthird, hthirdReads⟩ := exists_reloaded .subscriptions
  exact ⟨⟨first, hfirstReads, reads_settled parseInteger .dividends hfirst⟩,
    ⟨second, hsecondReads, reads_settled parseInteger .royalties hsecond⟩,
    ⟨third, hthirdReads, reads_settled parseInteger .subscriptions hthird⟩⟩

end StellarSettle.ReadModelCaches
