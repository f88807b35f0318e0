import StellarSettle.Projections.ClaimableView
import StellarSettle.Projections.RoyaltyEarnings

/-!
# One contribution for each event

The recorders look their rows up by transaction hashes, indexes and fields of the payload,
not by the id of the event.  Each event contributes once exactly when these keys stand for
the events.
-/

namespace StellarSettle.Contributions

open StellarSettle.Amounts
open StellarSettle.ClaimableView
open StellarSettle.ContractEventBus
open StellarSettle.DividendDistribution
open StellarSettle.EventReader
open StellarSettle.Recording
open StellarSettle.RoyaltyEarnings

/-! ## What an event contributes -/

section Contributions

variable (parse : String → Option DecimalValue)

def allocationsOf (delivery : Delivery) : List Allocation :=
  if normalizeTopic delivery.event.topic = distributedTopic then
    match readIssuer delivery.event with
    | none => []
    | some issuerWallet => readAllocations parse delivery issuerWallet
  else []

def claimsOf (delivery : Delivery) : List Claim :=
  if normalizeTopic delivery.event.topic = claimedTopic then (readClaim parse delivery).toList
  else []

def royaltiesOf (delivery : Delivery) : List RoyaltyEvent :=
  if normalizeTopic delivery.event.topic = royaltyPaidTopic then
    (readRoyaltyPaid parse delivery).toList
  else []

/-- The distinct events, each as it was delivered first. -/
def distinctEvents (deliveries : List Delivery) : List Delivery :=
  distinctBy Delivery.source deliveries

/-- The recorded rows are the contributions of the distinct events, each of them once. -/
structure RecordedOnce (deliveries : List Delivery) : Prop where
  allocations : (DividendDistribution.project parse deliveries).allocations =
    (distinctEvents deliveries).flatMap (allocationsOf parse)
  claims : (DividendDistribution.project parse deliveries).claims =
    (distinctEvents deliveries).flatMap (claimsOf parse)
  royalties : RoyaltyEarnings.project parse deliveries =
    (distinctEvents deliveries).flatMap (royaltiesOf parse)

/-- An allocation is one of its event's. -/
def allocationIdentity (allocation : Allocation) : String × String :=
  (allocation.source, allocation.allocationId)

/-- The key of an entry is found among the entries delivered before it exactly where its own
event was delivered before. -/
structure KeysIdentify (deliveries : List Delivery) : Prop where
  allocations : FindsItself findsAllocation allocationIdentity []
    (deliveries.flatMap (allocationsOf parse))
  claims : FindsItself findsClaim Claim.source [] (deliveries.flatMap (claimsOf parse))
  royalties : FindsItself findsRoyalty RoyaltyEvent.source []
    (deliveries.flatMap (royaltiesOf parse))

instance (deliveries : List Delivery) : Decidable (KeysIdentify parse deliveries) :=
  decidable_of_iff
    (FindsItself findsAllocation allocationIdentity [] (deliveries.flatMap (allocationsOf parse)) ∧
      FindsItself findsClaim Claim.source [] (deliveries.flatMap (claimsOf parse)) ∧
      FindsItself findsRoyalty RoyaltyEvent.source [] (deliveries.flatMap (royaltiesOf parse)))
    ⟨fun hall => ⟨hall.1, hall.2.1, hall.2.2⟩,
      fun hkeys => ⟨hkeys.allocations, hkeys.claims, hkeys.royalties⟩⟩

end Contributions

/-! ## What is recorded -/

section Recorded

variable {parse : String → Option DecimalValue}

theorem allocations_handle (tables : Tables) (delivery : Delivery) :
    (DividendDistribution.handle parse tables delivery).allocations =
      recordAll findsAllocation tables.allocations (allocationsOf parse delivery) := by
  rw [DividendDistribution.handle, allocationsOf]
  by_cases htopic : normalizeTopic delivery.event.topic = distributedTopic
  · rw [if_pos htopic, if_pos htopic, handleDistributed]
    cases hissuer : readIssuer delivery.event with
    | none => rfl
    | some issuerWallet =>
        dsimp only
        split
        · rename_i hempty
          rw [hempty]
          rfl
        · rfl
  · rw [if_neg htopic, if_neg htopic]
    split
    · rw [handleClaimed]
      split <;> rfl
    · rfl

theorem claims_handle (tables : Tables) (delivery : Delivery) :
    (DividendDistribution.handle parse tables delivery).claims =
      recordAll findsClaim tables.claims (claimsOf parse delivery) := by
  rw [DividendDistribution.handle, claimsOf]
  by_cases htopic : normalizeTopic delivery.event.topic = distributedTopic
  · have hother : normalizeTopic delivery.event.topic ≠ claimedTopic := by
      rw [htopic]
      decide
    rw [if_pos htopic, if_neg hother, handleDistributed]
    split
    · rfl
    · dsimp only
      split <;> rfl
  · rw [if_neg htopic]
    split
    · rw [handleClaimed]
      cases readClaim parse delivery <;> rfl
    · rfl

theorem royalties_handle (events : List RoyaltyEvent) (delivery : Delivery) :
    RoyaltyEarnings.handle parse events delivery =
      recordAll findsRoyalty events (royaltiesOf parse delivery) := by
  rw [RoyaltyEarnings.handle, royaltiesOf]
  split
  · rw [handleRoyaltyPaid]
    cases readRoyaltyPaid parse delivery <;> rfl
  · rfl

theorem allocations_project (deliveries : List Delivery) :
    (DividendDistribution.project parse deliveries).allocations =
      recordAll findsAllocation [] (deliveries.flatMap (allocationsOf parse)) :=
  rows_foldl Tables.allocations allocations_handle deliveries {}

theorem claims_project (deliveries : List Delivery) :
    (DividendDistribution.project parse deliveries).claims =
      recordAll findsClaim [] (deliveries.flatMap (claimsOf parse)) :=
  rows_foldl Tables.claims claims_handle deliveries {}

theorem royalties_project (deliveries : List Delivery) :
    RoyaltyEarnings.project parse deliveries =
      recordAll findsRoyalty [] (deliveries.flatMap (royaltiesOf parse)) :=
  rows_foldl id royalties_handle deliveries []

end Recorded

/-! ## The entries of an event -/

section Entries

variable {parse : String → Option DecimalValue} {delivery left right : Delivery}

/-- The index is the last part of an allocation's id. -/
theorem allocationId_injective {key : String} {first second : ℕ}
    (hsame : s!"{key}:{first}" = s!"{key}:{second}") : first = second := by
  have hlists : (s!"{key}:{first}").toList = (s!"{key}:{second}").toList := by rw [hsame]
  simp only [toString, String.toList_append, List.append_cancel_left_eq, Nat.toList_repr] at hlists
  calc first = Nat.ofDigitChars 10 (Nat.toDigits 10 first) 0 :=
        (Nat.ofDigitChars_toDigits (by decide) (by decide)).symm
    _ = second := by rw [hlists, Nat.ofDigitChars_toDigits (by decide) (by decide)]

theorem source_of_mem_allocationsOf {allocation : Allocation}
    (hmem : allocation ∈ allocationsOf parse delivery) : allocation.source = delivery.source := by
  rw [allocationsOf] at hmem
  split at hmem
  · split at hmem
    · cases hmem
    · obtain ⟨entry, -, rfl⟩ := List.mem_map.mp hmem
      rfl
  · cases hmem

theorem nodup_allocationsOf : ((allocationsOf parse delivery).map allocationIdentity).Nodup := by
  rw [allocationsOf]
  split
  · split
    · exact List.nodup_nil
    · rename_i issuerWallet _
      have hidentities : (readAllocations parse delivery issuerWallet).map allocationIdentity =
          ((extractRecipientRecords parse delivery.event.data).zipIdx.map Prod.snd).map
            fun index => (delivery.source, s!"{allocationKey delivery.event}:{index}") := by
        rw [readAllocations, List.map_map, List.map_map]
        rfl
      rw [hidentities, List.zipIdx_map_snd]
      refine List.Nodup.map (fun first second hsame => ?_) List.nodup_range'
      exact allocationId_injective (Prod.mk.inj hsame).2
  · exact List.nodup_nil

theorem allocationsOf_congr (hevent : left.event = right.event) :
    (allocationsOf parse left).map allocationIdentity =
      (allocationsOf parse right).map allocationIdentity := by
  obtain ⟨event, leftNow⟩ := left
  obtain ⟨other, rightNow⟩ := right
  obtain rfl : event = other := hevent
  rw [allocationsOf, allocationsOf]
  dsimp only
  split
  · cases readIssuer event with
    | none => rfl
    | some issuerWallet =>
        dsimp only
        rw [readAllocations, readAllocations, List.map_map, List.map_map]
        rfl
  · rfl

theorem mem_claimsOf {claim : Claim} (hmem : claim ∈ claimsOf parse delivery) :
    claim.source = delivery.source ∧ claim.claimId = readClaimId delivery.event := by
  rw [claimsOf] at hmem
  split at hmem
  · have hclaim := Option.mem_toList.mp hmem
    simp only [readClaim, Option.bind_eq_bind, Option.bind_eq_some_iff, Option.pure_def,
      Option.some.injEq] at hclaim
    obtain ⟨recipientWallet, -, amount, -, rfl⟩ := hclaim
    exact ⟨rfl, rfl⟩
  · cases hmem

theorem claimsOf_congr (hevent : left.event = right.event) :
    (claimsOf parse left).map Claim.source = (claimsOf parse right).map Claim.source := by
  obtain ⟨event, leftNow⟩ := left
  obtain ⟨other, rightNow⟩ := right
  obtain rfl : event = other := hevent
  rw [claimsOf, claimsOf]
  dsimp only
  split
  · rw [readClaim, readClaim]
    dsimp only
    cases readRecipient event with
    | none => rfl
    | some recipientWallet => cases readClaimAmount parse event <;> rfl
  · rfl

theorem mem_royaltiesOf {royalty : RoyaltyEvent} (hmem : royalty ∈ royaltiesOf parse delivery) :
    royalty.source = delivery.source ∧ royalty.txHash = delivery.event.txHash ∧
      royalty.ledgerSequence = delivery.event.ledger := by
  rw [royaltiesOf] at hmem
  split at hmem
  · have hroyalty := Option.mem_toList.mp hmem
    simp only [readRoyaltyPaid, Option.bind_eq_bind, Option.bind_eq_some_iff, Option.pure_def,
      Option.some.injEq] at hroyalty
    obtain ⟨keyAddress, -, creatorWallet, -, amount, -, rfl⟩ := hroyalty
    exact ⟨rfl, rfl, rfl⟩
  · cases hmem

theorem royaltiesOf_congr (hevent : left.event = right.event) :
    (royaltiesOf parse left).map RoyaltyEvent.source =
      (royaltiesOf parse right).map RoyaltyEvent.source := by
  obtain ⟨event, leftNow⟩ := left
  obtain ⟨other, rightNow⟩ := right
  obtain rfl : event = other := hevent
  rw [royaltiesOf, royaltiesOf]
  dsimp only
  split
  · rw [readRoyaltyPaid, readRoyaltyPaid]
    dsimp only
    cases readKeyAddress event with
    | none => rfl
    | some keyAddress =>
        cases readCreatorWallet event with
        | none => rfl
        | some creatorWallet => cases readRoyaltyAmount parse event <;> rfl
  · rfl

theorem nodup_toList {Row Identity : Type} (identity : Row → Identity) (entry : Option Row) :
    (entry.toList.map identity).Nodup := by
  cases entry with
  | none => exact List.nodup_nil
  | some row => exact List.nodup_singleton _

theorem nodup_claimsOf : ((claimsOf parse delivery).map Claim.source).Nodup := by
  rw [claimsOf]
  split
  · exact nodup_toList _ _
  · exact List.nodup_nil

theorem nodup_royaltiesOf : ((royaltiesOf parse delivery).map RoyaltyEvent.source).Nodup := by
  rw [royaltiesOf]
  split
  · exact nodup_toList _ _
  · exact List.nodup_nil

end Entries

/-! ## Exactly once -/

section ExactlyOnce

variable {parse : String → Option DecimalValue} {deliveries : List Delivery}

theorem allocations_iff (hidentified : Identified deliveries) :
    (DividendDistribution.project parse deliveries).allocations =
        (distinctEvents deliveries).flatMap (allocationsOf parse) ↔
      FindsItself findsAllocation allocationIdentity []
        (deliveries.flatMap (allocationsOf parse)) := by
  have hrespects : Respects findsAllocation allocationIdentity
      (deliveries.flatMap (allocationsOf parse)) := by
    constructor
    · intro left _ right _ hsame row
      rw [findsAllocation, findsAllocation, (Prod.mk.inj hsame).2]
    · intro left _ right _ hsame entry
      rw [findsAllocation, findsAllocation, (Prod.mk.inj hsame).2]
  rw [allocations_project]
  refine recordAll_flatMap_iff Prod.fst (fun delivery _ => nodup_allocationsOf) ?_
    (fun delivery _ entry hentry => source_of_mem_allocationsOf hentry) hrespects
  intro left hleft right hright hsource
  exact allocationsOf_congr (hidentified left hleft right hright hsource)

/-- Two claims of one event have one id. -/
theorem claimId_eq {left right : Claim} (hidentified : Identified deliveries)
    (hleft : left ∈ deliveries.flatMap (claimsOf parse))
    (hright : right ∈ deliveries.flatMap (claimsOf parse)) (hsame : left.source = right.source) :
    left.claimId = right.claimId := by
  obtain ⟨first, hfirst, hleft⟩ := List.mem_flatMap.mp hleft
  obtain ⟨second, hsecond, hright⟩ := List.mem_flatMap.mp hright
  obtain ⟨hleftSource, hleftId⟩ := mem_claimsOf hleft
  obtain ⟨hrightSource, hrightId⟩ := mem_claimsOf hright
  have hevent : first.event = second.event := hidentified first hfirst second hsecond (by
    rw [← hleftSource, ← hrightSource, hsame])
  rw [hleftId, hrightId, hevent]

theorem claims_iff (hidentified : Identified deliveries) :
    (DividendDistribution.project parse deliveries).claims =
        (distinctEvents deliveries).flatMap (claimsOf parse) ↔
      FindsItself findsClaim Claim.source [] (deliveries.flatMap (claimsOf parse)) := by
  have hrespects : Respects findsClaim Claim.source (deliveries.flatMap (claimsOf parse)) := by
    constructor
    · intro left hleft right hright hsame row
      rw [findsClaim, findsClaim, claimId_eq hidentified hleft hright hsame]
    · intro left hleft right hright hsame entry
      rw [findsClaim, findsClaim, claimId_eq hidentified hleft hright hsame]
  rw [claims_project]
  refine recordAll_flatMap_iff id (fun delivery _ => nodup_claimsOf) ?_
    (fun delivery _ entry hentry => (mem_claimsOf hentry).1) hrespects
  intro left hleft right hright hsource
  exact claimsOf_congr (hidentified left hleft right hright hsource)

/-- Two royalties of one event have its hash and its ledger. -/
theorem royaltyKey_eq {left right : RoyaltyEvent} (hidentified : Identified deliveries)
    (hleft : left ∈ deliveries.flatMap (royaltiesOf parse))
    (hright : right ∈ deliveries.flatMap (royaltiesOf parse))
    (hsame : left.source = right.source) :
    left.txHash = right.txHash ∧ left.ledgerSequence = right.ledgerSequence := by
  obtain ⟨first, hfirst, hleft⟩ := List.mem_flatMap.mp hleft
  obtain ⟨second, hsecond, hright⟩ := List.mem_flatMap.mp hright
  obtain ⟨hleftSource, hleftHash, hleftLedger⟩ := mem_royaltiesOf hleft
  obtain ⟨hrightSource, hrightHash, hrightLedger⟩ := mem_royaltiesOf hright
  have hevent : first.event = second.event := hidentified first hfirst second hsecond (by
    rw [← hleftSource, ← hrightSource, hsame])
  rw [hleftHash, hrightHash, hleftLedger, hrightLedger, hevent]
  exact ⟨rfl, rfl⟩

theorem royalties_iff (hidentified : Identified deliveries) :
    RoyaltyEarnings.project parse deliveries =
        (distinctEvents deliveries).flatMap (royaltiesOf parse) ↔
      FindsItself findsRoyalty RoyaltyEvent.source [] (deliveries.flatMap (royaltiesOf parse)) := by
  have hrespects : Respects findsRoyalty RoyaltyEvent.source
      (deliveries.flatMap (royaltiesOf parse)) := by
    constructor
    · intro left hleft right hright hsame row
      obtain ⟨hhash, hledger⟩ := royaltyKey_eq hidentified hleft hright hsame
      rw [findsRoyalty, findsRoyalty, hhash, hledger]
    · intro left hleft right hright hsame entry
      obtain ⟨hhash, hledger⟩ := royaltyKey_eq hidentified hleft hright hsame
      rw [findsRoyalty, findsRoyalty, hhash, hledger]
  rw [royalties_project]
  refine recordAll_flatMap_iff id (fun delivery _ => nodup_royaltiesOf) ?_
    (fun delivery _ entry hentry => (mem_royaltiesOf hentry).1) hrespects
  intro left hleft right hright hsource
  exact royaltiesOf_congr (hidentified left hleft right hright hsource)

theorem recordedOnce_iff (hidentified : Identified deliveries) :
    RecordedOnce parse deliveries ↔ KeysIdentify parse deliveries := by
  constructor
  · intro hrecorded
    exact ⟨(allocations_iff hidentified).mp hrecorded.allocations,
      (claims_iff hidentified).mp hrecorded.claims,
      (royalties_iff hidentified).mp hrecorded.royalties⟩
  · intro hkeys
    exact ⟨(allocations_iff hidentified).mpr hkeys.allocations,
      (claims_iff hidentified).mpr hkeys.claims,
      (royalties_iff hidentified).mpr hkeys.royalties⟩

end ExactlyOnce

/-! ## Totals -/

section Totals

variable (parse : String → Option DecimalValue) (deliveries : List Delivery) (wallet : String)

/-- What the distinct events allocate to the wallet. -/
def allocatedTo : List Amount :=
  (((distinctEvents deliveries).flatMap (allocationsOf parse)).filter fun allocation =>
    allocation.recipientWallet = wallet).map Allocation.amount

/-- What the wallet claimed in the distinct events. -/
def claimedBy : List Amount :=
  (((distinctEvents deliveries).flatMap (claimsOf parse)).filter fun claim =>
    claim.recipientWallet = wallet).map Claim.amount

/-- The royalties that the distinct events pay to the wallet. -/
def paidTo : List Amount :=
  (((distinctEvents deliveries).flatMap (royaltiesOf parse)).filter fun royalty =>
    royalty.creatorWallet = wallet).map RoyaltyEvent.amount

/-- The wallet's amounts are numbers; its dividends have at most twenty digits together. -/
structure WalletSummable : Prop where
  allocated : Summable (allocatedTo parse deliveries wallet)
  claimed : Summable (claimedBy parse deliveries wallet)
  paid : ∀ amount ∈ paidTo parse deliveries wallet, amount.IsNumber

/-- The rows of the wallet, in any order. -/
def AllocationsByWallet (tables : Tables) (allocations : List Allocation) : Prop :=
  allocations.Perm (tables.allocations.filter fun allocation => allocation.recipientWallet = wallet)

def ClaimsByWallet (tables : Tables) (claims : List Claim) : Prop :=
  claims.Perm (tables.claims.filter fun claim => claim.recipientWallet = wallet)

/-- The totals are the sums over the distinct events. -/
structure TotalsAgree : Prop where
  earned : ∀ allocations claims,
    AllocationsByWallet wallet (DividendDistribution.project parse deliveries) allocations →
      (getClaimable wallet allocations claims).totalEarned =
          .units (unitsTotal (allocatedTo parse deliveries wallet)) ∧
        (getSummary wallet allocations claims).totalEarned =
          .units (unitsTotal (allocatedTo parse deliveries wallet))
  claimed : ∀ allocations claims,
    ClaimsByWallet wallet (DividendDistribution.project parse deliveries) claims →
      (getClaimable wallet allocations claims).totalClaimed =
          .units (unitsTotal (claimedBy parse deliveries wallet)) ∧
        (getSummary wallet allocations claims).totalClaimed =
          .units (unitsTotal (claimedBy parse deliveries wallet))
  paid : getEarnings (RoyaltyEarnings.project parse deliveries) wallet =
    { totalEarned := .units (unitsTotal (paidTo parse deliveries wallet))
      transferCount := (paidTo parse deliveries wallet).length }

variable {parse deliveries wallet}

theorem totalsAgree_of_recordedOnce (hrecorded : RecordedOnce parse deliveries)
    (hsummable : WalletSummable parse deliveries wallet) : TotalsAgree parse deliveries wallet where
  earned allocations claims hfetched := by
    rw [AllocationsByWallet, hrecorded.allocations] at hfetched
    have hperm : (allocations.map Allocation.amount).Perm (allocatedTo parse deliveries wallet) :=
      hfetched.map _
    have htotal := totalEarned_eq wallet claims (hsummable.allocated.perm hperm)
    rw [unitsTotal_perm hperm] at htotal
    exact ⟨htotal, htotal⟩
  claimed allocations claims hfetched := by
    rw [ClaimsByWallet, hrecorded.claims] at hfetched
    have hperm : (claims.map Claim.amount).Perm (claimedBy parse deliveries wallet) :=
      hfetched.map _
    have htotal := totalClaimed_eq wallet allocations (hsummable.claimed.perm hperm)
    rw [unitsTotal_perm hperm] at htotal
    exact ⟨htotal, htotal⟩
  paid := by
    rw [hrecorded.royalties]
    exact getEarnings_eq hsummable.paid

end Totals

/-- `new Decimal(text)` for the digits of a number. -/
def parseInteger (text : String) : Option DecimalValue :=
  if text.toList.all Char.isDigit ∧ text ≠ "" then
    some (.number (text.toList.foldl (fun value digit => 10 * value + (digit.toNat - 48 : ℕ)) 0))
  else none

/-- A payment of the given amount to the creator. -/
def royaltyPaid (id txHash : String) (amount : ℤ) : Event :=
  { id := id, contractId := "CROYALTY", ledger := 7, ledgerClosedAt := some 70
    txHash := some txHash, topic := "royalty_paid", topics := []
    data := .object [("key_address", .string "CKEY"), ("creator_wallet", .string "GCREATOR"),
      ("amount", .bigint amount)] }

/-- Two payments in one transaction. -/
def twoRoyalties : List Delivery :=
  [⟨royaltyPaid "e1" "a1b2" 10, 71⟩, ⟨royaltyPaid "e2" "a1b2" 5, 72⟩]

theorem twoRoyalties_identified : Identified twoRoyalties := by
  intro left hleft right hright hsource
  simp only [twoRoyalties, List.mem_cons, List.not_mem_nil, or_false] at hleft hright
  rcases hleft with rfl | rfl <;> rcases hright with rfl | rfl <;>
    first
    | rfl
    | exact absurd hsource (by decide)

/-- A distribution to two holders. -/
def distribution : Event :=
  { id := "e3", contractId := "CDIVIDEND", ledger := 8, ledgerClosedAt := some 80
    txHash := some "c3d4", topic := "dividend_distributed", topics := []
    data := .object [("issuer", .string "GISSUER"), ("recipients", .array [
      .object [("wallet", .string "GHOLDER"), ("amount", .bigint 3)],
      .object [("wallet", .string "GOTHER"), ("amount", .bigint 4)]])] }

/-- A claim without a transaction hash. -/
def dividendClaim : Event :=
  { id := "e4", contractId := "CDIVIDEND", ledger := 9, ledgerClosedAt := none
    txHash := none, topic := "dividend_claimed", topics := []
    data := .object [("recipient", .string "GHOLDER"), ("amount", .bigint 2)] }

/-- Two payments in two transactions, a distribution and a claim, some of them twice. -/
def replayed : List Delivery :=
  [⟨royaltyPaid "e1" "a1b2" 10, 71⟩, ⟨distribution, 81⟩, ⟨royaltyPaid "e2" "e5f6" 5, 82⟩,
    ⟨dividendClaim, 91⟩, ⟨distribution, 92⟩, ⟨royaltyPaid "e1" "a1b2" 10, 93⟩, ⟨dividendClaim, 94⟩]

theorem replayed_identified : Identified replayed := by
  intro left hleft right hright hsource
  simp only [replayed, List.mem_cons, List.not_mem_nil, or_false] at hleft hright
  rcases hleft with rfl | rfl | rfl | rfl | rfl | rfl | rfl <;>
    rcases hright with rfl | rfl | rfl | rfl | rfl | rfl | rfl <;>
    first
    | rfl
    | exact absurd hsource (by decide)

end StellarSettle.Contributions
