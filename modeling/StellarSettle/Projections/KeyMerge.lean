import StellarSettle.Core.KeyedRows
import StellarSettle.Projections.EventNumbers

/-!
# Key merge proposals

A proposal, the votes of its holders and its execution are projected from contract events.
A vote is stored under its voter, and the proposal's tally is computed again from the stored
votes, which the database lists in an order of its own.  The texts of a proposal that no
tally reads are left out.
-/

namespace StellarSettle.KeyMerge

open StellarSettle.ContractEventBus
open StellarSettle.Entities
open StellarSettle.EventNumbers
open StellarSettle.EventReader
open StellarSettle.KeyedRows
open StellarSettle.Numbers

/-! ## Rows -/

inductive MergeStatus where
  | pending
  | completed
  deriving DecidableEq, Repr

structure MigrationSummary where
  totalKeysMigrated : AmountText
  tokensConverted : AmountText
  effectiveRatio : AmountText
  migratedHoldersCount : JsNumber
  sourceSupplyBurned : Option AmountText
  targetSupplyMinted : Option AmountText
  executedAt : Timestamp
  executionTxHash : Option String
  ledgerSequence : ℕ
  deriving DecidableEq

structure KeyMergeVoteTally where
  votesFor : ColumnValue
  votesAgainst : ColumnValue
  totalVotes : ColumnValue
  holderCount : ℕ
  thresholdReached : Bool
  deriving DecidableEq

structure KeyMergeProposal where
  proposalId : String
  keyId : String
  voteThreshold : AmountText
  status : MergeStatus
  tally : KeyMergeVoteTally
  migrationSummary : Option MigrationSummary
  proposedAt : Timestamp
  executedAt : Option Timestamp
  executionTxHash : Option String
  ledgerSequence : ℕ
  deriving DecidableEq

structure KeyMergeVote where
  proposalId : String
  voterAddress : String
  support : Bool
  weight : ColumnValue
  txHash : Option String
  ledgerSequence : ℕ
  votedAt : Timestamp
  deriving DecidableEq

structure Tables where
  proposals : List KeyMergeProposal := []
  votes : List KeyMergeVote := []
  deriving DecidableEq

/-! ## Messages -/

structure KeyMergeProposalInput where
  keyId : String
  proposalId : String
  voteThreshold : AmountText
  proposedAt : Timestamp
  ledgerSequence : ℕ
  deriving DecidableEq

structure KeyMergeVoteInput where
  proposalId : String
  voterAddress : String
  support : Bool
  weight : AmountText
  txHash : Option String
  ledgerSequence : ℕ
  votedAt : Timestamp
  deriving DecidableEq

structure KeyMergeExecutionInput where
  proposalId : String
  migrationSummary : MigrationSummary
  deriving DecidableEq

/-- The text of a field that is read as a text first, and as a number else. -/
def readAmountText (event : Event) (textKeys numberKeys : List String) (fallback : String) :
    AmountText :=
  match readEventString event textKeys with
  | some text => .text text
  | none =>
      match readEventNumber event numberKeys with
      | some value => .fixed value
      | none => .text fallback

/-- The threshold is no amount, so its number is not padded. -/
def readVoteThreshold (event : Event) : AmountText :=
  match readEventString event ["vote_threshold", "voteThreshold", "threshold"] with
  | some text => .text text
  | none =>
      match readEventNumber event ["vote_threshold", "voteThreshold", "threshold"] with
      | some value => .number value
      | none => .text "66.67"

def readProposal (delivery : Delivery) : Option KeyMergeProposalInput := do
  let event := delivery.event
  let keyId := (readEventString event
    ["key_id", "keyId", "target_key_id", "targetKeyId", "creator_key_id"] (some 1)).getD
    event.contractId
  let proposalId ← readEventString event ["proposal_id", "proposalId", "id"] (some 2)
  if keyId = "" then none
  return {
    keyId := keyId
    proposalId := proposalId
    voteThreshold := readVoteThreshold event
    proposedAt := eventTimestamp delivery
    ledgerSequence := event.ledger }

/-- The words that a vote's support is written with. -/
def supportWord (text : String) : Option Bool :=
  let lower := (trimText text).toLower
  if lower = "false" ∨ lower = "against" ∨ lower = "0" ∨ lower = "no" then some false
  else if lower = "true" ∨ lower = "for" ∨ lower = "1" ∨ lower = "yes" then some true
  else none

def supportOf : EventValue → Option Bool
  | .bool value => some value
  | .string text => supportWord text
  | .number value => some (value = 1)
  | _ => none

/-- A vote without a readable support is one in favour. -/
def readSupport (event : Event) : Bool :=
  let keys := ["support", "vote", "in_favor", "approve"]
  let found :=
    match event.data with
    | .object fields => keys.findSome? fun key => supportOf (property fields key)
    | _ => none
  match found with
  | some support => support
  | none =>
      match readEventString event keys with
      | some text => text.toLower = "true" ∨ text.toLower = "for" ∨ text.toLower = "1"
      | none =>
          match readEventNumber event ["support", "vote"] with
          | some value => value = .ofRat 1
          | none => true

def weightNames : List String := ["weight", "voting_power", "votingPower", "amount"]

def readWeight (event : Event) : AmountText :=
  readAmountText event weightNames (weightNames ++ ["balance"]) "1.0000000"

def readVote (delivery : Delivery) : Option KeyMergeVoteInput := do
  let event := delivery.event
  let proposalId ← readEventString event ["proposal_id", "proposalId", "id"] (some 1)
  let voterAddress ← readEventString event
    ["voter", "voter_address", "voterAddress", "holder", "holder_address", "holderAddress"] (some 2)
  return {
    proposalId := proposalId
    voterAddress := voterAddress
    support := readSupport event
    weight := readWeight event
    txHash := event.txHash
    ledgerSequence := event.ledger
    votedAt := eventTimestamp delivery }

def totalKeysNames : List String := ["total_keys_migrated", "totalKeysMigrated", "keys_migrated"]

def readTotalKeysMigrated (event : Event) : AmountText :=
  readAmountText event totalKeysNames (totalKeysNames ++ ["amount"]) "0.0000000"

def tokensNames : List String := ["tokens_converted", "tokensConverted", "converted_amount"]

def readTokensConverted (event : Event) : AmountText :=
  readAmountText event tokensNames (tokensNames ++ ["target_amount"]) "0.0000000"

def ratioNames : List String := ["effective_ratio", "effectiveRatio", "ratio"]

def readEffectiveRatio (event : Event) : AmountText :=
  readAmountText event ratioNames (ratioNames ++ ["conversion_ratio"]) "1.0000000"

def burnedNames : List String := ["source_supply_burned", "sourceSupplyBurned", "burned_supply"]

def readSourceSupplyBurned (event : Event) : Option AmountText :=
  (readEventString event burnedNames).map .text

def mintedNames : List String := ["target_supply_minted", "targetSupplyMinted", "minted_supply"]

def readTargetSupplyMinted (event : Event) : Option AmountText :=
  (readEventString event mintedNames).map .text

/-- `Math.round(value)`. -/
def mathRound : JsNumber → JsNumber
  | .finite value => .ofRat ⌊value.val + 1 / 2⌋
  | other => other

def readMigratedHoldersCount (event : Event) : JsNumber :=
  match readEventNumber event
    ["migrated_holders_count", "migratedHoldersCount", "holders_count", "holder_count"] with
  | some value => mathRound value
  | none => .ofRat 0

def readExecution (delivery : Delivery) : Option KeyMergeExecutionInput := do
  let event := delivery.event
  let proposalId ← readEventString event ["proposal_id", "proposalId", "id"] (some 1)
  return {
    proposalId := proposalId
    migrationSummary :=
      { totalKeysMigrated := readTotalKeysMigrated event
        tokensConverted := readTokensConverted event
        effectiveRatio := readEffectiveRatio event
        migratedHoldersCount := readMigratedHoldersCount event
        sourceSupplyBurned := readSourceSupplyBurned event
        targetSupplyMinted := readTargetSupplyMinted event
        executedAt := eventTimestamp delivery
        executionTxHash := event.txHash
        ledgerSequence := event.ledger } }

inductive Message where
  | proposal (input : KeyMergeProposalInput)
  | vote (input : KeyMergeVoteInput)
  | execution (input : KeyMergeExecutionInput)

def includesWord (topic : List Char) (word : String) : Bool := word.toList <:+: topic

/-- What `handle` makes of an event. -/
def readMessage (delivery : Delivery) : Option Message :=
  let topic := joinWords false delivery.event.topic.toLower.toList
  if includesWord topic "proposed" then (readProposal delivery).map .proposal
  else if includesWord topic "vote" then (readVote delivery).map .vote
  else if includesWord topic "executed" then (readExecution delivery).map .execution
  else none

/-- A message is read from its own kind of event. -/
theorem of_readMessage {delivery : Delivery} {message : Message}
    (hmessage : readMessage delivery = some message) :
    match message with
    | .proposal input => readProposal delivery = some input
    | .vote input => readVote delivery = some input
    | .execution input => readExecution delivery = some input := by
  simp only [readMessage] at hmessage
  split at hmessage
  · obtain ⟨input, hinput, rfl⟩ := Option.map_eq_some_iff.mp hmessage
    exact hinput
  · split at hmessage
    · obtain ⟨input, hinput, rfl⟩ := Option.map_eq_some_iff.mp hmessage
      exact hinput
    · split at hmessage
      · obtain ⟨input, hinput, rfl⟩ := Option.map_eq_some_iff.mp hmessage
        exact hinput
      · cases hmessage

/-! ## The tally -/

/-- `Number(value) || 0` for what a column holds. -/
def weightNumber : ColumnValue → JsNumber
  | .number units => .ofRat units.value
  | .nan => .ofRat 0

def sumWeights (weights : List ColumnValue) : JsNumber :=
  weights.foldl (fun sum weight => sum.add (weightNumber weight)) (.ofRat 0)

/-- `value / total` for a total above zero. -/
def divByTotal (value : JsNumber) : JsNumber → JsNumber
  | .finite total => value.divBy total
  | _ =>
      match value with
      | .finite _ => .ofRat 0
      | _ => .nan

/-- `value * 100`. -/
def inPercent : JsNumber → JsNumber
  | .finite value => .ofRat (value.val * 100)
  | other => other

/-- A threshold above one is a percentage. -/
def reachesThreshold (voteThreshold : AmountText) (sumFor total : JsNumber) : Bool :=
  let threshold :=
    match voteThreshold.toNumber with
    | .nan => JsNumber.ofRat 0
    | value => value
  let zero := JsNumber.ofRat 0
  if (JsNumber.ofRat 1).lt threshold then
    zero.lt total && (inPercent (divByTotal sumFor total)).ge threshold
  else if zero.lt threshold then zero.lt total && (divByTotal sumFor total).ge threshold
  else zero.lt total

/-- The tally of the votes, or nothing where a total does not fit its column. -/
def tallyOf (voteThreshold : AmountText) (votes : List (Bool × ColumnValue)) :
    Option KeyMergeVoteTally := do
  let sumFor := sumWeights ((votes.filter fun vote => vote.1).map Prod.snd)
  let sumAgainst := sumWeights ((votes.filter fun vote => !vote.1).map Prod.snd)
  let total := sumFor.add sumAgainst
  return {
    votesFor := ← (AmountText.fixed sumFor).column
    votesAgainst := ← (AmountText.fixed sumAgainst).column
    totalVotes := ← (AmountText.fixed total).column
    holderCount := votes.length
    thresholdReached := reachesThreshold voteThreshold sumFor total }

/-! ## The repository -/

def noVotes : KeyMergeVoteTally where
  votesFor := .zero
  votesAgainst := .zero
  totalVotes := .zero
  holderCount := 0
  thresholdReached := false

def findProposal (tables : Tables) (proposalId : String) : Option KeyMergeProposal :=
  findRow KeyMergeProposal.proposalId tables.proposals proposalId

def saveProposal (tables : Tables) (proposal : KeyMergeProposal) : Tables :=
  { tables with
    proposals := saveRow KeyMergeProposal.proposalId tables.proposals proposal }

def recordProposal (tables : Tables) (input : KeyMergeProposalInput) : Tables :=
  match findProposal tables input.proposalId with
  | some _ => tables
  | none => saveProposal tables
      { proposalId := input.proposalId
        keyId := input.keyId
        voteThreshold := input.voteThreshold
        status := .pending
        tally := noVotes
        migrationSummary := none
        proposedAt := input.proposedAt
        executedAt := none
        executionTxHash := none
        ledgerSequence := input.ledgerSequence }

/-- `uq (proposal_id, voter_address)`. -/
def KeyMergeVote.key (vote : KeyMergeVote) : String × String :=
  (vote.proposalId, vote.voterAddress)

/-- The row of a vote, with the hash of the earlier one where it has none. -/
def voteRow (tables : Tables) (input : KeyMergeVoteInput) (weight : ColumnValue) :
    KeyMergeVote where
  proposalId := input.proposalId
  voterAddress := input.voterAddress
  support := input.support
  weight := weight
  txHash := input.txHash.or
    ((findRow KeyMergeVote.key tables.votes (input.proposalId, input.voterAddress)).bind
      KeyMergeVote.txHash)
  ledgerSequence := input.ledgerSequence
  votedAt := input.votedAt

def votesOf (tables : Tables) (proposalId : String) : List KeyMergeVote :=
  tables.votes.filter (·.proposalId = proposalId)

def KeyMergeVote.counted (vote : KeyMergeVote) : Bool × ColumnValue := (vote.support, vote.weight)

/-- The order in which the database lists the votes of a proposal. -/
structure Listing where
  list : List KeyMergeVote → List KeyMergeVote
  perm : ∀ votes, (list votes).Perm votes

/-- The votes as they were first stored. -/
def Listing.asStored : Listing where
  list votes := votes
  perm votes := List.Perm.refl votes

/-- The vote is saved before the tally, so it stays where the tally does not fit. -/
def recordVote (tables : Tables) (input : KeyMergeVoteInput) (listing : Listing) : Tables :=
  match input.weight.column with
  | none => tables
  | some weight =>
      let saved := { tables with
        votes := saveRow KeyMergeVote.key tables.votes (voteRow tables input weight) }
      match findProposal saved input.proposalId with
      | none => saved
      | some proposal =>
          let allVotes := listing.list (votesOf saved input.proposalId)
          match tallyOf proposal.voteThreshold (allVotes.map KeyMergeVote.counted) with
          | none => saved
          | some tally => saveProposal saved { proposal with tally := tally }

def recordExecution (tables : Tables) (input : KeyMergeExecutionInput) : Tables :=
  match findProposal tables input.proposalId with
  | none => tables
  | some proposal => saveProposal tables
      { proposal with
        status := .completed
        migrationSummary := some input.migrationSummary
        executedAt := some input.migrationSummary.executedAt
        executionTxHash := input.migrationSummary.executionTxHash.or proposal.executionTxHash
        ledgerSequence := input.migrationSummary.ledgerSequence }

/-- A vote stays saved whatever becomes of the tally. -/
theorem votes_recordVote (tables : Tables) (input : KeyMergeVoteInput) (listing : Listing) :
    (recordVote tables input listing).votes =
      match input.weight.column with
      | none => tables.votes
      | some weight => saveRow KeyMergeVote.key tables.votes (voteRow tables input weight) := by
  rw [recordVote]
  cases input.weight.column with
  | none => rfl
  | some weight =>
      dsimp only
      split
      · rfl
      · split <;> rfl

/-- A handler that fails leaves what it saved before. -/
def handle (tables : Tables) (delivery : Delivery) (listing : Listing) : Tables :=
  match readMessage delivery with
  | some (.proposal input) => recordProposal tables input
  | some (.vote input) => recordVote tables input listing
  | some (.execution input) => recordExecution tables input
  | none => tables

end StellarSettle.KeyMerge
