import StellarSettle.Projections.KeyMerge

/-!
# Tallies of key merges

The tally of a proposal against its votes.  A vote replaces the one that was delivered
before it, whatever their ledgers, and the tally is computed when a vote is delivered after
the proposal.
-/

namespace StellarSettle.MergeTally

open StellarSettle.BinaryRounding
open StellarSettle.DecimalRounding
open StellarSettle.EventNumbers
open StellarSettle.EventReader
open StellarSettle.KeyedRows
open StellarSettle.KeyMerge
open StellarSettle.Numbers

/-! ## What events say -/

/-- A vote as its event casts it, and what a column takes of its weight. -/
structure Ballot where
  voter : String
  ledger : ℕ
  support : Bool
  weight : Option ColumnValue
  deriving DecidableEq

/-- What a tally counts of a vote. -/
def Ballot.counted (ballot : Ballot) : Option (Bool × ColumnValue) :=
  ballot.weight.map fun weight => (ballot.support, weight)

/-- The vote that a message casts on a proposal. -/
def ballotIn (proposalId : String) : Message → Option Ballot
  | .vote input =>
      if input.proposalId = proposalId then
        some
          { voter := input.voterAddress
            ledger := input.ledgerSequence
            support := input.support
            weight := input.weight.column }
      else none
  | _ => none

/-- The threshold that a message proposes for a proposal. -/
def thresholdIn (proposalId : String) : Message → Option AmountText
  | .proposal input => if input.proposalId = proposalId then some input.voteThreshold else none
  | _ => none

def ballotOf (proposalId : String) (event : Event) : Option Ballot :=
  (readMessage { event := event, now := 0 }).bind (ballotIn proposalId)

def thresholdOf (proposalId : String) (event : Event) : Option AmountText :=
  (readMessage { event := event, now := 0 }).bind (thresholdIn proposalId)

/-- The time of a delivery is no part of what its event says. -/
theorem readMessage_bind {Content : Type*} (content : Message → Option Content)
    (hproposal : ∀ (input : KeyMergeProposalInput) now,
      content (.proposal { input with proposedAt := now }) = content (.proposal input))
    (hvote : ∀ (input : KeyMergeVoteInput) now,
      content (.vote { input with votedAt := now }) = content (.vote input))
    (hexecution : ∀ input, content (.execution input) = none) (delivery : Delivery) :
    (readMessage delivery).bind content =
      (readMessage { event := delivery.event, now := 0 }).bind content := by
  rw [readMessage, readMessage]
  split
  · rw [readProposal, readProposal]
    cases readEventString delivery.event ["proposal_id", "proposalId", "id"] (some 2) with
    | none => rfl
    | some proposalId =>
        dsimp only [Option.bind_eq_bind, Option.bind_some]
        split
        · rfl
        · exact hproposal (.mk _ _ _ _ _) _
  · split
    · rw [readVote, readVote]
      cases readEventString delivery.event ["proposal_id", "proposalId", "id"] (some 1) with
      | none => rfl
      | some proposalId =>
          dsimp only [Option.bind_eq_bind, Option.bind_some]
          cases readEventString delivery.event
            ["voter", "voter_address", "voterAddress", "holder", "holder_address", "holderAddress"]
            (some 2) with
          | none => rfl
          | some voterAddress => exact hvote (.mk _ _ _ _ _ _ _) _
    · split
      · cases readExecution delivery with
        | none =>
            cases readExecution { event := delivery.event, now := 0 } with
            | none => rfl
            | some other => exact (hexecution other).symm
        | some input =>
            cases readExecution { event := delivery.event, now := 0 } with
            | none => exact hexecution input
            | some other => exact (hexecution input).trans (hexecution other).symm
      · rfl

theorem ballotOf_event (proposalId : String) (delivery : Delivery) :
    ballotOf proposalId delivery.event = (readMessage delivery).bind (ballotIn proposalId) :=
  (readMessage_bind (ballotIn proposalId) (fun _ _ => rfl) (fun _ _ => rfl) (fun _ => rfl)
    delivery).symm

theorem thresholdOf_event (proposalId : String) (delivery : Delivery) :
    thresholdOf proposalId delivery.event =
      (readMessage delivery).bind (thresholdIn proposalId) :=
  (readMessage_bind (thresholdIn proposalId) (fun _ _ => rfl) (fun _ _ => rfl) (fun _ => rfl)
    delivery).symm

/-! ## The latest votes by ledger -/

def ballotsOf (proposalId : String) (events : List Event) : List Ballot :=
  (events.filterMap (ballotOf proposalId)).dedup

/-- Each voter's latest vote by ledger. -/
def latestBallots (proposalId : String) (events : List Event) : List Ballot :=
  (ballotsOf proposalId events).filter fun ballot =>
    (ballotsOf proposalId events).all fun other =>
      other.voter = ballot.voter → other.ledger ≤ ballot.ledger

/-- The latest votes in any order. -/
def ListsLatest (proposalId : String) (events : List Event) (votes : List (Bool × ColumnValue)) :
    Prop :=
  (votes.map some).Perm ((latestBallots proposalId events).map Ballot.counted)

/-- The voter of an event that votes, and its ledger. -/
def votedIn (proposalId : String) (event : Event) : Option (String × ℕ) :=
  (ballotOf proposalId event).map fun ballot => (ballot.voter, ballot.ledger)

/-- The events of a proposal: one proposes it, and a voter votes once in a ledger. -/
structure MergeEvents (proposalId : String) (threshold : AmountText) (events : List Event) :
    Prop where
  proposed : ∃ event ∈ events, thresholdOf proposalId event = some threshold
  proposedOnce : ∀ left ∈ events, ∀ right ∈ events, (thresholdOf proposalId left).isSome →
    (thresholdOf proposalId right).isSome → left = right
  votedOnce : ∀ left ∈ events, ∀ right ∈ events, (votedIn proposalId left).isSome →
    votedIn proposalId left = votedIn proposalId right → left = right

/-! ## Runs -/

/-- A delivery, and the order in which the database lists the votes for it. -/
structure Delivered where
  delivery : Delivery
  listing : Listing

def Delivered.event (delivered : Delivered) : Event := delivered.delivery.event

def deliver (tables : Tables) (delivered : Delivered) : Tables :=
  handle tables delivered.delivery delivered.listing

def deliverAll (tables : Tables) (run : List Delivered) : Tables := run.foldl deliver tables

/-- The run delivers the events, all of them, in any order and any number of times. -/
def Delivers (run : List Delivered) (events : List Event) : Prop :=
  ∀ event, event ∈ events ↔ ∃ delivered ∈ run, delivered.event = event

/-- Nothing is stored of the proposal yet, and a voter has one vote. -/
structure Untouched (proposalId : String) (tables : Tables) : Prop where
  proposals : findProposal tables proposalId = none
  votes : ∀ vote ∈ tables.votes, vote.proposalId ≠ proposalId
  keys : (tables.votes.map KeyMergeVote.key).Nodup

/-- The tally that is stored is that of the latest votes, in whatever order they are added. -/
def HoldsLatestTally (proposalId : String) (threshold : AmountText) (events : List Event)
    (tables : Tables) : Prop :=
  ∃ tally, (findProposal tables proposalId).map KeyMergeProposal.tally = some tally ∧
    (∃ votes, ListsLatest proposalId events votes) ∧
      ∀ votes, ListsLatest proposalId events votes → tallyOf threshold votes = some tally

/-! ## Steps -/

/-- The threshold and the tally that are stored of a proposal. -/
def countsOf (tables : Tables) (proposalId : String) : Option (AmountText × KeyMergeVoteTally) :=
  (findProposal tables proposalId).map fun proposal => (proposal.voteThreshold, proposal.tally)

/-- What is counted of the stored vote of a voter. -/
def standing (tables : Tables) (proposalId voter : String) : Option (Bool × ColumnValue) :=
  (findRow KeyMergeVote.key tables.votes (proposalId, voter)).map KeyMergeVote.counted

/-- The vote that a delivery stores for a proposal. -/
def takenBy (proposalId : String) (delivered : Delivered) :
    Option (String × (Bool × ColumnValue)) :=
  (ballotOf proposalId delivered.event).bind fun ballot =>
    ballot.counted.map fun counted => (ballot.voter, counted)

section Steps

variable {tables : Tables} {proposalId : String} {delivered : Delivered}

theorem proposalId_of_findProposal {proposal : KeyMergeProposal}
    (hfound : findProposal tables proposalId = some proposal) :
    proposal.proposalId = proposalId :=
  (mem_of_findRow hfound).2

theorem findProposal_saveProposal (proposal : KeyMergeProposal) :
    findProposal (saveProposal tables proposal) proposalId =
      if proposal.proposalId = proposalId then some proposal
      else findProposal tables proposalId := by
  split
  · rename_i hsame
    subst hsame
    exact findRow_saveRow_self
  · rename_i hother
    exact findRow_saveRow_other (Ne.symm hother)

theorem countsOf_saveProposal (proposal : KeyMergeProposal) :
    countsOf (saveProposal tables proposal) proposalId =
      if proposal.proposalId = proposalId then some (proposal.voteThreshold, proposal.tally)
      else countsOf tables proposalId := by
  rw [countsOf, findProposal_saveProposal]
  split
  · rfl
  · rfl

theorem countsOf_recordProposal (input : KeyMergeProposalInput) :
    countsOf (recordProposal tables input) proposalId =
      (countsOf tables proposalId).or
        ((thresholdIn proposalId (.proposal input)).map fun threshold => (threshold, noVotes)) := by
  rw [recordProposal, thresholdIn]
  cases hfound : findProposal tables input.proposalId with
  | some proposal =>
      dsimp only
      split
      · rename_i hsame
        rw [countsOf, ← hsame, hfound]
        rfl
      · rw [Option.map_none, Option.or_none]
  | none =>
      rw [countsOf_saveProposal]
      dsimp only
      split
      · rename_i hsame
        rw [countsOf, ← hsame, hfound]
        rfl
      · rw [Option.map_none, Option.or_none]

theorem votes_recordProposal (input : KeyMergeProposalInput) :
    (recordProposal tables input).votes = tables.votes := by
  rw [recordProposal]
  split <;> rfl

theorem countsOf_recordExecution (input : KeyMergeExecutionInput) :
    countsOf (recordExecution tables input) proposalId = countsOf tables proposalId := by
  rw [recordExecution]
  cases hfound : findProposal tables input.proposalId with
  | none => rfl
  | some proposal =>
      rw [countsOf_saveProposal]
      dsimp only
      split
      · rename_i hsame
        rw [countsOf, ← hsame, proposalId_of_findProposal hfound, hfound]
        rfl
      · rfl

theorem votes_recordExecution (input : KeyMergeExecutionInput) :
    (recordExecution tables input).votes = tables.votes := by
  rw [recordExecution]
  split <;> rfl

/-- The tables with the row of a vote. -/
def saveVote (tables : Tables) (input : KeyMergeVoteInput) (weight : ColumnValue) : Tables :=
  { tables with votes := saveRow KeyMergeVote.key tables.votes (voteRow tables input weight) }

/-- The proposal of a vote with the tally that the vote leaves, where the tally fits. -/
def retallied (tables : Tables) (input : KeyMergeVoteInput) (weight : ColumnValue)
    (listing : Listing) : Option KeyMergeProposal :=
  (findProposal tables input.proposalId).bind fun proposal =>
    (tallyOf proposal.voteThreshold ((listing.list
      (votesOf (saveVote tables input weight) input.proposalId)).map KeyMergeVote.counted)).map
        fun tally => { proposal with tally := tally }

theorem recordVote_eq {input : KeyMergeVoteInput} {weight : ColumnValue}
    (hweight : input.weight.column = some weight) (listing : Listing) :
    recordVote tables input listing =
      match retallied tables input weight listing with
      | none => saveVote tables input weight
      | some proposal => saveProposal (saveVote tables input weight) proposal := by
  rw [recordVote, hweight, retallied]
  dsimp only
  split
  · rename_i hfound
    have hnone : findProposal tables input.proposalId = none := hfound
    rw [hnone]
    rfl
  · rename_i proposal hfound
    have hsome : findProposal tables input.proposalId = some proposal := hfound
    rw [hsome, Option.bind_some]
    split
    · rename_i htally
      have hunfit : tallyOf proposal.voteThreshold ((listing.list
          (votesOf (saveVote tables input weight) input.proposalId)).map KeyMergeVote.counted) =
            none := htally
      rw [hunfit]
      rfl
    · rename_i tally htally
      have hfits : tallyOf proposal.voteThreshold ((listing.list
          (votesOf (saveVote tables input weight) input.proposalId)).map KeyMergeVote.counted) =
            some tally := htally
      rw [hfits]
      rfl

theorem votes_recordVote_eq {input : KeyMergeVoteInput} {weight : ColumnValue}
    (hweight : input.weight.column = some weight) (listing : Listing) :
    (recordVote tables input listing).votes = (saveVote tables input weight).votes := by
  rw [votes_recordVote, hweight]
  rfl

/-- A vote that is stored gives its proposal a new tally, where the tally fits. -/
theorem countsOf_recordVote {input : KeyMergeVoteInput} {weight : ColumnValue}
    (hweight : input.weight.column = some weight) (listing : Listing) :
    countsOf (recordVote tables input listing) input.proposalId =
      (countsOf tables input.proposalId).map fun counts =>
        (counts.1, (tallyOf counts.1 ((listing.list
          (votesOf (recordVote tables input listing) input.proposalId)).map
            KeyMergeVote.counted)).getD counts.2) := by
  have hvotes : votesOf (recordVote tables input listing) input.proposalId =
      votesOf (saveVote tables input weight) input.proposalId := by
    rw [votesOf, votes_recordVote_eq hweight, votesOf]
  have hsaved : countsOf (saveVote tables input weight) input.proposalId =
      countsOf tables input.proposalId := rfl
  rw [hvotes, recordVote_eq hweight, retallied]
  cases hfound : findProposal tables input.proposalId with
  | none =>
      rw [Option.bind_none, hsaved, countsOf, hfound]
      rfl
  | some proposal =>
      have hcounts : countsOf tables input.proposalId =
          some (proposal.voteThreshold, proposal.tally) := by
        rw [countsOf, hfound]
        rfl
      rw [Option.bind_some, hcounts, Option.map_some]
      cases tallyOf proposal.voteThreshold ((listing.list
        (votesOf (saveVote tables input weight) input.proposalId)).map KeyMergeVote.counted) with
      | none => exact hsaved.trans hcounts
      | some tally =>
          exact (countsOf_saveProposal _).trans (if_pos (proposalId_of_findProposal hfound))

theorem countsOf_recordVote_other {input : KeyMergeVoteInput} (listing : Listing)
    (hother : input.proposalId ≠ proposalId) :
    countsOf (recordVote tables input listing) proposalId = countsOf tables proposalId := by
  cases hweight : input.weight.column with
  | none => rw [recordVote, hweight]
  | some weight =>
      rw [recordVote_eq hweight]
      cases hretallied : retallied tables input weight listing with
      | none => rfl
      | some proposal =>
          obtain ⟨stored, hfound, htally⟩ := Option.bind_eq_some_iff.mp hretallied
          obtain ⟨tally, -, rfl⟩ := Option.map_eq_some_iff.mp htally
          have hid : stored.proposalId = input.proposalId := proposalId_of_findProposal hfound
          exact (countsOf_saveProposal _).trans (if_neg (hid ▸ hother))

/-- A vote is taken when the column takes its weight. -/
theorem of_takenBy {voter : String} {counted : Bool × ColumnValue}
    (htaken : takenBy proposalId delivered = some (voter, counted)) :
    ∃ input weight, readMessage delivered.delivery = some (.vote input) ∧
      input.proposalId = proposalId ∧ input.voterAddress = voter ∧
        input.weight.column = some weight ∧ counted = (input.support, weight) := by
  rw [takenBy, Delivered.event, ballotOf_event] at htaken
  obtain ⟨ballot, hballot, hcounted⟩ := Option.bind_eq_some_iff.mp htaken
  obtain ⟨message, hmessage, hballot⟩ := Option.bind_eq_some_iff.mp hballot
  cases message with
  | proposal input => cases hballot
  | execution input => cases hballot
  | vote input =>
      rw [ballotIn] at hballot
      split at hballot
      · rename_i hid
        obtain rfl := Option.some.inj hballot
        obtain ⟨pair, hpair, hsame⟩ := Option.map_eq_some_iff.mp hcounted
        obtain ⟨weight, hweight, rfl⟩ := Option.map_eq_some_iff.mp hpair
        obtain ⟨rfl, rfl⟩ := Prod.mk.inj hsame
        exact ⟨input, weight, hmessage, hid, rfl, hweight, rfl⟩
      · cases hballot

theorem column_of_takenBy (huntaken : takenBy proposalId delivered = none)
    {input : KeyMergeVoteInput} (hmessage : readMessage delivered.delivery = some (.vote input))
    (hid : input.proposalId = proposalId) : input.weight.column = none := by
  rw [takenBy, Delivered.event, ballotOf_event, hmessage, Option.bind_some, ballotIn,
    if_pos hid, Option.bind_some, Option.map_eq_none_iff] at huntaken
  exact Option.map_eq_none_iff.mp huntaken

/-- What is not taken saves no vote of the proposal. -/
theorem votes_deliver_untaken (huntaken : takenBy proposalId delivered = none) :
    (deliver tables delivered).votes = tables.votes ∨
      ∃ entity : KeyMergeVote, entity.proposalId ≠ proposalId ∧
        (deliver tables delivered).votes = saveRow KeyMergeVote.key tables.votes entity := by
  rw [deliver, handle]
  split
  · exact .inl (votes_recordProposal _)
  · rename_i input hmessage
    rw [votes_recordVote]
    split
    · exact .inl rfl
    · rename_i weight hweight
      by_cases hid : input.proposalId = proposalId
      · rw [column_of_takenBy huntaken hmessage hid] at hweight
        cases hweight
      · exact .inr ⟨_, hid, rfl⟩
  · exact .inl (votes_recordExecution _)
  · exact .inl rfl

theorem votesOf_deliver_untaken (huntaken : takenBy proposalId delivered = none) :
    votesOf (deliver tables delivered) proposalId = votesOf tables proposalId := by
  rw [votesOf, votesOf]
  rcases votes_deliver_untaken huntaken with hsame | ⟨entity, hid, hsaved⟩
  · rw [hsame]
  · rw [hsaved]
    refine filter_saveRow_other (decide_eq_false hid) fun row _ hkey => decide_eq_false ?_
    rw [(Prod.mk.inj hkey).1]
    exact hid

theorem standing_deliver_untaken (huntaken : takenBy proposalId delivered = none)
    (voter : String) :
    standing (deliver tables delivered) proposalId voter = standing tables proposalId voter := by
  rw [standing, standing]
  rcases votes_deliver_untaken huntaken with hsame | ⟨entity, hid, hsaved⟩
  · rw [hsame]
  · rw [hsaved]
    exact congrArg (Option.map KeyMergeVote.counted)
      (findRow_saveRow_other fun hkey => hid (Prod.mk.inj hkey).1.symm)

/-- The first delivery of a proposal starts its tally, and no other starts it again. -/
theorem countsOf_deliver_untaken (huntaken : takenBy proposalId delivered = none) :
    countsOf (deliver tables delivered) proposalId =
      (countsOf tables proposalId).or
        ((thresholdOf proposalId delivered.event).map fun threshold => (threshold, noVotes)) := by
  rw [Delivered.event, thresholdOf_event, deliver, handle]
  split
  · rename_i input hmessage
    rw [hmessage, Option.bind_some, countsOf_recordProposal]
  · rename_i input hmessage
    have hnone : thresholdIn proposalId (.vote input) = none := rfl
    rw [hmessage, Option.bind_some, hnone, Option.map_none, Option.or_none]
    by_cases hid : input.proposalId = proposalId
    · rw [recordVote, column_of_takenBy huntaken hmessage hid]
    · exact countsOf_recordVote_other _ hid
  · rename_i input hmessage
    have hnone : thresholdIn proposalId (.execution input) = none := rfl
    rw [hmessage, Option.bind_some, hnone, Option.map_none, Option.or_none,
      countsOf_recordExecution]
  · rename_i hmessage
    rw [hmessage, Option.bind_none, Option.map_none, Option.or_none]

/-- A vote that is taken stands, whatever stood before. -/
theorem standing_deliver_taken {voter : String} {counted : Bool × ColumnValue}
    (htaken : takenBy proposalId delivered = some (voter, counted)) (other : String) :
    standing (deliver tables delivered) proposalId other =
      if other = voter then some counted else standing tables proposalId other := by
  obtain ⟨input, weight, hmessage, rfl, rfl, hweight, rfl⟩ := of_takenBy htaken
  have hvotes : (deliver tables delivered).votes = (saveVote tables input weight).votes := by
    rw [deliver, handle, hmessage]
    exact votes_recordVote_eq hweight _
  rw [standing, standing, hvotes]
  split
  · rename_i hsame
    rw [hsame]
    exact congrArg (Option.map KeyMergeVote.counted) findRow_saveRow_self
  · rename_i hother
    exact congrArg (Option.map KeyMergeVote.counted)
      (findRow_saveRow_other fun hkey => hother (Prod.mk.inj hkey).2)

theorem countsOf_deliver_taken {voter : String} {counted : Bool × ColumnValue}
    (htaken : takenBy proposalId delivered = some (voter, counted)) :
    countsOf (deliver tables delivered) proposalId =
      (countsOf tables proposalId).map fun counts =>
        (counts.1, (tallyOf counts.1 ((delivered.listing.list
          (votesOf (deliver tables delivered) proposalId)).map
            KeyMergeVote.counted)).getD counts.2) := by
  obtain ⟨input, weight, hmessage, rfl, -, hweight, -⟩ := of_takenBy htaken
  have hdeliver : deliver tables delivered = recordVote tables input delivered.listing := by
    rw [deliver, handle, hmessage]
  rw [hdeliver]
  exact countsOf_recordVote hweight _

/-- A voter has one row. -/
theorem nodup_deliver (hkeys : (tables.votes.map KeyMergeVote.key).Nodup) :
    ((deliver tables delivered).votes.map KeyMergeVote.key).Nodup := by
  rw [deliver, handle]
  split
  · rwa [votes_recordProposal]
  · rw [votes_recordVote]
    split
    · exact hkeys
    · exact nodup_saveRow hkeys
  · rwa [votes_recordExecution]
  · exact hkeys

theorem thresholdOf_of_takenBy {voter : String} {counted : Bool × ColumnValue}
    (htaken : takenBy proposalId delivered = some (voter, counted)) :
    thresholdOf proposalId delivered.event = none := by
  obtain ⟨input, weight, hmessage, -⟩ := of_takenBy htaken
  rw [Delivered.event, thresholdOf_event, hmessage]
  rfl

end Steps

/-! ## Whole runs -/

/-- The votes that a run stores for a proposal. -/
def takenVotes (proposalId : String) (run : List Delivered) :
    List (String × (Bool × ColumnValue)) :=
  run.filterMap (takenBy proposalId)

/-- The vote of a voter that was delivered last. -/
def lastTaken (proposalId : String) (run : List Delivered) (voter : String) :
    Option (Bool × ColumnValue) :=
  (takenVotes proposalId run).reverse.lookup voter

section Runs

variable {tables : Tables} {proposalId : String} {threshold : AmountText}
variable {run : List Delivered}

theorem deliverAll_concat (run : List Delivered) (delivered : Delivered) :
    deliverAll tables (run ++ [delivered]) = deliver (deliverAll tables run) delivered := by
  rw [deliverAll, List.foldl_append]
  rfl

theorem nodup_deliverAll (hkeys : (tables.votes.map KeyMergeVote.key).Nodup)
    (run : List Delivered) : ((deliverAll tables run).votes.map KeyMergeVote.key).Nodup := by
  induction run generalizing tables with
  | nil => exact hkeys
  | cons delivered rest ih => exact ih (nodup_deliver hkeys)

theorem lastTaken_concat (run : List Delivered) (delivered : Delivered) (voter : String) :
    lastTaken proposalId (run ++ [delivered]) voter =
      match takenBy proposalId delivered with
      | none => lastTaken proposalId run voter
      | some (other, counted) =>
          if voter = other then some counted else lastTaken proposalId run voter := by
  rw [lastTaken, takenVotes, List.filterMap_append, List.reverse_append]
  cases htaken : takenBy proposalId delivered with
  | none =>
      rw [List.filterMap_cons_none htaken]
      rfl
  | some taken =>
      rw [List.filterMap_cons_some htaken]
      obtain ⟨other, counted⟩ := taken
      change ((other, counted) :: (takenVotes proposalId run).reverse).lookup voter =
        if voter = other then some counted else lastTaken proposalId run voter
      rw [List.lookup_cons]
      by_cases hsame : voter = other
      · rw [if_pos hsame, beq_iff_eq.mpr hsame]
      · rw [if_neg hsame, beq_eq_false_iff_ne.mpr hsame]
        rfl

/-- The stored vote of a voter is the one that was delivered last. -/
theorem standing_deliverAll (huntouched : Untouched proposalId tables) (run : List Delivered)
    (voter : String) :
    standing (deliverAll tables run) proposalId voter = lastTaken proposalId run voter := by
  induction run using List.reverseRecOn with
  | nil =>
      have hnone : findRow KeyMergeVote.key tables.votes (proposalId, voter) = none :=
        findRow_eq_none.mpr fun vote hvote hkey =>
          huntouched.votes vote hvote (Prod.mk.inj hkey).1
      change (findRow KeyMergeVote.key tables.votes (proposalId, voter)).map _ = none
      rw [hnone]
      rfl
  | append_singleton run delivered ih =>
      rw [deliverAll_concat, lastTaken_concat]
      cases htaken : takenBy proposalId delivered with
      | none => rw [standing_deliver_untaken htaken, ih]
      | some taken => rw [standing_deliver_taken htaken, ih]

/-- The proposal is stored with its threshold. -/
def Proposed (proposalId : String) (threshold : AmountText) (tables : Tables) : Prop :=
  ∃ tally, countsOf tables proposalId = some (threshold, tally)

theorem proposed_deliver {delivered : Delivered}
    (hproposed : Proposed proposalId threshold tables) :
    Proposed proposalId threshold (deliver tables delivered) := by
  obtain ⟨tally, hcounts⟩ := hproposed
  cases htaken : takenBy proposalId delivered with
  | none => exact ⟨tally, by rw [countsOf_deliver_untaken htaken, hcounts, Option.some_or]⟩
  | some taken => exact ⟨_, by rw [countsOf_deliver_taken htaken, hcounts, Option.map_some]⟩

theorem proposed_deliverAll (hproposed : Proposed proposalId threshold tables)
    (run : List Delivered) : Proposed proposalId threshold (deliverAll tables run) := by
  induction run generalizing tables with
  | nil => exact hproposed
  | cons delivered rest ih => exact ih (proposed_deliver hproposed)

/-- Without a proposal, votes are stored and not counted. -/
theorem countsOf_deliver_none (delivered : Delivered)
    (hnone : countsOf tables proposalId = none) :
    countsOf (deliver tables delivered) proposalId =
      (thresholdOf proposalId delivered.event).map fun threshold => (threshold, noVotes) := by
  cases htaken : takenBy proposalId delivered with
  | none => rw [countsOf_deliver_untaken htaken, hnone, Option.none_or]
  | some taken =>
      rw [countsOf_deliver_taken htaken, hnone, thresholdOf_of_takenBy htaken]
      rfl

/-- The proposal is stored once it was delivered. -/
theorem proposed_of_delivered (hnone : countsOf tables proposalId = none)
    (hthreshold : ∀ delivered ∈ run, ∀ other,
      thresholdOf proposalId delivered.event = some other → other = threshold)
    (hdelivered : ∃ delivered ∈ run, (thresholdOf proposalId delivered.event).isSome) :
    Proposed proposalId threshold (deliverAll tables run) := by
  induction run generalizing tables with
  | nil =>
      obtain ⟨delivered, hmem, -⟩ := hdelivered
      cases hmem
  | cons first rest ih =>
      obtain ⟨hfirst, hrest⟩ := List.forall_mem_cons.mp hthreshold
      have hcounts := countsOf_deliver_none first hnone
      cases hproposes : thresholdOf proposalId first.event with
      | some proposed =>
          obtain rfl := hfirst proposed hproposes
          rw [hproposes] at hcounts
          exact proposed_deliverAll ⟨noVotes, hcounts⟩ rest
      | none =>
          rw [hproposes] at hcounts
          obtain ⟨delivered, hmem, hsome⟩ := hdelivered
          rcases List.mem_cons.mp hmem with rfl | hlater
          · rw [hproposes] at hsome
            cases hsome
          · exact ih hcounts hrest ⟨delivered, hlater, hsome⟩

/-- The stored tally is that of the stored votes, where their order does not matter. -/
def Tallied (proposalId : String) (threshold : AmountText) (tables : Tables) : Prop :=
  ∀ tally, (∀ votes : List (Bool × ColumnValue),
    votes.Perm ((votesOf tables proposalId).map KeyMergeVote.counted) →
      tallyOf threshold votes = some tally) →
        countsOf tables proposalId = some (threshold, tally)

/-- Every vote brings the tally up to date. -/
theorem tallied_deliver_taken {delivered : Delivered}
    (htaken : (takenBy proposalId delivered).isSome)
    (hproposed : Proposed proposalId threshold tables) :
    Tallied proposalId threshold (deliver tables delivered) := by
  intro tally htally
  obtain ⟨before, hcounts⟩ := hproposed
  obtain ⟨taken, hsome⟩ := Option.isSome_iff_exists.mp htaken
  rw [countsOf_deliver_taken hsome, hcounts, Option.map_some,
    htally _ ((delivered.listing.perm _).map _), Option.getD_some]

theorem tallied_deliver_untaken {delivered : Delivered}
    (huntaken : takenBy proposalId delivered = none)
    (htallied : Tallied proposalId threshold tables) :
    Tallied proposalId threshold (deliver tables delivered) := by
  intro tally htally
  rw [votesOf_deliver_untaken huntaken] at htally
  rw [countsOf_deliver_untaken huntaken, htallied tally htally, Option.some_or]

theorem tallied_deliver {delivered : Delivered}
    (hproposed : Proposed proposalId threshold tables)
    (htallied : Tallied proposalId threshold tables) :
    Tallied proposalId threshold (deliver tables delivered) := by
  cases htaken : takenBy proposalId delivered with
  | none => exact tallied_deliver_untaken htaken htallied
  | some taken => exact tallied_deliver_taken (Option.isSome_iff_exists.mpr ⟨_, htaken⟩) hproposed

theorem tallied_deliverAll (hproposed : Proposed proposalId threshold tables)
    (htallied : Tallied proposalId threshold tables) (run : List Delivered) :
    Tallied proposalId threshold (deliverAll tables run) := by
  induction run generalizing tables with
  | nil => exact htallied
  | cons delivered rest ih =>
      exact ih (proposed_deliver hproposed) (tallied_deliver hproposed htallied)

/-- Once a vote was delivered after the proposal, the tally is up to date. -/
theorem tallied_of_taken (hproposed : Proposed proposalId threshold tables)
    (htaken : ∃ delivered ∈ run, (takenBy proposalId delivered).isSome) :
    Tallied proposalId threshold (deliverAll tables run) := by
  induction run generalizing tables with
  | nil =>
      obtain ⟨delivered, hmem, -⟩ := htaken
      cases hmem
  | cons first rest ih =>
      obtain ⟨delivered, hmem, hsome⟩ := htaken
      rcases List.mem_cons.mp hmem with rfl | hlater
      · exact tallied_deliverAll (proposed_deliver hproposed)
          (tallied_deliver_taken hsome hproposed) rest
      · exact ih (proposed_deliver hproposed) ⟨delivered, hlater, hsome⟩

/-- A vote is stored after the proposal. -/
def Counted (proposalId : String) (run : List Delivered) : Prop :=
  ∃ before after, run = before ++ after ∧
    (∃ delivered ∈ before, (thresholdOf proposalId delivered.event).isSome) ∧
      ∃ delivered ∈ after, (takenBy proposalId delivered).isSome

theorem not_counted_of_concat {delivered : Delivered}
    (huncounted : ¬Counted proposalId (run ++ [delivered])) :
    ¬Counted proposalId run ∧
      ((∃ earlier ∈ run, (thresholdOf proposalId earlier.event).isSome) →
        takenBy proposalId delivered = none) := by
  constructor
  · rintro ⟨before, after, rfl, hproposed, taken, hmem, htaken⟩
    exact huncounted ⟨before, after ++ [delivered], List.append_assoc _ _ _, hproposed, taken,
      List.mem_append_left _ hmem, htaken⟩
  · intro hproposed
    by_contra htaken
    exact huncounted ⟨run, [delivered], rfl, hproposed, delivered, List.mem_singleton_self _,
      Option.isSome_iff_ne_none.mpr htaken⟩

/-- A proposal is stored only when it is delivered. -/
theorem countsOf_undelivered (hnone : countsOf tables proposalId = none)
    (hundelivered : ∀ delivered ∈ run, thresholdOf proposalId delivered.event = none) :
    countsOf (deliverAll tables run) proposalId = none := by
  induction run generalizing tables with
  | nil => exact hnone
  | cons first rest ih =>
      obtain ⟨hfirst, hrest⟩ := List.forall_mem_cons.mp hundelivered
      exact ih (by rw [countsOf_deliver_none first hnone, hfirst, Option.map_none]) hrest

/-- As long as no vote is delivered after the proposal, its tally is the empty one. -/
theorem countsOf_of_not_counted (hnone : countsOf tables proposalId = none)
    (huncounted : ¬Counted proposalId run) :
    ∀ counts ∈ countsOf (deliverAll tables run) proposalId, counts.2 = noVotes := by
  induction run using List.reverseRecOn with
  | nil =>
      intro counts hcounts
      cases hnone.symm.trans hcounts
  | append_singleton run delivered ih =>
      obtain ⟨hbefore, huntaken⟩ := not_counted_of_concat huncounted
      rw [deliverAll_concat]
      by_cases hproposed : ∃ earlier ∈ run, (thresholdOf proposalId earlier.event).isSome
      · rw [countsOf_deliver_untaken (huntaken hproposed)]
        intro counts hcounts
        rcases Option.or_eq_some_iff.mp hcounts with hstored | ⟨-, hstarted⟩
        · exact ih hbefore counts hstored
        · obtain ⟨threshold, -, rfl⟩ := Option.map_eq_some_iff.mp hstarted
          rfl
      · have hundelivered : countsOf (deliverAll tables run) proposalId = none :=
          countsOf_undelivered hnone fun earlier hearlier =>
            Option.not_isSome_iff_eq_none.mp fun hsome => hproposed ⟨earlier, hearlier, hsome⟩
        rw [countsOf_deliver_none delivered hundelivered]
        intro counts hcounts
        obtain ⟨threshold, -, rfl⟩ := Option.map_eq_some_iff.mp hcounts
        rfl

end Runs

/-! ## Latest votes and stored votes -/

section Latest

variable {tables : Tables} {proposalId : String} {threshold : AmountText}
variable {events : List Event} {run : List Delivered}

theorem mem_ballotsOf {ballot : Ballot} :
    ballot ∈ ballotsOf proposalId events ↔
      ∃ event ∈ events, ballotOf proposalId event = some ballot := by
  rw [ballotsOf, List.mem_dedup, List.mem_filterMap]

theorem mem_latestBallots {ballot : Ballot} :
    ballot ∈ latestBallots proposalId events ↔ ballot ∈ ballotsOf proposalId events ∧
      ∀ other ∈ ballotsOf proposalId events, other.voter = ballot.voter →
        other.ledger ≤ ballot.ledger := by
  simp only [latestBallots, List.mem_filter, List.all_eq_true, decide_eq_true_eq]

/-- Every voter has a latest vote. -/
theorem exists_latest {ballot : Ballot} (hballot : ballot ∈ ballotsOf proposalId events) :
    ∃ latest ∈ latestBallots proposalId events, latest.voter = ballot.voter := by
  obtain ⟨latest, hlatest, hmax⟩ := Finset.exists_max_image
    ((ballotsOf proposalId events).filter fun other => other.voter = ballot.voter).toFinset
    Ballot.ledger ⟨ballot, by simpa using hballot⟩
  simp only [List.mem_toFinset, List.mem_filter, decide_eq_true_eq] at hlatest hmax
  refine ⟨latest, mem_latestBallots.mpr ⟨hlatest.1, fun other hother hvoter => ?_⟩, hlatest.2⟩
  exact hmax other ⟨hother, hvoter.trans hlatest.2⟩

/-- A voter has one latest vote. -/
theorem nodup_latest (hevents : MergeEvents proposalId threshold events) :
    ((latestBallots proposalId events).map Ballot.voter).Nodup := by
  refine List.Nodup.map_on (fun left hleft right hright hvoter => ?_)
    ((List.nodup_dedup _).filter _)
  obtain ⟨hleftMem, hleftMax⟩ := mem_latestBallots.mp hleft
  obtain ⟨hrightMem, hrightMax⟩ := mem_latestBallots.mp hright
  have hledger : left.ledger = right.ledger :=
    le_antisymm (hrightMax left hleftMem hvoter) (hleftMax right hrightMem hvoter.symm)
  obtain ⟨leftEvent, hleftEvent, hleftBallot⟩ := mem_ballotsOf.mp hleftMem
  obtain ⟨rightEvent, hrightEvent, hrightBallot⟩ := mem_ballotsOf.mp hrightMem
  have hkey : votedIn proposalId leftEvent = votedIn proposalId rightEvent := by
    rw [votedIn, votedIn, hleftBallot, hrightBallot, Option.map_some, Option.map_some, hvoter,
      hledger]
  have hvoted : (votedIn proposalId leftEvent).isSome := by
    rw [votedIn, hleftBallot]
    rfl
  obtain rfl := hevents.votedOnce leftEvent hleftEvent rightEvent hrightEvent hvoted hkey
  exact Option.some.inj (hleftBallot.symm.trans hrightBallot)

/-- Rows of one proposal differ in their voters. -/
theorem nodup_votesOf (hkeys : (tables.votes.map KeyMergeVote.key).Nodup) :
    ((votesOf tables proposalId).map KeyMergeVote.voterAddress).Nodup := by
  have hsame : ((votesOf tables proposalId).map KeyMergeVote.voterAddress).map
      (Prod.mk proposalId) = (votesOf tables proposalId).map KeyMergeVote.key := by
    rw [List.map_map]
    refine List.map_congr_left fun vote hvote => ?_
    have hid : vote.proposalId = proposalId := by
      simpa using (List.mem_filter.mp hvote).2
    change (proposalId, vote.voterAddress) = (vote.proposalId, vote.voterAddress)
    rw [hid]
  refine List.Nodup.of_map (Prod.mk proposalId) ?_
  rw [hsame]
  exact hkeys.sublist (List.filter_sublist.map _)

theorem standing_of_mem (hkeys : (tables.votes.map KeyMergeVote.key).Nodup) {vote : KeyMergeVote}
    (hvote : vote ∈ votesOf tables proposalId) :
    standing tables proposalId vote.voterAddress = some vote.counted := by
  obtain ⟨hmem, hid⟩ := List.mem_filter.mp hvote
  have hid : vote.proposalId = proposalId := by simpa using hid
  subst hid
  have hfound := findRow_of_mem hkeys hmem
  rw [standing]
  exact congrArg (Option.map KeyMergeVote.counted) hfound

/-- The voters of the stored votes are those that a vote stands for. -/
theorem mem_voters_iff (hkeys : (tables.votes.map KeyMergeVote.key).Nodup) {voter : String} :
    voter ∈ (votesOf tables proposalId).map KeyMergeVote.voterAddress ↔
      (standing tables proposalId voter).isSome := by
  rw [List.mem_map]
  constructor
  · rintro ⟨vote, hvote, rfl⟩
    rw [standing_of_mem hkeys hvote]
    rfl
  · intro hsome
    rw [standing, Option.isSome_map] at hsome
    obtain ⟨vote, hfound⟩ := Option.isSome_iff_exists.mp hsome
    obtain ⟨hmem, hkey⟩ := mem_of_findRow hfound
    obtain ⟨hid, hvoter⟩ := Prod.mk.inj hkey
    exact ⟨vote, List.mem_filter.mpr ⟨hmem, decide_eq_true hid⟩, hvoter⟩

theorem taken_of_lastTaken {voter : String} {counted : Bool × ColumnValue}
    (hlast : lastTaken proposalId run voter = some counted) :
    ∃ delivered ∈ run, takenBy proposalId delivered = some (voter, counted) := by
  obtain ⟨before, after, hsplit, -⟩ := List.lookup_eq_some_iff.mp hlast
  have hmem : (voter, counted) ∈ (takenVotes proposalId run).reverse := by
    rw [hsplit]
    exact List.mem_append_right _ List.mem_cons_self
  exact List.mem_filterMap.mp (List.mem_reverse.mp hmem)

/-- A vote that is taken is one of the votes of the proposal. -/
theorem ballot_of_taken (hdelivers : Delivers run events) {delivered : Delivered}
    (hmem : delivered ∈ run) {voter : String} {counted : Bool × ColumnValue}
    (htaken : takenBy proposalId delivered = some (voter, counted)) :
    ∃ ballot ∈ ballotsOf proposalId events, ballot.voter = voter := by
  obtain ⟨ballot, hballot, hcounted⟩ := Option.bind_eq_some_iff.mp htaken
  obtain ⟨pair, -, hsame⟩ := Option.map_eq_some_iff.mp hcounted
  exact ⟨ballot, mem_ballotsOf.mpr ⟨delivered.event, (hdelivers _).mpr ⟨delivered, hmem, rfl⟩,
    hballot⟩, (Prod.mk.inj hsame).1⟩

/-- The votes that stand are counted as the latest ones are. -/
theorem perm_latest (huntouched : Untouched proposalId tables)
    (hevents : MergeEvents proposalId threshold events) (hdelivers : Delivers run events)
    (hlast : ∀ ballot ∈ latestBallots proposalId events,
      ballot.counted.isSome ∧ lastTaken proposalId run ballot.voter = ballot.counted) :
    (((votesOf (deliverAll tables run) proposalId).map KeyMergeVote.counted).map some).Perm
      ((latestBallots proposalId events).map Ballot.counted) := by
  have hkeys := nodup_deliverAll huntouched.keys run
  have hstored : ((votesOf (deliverAll tables run) proposalId).map KeyMergeVote.counted).map some =
      ((votesOf (deliverAll tables run) proposalId).map KeyMergeVote.voterAddress).map
        (lastTaken proposalId run) := by
    rw [List.map_map, List.map_map]
    refine List.map_congr_left fun vote hvote => ?_
    have hstands := standing_of_mem hkeys hvote
    rw [standing_deliverAll huntouched] at hstands
    exact hstands.symm
  have hlatest : (latestBallots proposalId events).map Ballot.counted =
      ((latestBallots proposalId events).map Ballot.voter).map (lastTaken proposalId run) := by
    rw [List.map_map]
    exact List.map_congr_left fun ballot hballot => (hlast ballot hballot).2.symm
  rw [hstored, hlatest]
  refine List.Perm.map _ ((List.perm_ext_iff_of_nodup (nodup_votesOf hkeys)
    (nodup_latest hevents)).mpr fun voter => ?_)
  rw [mem_voters_iff hkeys, standing_deliverAll huntouched, List.mem_map]
  constructor
  · intro hsome
    obtain ⟨counted, hcounted⟩ := Option.isSome_iff_exists.mp hsome
    obtain ⟨delivered, hmem, htaken⟩ := taken_of_lastTaken hcounted
    obtain ⟨ballot, hballot, rfl⟩ := ballot_of_taken hdelivers hmem htaken
    exact exists_latest hballot
  · rintro ⟨ballot, hballot, rfl⟩
    rw [(hlast ballot hballot).2]
    exact (hlast ballot hballot).1

end Latest

/-! ## Tallies -/

/-- Without votes, a proposal has the tally that it starts with. -/
theorem tallyOf_nil (threshold : AmountText) : tallyOf threshold [] = some noVotes := by
  have hzero : (AmountText.fixed (.ofRat 0)).column = some .zero := by decide +kernel
  have hsum : (JsNumber.ofRat 0).add (.ofRat 0) = .ofRat 0 := by decide +kernel
  have hless : (JsNumber.ofRat 0).lt (.ofRat 0) = false := by decide +kernel
  have hreached : reachesThreshold threshold (.ofRat 0) (.ofRat 0) = false := by
    simp only [reachesThreshold, hless, Bool.false_and, ite_self]
  simp only [tallyOf, sumWeights, List.filter_nil, List.map_nil, List.foldl_nil, hsum, hzero,
    hreached, List.length_nil, Option.bind_eq_bind, Option.bind_some, Option.pure_def, noVotes]

def weightsFor (votes : List (Bool × ColumnValue)) : List ColumnValue :=
  (votes.filter fun vote => vote.1).map Prod.snd

def weightsAgainst (votes : List (Bool × ColumnValue)) : List ColumnValue :=
  (votes.filter fun vote => !vote.1).map Prod.snd

/-- The sums and the number of the votes make the tally. -/
theorem tallyOf_congr {threshold : AmountText} {left right : List (Bool × ColumnValue)}
    (hfor : sumWeights (weightsFor left) = sumWeights (weightsFor right))
    (hagainst : sumWeights (weightsAgainst left) = sumWeights (weightsAgainst right))
    (hlength : left.length = right.length) :
    tallyOf threshold left = tallyOf threshold right := by
  rw [weightsFor, weightsFor] at hfor
  rw [weightsAgainst, weightsAgainst] at hagainst
  simp only [tallyOf, hfor, hagainst, hlength]

/-- Totals that fit their columns make a tally. -/
theorem exists_tally (threshold : AmountText) {votes : List (Bool × ColumnValue)}
    {sumFor sumAgainst : JsNumber} (hfor : sumWeights (weightsFor votes) = sumFor)
    (hagainst : sumWeights (weightsAgainst votes) = sumAgainst)
    (hcolumns : (AmountText.fixed sumFor).column.isSome ∧
      (AmountText.fixed sumAgainst).column.isSome ∧
        (AmountText.fixed (sumFor.add sumAgainst)).column.isSome) :
    ∃ tally, tallyOf threshold votes = some tally := by
  obtain ⟨hcolumnFor, hcolumnAgainst, hcolumnTotal⟩ := hcolumns
  obtain ⟨columnFor, hfits⟩ := Option.isSome_iff_exists.mp hcolumnFor
  obtain ⟨columnAgainst, hfitsAgainst⟩ := Option.isSome_iff_exists.mp hcolumnAgainst
  obtain ⟨columnTotal, hfitsTotal⟩ := Option.isSome_iff_exists.mp hcolumnTotal
  rw [weightsFor] at hfor
  rw [weightsAgainst] at hagainst
  simp only [tallyOf, hfor, hagainst, hfits, hfitsAgainst, hfitsTotal, Option.bind_eq_bind,
    Option.bind_some, Option.pure_def, Option.some.injEq, exists_eq']

/-! ## Integers as weights -/

section Whole

/-- A weight without a fraction; NaN counts as zero. -/
def IsWhole : ColumnValue → Prop
  | .number units => 10 ^ 7 ∣ units.count
  | .nan => True

instance (weight : ColumnValue) : Decidable (IsWhole weight) :=
  match weight with
  | .number units => inferInstanceAs (Decidable (10 ^ 7 ∣ units.count))
  | .nan => inferInstanceAs (Decidable True)

def wholeOf : ColumnValue → ℤ
  | .number units => units.count / 10 ^ 7
  | .nan => 0

theorem weightNumber_whole {weight : ColumnValue} (hwhole : IsWhole weight) :
    weightNumber weight = .ofRat (wholeOf weight) := by
  cases weight with
  | nan => rfl
  | number units =>
      obtain ⟨whole, hcount⟩ := hwhole
      rw [weightNumber, wholeOf, ColumnUnits.value, hcount,
        Int.mul_ediv_cancel_left _ (by norm_num), Int.cast_mul, Int.cast_pow, Int.cast_ofNat,
        mul_div_cancel_left₀ _ (by norm_num)]

theorem isI128_of_abs_le {number : ℤ} (hsize : |number| ≤ 2 ^ 53) : IsI128 number := by
  obtain ⟨hlow, hhigh⟩ := abs_le.mp hsize
  exact ⟨by omega, by omega⟩

theorem represents_of_abs_le {number : ℤ} (hsize : |number| ≤ 2 ^ 53) :
    double.Represents number :=
  double.represents_intCast (by decide) hsize

/-- Doubles add integers of at most 2^53 as they are. -/
theorem add_whole {left right : ℤ} (hsize : |left| + |right| ≤ 2 ^ 53) :
    (JsNumber.ofRat left).add (.ofRat right) = .ofRat ((left + right : ℤ) : ℚ) := by
  have hleft : |left| ≤ 2 ^ 53 := (le_add_of_nonneg_right (abs_nonneg _)).trans hsize
  have hright : |right| ≤ 2 ^ 53 := (le_add_of_nonneg_left (abs_nonneg _)).trans hsize
  obtain ⟨first, hfirst, hfirstVal⟩ := exists_ofRat (isI128_of_abs_le hleft)
  obtain ⟨second, hsecond, hsecondVal⟩ := exists_ofRat (isI128_of_abs_le hright)
  rw [hfirst, hsecond, JsNumber.add, hfirstVal, hsecondVal,
    BinaryFormat.round_eq_self (represents_of_abs_le hleft),
    BinaryFormat.round_eq_self (represents_of_abs_le hright), Int.cast_add]

def wholeSum (weights : List ColumnValue) : ℤ := (weights.map wholeOf).sum

def wholeSize (weights : List ColumnValue) : ℤ := (weights.map fun weight => |wholeOf weight|).sum

theorem wholeSize_cons (first : ColumnValue) (rest : List ColumnValue) :
    wholeSize (first :: rest) = |wholeOf first| + wholeSize rest := by
  rw [wholeSize, List.map_cons, List.sum_cons, wholeSize]

theorem wholeSum_cons (first : ColumnValue) (rest : List ColumnValue) :
    wholeSum (first :: rest) = wholeOf first + wholeSum rest := by
  rw [wholeSum, List.map_cons, List.sum_cons, wholeSum]

theorem abs_wholeSum_le (weights : List ColumnValue) : |wholeSum weights| ≤ wholeSize weights := by
  induction weights with
  | nil => rfl
  | cons first rest ih =>
      rw [wholeSum_cons, wholeSize_cons]
      exact (abs_add_le _ _).trans (by linarith)

theorem wholeSize_nonneg (weights : List ColumnValue) : 0 ≤ wholeSize weights :=
  (abs_nonneg _).trans (abs_wholeSum_le weights)

theorem foldl_whole {weights : List ColumnValue} (start : ℤ)
    (hwhole : ∀ weight ∈ weights, IsWhole weight)
    (hsize : |start| + wholeSize weights ≤ 2 ^ 53) :
    weights.foldl (fun (sum : JsNumber) weight => sum.add (weightNumber weight)) (.ofRat start) =
      .ofRat ((start + wholeSum weights : ℤ) : ℚ) := by
  induction weights generalizing start with
  | nil => rw [List.foldl_nil, wholeSum, List.map_nil, List.sum_nil, add_zero]
  | cons first rest ih =>
      obtain ⟨hfirst, hrest⟩ := List.forall_mem_cons.mp hwhole
      rw [wholeSize_cons] at hsize
      have hothers := wholeSize_nonneg rest
      have habs := abs_add_le start (wholeOf first)
      rw [List.foldl_cons, weightNumber_whole hfirst, add_whole (by linarith),
        ih _ hrest (by linarith), wholeSum_cons, add_assoc]

theorem sumWeights_whole {weights : List ColumnValue} (hwhole : ∀ weight ∈ weights, IsWhole weight)
    (hsize : wholeSize weights ≤ 2 ^ 53) : sumWeights weights = .ofRat (wholeSum weights) := by
  have hsum := foldl_whole 0 hwhole (by rwa [abs_zero, zero_add])
  rwa [zero_add, Int.cast_zero] at hsum

theorem sumWeights_perm {left right : List ColumnValue} (hperm : left.Perm right)
    (hwhole : ∀ weight ∈ right, IsWhole weight) (hsize : wholeSize right ≤ 2 ^ 53) :
    sumWeights left = sumWeights right := by
  have hsizes : wholeSize left = wholeSize right := (hperm.map _).sum_eq
  have hsums : wholeSum left = wholeSum right := (hperm.map _).sum_eq
  rw [sumWeights_whole (fun weight hmem => hwhole weight (hperm.subset hmem))
    (hsizes.trans_le hsize), sumWeights_whole hwhole hsize, hsums]

/-- Integers of at most 2^53 fit the columns of a tally. -/
theorem column_isSome {number : ℤ} (hsize : |number| ≤ 2 ^ 53) :
    (AmountText.fixed (.ofRat number)).column.isSome := by
  have hless : |number| < 10 ^ 21 := hsize.trans_lt (by norm_num)
  have hwritten : (AmountText.fixed (.ofRat number)).decimal = some (number : ℚ) := by
    refine (fixedText_eq_iff (isI128_of_abs_le hsize)).mpr ?_
    rw [FixedAsRead, if_pos hless]
    exact represents_of_abs_le hsize
  have hamount := (column_amount_iff hwritten).mpr ⟨rfl, hless.trans (by norm_num)⟩
  obtain ⟨value, hvalue, -⟩ := Option.bind_eq_some_iff.mp hamount
  exact Option.isSome_iff_exists.mpr ⟨value, hvalue⟩

theorem wholeSize_sides (votes : List (Bool × ColumnValue)) :
    wholeSize (votes.map Prod.snd) =
      wholeSize (weightsFor votes) + wholeSize (weightsAgainst votes) := by
  induction votes with
  | nil => rfl
  | cons first rest ih =>
      obtain ⟨support, weight⟩ := first
      rw [List.map_cons, wholeSize_cons, ih]
      cases support with
      | true =>
          change _ = wholeSize (weight :: weightsFor rest) + wholeSize (weightsAgainst rest)
          rw [wholeSize_cons, add_assoc]
      | false =>
          change _ = wholeSize (weightsFor rest) + wholeSize (weight :: weightsAgainst rest)
          rw [wholeSize_cons, add_left_comm]

/-- Votes whose weights are integers that add up to at most 2^53 have one tally in every
order, and it fits. -/
theorem tallyOf_whole (threshold : AmountText) {votes : List (Bool × ColumnValue)}
    (hwhole : ∀ vote ∈ votes, IsWhole vote.2)
    (hsize : wholeSize (votes.map Prod.snd) ≤ 2 ^ 53) :
    ∃ tally, ∀ order : List (Bool × ColumnValue), order.Perm votes →
      tallyOf threshold order = some tally := by
  have hside : ∀ side : Bool × ColumnValue → Bool, ∀ weight ∈ (votes.filter side).map Prod.snd,
      IsWhole weight := by
    intro side weight hmem
    obtain ⟨vote, hvote, rfl⟩ := List.mem_map.mp hmem
    exact hwhole vote (List.mem_of_mem_filter hvote)
  rw [wholeSize_sides] at hsize
  have hforSize : wholeSize (weightsFor votes) ≤ 2 ^ 53 := by
    linarith [wholeSize_nonneg (weightsAgainst votes)]
  have hagainstSize : wholeSize (weightsAgainst votes) ≤ 2 ^ 53 := by
    linarith [wholeSize_nonneg (weightsFor votes)]
  have htotalSize : |wholeSum (weightsFor votes)| + |wholeSum (weightsAgainst votes)| ≤ 2 ^ 53 :=
    (add_le_add (abs_wholeSum_le _) (abs_wholeSum_le _)).trans hsize
  obtain ⟨tally, htally⟩ := exists_tally threshold
    (sumWeights_whole (hside _) hforSize) (sumWeights_whole (hside _) hagainstSize)
    ⟨column_isSome ((abs_wholeSum_le _).trans hforSize),
      column_isSome ((abs_wholeSum_le _).trans hagainstSize), by
        rw [add_whole htotalSize]
        exact column_isSome ((abs_add_le _ _).trans htotalSize)⟩
  refine ⟨tally, fun order horder => (tallyOf_congr ?_ ?_ horder.length_eq).trans htally⟩
  · exact sumWeights_perm ((horder.filter _).map _) (hside _) hforSize
  · exact sumWeights_perm ((horder.filter _).map _) (hside _) hagainstSize

end Whole

/-! ## The stored tally -/

section Settled

variable {tables : Tables} {proposalId : String} {threshold : AmountText}
variable {events : List Event} {run : List Delivered}

/-- The deliveries leave each voter's latest vote, and count it. -/
structure Settles (proposalId : String) (threshold : AmountText) (events : List Event)
    (run : List Delivered) : Prop where
  lastIsLatest : ∀ ballot ∈ latestBallots proposalId events,
    ballot.counted.isSome ∧ lastTaken proposalId run ballot.voter = ballot.counted
  counted : latestBallots proposalId events = [] ∨ Counted proposalId run
  orderFree : ∃ tally, ∀ votes, ListsLatest proposalId events votes →
    tallyOf threshold votes = some tally

theorem map_tally_of_counts {tally : KeyMergeVoteTally}
    (hcounts : countsOf tables proposalId = some (threshold, tally)) :
    (findProposal tables proposalId).map KeyMergeProposal.tally = some tally := by
  obtain ⟨proposal, hfound, hsame⟩ := Option.map_eq_some_iff.mp hcounts
  rw [hfound, Option.map_some, (Prod.mk.inj hsame).2]

theorem countsOf_untouched (huntouched : Untouched proposalId tables) :
    countsOf tables proposalId = none := by
  rw [countsOf, huntouched.proposals, Option.map_none]

/-- Deliveries of the proposal agree on its threshold. -/
theorem threshold_of_delivered (hevents : MergeEvents proposalId threshold events)
    (hdelivers : Delivers run events) {delivered : Delivered} (hmem : delivered ∈ run)
    {other : AmountText} (hother : thresholdOf proposalId delivered.event = some other) :
    other = threshold := by
  obtain ⟨event, hevent, hproposed⟩ := hevents.proposed
  have hdelivered : delivered.event ∈ events := (hdelivers _).mpr ⟨delivered, hmem, rfl⟩
  have hsame := hevents.proposedOnce delivered.event hdelivered event hevent
    (Option.isSome_iff_exists.mpr ⟨other, hother⟩)
    (Option.isSome_iff_exists.mpr ⟨threshold, hproposed⟩)
  rw [hsame, hproposed] at hother
  exact (Option.some.inj hother).symm

theorem exists_delivered (hevents : MergeEvents proposalId threshold events)
    (hdelivers : Delivers run events) :
    ∃ delivered ∈ run, (thresholdOf proposalId delivered.event).isSome := by
  obtain ⟨event, hevent, hproposed⟩ := hevents.proposed
  obtain ⟨delivered, hmem, rfl⟩ := (hdelivers event).mp hevent
  exact ⟨delivered, hmem, Option.isSome_iff_exists.mpr ⟨threshold, hproposed⟩⟩

/-- Where no vote is delivered after the proposal, the tally counts none. -/
theorem tally_of_not_counted (huntouched : Untouched proposalId tables)
    (hevents : MergeEvents proposalId threshold events) (hdelivers : Delivers run events)
    (huncounted : ¬Counted proposalId run) :
    (findProposal (deliverAll tables run) proposalId).map KeyMergeProposal.tally =
      some noVotes := by
  obtain ⟨tally, hcounts⟩ := proposed_of_delivered (countsOf_untouched huntouched)
    (fun delivered hmem other => threshold_of_delivered hevents hdelivers hmem)
    (exists_delivered hevents hdelivers)
  obtain rfl : tally = noVotes :=
    countsOf_of_not_counted (countsOf_untouched huntouched) huncounted _ hcounts
  exact map_tally_of_counts hcounts

/-- Once all events of a proposal were delivered, in whatever order and however often, its
tally is that of each voter's latest vote, if the vote of each voter that was delivered last
counts as the latest one does, a vote came after the proposal, and the votes add up to one
tally that fits. -/
theorem holdsLatestTally (huntouched : Untouched proposalId tables)
    (hevents : MergeEvents proposalId threshold events) (hdelivers : Delivers run events)
    (hsettles : Settles proposalId threshold events run) :
    HoldsLatestTally proposalId threshold events (deliverAll tables run) := by
  obtain ⟨tally, htally⟩ := hsettles.orderFree
  have hperm := perm_latest huntouched hevents hdelivers hsettles.lastIsLatest
  refine ⟨tally, ?_, ⟨_, hperm⟩, htally⟩
  have hstart := countsOf_untouched huntouched
  by_cases hcounted : Counted proposalId run
  · obtain ⟨before, after, rfl, hproposed, htaken⟩ := hcounted
    have hbefore := proposed_of_delivered hstart (fun delivered hmem other =>
      threshold_of_delivered hevents hdelivers (List.mem_append_left after hmem)) hproposed
    have htallied := tallied_of_taken hbefore htaken
    rw [deliverAll, List.foldl_append]
    refine map_tally_of_counts (htallied tally fun votes hvotes => htally votes ?_)
    exact (hvotes.map some).trans (by rwa [deliverAll, List.foldl_append] at hperm)
  · -- Nobody voted.
    have hnone := hsettles.counted.resolve_right hcounted
    have hempty : tallyOf threshold [] = some tally := htally [] (by rw [ListsLatest, hnone]; rfl)
    rw [tallyOf_nil] at hempty
    rw [tally_of_not_counted huntouched hevents hdelivers hcounted, hempty]

end Settled

/-! ## Votes that overtake each other -/

def mergeEvent (id topic : String) (ledger : ℕ) (data : List (String × EventValue)) : Event :=
  { id := id, contractId := "CMERGE", ledger := ledger, ledgerClosedAt := some (10 * ledger)
    txHash := some id, topic := topic, topics := []
    data := .object (("proposal_id", .string "merge-1") :: data) }

def proposedEvent : Event :=
  mergeEvent "e1" "merge_proposed" 4 [("key_id", .string "KEY"), ("threshold", .string "0.5")]

def voteEvent (id voter : String) (ledger : ℕ) (support : Bool) (weight : ℤ) : Event :=
  mergeEvent id "merge_voted" ledger
    [("voter", .string voter), ("support", .bool support), ("weight", .bigint weight)]

def executedEvent : Event := mergeEvent "e5" "merge_executed" 9 []

/-- GA votes in favour, and then against; GB votes in favour. -/
def mergeEvents : List Event :=
  [proposedEvent, voteEvent "e2" "GA" 5 true 100, voteEvent "e3" "GA" 7 false 100,
    voteEvent "e4" "GB" 6 true 50, executedEvent]

def deliveredOf (event : Event) : Delivered where
  delivery := { event := event, now := 100 }
  listing := .asStored

theorem mergeEvents_ofProposal : MergeEvents "merge-1" (.text "0.5") mergeEvents := by
  have hids : (mergeEvents.map fun event => event.id).Nodup := by decide
  have hproposed : ∀ left ∈ mergeEvents, ∀ right ∈ mergeEvents,
      (thresholdOf "merge-1" left).isSome → (thresholdOf "merge-1" right).isSome →
        left.id = right.id := by decide +kernel
  have hvoted : ∀ left ∈ mergeEvents, ∀ right ∈ mergeEvents, (votedIn "merge-1" left).isSome →
      votedIn "merge-1" left = votedIn "merge-1" right → left.id = right.id := by decide +kernel
  refine ⟨⟨proposedEvent, List.mem_cons_self, by decide +kernel⟩, ?_, ?_⟩
  · intro left hleft right hright hleftSome hrightSome
    exact List.inj_on_of_nodup_map hids hleft hright
      (hproposed left hleft right hright hleftSome hrightSome)
  · intro left hleft right hright hsome hsame
    exact List.inj_on_of_nodup_map hids hleft hright (hvoted left hleft right hright hsome hsame)

theorem untouched_empty : Untouched "merge-1" {} :=
  ⟨rfl, fun _ hvote => (by cases hvote), List.nodup_nil⟩

def latestVotes : List (Bool × ColumnValue) :=
  (latestBallots "merge-1" mergeEvents).filterMap Ballot.counted

theorem map_some_latestVotes :
    latestVotes.map some = (latestBallots "merge-1" mergeEvents).map Ballot.counted := by
  decide +kernel

theorem delivers_map {events order : List Event} (hsame : ∀ event, event ∈ events ↔ event ∈ order) :
    Delivers (order.map deliveredOf) events := by
  intro event
  rw [hsame]
  constructor
  · intro hmem
    exact ⟨deliveredOf event, List.mem_map_of_mem hmem, rfl⟩
  · rintro ⟨delivered, hmem, rfl⟩
    obtain ⟨event, hevent, rfl⟩ := List.mem_map.mp hmem
    exact hevent

def overtakenOrder : List Event :=
  [proposedEvent, voteEvent "e3" "GA" 7 false 100, voteEvent "e2" "GA" 5 true 100,
    voteEvent "e4" "GB" 6 true 50, executedEvent]

def earlyOrder : List Event :=
  [voteEvent "e2" "GA" 5 true 100, voteEvent "e3" "GA" 7 false 100,
    voteEvent "e4" "GB" 6 true 50, proposedEvent, executedEvent]

/-- An old vote that comes after the new one replaces it, and votes that come before their
proposal are not counted. -/
theorem overtakenOrder_notLatest :
    MergeEvents "merge-1" (.text "0.5") mergeEvents ∧ Untouched "merge-1" {} ∧
      Delivers (overtakenOrder.map deliveredOf) mergeEvents ∧
      Delivers (earlyOrder.map deliveredOf) mergeEvents ∧
      (findProposal (deliverAll {} (overtakenOrder.map deliveredOf)) "merge-1").map
        (fun proposal => (proposal.tally.holderCount, proposal.tally.thresholdReached)) =
          some (2, true) ∧
      (findProposal (deliverAll {} (earlyOrder.map deliveredOf)) "merge-1").map
        (fun proposal => proposal.tally) = some noVotes ∧
      (tallyOf (.text "0.5") latestVotes).map
        (fun tally => (tally.holderCount, tally.thresholdReached)) = some (2, false) ∧
      ¬HoldsLatestTally "merge-1" (.text "0.5") mergeEvents
        (deliverAll {} (overtakenOrder.map deliveredOf)) ∧
      ¬HoldsLatestTally "merge-1" (.text "0.5") mergeEvents
        (deliverAll {} (earlyOrder.map deliveredOf)) := by
  have hlists : ListsLatest "merge-1" mergeEvents latestVotes :=
    List.Perm.of_eq map_some_latestVotes
  have hdiffers : ∀ tables : Tables, (findProposal tables "merge-1").map KeyMergeProposal.tally ≠
      tallyOf (.text "0.5") latestVotes →
        ¬HoldsLatestTally "merge-1" (.text "0.5") mergeEvents tables := by
    rintro tables hother ⟨tally, hstored, -, htally⟩
    exact hother (hstored.trans (htally latestVotes hlists).symm)
  have hovertaken : ∀ event, event ∈ mergeEvents ↔ event ∈ overtakenOrder := by
    intro event
    simp only [mergeEvents, overtakenOrder, List.mem_cons, List.not_mem_nil]
    tauto
  have hearly : ∀ event, event ∈ mergeEvents ↔ event ∈ earlyOrder := by
    intro event
    simp only [mergeEvents, earlyOrder, List.mem_cons, List.not_mem_nil]
    tauto
  exact ⟨mergeEvents_ofProposal, untouched_empty, delivers_map hovertaken, delivers_map hearly,
    by decide +kernel, by decide +kernel, by decide +kernel,
    hdiffers _ (by decide +kernel), hdiffers _ (by decide +kernel)⟩

def settledOrder : List Event :=
  [voteEvent "e2" "GA" 5 true 100, proposedEvent, voteEvent "e3" "GA" 7 false 100,
    voteEvent "e4" "GB" 6 true 50, executedEvent, proposedEvent,
    voteEvent "e3" "GA" 7 false 100]

theorem settles_settledOrder :
    Settles "merge-1" (.text "0.5") mergeEvents (settledOrder.map deliveredOf) where
  lastIsLatest := by decide +kernel
  counted := .inr ⟨(settledOrder.take 2).map deliveredOf, (settledOrder.drop 2).map deliveredOf,
    rfl, by decide +kernel, by decide +kernel⟩
  orderFree := by
    obtain ⟨tally, htally⟩ := tallyOf_whole (.text "0.5")
      (show ∀ vote ∈ latestVotes, IsWhole vote.2 by decide +kernel)
      (show wholeSize (latestVotes.map Prod.snd) ≤ 2 ^ 53 by decide +kernel)
    refine ⟨tally, fun votes hvotes => htally votes ?_⟩
    rw [ListsLatest, ← map_some_latestVotes] at hvotes
    exact (List.map_perm_map_iff (Option.some_injective _)).mp hvotes

/-- Here the last votes are the latest ones, and all are counted. -/
theorem settledOrder_latest :
    HoldsLatestTally "merge-1" (.text "0.5") mergeEvents
        (deliverAll {} (settledOrder.map deliveredOf)) ∧
      (findProposal (deliverAll {} (settledOrder.map deliveredOf)) "merge-1").map
        (fun proposal => (proposal.tally.holderCount, proposal.tally.thresholdReached)) =
          some (2, false) := by
  refine ⟨holdsLatestTally untouched_empty mergeEvents_ofProposal (delivers_map fun event => ?_)
    settles_settledOrder, by decide +kernel⟩
  simp only [mergeEvents, settledOrder, List.mem_cons, List.not_mem_nil]
  tauto

end StellarSettle.MergeTally
