import StellarSettle.Projections.KeyMerge
import StellarSettle.Projections.SwapsAndKeys

/-!
# Amounts of events as they are stored

The projections of swaps, creator keys and key merges store amounts that events carry.  A
field that is read as a text keeps every integer that fits its column; one that is read as a
number keeps the integers that the text of their double writes.
-/

namespace StellarSettle.StoredAmounts

open StellarSettle.EventNumbers
open StellarSettle.EventReader
open StellarSettle.KeyedRows
open StellarSettle.KeyMerge
open StellarSettle.Numbers
open StellarSettle.SwapsAndKeys

/-! ## Fields -/

inductive AmountField where
  | buyerAmount
  | sellerAmount
  | feeAmount
  | maxBuyPerTx
  | maxBuyPerDay
  | currentSupply
  | weight
  | totalKeysMigrated
  | tokensConverted
  | sourceSupplyBurned
  | targetSupplyMinted
  deriving DecidableEq, Repr

namespace AmountField

/-- The names that the field is read under as a text. -/
def textNames : AmountField → List String
  | .weight => weightNames
  | .totalKeysMigrated => totalKeysNames
  | .tokensConverted => tokensNames
  | .sourceSupplyBurned => burnedNames
  | .targetSupplyMinted => mintedNames
  | _ => []

/-- The names that it is read under as a number, where none of the others is there. -/
def numberNames : AmountField → List String
  | .buyerAmount => buyerAmountNames
  | .sellerAmount => sellerAmountNames
  | .feeAmount => feeNames
  | .maxBuyPerTx => maxBuyPerTxNames
  | .maxBuyPerDay => maxBuyPerDayNames
  | .currentSupply => currentSupplyNames
  | .weight => ["balance"]
  | .totalKeysMigrated => ["amount"]
  | .tokensConverted => ["target_amount"]
  | .sourceSupplyBurned => []
  | .targetSupplyMinted => []

/-- The numbers of a merge are written by `toFixed(7)`, the others by `String`. -/
def isFixed : AmountField → Bool
  | .weight => true
  | .totalKeysMigrated => true
  | .tokensConverted => true
  | _ => false

/-- The amounts of a migration are stored as texts, the others in decimal columns. -/
def isColumn : AmountField → Bool
  | .totalKeysMigrated => false
  | .tokensConverted => false
  | .sourceSupplyBurned => false
  | .targetSupplyMinted => false
  | _ => true

/-- Which integers a field keeps, by the name that carries them. -/
def Keeps (field : AmountField) (name : String) (number : ℤ) : Prop :=
  (field.isColumn = true → |number| < 10 ^ 23) ∧
    (name ∈ field.textNames ∨
      if field.isFixed then FixedAsRead number else WrittenAsRead number)

end AmountField

def isPresent : EventValue → Bool
  | .null => false
  | _ => true

/-- The first of the names that the data has a field under. -/
def carrier (data : List (String × EventValue)) (names : List String) : Option String :=
  names.find? fun name => isPresent (property data name)

/-- The event carries the integer for the field, under the name. -/
def Carries (data : List (String × EventValue)) (field : AmountField) (name : String)
    (number : ℤ) : Prop :=
  carrier data (field.textNames ++ field.numberNames) = some name ∧
    CarriesInteger (property data name) number ∧ IsI128 number

/-! ## Projections -/

inductive Projection where
  | swap
  | creatorKey
  | mergeVote
  | mergeExecution
  deriving DecidableEq, Repr

structure ReadModels where
  swaps : List AtomicSwap := []
  keys : List CreatorKey := []
  merges : Tables := {}
  deriving DecidableEq

namespace Projection

def fields : Projection → List AmountField
  | .swap => [.buyerAmount, .sellerAmount, .feeAmount]
  | .creatorKey => [.maxBuyPerTx, .maxBuyPerDay, .currentSupply]
  | .mergeVote => [.weight]
  | .mergeExecution =>
      [.totalKeysMigrated, .tokensConverted, .sourceSupplyBurned, .targetSupplyMinted]

def handle (models : ReadModels) (delivery : Delivery) (listing : Listing) :
    Projection → ReadModels
  | .swap => { models with swaps := handleSwap models.swaps delivery }
  | .creatorKey => { models with keys := handleConfig models.keys delivery }
  | .mergeVote => { models with merges := KeyMerge.handle models.merges delivery listing }
  | .mergeExecution => { models with merges := KeyMerge.handle models.merges delivery listing }

/-- The event is one that the projection stores: a swap that is not recorded yet, an update
of a key that is known, a vote, or the execution of a proposal that is known. -/
def Records (models : ReadModels) (delivery : Delivery) : Projection → Prop
  | .swap =>
      mentionsSwap delivery.event.topic = true ∧
        ∃ input, readSwap delivery = some input ∧ findSwap models.swaps input.swapId = none
  | .creatorKey =>
      ∃ keyId key, readKeyId delivery.event = some keyId ∧ findKey models.keys keyId = some key
  | .mergeVote => ∃ input, readMessage delivery = some (.vote input)
  | .mergeExecution =>
      ∃ input proposal, readMessage delivery = some (.execution input) ∧
        findProposal models.merges input.proposalId = some proposal

end Projection

section Stored

/-! The row that an event is stored in, where its save goes through. -/

variable (before after : ReadModels) (delivery : Delivery)

def storedSwap : Option AtomicSwap := do
  let input ← readSwap delivery
  findSwap after.swaps input.swapId

def storedKey : Option CreatorKey := do
  let keyId ← readKeyId delivery.event
  let key ← findKey before.keys keyId
  let _ ← updatedKey key (readConfigUpdate delivery.event)
  findKey after.keys keyId

def storedVote : Option KeyMergeVote := do
  let input ← readVote delivery
  let _ ← input.weight.column
  findRow KeyMergeVote.key after.merges.votes (input.proposalId, input.voterAddress)

def storedSummary : Option MigrationSummary := do
  let input ← readExecution delivery
  let proposal ← findProposal after.merges input.proposalId
  proposal.migrationSummary

/-- The amount of a field as it is stored. -/
def storedAmount : AmountField → Option ℚ
  | .buyerAmount => (storedSwap after delivery).bind fun swap => swap.buyerAmount.amount
  | .sellerAmount => (storedSwap after delivery).bind fun swap => swap.sellerAmount.amount
  | .feeAmount => (storedSwap after delivery).bind fun swap => swap.feeAmount.amount
  | .maxBuyPerTx => (storedKey before after delivery).bind fun key => key.maxBuyPerTx.amount
  | .maxBuyPerDay => (storedKey before after delivery).bind fun key => key.maxBuyPerDay.amount
  | .currentSupply => (storedKey before after delivery).bind fun key => key.currentSupply.amount
  | .weight => (storedVote after delivery).bind fun vote => vote.weight.amount
  | .totalKeysMigrated =>
      (storedSummary after delivery).bind fun summary => summary.totalKeysMigrated.decimal
  | .tokensConverted =>
      (storedSummary after delivery).bind fun summary => summary.tokensConverted.decimal
  | .sourceSupplyBurned =>
      (storedSummary after delivery).bind fun summary =>
        summary.sourceSupplyBurned.bind AmountText.decimal
  | .targetSupplyMinted =>
      (storedSummary after delivery).bind fun summary =>
        summary.targetSupplyMinted.bind AmountText.decimal

end Stored

/-- Every integer that the event carries is stored as it is. -/
def StoresExactly (projection : Projection) (models : ReadModels) (delivery : Delivery)
    (data : List (String × EventValue)) (listing : Listing) : Prop :=
  ∀ field ∈ projection.fields, ∀ name number, Carries data field name number →
    storedAmount models (projection.handle models delivery listing) delivery field =
      some (number : ℚ)

/-- The fields that the data has carry integers of 128 bits. -/
def CarriesIntegers (projection : Projection) (data : List (String × EventValue)) : Prop :=
  ∀ field ∈ projection.fields,
    ∀ name ∈ carrier data (field.textNames ++ field.numberNames),
      ∃ number, Carries data field name number

/-! ## Reading a field -/

section Fields

variable {data : List (String × EventValue)} {event : Event} {names : List String}
  {name : String} {number : ℤ}

theorem eq_null_of_not_present {value : EventValue} (hvalue : isPresent value = false) :
    value = .null := by
  cases value with
  | null => rfl
  | _ => cases hvalue

/-- A reader that passes over missing fields reads the first one that is there. -/
theorem findSome?_of_carrier {Value : Type} (read : EventValue → Option Value)
    (hnull : read .null = none) (hcarrier : carrier data names = some name) {value : Value}
    (hread : read (property data name) = some value) :
    names.findSome? (fun key => read (property data key)) = some value := by
  obtain ⟨-, before, after, rfl, hbefore⟩ := List.find?_eq_some_iff_append.mp hcarrier
  have hmissing : before.findSome? (fun key => read (property data key)) = none := by
    rw [List.findSome?_eq_none_iff]
    intro key hkey
    have hvalue : property data key = .null :=
      eq_null_of_not_present (by simpa using hbefore key hkey)
    rw [hvalue, hnull]
  rw [List.findSome?_append, hmissing, Option.none_or, List.findSome?_cons, hread]

theorem findSome?_of_missing {Value : Type} (read : EventValue → Option Value)
    (hnull : read .null = none) (hmissing : carrier data names = none) :
    names.findSome? (fun key => read (property data key)) = none := by
  rw [List.findSome?_eq_none_iff]
  intro key hkey
  have hvalue : property data key = .null :=
    eq_null_of_not_present (by simpa using List.find?_eq_none.mp hmissing key hkey)
  rw [hvalue, hnull]

section Data

variable (hdata : event.data = .object data)

include hdata

theorem readEventNumber_of_carrier (hcarrier : carrier data names = some name)
    (hvalue : CarriesInteger (property data name) number) (hrange : IsI128 number) :
    readEventNumber event names = some (.ofRat number) := by
  rw [readEventNumber, hdata]
  exact findSome?_of_carrier numberOf rfl hcarrier (numberOf_of_carries hrange hvalue)

theorem readEventNumber_of_missing (hmissing : carrier data names = none) :
    readEventNumber event names = none := by
  rw [readEventNumber, hdata]
  exact findSome?_of_missing numberOf rfl hmissing

theorem readEventString_of_carrier (hcarrier : carrier data names = some name)
    (hvalue : CarriesInteger (property data name) number) :
    readEventString event names = some (toString number) := by
  have hfound := findSome?_of_carrier scalarText rfl hcarrier
    (scalarText_of_carries hvalue)
  rw [readEventString, hdata]
  dsimp only
  rw [hfound]
  rfl

theorem readEventString_of_missing (hmissing : carrier data names = none) :
    readEventString event names = none := by
  have hfound := findSome?_of_missing scalarText rfl hmissing
  rw [readEventString, hdata]
  dsimp only
  rw [hfound]
  rfl

end Data

/-- The text that a field is stored with. -/
def textOf (field : AmountField) (name : String) (number : ℤ) : AmountText :=
  if name ∈ field.textNames then .text (toString number)
  else if field.isFixed then .fixed (.ofRat number) else .number (.ofRat number)

/-- A text is read first, under the names that come first. -/
theorem readAmountText_of_carries (hdata : event.data = .object data) {field : AmountField}
    (hfixed : field.isFixed = true) (hcarries : Carries data field name number)
    (fallback : String) :
    readAmountText event field.textNames (field.textNames ++ field.numberNames) fallback =
      textOf field name number := by
  obtain ⟨hcarrier, hvalue, hrange⟩ := hcarries
  rw [readAmountText, textOf]
  have hsplit : (carrier data field.textNames).or (carrier data field.numberNames) =
      some name := by
    rw [← hcarrier, carrier, carrier, carrier, List.find?_append]
  cases htext : carrier data field.textNames with
  | some first =>
      rw [htext, Option.some_or] at hsplit
      obtain rfl := Option.some.inj hsplit
      rw [readEventString_of_carrier hdata htext hvalue, if_pos (List.mem_of_find?_eq_some htext)]
  | none =>
      have hname : name ∉ field.textNames := by
        intro hmem
        rw [htext, Option.none_or, carrier] at hsplit
        have hpresent := List.find?_some hsplit
        exact List.find?_eq_none.mp htext name hmem hpresent
      rw [readEventString_of_missing hdata htext,
        readEventNumber_of_carrier hdata hcarrier hvalue hrange, if_neg hname, if_pos hfixed]

theorem readAmountText_of_missing (hdata : event.data = .object data) {field : AmountField}
    (hmissing : carrier data (field.textNames ++ field.numberNames) = none) (fallback : String) :
    readAmountText event field.textNames (field.textNames ++ field.numberNames) fallback =
      .text fallback := by
  have htext : carrier data field.textNames = none :=
    List.find?_eq_none.mpr fun key hkey =>
      List.find?_eq_none.mp hmissing key (List.mem_append_left _ hkey)
  rw [readAmountText, readEventString_of_missing hdata htext,
    readEventNumber_of_missing hdata hmissing]

end Fields

/-! ## Keeping an amount -/

section Keeping

variable {field : AmountField} {name : String} {number : ℤ}

/-- The text writes an integer, and writes the one that it is made from exactly where the
field keeps it. -/
theorem exists_decimal_textOf (field : AmountField) (name : String) (hrange : IsI128 number) :
    ∃ written : ℤ, (textOf field name number).decimal = some (written : ℚ) ∧
      (written = number ↔ name ∈ field.textNames ∨
        if field.isFixed then FixedAsRead number else WrittenAsRead number) := by
  rw [textOf]
  by_cases hname : name ∈ field.textNames
  · rw [if_pos hname]
    exact ⟨number, decimalOf_toString number, iff_of_true rfl (.inl hname)⟩
  · rw [if_neg hname, or_iff_right hname]
    by_cases hfixed : field.isFixed = true
    · rw [if_pos hfixed, if_pos hfixed]
      obtain ⟨written, hwritten⟩ := exists_int_fixedText hrange
      refine ⟨written, hwritten, ?_⟩
      rw [← fixedText_eq_iff hrange, hwritten, Option.some_inj, Int.cast_inj]
    · rw [if_neg hfixed, if_neg hfixed]
      obtain ⟨written, hwritten⟩ := exists_int_numberText hrange
      refine ⟨written, hwritten, ?_⟩
      rw [← numberText_eq_iff hrange, hwritten, Option.some_inj, Int.cast_inj]

theorem column_textOf_iff (hrange : IsI128 number) (hcolumn : field.isColumn = true) :
    (textOf field name number).column.bind ColumnValue.amount = some (number : ℚ) ↔
      field.Keeps name number := by
  obtain ⟨written, hwritten, hkeeps⟩ := exists_decimal_textOf field name hrange
  rw [column_amount_iff hwritten, hkeeps, AmountField.Keeps, and_comm]
  simp only [hcolumn, true_implies]

theorem decimal_textOf_iff (hrange : IsI128 number) (hcolumn : field.isColumn = false) :
    (textOf field name number).decimal = some (number : ℚ) ↔ field.Keeps name number := by
  obtain ⟨written, hwritten, hkeeps⟩ := exists_decimal_textOf field name hrange
  rw [hwritten, Option.some_inj, Int.cast_inj, hkeeps, AmountField.Keeps]
  simp [hcolumn]

end Keeping

/-! ## The projections -/

/-- The fields of the projection keep the integers that the event carries for them. -/
def KeepsCarried (projection : Projection) (data : List (String × EventValue)) : Prop :=
  ∀ field ∈ projection.fields, ∀ name number, Carries data field name number →
    field.Keeps name number

/-- A row is stored when all of its columns take their amounts, and then each column has
kept its own exactly where the field does. -/
theorem stores_iff_of_columns {projection : Projection} {data : List (String × EventValue)}
    (columns : AmountField → Option ColumnValue) {stored : AmountField → Option ℚ}
    (hcarries : CarriesIntegers projection data)
    (hcolumn : ∀ field ∈ projection.fields, field.isColumn = true)
    (htext : ∀ field ∈ projection.fields, ∀ name number, Carries data field name number →
      columns field = (textOf field name number).column)
    (hmissing : ∀ field ∈ projection.fields,
      carrier data (field.textNames ++ field.numberNames) = none → (columns field).isSome = true)
    (hsaved : (∀ field ∈ projection.fields, (columns field).isSome = true) →
      ∀ field ∈ projection.fields, stored field = (columns field).bind ColumnValue.amount)
    (hlost : ¬(∀ field ∈ projection.fields, (columns field).isSome = true) →
      ∀ field ∈ projection.fields, stored field = none) :
    (∀ field ∈ projection.fields, ∀ name number, Carries data field name number →
      stored field = some (number : ℚ)) ↔ KeepsCarried projection data := by
  have hkeeps : ∀ field ∈ projection.fields, ∀ name number, Carries data field name number →
      ((columns field).bind ColumnValue.amount = some (number : ℚ) ↔ field.Keeps name number) := by
    intro field hfield name number hcarried
    rw [htext field hfield name number hcarried]
    exact column_textOf_iff hcarried.2.2 (hcolumn field hfield)
  by_cases hall : ∀ field ∈ projection.fields, (columns field).isSome = true
  · constructor
    · intro hexact field hfield name number hcarried
      rw [← hkeeps field hfield name number hcarried, ← hsaved hall field hfield]
      exact hexact field hfield name number hcarried
    · intro hkept field hfield name number hcarried
      rw [hsaved hall field hfield, hkeeps field hfield name number hcarried]
      exact hkept field hfield name number hcarried
  · constructor
    · intro hexact field hfield name number hcarried
      have hnone := hexact field hfield name number hcarried
      rw [hlost hall field hfield] at hnone
      cases hnone
    · intro hkept
      refine absurd (fun field hfield => ?_) hall
      cases hfound : carrier data (field.textNames ++ field.numberNames) with
      | none => exact hmissing field hfield hfound
      | some name =>
          obtain ⟨number, hcarried⟩ := hcarries field hfield name hfound
          have hamount := (hkeeps field hfield name number hcarried).mpr
            (hkept field hfield name number hcarried)
          obtain ⟨column, hcolumnSome, -⟩ := Option.bind_eq_some_iff.mp hamount
          rw [hcolumnSome]
          rfl

section Swaps

variable {data : List (String × EventValue)} {delivery : Delivery} {input : AtomicSwapInput}
  {row : AtomicSwap}

/-- The text of an amount of a swap. -/
def swapText (event : Event) (field : AmountField) : AmountText :=
  amountOrZero (readEventNumber event field.numberNames)

theorem readSwap_amounts (hinput : readSwap delivery = some input) :
    input.buyerAmount = swapText delivery.event .buyerAmount ∧
      input.sellerAmount = swapText delivery.event .sellerAmount ∧
      input.feeAmount = swapText delivery.event .feeAmount := by
  simp only [readSwap, Option.bind_eq_bind, Option.bind_eq_some_iff, Option.pure_def,
    Option.some.injEq] at hinput
  obtain ⟨buyer, -, seller, -, rfl⟩ := hinput
  exact ⟨rfl, rfl, rfl⟩

theorem swapRow_eq_some_iff : swapRow input = some row ↔
    input.buyerAmount.column = some row.buyerAmount ∧
      input.sellerAmount.column = some row.sellerAmount ∧
      input.feeAmount.column = some row.feeAmount ∧
      row = { row with
        swapId := input.swapId, buyerAddress := input.buyerAddress
        sellerAddress := input.sellerAddress, buyerInvoiceId := input.buyerInvoiceId
        sellerInvoiceId := input.sellerInvoiceId, feeRecipient := input.feeRecipient
        txHash := input.txHash, ledgerSequence := input.ledgerSequence
        executedAt := input.executedAt } := by
  simp only [swapRow, Option.bind_eq_bind, Option.bind_eq_some_iff, Option.pure_def,
    Option.some.injEq]
  constructor
  · rintro ⟨buyer, hbuyer, seller, hseller, fee, hfee, rfl⟩
    exact ⟨hbuyer, hseller, hfee, rfl⟩
  · rintro ⟨hbuyer, hseller, hfee, hrow⟩
    exact ⟨_, hbuyer, _, hseller, _, hfee, hrow.symm⟩

/-- A recorded swap has a row for its event, and one that does not fit has none. -/
theorem storedSwap_handle {models : ReadModels} (listing : Listing)
    (hinput : readSwap delivery = some input) (htopic : mentionsSwap delivery.event.topic = true)
    (hfresh : findSwap models.swaps input.swapId = none) :
    storedSwap (Projection.swap.handle models delivery listing) delivery = swapRow input := by
  simp only [storedSwap, hinput, Option.bind_eq_bind, Option.bind_some, Projection.handle,
    handleSwap, htopic, if_true, recordSwap, hfresh]
  cases hrow : swapRow input with
  | none => exact hfresh
  | some row =>
      have hid : row.swapId = input.swapId := by
        rw [(swapRow_eq_some_iff.mp hrow).2.2.2]
      rw [findSwap] at hfresh ⊢
      rw [findRow_append, hfresh, Option.none_or, ← hid]
      exact findRow_of_mem (List.nodup_singleton _) (List.mem_singleton_self row)

theorem swapText_of_carries (hdata : delivery.event.data = .object data) {field : AmountField}
    (hfield : field ∈ Projection.swap.fields) {name : String} {number : ℤ}
    (hcarries : Carries data field name number) :
    swapText delivery.event field = textOf field name number := by
  have hnames : field.textNames = [] ∧ field.isFixed = false := by
    simp only [Projection.fields, List.mem_cons, List.not_mem_nil, or_false] at hfield
    rcases hfield with rfl | rfl | rfl <;> exact ⟨rfl, rfl⟩
  obtain ⟨hcarrier, hvalue, hrange⟩ := hcarries
  rw [hnames.1, List.nil_append] at hcarrier
  rw [swapText, readEventNumber_of_carrier hdata hcarrier hvalue hrange, textOf, hnames.1,
    if_neg List.not_mem_nil, hnames.2]
  rfl

theorem swap_stores_iff {models : ReadModels} {listing : Listing}
    (hdata : delivery.event.data = .object data)
    (hrecords : Projection.swap.Records models delivery)
    (hcarries : CarriesIntegers .swap data) :
    StoresExactly .swap models delivery data listing ↔ KeepsCarried .swap data := by
  obtain ⟨htopic, input, hinput, hfresh⟩ := hrecords
  obtain ⟨hbuyer, hseller, hfee⟩ := readSwap_amounts hinput
  have hstored := storedSwap_handle listing hinput htopic hfresh
  refine stores_iff_of_columns (fun field => (swapText delivery.event field).column)
    hcarries (by decide) (fun field hfield name number hcarried => ?_)
    (fun field hfield hmissing => ?_) (fun hall field hfield => ?_) fun hsome field hfield => ?_
  · rw [swapText_of_carries hdata hfield hcarried]
  · have hnames : field.textNames = [] := by
      simp only [Projection.fields, List.mem_cons, List.not_mem_nil, or_false] at hfield
      rcases hfield with rfl | rfl | rfl <;> rfl
    rw [hnames, List.nil_append] at hmissing
    rw [swapText, readEventNumber_of_missing hdata hmissing]
    decide +kernel
  · obtain ⟨buyer, hbuyerColumn⟩ := Option.isSome_iff_exists.mp (hall .buyerAmount (by decide))
    obtain ⟨seller, hsellerColumn⟩ := Option.isSome_iff_exists.mp (hall .sellerAmount (by decide))
    obtain ⟨fee, hfeeColumn⟩ := Option.isSome_iff_exists.mp (hall .feeAmount (by decide))
    have hrow : ∃ row, swapRow input = some row ∧ row.buyerAmount = buyer ∧
        row.sellerAmount = seller ∧ row.feeAmount = fee := by
      simp [swapRow, hbuyer, hseller, hfee, hbuyerColumn, hsellerColumn, hfeeColumn]
    obtain ⟨row, hrow, rfl, rfl, rfl⟩ := hrow
    rw [hrow] at hstored
    simp only [Projection.fields, List.mem_cons, List.not_mem_nil, or_false] at hfield
    rcases hfield with rfl | rfl | rfl
    · rw [storedAmount, hstored, hbuyerColumn, Option.bind_some, Option.bind_some]
    · rw [storedAmount, hstored, hsellerColumn, Option.bind_some, Option.bind_some]
    · rw [storedAmount, hstored, hfeeColumn, Option.bind_some, Option.bind_some]
  · have hlost : swapRow input = none := by
      by_contra hsaved
      obtain ⟨row, hrow⟩ := Option.ne_none_iff_exists'.mp hsaved
      obtain ⟨hbuyerColumn, hsellerColumn, hfeeColumn, -⟩ := swapRow_eq_some_iff.mp hrow
      refine hsome fun other hother => ?_
      simp only [Projection.fields, List.mem_cons, List.not_mem_nil, or_false] at hother
      rcases hother with rfl | rfl | rfl
      · rw [← hbuyer, hbuyerColumn, Option.isSome_some]
      · rw [← hseller, hsellerColumn, Option.isSome_some]
      · rw [← hfee, hfeeColumn, Option.isSome_some]
    rw [hlost] at hstored
    simp only [Projection.fields, List.mem_cons, List.not_mem_nil, or_false] at hfield
    rcases hfield with rfl | rfl | rfl <;> rw [storedAmount, hstored, Option.bind_none]

end Swaps

section Keys

variable {data : List (String × EventValue)} {delivery : Delivery} {key updated : CreatorKey}
  {keyId : String}

def keyAmount (key : CreatorKey) : AmountField → ColumnValue
  | .maxBuyPerTx => key.maxBuyPerTx
  | .maxBuyPerDay => key.maxBuyPerDay
  | _ => key.currentSupply

/-- The column of a creator key after an update. -/
def keyColumn (key : CreatorKey) (event : Event) (field : AmountField) : Option ColumnValue :=
  updatedColumn (keyAmount key field) ((readEventNumber event field.numberNames).map .number)

theorem updatedKey_eq_some_iff {event : Event} :
    updatedKey key (readConfigUpdate event) = some updated ↔
      keyColumn key event .maxBuyPerTx = some updated.maxBuyPerTx ∧
      keyColumn key event .maxBuyPerDay = some updated.maxBuyPerDay ∧
      keyColumn key event .currentSupply = some updated.currentSupply ∧
      updated.id = key.id ∧ updated.configVersion = key.configVersion + 1 := by
  simp only [updatedKey, Option.bind_eq_bind, Option.bind_eq_some_iff, Option.pure_def,
    Option.some.injEq]
  constructor
  · rintro ⟨perTx, hperTx, perDay, hperDay, supply, hsupply, rfl⟩
    exact ⟨hperTx, hperDay, hsupply, rfl, rfl⟩
  · rintro ⟨hperTx, hperDay, hsupply, hid, hversion⟩
    refine ⟨_, hperTx, _, hperDay, _, hsupply, ?_⟩
    rw [← hid, ← hversion]

/-- The row of a key is the updated one, where the update fits. -/
theorem storedKey_handle {models : ReadModels} (listing : Listing)
    (hkeyId : readKeyId delivery.event = some keyId)
    (hkey : findKey models.keys keyId = some key) :
    storedKey models (Projection.creatorKey.handle models delivery listing) delivery =
      updatedKey key (readConfigUpdate delivery.event) := by
  simp only [storedKey, hkeyId, hkey, Option.bind_eq_bind, Option.bind_some, Projection.handle,
    handleConfig, applyConfigUpdate]
  cases hupdated : updatedKey key (readConfigUpdate delivery.event) with
  | none => rfl
  | some updated =>
      have hid : key.id = keyId := (mem_of_findRow hkey).2
      have hsame : updated.id = keyId := (updatedKey_eq_some_iff.mp hupdated).2.2.2.1.trans hid
      rw [Option.bind_some, findKey, ← hsame]
      exact findRow_saveRow_self

theorem keyColumn_of_carries (hdata : delivery.event.data = .object data) {field : AmountField}
    (hfield : field ∈ Projection.creatorKey.fields) {name : String} {number : ℤ}
    (hcarries : Carries data field name number) :
    keyColumn key delivery.event field = (textOf field name number).column := by
  have hnames : field.textNames = [] ∧ field.isFixed = false := by
    simp only [Projection.fields, List.mem_cons, List.not_mem_nil, or_false] at hfield
    rcases hfield with rfl | rfl | rfl <;> exact ⟨rfl, rfl⟩
  obtain ⟨hcarrier, hvalue, hrange⟩ := hcarries
  rw [hnames.1, List.nil_append] at hcarrier
  rw [keyColumn, readEventNumber_of_carrier hdata hcarrier hvalue hrange, textOf, hnames.1,
    if_neg List.not_mem_nil, hnames.2]
  rfl

theorem key_stores_iff {models : ReadModels} {listing : Listing}
    (hdata : delivery.event.data = .object data)
    (hrecords : Projection.creatorKey.Records models delivery)
    (hcarries : CarriesIntegers .creatorKey data) :
    StoresExactly .creatorKey models delivery data listing ↔ KeepsCarried .creatorKey data := by
  obtain ⟨keyId, key, hkeyId, hkey⟩ := hrecords
  have hstored := storedKey_handle listing hkeyId hkey
  refine stores_iff_of_columns (keyColumn key delivery.event) hcarries (by decide)
    (fun field hfield name number hcarried => keyColumn_of_carries hdata hfield hcarried)
    (fun field hfield hmissing => ?_) (fun hall field hfield => ?_) fun hsome field hfield => ?_
  · have hnames : field.textNames = [] := by
      simp only [Projection.fields, List.mem_cons, List.not_mem_nil, or_false] at hfield
      rcases hfield with rfl | rfl | rfl <;> rfl
    rw [hnames, List.nil_append] at hmissing
    rw [keyColumn, readEventNumber_of_missing hdata hmissing]
    rfl
  · obtain ⟨perTx, hperTx⟩ := Option.isSome_iff_exists.mp (hall .maxBuyPerTx (by decide))
    obtain ⟨perDay, hperDay⟩ := Option.isSome_iff_exists.mp (hall .maxBuyPerDay (by decide))
    obtain ⟨supply, hsupply⟩ := Option.isSome_iff_exists.mp (hall .currentSupply (by decide))
    have hupdated : updatedKey key (readConfigUpdate delivery.event) =
        some ⟨key.id, perTx, perDay, supply, key.configVersion + 1⟩ :=
      updatedKey_eq_some_iff.mpr ⟨hperTx, hperDay, hsupply, rfl, rfl⟩
    rw [hupdated] at hstored
    simp only [Projection.fields, List.mem_cons, List.not_mem_nil, or_false] at hfield
    rcases hfield with rfl | rfl | rfl
    · rw [storedAmount, hstored, hperTx, Option.bind_some, Option.bind_some]
    · rw [storedAmount, hstored, hperDay, Option.bind_some, Option.bind_some]
    · rw [storedAmount, hstored, hsupply, Option.bind_some, Option.bind_some]
  · have hlost : updatedKey key (readConfigUpdate delivery.event) = none := by
      by_contra hsaved
      obtain ⟨updated, hupdated⟩ := Option.ne_none_iff_exists'.mp hsaved
      obtain ⟨hperTx, hperDay, hsupply, -⟩ := updatedKey_eq_some_iff.mp hupdated
      refine hsome fun other hother => ?_
      simp only [Projection.fields, List.mem_cons, List.not_mem_nil, or_false] at hother
      rcases hother with rfl | rfl | rfl
      · rw [hperTx, Option.isSome_some]
      · rw [hperDay, Option.isSome_some]
      · rw [hsupply, Option.isSome_some]
    rw [hlost] at hstored
    simp only [Projection.fields, List.mem_cons, List.not_mem_nil, or_false] at hfield
    rcases hfield with rfl | rfl | rfl <;> rw [storedAmount, hstored, Option.bind_none]

end Keys

section Merges

variable {data : List (String × EventValue)} {delivery : Delivery}

theorem storedVote_handle (models : ReadModels) (listing : Listing) {input : KeyMergeVoteInput}
    (hmessage : readMessage delivery = some (.vote input)) :
    storedVote (Projection.mergeVote.handle models delivery listing) delivery =
      input.weight.column.map fun weight => voteRow models.merges input weight := by
  have hinput : readVote delivery = some input := of_readMessage hmessage
  simp only [storedVote, hinput, Option.bind_eq_bind, Option.bind_some,
    Projection.handle, KeyMerge.handle, hmessage, votes_recordVote]
  cases input.weight.column with
  | none => rfl
  | some weight =>
      have hsaved : findRow KeyMergeVote.key (saveRow KeyMergeVote.key models.merges.votes
          (voteRow models.merges input weight)) (voteRow models.merges input weight).key =
            some (voteRow models.merges input weight) := findRow_saveRow_self
      exact hsaved

theorem vote_stores_iff {models : ReadModels} {listing : Listing}
    (hdata : delivery.event.data = .object data)
    (hrecords : Projection.mergeVote.Records models delivery)
    (hcarries : CarriesIntegers .mergeVote data) :
    StoresExactly .mergeVote models delivery data listing ↔ KeepsCarried .mergeVote data := by
  obtain ⟨input, hmessage⟩ := hrecords
  have hstored := storedVote_handle models listing hmessage
  have hweight : input.weight = readWeight delivery.event := by
    have hinput : readVote delivery = some input := of_readMessage hmessage
    simp only [readVote, Option.bind_eq_bind, Option.bind_eq_some_iff, Option.pure_def,
      Option.some.injEq] at hinput
    obtain ⟨proposalId, -, voterAddress, -, rfl⟩ := hinput
    rfl
  refine stores_iff_of_columns (fun _ => input.weight.column) hcarries (by decide)
    (fun field hfield name number hcarried => ?_) (fun field hfield hmissing => ?_)
    (fun hall field hfield => ?_) fun hsome field hfield => ?_
  · obtain rfl := List.mem_singleton.mp hfield
    rw [hweight]
    exact congrArg AmountText.column (readAmountText_of_carries hdata rfl hcarried "1.0000000")
  · obtain rfl := List.mem_singleton.mp hfield
    have hfallback : input.weight = .text "1.0000000" := by
      rw [hweight]
      exact readAmountText_of_missing hdata hmissing "1.0000000"
    rw [hfallback]
    decide +kernel
  · obtain rfl := List.mem_singleton.mp hfield
    rw [storedAmount, hstored, Option.bind_map]
    rfl
  · obtain rfl := List.mem_singleton.mp hfield
    have hlost : input.weight.column = none := by
      by_contra hsaved
      exact hsome fun _ _ => Option.isSome_iff_ne_none.mpr hsaved
    rw [storedAmount, hstored, hlost]
    rfl

theorem storedSummary_handle {models : ReadModels} (listing : Listing)
    {input : KeyMergeExecutionInput} {proposal : KeyMergeProposal}
    (hmessage : readMessage delivery = some (.execution input))
    (hproposal : findProposal models.merges input.proposalId = some proposal) :
    storedSummary (Projection.mergeExecution.handle models delivery listing) delivery =
      some input.migrationSummary := by
  have hid : proposal.proposalId = input.proposalId := (mem_of_findRow hproposal).2
  have hread : readExecution delivery = some input := of_readMessage hmessage
  simp only [storedSummary, hread, Option.bind_eq_bind, Option.bind_some, Projection.handle,
    KeyMerge.handle, hmessage, recordExecution, hproposal]
  rw [findProposal, saveProposal, ← hid, Option.bind_eq_some_iff]
  exact ⟨_, findRow_saveRow_self, rfl⟩

/-- The texts of a migration's amounts. -/
def summaryText (event : Event) : AmountField → Option AmountText
  | .totalKeysMigrated => some (readTotalKeysMigrated event)
  | .tokensConverted => some (readTokensConverted event)
  | .sourceSupplyBurned => readSourceSupplyBurned event
  | _ => readTargetSupplyMinted event

theorem summaryText_of_carries (hdata : delivery.event.data = .object data) {field : AmountField}
    (hfield : field ∈ Projection.mergeExecution.fields) {name : String} {number : ℤ}
    (hcarries : Carries data field name number) :
    summaryText delivery.event field = some (textOf field name number) := by
  have hsupply : ∀ names, carrier data names = some name →
      (readEventString delivery.event names).map AmountText.text =
        some (.text (toString number)) := by
    intro names hcarrier
    rw [readEventString_of_carrier hdata hcarrier hcarries.2.1, Option.map_some]
  simp only [Projection.fields, List.mem_cons, List.not_mem_nil, or_false] at hfield
  rcases hfield with rfl | rfl | rfl | rfl
  · exact congrArg some (readAmountText_of_carries hdata rfl hcarries "0.0000000")
  · exact congrArg some (readAmountText_of_carries hdata rfl hcarries "0.0000000")
  · have hcarrier : carrier data burnedNames = some name := hcarries.1
    have hname : name ∈ AmountField.sourceSupplyBurned.textNames :=
      List.mem_of_find?_eq_some hcarrier
    rw [textOf, if_pos hname]
    exact hsupply burnedNames hcarrier
  · have hcarrier : carrier data mintedNames = some name := hcarries.1
    have hname : name ∈ AmountField.targetSupplyMinted.textNames :=
      List.mem_of_find?_eq_some hcarrier
    rw [textOf, if_pos hname]
    exact hsupply mintedNames hcarrier

theorem execution_stores_iff {models : ReadModels} {listing : Listing}
    (hdata : delivery.event.data = .object data)
    (hrecords : Projection.mergeExecution.Records models delivery) :
    StoresExactly .mergeExecution models delivery data listing ↔
      KeepsCarried .mergeExecution data := by
  obtain ⟨input, proposal, hmessage, hproposal⟩ := hrecords
  have hsummary := storedSummary_handle listing hmessage hproposal
  have hinput : input.migrationSummary.totalKeysMigrated = readTotalKeysMigrated delivery.event ∧
      input.migrationSummary.tokensConverted = readTokensConverted delivery.event ∧
      input.migrationSummary.sourceSupplyBurned = readSourceSupplyBurned delivery.event ∧
      input.migrationSummary.targetSupplyMinted = readTargetSupplyMinted delivery.event := by
    have hread : readExecution delivery = some input := of_readMessage hmessage
    simp only [readExecution, Option.bind_eq_bind, Option.bind_eq_some_iff, Option.pure_def,
      Option.some.injEq] at hread
    obtain ⟨proposalId, -, rfl⟩ := hread
    exact ⟨rfl, rfl, rfl, rfl⟩
  have hstored : ∀ field ∈ Projection.mergeExecution.fields,
      storedAmount models (Projection.mergeExecution.handle models delivery listing) delivery
        field = (summaryText delivery.event field).bind AmountText.decimal := by
    intro field hfield
    simp only [Projection.fields, List.mem_cons, List.not_mem_nil, or_false] at hfield
    rcases hfield with rfl | rfl | rfl | rfl
    · rw [storedAmount, hsummary, Option.bind_some, hinput.1]
      rfl
    · rw [storedAmount, hsummary, Option.bind_some, hinput.2.1]
      rfl
    · rw [storedAmount, hsummary, Option.bind_some, hinput.2.2.1]
      rfl
    · rw [storedAmount, hsummary, Option.bind_some, hinput.2.2.2]
      rfl
  have htexts : ∀ field ∈ Projection.mergeExecution.fields, field.isColumn = false := by decide
  refine forall₂_congr fun field hfield => forall₃_congr fun name number hcarried => ?_
  rw [hstored field hfield, summaryText_of_carries hdata hfield hcarried, Option.bind_some]
  exact decimal_textOf_iff hcarried.2.2 (htexts field hfield)

end Merges

/-- A projection stores the integers of an event as they are if and only if each of its
fields keeps the one that the event carries for it: an integer that is read as a text has to
fit its column, and one that is read as a number has to be what the text of its double
writes. -/
theorem storesExactly_iff (projection : Projection) {models : ReadModels} {delivery : Delivery}
    {data : List (String × EventValue)} (listing : Listing)
    (hdata : delivery.event.data = .object data)
    (hrecords : projection.Records models delivery)
    (hcarries : CarriesIntegers projection data) :
    StoresExactly projection models delivery data listing ↔ KeepsCarried projection data := by
  cases projection with
  | swap => exact swap_stores_iff hdata hrecords hcarries
  | creatorKey => exact key_stores_iff hdata hrecords hcarries
  | mergeVote => exact vote_stores_iff hdata hrecords hcarries
  | mergeExecution => exact execution_stores_iff hdata hrecords

/-! ## A swap above 2^53 -/

def swapData (buyerAmount : ℤ) : List (String × EventValue) :=
  [("buyer", .string "GBUYER"), ("seller", .string "GSELLER"), ("swap_id", .string "swap-1"),
    ("buyer_amount", .bigint buyerAmount), ("seller_amount", .string "250000000")]

def swapDelivery (buyerAmount : ℤ) : Delivery where
  now := 81
  event :=
    { id := "e1", contractId := "CSWAP", ledger := 8, ledgerClosedAt := some 80
      txHash := some "a1b2", topic := "atomic_swap_executed", topics := []
      data := .object (swapData buyerAmount) }

theorem records_swapDelivery (buyerAmount : ℤ) :
    Projection.swap.Records {} (swapDelivery buyerAmount) := by
  have htopic : mentionsSwap "atomic_swap_executed" = true := by decide +kernel
  exact ⟨htopic, _, rfl, rfl⟩

theorem carries_swapData {buyerAmount : ℤ} (hrange : IsI128 buyerAmount) {field : AmountField}
    (hfield : field ∈ Projection.swap.fields) {name : String}
    (hname : carrier (swapData buyerAmount) (field.textNames ++ field.numberNames) = some name) :
    Carries (swapData buyerAmount) field name
      (if field = .buyerAmount then buyerAmount else 250000000) := by
  refine ⟨hname, ?_⟩
  simp only [Projection.fields, List.mem_cons, List.not_mem_nil, or_false] at hfield
  rcases hfield with rfl | rfl | rfl
  · have hcarrier : carrier (swapData buyerAmount) buyerAmountNames = some "buyer_amount" := rfl
    obtain rfl := Option.some.inj (hcarrier.symm.trans hname)
    exact ⟨.inl rfl, hrange⟩
  · have hcarrier : carrier (swapData buyerAmount) sellerAmountNames = some "seller_amount" := rfl
    obtain rfl := Option.some.inj (hcarrier.symm.trans hname)
    exact ⟨.inr rfl, show IsI128 250000000 from ⟨by norm_num, by norm_num⟩⟩
  · have hcarrier : carrier (swapData buyerAmount) feeNames = none := rfl
    cases hcarrier.symm.trans hname

/-- The number above 2^53 is read as 2^53, and stored so. -/
theorem swapDelivery_rounded :
    Projection.swap.Records {} (swapDelivery (2 ^ 53 + 1)) ∧
      CarriesIntegers .swap (swapData (2 ^ 53 + 1)) ∧
      storedAmount {} (Projection.swap.handle {} (swapDelivery (2 ^ 53 + 1)) .asStored)
        (swapDelivery (2 ^ 53 + 1)) .buyerAmount = some (2 ^ 53) ∧
      ¬StoresExactly .swap {} (swapDelivery (2 ^ 53 + 1)) (swapData (2 ^ 53 + 1)) .asStored := by
  have hrange : IsI128 (2 ^ 53 + 1) := ⟨by norm_num, by norm_num⟩
  have hstored : storedAmount {} (Projection.swap.handle {} (swapDelivery (2 ^ 53 + 1)) .asStored)
      (swapDelivery (2 ^ 53 + 1)) .buyerAmount = some (2 ^ 53) := by decide +kernel
  refine ⟨records_swapDelivery _, fun field hfield name hname =>
    ⟨_, carries_swapData hrange hfield hname⟩, hstored, fun hexact => ?_⟩
  have hcarries : Carries (swapData (2 ^ 53 + 1)) .buyerAmount "buyer_amount" (2 ^ 53 + 1) :=
    carries_swapData hrange (by decide) rfl
  have hsame := hexact .buyerAmount (by decide) "buyer_amount" (2 ^ 53 + 1) hcarries
  rw [hstored] at hsame
  revert hsame
  decide +kernel

/-- The amounts of a smaller swap are stored as they are. -/
theorem swapDelivery_exact :
    StoresExactly .swap {} (swapDelivery (2 ^ 53)) (swapData (2 ^ 53)) .asStored ∧
      storedAmount {} (Projection.swap.handle {} (swapDelivery (2 ^ 53)) .asStored)
        (swapDelivery (2 ^ 53)) .buyerAmount = some (2 ^ 53) := by
  have hrange : IsI128 (2 ^ 53) := ⟨by norm_num, by norm_num⟩
  refine ⟨(storesExactly_iff .swap .asStored rfl (records_swapDelivery _)
    fun field hfield name hname => ⟨_, carries_swapData hrange hfield hname⟩).mpr ?_,
    by decide +kernel⟩
  intro field hfield name number hcarries
  have hnumber := hcarries.2.1.unique (carries_swapData hrange hfield hcarries.1).2.1
  have hsmall : |number| ≤ 2 ^ 53 := by
    rw [hnumber]
    split <;> norm_num
  have hfixed : field.isFixed = false := by
    simp only [Projection.fields, List.mem_cons, List.not_mem_nil, or_false] at hfield
    rcases hfield with rfl | rfl | rfl <;> rfl
  refine ⟨fun _ => hsmall.trans_lt (by norm_num), .inr ?_⟩
  rw [hfixed]
  exact writtenAsRead_of_abs_le hsmall

end StellarSettle.StoredAmounts
