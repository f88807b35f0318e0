import StellarSettle.Projections.DividendDistribution
import StellarSettle.Projections.RoyaltyEarnings

/-!
# Positional and named payloads

The data of an event is a list of arguments or a map.  A key finds the argument whose index
its digits spell; a key without digits finds the first argument, so the wallet that comes
first is also read as the amount and as the id.  A number is read from a map only.
-/

namespace StellarSettle.PositionalPayload

open StellarSettle.Amounts
open StellarSettle.DividendDistribution
open StellarSettle.EventReader
open StellarSettle.RoyaltyEarnings

/-! ## The two forms of a payload -/

def claimRecipientNames : List String :=
  ["recipient_wallet", "recipientWallet", "recipient", "claimer", "holder"]

def claimAmountNames : List String := ["amount", "claimed", "claim_amount"]

def claimIdNames : List String := ["claim_id", "claimId", "claim"]

def keyNames : List String := ["key_address", "keyAddress", "key"]

def creatorNames : List String := ["creator_wallet", "creatorWallet", "creator", "rights_holder"]

def royaltyAmountNames : List String := ["amount", "royalty", "royalty_amount"]

/-- An event with the names that its map has for the arguments 0, 1 and 2. -/
inductive Payload where
  | dividendClaimed (recipient amount claimId : String)
      (hrecipient : recipient ∈ claimRecipientNames) (hamount : amount ∈ claimAmountNames)
      (hclaimId : claimId ∈ claimIdNames)
  | royaltyPaid (key creator amount : String) (hkey : key ∈ keyNames)
      (hcreator : creator ∈ creatorNames) (hamount : amount ∈ royaltyAmountNames)

def Payload.names : Payload → List String
  | .dividendClaimed recipient amount claimId _ _ _ => [recipient, amount, claimId]
  | .royaltyPaid key creator amount _ _ _ => [key, creator, amount]

def positional (delivery : Delivery) (arguments : List EventValue) : Delivery :=
  { delivery with event := { delivery.event with data := .array arguments } }

def named (delivery : Delivery) (names : List String) (arguments : List EventValue) : Delivery :=
  { delivery with event := { delivery.event with data := .object (names.zip arguments) } }

/-- What a projection records: the recipient, the amount, and the id of a claim. -/
structure RecordedRow where
  recipient : String
  amount : Amount
  claimId : Option String
  deriving DecidableEq, Repr

section Rows

variable (parse : String → Option DecimalValue)

def claimRow (claim : Claim) : RecordedRow :=
  ⟨claim.recipientWallet, claim.amount, some claim.claimId⟩

def royaltyRow (royalty : RoyaltyEvent) : RecordedRow :=
  ⟨royalty.creatorWallet, royalty.amount, none⟩

/-- The rows that an empty projection has after the event. -/
def Payload.rows (payload : Payload) (delivery : Delivery) : List RecordedRow :=
  match payload with
  | .dividendClaimed .. => (handleClaimed parse {} delivery).claims.map claimRow
  | .royaltyPaid .. => (handleRoyaltyPaid parse [] delivery).map royaltyRow

/-- Both forms of the payload give the same row, or none. -/
def SameRow (payload : Payload) (delivery : Delivery) (arguments : List EventValue) : Prop :=
  payload.rows parse (positional delivery arguments) =
    payload.rows parse (named delivery payload.names arguments)

/-! ## When the forms agree -/

def argument (arguments : List EventValue) (index : ℕ) : EventValue :=
  arguments[index]?.getD .null

def topicText (event : Event) (index : ℕ) : Option String :=
  event.topics[index]?.bind trimmedString

def isNumeral : EventValue → Bool
  | .number _ | .bigint _ => true
  | _ => false

def amountOfText (text : String) : Option Amount :=
  (tryDecimal parse (.string text)).map DecimalValue.toFixed

/-- The amount that a map's value is read as. -/
def claimAmountOf (value : EventValue) : Option Amount :=
  (scalarText value).bind (amountOfText parse)

def royaltyAmountOf (value : EventValue) : Option Amount :=
  (tryDecimal parse value).map DecimalValue.toFixed

/-- Where the first argument is a text, it must be the amount and the id too, or neither of the
two amounts is readable.  Where it is none, a row needs texts for the amount and the id, and
the wallet among the topics. -/
def ClaimReadAlike (event : Event) (arguments : List EventValue) : Prop :=
  let amount := claimAmountOf parse (argument arguments 1)
  let claimId := (scalarText (argument arguments 2)).getD (claimKey event)
  match trimmedString (argument arguments 0) with
  | some wallet => amountOfText parse wallet = amount ∧ (amount ≠ none → claimId = wallet)
  | none =>
      amount = none ∨
        isNumeral (argument arguments 0) = false ∧ topicText event 1 = none ∨
        (isNumeral (argument arguments 0) = true →
            topicText event 1 = scalarText (argument arguments 0)) ∧
          isNumeral (argument arguments 1) = false ∧
          (isNumeral (argument arguments 2) = true → claimId = claimKey event)

/-- Where the first argument is a text, it must be the creator too, and no other amount.  Where
it is a number, it must be the amount too.  The creator is no number, unless a topic is it. -/
def RoyaltyReadAlike (event : Event) (arguments : List EventValue) : Prop :=
  let amount := royaltyAmountOf parse (argument arguments 2)
  let creator := (scalarText (argument arguments 1)).or (topicText event 2)
  let creatorText := (trimmedString (argument arguments 1)).or (topicText event 2)
  let first := royaltyAmountOf parse (argument arguments 0)
  match trimmedString (argument arguments 0) with
  | some key =>
      (first = none ∨ first = amount) ∧ (amount ≠ none → creator = some key)
  | none =>
      if isNumeral (argument arguments 0) then
        (topicText event 1 = none ∨ creatorText = none) ∧ (creator = none ∨ amount = none) ∨
          topicText event 1 ≠ none ∧ creatorText ≠ none ∧ creatorText = creator ∧ first = amount
      else topicText event 1 = none ∨ amount = none ∨ creatorText = creator

def ReadAlike (payload : Payload) (event : Event) (arguments : List EventValue) : Prop :=
  match payload with
  | .dividendClaimed .. => ClaimReadAlike parse event arguments
  | .royaltyPaid .. => RoyaltyReadAlike parse event arguments

end Rows

/-! ## Positional reads -/

section Positional

variable {Value : Type} {arguments : List EventValue} {names : List String}

theorem bind_argument {read : EventValue → Option Value} (hnull : read .null = none) (index : ℕ) :
    arguments[index]?.bind read = read (argument arguments index) := by
  rw [argument]
  cases arguments[index]? with
  | none => exact hnull.symm
  | some value => rfl

theorem findSome?_constant {read : String → Option Value} {value : Option Value}
    (hne : names ≠ []) (hread : ∀ name ∈ names, read name = value) :
    names.findSome? read = value := by
  induction names with
  | nil => exact absurd rfl hne
  | cons name rest ih =>
      rw [List.findSome?_cons, hread name List.mem_cons_self]
      cases hvalue : value with
      | some found => rfl
      | none =>
          cases rest with
          | nil => rfl
          | cons next more =>
              have hrest := ih (List.cons_ne_nil _ _) fun other hother =>
                hread other (List.mem_cons_of_mem _ hother)
              rw [hvalue] at hrest
              exact hrest

/-- Keys without digits all find the first argument. -/
theorem findSome?_positional (arguments : List EventValue) {read : EventValue → Option Value}
    (hnull : read .null = none) (names : List String) (hne : names ≠ [])
    (hzero : ∀ name ∈ names, keyIndex name = 0) (digits : String) :
    (names ++ [digits]).findSome? (fun key => arguments[keyIndex key]?.bind read) =
      (read (argument arguments 0)).or (read (argument arguments (keyIndex digits))) := by
  have hnames : names.findSome? (fun key => arguments[keyIndex key]?.bind read) =
      read (argument arguments 0) := by
    refine findSome?_constant hne fun name hname => ?_
    rw [hzero name hname, bind_argument hnull]
  rw [List.findSome?_append, hnames, List.findSome?_singleton, bind_argument hnull]

theorem readEventString_positional (delivery : Delivery) (arguments : List EventValue)
    (names : List String) (hne : names ≠ []) (hzero : ∀ name ∈ names, keyIndex name = 0)
    (digits : String) (topicIndex : Option ℕ) :
    readEventString (positional delivery arguments).event (names ++ [digits]) topicIndex =
      ((trimmedString (argument arguments 0)).or
        (trimmedString (argument arguments (keyIndex digits)))).or
        (topicIndex.bind (topicText delivery.event)) := by
  rw [← findSome?_positional arguments rfl names hne hzero digits]
  exact Option.orElse_eq_or

end Positional

/-! ## Named reads -/

section Named

variable {Value : Type} {arguments : List EventValue} {names keys : List String}

theorem property_zip_of_not_mem {key : String} (hkey : key ∉ names) :
    property (names.zip arguments) key = .null := by
  rw [property, List.lookup_eq_none_iff.mpr, Option.getD_none]
  intro entry hentry
  have hname : entry.1 ∈ names := (List.of_mem_zip hentry).1
  exact bne_iff_ne.mpr fun hsame => hkey (by rwa [hsame])

theorem property_zip {name : String} {index : ℕ} (hnodup : names.Nodup)
    (hname : names[index]? = some name) :
    property (names.zip arguments) name = argument arguments index := by
  induction names generalizing index arguments with
  | nil => cases hname
  | cons first rest ih =>
      obtain ⟨hfirst, hrest⟩ := List.nodup_cons.mp hnodup
      cases arguments with
      | nil => rfl
      | cons value values =>
          cases index with
          | zero =>
              obtain rfl := Option.some.inj hname
              simp [property, argument]
          | succ index =>
              rw [List.getElem?_cons_succ] at hname
              have hother : (name == first) = false := beq_eq_false_iff_ne.mpr fun hsame =>
                hfirst (hsame ▸ List.mem_of_getElem? hname)
              have hvalue : property (rest.zip values) name = argument values index :=
                ih hrest hname
              rw [property, List.zip_cons_cons, List.lookup_cons, hother]
              exact hvalue

/-- The one key that the map has decides what is read. -/
theorem findSome?_named (arguments : List EventValue) {read : EventValue → Option Value}
    {name : String} (index : ℕ) (hnull : read .null = none) (hnodup : names.Nodup)
    (hname : names[index]? = some name)
    (hmem : name ∈ keys) (hothers : ∀ other ∈ names, other = name ∨ other ∉ keys) :
    keys.findSome? (fun key => read (property (names.zip arguments) key)) =
      read (argument arguments index) := by
  have hmissing : ∀ key ∈ keys, key ≠ name →
      read (property (names.zip arguments) key) = none := by
    intro key hkey hother
    rw [property_zip_of_not_mem fun hin => (hothers key hin).elim hother fun hnot => hnot hkey,
      hnull]
  have hown : read (property (names.zip arguments) name) = read (argument arguments index) := by
    rw [property_zip hnodup hname]
  clear hothers
  induction keys with
  | nil => cases hmem
  | cons key rest ih =>
      have hrest := fun other hother => hmissing other (List.mem_cons_of_mem _ hother)
      rw [List.findSome?_cons]
      by_cases hsame : key = name
      · rw [hsame, hown]
        cases hread : read (argument arguments index) with
        | some found => rfl
        | none =>
            refine List.findSome?_eq_none_iff.mpr fun other hother => ?_
            by_cases hagain : other = name
            · rw [hagain, hown, hread]
            · exact hrest other hother hagain
      · rw [hmissing key List.mem_cons_self hsame]
        refine ih ?_ hrest
        rcases List.mem_cons.mp hmem with hhead | htail
        · exact absurd hhead.symm hsame
        · exact htail

theorem readEventString_named (delivery : Delivery) (arguments : List EventValue) {name : String}
    (index : ℕ) (hnodup : names.Nodup) (hname : names[index]? = some name) (hmem : name ∈ keys)
    (hothers : ∀ other ∈ names, other = name ∨ other ∉ keys) (topicIndex : Option ℕ) :
    readEventString (named delivery names arguments).event keys topicIndex =
      (scalarText (argument arguments index)).or (topicIndex.bind (topicText delivery.event)) := by
  have hread : keys.findSome? (fun key => scalarText (property (names.zip arguments) key)) =
      scalarText (argument arguments index) := 
    findSome?_named arguments index rfl hnodup hname hmem hothers
  rw [← hread]
  exact Option.orElse_eq_or

end Named

/-! ## Claims -/

section Claims

variable {parse : String → Option DecimalValue} {delivery : Delivery} {arguments : List EventValue}

/-- A row of a claim, from what the three reads find. -/
def claimRowOf (recipient : Option String) (amount : Option Amount) (claimId : String) :
    Option RecordedRow :=
  recipient.bind fun recipient => amount.map fun amount => ⟨recipient, amount, some claimId⟩

theorem rows_claim (delivery : Delivery) :
    (handleClaimed parse {} delivery).claims.map claimRow =
      (claimRowOf (readRecipient delivery.event) (readClaimAmount parse delivery.event)
        (readClaimId delivery.event)).toList := by
  rw [handleClaimed, readClaim]
  cases readRecipient delivery.event with
  | none => rfl
  | some recipient => cases readClaimAmount parse delivery.event <;> rfl

theorem readAmount_eq (event : Event) (keys : List String) :
    DividendDistribution.readAmount parse event keys =
      (readEventString event keys).bind (amountOfText parse) := by
  rw [DividendDistribution.readAmount, Option.map_bind]
  rfl

theorem readRecipient_positional :
    readRecipient (positional delivery arguments).event =
      (trimmedString (argument arguments 0)).or (topicText delivery.event 1) := by
  have hread := readEventString_positional delivery arguments claimRecipientNames
    (by decide) (by decide) "0" (some 1)
  rw [show keyIndex "0" = 0 by decide, Option.or_self] at hread
  exact hread

theorem readClaimAmount_positional :
    readClaimAmount parse (positional delivery arguments).event =
      ((trimmedString (argument arguments 0)).or (trimmedString (argument arguments 1))).bind
        (amountOfText parse) := by
  have hread := readEventString_positional delivery arguments claimAmountNames
    (by decide) (by decide) "1" none
  rw [show keyIndex "1" = 1 by decide, Option.bind_none, Option.or_none] at hread
  rw [readClaimAmount, readAmount_eq, ← hread]
  rfl

theorem readClaimId_positional :
    readClaimId (positional delivery arguments).event =
      ((trimmedString (argument arguments 0)).or (trimmedString (argument arguments 2))).getD
        (claimKey delivery.event) := by
  have hread := readEventString_positional delivery arguments claimIdNames
    (by decide) (by decide) "2" none
  rw [show keyIndex "2" = 2 by decide, Option.bind_none, Option.or_none] at hread
  rw [← hread]
  rfl

variable {recipient amount claimId : String} (hrecipient : recipient ∈ claimRecipientNames)
  (hamount : amount ∈ claimAmountNames) (hclaimId : claimId ∈ claimIdNames)

include hrecipient hamount hclaimId

theorem nodup_claimNames : [recipient, amount, claimId].Nodup := by
  have hdisjoint : ∀ first ∈ claimRecipientNames, ∀ second ∈ claimAmountNames,
      ∀ third ∈ claimIdNames, [first, second, third].Nodup := by decide
  exact hdisjoint recipient hrecipient amount hamount claimId hclaimId

theorem readRecipient_named :
    readRecipient (named delivery [recipient, amount, claimId] arguments).event =
      (scalarText (argument arguments 0)).or (topicText delivery.event 1) := by
  have hothers : ∀ first ∈ claimRecipientNames, ∀ second ∈ claimAmountNames,
      ∀ third ∈ claimIdNames, ∀ other ∈ [first, second, third],
        other = first ∨ other ∉ claimRecipientNames ++ ["0"] := by decide
  exact readEventString_named delivery arguments 0 (nodup_claimNames hrecipient hamount hclaimId)
    rfl (List.mem_append_left ["0"] hrecipient)
    (hothers recipient hrecipient amount hamount claimId hclaimId) (some 1)

theorem readClaimAmount_named :
    readClaimAmount parse (named delivery [recipient, amount, claimId] arguments).event =
      claimAmountOf parse (argument arguments 1) := by
  have hothers : ∀ first ∈ claimRecipientNames, ∀ second ∈ claimAmountNames,
      ∀ third ∈ claimIdNames, ∀ other ∈ [first, second, third],
        other = second ∨ other ∉ claimAmountNames ++ ["1"] := by decide
  have hread := readEventString_named delivery arguments 1
    (nodup_claimNames hrecipient hamount hclaimId) rfl (List.mem_append_left ["1"] hamount)
    (hothers recipient hrecipient amount hamount claimId hclaimId) none
  rw [Option.bind_none, Option.or_none] at hread
  rw [readClaimAmount, readAmount_eq, claimAmountOf, ← hread]
  rfl

theorem readClaimId_named :
    readClaimId (named delivery [recipient, amount, claimId] arguments).event =
      (scalarText (argument arguments 2)).getD (claimKey delivery.event) := by
  have hothers : ∀ first ∈ claimRecipientNames, ∀ second ∈ claimAmountNames,
      ∀ third ∈ claimIdNames, ∀ other ∈ [first, second, third],
        other = third ∨ other ∉ claimIdNames ++ ["2"] := by decide
  have hread := readEventString_named delivery arguments 2
    (nodup_claimNames hrecipient hamount hclaimId) rfl (List.mem_append_left ["2"] hclaimId)
    (hothers recipient hrecipient amount hamount claimId hclaimId) none
  rw [Option.bind_none, Option.or_none] at hread
  rw [← hread]
  rfl

end Claims

section Values

variable {value : EventValue}

theorem scalarText_of_text {text : String} (htext : trimmedString value = some text) :
    scalarText value = some text := by
  cases value with
  | string written => exact htext
  | _ => cases htext

theorem scalarText_of_not_numeral (hnumeral : isNumeral value = false) :
    scalarText value = trimmedString value := by
  cases value with
  | number _ => cases hnumeral
  | bigint _ => cases hnumeral
  | _ => rfl

theorem exists_scalarText (hnumeral : isNumeral value = true) :
    trimmedString value = none ∧ ∃ digits, scalarText value = some digits := by
  cases value with
  | number count => exact ⟨rfl, _, rfl⟩
  | bigint count => exact ⟨rfl, _, rfl⟩
  | _ => cases hnumeral

end Values

section ClaimRows

variable {parse : String → Option DecimalValue} {delivery : Delivery} {arguments : List EventValue}

theorem claimRowOf_inj {left right : Option String} {leftAmount rightAmount : Option Amount}
    {leftId rightId : String} :
    claimRowOf left leftAmount leftId = claimRowOf right rightAmount rightId ↔
      ((left = none ∨ leftAmount = none) ∧ (right = none ∨ rightAmount = none)) ∨
        (left ≠ none ∧ leftAmount ≠ none ∧ left = right ∧ leftAmount = rightAmount ∧
          leftId = rightId) := by
  cases left <;> cases leftAmount <;> cases right <;> cases rightAmount <;>
    simp [claimRowOf]

theorem claimReadAlike_iff (event : Event) :
    claimRowOf ((trimmedString (argument arguments 0)).or (topicText event 1))
        (((trimmedString (argument arguments 0)).or (trimmedString (argument arguments 1))).bind
          (amountOfText parse))
        (((trimmedString (argument arguments 0)).or
          (trimmedString (argument arguments 2))).getD (claimKey event)) =
      claimRowOf ((scalarText (argument arguments 0)).or (topicText event 1))
        (claimAmountOf parse (argument arguments 1))
        ((scalarText (argument arguments 2)).getD (claimKey event)) ↔
      ClaimReadAlike parse event arguments := by
  rw [ClaimReadAlike]
  cases hfirst : trimmedString (argument arguments 0) with
  | some wallet =>
      rw [scalarText_of_text hfirst, claimRowOf_inj]
      simp only [Option.some_or, Option.bind_some, Option.getD_some]
      cases amountOfText parse wallet <;>
        cases claimAmountOf parse (argument arguments 1) <;> simp [eq_comm]
  | none =>
      -- A number is no text, so that a list does not give it.
      have hamount : (trimmedString (argument arguments 1)).bind (amountOfText parse) =
          if isNumeral (argument arguments 1) = true then none
          else claimAmountOf parse (argument arguments 1) := by
        split
        · rename_i hnumeral
          rw [(exists_scalarText hnumeral).1, Option.bind_none]
        · rename_i htext
          rw [claimAmountOf, scalarText_of_not_numeral (Bool.not_eq_true _ |>.mp htext)]
      have hid : (trimmedString (argument arguments 2)).getD (claimKey event) =
          if isNumeral (argument arguments 2) = true then claimKey event
          else (scalarText (argument arguments 2)).getD (claimKey event) := by
        split
        · rename_i hnumeral
          rw [(exists_scalarText hnumeral).1, Option.getD_none]
        · rename_i htext
          rw [scalarText_of_not_numeral (Bool.not_eq_true _ |>.mp htext)]
      simp only [Option.none_or]
      rw [hamount, hid, claimRowOf_inj]
      cases hnumeral : isNumeral (argument arguments 0) with
      | false =>
          rw [scalarText_of_not_numeral hnumeral, hfirst, Option.none_or]
          cases topicText event 1 <;> cases claimAmountOf parse (argument arguments 1) <;>
            cases isNumeral (argument arguments 1) <;>
              cases isNumeral (argument arguments 2) <;> simp [eq_comm]
      | true =>
          obtain ⟨_, digits, hdigits⟩ := exists_scalarText hnumeral
          rw [hdigits, Option.some_or]
          cases topicText event 1 <;> cases claimAmountOf parse (argument arguments 1) <;>
            cases isNumeral (argument arguments 1) <;>
              cases isNumeral (argument arguments 2) <;> simp [eq_comm]

end ClaimRows

/-! ## Royalties -/

section Royalties

variable {parse : String → Option DecimalValue} {delivery : Delivery} {arguments : List EventValue}

/-- A row of a royalty, from what the three reads find. -/
def royaltyRowOf (key creator : Option String) (amount : Option Amount) : Option RecordedRow :=
  key.bind fun _ => creator.bind fun creator => amount.map fun amount => ⟨creator, amount, none⟩

theorem rows_royalty (delivery : Delivery) :
    (handleRoyaltyPaid parse [] delivery).map royaltyRow =
      (royaltyRowOf (readKeyAddress delivery.event) (readCreatorWallet delivery.event)
        (readRoyaltyAmount parse delivery.event)).toList := by
  rw [handleRoyaltyPaid, readRoyaltyPaid]
  cases readKeyAddress delivery.event with
  | none => rfl
  | some key =>
      cases readCreatorWallet delivery.event with
      | none => rfl
      | some creator => cases readRoyaltyAmount parse delivery.event <;> rfl

theorem readKeyAddress_positional :
    readKeyAddress (positional delivery arguments).event =
      (trimmedString (argument arguments 0)).or (topicText delivery.event 1) := by
  have hread := readEventString_positional delivery arguments keyNames
    (by decide) (by decide) "0" (some 1)
  rw [show keyIndex "0" = 0 by decide, Option.or_self] at hread
  exact hread

theorem readCreatorWallet_positional :
    readCreatorWallet (positional delivery arguments).event =
      ((trimmedString (argument arguments 0)).or (trimmedString (argument arguments 1))).or
        (topicText delivery.event 2) := by
  have hread := readEventString_positional delivery arguments creatorNames
    (by decide) (by decide) "1" (some 2)
  rw [show keyIndex "1" = 1 by decide] at hread
  exact hread

theorem findSome?_filterMap {Key Value Found : Type} (element : Key → Option Value)
    (read : Value → Option Found) (keys : List Key) :
    (keys.filterMap element).findSome? read =
      keys.findSome? fun key => (element key).bind read := by
  induction keys with
  | nil => rfl
  | cons key rest ih =>
      cases helement : element key with
      | none => rw [List.filterMap_cons_none helement, ih, List.findSome?_cons, helement,
          Option.bind_none]
      | some value => rw [List.filterMap_cons_some helement, List.findSome?_cons, ih,
          List.findSome?_cons, helement, Option.bind_some]

theorem readRoyaltyAmount_positional :
    readRoyaltyAmount parse (positional delivery arguments).event =
      (royaltyAmountOf parse (argument arguments 0)).or
        (royaltyAmountOf parse (argument arguments 2)) := by
  have hnull : tryDecimal parse .null = none := rfl
  have hread := findSome?_positional arguments hnull royaltyAmountNames (by decide)
    (by decide) "2"
  rw [show keyIndex "2" = 2 by decide, ← findSome?_filterMap] at hread
  rw [royaltyAmountOf, royaltyAmountOf, ← Option.map_or, ← hread]
  rfl

variable {key creator amount : String} (hkey : key ∈ keyNames) (hcreator : creator ∈ creatorNames)
  (hamount : amount ∈ royaltyAmountNames)

include hkey hcreator hamount

theorem nodup_royaltyNames : [key, creator, amount].Nodup := by
  have hdisjoint : ∀ first ∈ keyNames, ∀ second ∈ creatorNames, ∀ third ∈ royaltyAmountNames,
      [first, second, third].Nodup := by decide
  exact hdisjoint key hkey creator hcreator amount hamount

theorem readKeyAddress_named :
    readKeyAddress (named delivery [key, creator, amount] arguments).event =
      (scalarText (argument arguments 0)).or (topicText delivery.event 1) := by
  have hothers : ∀ first ∈ keyNames, ∀ second ∈ creatorNames, ∀ third ∈ royaltyAmountNames,
      ∀ other ∈ [first, second, third], other = first ∨ other ∉ keyNames ++ ["0"] := by
    decide
  exact readEventString_named delivery arguments 0 (nodup_royaltyNames hkey hcreator hamount)
    rfl (List.mem_append_left ["0"] hkey) (hothers key hkey creator hcreator amount hamount)
    (some 1)

theorem readCreatorWallet_named :
    readCreatorWallet (named delivery [key, creator, amount] arguments).event =
      (scalarText (argument arguments 1)).or (topicText delivery.event 2) := by
  have hothers : ∀ first ∈ keyNames, ∀ second ∈ creatorNames, ∀ third ∈ royaltyAmountNames,
      ∀ other ∈ [first, second, third], other = second ∨ other ∉ creatorNames ++ ["1"] := by
    decide
  exact readEventString_named delivery arguments 1 (nodup_royaltyNames hkey hcreator hamount)
    rfl (List.mem_append_left ["1"] hcreator) (hothers key hkey creator hcreator amount hamount)
    (some 2)

theorem readRoyaltyAmount_named :
    readRoyaltyAmount parse (named delivery [key, creator, amount] arguments).event =
      royaltyAmountOf parse (argument arguments 2) := by
  have hothers : ∀ first ∈ keyNames, ∀ second ∈ creatorNames, ∀ third ∈ royaltyAmountNames,
      ∀ other ∈ [first, second, third], other = third ∨ other ∉ royaltyAmountNames ++ ["2"] := by
    decide
  have hnull : tryDecimal parse .null = none := rfl
  have hread := findSome?_named arguments 2 hnull (nodup_royaltyNames hkey hcreator hamount)
    rfl (List.mem_append_left ["2"] hamount)
    (hothers key hkey creator hcreator amount hamount)
  rw [royaltyAmountOf, ← hread]
  change (List.findSome? (tryDecimal parse) (List.map _ _)).map DecimalValue.toFixed = _
  rw [List.findSome?_map]
  rfl

end Royalties

section RoyaltyRows

variable {parse : String → Option DecimalValue} {arguments : List EventValue} {value : EventValue}

theorem exists_royaltyAmountOf (parse : String → Option DecimalValue)
    (hnumeral : isNumeral value = true) :
    ∃ amount, royaltyAmountOf parse value = some amount := by
  cases value with
  | number count => exact ⟨_, rfl⟩
  | bigint count => exact ⟨_, rfl⟩
  | _ => cases hnumeral

theorem royaltyAmountOf_eq_none (htext : trimmedString value = none)
    (hnumeral : isNumeral value = false) : royaltyAmountOf parse value = none := by
  cases value with
  | string text =>
      have hblank : trimText text = "" := by
        by_contra hwritten
        rw [trimmedString, if_neg hwritten] at htext
        cases htext
      rw [royaltyAmountOf, tryDecimal, if_pos hblank]
      rfl
  | number _ => cases hnumeral
  | bigint _ => cases hnumeral
  | _ => rfl

theorem royaltyReadAlike_iff (event : Event) :
    royaltyRowOf ((trimmedString (argument arguments 0)).or (topicText event 1))
        (((trimmedString (argument arguments 0)).or
          (trimmedString (argument arguments 1))).or (topicText event 2))
        ((royaltyAmountOf parse (argument arguments 0)).or
          (royaltyAmountOf parse (argument arguments 2))) =
      royaltyRowOf ((scalarText (argument arguments 0)).or (topicText event 1))
        ((scalarText (argument arguments 1)).or (topicText event 2))
        (royaltyAmountOf parse (argument arguments 2)) ↔
      RoyaltyReadAlike parse event arguments := by
  rw [RoyaltyReadAlike]
  cases hfirst : trimmedString (argument arguments 0) with
  | some key =>
      rw [scalarText_of_text hfirst]
      cases royaltyAmountOf parse (argument arguments 0) <;>
        cases royaltyAmountOf parse (argument arguments 2) <;>
          cases (scalarText (argument arguments 1)).or (topicText event 2) <;>
            simp [royaltyRowOf, eq_comm, and_comm]
  | none =>
      simp only [Option.none_or]
      cases hnumeral : isNumeral (argument arguments 0) with
      | false =>
          rw [scalarText_of_not_numeral hnumeral, hfirst, royaltyAmountOf_eq_none hfirst hnumeral]
          cases topicText event 1 <;>
            cases royaltyAmountOf parse (argument arguments 2) <;>
              cases (trimmedString (argument arguments 1)).or (topicText event 2) <;>
                cases (scalarText (argument arguments 1)).or (topicText event 2) <;>
                  simp [royaltyRowOf]
      | true =>
          obtain ⟨_, digits, hdigits⟩ := exists_scalarText hnumeral
          obtain ⟨count, hcount⟩ := exists_royaltyAmountOf parse hnumeral
          rw [hdigits, hcount]
          cases topicText event 1 <;>
            cases royaltyAmountOf parse (argument arguments 2) <;>
              cases (trimmedString (argument arguments 1)).or (topicText event 2) <;>
                cases (scalarText (argument arguments 1)).or (topicText event 2) <;>
                  simp [royaltyRowOf]

end RoyaltyRows

/-! ## The same row -/

theorem toList_eq_iff {Value : Type} {left right : Option Value} :
    left.toList = right.toList ↔ left = right := by
  cases left <;> cases right <;> simp

/-- Both forms of a payload give the same row exactly where their arguments are read alike. -/
theorem sameRow_iff (parse : String → Option DecimalValue) (payload : Payload)
    (delivery : Delivery) (arguments : List EventValue) :
    SameRow parse payload delivery arguments ↔
      ReadAlike parse payload delivery.event arguments := by
  cases payload with
  | dividendClaimed recipient amount claimId hrecipient hamount hclaimId =>
      rw [ReadAlike, ← claimReadAlike_iff, SameRow]
      simp only [Payload.rows, Payload.names]
      rw [rows_claim, rows_claim, toList_eq_iff, readRecipient_positional,
        readClaimAmount_positional, readClaimId_positional,
        readRecipient_named hrecipient hamount hclaimId,
        readClaimAmount_named hrecipient hamount hclaimId,
        readClaimId_named hrecipient hamount hclaimId]
  | royaltyPaid key creator amount hkey hcreator hamount =>
      rw [ReadAlike, ← royaltyReadAlike_iff, SameRow]
      simp only [Payload.rows, Payload.names]
      rw [rows_royalty, rows_royalty, toList_eq_iff, readKeyAddress_positional,
        readCreatorWallet_positional, readRoyaltyAmount_positional,
        readKeyAddress_named hkey hcreator hamount,
        readCreatorWallet_named hkey hcreator hamount,
        readRoyaltyAmount_named hkey hcreator hamount]

/-! ## A wallet, an amount and an id -/

/-- Only the amount is a number. -/
def parseAmount (text : String) : Option DecimalValue :=
  if text = "25.5" then some (.number (51 / 2)) else none

def claimedNames : Payload :=
  .dividendClaimed "recipient_wallet" "amount" "claim_id" (by decide) (by decide) (by decide)

def claimedDelivery : Delivery :=
  { event :=
      { id := "5-1", contractId := "C", ledger := 5, ledgerClosedAt := some 0, txHash := some "f"
        topic := "dividend_claimed", topics := [], data := .null }
    now := 0 }

def claimedArguments : List EventValue := [.string "GHOLDER", .string "25.5", .string "claim-1"]

/-- The list records nothing: the wallet is read as the amount. -/
theorem claimedArguments_otherRow :
    claimedNames.rows parseAmount (positional claimedDelivery claimedArguments) = [] ∧
      claimedNames.rows parseAmount (named claimedDelivery claimedNames.names claimedArguments) =
        [⟨"GHOLDER", .units 255000, some "claim-1"⟩] ∧
      ¬SameRow parseAmount claimedNames claimedDelivery claimedArguments := by
  have hpositional : claimedNames.rows parseAmount
      (positional claimedDelivery claimedArguments) = [] := by decide +kernel
  have hnamed : claimedNames.rows parseAmount
      (named claimedDelivery claimedNames.names claimedArguments) =
        [⟨"GHOLDER", .units 255000, some "claim-1"⟩] := by decide +kernel
  refine ⟨hpositional, hnamed, fun hsame => ?_⟩
  rw [SameRow, hpositional, hnamed] at hsame
  cases hsame

end StellarSettle.PositionalPayload
