import StellarSettle.Indexer.ContractEventBus
import StellarSettle.Projections.Amounts

/-!
# Reading event data

What `scValToNative` returns, and the readers of the projections.  `new Decimal(text)` is
the parameter `parse`, which returns nothing where the constructor throws.
-/

namespace StellarSettle.EventReader

open StellarSettle.Amounts
open StellarSettle.ContractEventBus
open StellarSettle.Entities

/-! ## Values -/

/-- A native value.  A map is an object, and bytes are an object with an index for each
byte; a field that is missing reads as `null`, which every reader treats alike. -/
inductive EventValue where
  | null
  | bool (value : Bool)
  | number (value : ℤ)
  | bigint (value : ℤ)
  | string (text : String)
  | array (elements : List EventValue)
  | object (fields : List (String × EventValue))

abbrev Event := DecodedSorobanEvent EventValue

/-- An event, and the time of the handler's clock when it is delivered. -/
structure Delivery where
  event : Event
  now : Timestamp

def Delivery.source (delivery : Delivery) : String := delivery.event.id

/-- The on-chain event that an id stands for is always the same. -/
def Identified (deliveries : List Delivery) : Prop :=
  ∀ left ∈ deliveries, ∀ right ∈ deliveries, left.source = right.source →
    left.event = right.event

/-- `value ?? other`. -/
def EventValue.orElse : EventValue → EventValue → EventValue
  | .null, other => other
  | value, _ => value

/-- `record[key]`. -/
def property (fields : List (String × EventValue)) (key : String) : EventValue :=
  (fields.lookup key).getD .null

/-- The first of the fields that is there. -/
def firstProperty (fields : List (String × EventValue)) (keys : List String) : EventValue :=
  keys.foldr (fun key other => (property fields key).orElse other) .null

def trimText (text : String) : String := String.ofList (trim text.toList)

theorem trimText_trimText (text : String) : trimText (trimText text) = trimText text := by
  rw [trimText, trimText, String.toList_ofList, trim_trim]

/-- `typeof value === "string" && value.trim()`. -/
def trimmedString : EventValue → Option String
  | .string text => if trimText text = "" then none else some (trimText text)
  | _ => none

/-- A text, or the digits of a number. -/
def scalarText : EventValue → Option String
  | .number value => some (toString value)
  | .bigint value => some (toString value)
  | value => trimmedString value

/-- `Number(key.replace(/\D/g, ""))`: a key without digits reads index 0. -/
def keyIndex (key : String) : ℕ :=
  (key.toList.filter Char.isDigit).foldl (fun index digit => 10 * index + (digit.toNat - 48)) 0

/-! ## Readers -/

/-- Reads a string field from the event's data, else from its topics. -/
def readEventString (event : Event) (keys : List String) (topicIndex : Option ℕ := none) :
    Option String :=
  let fromData :=
    match event.data with
    | .object fields => keys.findSome? fun key => scalarText (property fields key)
    | .array elements => keys.findSome? fun key => elements[keyIndex key]?.bind trimmedString
    | _ => none
  fromData <|> topicIndex.bind fun index => event.topics[index]?.bind trimmedString

/-- `firstString`. -/
def firstString (fields : List (String × EventValue)) (keys : List String) : Option String :=
  keys.findSome? fun key => trimmedString (property fields key)

def toStringArray : EventValue → Option (List String)
  | .array elements => some (elements.map fun element =>
      match element with
      | .string text => text
      | .bigint value => toString value
      | .number value => toString value
      | _ => "")
  | _ => none

/-- Coerces a contract-supplied value into a Decimal, or nothing when unusable. -/
def tryDecimal (parse : String → Option DecimalValue) : EventValue → Option DecimalValue
  | .bigint value => some (.number value)
  | .number value => some (.number value)
  | .string text => if trimText text = "" then none else parse (trimText text)
  | _ => none

def eventTimestamp (delivery : Delivery) : Timestamp :=
  delivery.event.ledgerClosedAt.getD delivery.now

end StellarSettle.EventReader
