import Mathlib.Data.List.DropRight
import StellarSettle.Model.InvoiceLifecycle

/-!
# Contract events and their handlers

Handlers declare the topics that they consume; the registry sends every event to the
handlers of its normalised topic, in the order of their registration.
-/

namespace StellarSettle.ContractEventBus

open StellarSettle.Entities
open StellarSettle.InvoiceLifecycle

/-- A decoded event.  What its topics and data decode to is left open. -/
structure DecodedSorobanEvent (Value : Type) where
  id : String
  contractId : String
  ledger : ℕ
  ledgerClosedAt : Option Timestamp
  txHash : Option String
  topic : String
  topics : List Value
  data : Value
  deriving DecidableEq

/-- `text.trim()`. -/
def trim (text : List Char) : List Char :=
  ((text.dropWhile isTrimmed).reverse.dropWhile isTrimmed).reverse

/-- Trimming leaves no blank at the front. -/
theorem dropWhile_trim (text : List Char) : (trim text).dropWhile isTrimmed = trim text := by
  have hprefix : trim text <+: text.dropWhile isTrimmed :=
    List.rdropWhile_prefix isTrimmed (text.dropWhile isTrimmed)
  cases htrim : trim text with
  | nil => rfl
  | cons first rest =>
      rw [htrim] at hprefix
      obtain ⟨blanks, hblanks⟩ := hprefix
      have hfirst := List.head?_dropWhile_not isTrimmed text
      rw [← hblanks] at hfirst
      exact List.dropWhile_cons_of_neg (by simpa using hfirst)

theorem trim_trim (text : List Char) : trim (trim text) = trim text := by
  have hback : (trim text).rdropWhile isTrimmed = trim text :=
    List.rdropWhile_idempotent isTrimmed (text.dropWhile isTrimmed)
  rw [trim, dropWhile_trim]
  exact hback

/-- `replace(/[-\s]+/g, "_")`: every run of dashes and blanks becomes one underscore.
`inRun` says whether the run has its underscore already. -/
def joinWords (inRun : Bool) : List Char → List Char
  | [] => []
  | c :: rest =>
      if c = '-' ∨ isTrimmed c then
        (if inRun then [] else ['_']) ++ joinWords true rest
      else c :: joinWords false rest

/-- Normalises `ACLUpdated`, `acl_updated`, `acl-updated` to `acl_updated`. -/
def normalizeTopic (topic : String) : String :=
  (String.ofList (joinWords false (trim topic.toList))).toLower

/-- A handler, and the topics that it consumes. -/
structure ContractEventHandler where
  name : ℕ
  topics : List String
  deriving DecidableEq, Repr

/-- `handlersByTopic`. -/
abbrev Registry := String → List ContractEventHandler

def register (registry : Registry) (handler : ContractEventHandler) : Registry :=
  (handler.topics.map normalizeTopic).foldl
    (fun byTopic key => Function.update byTopic key (byTopic key ++ [handler])) registry

def createContractEventBus (handlers : List ContractEventHandler) : Registry :=
  handlers.foldl register fun _ => []

def handlersFor (registry : Registry) (topic : String) : List ContractEventHandler :=
  registry (normalizeTopic topic)

end StellarSettle.ContractEventBus
