import StellarSettle.Core.TransitionSystem
import StellarSettle.Core.UniqueColumns
import StellarSettle.Issuers.DividendCycle
import StellarSettle.Model.Entities

/-!
# Drafts of invoices

Sellers save drafts under ids that they choose, and a draft is removed when its time has passed.
Every request is a sequence of queries, and those of different requests interleave.  A draft that
nobody else is creating or removing stays with its seller until its deadline.
-/

namespace StellarSettle.InvoiceDrafts

open StellarSettle.DividendCycle (msPerDay)
open StellarSettle.Entities (Timestamp)
open StellarSettle.KeyedRows
open StellarSettle.OrderedRows (sortRows)
open StellarSettle.TransitionSystem
open StellarSettle.UniqueColumns (StorageOrder)

/-! ## Data -/

structure InvoiceDraft (Data : Type) where
  id : String
  sellerId : String
  sellerWallet : String
  draftData : Data
  lastSavedAt : Timestamp
  expiresAt : Timestamp

/-- Drafts with distinct ids. -/
structure DraftTable (Data : Type) where
  rows : List (InvoiceDraft Data)
  ids : (rows.map InvoiceDraft.id).Nodup

namespace DraftTable

variable {Data : Type}

def empty : DraftTable Data where
  rows := []
  ids := List.nodup_nil

def find (table : DraftTable Data) (id : String) : Option (InvoiceDraft Data) :=
  findRow InvoiceDraft.id table.rows id

/-- A save writes every column of the draft under its id. -/
def save (table : DraftTable Data) (draft : InvoiceDraft Data) : DraftTable Data where
  rows := saveRow InvoiceDraft.id table.rows draft
  ids := nodup_saveRow table.ids

def remove (table : DraftTable Data) (ids : List String) : DraftTable Data where
  rows := table.rows.filter fun draft => draft.id ∉ ids
  ids := table.ids.sublist (List.filter_sublist.map _)

variable {table : DraftTable Data} {draft : InvoiceDraft Data} {id : String}

theorem find_save_self : (table.save draft).find draft.id = some draft := findRow_saveRow_self

theorem find_save_other (hother : id ≠ draft.id) : (table.save draft).find id = table.find id :=
  findRow_saveRow_other hother

theorem find_remove {ids : List String} (hkept : id ∉ ids) :
    (table.remove ids).find id = table.find id := by
  rw [find, findRow, remove, List.find?_filter]
  change _ = table.rows.find? fun draft => draft.id == id
  congr 1
  funext row
  by_cases hid : row.id = id
  · simp [hid, hkept]
  · simp [hid]

theorem mem_of_find (hfound : table.find id = some draft) : draft ∈ table.rows ∧ draft.id = id :=
  mem_of_findRow hfound

theorem eq_of_find {other : InvoiceDraft Data} (hfound : table.find id = some draft)
    (hother : other ∈ table.rows) (hid : other.id = id) : other = draft := by
  obtain ⟨hdraft, hdraftId⟩ := mem_of_find hfound
  exact List.inj_on_of_nodup_map table.ids hother hdraft (hid.trans hdraftId.symm)

theorem mem_save {row : InvoiceDraft Data} (hrow : row ∈ (table.save draft).rows) :
    row = draft ∨ row ∈ table.rows := (mem_saveRow.mp hrow).imp_right And.left

theorem mem_remove {ids : List String} {row : InvoiceDraft Data}
    (hrow : row ∈ (table.remove ids).rows) : row ∈ table.rows := List.mem_of_mem_filter hrow

end DraftTable

structure DraftListItem where
  id : String
  lastSavedAt : Timestamp
  expiresAt : Timestamp
  deriving DecidableEq

inductive DraftAction where
  | modify
  | access
  | delete
  deriving DecidableEq

inductive DraftError where
  | draftNotFound
  | forbidden (action : DraftAction)
  | draftExpired
  deriving DecidableEq

def DraftAction.word : DraftAction → String
  | modify => "modify"
  | access => "access"
  | delete => "delete"

namespace DraftError

def code : DraftError → String
  | draftNotFound => "DRAFT_NOT_FOUND"
  | forbidden _ => "FORBIDDEN"
  | draftExpired => "DRAFT_EXPIRED"

def message : DraftError → String
  | draftNotFound => "Draft not found"
  | forbidden action => "Cannot " ++ action.word ++ " another seller's draft"
  | draftExpired => "Draft has expired"

def statusCode : DraftError → ℕ
  | draftNotFound => 404
  | forbidden _ => 403
  | draftExpired => 410

end DraftError

inductive DraftRequest (Data : Type) where
  | saveDraft (sellerId sellerWallet : String) (draftId : Option String) (draftData : Data)
  | listDrafts (sellerId : String)
  | getDraft (draftId sellerId : String)
  | deleteDraft (draftId sellerId : String)
  | cleanupAllExpiredDrafts

inductive Answer (Data : Type) where
  | saved (draft : InvoiceDraft Data)
  | drafts (items : List DraftListItem)
  | data (draftData : Data)
  | deleted
  | cleaned (count : ℕ)
  | thrown (error : DraftError)
  | failed

/-- How far a request has come.  What it is about to remove or save was found before. -/
inductive Stage (Data : Type) where
  | cleaning
  | finding
  | removing (ids : List String) (next : Stage Data)
  | saving (draft : InvoiceDraft Data)
  | answered (answer : Answer Data)

structure Call (Data : Type) where
  request : DraftRequest Data
  stage : Stage Data

structure DraftSystem (Index Data : Type) where
  drafts : DraftTable Data
  calls : Index → Option (Call Data)

/-- The clock is read where a request needs it.  A query that fails may have been applied. -/
inductive DraftEvent (Index Data : Type) where
  | start (index : Index) (request : DraftRequest Data)
  | clean (index : Index) (now : Timestamp)
  | find (index : Index) (calculatedAt now : Timestamp) (generated : String)
      (order : StorageOrder (InvoiceDraft Data))
  | write (index : Index)
  | fails (index : Index) (applied : Bool)

/-! ## Steps -/

/-- The local time of the server and back. -/
structure TimeZone where
  toLocal : Timestamp → Timestamp
  toUtc : Timestamp → Timestamp

def draftExpiryDays : ℤ := 30

def calculateExpiryDate (zone : TimeZone) (now : Timestamp) : Timestamp :=
  zone.toUtc (zone.toLocal now + draftExpiryDays * msPerDay)

section Steps

variable {Index Data : Type} [DecidableEq Index] (zone : TimeZone)

/-- An id that is empty is generated as one that is missing. -/
def draftKey (draftId : Option String) (generated : String) : String :=
  match draftId with
  | some id => if id = "" then generated else id
  | none => generated

def firstStage : DraftRequest Data → Stage Data
  | .getDraft _ _ | .deleteDraft _ _ => .finding
  | _ => .cleaning

def isExpired (request : DraftRequest Data) (now : Timestamp) (draft : InvoiceDraft Data) : Bool :=
  match request with
  | .saveDraft sellerId _ _ _ | .listDrafts sellerId =>
      decide (draft.sellerId = sellerId ∧ draft.expiresAt < now)
  | _ => decide (draft.expiresAt < now)

def afterCleanup (request : DraftRequest Data) (count : ℕ) : Stage Data :=
  match request with
  | .cleanupAllExpiredDrafts => .answered (.cleaned count)
  | _ => .finding

def cleanupExpiredDrafts (drafts : DraftTable Data) (request : DraftRequest Data)
    (now : Timestamp) : Stage Data :=
  let expiredDrafts := drafts.rows.filter (isExpired request now)
  if expiredDrafts.length > 0 then
    .removing (expiredDrafts.map InvoiceDraft.id) (afterCleanup request expiredDrafts.length)
  else afterCleanup request 0

def byLastSavedAt (left right : InvoiceDraft Data) : Ordering :=
  compare right.lastSavedAt left.lastSavedAt

def saveFound (drafts : DraftTable Data) (sellerId sellerWallet id : String)
    (draftData : Data) (expiresAt now : Timestamp) : Stage Data :=
  match drafts.find id with
  | some existingDraft =>
      if existingDraft.sellerId ≠ sellerId then .answered (.thrown (.forbidden .modify))
      else .saving { existingDraft with draftData, lastSavedAt := now, expiresAt }
  | none => .saving ⟨id, sellerId, sellerWallet, draftData, now, expiresAt⟩

def getFound (drafts : DraftTable Data) (draftId sellerId : String) (now : Timestamp) :
    Stage Data :=
  match drafts.find draftId with
  | none => .answered (.thrown .draftNotFound)
  | some draft =>
      if draft.sellerId ≠ sellerId then .answered (.thrown (.forbidden .access))
      else if draft.expiresAt < now then
        .removing [draft.id] (.answered (.thrown .draftExpired))
      else .answered (.data draft.draftData)

def deleteFound (drafts : DraftTable Data) (draftId sellerId : String) : Stage Data :=
  match drafts.find draftId with
  | none => .answered (.thrown .draftNotFound)
  | some draft =>
      if draft.sellerId ≠ sellerId then .answered (.thrown (.forbidden .delete))
      else .removing [draft.id] (.answered .deleted)

def listFound (order : StorageOrder (InvoiceDraft Data)) (drafts : DraftTable Data)
    (sellerId : String) : List DraftListItem :=
  let ofSeller := drafts.rows.filter fun draft => draft.sellerId = sellerId
  (sortRows byLastSavedAt (order.list ofSeller)).map
    fun draft => ⟨draft.id, draft.lastSavedAt, draft.expiresAt⟩

/-- What a request does with what it finds. -/
def found (drafts : DraftTable Data) (calculatedAt now : Timestamp) (generated : String)
    (order : StorageOrder (InvoiceDraft Data)) : DraftRequest Data → Stage Data
  | .saveDraft sellerId sellerWallet draftId draftData =>
      saveFound drafts sellerId sellerWallet (draftKey draftId generated) draftData
        (calculateExpiryDate zone calculatedAt) now
  | .listDrafts sellerId => .answered (.drafts (listFound order drafts sellerId))
  | .getDraft draftId sellerId => getFound drafts draftId sellerId now
  | .deleteDraft draftId sellerId => deleteFound drafts draftId sellerId
  | .cleanupAllExpiredDrafts => .answered (.cleaned 0)

/-- The drafts after the write of a stage. -/
def Stage.applied (drafts : DraftTable Data) : Stage Data → DraftTable Data
  | removing ids _ => drafts.remove ids
  | saving draft => drafts.save draft
  | _ => drafts

def Stage.afterWrite : Stage Data → Option (Stage Data)
  | removing _ next => some next
  | saving draft => some (.answered (.saved draft))
  | _ => none

def Stage.isAnswered : Stage Data → Bool
  | answered _ => true
  | _ => false

def DraftSystem.setStage (system : DraftSystem Index Data) (index : Index)
    (request : DraftRequest Data) (stage : Stage Data) : DraftSystem Index Data :=
  { system with calls := setProcess system.calls index (some ⟨request, stage⟩) }

def step (system : DraftSystem Index Data) :
    DraftEvent Index Data → Option (DraftSystem Index Data)
  | .start index request =>
      match system.calls index with
      | none => some (system.setStage index request (firstStage request))
      | some _ => none
  | .clean index now =>
      match system.calls index with
      | some ⟨request, .cleaning⟩ =>
          some (system.setStage index request (cleanupExpiredDrafts system.drafts request now))
      | _ => none
  | .find index calculatedAt now generated order =>
      match system.calls index with
      | some ⟨request, .finding⟩ =>
          some (system.setStage index request
            (found zone system.drafts calculatedAt now generated order request))
      | _ => none
  | .write index => do
      let call ← system.calls index
      let next ← call.stage.afterWrite
      some { system.setStage index call.request next with
        drafts := call.stage.applied system.drafts }
  | .fails index applied =>
      match system.calls index with
      | some ⟨request, stage⟩ =>
          if stage.isAnswered then none
          else some { system.setStage index request (.answered .failed) with
            drafts := if applied then stage.applied system.drafts else system.drafts }
      | none => none

/-- The cases of `found`. -/
inductive Finds (drafts : DraftTable Data) (calculatedAt now : Timestamp) (generated : String)
    (order : StorageOrder (InvoiceDraft Data)) : DraftRequest Data → Stage Data → Prop
  | create (sellerId sellerWallet : String) (draftId : Option String) (draftData : Data)
      (hmissing : drafts.find (draftKey draftId generated) = none) :
      Finds drafts calculatedAt now generated order
        (.saveDraft sellerId sellerWallet draftId draftData)
        (.saving ⟨draftKey draftId generated, sellerId, sellerWallet, draftData, now,
          calculateExpiryDate zone calculatedAt⟩)
  | update (sellerWallet : String) (draftId : Option String) (draftData : Data)
      (existingDraft : InvoiceDraft Data)
      (hfound : drafts.find (draftKey draftId generated) = some existingDraft) :
      Finds drafts calculatedAt now generated order
        (.saveDraft existingDraft.sellerId sellerWallet draftId draftData)
        (.saving { existingDraft with
          draftData, lastSavedAt := now, expiresAt := calculateExpiryDate zone calculatedAt })
  | othersToModify (sellerId sellerWallet : String) (draftId : Option String) (draftData : Data)
      (existingDraft : InvoiceDraft Data)
      (hfound : drafts.find (draftKey draftId generated) = some existingDraft)
      (hother : existingDraft.sellerId ≠ sellerId) :
      Finds drafts calculatedAt now generated order
        (.saveDraft sellerId sellerWallet draftId draftData)
        (.answered (.thrown (.forbidden .modify)))
  | list (sellerId : String) : Finds drafts calculatedAt now generated order (.listDrafts sellerId)
      (.answered (.drafts (listFound order drafts sellerId)))
  | nothingToGet (draftId sellerId : String) (hmissing : drafts.find draftId = none) :
      Finds drafts calculatedAt now generated order (.getDraft draftId sellerId)
        (.answered (.thrown .draftNotFound))
  | othersToGet (draftId sellerId : String) (draft : InvoiceDraft Data)
      (hfound : drafts.find draftId = some draft) (hother : draft.sellerId ≠ sellerId) :
      Finds drafts calculatedAt now generated order (.getDraft draftId sellerId)
        (.answered (.thrown (.forbidden .access)))
  | expired (draftId : String) (draft : InvoiceDraft Data)
      (hfound : drafts.find draftId = some draft) (hexpired : draft.expiresAt < now) :
      Finds drafts calculatedAt now generated order (.getDraft draftId draft.sellerId)
        (.removing [draft.id] (.answered (.thrown .draftExpired)))
  | get (draftId : String) (draft : InvoiceDraft Data)
      (hfound : drafts.find draftId = some draft) (hlive : ¬draft.expiresAt < now) :
      Finds drafts calculatedAt now generated order (.getDraft draftId draft.sellerId)
        (.answered (.data draft.draftData))
  | nothingToDelete (draftId sellerId : String) (hmissing : drafts.find draftId = none) :
      Finds drafts calculatedAt now generated order (.deleteDraft draftId sellerId)
        (.answered (.thrown .draftNotFound))
  | othersToDelete (draftId sellerId : String) (draft : InvoiceDraft Data)
      (hfound : drafts.find draftId = some draft) (hother : draft.sellerId ≠ sellerId) :
      Finds drafts calculatedAt now generated order (.deleteDraft draftId sellerId)
        (.answered (.thrown (.forbidden .delete)))
  | delete (draftId : String) (draft : InvoiceDraft Data)
      (hfound : drafts.find draftId = some draft) :
      Finds drafts calculatedAt now generated order (.deleteDraft draftId draft.sellerId)
        (.removing [draft.id] (.answered .deleted))
  | cleaned : Finds drafts calculatedAt now generated order .cleanupAllExpiredDrafts
      (.answered (.cleaned 0))

theorem finds_found (drafts : DraftTable Data) (calculatedAt now : Timestamp) (generated : String)
    (order : StorageOrder (InvoiceDraft Data)) (request : DraftRequest Data) :
    Finds zone drafts calculatedAt now generated order request
      (found zone drafts calculatedAt now generated order request) := by
  cases request with
  | saveDraft sellerId sellerWallet draftId draftData =>
      rw [found, saveFound]
      cases hfound : drafts.find (draftKey draftId generated) with
      | none => exact .create sellerId sellerWallet draftId draftData hfound
      | some existingDraft =>
          dsimp only
          split
          · rename_i hother
            exact .othersToModify sellerId sellerWallet draftId draftData existingDraft hfound
              hother
          · rename_i howner
            obtain rfl := not_not.mp howner
            exact .update sellerWallet draftId draftData existingDraft hfound
  | listDrafts sellerId => exact .list sellerId
  | getDraft draftId sellerId =>
      rw [found, getFound]
      cases hfound : drafts.find draftId with
      | none => exact .nothingToGet draftId sellerId hfound
      | some draft =>
          dsimp only
          split
          · rename_i hother
            exact .othersToGet draftId sellerId draft hfound hother
          · rename_i howner
            obtain rfl := not_not.mp howner
            split
            · rename_i hexpired
              exact .expired draftId draft hfound hexpired
            · rename_i hlive
              exact .get draftId draft hfound hlive
  | deleteDraft draftId sellerId =>
      rw [found, deleteFound]
      cases hfound : drafts.find draftId with
      | none => exact .nothingToDelete draftId sellerId hfound
      | some draft =>
          dsimp only
          split
          · rename_i hother
            exact .othersToDelete draftId sellerId draft hfound hother
          · rename_i howner
            obtain rfl := not_not.mp howner
            exact .delete draftId draft hfound
  | cleanupAllExpiredDrafts => exact .cleaned

/-- What a step does to the drafts and to the one call that it moves. -/
inductive Moves (before : DraftSystem Index Data) :
    DraftEvent Index Data → DraftTable Data → Index → Call Data → Prop
  | start (index : Index) (request : DraftRequest Data) (hnew : before.calls index = none) :
      Moves before (.start index request) before.drafts index ⟨request, firstStage request⟩
  | clean (index : Index) (now : Timestamp) (request : DraftRequest Data)
      (hcleaning : before.calls index = some ⟨request, .cleaning⟩) :
      Moves before (.clean index now) before.drafts index
        ⟨request, cleanupExpiredDrafts before.drafts request now⟩
  | find (index : Index) (calculatedAt now : Timestamp) (generated : String)
      (order : StorageOrder (InvoiceDraft Data)) (request : DraftRequest Data)
      (hfinding : before.calls index = some ⟨request, .finding⟩) :
      Moves before (.find index calculatedAt now generated order) before.drafts index
        ⟨request, found zone before.drafts calculatedAt now generated order request⟩
  | write (index : Index) (request : DraftRequest Data) (stage next : Stage Data)
      (hcall : before.calls index = some ⟨request, stage⟩) (hnext : stage.afterWrite = some next) :
      Moves before (.write index) (stage.applied before.drafts) index ⟨request, next⟩
  | fails (index : Index) (applied : Bool) (request : DraftRequest Data) (stage : Stage Data)
      (hcall : before.calls index = some ⟨request, stage⟩) :
      Moves before (.fails index applied)
        (if applied then stage.applied before.drafts else before.drafts) index
        ⟨request, .answered .failed⟩

variable {zone} {before after : DraftSystem Index Data} {event : DraftEvent Index Data}

theorem moves_of_step (hstep : step zone before event = some after) :
    ∃ drafts index call, Moves zone before event drafts index call ∧
      after = ⟨drafts, setProcess before.calls index (some call)⟩ := by
  cases event with
  | start index request =>
      simp only [step] at hstep
      split at hstep
      · rename_i hnew
        obtain rfl := Option.some.inj hstep
        exact ⟨_, _, _, .start index request hnew, rfl⟩
      · cases hstep
  | clean index now =>
      simp only [step] at hstep
      split at hstep
      · rename_i request hcleaning
        obtain rfl := Option.some.inj hstep
        exact ⟨_, _, _, .clean index now request hcleaning, rfl⟩
      · cases hstep
  | find index calculatedAt now generated order =>
      simp only [step] at hstep
      split at hstep
      · rename_i request hfinding
        obtain rfl := Option.some.inj hstep
        exact ⟨_, _, _, .find index calculatedAt now generated order request hfinding, rfl⟩
      · cases hstep
  | write index =>
      obtain ⟨⟨request, stage⟩, hcall, hrest⟩ := Option.bind_eq_some_iff.mp hstep
      obtain ⟨next, hnext, hafter⟩ := Option.bind_eq_some_iff.mp hrest
      obtain rfl := Option.some.inj hafter
      exact ⟨_, _, _, .write index request stage next hcall hnext, rfl⟩
  | fails index applied =>
      simp only [step] at hstep
      split at hstep
      · rename_i request stage hcall
        split at hstep
        · cases hstep
        · obtain rfl := Option.some.inj hstep
          exact ⟨_, _, _, .fails index applied request stage hcall, rfl⟩
      · cases hstep

end Steps

end StellarSettle.InvoiceDrafts
