import StellarSettle.Invoices.InvoiceDrafts

/-!
# Whose drafts they are

A seller only reads drafts that it saved itself, however the requests interleave.  Once no request
is about to remove a draft or to put another in its place, it is there until its deadline, and
every other seller is turned away.
-/

namespace StellarSettle.InvoiceDrafts

open StellarSettle.Entities (Timestamp)
open StellarSettle.TransitionSystem

variable {Index Data : Type} [DecidableEq Index] {zone : TimeZone}

theorem forall_calls {P : Index → Call Data → Prop} {calls : Index → Option (Call Data)}
    {index : Index} {moved : Call Data} (hmoved : P index moved)
    (hothers : ∀ other, ∀ call ∈ calls other, P other call) :
    ∀ other, ∀ call ∈ setProcess calls index (some moved) other, P other call := by
  refine forall_setProcess (P := fun other process => ∀ call ∈ process, P other call) ?_
    fun other _ => hothers other
  rintro _ ⟨⟩
  exact hmoved

/-! ## Where drafts come from -/

/-- The id of a request can be this one. -/
def Names (draftId : Option String) (id : String) : Prop :=
  ∃ generated, draftKey draftId generated = id

section Sources

variable (saved : String → String → Data → Prop)

/-- What a request saves, its seller has saved. -/
def RequestSaved : DraftRequest Data → Prop
  | .saveDraft sellerId _ draftId draftData =>
      ∀ id, Names draftId id → saved sellerId id draftData
  | _ => True

def DraftSaved (draft : InvoiceDraft Data) : Prop := saved draft.sellerId draft.id draft.draftData

def AnswerSaved : DraftRequest Data → Answer Data → Prop
  | .getDraft draftId sellerId, .data draftData => saved sellerId draftId draftData
  | _, _ => True

def StageSaved (request : DraftRequest Data) : Stage Data → Prop
  | .saving draft => DraftSaved saved draft
  | .removing _ next => StageSaved request next
  | .answered answer => AnswerSaved saved request answer
  | _ => True

structure Sourced (system : DraftSystem Index Data) : Prop where
  rows : ∀ draft ∈ system.drafts.rows, DraftSaved saved draft
  calls : ∀ index, ∀ call ∈ system.calls index,
    RequestSaved saved call.request ∧ StageSaved saved call.request call.stage

variable {saved} {request : DraftRequest Data} {drafts : DraftTable Data}
  {calculatedAt now : Timestamp} {generated : String}
  {order : UniqueColumns.StorageOrder (InvoiceDraft Data)}

theorem stageSaved_afterCleanup (count : ℕ) :
    StageSaved saved request (afterCleanup request count) := by
  unfold afterCleanup
  split
  · trivial
  · trivial

theorem stageSaved_cleanup :
    StageSaved saved request (cleanupExpiredDrafts drafts request now) := by
  unfold cleanupExpiredDrafts
  dsimp only
  split
  · exact stageSaved_afterCleanup _
  · exact stageSaved_afterCleanup _

theorem stageSaved_finds {stage : Stage Data}
    (hrows : ∀ draft ∈ drafts.rows, DraftSaved saved draft) (hrequest : RequestSaved saved request)
    (hfinds : Finds zone drafts calculatedAt now generated order request stage) :
    StageSaved saved request stage := by
  cases hfinds with
  | create => exact hrequest _ ⟨generated, rfl⟩
  | update sellerWallet draftId draftData existingDraft hfound =>
      obtain ⟨-, hid⟩ := DraftTable.mem_of_find hfound
      change saved existingDraft.sellerId existingDraft.id draftData
      rw [hid]
      exact hrequest _ ⟨generated, rfl⟩
  | get draftId draft hfound =>
      obtain ⟨hrow, rfl⟩ := DraftTable.mem_of_find hfound
      exact hrows draft hrow
  | othersToModify | list | nothingToGet | othersToGet | expired | nothingToDelete
  | othersToDelete | delete | cleaned => trivial

theorem stageSaved_afterWrite {stage next : Stage Data} (hnext : stage.afterWrite = some next)
    (hstage : StageSaved saved request stage) : StageSaved saved request next := by
  cases stage with
  | removing ids after =>
      obtain rfl := Option.some.inj hnext
      exact hstage
  | saving draft =>
      obtain rfl := Option.some.inj hnext
      cases request <;> trivial
  | cleaning => cases hnext
  | finding => cases hnext
  | answered answer => cases hnext

theorem draftSaved_applied {stage : Stage Data}
    (hrows : ∀ draft ∈ drafts.rows, DraftSaved saved draft)
    (hstage : StageSaved saved request stage) :
    ∀ draft ∈ (stage.applied drafts).rows, DraftSaved saved draft := by
  cases stage with
  | removing ids after => exact fun draft hdraft => hrows draft (DraftTable.mem_remove hdraft)
  | saving new =>
      intro draft hdraft
      rcases DraftTable.mem_save hdraft with rfl | hold
      · exact hstage
      · exact hrows draft hold
  | cleaning => exact hrows
  | finding => exact hrows
  | answered answer => exact hrows

theorem stageSaved_firstStage : StageSaved saved request (firstStage request) := by
  cases request <;> trivial

theorem stageSaved_failed : StageSaved saved request (.answered .failed) := by
  cases request <;> trivial

/-- The requests that start have been counted. -/
def StartsSaved (saved : String → String → Data → Prop) : DraftEvent Index Data → Prop
  | .start _ request => RequestSaved saved request
  | _ => True

theorem Sourced.step {before after : DraftSystem Index Data} {event : DraftEvent Index Data}
    (hstarts : StartsSaved saved event) (hstep : InvoiceDrafts.step zone before event = some after)
    (hsourced : Sourced saved before) : Sourced saved after := by
  obtain ⟨drafts, index, ⟨request, stage⟩, hmoves, rfl⟩ := moves_of_step hstep
  have hmoved : (∀ draft ∈ drafts.rows, DraftSaved saved draft) ∧
      RequestSaved saved request ∧ StageSaved saved request stage := by
    cases hmoves with
    | start => exact ⟨hsourced.rows, hstarts, stageSaved_firstStage⟩
    | clean _ now _ hcleaning =>
        exact ⟨hsourced.rows, (hsourced.calls index _ hcleaning).1, stageSaved_cleanup⟩
    | find _ calculatedAt now generated order _ hfinding =>
        have hrequest := (hsourced.calls index _ hfinding).1
        exact ⟨hsourced.rows, hrequest,
          stageSaved_finds hsourced.rows hrequest (finds_found ..)⟩
    | write _ _ held _ hcall hnext =>
        obtain ⟨hrequest, hheld⟩ := hsourced.calls index _ hcall
        exact ⟨draftSaved_applied hsourced.rows hheld, hrequest, stageSaved_afterWrite hnext hheld⟩
    | fails _ applied _ held hcall =>
        obtain ⟨hrequest, hheld⟩ := hsourced.calls index _ hcall
        refine ⟨?_, hrequest, stageSaved_failed⟩
        cases applied with
        | true => exact draftSaved_applied hsourced.rows hheld
        | false => exact hsourced.rows
  exact ⟨hmoved.1, forall_calls hmoved.2 hsourced.calls⟩

end Sources

/-! ## What lasts -/

/-- A draft of a seller, and how long it is to last with data of this kind. -/
structure Holding (Data : Type) where
  id : String
  sellerId : String
  deadline : Timestamp
  allowed : Data → Prop

namespace Holding

variable (holding : Holding Data)

def Keeps (draft : InvoiceDraft Data) : Prop :=
  draft.sellerId = holding.sellerId ∧ holding.deadline ≤ draft.expiresAt ∧
    holding.allowed draft.draftData

/-- The seller does not delete the draft with this request, nor gives it other data. -/
def Respects : DraftRequest Data → Prop
  | .saveDraft sellerId _ draftId draftData =>
      sellerId = holding.sellerId → Names draftId holding.id → holding.allowed draftData
  | .deleteDraft draftId sellerId => ¬(draftId = holding.id ∧ sellerId = holding.sellerId)
  | _ => True

/-- The request is not about to remove the draft, nor to put another in its place. -/
def Harmless : Stage Data → Prop
  | .saving draft => draft.id = holding.id → holding.Keeps draft
  | .removing ids next => holding.id ∉ ids ∧ Harmless next
  | _ => True

structure Held (system : DraftSystem Index Data) : Prop where
  stored : ∃ draft, system.drafts.find holding.id = some draft ∧ holding.Keeps draft
  calls : ∀ index, ∀ call ∈ system.calls index,
    holding.Respects call.request ∧ holding.Harmless call.stage

/-- What is answered while the draft lasts. -/
def Fits : DraftRequest Data → Answer Data → Prop
  | .saveDraft sellerId _ _ _, .saved draft =>
      draft.id = holding.id → sellerId = holding.sellerId
  | .saveDraft sellerId _ draftId _, .thrown error => (∀ id, Names draftId id → id = holding.id) →
      sellerId ≠ holding.sellerId ∧ error = .forbidden .modify
  | .getDraft draftId sellerId, .data draftData =>
      draftId = holding.id → sellerId = holding.sellerId ∧ holding.allowed draftData
  | .getDraft draftId sellerId, .thrown error =>
      draftId = holding.id → sellerId ≠ holding.sellerId ∧ error = .forbidden .access
  | .deleteDraft draftId _, .deleted => draftId ≠ holding.id
  | .deleteDraft draftId sellerId, .thrown error =>
      draftId = holding.id → sellerId ≠ holding.sellerId ∧ error = .forbidden .delete
  | _, _ => True

def StageFits (request : DraftRequest Data) : Stage Data → Prop
  | .saving draft => holding.Fits request (.saved draft)
  | .removing _ next => StageFits request next
  | .answered answer => holding.Fits request answer
  | _ => True

/-- The seller leaves the draft as it is, and the clock stays before the deadline, at times from
which a draft lasts until then. -/
def Within (zone : TimeZone) : DraftEvent Index Data → Prop
  | .start _ request => holding.Respects request
  | .clean _ now => now ≤ holding.deadline
  | .find _ calculatedAt now _ _ =>
      now ≤ holding.deadline ∧ holding.deadline ≤ calculateExpiryDate zone calculatedAt
  | _ => True

variable {holding} {drafts : DraftTable Data} {request : DraftRequest Data} {stage : Stage Data}
  {calculatedAt now : Timestamp} {generated : String}
  {order : UniqueColumns.StorageOrder (InvoiceDraft Data)} {held : InvoiceDraft Data}

theorem eq_held {draft : InvoiceDraft Data} {id : String}
    (hstored : drafts.find holding.id = some held) (hfound : drafts.find id = some draft)
    (hid : id = holding.id) : draft = held := by
  rw [hid, hstored] at hfound
  exact (Option.some.inj hfound).symm

theorem ne_of_missing {id : String} (hstored : drafts.find holding.id = some held)
    (hmissing : drafts.find id = none) : id ≠ holding.id := by
  rintro rfl
  rw [hstored] at hmissing
  cases hmissing

theorem other_owner {draft : InvoiceDraft Data} {id sellerId : String}
    (hstored : drafts.find holding.id = some held) (hkeeps : holding.Keeps held)
    (hfound : drafts.find id = some draft) (hother : draft.sellerId ≠ sellerId)
    (hid : id = holding.id) : sellerId ≠ holding.sellerId := by
  rw [eq_held hstored hfound hid, hkeeps.1] at hother
  exact hother.symm

theorem not_expired {draft : InvoiceDraft Data} (hnow : now ≤ holding.deadline)
    (hkeeps : holding.Keeps draft) : ¬draft.expiresAt < now :=
  not_lt.mpr (hnow.trans hkeeps.2.1)

theorem afterCleanup_spec (request : DraftRequest Data) (count : ℕ) :
    holding.Harmless (afterCleanup request count) ∧
      holding.StageFits request (afterCleanup request count) := by
  unfold afterCleanup
  split
  · exact ⟨trivial, trivial⟩
  · exact ⟨trivial, trivial⟩

theorem cleanup_spec (hstored : drafts.find holding.id = some held) (hkeeps : holding.Keeps held)
    (hnow : now ≤ holding.deadline) :
    holding.Harmless (cleanupExpiredDrafts drafts request now) ∧
      holding.StageFits request (cleanupExpiredDrafts drafts request now) := by
  unfold cleanupExpiredDrafts
  dsimp only
  split
  · let count := (drafts.rows.filter (isExpired request now)).length
    have hafter : holding.Harmless (afterCleanup request count) ∧
        holding.StageFits request (afterCleanup request count) := afterCleanup_spec request count
    refine ⟨⟨fun hmem => ?_, hafter.1⟩, hafter.2⟩
    obtain ⟨draft, hdraft, hid⟩ := List.mem_map.mp hmem
    obtain ⟨hrow, hexpired⟩ := List.mem_filter.mp hdraft
    obtain rfl := DraftTable.eq_of_find hstored hrow hid
    have hlate : draft.expiresAt < now := by
      unfold isExpired at hexpired
      split at hexpired
      · exact (of_decide_eq_true hexpired).2
      · exact (of_decide_eq_true hexpired).2
      · exact of_decide_eq_true hexpired
    exact not_expired hnow hkeeps hlate
  · exact afterCleanup_spec request 0

theorem finds_spec (hstored : drafts.find holding.id = some held) (hkeeps : holding.Keeps held)
    (hnow : now ≤ holding.deadline)
    (hexpiry : holding.deadline ≤ calculateExpiryDate zone calculatedAt)
    (hrespects : holding.Respects request)
    (hfinds : Finds zone drafts calculatedAt now generated order request stage) :
    holding.Harmless stage ∧ holding.StageFits request stage := by
  cases hfinds with
  | create sellerId sellerWallet draftId draftData hmissing =>
      have hother := ne_of_missing hstored hmissing
      exact ⟨fun hid => absurd hid hother, fun hid => absurd hid hother⟩
  | update sellerWallet draftId draftData existingDraft hfound =>
      obtain ⟨-, hkey⟩ := DraftTable.mem_of_find hfound
      have hsame : existingDraft.id = holding.id → existingDraft = held :=
        fun hid => eq_held hstored hfound (hkey.symm.trans hid)
      constructor
      · intro hid
        have howner : existingDraft.sellerId = holding.sellerId := by
          rw [hsame hid]
          exact hkeeps.1
        exact ⟨howner, hexpiry, hrespects howner ⟨generated, hkey ▸ hid⟩⟩
      · intro hid
        rw [hsame hid]
        exact hkeeps.1
  | othersToModify sellerId sellerWallet draftId draftData existingDraft hfound hother =>
      refine ⟨trivial, fun hnames => ⟨?_, rfl⟩⟩
      exact other_owner hstored hkeeps hfound hother (hnames _ ⟨generated, rfl⟩)
  | list sellerId => exact ⟨trivial, trivial⟩
  | nothingToGet draftId sellerId hmissing =>
      exact ⟨trivial, fun hid => absurd hid (ne_of_missing hstored hmissing)⟩
  | othersToGet draftId sellerId draft hfound hother =>
      exact ⟨trivial, fun hid => ⟨other_owner hstored hkeeps hfound hother hid, rfl⟩⟩
  | expired draftId draft hfound hexpired =>
      have hother : draftId ≠ holding.id := by
        intro hid
        obtain rfl := eq_held hstored hfound hid
        exact not_expired hnow hkeeps hexpired
      obtain ⟨-, rfl⟩ := DraftTable.mem_of_find hfound
      exact ⟨⟨fun hmem => hother (List.mem_singleton.mp hmem).symm, trivial⟩,
        fun hid => absurd hid hother⟩
  | get draftId draft hfound hlive =>
      refine ⟨trivial, fun hid => ?_⟩
      obtain rfl := eq_held hstored hfound hid
      exact ⟨hkeeps.1, hkeeps.2.2⟩
  | nothingToDelete draftId sellerId hmissing =>
      exact ⟨trivial, fun hid => absurd hid (ne_of_missing hstored hmissing)⟩
  | othersToDelete draftId sellerId draft hfound hother =>
      exact ⟨trivial, fun hid => ⟨other_owner hstored hkeeps hfound hother hid, rfl⟩⟩
  | delete draftId draft hfound =>
      have hother : draftId ≠ holding.id := by
        intro hid
        obtain rfl := eq_held hstored hfound hid
        exact hrespects ⟨hid, hkeeps.1⟩
      obtain ⟨-, rfl⟩ := DraftTable.mem_of_find hfound
      exact ⟨⟨fun hmem => hother (List.mem_singleton.mp hmem).symm, trivial⟩, hother⟩
  | cleaned => exact ⟨trivial, trivial⟩

/-- A write keeps the draft, or stores what may be stored. -/
theorem stored_applied (hstored : drafts.find holding.id = some held)
    (hkeeps : holding.Keeps held) (hharmless : holding.Harmless stage) :
    ∃ draft, (stage.applied drafts).find holding.id = some draft ∧ holding.Keeps draft := by
  cases stage with
  | removing ids next => exact ⟨held, (DraftTable.find_remove hharmless.1).trans hstored, hkeeps⟩
  | saving draft =>
      by_cases hid : draft.id = holding.id
      · have hsaved : (drafts.save draft).find draft.id = some draft := DraftTable.find_save_self
        rw [hid] at hsaved
        exact ⟨draft, hsaved, hharmless hid⟩
      · exact ⟨held, (DraftTable.find_save_other (Ne.symm hid)).trans hstored, hkeeps⟩
  | cleaning => exact ⟨held, hstored, hkeeps⟩
  | finding => exact ⟨held, hstored, hkeeps⟩
  | answered answer => exact ⟨held, hstored, hkeeps⟩

theorem harmless_afterWrite {next : Stage Data} (hnext : stage.afterWrite = some next)
    (hharmless : holding.Harmless stage) : holding.Harmless next := by
  cases stage with
  | removing ids after =>
      obtain rfl := Option.some.inj hnext
      exact hharmless.2
  | saving draft =>
      obtain rfl := Option.some.inj hnext
      trivial
  | cleaning => cases hnext
  | finding => cases hnext
  | answered answer => cases hnext

theorem stageFits_afterWrite {next : Stage Data} (hnext : stage.afterWrite = some next)
    (hfits : holding.StageFits request stage) : holding.StageFits request next := by
  cases stage with
  | removing ids after =>
      obtain rfl := Option.some.inj hnext
      exact hfits
  | saving draft =>
      obtain rfl := Option.some.inj hnext
      exact hfits
  | cleaning => cases hnext
  | finding => cases hnext
  | answered answer => cases hnext

theorem firstStage_spec (request : DraftRequest Data) :
    holding.Harmless (firstStage request) ∧ holding.StageFits request (firstStage request) := by
  cases request <;> exact ⟨trivial, trivial⟩

theorem fits_failed (request : DraftRequest Data) : holding.Fits request .failed := by
  cases request <;> trivial

/-- The draft is held, and the calls that were not there at first are answered as they should. -/
structure Kept (holding : Holding Data) (first system : DraftSystem Index Data) : Prop where
  held : holding.Held system
  fits : ∀ index, ∀ call ∈ system.calls index, first.calls index = none →
    holding.StageFits call.request call.stage

theorem Kept.step {first before after : DraftSystem Index Data} {event : DraftEvent Index Data}
    (hwithin : holding.Within zone event)
    (hstep : InvoiceDrafts.step zone before event = some after)
    (hkept : Kept holding first before) : Kept holding first after := by
  obtain ⟨drafts, index, ⟨request, stage⟩, hmoves, rfl⟩ := moves_of_step hstep
  obtain ⟨held, hstored, hkeeps⟩ := hkept.held.stored
  have hmoved : (∃ draft, drafts.find holding.id = some draft ∧ holding.Keeps draft) ∧
      holding.Respects request ∧ holding.Harmless stage ∧
        (first.calls index = none → holding.StageFits request stage) := by
    cases hmoves with
    | start =>
        have hfirst : holding.Harmless (firstStage request) ∧
            holding.StageFits request (firstStage request) := firstStage_spec request
        exact ⟨⟨held, hstored, hkeeps⟩, hwithin, hfirst.1, fun _ => hfirst.2⟩
    | clean _ now _ hcleaning =>
        obtain ⟨hharmless, hfits⟩ := cleanup_spec hstored hkeeps hwithin
        exact ⟨⟨held, hstored, hkeeps⟩, (hkept.held.calls index _ hcleaning).1, hharmless,
          fun _ => hfits⟩
    | find _ calculatedAt now generated order _ hfinding =>
        have hrespects := (hkept.held.calls index _ hfinding).1
        obtain ⟨hharmless, hfits⟩ := finds_spec hstored hkeeps hwithin.1 hwithin.2 hrespects
          (finds_found zone before.drafts calculatedAt now generated order request)
        exact ⟨⟨held, hstored, hkeeps⟩, hrespects, hharmless, fun _ => hfits⟩
    | write _ _ moved _ hcall hnext =>
        obtain ⟨hrespects, hharmless⟩ := hkept.held.calls index _ hcall
        exact ⟨stored_applied hstored hkeeps hharmless, hrespects,
          harmless_afterWrite hnext hharmless,
          fun hnew => stageFits_afterWrite hnext (hkept.fits index _ hcall hnew)⟩
    | fails _ applied _ moved hcall =>
        obtain ⟨hrespects, hharmless⟩ := hkept.held.calls index _ hcall
        refine ⟨?_, hrespects, trivial, fun _ => fits_failed request⟩
        cases applied with
        | true => exact stored_applied hstored hkeeps hharmless
        | false => exact ⟨held, hstored, hkeeps⟩
  obtain ⟨hstoredAfter, hrespects, hharmless, hfits⟩ := hmoved
  exact ⟨⟨hstoredAfter, forall_calls ⟨hrespects, hharmless⟩ hkept.held.calls⟩,
    forall_calls hfits hkept.fits⟩

end Holding

/-! ## Runs -/

def DraftSystem.initial : DraftSystem Index Data where
  drafts := .empty
  calls _ := none

omit [DecidableEq Index] in
theorem sourced_initial (saved : String → String → Data → Prop) :
    Sourced saved (.initial : DraftSystem Index Data) where
  rows _ hdraft := nomatch hdraft
  calls _ _ hcall := nomatch hcall

/-- A seller has asked to save this under the id. -/
def SavedIn (events : List (DraftEvent Index Data)) (sellerId id : String) (draftData : Data) :
    Prop :=
  ∃ saver sellerWallet draftId,
    .start saver (.saveDraft sellerId sellerWallet draftId draftData) ∈ events ∧ Names draftId id

omit [DecidableEq Index] in
theorem startsSaved_savedIn {events : List (DraftEvent Index Data)}
    {event : DraftEvent Index Data} (hevent : event ∈ events) :
    StartsSaved (SavedIn events) event := by
  cases event with
  | start index request =>
      cases request with
      | saveDraft sellerId sellerWallet draftId draftData =>
          exact fun id hnames => ⟨index, sellerWallet, draftId, hevent, hnames⟩
      | listDrafts | getDraft | deleteDraft | cleanupAllExpiredDrafts => trivial
  | clean | find | write | fails => trivial

end StellarSettle.InvoiceDrafts
