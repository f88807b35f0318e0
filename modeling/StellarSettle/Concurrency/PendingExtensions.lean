import StellarSettle.Invoices.ExtensionRequests

/-!
# One pending extension for each invoice

An invoice should have one pending request at most, which is decided once, and its funding
deadline should be that of the request that was approved last.  A review that commits while its
request is still pending keeps all of this, whatever ran since it read the request: as long as
there is no other pending request, nobody else can have moved the deadline.
-/

namespace StellarSettle.PendingExtensions

open StellarSettle.Checks
open StellarSettle.Entities
open StellarSettle.ExtensionRequests
open StellarSettle.InvoiceExtension (ReviewDecision ReviewExtensionInput)
open StellarSettle.KeyedRows
open StellarSettle.ReadCommitted
open StellarSettle.TransitionSystem

/-! ## The invariant -/

def Decided (tables : ExtensionTables) (id : Uuid) : Prop :=
  id ∈ tables.decisions.map Decision.requestId

/-- The approval that committed last. -/
def lastApproval (tables : ExtensionTables) : Option Decision :=
  tables.decisions.find? fun made => decide (made.decision = .approve)

/-- One request is pending at most, the pending request is the one without a decision, no request
has two, and the last approval gave the invoice its deadline. -/
structure Consistent (tables : ExtensionTables) : Prop where
  onePending : ∀ left ∈ tables.requests, ∀ right ∈ tables.requests,
    left.status = .pending → right.status = .pending → left = right
  undecided : ∀ request ∈ tables.requests, request.status = .pending ↔ ¬Decided tables request.id
  decidedOnce : (tables.decisions.map Decision.requestId).Nodup
  deadline : ∀ made, lastApproval tables = some made → ∀ request ∈ tables.requests,
    request.id = made.requestId → tables.fundingDeadline = some (some request.proposedDeadline)

/-! ## What a commit needs -/

/-- Nothing is pending when a request is inserted, and a request that is decided is pending. -/
def WriteFits (tables : ExtensionTables) (write : Write) : Prop :=
  match write.decision with
  | none => ∀ stored ∈ tables.requests, stored.status ≠ .pending
  | some _ => ∃ stored ∈ tables.requests, stored.id = write.request.id ∧ stored.status = .pending

/-- What the operations secure of the write that they commit: a new request is pending, and where
a decided one is still pending, the write gives it its decision and, when it is approved, the
invoice its deadline. -/
def Carries (tables : ExtensionTables) (write : Write) : Prop :=
  match write.decision with
  | none => write.invoice = none ∧
      ∃ request, write.request = .insert request ∧ request.status = .pending
  | some decision => ∃ id changes, write.request = .update id changes ∧
      ∀ stored ∈ tables.requests, stored.id = id → stored.status = .pending →
        changes.status = some (decidedStatus decision) ∧
          match decision with
          | .reject => write.invoice = none
          | .approve => ∀ invoice, write.invoiceAfter tables = some invoice →
              invoice.fundingDeadline = some stored.proposedDeadline

section Commit

variable {tables : ExtensionTables} {invoice : Invoice} {request : ExtensionRequest}
  {decision : Option ReviewDecision}

theorem mem_store {row : ExtensionRequest} :
    row ∈ (tables.store invoice request decision).requests ↔
      row = request ∨ row ∈ tables.requests ∧ row.id ≠ request.id := mem_saveRow

@[simp]
theorem fundingDeadline_store :
    (tables.store invoice request decision).fundingDeadline = some invoice.fundingDeadline := rfl

@[simp]
theorem decisions_store :
    (tables.store invoice request decision).decisions =
      (decision.map (Decision.mk request.id)).toList ++ tables.decisions := rfl

@[simp]
theorem decided_store_none {id : Uuid} :
    Decided (tables.store invoice request none) id ↔ Decided tables id := Iff.rfl

@[simp]
theorem decided_store_some {made : ReviewDecision} {id : Uuid} :
    Decided (tables.store invoice request (some made)) id ↔
      id = request.id ∨ Decided tables id := by
  simp [Decided]

/-- A recorded decision is one on a stored request. -/
theorem mem_of_decided {id : Uuid} (hdecided : Decided tables id) :
    ∃ stored ∈ tables.requests, stored.id = id := by
  obtain ⟨made, hmade, rfl⟩ := List.mem_map.mp hdecided
  exact tables.recorded made hmade

theorem not_decided_of_fresh (hfresh : ∀ stored ∈ tables.requests, stored.id ≠ request.id) :
    ¬Decided tables request.id := by
  intro hdecided
  obtain ⟨stored, hmem, hid⟩ := mem_of_decided hdecided
  exact hfresh stored hmem hid

theorem lastApproval_mem {made : Decision} (hlast : lastApproval tables = some made) :
    ∃ stored ∈ tables.requests, stored.id = made.requestId :=
  tables.recorded made (List.mem_of_find?_eq_some hlast)

/-- Inserting a pending request keeps the invariant when no other is pending. -/
theorem consistent_insert_iff (hinvoice : tables.invoice = some invoice)
    (hfresh : ∀ stored ∈ tables.requests, stored.id ≠ request.id)
    (hpending : request.status = .pending) (hconsistent : Consistent tables) :
    Consistent (tables.store invoice request none) ↔
      ∀ stored ∈ tables.requests, stored.status ≠ .pending := by
  constructor
  · intro hafter stored hmem hstored
    have hother := hfresh stored hmem
    have hsame := hafter.onePending stored (mem_store.mpr (.inr ⟨hmem, hother⟩)) request
      (mem_store.mpr (.inl rfl)) hstored hpending
    exact hother (congrArg (fun row => row.id) hsame)
  · intro hnone
    refine ⟨?_, ?_, hconsistent.decidedOnce, ?_⟩
    · intro left hleft right hright hleftPending hrightPending
      rcases mem_store.mp hleft with rfl | ⟨hleft, _⟩
      · rcases mem_store.mp hright with rfl | ⟨hright, _⟩
        · rfl
        · exact absurd hrightPending (hnone right hright)
      · exact absurd hleftPending (hnone left hleft)
    · intro row hrow
      rw [decided_store_none]
      rcases mem_store.mp hrow with rfl | ⟨hrow, _⟩
      · exact iff_of_true hpending (not_decided_of_fresh hfresh)
      · exact hconsistent.undecided row hrow
    · intro made hlast row hrow hid
      have hbefore : lastApproval tables = some made := hlast
      obtain ⟨stored, hmem, hstored⟩ := lastApproval_mem hbefore
      rcases mem_store.mp hrow with rfl | ⟨hrow, _⟩
      · exact absurd (hstored.trans hid.symm) (hfresh stored hmem)
      · rw [← hconsistent.deadline made hlast row hrow hid, fundingDeadline_store,
          ExtensionTables.fundingDeadline, hinvoice]
        rfl

/-- What the decided request and its invoice have become, where the request was still pending. -/
structure Follows (tables : ExtensionTables) (invoice : Invoice) (stored request : ExtensionRequest)
    (decision : ReviewDecision) : Prop where
  decided : request.status ≠ .pending
  deadline : match decision with
    | .reject => tables.invoice = some invoice
    | .approve => invoice.fundingDeadline = some stored.proposedDeadline

/-- Deciding a stored request keeps the invariant when it is pending. -/
theorem consistent_decide_iff {stored : ExtensionRequest} {made : ReviewDecision}
    (hmem : stored ∈ tables.requests) (hid : request.id = stored.id)
    (hproposed : request.proposedDeadline = stored.proposedDeadline)
    (hfollows : stored.status = .pending → Follows tables invoice stored request made)
    (hconsistent : Consistent tables) :
    Consistent (tables.store invoice request (some made)) ↔ stored.status = .pending := by
  constructor
  · intro hafter
    have honce := hafter.decidedOnce
    rw [hconsistent.undecided stored hmem, ← hid]
    exact (List.nodup_cons.mp honce).1
  · intro hpending
    obtain ⟨hdecided, hdeadline⟩ := hfollows hpending
    have hfresh : ¬Decided tables request.id := by
      rw [hid]
      exact (hconsistent.undecided stored hmem).mp hpending
    refine ⟨?_, ?_, List.nodup_cons.mpr ⟨hfresh, hconsistent.decidedOnce⟩, ?_⟩
    · intro left hleft right hright hleftPending hrightPending
      rcases mem_store.mp hleft with rfl | ⟨hleft, _⟩
      · exact absurd hleftPending hdecided
      · rcases mem_store.mp hright with rfl | ⟨hright, _⟩
        · exact absurd hrightPending hdecided
        · exact hconsistent.onePending left hleft right hright hleftPending hrightPending
    · intro row hrow
      rw [decided_store_some]
      rcases mem_store.mp hrow with rfl | ⟨hrow, hother⟩
      · exact iff_of_false hdecided fun hnone => hnone (.inl rfl)
      · rw [hconsistent.undecided row hrow]
        exact not_congr (or_iff_right hother).symm
    · intro last hlast row hrow hrowId
      cases made with
      | approve =>
          -- This approval is the last one, and its request is the one that was decided.
          obtain rfl := Option.some.inj hlast
          rcases mem_store.mp hrow with rfl | ⟨_, hother⟩
          · rw [fundingDeadline_store, hdeadline, hproposed]
          · exact absurd hrowId hother
      | reject =>
          -- The last approval is as before, and its request is another one.
          have hbefore : lastApproval tables = some last := hlast
          obtain ⟨approved, happroved, happrovedId⟩ := lastApproval_mem hbefore
          have hkept := hconsistent.deadline last hbefore approved happroved happrovedId
          have hlastDecided : Decided tables last.requestId :=
            List.mem_map_of_mem (List.mem_of_find?_eq_some hbefore)
          rcases mem_store.mp hrow with rfl | ⟨hrow, _⟩
          · exact absurd (hrowId ▸ hlastDecided) hfresh
          · obtain rfl := ExtensionTables.eq_of_mem hrow happroved (hrowId.trans happrovedId.symm)
            have hinvoice : tables.invoice = some invoice := hdeadline
            rw [← hkept, fundingDeadline_store, ExtensionTables.fundingDeadline, hinvoice]
            rfl

theorem exists_of_applyWrite {write : Write} {next : ExtensionTables}
    (happly : applyWrite write tables = some next) :
    ∃ invoice request, write.invoiceAfter tables = some invoice ∧
      write.requestAfter tables = some request ∧
      next = tables.store invoice request write.decision := by
  obtain ⟨invoice, hinvoice, hrest⟩ := Option.bind_eq_some_iff.mp happly
  obtain ⟨request, hrequest, hstore⟩ := Option.bind_eq_some_iff.mp hrest
  exact ⟨invoice, request, hinvoice, hrequest, (Option.some.inj hstore).symm⟩

/-- The request of an insert has a new id. -/
theorem fresh_of_requestAfter {write : Write} {inserted : ExtensionRequest}
    (hinsert : write.request = .insert inserted)
    (hafter : write.requestAfter tables = some request) :
    request = inserted ∧ ∀ stored ∈ tables.requests, stored.id ≠ inserted.id := by
  rw [Write.requestAfter, hinsert] at hafter
  dsimp only at hafter
  split at hafter
  · cases hafter
  · rename_i hmissing
    obtain rfl := Option.some.inj hafter
    have hnone : tables.findRequest inserted.id = none := by simpa using hmissing
    exact ⟨rfl, findRow_eq_none.mp hnone⟩

/-- The request of an update is stored. -/
theorem stored_of_requestAfter {write : Write} {id : Uuid} {changes : Changes}
    (hupdate : write.request = .update id changes)
    (hafter : write.requestAfter tables = some request) :
    ∃ stored ∈ tables.requests, stored.id = id ∧ request = changes.applied stored := by
  rw [Write.requestAfter, hupdate] at hafter
  obtain ⟨stored, hfind, rfl⟩ := Option.map_eq_some_iff.mp hafter
  exact ⟨stored, List.mem_of_find?_eq_some hfind, by simpa using List.find?_some hfind, rfl⟩

/-- A commit keeps the invariant exactly when it fits. -/
theorem consistent_applyWrite_iff {write : Write} {next : ExtensionTables}
    (happly : applyWrite write tables = some next) (hconsistent : Consistent tables)
    (hcarries : Carries tables write) : Consistent next ↔ WriteFits tables write := by
  obtain ⟨invoice, request, hinvoice, hrequest, rfl⟩ := exists_of_applyWrite happly
  rw [Carries] at hcarries
  rw [WriteFits]
  cases hdecision : write.decision with
  | none =>
      rw [hdecision] at hcarries
      obtain ⟨hsame, inserted, hinsert, hpending⟩ := hcarries
      obtain ⟨rfl, hfresh⟩ := fresh_of_requestAfter hinsert hrequest
      rw [Write.invoiceAfter, hsame] at hinvoice
      exact consistent_insert_iff hinvoice hfresh hpending hconsistent
  | some made =>
      rw [hdecision] at hcarries
      obtain ⟨id, changes, hupdate, hcarried⟩ := hcarries
      obtain ⟨stored, hmem, rfl, rfl⟩ := stored_of_requestAfter hupdate hrequest
      have hfollows : stored.status = .pending →
          Follows tables invoice stored (changes.applied stored) made := by
        intro hpending
        obtain ⟨hstatus, hdeadline⟩ := hcarried stored hmem rfl hpending
        cases made with
        | reject =>
            refine ⟨by simp [hstatus, decidedStatus], ?_⟩
            rwa [Write.invoiceAfter, hdeadline] at hinvoice
        | approve => exact ⟨by simp [hstatus, decidedStatus], hdeadline invoice hinvoice⟩
      rw [consistent_decide_iff hmem (Changes.applied_id changes stored)
        (Changes.applied_proposedDeadline changes stored) hfollows hconsistent]
      simp only [hupdate, RequestWrite.id]
      constructor
      · intro hpending
        exact ⟨stored, hmem, rfl, hpending⟩
      · rintro ⟨other, hother, hid, hpending⟩
        rwa [ExtensionTables.eq_of_mem hmem hother hid.symm]

end Commit

/-! ## What other operations may do -/

/-- Every request stays, with its proposed deadline; it does not become pending again, and while it
is pending the deadline of the invoice stays. -/
def Keeps (before after : ExtensionTables) : Prop :=
  ∀ request ∈ before.requests, ∃ later ∈ after.requests,
    later.id = request.id ∧ later.proposedDeadline = request.proposedDeadline ∧
      (later.status = .pending → request.status = .pending ∧
        after.fundingDeadline = before.fundingDeadline)

theorem keeps_refl (tables : ExtensionTables) : Keeps tables tables :=
  fun request hmem => ⟨request, hmem, rfl, rfl, fun hpending => ⟨hpending, rfl⟩⟩

theorem keeps_trans (first middle last : ExtensionTables) (hfirst : Keeps first middle)
    (hlast : Keeps middle last) : Keeps first last := by
  intro request hmem
  obtain ⟨later, hlater, hid, hproposed, hpending⟩ := hfirst request hmem
  obtain ⟨latest, hlatest, hlatestId, hlatestProposed, hlatestPending⟩ := hlast later hlater
  refine ⟨latest, hlatest, hlatestId.trans hid, hlatestProposed.trans hproposed, ?_⟩
  intro hstill
  obtain ⟨hmiddle, hdeadline⟩ := hlatestPending hstill
  obtain ⟨hfirst, hbefore⟩ := hpending hmiddle
  exact ⟨hfirst, hdeadline.trans hbefore⟩

/-- A commit that fits does to the others what they may rely on. -/
theorem keeps_applyWrite {tables next : ExtensionTables} {write : Write}
    (happly : applyWrite write tables = some next) (hconsistent : Consistent tables)
    (hcarries : Carries tables write) (hfits : WriteFits tables write) : Keeps tables next := by
  obtain ⟨invoice, request, hinvoice, hrequest, rfl⟩ := exists_of_applyWrite happly
  intro row hrow
  rw [Carries] at hcarries
  rw [WriteFits] at hfits
  cases hdecision : write.decision with
  | none =>
      rw [hdecision] at hcarries hfits
      obtain ⟨_, inserted, hinsert, _⟩ := hcarries
      obtain ⟨rfl, hfresh⟩ := fresh_of_requestAfter hinsert hrequest
      refine ⟨row, mem_store.mpr (.inr ⟨hrow, hfresh row hrow⟩), rfl, rfl, ?_⟩
      intro hpending
      exact absurd hpending (hfits row hrow)
  | some made =>
      rw [hdecision] at hcarries hfits
      obtain ⟨id, changes, hupdate, hcarried⟩ := hcarries
      obtain ⟨stored, hmem, rfl, rfl⟩ := stored_of_requestAfter hupdate hrequest
      obtain ⟨decided, hdecided, hid, hpending⟩ := hfits
      rw [hupdate] at hid
      obtain rfl := ExtensionTables.eq_of_mem hdecided hmem hid
      by_cases hsame : row.id = decided.id
      · obtain rfl := ExtensionTables.eq_of_mem hrow hmem hsame
        have hstatus := (hcarried row hmem rfl hpending).1
        refine ⟨_, mem_store.mpr (.inl rfl), rfl, rfl, ?_⟩
        intro hstill
        rw [Changes.applied_status, hstatus] at hstill
        cases made <;> cases hstill
      · refine ⟨row, mem_store.mpr (.inr ⟨hrow, hsame⟩), rfl, rfl, ?_⟩
        intro hrowPending
        have hone := hconsistent.onePending row hrow decided hmem hrowPending hpending
        exact absurd (congrArg (fun found => found.id) hone) hsame

/-- What a request of earlier tables has become, if it is still pending. -/
theorem Keeps.of_pending {before after : ExtensionTables} (hkeeps : Keeps before after)
    {request later : ExtensionRequest} (hmem : request ∈ before.requests)
    (hlater : later ∈ after.requests) (hid : later.id = request.id)
    (hpending : later.status = .pending) :
    request.status = .pending ∧ later.proposedDeadline = request.proposedDeadline ∧
      after.fundingDeadline = before.fundingDeadline := by
  obtain ⟨row, hrow, hrowId, hproposed, hrowPending⟩ := hkeeps request hmem
  obtain rfl := ExtensionTables.eq_of_mem hrow hlater (hrowId.trans hid.symm)
  obtain ⟨hstatus, hdeadline⟩ := hrowPending hpending
  exact ⟨hstatus, hproposed, hdeadline⟩

/-! ## The operations -/

abbrev Secures (transaction : ExtensionTransaction) (tables : ExtensionTables) : Prop :=
  transaction.Secures extensions.shows Keeps Carries tables

theorem requestExtension_secures (environment : Environment) (input : RequestExtensionInput)
    (tables : ExtensionTables) : Secures (requestExtension environment input) tables := by
  refine Transaction.secures_require fun _ _ _ _ invoice _ => ?_
  split
  · exact trivial
  · refine Transaction.secures_lookUp fun _ _ _ _ pending _ => ?_
    split
    · exact trivial
    · intro _ _
      exact ⟨rfl, _, rfl, rfl⟩

/-- The decided request and the write of its invoice, which are about to be saved. -/
structure Reviewed (tables : ExtensionTables) (entity : ExtensionRequest)
    (decision : ReviewDecision) (invoice : Option InvoiceWrite) : Prop where
  stored : ∃ request ∈ tables.requests, request.id = entity.id
  status : entity.status = decidedStatus decision
  invoice : match decision with
    | .reject => invoice = none
    | .approve => ∀ later, Keeps tables later → ∀ request ∈ later.requests,
        request.id = entity.id → request.status = .pending → ∀ write : Write,
        write.invoice = invoice → ∀ after, write.invoiceAfter later = some after →
          after.fundingDeadline = some request.proposedDeadline

theorem decidedStatus_ne (decision : ReviewDecision) : decidedStatus decision ≠ .pending := by
  cases decision <;> decide

/-- The request that was read is still there when it is saved. -/
theorem saveRequest_secures {tables : ExtensionTables} {entity : ExtensionRequest}
    {decision : ReviewDecision} {invoice : Option InvoiceWrite}
    (hreviewed : Reviewed tables entity decision invoice) :
    Secures (saveRequest decision entity invoice) tables := by
  refine Transaction.secures_lookUp fun middle hmiddle seen hshows found hfound => ?_
  obtain ⟨request, hrequest, hid⟩ := hreviewed.stored
  obtain ⟨row, hrow, hrowId, _, _⟩ := hmiddle request hrequest
  have hfind := ExtensionTables.findRequest_of_mem hshows hrow
  rw [hrowId, hid] at hfind
  obtain rfl : found = some row := (Except.ok.inj hfound).symm.trans hfind
  intro last hlast
  refine ⟨entity.id, .between row entity, rfl, ?_⟩
  intro stored hstored hstoredId hpending
  have hrowPending := (hlast.of_pending hrow hstored
    (hstoredId.trans (hid.symm.trans hrowId.symm)) hpending).1
  have hstatus : changed row.status entity.status = some (decidedStatus decision) := by
    rw [hreviewed.status, changed_of_ne]
    rw [hrowPending]
    exact decidedStatus_ne decision
  refine ⟨hstatus, ?_⟩
  have hinvoice := hreviewed.invoice
  cases decision with
  | reject => exact hinvoice
  | approve =>
      intro after hafter
      exact hinvoice last (keeps_trans _ _ _ hmiddle hlast) stored hstored hstoredId hpending _ rfl
        after hafter

/-- The deadline that a save gives the invoice, or finds there. -/
theorem deadline_of_invoiceAfter {tables last : ExtensionTables} {entity after : Invoice}
    {write : Write} (hsame : last.fundingDeadline = tables.fundingDeadline)
    (hwrite : write.invoice = some (.saving entity tables.invoice))
    (hafter : write.invoiceAfter last = some after) :
    after.fundingDeadline = entity.fundingDeadline := by
  rw [Write.invoiceAfter, hwrite] at hafter
  rw [ExtensionTables.fundingDeadline, ExtensionTables.fundingDeadline] at hsame
  cases hinvoice : tables.invoice with
  | none =>
      rw [hinvoice] at hafter hsame
      rw [Option.map_eq_none_iff.mp hsame] at hafter
      have hinserted : (storeInvoice { entity with version := 1 }).toOption = some after := hafter
      have hdeadline := fundingDeadline_storeInvoice hinserted
      exact hdeadline
  | some stored =>
      rw [hinvoice] at hafter hsame
      obtain ⟨current, hcurrent, hdeadline⟩ := Option.map_eq_some_iff.mp hsame
      rw [hcurrent, InvoiceWrite.saving] at hafter
      rcases changed_cases stored.fundingDeadline entity.fundingDeadline with hnew | ⟨hnone, hsaved⟩
      · rw [hnew] at hafter
        have hupdated : (storeInvoice { current with
            fundingDeadline := entity.fundingDeadline
            version := current.version + 1 }).toOption = some after := hafter
        have hwritten := fundingDeadline_storeInvoice hupdated
        exact hwritten
      · rw [hnone] at hafter
        obtain rfl := Option.some.inj hafter
        rw [hdeadline, hsaved]

theorem reviewExtension_secures (environment : Environment) (input : ReviewExtensionInput)
    (tables : ExtensionTables) : Secures (reviewExtension environment input) tables := by
  refine Transaction.secures_require fun first _ seen hshows request hfound => ?_
  obtain ⟨hmem, _⟩ := ExtensionTables.mem_of_findRequest hshows (Except.ok.inj hfound)
  split
  · exact trivial
  · refine Transaction.secures_require fun second hsecond _ _ invoice _ => ?_
    obtain ⟨middle, hmiddle, hmiddleId, hmiddleProposed, _⟩ := hsecond request hmem
    cases hdecision : input.decision with
    | reject =>
        refine saveRequest_secures ⟨⟨middle, hmiddle, hmiddleId⟩, ?_, rfl⟩
        exact congrArg decidedStatus hdecision
    | approve =>
        dsimp only
        split
        · exact trivial
        · refine Transaction.secures_lookUp fun third hthird saved hsaved stored hstored => ?_
          obtain ⟨row, hrow, hrowId, hrowProposed, _⟩ := hthird middle hmiddle
          have hinvoice : third.invoice = stored :=
            hsaved.invoice.symm.trans (Except.ok.inj hstored)
          refine saveRequest_secures ⟨⟨row, hrow, hrowId.trans hmiddleId⟩,
            congrArg decidedStatus hdecision, ?_⟩
          intro last hlast found hfoundMem hfoundId hpending write hwrite after hafter
          obtain ⟨_, hproposed, hdeadline⟩ := hlast.of_pending hrow hfoundMem
            (hfoundId.trans (hrowId.trans hmiddleId).symm) hpending
          rw [hproposed, hrowProposed, hmiddleProposed]
          rw [← hinvoice] at hwrite
          exact deadline_of_invoiceAfter hdeadline hwrite hafter

theorem code_secures (operation : ExtensionOperation) (tables : ExtensionTables) :
    Secures (extensions.code operation) tables := by
  cases operation with
  | requestExtension environment input => exact requestExtension_secures environment input tables
  | reviewExtension environment input => exact reviewExtension_secures environment input tables

/-- Whatever calls run and however they interleave, the invariant holds in every state that is
reached exactly when every commit fits the tables it finds. -/
theorem pendingExtensions_iff_fits {tables : ExtensionTables} (hconsistent : Consistent tables)
    {events : List ExtensionEvent} {last : ExtensionSystem}
    (hrun : Run (step extensions) (System.idle tables) events last) :
    (∀ front, front <+: events → ∀ reached, exec (step extensions) (System.idle tables) front =
        some reached → Consistent reached.committed) ↔
      GuardedRun (step extensions) (OnCommit WriteFits) (System.idle tables) events last :=
  invariant_of_run_iff_of_secures keeps_refl keeps_trans code_secures consistent_applyWrite_iff
    keeps_applyWrite hrun hconsistent

/-! ## Two requests -/

/-- The published invoice of seller 2, and nothing requested yet. -/
def publishedInvoice : ExtensionTables :=
  { invoice := some { fundedInvoice with fundedAmount := 0, status := .published }
    requests := []
    decisions := []
    uniqueRequests := List.nodup_nil
    owned := List.forall_mem_nil _
    recorded := List.forall_mem_nil _ }

theorem publishedInvoice_consistent : Consistent publishedInvoice where
  onePending := List.forall_mem_nil _
  undecided := List.forall_mem_nil _
  decidedOnce := List.nodup_nil
  deadline := nofun

/-- Seller 2 asks for the deadline 500 at the time 100. -/
def extensionCall (id : Uuid) : ExtensionOperation :=
  .requestExtension ⟨100, id⟩ { sellerId := 2, proposedDeadline := some 500 }

def pendingRequest (id : Uuid) : ExtensionRequest :=
  { id := id, requestedBy := 2, proposedDeadline := 500, previousDeadline := none, reason := none
    status := .pending, reviewedBy := none, reviewedAt := none, reviewNote := none }

def checkPending (index : ℕ) (id : Uuid) : List ExtensionEvent :=
  [.start index (extensionCall id), .query index publishedInvoice, .query index publishedInvoice]

theorem soleRequest_iff : ∃ last,
    Run (step extensions) (System.idle publishedInvoice) (checkPending 0 7 ++ [.commit 0]) last ∧
      last.committed.requests = [pendingRequest 7] ∧
      ((∀ front, front <+: checkPending 0 7 ++ [.commit 0] → ∀ reached,
        exec (step extensions) (System.idle publishedInvoice) front = some reached →
          Consistent reached.committed) ↔
        GuardedRun (step extensions) (OnCommit WriteFits) (System.idle publishedInvoice)
          (checkPending 0 7 ++ [.commit 0]) last) := by
  have hexec : (exec (step extensions) (System.idle publishedInvoice)
      (checkPending 0 7 ++ [.commit 0])).map (fun system => system.committed.requests) =
        some [pendingRequest 7] := by decide
  obtain ⟨last, hrun, hrequests⟩ := exists_run hexec
  exact ⟨last, hrun, hrequests, pendingExtensions_iff_fits publishedInvoice_consistent hrun⟩

/-- Both calls look for a pending request before either has inserted one. -/
theorem requestedTwice_pending : Consistent publishedInvoice ∧
    ∃ (events : List ExtensionEvent) (last : ExtensionSystem),
    Run (step extensions) (System.idle publishedInvoice) events last ∧
      last.committed.requests = [pendingRequest 7, pendingRequest 8] ∧
      ¬Consistent last.committed := by
  have hexec : (exec (step extensions) (System.idle publishedInvoice)
      (checkPending 0 7 ++ checkPending 1 8 ++ [.commit 0, .commit 1])).map
        (fun system => system.committed.requests) =
      some [pendingRequest 7, pendingRequest 8] := by decide
  obtain ⟨last, hrun, hrequests⟩ := exists_run hexec
  refine ⟨publishedInvoice_consistent, _, last, hrun, hrequests, fun hconsistent => ?_⟩
  have hone := hconsistent.onePending
  rw [hrequests] at hone
  have hsame := hone (pendingRequest 7) (by decide) (pendingRequest 8) (by decide) rfl rfl
  revert hsame
  decide

end StellarSettle.PendingExtensions
