import StellarSettle.Core.InsertionOrder
import StellarSettle.Invoices.BatchPublish

/-!
# The rejections of a batch

A batch is published as a whole or not at all.  Its rejections, though, are found under the texts
of the request: a text that the database reads but would not print so is taken for a missing
invoice.
-/

namespace StellarSettle.BatchRejections

open StellarSettle.BatchPublish
open StellarSettle.Checks
open StellarSettle.Entities
open StellarSettle.InsertionOrder (nodup_eraseDups)
open StellarSettle.InvoiceLifecycle
open StellarSettle.UuidText

/-! ## What a batch should do -/

def AllOrNothing (environment : Environment) (input : BatchPublishInvoicesInput)
    (tables : BatchTables) : Prop :=
  match publishInvoicesBatch environment input tables with
  | (.ok _, after) => ∃ ids : List Uuid, ids.Nodup ∧
      (∀ text ∈ input.invoiceIds, ∃ id ∈ ids, readUuid text = some id) ∧
      (∀ id ∈ ids, ∃ text ∈ input.invoiceIds, readUuid text = some id) ∧
      Published tables after ids
  | (.error _, after) => after = tables

/-- The invoice is not the seller's, is no draft or fails its validation. -/
def Rejectable (environment : Environment) (sellerId : Uuid) (text : String) (invoice : Invoice) :
    Prop :=
  invoice.sellerId ≠ some sellerId ∨ invoice.status ≠ .draft ∨
    validateInvoiceForPublish invoice (environment.checkedAt text) ≠ []

/-- The text names no invoice, or one that is rejected. -/
def Unpublishable (environment : Environment) (tables : BatchTables) (sellerId : Uuid)
    (text : String) : Prop :=
  ∀ invoice ∈ tables.invoices, readUuid text = some invoice.id →
    Rejectable environment sellerId text invoice

/-- The rejections are those of the requested ids that cannot be published, each once. -/
def ExactRejections (environment : Environment) (input : BatchPublishInvoicesInput)
    (tables : BatchTables) : Prop :=
  ∀ error rejected,
    (publishInvoicesBatch environment input tables).1 = .error (.rejected error rejected) →
      (rejected.map fun rejection => readUuid rejection.invoiceId).Nodup ∧
      (∀ rejection ∈ rejected, rejection.invoiceId ∈ input.invoiceIds) ∧
      ∀ text ∈ input.invoiceIds,
        (∃ rejection ∈ rejected, readUuid rejection.invoiceId = readUuid text) ↔
          Unpublishable environment tables input.sellerId text

/-- The call throws before it looks at its rejections: without a database, in the query, or at an
invoice whose seller has no approval. -/
def Stops (environment : Environment) (input : BatchPublishInvoicesInput) (tables : BatchTables) :
    Prop :=
  environment.dataSource = false ∨ environment.failure .findInvoices ≠ none ∨
    (∃ text ∈ input.invoiceIds, readUuid text = none) ∨
    ∃ invoice ∈ tables.invoices, printUuid invoice.id ∈ input.invoiceIds ∧
      invoice.sellerId = some input.sellerId ∧
      ∀ seller, tables.findSeller invoice = some seller → seller.kycStatus ≠ .approved

/-- No two texts name one id, and an invoice that can be published is named by the text that the
database prints. -/
structure PlainlyNamed (environment : Environment) (input : BatchPublishInvoicesInput)
    (tables : BatchTables) : Prop where
  namedOnce : ∀ left ∈ input.invoiceIds, ∀ right ∈ input.invoiceIds,
    readUuid left = readUuid right → left = right
  canonical : ∀ text ∈ input.invoiceIds, ∀ invoice ∈ tables.invoices,
    readUuid text = some invoice.id → ¬Rejectable environment input.sellerId text invoice →
      text = printUuid invoice.id

/-! ## The loop -/

/-- What the code takes for a rejection: no invoice that is printed like this can be published. -/
def Failed (environment : Environment) (tables : BatchTables) (sellerId : Uuid) (text : String) :
    Prop :=
  ∀ invoice ∈ tables.invoices, printUuid invoice.id = text →
    Rejectable environment sellerId text invoice

section Loop

variable {environment : Environment} {tables : BatchTables} {input : BatchPublishInvoicesInput}
  {sellerId : Uuid} {invoices : List Invoice} {text : String}

theorem readUuid_of_mem {invoice : Invoice} (hmem : invoice ∈ tables.invoices) :
    readUuid (printUuid invoice.id) = some invoice.id :=
  readUuid_printUuid (BatchTables.lt_of_mem hmem)

theorem exists_of_forall₂ {Item Value : Type} {related : Item → Value → Prop} {items : List Item}
    {values : List Value} (hall : List.Forall₂ related items values) {item : Item}
    (hmem : item ∈ items) : ∃ value ∈ values, related item value := by
  induction hall with
  | nil => cases hmem
  | cons hfirst _ ih =>
      rcases List.mem_cons.mp hmem with rfl | hrest
      · exact ⟨_, List.mem_cons_self, hfirst⟩
      · obtain ⟨value, hvalue, hrelated⟩ := ih hrest
        exact ⟨value, List.mem_cons_of_mem _ hvalue, hrelated⟩

/-- Under a requested text, the map has the invoice that is printed like this. -/
theorem byId_eq_some_iff {texts : List String} (hfetch : findInvoices tables texts = .ok invoices)
    (htext : text ∈ texts) {invoice : Invoice} :
    byId invoices text = some invoice ↔
      invoice ∈ tables.invoices ∧ printUuid invoice.id = text := by
  obtain ⟨ids, hids, hfiltered⟩ := bind_eq_ok.mp hfetch
  obtain rfl := pure_eq_ok.mp hfiltered
  constructor
  · intro hfind
    exact ⟨List.mem_of_mem_filter (List.mem_of_find?_eq_some hfind),
      by simpa using List.find?_some hfind⟩
  · rintro ⟨hmem, rfl⟩
    obtain ⟨id, hid, hread⟩ := exists_of_forall₂ (forall₂_of_mapM_eq_ok hids) htext
    have hsame : readUuid (printUuid invoice.id) = some id := orThrow_eq_ok.mp hread
    rw [readUuid_of_mem hmem] at hsame
    obtain rfl := Option.some.inj hsame
    have hfetched : invoice ∈ tables.invoices.filter fun row => decide (row.id ∈ ids) :=
      List.mem_filter.mpr ⟨hmem, by simpa using hid⟩
    have hsome : (byId (tables.invoices.filter fun row => decide (row.id ∈ ids))
        (printUuid invoice.id)).isSome :=
      List.find?_isSome.mpr ⟨invoice, hfetched, by simp⟩
    obtain ⟨other, hother⟩ := Option.isSome_iff_exists.mp hsome
    have hotherMem := List.mem_of_mem_filter (List.mem_of_find?_eq_some hother)
    have hprinted : printUuid other.id = printUuid invoice.id := by
      simpa using List.find?_some hother
    have hids := printUuid_injective (BatchTables.lt_of_mem hotherMem)
      (BatchTables.lt_of_mem hmem) hprinted
    rw [hother, List.inj_on_of_nodup_map tables.uniqueInvoices hotherMem hmem hids]

/-- The sellers of the invoices under the text are approved, as far as the check looks. -/
def ApprovedAt (tables : BatchTables) (sellerId : Uuid) (text : String) : Prop :=
  ∀ invoice ∈ tables.invoices, printUuid invoice.id = text → invoice.sellerId = some sellerId →
    ∃ seller, tables.findSeller invoice = some seller ∧ seller.kycStatus = .approved

/-- What the check of one text says, given what the map has under it. -/
structure CheckedAs (environment : Environment) (tables : BatchTables) (sellerId : Uuid)
    (text : String) (checked : Checked) : Prop where
  rejected : ∀ rejection, checked = .rejected rejection →
    rejection.invoiceId = text ∧ Failed environment tables sellerId text
  publishable : ∀ publishable, checked = .publishable publishable →
    publishable.invoice ∈ tables.invoices ∧ printUuid publishable.invoice.id = text ∧
      ¬Rejectable environment sellerId text publishable.invoice
  approved : ApprovedAt tables sellerId text

theorem checkedAs_rejected {rejection : BatchPublishRejection} (hid : rejection.invoiceId = text)
    (hfailed : Failed environment tables sellerId text)
    (happroved : ApprovedAt tables sellerId text) :
    CheckedAs environment tables sellerId text (.rejected rejection) where
  rejected := by
    intro other hsame
    obtain rfl := Checked.rejected.inj hsame
    exact ⟨hid, hfailed⟩
  publishable := fun _ hother => Checked.noConfusion hother
  approved := happroved

theorem checkedAs_publishable {publishable : Publishable}
    (hmem : publishable.invoice ∈ tables.invoices)
    (hprinted : printUuid publishable.invoice.id = text)
    (hvalid : ¬Rejectable environment sellerId text publishable.invoice)
    (happroved : ApprovedAt tables sellerId text) :
    CheckedAs environment tables sellerId text (.publishable publishable) where
  rejected := fun _ hother => Checked.noConfusion hother
  publishable := by
    intro other hsame
    obtain rfl := Checked.publishable.inj hsame
    exact ⟨hmem, hprinted, hvalid⟩
  approved := happroved

theorem checkedAs_of_eq_ok {checked : Checked}
    (hfound : ∀ invoice, byId invoices text = some invoice ↔
      invoice ∈ tables.invoices ∧ printUuid invoice.id = text)
    (hcheck : checkInvoice environment tables sellerId invoices text = .ok checked) :
    CheckedAs environment tables sellerId text checked := by
  rw [checkInvoice] at hcheck
  split at hcheck
  · rename_i hnone
    obtain rfl := Except.ok.inj hcheck
    have hmissing : ∀ invoice ∈ tables.invoices, printUuid invoice.id ≠ text := by
      intro invoice hmem hprinted
      have hsome := (hfound invoice).mpr ⟨hmem, hprinted⟩
      rw [hnone] at hsome
      cases hsome
    exact checkedAs_rejected rfl
      (fun invoice hmem hprinted => absurd hprinted (hmissing invoice hmem))
      (fun invoice hmem hprinted => absurd hprinted (hmissing invoice hmem))
  · rename_i invoice hsome
    -- The map has one invoice under the text.
    have hsole : ∀ other ∈ tables.invoices, printUuid other.id = text → other = invoice := by
      intro other hmem hprinted
      exact Option.some.inj (((hfound other).mpr ⟨hmem, hprinted⟩).symm.trans hsome)
    have hfailed : Rejectable environment sellerId text invoice →
        Failed environment tables sellerId text := by
      intro hreject other hmem hprinted
      rwa [hsole other hmem hprinted]
    split at hcheck
    · rename_i hnotOwn
      obtain rfl := Except.ok.inj hcheck
      refine checkedAs_rejected rfl (hfailed (.inl hnotOwn)) ?_
      intro other hmem hprinted hown
      rw [hsole other hmem hprinted] at hown
      exact absurd hown hnotOwn
    · rename_i hown
      split at hcheck
      · cases hcheck
      · rename_i seller hseller
        obtain ⟨hfind, hstatus⟩ := Option.filter_eq_some_iff.mp hseller
        have happroved : ApprovedAt tables sellerId text := by
          intro other hmem hprinted _
          rw [hsole other hmem hprinted]
          exact ⟨seller, hfind, by simpa using hstatus⟩
        split at hcheck
        · rename_i hnotDraft
          obtain rfl := Except.ok.inj hcheck
          exact checkedAs_rejected rfl (hfailed (.inr (.inl hnotDraft))) happroved
        · rename_i hdraft
          dsimp only at hcheck
          split at hcheck
          · rename_i herrors
            obtain rfl := Except.ok.inj hcheck
            exact checkedAs_rejected rfl (hfailed (.inr (.inr herrors))) happroved
          · rename_i hvalid
            obtain rfl := Except.ok.inj hcheck
            obtain ⟨hmem, hprinted⟩ := (hfound invoice).mp hsome
            refine checkedAs_publishable hmem hprinted ?_ happroved
            rintro (hother | hother | hother)
            · exact hown hother
            · exact hdraft hother
            · exact hvalid hother

/-- A check throws for the missing approval of the seller alone. -/
theorem unapproved_of_eq_error {thrown : Thrown}
    (hfound : ∀ invoice, byId invoices text = some invoice ↔
      invoice ∈ tables.invoices ∧ printUuid invoice.id = text)
    (hcheck : checkInvoice environment tables sellerId invoices text = .error thrown) :
    ∃ invoice ∈ tables.invoices, printUuid invoice.id = text ∧ invoice.sellerId = some sellerId ∧
      ∀ seller, tables.findSeller invoice = some seller → seller.kycStatus ≠ .approved := by
  rw [checkInvoice] at hcheck
  split at hcheck
  · cases hcheck
  · rename_i invoice hsome
    obtain ⟨hmem, hprinted⟩ := (hfound invoice).mp hsome
    split at hcheck
    · cases hcheck
    · rename_i hown
      split at hcheck
      · rename_i hnone
        refine ⟨invoice, hmem, hprinted, not_not.mp hown, fun seller hfind happroved => ?_⟩
        rw [hfind] at hnone
        simp [happroved] at hnone
      · split at hcheck
        · cases hcheck
        · dsimp only at hcheck
          split at hcheck
          · cases hcheck
          · cases hcheck

/-- What the loop leaves of a list of texts: those that failed are rejected once each, and the
others name the invoices to publish. -/
structure Sorted (environment : Environment) (tables : BatchTables) (sellerId : Uuid)
    (texts : List String) (rejected : List BatchPublishRejection)
    (selected : List Publishable) : Prop where
  rejectedTexts : (rejected.map BatchPublishRejection.invoiceId).Sublist texts
  failed_iff : ∀ text ∈ texts, text ∈ rejected.map BatchPublishRejection.invoiceId ↔
    Failed environment tables sellerId text
  selectedTexts : (selected.map fun publishable => printUuid publishable.invoice.id).Sublist texts
  publishable : ∀ publishable ∈ selected, publishable.invoice ∈ tables.invoices ∧
    ¬Rejectable environment sellerId (printUuid publishable.invoice.id) publishable.invoice
  covered : ∀ text ∈ texts, text ∉ rejected.map BatchPublishRejection.invoiceId →
    ∃ publishable ∈ selected, printUuid publishable.invoice.id = text

theorem sorted_of_checked {texts : List String} {checked : List Checked} (hnodup : texts.Nodup)
    (hall : List.Forall₂ (CheckedAs environment tables sellerId) texts checked) :
    Sorted environment tables sellerId texts (rejections checked) (publishables checked) := by
  induction hall with
  | nil =>
      exact ⟨List.Sublist.slnil, fun _ hnone => absurd hnone List.not_mem_nil, List.Sublist.slnil,
        fun _ hnone => absurd hnone List.not_mem_nil, fun _ hnone => absurd hnone List.not_mem_nil⟩
  | @cons text first texts rest hfirst _ ih =>
      obtain ⟨hfresh, hrest⟩ := List.nodup_cons.mp hnodup
      obtain ⟨hrejected, hfailed, hselected, hpublishable, hcovered⟩ := ih hrest
      cases first with
      | rejected rejection =>
          obtain ⟨hid, hfails⟩ := hfirst.rejected rejection rfl
          have htexts : (rejections (.rejected rejection :: rest)).map
              BatchPublishRejection.invoiceId =
                text :: (rejections rest).map BatchPublishRejection.invoiceId := by
            rw [← hid]
            rfl
          refine ⟨?_, ?_, hselected.cons text, hpublishable, ?_⟩
          · rw [htexts]
            exact hrejected.cons_cons text
          · rw [htexts]
            refine List.forall_mem_cons.mpr ⟨iff_of_true List.mem_cons_self hfails, ?_⟩
            intro other hother
            have hne : other ≠ text := fun heq => hfresh (heq ▸ hother)
            rw [List.mem_cons, or_iff_right hne]
            exact hfailed other hother
          · rw [htexts]
            refine List.forall_mem_cons.mpr ⟨fun hnone => absurd List.mem_cons_self hnone, ?_⟩
            intro other hother hnone
            exact hcovered other hother (List.not_mem_of_not_mem_cons hnone)
      | publishable publishable =>
          obtain ⟨hmem, hprinted, hvalid⟩ := hfirst.publishable publishable rfl
          have hkept : ¬Failed environment tables sellerId text :=
            fun hfails => hvalid (hfails _ hmem hprinted)
          have hout : text ∉ (rejections rest).map BatchPublishRejection.invoiceId :=
            fun hrejectedText => hfresh (hrejected.subset hrejectedText)
          refine ⟨hrejected.cons text, ?_, ?_, ?_, ?_⟩
          · exact List.forall_mem_cons.mpr ⟨iff_of_false hout hkept, hfailed⟩
          · rw [← hprinted]
            exact hselected.cons_cons _
          · refine List.forall_mem_cons.mpr ⟨⟨hmem, by rwa [hprinted]⟩, hpublishable⟩
          · refine List.forall_mem_cons.mpr ⟨fun _ => ⟨_, List.mem_cons_self, hprinted⟩, ?_⟩
            intro other hother hnone
            obtain ⟨found, hfound, hfoundText⟩ := hcovered other hother hnone
            exact ⟨found, List.mem_cons_of_mem _ hfound, hfoundText⟩

/-- The query fails, or every text is read. -/
theorem readable_of_fetch {texts : List String}
    (hfetch : fetchInvoices environment tables texts = .ok invoices) :
    environment.failure .findInvoices = none ∧ (∀ text ∈ texts, readUuid text ≠ none) ∧
      findInvoices tables texts = .ok invoices := by
  obtain ⟨_, hperform, hfind⟩ := bind_eq_ok.mp hfetch
  refine ⟨perform_eq_ok.mp hperform, ?_, hfind⟩
  intro text htext hnone
  obtain ⟨ids, hids, _⟩ := bind_eq_ok.mp hfind
  obtain ⟨id, _, hread⟩ := exists_of_forall₂ (forall₂_of_mapM_eq_ok hids) htext
  rw [hnone] at hread
  cases hread

theorem stops_of_fetch {thrown : Thrown}
    (hfetch : fetchInvoices environment tables input.invoiceIds.eraseDups = .error thrown) :
    Stops environment input tables := by
  rcases bind_eq_error.mp hfetch with hperform | ⟨_, _, hfind⟩
  · refine .inr (.inl fun hnone => ?_)
    rw [Environment.perform, hnone] at hperform
    cases hperform
  · rcases bind_eq_error.mp hfind with htexts | ⟨_, _, hpure⟩
    · obtain ⟨text, htext, hread⟩ := exists_of_mapM_eq_error htexts
      exact .inr (.inr (.inl ⟨text, List.mem_eraseDups.mp htext, (orThrow_eq_error.mp hread).1⟩))
    · cases hpure

/-- Before the transaction, the call stops for a reason of its own, or it has sorted the texts. -/
theorem selectInvoices_cases (environment : Environment) (tables : BatchTables)
    (input : BatchPublishInvoicesInput) :
    (∃ thrown, selectInvoices environment tables input = .error (.thrown thrown) ∧
        (input.invoiceIds = [] ∨ Stops environment input tables)) ∨
      ∃ rejected selected error,
        Sorted environment tables input.sellerId input.invoiceIds.eraseDups rejected selected ∧
        ¬Stops environment input tables ∧
        selectInvoices environment tables input =
          if rejected ≠ [] then .error (.rejected error rejected) else .ok selected := by
  rw [selectInvoices]
  by_cases hempty : input.invoiceIds = []
  · rw [throwIf_pos hempty, error_bind]
    exact .inl ⟨_, rfl, .inl hempty⟩
  rw [throwIf_neg hempty, ok_bind]
  dsimp only
  by_cases hsource : environment.dataSource = false
  · rw [throwIf_pos hsource, error_bind]
    exact .inl ⟨_, rfl, .inr (.inl hsource)⟩
  rw [throwIf_neg hsource, ok_bind]
  cases hfetch : fetchInvoices environment tables input.invoiceIds.eraseDups with
  | error thrown => exact .inl ⟨_, rfl, .inr (stops_of_fetch hfetch)⟩
  | ok invoices =>
      obtain ⟨hperformed, hreadable, hfind⟩ := readable_of_fetch hfetch
      rw [Except.mapError, ok_bind]
      cases hloop : input.invoiceIds.eraseDups.mapM
          (checkInvoice environment tables input.sellerId invoices) with
      | error thrown =>
          obtain ⟨text, htext, hcheck⟩ := exists_of_mapM_eq_error hloop
          obtain ⟨invoice, hmem, rfl, hown, hunapproved⟩ :=
            unapproved_of_eq_error (fun _ => byId_eq_some_iff hfind htext) hcheck
          exact .inl ⟨_, rfl, .inr (.inr (.inr (.inr
            ⟨invoice, hmem, List.mem_eraseDups.mp htext, hown, hunapproved⟩)))⟩
      | ok checked =>
          have hpairs := (List.forall₂_and_left _ _).mpr
            ⟨fun text htext => htext, forall₂_of_mapM_eq_ok hloop⟩
          have hall : List.Forall₂ (CheckedAs environment tables input.sellerId)
              input.invoiceIds.eraseDups checked :=
            hpairs.imp fun text first hboth =>
              checkedAs_of_eq_ok (fun _ => byId_eq_some_iff hfind hboth.1) hboth.2
          refine .inr ⟨rejections checked, publishables checked,
            batchPublishRejected (rejections checked).length input.invoiceIds.eraseDups.length,
            sorted_of_checked (nodup_eraseDups _) hall, ?_, ?_⟩
          · rintro (hnone | hfailed | ⟨text, htext, hnone⟩ | ⟨invoice, hmem, htext, hown, hseller⟩)
            · exact hsource hnone
            · exact hfailed hperformed
            · exact hreadable text (List.mem_eraseDups.mpr htext) hnone
            · obtain ⟨first, _, hfirst⟩ := exists_of_forall₂ hall (List.mem_eraseDups.mpr htext)
              obtain ⟨seller, hfindSeller, happroved⟩ := hfirst.approved invoice hmem rfl hown
              exact hseller seller hfindSeller happroved
          · rw [Except.mapError, ok_bind, throwIf]
            split
            · rfl
            · rfl

/-! ## The batch -/

/-- Either all of the batch is published or nothing changes. -/
theorem allOrNothing (environment : Environment) (tables : BatchTables)
    (input : BatchPublishInvoicesInput) : AllOrNothing environment input tables := by
  rw [AllOrNothing, publishInvoicesBatch]
  rcases selectInvoices_cases environment tables input with ⟨thrown, hselect, _⟩ |
    ⟨rejected, selected, error, hsorted, _, hselect⟩
  · rw [hselect]
  · rw [hselect]
    by_cases hrejected : rejected ≠ []
    · rw [if_pos hrejected]
    · rw [if_neg hrejected]
      dsimp only
      rcases transaction_cases environment
        (selected.mapM (publishInvoice environment input.sellerId)) tables with
        ⟨thrown, hfailed⟩ | ⟨transitions, working, hrun, hcommitted⟩
      · rw [hfailed]
      · rw [hcommitted]
        have hdrafts : ∀ publishable ∈ selected, publishable.invoice ∈ tables.invoices ∧
            publishable.invoice.status = .draft := by
          intro publishable hmem
          obtain ⟨hstored, hvalid⟩ := hsorted.publishable publishable hmem
          exact ⟨hstored, by_contra fun hstatus => hvalid (.inr (.inl hstatus))⟩
        have hnodup : (selected.map fun publishable => publishable.invoice.id).Nodup := by
          have hprinted := (nodup_eraseDups input.invoiceIds).sublist hsorted.selectedTexts
          refine List.Nodup.of_map printUuid ?_
          rwa [List.map_map]
        refine ⟨_, hnodup, ?_, ?_, published_of_mapM hrun hdrafts hnodup⟩
        · intro text htext
          obtain ⟨publishable, hmem, rfl⟩ := hsorted.covered text (List.mem_eraseDups.mpr htext)
            (by simp [not_not.mp hrejected])
          exact ⟨_, List.mem_map_of_mem hmem, readUuid_of_mem (hdrafts publishable hmem).1⟩
        · intro id hid
          obtain ⟨publishable, hmem, rfl⟩ := List.mem_map.mp hid
          exact ⟨_, List.mem_eraseDups.mp (hsorted.selectedTexts.subset
            (List.mem_map_of_mem hmem)), readUuid_of_mem (hdrafts publishable hmem).1⟩

section Exactness

variable {rejected : List BatchPublishRejection} {selected : List Publishable}

/-- A text that is not printed for the invoice that it names is taken for a missing one. -/
theorem failed_of_ne {invoice : Invoice} (hread : readUuid text = some invoice.id)
    (hother : text ≠ printUuid invoice.id) : Failed environment tables sellerId text := by
  rintro found hmem rfl
  rw [readUuid_of_mem hmem] at hread
  exact absurd (congrArg printUuid (Option.some.inj hread)) hother

theorem exact_of_plainlyNamed (hplain : PlainlyNamed environment input tables)
    (hsorted : Sorted environment tables input.sellerId input.invoiceIds.eraseDups rejected
      selected) :
    (rejected.map fun rejection => readUuid rejection.invoiceId).Nodup ∧
      (∀ rejection ∈ rejected, rejection.invoiceId ∈ input.invoiceIds) ∧
      ∀ text ∈ input.invoiceIds,
        (∃ rejection ∈ rejected, readUuid rejection.invoiceId = readUuid text) ↔
          Unpublishable environment tables input.sellerId text := by
  have hrequested : ∀ rejection ∈ rejected, rejection.invoiceId ∈ input.invoiceIds :=
    fun rejection hmem =>
      List.mem_eraseDups.mp (hsorted.rejectedTexts.subset (List.mem_map_of_mem hmem))
  refine ⟨?_, hrequested, fun text htext => ?_⟩
  · have htexts := (nodup_eraseDups input.invoiceIds).sublist hsorted.rejectedTexts
    have hread : ((rejected.map BatchPublishRejection.invoiceId).map readUuid).Nodup := by
      refine htexts.map_on fun left hleft right hright => ?_
      exact hplain.namedOnce left (List.mem_eraseDups.mp (hsorted.rejectedTexts.subset hleft)) right
        (List.mem_eraseDups.mp (hsorted.rejectedTexts.subset hright))
    rwa [List.map_map] at hread
  · have hlisted : (∃ rejection ∈ rejected, readUuid rejection.invoiceId = readUuid text) ↔
        text ∈ rejected.map BatchPublishRejection.invoiceId := by
      constructor
      · rintro ⟨rejection, hmem, hread⟩
        have hsame := hplain.namedOnce _ (hrequested rejection hmem) text htext hread
        exact List.mem_map.mpr ⟨rejection, hmem, hsame⟩
      · intro hmem
        obtain ⟨rejection, hrejection, rfl⟩ := List.mem_map.mp hmem
        exact ⟨rejection, hrejection, rfl⟩
    rw [hlisted, hsorted.failed_iff text (List.mem_eraseDups.mpr htext)]
    constructor
    · intro hfailed invoice hmem hread
      by_contra hvalid
      exact hvalid (hfailed invoice hmem
        (hplain.canonical text htext invoice hmem hread hvalid).symm)
    · rintro hunpublishable invoice hmem rfl
      exact hunpublishable invoice hmem (readUuid_of_mem hmem)

theorem plainlyNamed_of_exact
    (hsorted : Sorted environment tables input.sellerId input.invoiceIds.eraseDups rejected
      selected)
    (honce : (rejected.map fun rejection => readUuid rejection.invoiceId).Nodup)
    (hexact : ∀ text ∈ input.invoiceIds,
      (∃ rejection ∈ rejected, readUuid rejection.invoiceId = readUuid text) ↔
        Unpublishable environment tables input.sellerId text) :
    PlainlyNamed environment input tables := by
  -- Where a text failed, an invoice that another text names is rejected, too.
  have hlisted : ∀ text ∈ input.invoiceIds,
      Failed environment tables input.sellerId text → ∀ other ∈ input.invoiceIds,
        readUuid text = readUuid other →
          Unpublishable environment tables input.sellerId other := by
    intro text htext hfailed other hother hread
    have hmem := (hsorted.failed_iff text (List.mem_eraseDups.mpr htext)).mpr hfailed
    obtain ⟨rejection, hrejection, rfl⟩ := List.mem_map.mp hmem
    exact (hexact other hother).mp ⟨rejection, hrejection, hread⟩
  have hcanonical : ∀ text ∈ input.invoiceIds, ∀ invoice ∈ tables.invoices,
      readUuid text = some invoice.id →
        ¬Rejectable environment input.sellerId text invoice → text = printUuid invoice.id := by
    intro text htext invoice hmem hread hvalid
    by_contra hother
    exact hvalid (hlisted text htext (failed_of_ne hread hother) text htext rfl invoice hmem hread)
  refine ⟨fun left hleft right hright hread => ?_, hcanonical⟩
  -- A text that did not fail is printed for its invoice, so the other one failed.
  have hone : ∀ first ∈ input.invoiceIds, ∀ second ∈ input.invoiceIds,
      readUuid first = readUuid second →
        ¬Failed environment tables input.sellerId first → first = second := by
    intro first hfirst second hsecond hsame hkept
    obtain ⟨invoice, hmem, hprinted, hvalid⟩ : ∃ invoice ∈ tables.invoices,
        printUuid invoice.id = first ∧ ¬Rejectable environment input.sellerId first invoice := by
      simpa [Failed] using hkept
    have hfirstRead : readUuid first = some invoice.id := hprinted ▸ readUuid_of_mem hmem
    by_contra hne
    have hsecondFailed : Failed environment tables input.sellerId second :=
      failed_of_ne (hsame.symm.trans hfirstRead) (hprinted ▸ Ne.symm hne)
    exact hvalid (hlisted second hsecond hsecondFailed first hfirst hsame.symm invoice hmem
      hfirstRead)
  by_cases hleftFailed : Failed environment tables input.sellerId left
  · by_cases hrightFailed : Failed environment tables input.sellerId right
    · have hleftMem :=
        (hsorted.failed_iff left (List.mem_eraseDups.mpr hleft)).mpr hleftFailed
      have hrightMem :=
        (hsorted.failed_iff right (List.mem_eraseDups.mpr hright)).mpr hrightFailed
      have hmapped : ((rejected.map BatchPublishRejection.invoiceId).map readUuid).Nodup := by
        rwa [List.map_map]
      exact List.inj_on_of_nodup_map hmapped hleftMem hrightMem hread
    · exact (hone right hright left hleft hread.symm hrightFailed).symm
  · exact hone left hleft right hright hread hleftFailed

/-- Where nothing is rejected, every text is the one that is printed for its invoice. -/
theorem plainlyNamed_of_no_rejection
    (hsorted : Sorted environment tables input.sellerId input.invoiceIds.eraseDups [] selected) :
    PlainlyNamed environment input tables := by
  have hprinted : ∀ text ∈ input.invoiceIds, ∃ invoice ∈ tables.invoices,
      printUuid invoice.id = text := by
    intro text htext
    obtain ⟨publishable, hmem, hprinted⟩ := hsorted.covered text (List.mem_eraseDups.mpr htext)
      List.not_mem_nil
    exact ⟨publishable.invoice, (hsorted.publishable publishable hmem).1, hprinted⟩
  refine ⟨fun left hleft right hright hread => ?_, fun text htext invoice hmem hread _ => ?_⟩
  · obtain ⟨leftInvoice, hleftMem, rfl⟩ := hprinted left hleft
    obtain ⟨rightInvoice, hrightMem, rfl⟩ := hprinted right hright
    rw [readUuid_of_mem hleftMem, readUuid_of_mem hrightMem] at hread
    exact congrArg printUuid (Option.some.inj hread)
  · obtain ⟨found, hfound, rfl⟩ := hprinted text htext
    rw [readUuid_of_mem hfound] at hread
    exact congrArg printUuid (Option.some.inj hread)

end Exactness

/-- A batch does what it should exactly when it stops before its rejections, or its texts name
their invoices plainly. -/
theorem publishInvoicesBatch_iff (environment : Environment) (input : BatchPublishInvoicesInput)
    (tables : BatchTables) :
    AllOrNothing environment input tables ∧ ExactRejections environment input tables ↔
      Stops environment input tables ∨ PlainlyNamed environment input tables := by
  rw [and_iff_right (allOrNothing environment tables input)]
  rcases selectInvoices_cases environment tables input with ⟨thrown, hselect, hstopped⟩ |
    ⟨rejected, selected, error, hsorted, hgoes, hselect⟩
  · refine iff_of_true ?_ ?_
    · intro error rejected hresult
      rw [publishInvoicesBatch, hselect] at hresult
      cases hresult
    · rcases hstopped with hempty | hstops
      · refine .inr ⟨?_, ?_⟩
        · rw [hempty]
          exact fun _ hnone => absurd hnone List.not_mem_nil
        · rw [hempty]
          exact fun _ hnone => absurd hnone List.not_mem_nil
      · exact .inl hstops
  · rw [or_iff_right hgoes]
    by_cases hrejected : rejected = []
    · subst hrejected
      refine iff_of_true ?_ (plainlyNamed_of_no_rejection hsorted)
      intro error rejected hresult
      rw [publishInvoicesBatch, hselect] at hresult
      exact absurd hresult (transaction_ne_rejected environment _ tables error rejected)
    · have hresult : (publishInvoicesBatch environment input tables).1 =
          .error (.rejected error rejected) := by
        rw [publishInvoicesBatch, hselect, if_pos hrejected]
      constructor
      · intro hexact
        obtain ⟨honce, _, hlisted⟩ := hexact error rejected hresult
        exact plainlyNamed_of_exact hsorted honce hlisted
      · intro hplain other found hfound
        rw [hresult] at hfound
        obtain ⟨rfl, rfl⟩ := BatchError.rejected.inj (Except.error.inj hfound)
        exact exact_of_plainlyNamed hplain hsorted

end Loop

/-! ## A draft named in upper case -/

/-- A draft of seller 2, who is approved. -/
def draftInvoice : Invoice :=
  { fundedInvoice with
    id := 0x6f1c0000000000000000000000000abc
    fundedAmount := 0
    status := .draft
    dueDate := some 30
    ipfsHash := some "QmDocument" }

def oneDraft : BatchTables :=
  { invoices := [draftInvoice]
    users := [⟨⟨2, .approved, true⟩, "GSELLER"⟩]
    statusHistory := []
    uniqueInvoices := List.nodup_singleton _
    uuids := by decide }

/-- Nothing fails, and it is the first day. -/
def firstDay : Environment :=
  { dataSource := true
    failure := fun _ => none
    checkedAt := fun _ => 0
    movedAt := fun _ => 0 }

def upperCaseText : String := "6F1C0000-0000-0000-0000-000000000ABC"

/-- The query finds the draft, and the draft is rejected as missing. -/
theorem upperCase_rejected :
    findInvoices oneDraft [upperCaseText] = .ok [draftInvoice] ∧
      (publishInvoicesBatch firstDay ⟨[upperCaseText], 2⟩ oneDraft).1 =
        .error (.rejected (batchPublishRejected 1 1)
          [⟨upperCaseText, .invoiceMissing, "Invoice not found"⟩]) ∧
      ¬(AllOrNothing firstDay ⟨[upperCaseText], 2⟩ oneDraft ∧
        ExactRejections firstDay ⟨[upperCaseText], 2⟩ oneDraft) := by
  have hresult : (publishInvoicesBatch firstDay ⟨[upperCaseText], 2⟩ oneDraft).1 =
      .error (.rejected (batchPublishRejected 1 1)
        [⟨upperCaseText, .invoiceMissing, "Invoice not found"⟩]) := by rfl
  refine ⟨by rfl, hresult, fun hboth => ?_⟩
  obtain ⟨_, _, hlisted⟩ := hboth.2 _ _ hresult
  have hunpublishable := (hlisted upperCaseText List.mem_cons_self).mp ⟨_, List.mem_cons_self, rfl⟩
  have hrejectable := hunpublishable draftInvoice List.mem_cons_self (by decide)
  rcases hrejectable with hown | hstatus | herrors
  · exact hown rfl
  · exact hstatus rfl
  · exact herrors (by decide)

end StellarSettle.BatchRejections
