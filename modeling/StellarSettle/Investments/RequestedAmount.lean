import StellarSettle.Investments.InvestmentService

/-!
# The requested and the stored amount

`createInvestment` takes an amount of any precision.  Its capacity check and the
move to FUNDED look at the full amount; the investment and the counter are
stored with four decimals.
-/

namespace StellarSettle.RequestedAmount

open StellarSettle.Checks
open StellarSettle.DecimalJs
open StellarSettle.Entities
open StellarSettle.InvestmentService
open StellarSettle.InvoiceLifecycle

/-! ## Stored rows -/

/-- What every stored invoice has: the table accepted it, and its net amount is
the one that the entity's hook computes. -/
structure StoredRow (invoice : Invoice) : Prop where
  storable : Storable invoice
  formatted : calculateAndFormatAmounts invoice = .ok invoice

theorem calculateAndFormatAmounts_eq_ok {invoice formatted : Invoice} :
    calculateAndFormatAmounts invoice = .ok formatted ↔
      0 ≤ invoice.amount ∧ (0 ≤ invoice.discountRate ∧ invoice.discountRate ≤ 100 * 10 ^ 2) ∧
        ∃ netAmount, calculateNetAmount invoice.amount invoice.discountRate = .ok netAmount ∧
          formatted = { invoice with netAmount := netAmount } := by
  simp [calculateAndFormatAmounts]

/-- The hook looks at the amount and the discount rate only. -/
theorem formatted_of_same_terms {invoice other : Invoice}
    (hformatted : calculateAndFormatAmounts invoice = .ok invoice)
    (hamount : other.amount = invoice.amount)
    (hdiscount : other.discountRate = invoice.discountRate)
    (hnet : other.netAmount = invoice.netAmount) :
    calculateAndFormatAmounts other = .ok other := by
  obtain ⟨hnonneg, hrate, netAmount, hcalculated, hsame⟩ :=
    calculateAndFormatAmounts_eq_ok.mp hformatted
  have hcomputed : other.netAmount = netAmount := by rw [hnet, hsame]
  refine calculateAndFormatAmounts_eq_ok.mpr ⟨by rwa [hamount], by rwa [hdiscount], netAmount,
    by rwa [hamount, hdiscount], ?_⟩
  rw [← hcomputed]

/-- Every save of an entity leaves a row with the hook's net amount. -/
theorem StoredRow.persistInvoice {row entity saved : Invoice} (hrow : StoredRow row)
    (hsave : persistInvoice row entity = .ok saved) : StoredRow saved := by
  unfold InvoiceLifecycle.persistInvoice at hsave
  split at hsave
  · obtain rfl := Except.ok.inj hsave
    exact hrow
  · obtain ⟨formatted, hformat, hwrite⟩ := bind_eq_ok.mp hsave
    obtain ⟨hstorable, rfl⟩ := writeInvoice_eq_ok.mp hwrite
    obtain ⟨hamount, hrate, netAmount, hcalculated, rfl⟩ :=
      calculateAndFormatAmounts_eq_ok.mp hformat
    exact ⟨hstorable,
      calculateAndFormatAmounts_eq_ok.mpr ⟨hamount, hrate, netAmount, hcalculated, rfl⟩⟩

/-- The version-checked update leaves the terms and the net amount alone. -/
theorem StoredRow.advanceFundedAmount {row updated : Invoice} {version : ℕ} {amount : Decimal}
    (hrow : StoredRow row)
    (hok : advanceFundedAmount (some row) version amount = .ok (some updated)) :
    StoredRow updated := by
  obtain ⟨found, hfound, _, rfl, hstorable⟩ := advanceFundedAmount_eq_ok hok
  obtain rfl := Option.some.inj hfound
  exact ⟨hstorable, formatted_of_same_terms hrow.formatted rfl rfl rfl⟩

/-- Saving an entity whose net amount is already the hook's. -/
theorem persistInvoice_of_formatted {row entity : Invoice}
    (hformatted : calculateAndFormatAmounts entity = .ok entity) :
    persistInvoice row entity =
      if entity = row then .ok row
      else writeInvoice { entity with
        version := if entity.version = row.version then row.version + 1
          else entity.version } := by
  rw [persistInvoice, hformatted]
  rfl

/-! ## Accepted requests -/

/-- The sum of the active investments, as the service computes it. -/
def totalInvested (db : Database) : Decimal :=
  sumAmounts ((activeInvestments db.investments).map fun investment =>
    investment.investmentAmount)

/-- `totalInvested.plus(amount)`, the number that decides whether the invoice is
funded. -/
def newTotalInvested (db : Database) (amount : Decimal) : Decimal :=
  plus (totalInvested db) amount

/-- The invoice takes the request: it is open to the investor, the amount fits
into what is left of it, and the tables take the rows. -/
structure Takes (db : Database) (input : CreateInvestmentInput) (now : Timestamp)
    (invoice : Invoice) : Prop where
  positive : 0 < input.investmentAmount
  published : invoice.status = .published
  withinDates : checkDates invoice now = .ok ()
  notSeller : invoice.sellerId ≠ some input.investorId
  fits : input.investmentAmount ≤ minus (ofUnits invoice.netAmount) (totalInvested db)
  columns : FitsColumns (createdInvestment input invoice 0)
  counter : 0 ≤ toFixed4 (newTotalInvested db input.investmentAmount) ∧
    toFixed4 (newTotalInvested db input.investmentAmount) ≤ invoice.netAmount

/-- A created investment never meets the unique index: it has no block. -/
theorem insertInvestment_createdInvestment {rows : List Investment}
    {input : CreateInvestmentInput} {invoice : Invoice} {id : Uuid} {result : Unit} :
    insertInvestment rows (createdInvestment input invoice id) = .ok result ↔
      FitsColumns (createdInvestment input invoice 0) := by
  have hnever : (rows.any fun row => sameBlock row (createdInvestment input invoice id)) =
      false := by
    rw [List.any_eq_false]
    intro row _
    cases hblock : row.fundingBlock <;> simp [sameBlock, createdInvestment, hblock]
  rw [insertInvestment, hnever, throwIf_neg (by simp), ok_bind, throwIf_eq_ok, not_not]
  rfl

theorem newTotalInvested_units (db : Database) {amount : Decimal}
    (hplaces : decimalPlacesAtMost 4 amount = true) :
    ∃ units, newTotalInvested db amount = ofUnits units := by
  obtain ⟨total, htotal⟩ := exists_units_of_sumAmounts
    ((activeInvestments db.investments).map fun investment => investment.investmentAmount)
  rw [newTotalInvested, totalInvested, htotal, ← ofUnits_toFixed4 hplaces]
  exact exists_units_of_plus total _

section Requests

variable {db after : Database} {input : CreateInvestmentInput} {id : Uuid} {now : Timestamp}
  {invoice : Invoice} {intentInFlight : Bool}

theorem lockInvoiceToInvest_eq_ok :
    lockInvoiceToInvest db input now = .ok invoice ↔
      db.invoice = some invoice ∧ invoice.status = .published ∧
        checkDates invoice now = .ok () ∧ invoice.sellerId ≠ some input.investorId := by
  simp only [lockInvoiceToInvest, bind_eq_ok, orThrow_eq_ok, throwIf_eq_ok, pure_eq_ok,
    exists_const, ne_eq, not_not]
  constructor
  · rintro ⟨found, hfound, hpublished, _, hdates, hseller, rfl⟩
    exact ⟨hfound, hpublished, hdates, hseller⟩
  · rintro ⟨hfound, hpublished, hdates, hseller⟩
    exact ⟨invoice, hfound, hpublished, (), hdates, hseller, rfl⟩

theorem checkCapacity_eq_ok_iff {amount total : Decimal} :
    checkCapacity db invoice amount = .ok total ↔
      amount ≤ minus (ofUnits invoice.netAmount) (totalInvested db) ∧
        total = totalInvested db := by
  simp [checkCapacity, totalInvested]

/-- The entity as the service saves it. -/
def countedInvoice (db : Database) (input : CreateInvestmentInput) (invoice : Invoice) :
    Invoice :=
  { invoice with fundedAmount := toFixed4 (newTotalInvested db input.investmentAmount) }

theorem saveCreatedFunding_eq (row : Invoice) (investment : Investment) :
    saveCreatedFunding intentInFlight input invoice row (totalInvested db) investment =
      if ofUnits invoice.netAmount ≤ newTotalInvested db input.investmentAmount then do
        let moved ← transition intentInFlight row (countedInvoice db input invoice) .funded
          (fullyFunded input.investorWallet (newTotalInvested db input.investmentAmount))
        return { invoice := moved.invoice, investment := investment, history := [moved.history] }
      else do
        let saved ← persistInvoice row (countedInvoice db input invoice)
        return { invoice := saved, investment := investment, history := [] } := rfl

/-- A save that keeps the terms keeps the net amount, and shows that the counter
fits. -/
theorem persisted_of_same_terms {entity saved : Invoice} (hstored : StoredRow invoice)
    (hsave : persistInvoice invoice entity = .ok saved) (hamount : entity.amount = invoice.amount)
    (hdiscount : entity.discountRate = invoice.discountRate)
    (hnet : entity.netAmount = invoice.netAmount) :
    saved.netAmount = invoice.netAmount ∧ saved.fundedAmount = entity.fundedAmount ∧
      saved.status = entity.status ∧ 0 ≤ entity.fundedAmount ∧
      entity.fundedAmount ≤ invoice.netAmount := by
  rw [persistInvoice_of_formatted
    (formatted_of_same_terms hstored.formatted hamount hdiscount hnet)] at hsave
  split at hsave
  · rename_i hsame
    obtain rfl := Except.ok.inj hsave
    rw [hsame]
    exact ⟨rfl, rfl, rfl, hstored.storable.1, hstored.storable.2.1⟩
  · obtain ⟨hstorable, rfl⟩ := writeInvoice_eq_ok.mp hsave
    exact ⟨hnet, rfl, rfl, hstorable.1, hnet ▸ hstorable.2.1⟩

/-- The end of the transaction leaves the counter of the full amount, and its
comparison decides the status. -/
theorem saveCreatedFunding_eq_ok {investment : Investment} {writes : FundingWrites}
    (hstored : StoredRow invoice) (hpublished : invoice.status = .published)
    (hok : saveCreatedFunding intentInFlight input invoice invoice (totalInvested db) investment =
      .ok writes) :
    writes.investment = investment ∧ writes.invoice.netAmount = invoice.netAmount ∧
      writes.invoice.fundedAmount = toFixed4 (newTotalInvested db input.investmentAmount) ∧
      (0 ≤ toFixed4 (newTotalInvested db input.investmentAmount) ∧
        toFixed4 (newTotalInvested db input.investmentAmount) ≤ invoice.netAmount) ∧
      writes.invoice.status = if ofUnits invoice.netAmount ≤
        newTotalInvested db input.investmentAmount then .funded else .published := by
  rw [saveCreatedFunding_eq] at hok
  split at hok
  · rename_i hfull
    rw [if_pos hfull]
    obtain ⟨moved, hmoved, hwrites⟩ := bind_eq_ok.mp hok
    obtain rfl := pure_eq_ok.mp hwrites
    obtain ⟨hnet, hfunded, hstatus, hcounter⟩ :=
      persisted_of_same_terms hstored (transition_eq_ok hmoved).2.1 rfl rfl rfl
    exact ⟨rfl, hnet, hfunded, hcounter, hstatus⟩
  · rename_i hrest
    rw [if_neg hrest]
    obtain ⟨saved, hsaved, hwrites⟩ := bind_eq_ok.mp hok
    obtain rfl := pure_eq_ok.mp hwrites
    obtain ⟨hnet, hfunded, hstatus, hcounter⟩ :=
      persisted_of_same_terms hstored hsaved rfl rfl rfl
    exact ⟨rfl, hnet, hfunded, hcounter, hstatus.trans hpublished⟩

/-- The rows that an accepted request leaves. -/
theorem createInvestment_eq_ok (hstored : ∀ invoice ∈ db.invoice, StoredRow invoice)
    (hok : createInvestment db input id now = .ok after) :
    ∃ invoice saved, db.invoice = some invoice ∧ Takes db input now invoice ∧
      after.investments = db.investments ++ [createdInvestment input invoice id] ∧
      after.invoice = some saved ∧ saved.netAmount = invoice.netAmount ∧
      saved.fundedAmount = toFixed4 (newTotalInvested db input.investmentAmount) ∧
      saved.status = if ofUnits invoice.netAmount ≤
        newTotalInvested db input.investmentAmount then .funded else .published := by
  obtain ⟨_, hamount, hrest⟩ := bind_eq_ok.mp hok
  obtain ⟨invoice, hlock, hrest⟩ := bind_eq_ok.mp hrest
  obtain ⟨total, hcapacity, hrest⟩ := bind_eq_ok.mp hrest
  obtain ⟨_, hinsert, hrest⟩ := bind_eq_ok.mp hrest
  obtain ⟨writes, hwrites, hafter⟩ := bind_eq_ok.mp hrest
  obtain rfl := pure_eq_ok.mp hafter
  obtain ⟨hinvoice, hpublished, hdates, hseller⟩ := lockInvoiceToInvest_eq_ok.mp hlock
  obtain ⟨hfits, rfl⟩ := checkCapacity_eq_ok_iff.mp hcapacity
  obtain ⟨hinvestment, hnet, hfunded, hcounter, hstatus⟩ :=
    saveCreatedFunding_eq_ok (hstored invoice hinvoice) hpublished hwrites
  refine ⟨invoice, writes.invoice, hinvoice, ?_, ?_, rfl, hnet, hfunded, hstatus⟩
  · exact ⟨checkCreateAmount_eq_ok.mp hamount, hpublished, hdates, hseller, hfits,
      insertInvestment_createdInvestment.mp hinsert, hcounter⟩
  · rw [← hinvestment]
    rfl

/-- A counter of the full amount reaches the net amount when the amount does. -/
theorem netAmount_le_counter {netAmount : ℤ} {total : Decimal} (hnonneg : 0 ≤ netAmount)
    (hfull : ofUnits netAmount ≤ total) : netAmount ≤ toFixed4 total := by
  refine DecimalRounding.le_roundHalfUp hnonneg ?_
  rwa [ofUnits, div_le_iff₀ (by norm_num)] at hfull

/-- The tables take the counter, whatever the rest of the save changes. -/
theorem exists_persisted (entity : Invoice) (hstored : StoredRow invoice)
    (hamount : entity.amount = invoice.amount)
    (hdiscount : entity.discountRate = invoice.discountRate)
    (hnet : entity.netAmount = invoice.netAmount)
    (hcounter : 0 ≤ entity.fundedAmount ∧ entity.fundedAmount ≤ invoice.netAmount) :
    ∃ saved, persistInvoice invoice entity = .ok saved := by
  rw [persistInvoice_of_formatted
    (formatted_of_same_terms hstored.formatted hamount hdiscount hnet)]
  split
  · exact ⟨invoice, rfl⟩
  · refine ⟨_, writeInvoice_eq_ok.mpr ⟨⟨hcounter.1, ?_, ?_⟩, rfl⟩⟩
    · exact hcounter.2.trans hnet.ge
    · exact hnet.trans_lt hstored.storable.2.2

theorem assertTransition_fullyFunded {actor : TransitionActor} {funded : ℤ}
    (hsystem : actor.role = .system) (hpublished : invoice.status = .published)
    (hfull : invoice.netAmount ≤ funded) :
    assertTransition invoice .funded actor { fundedAmount := some funded } = .ok () := by
  simp [assertTransition, findRule, TRANSITION_RULES, hpublished, hsystem, throwIf,
    TransitionGuard.failure, hfull]

theorem exists_saveCreatedFunding (hstored : StoredRow invoice)
    (htakes : Takes db input now invoice) (intentInFlight : Bool) (investment : Investment) :
    ∃ writes, saveCreatedFunding intentInFlight input invoice invoice (totalInvested db)
      investment = .ok writes := by
  rw [saveCreatedFunding_eq]
  split
  · rename_i hfull
    have hnonneg : 0 ≤ invoice.netAmount := hstored.storable.1.trans hstored.storable.2.1
    have hassert : assertTransition (countedInvoice db input invoice) .funded
        { role := .system, wallet := some input.investorWallet }
        { fundedAmount := some (toFixed4 (newTotalInvested db input.investmentAmount)) } =
          .ok () :=
      assertTransition_fullyFunded rfl htakes.published (netAmount_le_counter hnonneg hfull)
    obtain ⟨saved, hsaved⟩ := exists_persisted
      { countedInvoice db input invoice with status := .funded } hstored rfl rfl rfl
      htakes.counter
    obtain ⟨moved, hmoved⟩ : ∃ moved, transition intentInFlight invoice
        (countedInvoice db input invoice) .funded (fullyFunded input.investorWallet
          (newTotalInvested db input.investmentAmount)) = .ok moved :=
      exists_transition hassert (by simp) hsaved
    exact ⟨_, by rw [hmoved]; rfl⟩
  · obtain ⟨saved, hsaved⟩ := exists_persisted (countedInvoice db input invoice) hstored rfl rfl
      rfl htakes.counter
    exact ⟨_, by rw [hsaved]; rfl⟩

/-- The call goes through for a request that the invoice takes. -/
theorem exists_createInvestment (hinvoice : db.invoice = some invoice)
    (hstored : StoredRow invoice) (htakes : Takes db input now invoice) (id : Uuid) :
    ∃ after, createInvestment db input id now = .ok after := by
  obtain ⟨writes, hwrites⟩ := exists_saveCreatedFunding hstored htakes db.intentInFlight
    (createdInvestment input invoice id)
  refine ⟨commitFunding db writes, ?_⟩
  have hamount : checkCreateAmount input.investmentAmount = .ok () :=
    checkCreateAmount_eq_ok.mpr htakes.positive
  have hcolumns : insertInvestment db.investments (createdInvestment input invoice id) = .ok () :=
    insertInvestment_createdInvestment.mpr htakes.columns
  rw [createInvestment, hamount, ok_bind, lockInvoiceToInvest_eq_ok.mpr
    ⟨hinvoice, htakes.published, htakes.withinDates, htakes.notSeller⟩, ok_bind,
    checkCapacity_eq_ok_iff.mpr ⟨htakes.fits, rfl⟩, ok_bind]
  dsimp only
  rw [hcolumns, ok_bind, hwrites, ok_bind]
  rfl

/-! ## The condition -/

/-- A call that goes through stores the amount it was given, and the status it
leaves agrees with the counter it stores. -/
def HonoursRequest (db : Database) (input : CreateInvestmentInput) (id : Uuid)
    (now : Timestamp) : Prop :=
  ∀ after, createInvestment db input id now = .ok after →
    (∃ investment, after.investments = db.investments ++ [investment] ∧
      ofUnits investment.investmentAmount = input.investmentAmount) ∧
    ∃ invoice, after.invoice = some invoice ∧
      (invoice.status = .funded ↔ invoice.netAmount ≤ invoice.fundedAmount)

/-- Away from the four decimals a stored amount is another one, and that alone
decides. -/
theorem honoursRequest_iff (hstored : ∀ invoice ∈ db.invoice, StoredRow invoice) :
    HonoursRequest db input id now ↔
      decimalPlacesAtMost 4 input.investmentAmount = true ∨
        ∀ invoice ∈ db.invoice, ¬Takes db input now invoice := by
  constructor
  · intro hhonours
    by_contra hneither
    obtain ⟨hplaces, htaken⟩ := not_or.mp hneither
    obtain ⟨invoice, hinvoice, htakes⟩ : ∃ invoice, db.invoice = some invoice ∧
        Takes db input now invoice := by
      by_contra hnone
      exact htaken fun invoice hinvoice htakes => hnone ⟨invoice, hinvoice, htakes⟩
    obtain ⟨after, hafter⟩ := exists_createInvestment hinvoice (hstored invoice hinvoice) htakes id
    obtain ⟨⟨investment, _, hamount⟩, _⟩ := hhonours after hafter
    exact hplaces (by rw [← hamount]; exact decimalPlacesAtMost_ofUnits _)
  · rintro hcondition after hafter
    obtain ⟨invoice, saved, hinvoice, htakes, hinvestments, hsaved, hnet, hfunded, hstatus⟩ :=
      createInvestment_eq_ok hstored hafter
    have hplaces := hcondition.resolve_right fun hnever => hnever invoice hinvoice htakes
    refine ⟨⟨_, hinvestments, ofUnits_toFixed4 hplaces⟩, saved, hsaved, ?_⟩
    obtain ⟨units, hunits⟩ := newTotalInvested_units db hplaces
    rw [hstatus, hnet, hfunded, hunits, toFixed4_ofUnits, ← ofUnits_le_ofUnits]
    split <;> simp_all

end Requests

/-! ## An amount that is rounded up to the net amount -/

/-- 9.99996 of 10.0000. -/
def almostWhole : CreateInvestmentInput :=
  { investorId := 4, investmentAmount := 999996 / 10 ^ 5, investorWallet := "GINVESTOR" }

theorem storedRow_openInvoice : StoredRow openInvoice := ⟨by decide, by decide +kernel⟩

/-- The whole invoice is sold, its counter says so, and it stays published. -/
theorem almostWhole_stored_whole :
    (createInvestment openDatabase almostWhole 9 0).toOption.map (fun after =>
        (after.investments.map Investment.investmentAmount,
          after.invoice.map fun invoice =>
            (invoice.fundedAmount, invoice.netAmount, invoice.status))) =
      some ([100000], some (100000, 100000, .published)) := by
  decide +kernel

theorem almostWhole_not_honoured :
    0 < almostWhole.investmentAmount ∧ StoredRow openInvoice ∧
      ¬HonoursRequest openDatabase almostWhole 9 0 := by
  refine ⟨by decide +kernel, storedRow_openInvoice, fun hhonours => ?_⟩
  have hstored := almostWhole_stored_whole
  cases hcall : createInvestment openDatabase almostWhole 9 0 with
  | error thrown =>
      rw [hcall] at hstored
      cases hstored
  | ok after =>
      rw [hcall] at hstored
      obtain ⟨_, invoice, hinvoice, hfunded⟩ := hhonours after hcall
      simp only [Except.toOption, Option.map_some, hinvoice, Option.some.injEq,
        Prod.mk.injEq] at hstored
      obtain ⟨_, hcounter, hnet, hpublished⟩ := hstored
      have hfull := hfunded.mpr (by rw [hcounter, hnet])
      rw [hpublished] at hfull
      cases hfull

theorem wholeInvestment_honoured : HonoursRequest openDatabase wholeInvestment 9 0 := by
  refine (honoursRequest_iff fun invoice hinvoice => ?_).mpr (.inl (by decide +kernel))
  obtain rfl := Option.some.inj hinvoice
  exact storedRow_openInvoice

end StellarSettle.RequestedAmount
