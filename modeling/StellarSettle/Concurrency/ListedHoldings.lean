import StellarSettle.Concurrency.ListingSales
import StellarSettle.Investments.Holdings

/-!
# Active listings and the holdings behind them

A listing is checked against the holdings under the invoice's lock, and a purchase
takes from both under the same lock.  A purchase that locks its listing just before
it expires finishes afterwards, when the holdings may have been listed again.  The
results below say which steps leave every active listing covered.
-/

namespace StellarSettle.ListedHoldings

open StellarSettle.Checks
open StellarSettle.DecimalJs
open StellarSettle.Entities
open StellarSettle.Holdings
open StellarSettle.InvoiceRefund
open StellarSettle.KeyedRows
open StellarSettle.ListingSales
open StellarSettle.MarketQuantity
open StellarSettle.Purchase
open StellarSettle.RowLock
open StellarSettle.SecondaryMarket
open StellarSettle.Trading
open StellarSettle.TransitionSystem

/-! ## Requests of accounts -/

/-- A request names a user and his own wallet. -/
def Identified (accounts : Accounts) : Process → Prop
  | .createListing input _ _ => ∃ sellerId ∈ input.sellerId,
      input.sellerWallet = accounts.walletOf sellerId
  | .buyListing input _ => input.buyerWallet = accounts.walletOf input.buyerId
  | _ => True

instance (accounts : Accounts) : (process : Process) → Decidable (Identified accounts process)
  | .createListing input _ _ =>
      inferInstanceAs (Decidable (∃ sellerId ∈ input.sellerId, _ = accounts.walletOf sellerId))
  | .buyListing _ _ => inferInstanceAs (Decidable (_ = _))
  | .idle => inferInstanceAs (Decidable True)
  | .finished _ => inferInstanceAs (Decidable True)
  | .cancelListing _ _ => inferInstanceAs (Decidable True)
  | .refundInvestment _ _ => inferInstanceAs (Decidable True)

/-- The call that the event starts. -/
def starting (event : Event) : Option Process :=
  match event.action with
  | .start request => some request.process
  | _ => none

def Identifies (accounts : Accounts) (_ : World) (event : Event) : Prop :=
  ∀ process ∈ starting event, Identified accounts process

instance (accounts : Accounts) (world : World) (event : Event) :
    Decidable (Identifies accounts world event) :=
  inferInstanceAs (Decidable (∀ process ∈ starting event, Identified accounts process))

/-! ## The condition -/

/-- The purchase is of a number, and delivers it. -/
def DeliversRequested (db : Database) (listing : SecondaryListing) (later : Timestamp) :
    Option Decimal → Prop
  | none => False
  | some buyQuantity => Delivers db listing buyQuantity later

instance (db : Database) (listing : SecondaryListing) (later : Timestamp) :
    (quantity : Option Decimal) → Decidable (DeliversRequested db listing later quantity)
  | none => inferInstanceAs (Decidable False)
  | some _ => inferInstanceAs (Decidable (Delivers _ _ _ _))

/-- What the next step of a process must find: at the check of a listing, holdings of no
more than twenty digits; at the commit of a purchase, a listing that it can deliver; at
the removal of an investment, that no listing relies on it.  No quantity is NaN. -/
def Honoured (db : Database) (now : Timestamp) : Process → Prop
  | .createListing input _ .check =>
      ∀ sellerId ∈ input.sellerId, held db.investments sellerId < 10 ^ precision
  | .createListing _ _ (.insert .notANumber) => False
  | .buyListing input (.commit listing _) =>
      DeliversRequested db listing now (requestedQuantity input listing)
  | .refundInvestment _ (.remove _ investment) => Spares db investment now
  | _ => True

instance (db : Database) (now : Timestamp) : (process : Process) →
    Decidable (Honoured db now process)
  | .createListing input _ .check =>
      inferInstanceAs (Decidable (∀ sellerId ∈ input.sellerId, held db.investments sellerId < _))
  | .createListing _ _ (.insert .notANumber) => inferInstanceAs (Decidable False)
  | .createListing _ _ (.insert (.listed _)) => inferInstanceAs (Decidable True)
  | .buyListing _ (.commit _ _) => inferInstanceAs (Decidable (DeliversRequested _ _ _ _))
  | .buyListing _ .lock => inferInstanceAs (Decidable True)
  | .buyListing _ (.transfer _) => inferInstanceAs (Decidable True)
  | .refundInvestment _ (.remove _ _) => inferInstanceAs (Decidable (Spares _ _ _))
  | .refundInvestment _ .find => inferInstanceAs (Decidable True)
  | .refundInvestment _ (.findInvestment _) => inferInstanceAs (Decidable True)
  | .refundInvestment _ (.check _ _) => inferInstanceAs (Decidable True)
  | .refundInvestment _ (.count _) => inferInstanceAs (Decidable True)
  | .refundInvestment _ (.cancel _) => inferInstanceAs (Decidable True)
  | .idle => inferInstanceAs (Decidable True)
  | .finished _ => inferInstanceAs (Decidable True)
  | .cancelListing _ _ => inferInstanceAs (Decidable True)

def Honours (accounts : Accounts) (world : World) (event : Event) : Prop :=
  Identifies accounts world event ∧
    ∀ process ∈ advancing world event, Honoured world.market.db event.now process

instance (accounts : Accounts) (world : World) (event : Event) :
    Decidable (Honours accounts world event) :=
  inferInstanceAs (Decidable (_ ∧ ∀ process ∈ advancing world event, _))

/-! ## What a process knows -/

def Funded (db : Database) : Prop :=
  ∃ invoice, db.invoice = some invoice ∧ invoice.status = .funded

/-- A refund that has passed its check. -/
def refunding : Process → Bool
  | .refundInvestment _ (.remove _ _) => true
  | .refundInvestment _ (.count _) => true
  | .refundInvestment _ (.cancel _) => true
  | _ => false

structure Trusted (accounts : Accounts) (market : Market) (process : Process) : Prop where
  identified : Identified accounts process
  unfunded : refunding process = true → ¬Funded market.db
  owned : ∀ entity ∈ cancelling process, ∃ sellerId, ListedBy accounts sellerId entity

/-- Under the invoice's lock: the checked listing is still covered, and the writes of a
purchase are those of the current rows. -/
def Secured (accounts : Accounts) (market : Market) : Process → Prop
  | .createListing _ _ (.insert (.listed listing)) =>
      Funded market.db ∧ (∀ other ∈ market.db.listings, other.id ≠ listing.id) ∧
        0 ≤ listing.quantity ∧ ∃ sellerId, ListedBy accounts sellerId listing ∧
          listed market.db.listings market.now sellerId + listing.quantity ≤
            held market.db.investments sellerId
  | .buyListing input (.commit listing (.transferred writes _)) =>
      Funded market.db ∧ ∃ buyQuantity newId now,
        requestedQuantity input listing = some buyQuantity ∧ 0 < buyQuantity ∧
          buyQuantity ≤ ofUnits listing.quantity ∧
          (∀ row ∈ market.db.investments, row.id ≠ newId) ∧
          writes = numberWrites market.db input listing buyQuantity newId now
  | _ => True

def invoiceKnowledge (accounts : Accounts) : Knowledge Market Process where
  always := Trusted accounts
  holding := holdsInvoice
  locked := Secured accounts

theorem numberWrites_congr {db after : Database} (hsame : after.investments = db.investments)
    (input : PurchaseInput) (listing : SecondaryListing) (buyQuantity : Decimal) (newId : Uuid)
    (now : Timestamp) :
    numberWrites after input listing buyQuantity newId now =
      numberWrites db input listing buyQuantity newId now := by
  rw [numberWrites, hsame, numberWrites]

/-- Fewer listings for sale leave what is secured. -/
theorem Secured.frame {accounts : Accounts} {market after : Market} {process : Process}
    (hlocked : Secured accounts market process) (hinvoice : after.db.invoice = market.db.invoice)
    (hinvestments : after.db.investments = market.db.investments)
    (hkeys : after.db.listings.map SecondaryListing.id =
      market.db.listings.map SecondaryListing.id)
    (hlisted : ∀ userId, listed after.db.listings after.now userId ≤
      listed market.db.listings market.now userId) : Secured accounts after process := by
  revert hlocked
  rw [Secured.eq_def, Secured.eq_def]
  split
  · rename_i input quantity listing
    rintro ⟨hfunded, hfresh, hnonneg, sellerId, hlistedBy, hleft⟩
    refine ⟨by rwa [Funded, hinvoice], fun other hother => ?_, hnonneg, sellerId, hlistedBy, ?_⟩
    · have hkey : other.id ∈ market.db.listings.map SecondaryListing.id :=
        hkeys ▸ List.mem_map_of_mem hother
      obtain ⟨old, hold, hsame⟩ := List.mem_map.mp hkey
      rw [← hsame]
      exact hfresh old hold
    · rw [hinvestments]
      exact le_trans (by have := hlisted sellerId; omega) hleft
  · rintro ⟨hfunded, buyQuantity, newId, now, hrequested, hpos, hle, hfresh, hwrites⟩
    refine ⟨by rwa [Funded, hinvoice], buyQuantity, newId, now, hrequested, hpos, hle, ?_, ?_⟩
    · rwa [hinvestments]
    · rw [hwrites, numberWrites_congr hinvestments]
  · exact fun _ => trivial

/-- Nothing is secured on an invoice that is not funded. -/
theorem Secured.of_unfunded {accounts : Accounts} {market after : Market} {process : Process}
    (hunfunded : ¬Funded market.db) (hlocked : Secured accounts market process) :
    Secured accounts after process := by
  revert hlocked
  rw [Secured.eq_def, Secured.eq_def]
  split
  · exact fun hlocked => absurd hlocked.1 hunfunded
  · exact fun hlocked => absurd hlocked.1 hunfunded
  · exact fun _ => trivial

section Steps

variable {accounts : Accounts} {newId : Uuid} {market : Market} {process : Process}
  {outcome : Outcome}

/-- None of the four operations makes an invoice funded. -/
theorem funded_of_moves (hmoves : Moves newId market process outcome)
    (hfunded : Funded outcome.market.db) : Funded market.db := by
  cases hmoves with
  | invoiceCancelled hcancel =>
      obtain ⟨row, saved, _, hpersist, rfl⟩ := cancelInvoice_eq_ok hcancel
      obtain ⟨invoice, hinvoice, hstatus⟩ := hfunded
      obtain rfl := Option.some.inj hinvoice
      rw [InvoiceLifecycle.status_of_persistInvoice hpersist] at hstatus
      cases hstatus
  | _ => exact hfunded

omit newId market outcome in
theorem Trusted.quiet {market : Market} (hidentified : Identified accounts process)
    (hrefunding : refunding process = false) (hcancelling : cancelling process = none) :
    Trusted accounts market process where
  identified := hidentified
  unfunded := fun hrefund => by
    rw [hrefunding] at hrefund
    cases hrefund
  owned := fun entity hentity => by
    rw [hcancelling] at hentity
    cases hentity

theorem trusted_of_moves (hconsistent : Consistent accounts market.db)
    (htrusted : Trusted accounts market process) (hmoves : Moves newId market process outcome) :
    Trusted accounts outcome.market outcome.process := by
  obtain ⟨hidentified, hunfunded, _⟩ := htrusted
  have hnothing : ∀ entity ∈ (none : Option SecondaryListing),
      ∃ sellerId, ListedBy accounts sellerId entity := fun entity hentity => by cases hentity
  cases hmoves with
  | listingChecked hcheck => exact .quiet hidentified rfl rfl
  | listingLocked hlock => exact .quiet hidentified rfl rfl
  | purchaseChecked htransfer => exact .quiet hidentified rfl rfl
  | cancelRead hread =>
      refine ⟨trivial, (fun hrefunding => by cases hrefunding), fun entity hentity => ?_⟩
      obtain rfl := Option.some.inj (Option.mem_def.mp hentity)
      obtain ⟨listing, hstored, rfl⟩ := readToCancel_eq_ok hread
      exact hconsistent.sellers listing (mem_of_storedListing hstored)
  | refundRead hnext before =>
      rcases hnext with rfl | ⟨_, rfl⟩
      · exact .quiet trivial rfl rfl
      · exact .quiet trivial rfl rfl
  | refundChecked hallowed =>
      refine ⟨trivial, fun _ => ?_, hnothing⟩
      rintro ⟨invoice, hinvoice, hfunded⟩
      obtain ⟨stored, hstored, hnot, _⟩ := status_of_canRefund hallowed
      rw [hinvoice] at hstored
      obtain rfl := Option.some.inj hstored
      exact hnot hfunded
  | removed => exact ⟨trivial, fun _ => hunfunded rfl, hnothing⟩
  | counted => exact ⟨trivial, fun _ => hunfunded rfl, hnothing⟩
  | _ => exact .quiet trivial rfl rfl

/-- A listing that passes its check, and a purchase, start with what they know. -/
theorem secured_of_moves (hconsistent : Consistent accounts market.db)
    (hcovered : Covered market.db market.now) (hunused : Unused market.db newId)
    (hidentified : Identified accounts process) (hhonoured : Honoured market.db market.now process)
    (hmoves : Moves newId market process outcome)
    (hholds : holdsInvoice outcome.process = true) :
    Secured accounts outcome.market outcome.process := by
  cases hmoves with
  | listingChecked hcheck =>
      rcases createListing_eq_ok hcheck with
        ⟨value, availableHoldings, expiresAt, _, hpos, hseller, hle, rfl⟩ | rfl
      · obtain ⟨sellerId, hid, hwallet⟩ := hidentified
        have hfunded := (checkSeller_eq_ok hseller).1
        refine ⟨hfunded, hunused.2, toFixed4_nonneg hpos.le, sellerId, ⟨hid, hwallet⟩, ?_⟩
        exact listed_add_le hconsistent hcovered hid hwallet (hhonoured sellerId hid) hseller hpos
          hle
      · trivial
  | purchaseChecked htransfer =>
      obtain ⟨hfunded, ⟨buyQuantity, hrequested, hpos, hle, rfl⟩ | ⟨_, _, _, rfl⟩⟩ :=
        transfer_eq_ok htransfer
      · exact ⟨hfunded, buyQuantity, newId, market.now, hrequested, hpos, hle, hunused.1, rfl⟩
      · trivial
  | _ => cases hholds

/-- What a process knows under the invoice's lock, a step without that lock keeps. -/
theorem secured_of_others (hconsistent : Consistent accounts market.db)
    (htrusted : Trusted accounts market process) (hsound : Sound process)
    (hmoves : Moves newId market process outcome) (hfree : needsInvoice process = false)
    {other : Process} (hlocked : Secured accounts market other) :
    Secured accounts outcome.market other := by
  cases hmoves with
  | cancelled =>
      exact hlocked.frame rfl rfl map_key_replace fun _ => listed_cancel hconsistent rfl hsound.1
  | removed => exact hlocked.of_unfunded (htrusted.unfunded rfl)
  | listed hcolumn => cases hfree
  | listedNotANumber => cases hfree
  | purchased hcolumns => cases hfree
  | purchasedNotANumber => cases hfree
  | invoiceCancelled hcancel => cases hfree
  | _ => exact hlocked

theorem keeps_of_moves (hconsistent : Consistent accounts market.db)
    (hcovered : Covered market.db market.now) (hunused : Unused market.db newId)
    (htrusted : Trusted accounts market process) (hsound : Sound process)
    (hhonoured : Honoured market.db market.now process)
    (hmoves : Moves newId market process outcome) :
    Keeps (invoiceKnowledge accounts) market outcome.market (needsInvoice process)
      (holdsInvoice outcome.process) outcome.process where
  always := trusted_of_moves hconsistent htrusted hmoves
  holding := fun hholds => ⟨hholds, secured_of_moves hconsistent hcovered hunused
    htrusted.identified hhonoured hmoves hholds⟩
  waited := fun hholds => by
    cases hmoves with
    | listingChecked hcheck => rfl
    | purchaseChecked htransfer => rfl
    | _ => cases hholds
  others := fun _ hother => ⟨hother.identified,
    fun hrefunding hfunded => hother.unfunded hrefunding (funded_of_moves hmoves hfunded),
    hother.owned⟩
  frame := fun hfree _ _ hlocked =>
    secured_of_others hconsistent htrusted hsound hmoves hfree hlocked

/-- What the condition makes of a step: the rows stay consistent, numbers and covered. -/
theorem covered_of_moves (hconsistent : Consistent accounts market.db)
    (hcovered : Covered market.db market.now) (htrusted : Trusted accounts market process)
    (hsound : Sound process)
    (hsecured : holdsInvoice process = true → Secured accounts market process)
    (hknows : ∀ listing ∈ lockedListing process,
      storedListing market.db listing.id = some listing)
    (hhonoured : Honoured market.db market.now process)
    (hmoves : Moves newId market process outcome) :
    Consistent accounts outcome.market.db ∧ Covered outcome.market.db outcome.market.now ∧
      outcome.market.notANumber = market.notANumber := by
  cases hmoves with
  | listed hcolumn =>
      obtain ⟨_, hfresh, hnonneg, sellerId, hlisted, hleft⟩ := hsecured rfl
      exact ⟨hconsistent.insert hfresh ⟨hnonneg, (abs_lt.mp hcolumn).2⟩ hlisted,
        hcovered.insert hlisted.1 hleft, rfl⟩
  | listedNotANumber => exact hhonoured.elim
  | @purchased input listing writes quantity hcolumns =>
      obtain ⟨_, buyQuantity, newId, now, hrequested, hpos, hle, hfresh, rfl⟩ := hsecured rfl
      have hstored := mem_of_storedListing (hknows listing rfl)
      have hdelivers : Delivers market.db listing buyQuantity market.now := by
        have hcondition : DeliversRequested market.db listing market.now
          (requestedQuantity input listing) := hhonoured
        rwa [hrequested] at hcondition
      exact ⟨hconsistent.purchase hstored hpos hle htrusted.identified hcolumns,
        hcovered.purchase hconsistent hstored hsound.1 hfresh hpos hle hdelivers, rfl⟩
  | @purchasedNotANumber input listing found investments =>
      have hnone : requestedQuantity input listing = none := hsound.2.2
      have hcondition : DeliversRequested market.db listing market.now
        (requestedQuantity input listing) := hhonoured
      rw [hnone] at hcondition
      exact hcondition.elim
  | cancelled =>
      obtain ⟨sellerId, hlisted⟩ := htrusted.owned _ rfl
      exact ⟨hconsistent.cancel rfl rfl hsound.2 hlisted,
        fun userId => (listed_cancel hconsistent rfl hsound.1).trans (hcovered userId), rfl⟩
  | removed => exact ⟨hconsistent.remove, hcovered.remove hconsistent hhonoured, rfl⟩
  | invoiceCancelled hcancel =>
      obtain ⟨_, _, _, _, rfl⟩ := cancelInvoice_eq_ok hcancel
      exact ⟨hconsistent.congr rfl rfl, hcovered, rfl⟩
  | _ => exact ⟨hconsistent, hcovered, rfl⟩

end Steps

/-! ## Runs -/

structure Invariant (accounts : Accounts) (world : World) : Prop where
  sales : ListingSales.Invariant world
  consistent : Consistent accounts world.market.db
  covered : Covered world.market.db world.market.now
  number : world.market.notANumber = false
  known : Known (invoiceKnowledge accounts) world.market world.holder world.process

/-- No call is under way, and every active listing is covered. -/
structure Initial (accounts : Accounts) (world : World) : Prop where
  consistent : Consistent accounts world.market.db
  covered : Covered world.market.db world.market.now
  number : world.market.notANumber = false
  noHolder : world.holder = none
  noListingHolder : ∀ id, world.listingHolder id = none
  allIdle : ∀ index, world.process index = .idle

theorem invariant_initial {accounts : Accounts} {world : World}
    (hinitial : Initial accounts world) : Invariant accounts world where
  sales := ListingSales.invariant_initial
    ⟨hinitial.consistent.quantities, hinitial.noListingHolder, hinitial.allIdle⟩
  consistent := hinitial.consistent
  covered := hinitial.covered
  number := hinitial.number
  known :=
    { always := fun index => by
        rw [hinitial.allIdle]
        exact .quiet trivial rfl rfl
      holds := fun index hholding => by
        rw [hinitial.allIdle] at hholding
        cases hholding
      locked := fun index hholding => by
        rw [hinitial.allIdle] at hholding
        cases hholding }

/-- Time only makes fewer listings for sale. -/
theorem known_at {accounts : Accounts} {market : Market} {holder : Option ℕ}
    {process : ℕ → Process} {now : Timestamp} (hconsistent : Consistent accounts market.db)
    (hnow : market.now ≤ now)
    (hknown : Known (invoiceKnowledge accounts) market holder process) :
    Known (invoiceKnowledge accounts) (market.at now) holder process where
  always := fun index =>
    { identified := (hknown.always index).identified
      unfunded := (hknown.always index).unfunded
      owned := (hknown.always index).owned }
  holds := hknown.holds
  locked := fun index hholding => (hknown.locked index hholding).frame rfl rfl rfl
    fun _ => listed_antitone hconsistent.quantities hnow

/-- Nothing is written by the start or the failure of a call. -/
theorem Invariant.quiet {accounts : Accounts} {world : World} {now : Timestamp} {index : ℕ}
    {next : Process} (hinvariant : Invariant accounts world) (hnow : world.market.now ≤ now)
    (hsales : ListingSales.Invariant
      (world.apply index { market := world.market.at now, process := next }))
    (hnext : Trusted accounts (world.market.at now) next) (hfree : holdsInvoice next = false) :
    Invariant accounts (world.apply index { market := world.market.at now, process := next }) where
  sales := hsales
  consistent := hinvariant.consistent
  covered := hinvariant.covered.later hinvariant.consistent hnow
  number := hinvariant.number
  known := by
    have hkeeps : Keeps (invoiceKnowledge accounts) (world.market.at now) (world.market.at now)
        false (holdsInvoice next) next := by
      rw [hfree]
      exact Keeps.released hnext hfree
    exact (known_at hinvariant.consistent hnow hinvariant.known).step
      (fun hneeds => by cases hneeds) hkeeps

theorem invariant_of_step {accounts : Accounts} {before after : World} {event : Event}
    (hhonours : Honours accounts before event) (hstep : step before event = some after)
    (hinvariant : Invariant accounts before) : Invariant accounts after := by
  have hsales := ListingSales.invariant_of_step hinvariant.sales hstep
  obtain ⟨hidentifies, hhonoured⟩ := hhonours
  obtain ⟨hnow, ⟨request, haction, rfl⟩ | ⟨thrown, rfl⟩ |
    ⟨newId, outcome, hready, hunused, haction, hmoves, rfl⟩⟩ := step_cases hstep
  · have hidentified : Identified accounts request.process :=
      hidentifies _ (by rw [starting, haction]; rfl)
    refine hinvariant.quiet hnow hsales (.quiet hidentified ?_ ?_) ?_
    · cases request <;> rfl
    · cases request <;> rfl
    · cases request <;> rfl
  · exact hinvariant.quiet hnow hsales (.quiet trivial rfl rfl) rfl
  · have hadvancing : before.process event.process ∈ advancing before event := by
      rw [advancing, haction]
      rfl
    have hcondition := hhonoured _ hadvancing
    have hcovered := hinvariant.covered.later hinvariant.consistent hnow
    have hknown := known_at hinvariant.consistent hnow hinvariant.known
    have hconsistent : Consistent accounts (before.market.at event.now).db := hinvariant.consistent
    have htrusted := hknown.always event.process
    have hsound := hinvariant.sales.sound event.process
    obtain ⟨hrows, hcover, hnumber⟩ := covered_of_moves hconsistent hcovered htrusted hsound
      (hknown.locked event.process) (hinvariant.sales.knows event.process) hcondition hmoves
    exact
      { sales := hsales
        consistent := hrows
        covered := hcover
        number := hnumber.trans hinvariant.number
        known := hknown.step hready.1
          (keeps_of_moves hconsistent hcovered hunused htrusted hsound hcondition hmoves) }

/-- In every state that is reached under the condition, every seller holds what he has
for sale. -/
theorem listings_covered {accounts : Accounts} {first last : World} {events : List Event}
    (hinitial : Initial accounts first)
    (hrun : GuardedRun step (Honours accounts) first events last) :
    last.market.notANumber = false ∧
      ∀ userId, listed last.market.db.listings last.market.now userId ≤
        held last.market.db.investments userId := by
  have hlast := hrun.invariant invariant_of_step (invariant_initial hinitial)
  exact ⟨hlast.number, hlast.covered⟩

/-! ## A purchase that outlasts its listing -/

def lengthAccounts : Accounts where
  walletOf := fun userId => String.ofList (List.replicate (userId + 1) 'G')
  distinct := by
    intro left right hsame
    have hlists := congrArg List.length (String.ofList_injective hsame)
    simpa using hlists
  named := by
    intro userId hempty
    have hlists := congrArg String.toList hempty
    rw [String.toList_ofList] at hlists
    cases hlists

/-- The seller 4 holds 10.0000, all of which is listed until the time 10. -/
def expiringDatabase : Database :=
  { fundedDatabase with
    investments := [{ soleHolding with investmentAmount := 100000, investorWallet := some "GGGGG" }]
    listings := [{ id := 20, sellerWallet := "GGGGG", sellerId := some 4, quantity := 100000
                   pricePerFraction := 10000, totalPrice := 100000, status := .active
                   expiresAt := 10 }] }

def expiringMarket : World := { market := { db := expiringDatabase, now := 0 } }

def buyAll : Request := .buyListing { listingId := 20, buyerWallet := "GGGGGG", buyerId := 5 }

def listAll : Request :=
  .createListing { sellerWallet := "GGGGG", sellerId := some 4, quantity := 10
                   quantityText := "10", pricePerFraction := 1, expiresAt := some 100 } (.number 10)

/-- The purchase has its listing at the time 10, and finishes at the time 11. -/
def listedAgain : List Event :=
  [⟨0, 10, .start buyAll⟩, ⟨0, 10, .advance 21⟩, ⟨1, 11, .start listAll⟩, ⟨1, 11, .advance 22⟩,
    ⟨1, 11, .advance 23⟩, ⟨0, 11, .advance 24⟩, ⟨0, 11, .advance 25⟩]

def sums (userId : Uuid) (world : World) : ℤ × ℤ :=
  (listed world.market.db.listings world.market.now userId, held world.market.db.investments userId)

theorem initial_expiringMarket : Initial lengthAccounts expiringMarket where
  consistent :=
    { investmentKeys := by decide
      amounts := by
        intro row hrow
        obtain rfl := List.mem_singleton.mp hrow
        exact ⟨by decide, by decide⟩
      wallets := by
        intro row hrow
        obtain rfl := List.mem_singleton.mp hrow
        exact fun wallet hwallet => (Option.some.inj hwallet).symm
      listingKeys := by decide
      quantities := by
        intro listing hlisting
        obtain rfl := List.mem_singleton.mp hlisting
        exact ⟨by decide, by decide⟩
      sellers := by
        intro listing hlisting
        obtain rfl := List.mem_singleton.mp hlisting
        exact ⟨4, rfl, rfl⟩ }
  covered := by
    intro userId
    by_cases hseller : userId = 4
    · subst hseller
      decide
    · have hlisted :
          listed expiringMarket.market.db.listings expiringMarket.market.now userId = 0 := by
        simp [listed, selectedSum, onSale, expiringMarket, expiringDatabase, Ne.symm hseller]
      rw [hlisted]
      exact held_nonneg fun row hrow => by
        obtain rfl := List.mem_singleton.mp hrow
        exact ⟨by decide, by decide⟩
  number := rfl
  noHolder := rfl
  noListingHolder := fun _ => rfl
  allIdle := fun _ => rfl

/-- The seller holds nothing and has 10.0000 for sale. -/
theorem listedAgain_uncovered : ∃ last,
    Initial lengthAccounts expiringMarket ∧
      GuardedRun step (Identifies lengthAccounts) expiringMarket listedAgain last ∧
      listed last.market.db.listings last.market.now 4 = 100000 ∧
      held last.market.db.investments 4 = 0 := by
  have hexec : (execGuarded step (Identifies lengthAccounts) expiringMarket listedAgain).map
      (sums 4) = some (100000, 0) := by
    decide +kernel
  obtain ⟨last, hrun, hsums⟩ := exists_guardedRun hexec
  obtain ⟨hlisted, hheld⟩ := Prod.mk.inj hsums
  exact ⟨last, initial_expiringMarket, hrun, hlisted, hheld⟩

def buyPart : Request :=
  .buyListing { listingId := 20, buyerWallet := "GGGGGG", buyerId := 5
                quantity := some (.number (5 / 2)) }

def listRest : Request :=
  .createListing { sellerWallet := "GGGGG", sellerId := some 4, quantity := 15 / 2
                   quantityText := "7.5", pricePerFraction := 1, expiresAt := some 100 }
    (.number (15 / 2))

/-- A part is bought, the listing is cancelled, and the rest is listed again. -/
def boughtThenListed : List Event :=
  [⟨0, 1, .start buyPart⟩, ⟨0, 1, .advance 21⟩, ⟨0, 2, .advance 22⟩, ⟨0, 2, .advance 23⟩,
    ⟨1, 3, .start (.cancelListing ⟨20, "GGGGG", some 4⟩)⟩, ⟨1, 3, .advance 24⟩,
    ⟨1, 3, .advance 25⟩, ⟨2, 4, .start listRest⟩, ⟨2, 4, .advance 26⟩, ⟨2, 4, .advance 27⟩]

theorem boughtThenListed_covered : ∃ last,
    GuardedRun step (Honours lengthAccounts) expiringMarket boughtThenListed last ∧
      last.market.notANumber = false ∧
      ∀ userId, listed last.market.db.listings last.market.now userId ≤
        held last.market.db.investments userId := by
  have hexec : (execGuarded step (Honours lengthAccounts) expiringMarket boughtThenListed).map
      (sums 4) = some (75000, 75000) := by
    decide +kernel
  obtain ⟨last, hrun, _⟩ := exists_guardedRun hexec
  exact ⟨last, hrun, listings_covered initial_expiringMarket hrun⟩

end StellarSettle.ListedHoldings
