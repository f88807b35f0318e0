import StellarSettle.Concurrency.Trading
import StellarSettle.Investments.Purchase

/-!
# What is sold from a listing

A purchase works on the row it has locked.  A cancellation saves the whole entity it
has read before, so it can bring back a listing that has been sold, or the quantity of
one that has been sold in part.  The results below say which saves and which purchases
a listing survives.
-/

namespace StellarSettle.ListingSales

open StellarSettle.Checks
open StellarSettle.DecimalJs
open StellarSettle.Entities
open StellarSettle.KeyedRows
open StellarSettle.MarketQuantity
open StellarSettle.Purchase
open StellarSettle.RowLock
open StellarSettle.SecondaryMarket
open StellarSettle.Trading
open StellarSettle.TransitionSystem

/-! ## The statement -/

/-- What the committed purchases of a listing returned. -/
def soldTotal (market : Market) (id : Uuid) : ℤ :=
  selectedSum (fun sale => sale.listingId == id) Sale.quantity market.sales

/-- What can still be sold from a listing. -/
def remaining (listing : SecondaryListing) : ℤ :=
  if listing.status = .sold then 0 else listing.quantity

/-- A listing that is sold stays sold, no quantity grows, and what is sold in between is
no longer for sale. -/
def Declines (before after : Market) : Prop :=
  ∀ id listing, storedListing before.db id = some listing →
    ∃ kept, storedListing after.db id = some kept ∧
      (listing.status = .sold → kept.status = .sold) ∧ kept.quantity ≤ listing.quantity ∧
      soldTotal after id - soldTotal before id + remaining kept ≤ remaining listing

theorem Declines.refl (market : Market) : Declines market market :=
  fun _ listing hlisting => ⟨listing, hlisting, fun hsold => hsold, le_rfl, by omega⟩

theorem Declines.trans {first middle last : Market} (hbefore : Declines first middle)
    (hafter : Declines middle last) : Declines first last := by
  intro id listing hlisting
  obtain ⟨kept, hkept, hsold, hquantity, htotal⟩ := hbefore id listing hlisting
  obtain ⟨final, hfinal, hstill, hless, hlater⟩ := hafter id kept hkept
  exact ⟨final, hfinal, fun hstart => hstill (hsold hstart), hless.trans hquantity, by omega⟩

/-! ## Stored listings -/

theorem id_of_storedListing {db : Database} {id : Uuid} {listing : SecondaryListing}
    (hstored : storedListing db id = some listing) : listing.id = id := by
  have hfound := List.find?_some hstored
  simpa using hfound

theorem mem_of_storedListing {db : Database} {id : Uuid} {listing : SecondaryListing}
    (hstored : storedListing db id = some listing) : listing ∈ db.listings :=
  List.mem_of_find?_eq_some hstored

theorem storedListing_insert {db : Database} {id : Uuid} {listing inserted : SecondaryListing}
    (hstored : storedListing db id = some listing) :
    storedListing (insertListing db inserted) id = some listing := by
  rw [storedListing, insertListing, List.find?_append]
  change ((storedListing db id).or _) = some listing
  rw [hstored, Option.some_or]

/-- A save of a listing writes its own row. -/
theorem storedListing_save {db after : Database} {id : Uuid} {listing entity : SecondaryListing}
    (hafter : after.listings = db.listings.map fun listing =>
      if listing.id = entity.id then entity else listing)
    (hstored : storedListing db id = some listing) :
    storedListing after id = some (if entity.id = id then entity else listing) := by
  change findRow SecondaryListing.id after.listings id = _
  rw [hafter]
  split
  · rename_i hsame
    subst hsame
    exact findRow_map_self ⟨listing, mem_of_storedListing hstored, id_of_storedListing hstored⟩
  · rename_i hother
    exact (findRow_map_other (Ne.symm hother)).trans hstored

/-! ## What a process knows -/

/-- The stored quantities fit their column. -/
def Columns (market : Market) : Prop :=
  ∀ listing ∈ market.db.listings, AmountColumn listing.quantity

/-- The purchase is of the requested number. -/
def PurchaseOf (input : PurchaseInput) (listing : SecondaryListing) : PurchaseResult → Prop
  | .transferred writes quantity =>
      ∃ db buyQuantity newId now, requestedQuantity input listing = some buyQuantity ∧
        0 < buyQuantity ∧ buyQuantity ≤ ofUnits listing.quantity ∧
        writes = numberWrites db input listing buyQuantity newId now ∧
        quantity = toFixed4 buyQuantity
  | .notANumber _ _ => requestedQuantity input listing = none

def Sound : Process → Prop
  | .createListing _ _ (.insert (.listed listing)) => 0 ≤ listing.quantity
  | .buyListing _ (.transfer listing) => listing.status = .active ∧ AmountColumn listing.quantity
  | .buyListing input (.commit listing purchase) =>
      listing.status = .active ∧ AmountColumn listing.quantity ∧
        PurchaseOf input listing purchase
  | .cancelListing _ (.save entity) =>
      entity.status = .cancelled ∧ AmountColumn entity.quantity
  | _ => True

/-- The listing that the process has locked. -/
def lockedListing : Process → Option SecondaryListing
  | .buyListing _ (.transfer listing) => some listing
  | .buyListing _ (.commit listing _) => some listing
  | _ => none

/-- Who has locked a listing's row knows the row. -/
def listingKnowledge (id : Uuid) : Knowledge Market Process where
  always := fun _ process => Sound process
  holding := holdsListing id
  locked := fun market process => ∀ listing ∈ lockedListing process,
    storedListing market.db listing.id = some listing

theorem readToCancel_eq_ok {db : Database} {input : CancelListingInput}
    {entity : SecondaryListing} (hok : readToCancel db input = .ok entity) :
    ∃ listing, storedListing db input.listingId = some listing ∧
      entity = { listing with status := .cancelled } := by
  obtain ⟨listing, hfound, hrest⟩ := bind_eq_ok.mp hok
  obtain ⟨_, _, hrest⟩ := bind_eq_ok.mp hrest
  obtain ⟨_, _, hentity⟩ := bind_eq_ok.mp hrest
  exact ⟨listing, orThrow_eq_ok.mp hfound, pure_eq_ok.mp hentity⟩

section Steps

variable {newId : Uuid} {market : Market} {process : Process} {outcome : Outcome}

theorem sound_of_moves (hcolumns : Columns market) (hsound : Sound process)
    (hmoves : Moves newId market process outcome) : Sound outcome.process := by
  cases hmoves with
  | listingChecked hcheck =>
      rcases createListing_eq_ok hcheck with ⟨value, _, _, _, hpos, _, _, rfl⟩ | rfl
      · exact toFixed4_nonneg hpos.le
      · trivial
  | listingLocked hlock =>
      obtain ⟨hstored, hactive, _⟩ := lockListing_eq_ok hlock
      exact ⟨hactive, hcolumns _ (mem_of_storedListing hstored)⟩
  | purchaseChecked htransfer =>
      refine ⟨hsound.1, hsound.2, ?_⟩
      rcases (transfer_eq_ok htransfer).2 with ⟨buyQuantity, hrequested, hpos, hle, rfl⟩ |
        ⟨hnone, _, _, rfl⟩
      · exact ⟨_, buyQuantity, _, _, hrequested, hpos, hle, rfl, rfl⟩
      · exact hnone
  | cancelRead hread =>
      obtain ⟨listing, hstored, rfl⟩ := readToCancel_eq_ok hread
      exact ⟨rfl, hcolumns listing (mem_of_storedListing hstored)⟩
  | _ => trivial

/-- A purchase writes the row of its own listing. -/
theorem id_of_purchaseOf {input : PurchaseInput} {listing : SecondaryListing}
    {writes : PurchaseWrites} {quantity : ℤ}
    (hpurchase : PurchaseOf input listing (.transferred writes quantity)) :
    writes.listing.id = listing.id := by
  obtain ⟨_, _, _, _, _, _, _, rfl, _⟩ := hpurchase
  change (soldListing _ _).id = listing.id
  rw [soldListing]
  split <;> rfl

/-- A listing whose row the step does not wait for stays as it is. -/
theorem storedListing_frame {id : Uuid} {listing : SecondaryListing} (hsound : Sound process)
    (hfree : neededListing process ≠ some id)
    (hmoves : Moves newId market process outcome)
    (hstored : storedListing market.db id = some listing) :
    storedListing outcome.market.db id = some listing := by
  cases hmoves with
  | listed hcolumn => exact storedListing_insert hstored
  | purchased hcolumns =>
      have hother : ¬_ = id := fun hsame => hfree (congrArg some hsame)
      refine (storedListing_save rfl hstored).trans ?_
      rw [id_of_purchaseOf hsound.2.2, if_neg hother]
  | cancelled =>
      have hother : ¬_ = id := fun hsame => hfree (congrArg some hsame)
      exact (storedListing_save rfl hstored).trans (by rw [if_neg hother])
  | removed => exact hstored
  | invoiceCancelled hcancel =>
      obtain ⟨_, _, _, _, rfl⟩ := InvoiceRefund.cancelInvoice_eq_ok hcancel
      exact hstored
  | _ => exact hstored

theorem neededListing_of_holds {id : Uuid} (hmoves : Moves newId market process outcome)
    (hholds : holdsListing id outcome.process = true) : neededListing process = some id := by
  cases hmoves with
  | listingLocked hlock =>
      have hid := id_of_storedListing (lockListing_eq_ok hlock).1
      have hown : _ = id := eq_of_beq hholds
      exact congrArg some (hid.symm.trans hown)
  | purchaseChecked htransfer => exact congrArg some (eq_of_beq hholds)
  | _ => cases hholds

/-- A step that ends with the listing's row knows the row. -/
theorem stored_of_moves {id : Uuid} (hmoves : Moves newId market process outcome)
    (hknows : ∀ listing ∈ lockedListing process,
      storedListing market.db listing.id = some listing)
    (hholds : holdsListing id outcome.process = true) :
    ∀ listing ∈ lockedListing outcome.process,
      storedListing outcome.market.db listing.id = some listing := by
  cases hmoves with
  | listingLocked hlock =>
      intro listing hlisting
      obtain rfl := Option.some.inj (Option.mem_def.mp hlisting)
      have hstored : storedListing market.db _ = some _ := (lockListing_eq_ok hlock).1
      rwa [← id_of_storedListing hstored] at hstored
  | purchaseChecked htransfer => exact hknows
  | _ => cases hholds

theorem id_of_lockedListing {id : Uuid} {listing : SecondaryListing}
    (hholds : holdsListing id process = true) (hlocked : listing ∈ lockedListing process) :
    listing.id = id := by
  rw [lockedListing.eq_def] at hlocked
  split at hlocked
  · obtain rfl := Option.some.inj (Option.mem_def.mp hlocked)
    exact eq_of_beq hholds
  · obtain rfl := Option.some.inj (Option.mem_def.mp hlocked)
    exact eq_of_beq hholds
  · cases hlocked

theorem holdsListing_of_lockedListing {listing : SecondaryListing}
    (hlocked : listing ∈ lockedListing process) : holdsListing listing.id process = true := by
  rw [lockedListing.eq_def] at hlocked
  split at hlocked
  · obtain rfl := Option.some.inj (Option.mem_def.mp hlocked)
    exact beq_self_eq_true _
  · obtain rfl := Option.some.inj (Option.mem_def.mp hlocked)
    exact beq_self_eq_true _
  · cases hlocked

theorem keeps_of_moves (id : Uuid) (hcolumns : Columns market) (hsound : Sound process)
    (hknows : ∀ listing ∈ lockedListing process,
      storedListing market.db listing.id = some listing)
    (hmoves : Moves newId market process outcome) :
    Keeps (listingKnowledge id) market outcome.market
      (decide (neededListing process = some id)) (holdsListing id outcome.process)
      outcome.process where
  always := sound_of_moves hcolumns hsound hmoves
  holding := fun hholds => ⟨hholds, stored_of_moves hmoves hknows hholds⟩
  waited := fun hholds => decide_eq_true (neededListing_of_holds hmoves hholds)
  others := fun _ hother => hother
  frame := fun hfree other hholds hlocked listing hlisting => by
    have hid := id_of_lockedListing hholds hlisting
    have hstored := hlocked listing hlisting
    rw [hid] at hstored ⊢
    exact storedListing_frame hsound (of_decide_eq_false hfree) hmoves hstored

end Steps

/-! ## The invariant -/

structure Invariant (world : World) : Prop where
  columns : Columns world.market
  known : ∀ id, Known (listingKnowledge id) world.market (world.listingHolder id) world.process

/-- No call is under way, and the stored quantities fit their column. -/
structure Initial (world : World) : Prop where
  columns : Columns world.market
  noListingHolder : ∀ id, world.listingHolder id = none
  allIdle : ∀ index, world.process index = .idle

theorem invariant_initial {world : World} (hinitial : Initial world) : Invariant world where
  columns := hinitial.columns
  known := fun id =>
    { always := fun index => by rw [hinitial.allIdle]; trivial
      holds := fun index hholding => by
        rw [hinitial.allIdle] at hholding
        cases hholding
      locked := fun index hholding => by
        rw [hinitial.allIdle] at hholding
        cases hholding }

/-- Time changes nothing that a process knows about its listing. -/
theorem known_at {id : Uuid} {market : Market} {holder : Option ℕ} {process : ℕ → Process}
    (hknown : Known (listingKnowledge id) market holder process) (now : Timestamp) :
    Known (listingKnowledge id) (market.at now) holder process :=
  ⟨hknown.always, hknown.holds, hknown.locked⟩

theorem Invariant.knows {world : World} (hinvariant : Invariant world) (index : ℕ) :
    ∀ listing ∈ lockedListing (world.process index),
      storedListing world.market.db listing.id = some listing := fun listing hlisting =>
  (hinvariant.known listing.id).locked index (holdsListing_of_lockedListing hlisting) listing
    hlisting

theorem Invariant.sound {world : World} (hinvariant : Invariant world) (index : ℕ) :
    Sound (world.process index) := (hinvariant.known 0).always index

/-- Nothing is written by the start or the failure of a call. -/
theorem Invariant.quiet {world : World} (hinvariant : Invariant world) (index : ℕ)
    (now : Timestamp) {next : Process} (hsound : Sound next)
    (hfree : ∀ id, holdsListing id next = false) :
    Invariant (world.apply index { market := world.market.at now, process := next }) where
  columns := hinvariant.columns
  known := fun id => by
    have hkeeps : Keeps (listingKnowledge id) (world.market.at now) (world.market.at now) false
        (holdsListing id next) next := by
      rw [hfree]
      exact Keeps.released hsound (hfree id)
    exact (known_at (hinvariant.known id) now).step (fun hneeds => by cases hneeds) hkeeps

/-! ## The condition -/

/-- The number is no tie that what is left of the listing is rounded up to. -/
def LeavesNoTie (listing : SecondaryListing) : Option Decimal → Prop
  | none => False
  | some buyQuantity =>
      RoundsUp buyQuantity → buyQuantity < ofUnits listing.quantity →
        ¬HalfUnit (minus (ofUnits listing.quantity) buyQuantity)

instance (listing : SecondaryListing) : (quantity : Option Decimal) →
    Decidable (LeavesNoTie listing quantity)
  | none => inferInstanceAs (Decidable False)
  | some _ => inferInstanceAs (Decidable (_ → _ → ¬_))

/-- The entity that a cancellation is about to save. -/
def cancelling : Process → Option SecondaryListing
  | .cancelListing _ (.save entity) => some entity
  | _ => none

/-- The listing of a purchase that is about to commit, and what is asked for. -/
def purchasing : Process → Option (SecondaryListing × Option Decimal)
  | .buyListing input (.commit listing _) => some (listing, requestedQuantity input listing)
  | _ => none

/-- A listing of NaN is about to be inserted. -/
def listsNotANumber : Process → Bool
  | .createListing _ _ (.insert .notANumber) => true
  | _ => false

/-- The process that the event advances. -/
def advancing (world : World) (event : Event) : Option Process :=
  match event.action with
  | .advance _ => some (world.process event.process)
  | _ => none

/-- No cancellation saves a listing that has been sold, or one whose quantity has become
less since it was read; every quantity is a number, and no purchase leaves a tie. -/
def SavesCurrent (world : World) (event : Event) : Prop :=
  ∀ process ∈ advancing world event,
    (∀ entity ∈ cancelling process, ∀ row ∈ storedListing world.market.db entity.id,
        row.status ≠ .sold ∧ entity.quantity ≤ row.quantity) ∧
      (∀ purchase ∈ purchasing process, LeavesNoTie purchase.1 purchase.2) ∧
      listsNotANumber process = false

instance (world : World) (event : Event) : Decidable (SavesCurrent world event) :=
  inferInstanceAs (Decidable (∀ process ∈ advancing _ _,
    (∀ entity ∈ cancelling process, ∀ row ∈ storedListing _ _, _ ∧ _) ∧
      (∀ purchase ∈ purchasing process, _) ∧ _))

section Steps

variable {newId : Uuid} {market : Market} {process : Process} {outcome : Outcome}

theorem soldListing_columns {listing : SecondaryListing} {buyQuantity : Decimal}
    (hcolumn : AmountColumn listing.quantity) (hpos : 0 < buyQuantity)
    (hle : buyQuantity ≤ ofUnits listing.quantity) :
    AmountColumn (soldListing listing buyQuantity).quantity ∧
      (soldListing listing buyQuantity).quantity ≤ listing.quantity := by
  rw [soldListing]
  split
  · exact ⟨hcolumn, le_rfl⟩
  · exact toFixed4_minus_mem hcolumn hpos.le hle

theorem columns_of_moves (hcolumns : Columns market) (hsound : Sound process)
    (hmoves : Moves newId market process outcome) : Columns outcome.market := by
  cases hmoves with
  | listed hcolumn =>
      intro listing hlisting
      rcases List.mem_append.mp hlisting with hold | hnew
      · exact hcolumns listing hold
      · obtain rfl := List.mem_singleton.mp hnew
        exact ⟨hsound, (abs_lt.mp hcolumn).2⟩
  | @purchased input listing writes quantity hfits =>
      obtain ⟨_, buyQuantity, _, _, _, hpos, hle, rfl, _⟩ := hsound.2.2
      intro row hrow
      obtain ⟨old, hold, rfl⟩ := List.mem_map.mp hrow
      split
      · exact (soldListing_columns hsound.2.1 hpos hle).1
      · exact hcolumns old hold
  | cancelled =>
      intro row hrow
      obtain ⟨old, hold, rfl⟩ := List.mem_map.mp hrow
      split
      · exact hsound.2
      · exact hcolumns old hold
  | removed => exact hcolumns
  | invoiceCancelled hcancel =>
      obtain ⟨_, _, _, _, rfl⟩ := InvoiceRefund.cancelInvoice_eq_ok hcancel
      exact hcolumns
  | _ => exact hcolumns

theorem soldTotal_append {db : Database} {now : Timestamp} {sales : List Sale} {sale : Sale}
    {flag : Bool} (id : Uuid) :
    soldTotal { db := db, now := now, sales := sales ++ [sale], notANumber := flag } id =
      selectedSum (fun sale => sale.listingId == id) Sale.quantity sales +
        if sale.listingId = id then sale.quantity else 0 := by
  rw [soldTotal, selectedSum_append, selectedSum_cons]
  simp [selectedSum]

theorem remaining_soldListing {listing : SecondaryListing} {buyQuantity : Decimal}
    (hactive : listing.status = .active) :
    remaining (soldListing listing buyQuantity) =
      listing.quantity - listingDecrease listing (soldListing listing buyQuantity) := by
  rw [remaining, listingDecrease, soldListing]
  split
  · simp
  · rw [if_neg (by rw [hactive]; decide), if_neg (by rw [hactive]; decide)]
    ring

/-- A purchase that leaves no tie sells what it takes from the listing. -/
theorem declines_of_purchase {db : Database} {sales : List Sale} {now : Timestamp} {flag : Bool}
    {input : PurchaseInput} {listing : SecondaryListing} {writes : PurchaseWrites} {quantity : ℤ}
    (hactive : listing.status = .active) (hcolumn : AmountColumn listing.quantity)
    (hpurchase : PurchaseOf input listing (.transferred writes quantity))
    (hstored : storedListing db listing.id = some listing)
    (hguard : LeavesNoTie listing (requestedQuantity input listing)) :
    Declines { db := db, now := now, sales := sales, notANumber := flag }
      { db := commitPurchase db writes, now := now, sales := sales ++ [⟨listing.id, quantity⟩]
        notANumber := flag } := by
  have hid := id_of_purchaseOf hpurchase
  obtain ⟨_, buyQuantity, _, _, hrequested, hpos, hle, hwrites, hquantity⟩ := hpurchase
  have hlisting : writes.listing = soldListing listing buyQuantity := by rw [hwrites]; rfl
  rw [hrequested] at hguard
  have hdecrease : listingDecrease listing (soldListing listing buyQuantity) =
      toFixed4 buyQuantity := (listingDecrease_eq_iff hcolumn hactive hpos hle).mpr hguard
  have hrest : remaining (soldListing listing buyQuantity) =
      listing.quantity - listingDecrease listing (soldListing listing buyQuantity) :=
    remaining_soldListing hactive
  intro id row hrow
  have hsaved : storedListing (commitPurchase db writes) id =
      some (if writes.listing.id = id then writes.listing else row) :=
    storedListing_save rfl hrow
  refine ⟨_, hsaved, ?_⟩
  rw [soldTotal_append, hid]
  split
  · rename_i hsame
    subst hsame
    obtain rfl := Option.some.inj (hrow.symm.trans hstored)
    have hwas : remaining row = row.quantity := by
      rw [remaining, if_neg (by rw [hactive]; decide)]
    rw [hlisting, hrest, hdecrease, hquantity, hwas, soldTotal]
    dsimp only
    refine ⟨fun hsold => ?_, (soldListing_columns hcolumn hpos hle).2, by omega⟩
    rw [hactive] at hsold
    cases hsold
  · rw [soldTotal]
    dsimp only
    exact ⟨fun hsold => hsold, le_rfl, by omega⟩

/-- A cancellation that finds its listing unsold and no larger than it read it. -/
theorem declines_of_cancel {db : Database} {sales : List Sale} {now : Timestamp} {flag : Bool}
    {entity : SecondaryListing}
    (hguard : ∀ row ∈ storedListing db entity.id,
      row.status ≠ .sold ∧ entity.quantity ≤ row.quantity)
    (hcancelled : entity.status = .cancelled) :
    Declines { db := db, now := now, sales := sales, notANumber := flag }
      { db := saveListing db entity, now := now, sales := sales, notANumber := flag } := by
  intro id row hrow
  have hsaved : storedListing (saveListing db entity) id =
      some (if entity.id = id then entity else row) := storedListing_save rfl hrow
  refine ⟨_, hsaved, ?_⟩
  split
  · rename_i hsame
    subst hsame
    obtain ⟨hunsold, hless⟩ := hguard row hrow
    refine ⟨fun hsold => absurd hsold hunsold, hless, ?_⟩
    rw [remaining, remaining, if_neg hunsold, if_neg (by rw [hcancelled]; decide)]
    simpa [soldTotal] using hless
  · exact ⟨fun hsold => hsold, le_rfl, by simp [soldTotal]⟩

/-- Without a purchase or a cancellation the listings stay as they are. -/
theorem declines_of_stored {before after : Market} (hsales : after.sales = before.sales)
    (hstored : ∀ id listing, storedListing before.db id = some listing →
      storedListing after.db id = some listing) : Declines before after := by
  intro id listing hlisting
  refine ⟨listing, hstored id listing hlisting, fun hsold => hsold, le_rfl, ?_⟩
  rw [soldTotal, soldTotal, hsales]
  omega

theorem declines_of_moves (hsound : Sound process)
    (hknows : ∀ listing ∈ lockedListing process,
      storedListing market.db listing.id = some listing)
    (hcancel : ∀ entity ∈ cancelling process, ∀ row ∈ storedListing market.db entity.id,
      row.status ≠ .sold ∧ entity.quantity ≤ row.quantity)
    (hpurchase : ∀ purchase ∈ purchasing process, LeavesNoTie purchase.1 purchase.2)
    (hmoves : Moves newId market process outcome) : Declines market outcome.market := by
  cases hmoves with
  | listed hcolumn => exact declines_of_stored rfl fun _ _ => storedListing_insert
  | listedNotANumber => exact declines_of_stored rfl fun _ _ hstored => hstored
  | purchased hfits =>
      exact declines_of_purchase hsound.1 hsound.2.1 hsound.2.2 (hknows _ rfl) (hpurchase _ rfl)
  | purchasedNotANumber => exact declines_of_stored rfl fun _ _ hstored => hstored
  | cancelled => exact declines_of_cancel (hcancel _ rfl) hsound.1
  | removed => exact declines_of_stored rfl fun _ _ hstored => hstored
  | invoiceCancelled hcancelled =>
      obtain ⟨_, _, _, _, rfl⟩ := InvoiceRefund.cancelInvoice_eq_ok hcancelled
      exact declines_of_stored rfl fun _ _ hstored => hstored
  | _ => exact Declines.refl _

/-- Numbers stay numbers. -/
theorem number_of_moves (hsound : Sound process)
    (hpurchase : ∀ purchase ∈ purchasing process, LeavesNoTie purchase.1 purchase.2)
    (hlists : listsNotANumber process = false) (hmoves : Moves newId market process outcome) :
    outcome.market.notANumber = market.notANumber := by
  cases hmoves with
  | listedNotANumber => cases hlists
  | purchasedNotANumber =>
      have hnumber := hpurchase _ rfl
      have hnone := hsound.2.2
      rw [PurchaseOf] at hnone
      dsimp only at hnumber
      rw [hnone] at hnumber
      exact hnumber.elim
  | _ => rfl

end Steps

/-! ## Runs -/

/-- What the condition ensures of one step. -/
structure Kept (before after : World) : Prop where
  invariant : Invariant after
  declines : Declines before.market after.market
  number : after.market.notANumber = before.market.notANumber

theorem invariant_of_step {before after : World} {event : Event} (hinvariant : Invariant before)
    (hstep : step before event = some after) : Invariant after := by
  obtain ⟨_, ⟨request, _, rfl⟩ | ⟨thrown, rfl⟩ | ⟨newId, outcome, hready, _, _, hmoves, rfl⟩⟩ :=
    step_cases hstep
  · refine hinvariant.quiet event.process event.now ?_ ?_
    · cases request <;> trivial
    · cases request <;> exact fun _ => rfl
  · exact hinvariant.quiet event.process event.now trivial fun _ => rfl
  · have hsound := hinvariant.sound event.process
    have hknows := hinvariant.knows event.process
    have hcolumns : Columns (before.market.at event.now) := hinvariant.columns
    refine ⟨columns_of_moves hcolumns hsound hmoves, fun id => ?_⟩
    refine (known_at (hinvariant.known id) event.now).step (fun hneeds => ?_)
      (keeps_of_moves id hcolumns hsound hknows hmoves)
    exact hready.2 id (of_decide_eq_true hneeds)

theorem kept_of_step {before after : World} {event : Event} (hinvariant : Invariant before)
    (hguard : SavesCurrent before event) (hstep : step before event = some after) :
    Kept before after := by
  have hnext := invariant_of_step hinvariant hstep
  obtain ⟨_, ⟨request, _, rfl⟩ | ⟨thrown, rfl⟩ | ⟨newId, outcome, _, _, haction, hmoves, rfl⟩⟩ :=
    step_cases hstep
  · exact ⟨hnext, declines_of_stored rfl fun _ _ hstored => hstored, rfl⟩
  · exact ⟨hnext, declines_of_stored rfl fun _ _ hstored => hstored, rfl⟩
  · have hadvancing : before.process event.process ∈ advancing before event := by
      rw [advancing, haction]
      rfl
    obtain ⟨hcancel, hpurchase, hlists⟩ := hguard _ hadvancing
    have hsound := hinvariant.sound event.process
    have htime : Declines before.market (before.market.at event.now) :=
      declines_of_stored rfl fun _ _ hstored => hstored
    have hnumber : outcome.market.notANumber = (before.market.at event.now).notANumber :=
      number_of_moves hsound hpurchase hlists hmoves
    exact ⟨hnext, htime.trans
      (declines_of_moves hsound (hinvariant.knows event.process) hcancel hpurchase hmoves), hnumber⟩

theorem kept_of_run {first last : World} {events : List Event} (hinvariant : Invariant first)
    (hrun : GuardedRun step SavesCurrent first events last) : Kept first last := by
  induction hrun with
  | nil world => exact ⟨hinvariant, Declines.refl _, rfl⟩
  | cons hguard hstep _ ih =>
      have hkept := kept_of_step hinvariant hguard hstep
      have hrest := ih hkept.invariant
      exact ⟨hrest.invariant, hkept.declines.trans hrest.declines,
        hrest.number.trans hkept.number⟩

/-- From every state that is reached under the condition, every listing that is sold
stays sold, no quantity grows, and no more is sold from a listing than it has. -/
theorem listing_declines {first middle last : World} {before after : List Event}
    (hinitial : Initial first) (hbefore : GuardedRun step SavesCurrent first before middle)
    (hafter : GuardedRun step SavesCurrent middle after last) :
    last.market.notANumber = middle.market.notANumber ∧
      ∀ id listing, storedListing middle.market.db id = some listing →
        ∃ kept, storedListing last.market.db id = some kept ∧
          (listing.status = .sold → kept.status = .sold) ∧ kept.quantity ≤ listing.quantity ∧
          soldTotal last.market id - soldTotal middle.market id ≤ listing.quantity := by
  have hmiddle := (kept_of_run (invariant_initial hinitial) hbefore).invariant
  have hkept := kept_of_run hmiddle hafter
  refine ⟨hkept.number, fun id listing hlisting => ?_⟩
  obtain ⟨kept, hstored, hsold, hquantity, htotal⟩ := hkept.declines id listing hlisting
  have hrest : 0 ≤ remaining kept := by
    have hcolumn := hkept.invariant.columns kept (mem_of_storedListing hstored)
    rw [remaining]
    split
    · exact le_rfl
    · exact hcolumn.1
  have hwas : remaining listing ≤ listing.quantity := by
    have hcolumn := hmiddle.columns listing (mem_of_storedListing hlisting)
    rw [remaining]
    split
    · exact hcolumn.1
    · exact le_rfl
  exact ⟨kept, hstored, hsold, hquantity, by omega⟩

/-! ## A cancellation that saves after a purchase -/

def advances (index : ℕ) (count : ℕ) : List Event :=
  List.replicate count ⟨index, 0, .advance (21 + index)⟩

/-- The cancellation up to its save. -/
def cancelRead (index : ℕ) : List Event :=
  ⟨index, 0, .start (.cancelListing ⟨20, "GINVESTOR", some 4⟩)⟩ :: advances index 1

def purchase (index : ℕ) (quantity : Decimal) : List Event :=
  ⟨index, 0, .start (.buyListing (purchaseOf quantity))⟩ :: advances index 3

def market : World := { market := { db := marketDatabase, now := 0 } }

def storedRow (world : World) (id : Uuid) : Option (ListingStatus × ℤ) :=
  (storedListing world.market.db id).map fun listing => (listing.status, listing.quantity)

/-- The listing is sold out, and then cancelled. -/
theorem cancelAfterSale_reopens : ∃ middle last,
    Run step market (cancelRead 0 ++ purchase 1 5) middle ∧ Run step middle (advances 0 1) last ∧
      storedRow middle 20 = some (.sold, 50000) ∧ storedRow last 20 = some (.cancelled, 50000) := by
  have hbefore : (exec step market (cancelRead 0 ++ purchase 1 5)).map (storedRow · 20) =
      some (some (.sold, 50000)) := by
    decide +kernel
  have hafter : (exec step market (cancelRead 0 ++ purchase 1 5 ++ advances 0 1)).map
      (storedRow · 20) = some (some (.cancelled, 50000)) := by
    decide +kernel
  obtain ⟨last, hlast, hcancelled⟩ := exists_run hafter
  obtain ⟨middle, hmiddle, _, hsave⟩ := hlast.last_event
  rw [hmiddle, Option.map_some, Option.some.injEq] at hbefore
  exact ⟨middle, last, run_of_exec hmiddle, .cons trivial hsave (.nil last), hbefore, hcancelled⟩

theorem initial_market : Initial market where
  columns := by
    intro listing hlisting
    obtain rfl := List.mem_singleton.mp hlisting
    exact ⟨by decide, by decide⟩
  noListingHolder := fun _ => rfl
  allIdle := fun _ => rfl

/-- A part is bought, and then the seller cancels the rest. -/
theorem cancelAfterRead_declines : ∃ last,
    GuardedRun step SavesCurrent market (purchase 1 2 ++ (cancelRead 0 ++ advances 0 1)) last ∧
      ∃ kept, storedListing last.market.db 20 = some kept ∧ kept.quantity ≤ 50000 ∧
        soldTotal last.market 20 - soldTotal market.market 20 ≤ 50000 := by
  have hexec : (execGuarded step SavesCurrent market
      (purchase 1 2 ++ (cancelRead 0 ++ advances 0 1))).map (storedRow · 20) =
        some (some (.cancelled, 30000)) := by
    decide +kernel
  obtain ⟨last, hrun, _⟩ := exists_guardedRun hexec
  obtain ⟨_, hdeclines⟩ := listing_declines initial_market (.nil market) hrun
  obtain ⟨kept, hkept, _, hquantity, hsold⟩ := hdeclines 20 listedHolding rfl
  exact ⟨last, hrun, kept, hkept, hquantity, hsold⟩

end StellarSettle.ListingSales
