import StellarSettle.Investments.InvoiceRefund
import StellarSettle.Investments.Purchase

/-!
# What sellers hold and list

What a seller has for sale is the quantity of his active listings that have not
expired; what he can deliver is the sum of his confirmed investments.  The results
below say how a listing, a purchase, a cancellation and a refund change the two.
-/

namespace StellarSettle.Holdings

open StellarSettle.Checks
open StellarSettle.DecimalJs
open StellarSettle.DecimalRounding
open StellarSettle.Entities
open StellarSettle.InvoiceRefund
open StellarSettle.KeyedRows
open StellarSettle.MarketQuantity
open StellarSettle.Purchase
open StellarSettle.SecondaryMarket

/-! ## The two sums -/

/-- What the user holds in confirmed investments. -/
def held (investments : List Investment) (userId : Uuid) : ℤ :=
  selectedSum (ofBuyer userId) Investment.investmentAmount investments

/-- The listing can still be bought from the user. -/
def onSale (now : Timestamp) (userId : Uuid) (listing : SecondaryListing) : Bool :=
  listing.status == .active && listing.sellerId == some userId && !isExpired listing now

/-- What the user has for sale. -/
def listed (listings : List SecondaryListing) (now : Timestamp) (userId : Uuid) : ℤ :=
  selectedSum (onSale now userId) SecondaryListing.quantity listings

/-- The wallet of each user. -/
structure Accounts where
  walletOf : Uuid → String
  distinct : Function.Injective walletOf
  named : ∀ userId, walletOf userId ≠ ""

/-- The listing names the user and the wallet of one account. -/
def ListedBy (accounts : Accounts) (userId : Uuid) (listing : SecondaryListing) : Prop :=
  listing.sellerId = some userId ∧ listing.sellerWallet = accounts.walletOf userId

/-- The investment is without a wallet, or has the wallet of its investor. -/
def HeldWithWallet (accounts : Accounts) (row : Investment) : Prop :=
  ∀ wallet ∈ row.investorWallet, wallet = accounts.walletOf row.investorId

variable {accounts : Accounts} {userId : Uuid}

theorem held_nonneg {investments : List Investment}
    (hamounts : ∀ row ∈ investments, AmountColumn row.investmentAmount) :
    0 ≤ held investments userId := by
  refine List.sum_nonneg fun amount hamount => ?_
  obtain ⟨row, hrow, rfl⟩ := List.mem_map.mp hamount
  exact (hamounts row (List.mem_of_mem_filter hrow)).1

/-- As time goes on, fewer listings are for sale. -/
theorem listed_antitone {listings : List SecondaryListing} {now later : Timestamp}
    (hcolumns : ∀ listing ∈ listings, AmountColumn listing.quantity) (hlater : now ≤ later) :
    listed listings later userId ≤ listed listings now userId := by
  induction listings with
  | nil => exact le_rfl
  | cons listing rest ih =>
      obtain ⟨hcolumn, hrest⟩ := List.forall_mem_cons.mp hcolumns
      rw [listed, listed, selectedSum_cons, selectedSum_cons]
      refine add_le_add ?_ (ih hrest)
      have hstill : onSale later userId listing = true → onSale now userId listing = true := by
        simp only [onSale, isExpired, Bool.and_eq_true, Bool.not_eq_true', decide_eq_false_iff_not]
        rintro ⟨hown, hunexpired⟩
        exact ⟨hown, fun hexpired => hunexpired (hexpired.trans_le hlater)⟩
      split
      · rename_i honSale
        rw [if_pos (hstill honSale)]
      · split
        · exact hcolumn.1
        · exact le_rfl

/-- Both ways to name the account select the same investments. -/
theorem ofSeller_iff {listing : SecondaryListing} {row : Investment}
    (hlisted : ListedBy accounts userId listing) (hrow : HeldWithWallet accounts row) :
    ofSeller listing row = ofBuyer userId row := by
  obtain ⟨hid, hwallet⟩ := hlisted
  rw [ofSeller, ofBuyer, hid, hwallet, Bool.and_comm]
  congr 1
  rw [Bool.eq_iff_iff, Bool.or_eq_true, Bool.and_eq_true, beq_iff_eq, beq_iff_eq, beq_iff_eq,
    Option.some.injEq]
  constructor
  · rintro (⟨_, hsame⟩ | hsame)
    · exact (accounts.distinct (hrow _ hsame)).symm
    · exact hsame.symm
  · intro hsame
    exact .inr hsame.symm

/-! ## A purchase -/

/-- The loop takes no more than the rounded quantity. -/
theorem taken_le {investments : List Investment} {remaining : Decimal} {whole : ℤ}
    (hamounts : ∀ row ∈ investments, AmountColumn row.investmentAmount)
    (hwithin : Within 0 (2 * whole + 1) remaining) (hbound : whole ≤ 10 ^ 18) :
    taken investments (deductHoldings investments remaining) ≤ whole := by
  have hremaining : 0 ≤ remaining := by
    have hlow := hwithin.1
    rwa [ofHalves, Int.cast_zero, zero_div] at hlow
  have hwhole : 0 ≤ whole := by
    have hhalves := hwithin.1.trans hwithin.2
    rw [ofHalves_le_ofHalves] at hhalves
    omega
  induction investments generalizing remaining whole with
  | nil => exact hwhole
  | cons investment rest ih =>
      obtain ⟨hamount, hrest⟩ := List.forall_mem_cons.mp hamounts
      have hnonneg := hamount.1
      rw [deductHoldings]
      split
      · exact hwhole
      · dsimp only
        split
        · -- The whole row is taken.
          rename_i hfull
          have hle : investment.investmentAmount ≤ whole := by
            have hhalves := hfull.trans hwithin.2
            rw [ofUnits_eq_ofHalves, ofHalves_le_ofHalves] at hhalves
            omega
          have hnext : Within 0 (2 * (whole - investment.investmentAmount) + 1)
              (minus remaining (ofUnits investment.investmentAmount)) := by
            rw [minus]
            refine Within.rounded ⟨?_, ?_⟩ (sub_nonneg.mpr hfull) (by rw [precision]; omega)
            · rw [ofHalves, Int.cast_zero, zero_div]
              exact sub_nonneg.mpr hfull
            · have hsplit : 2 * (whole - investment.investmentAmount) + 1 =
                  (2 * whole + 1) - 2 * investment.investmentAmount := by ring
              rw [hsplit, ofHalves_sub, ofUnits_eq_ofHalves]
              exact sub_le_sub_right hwithin.2 _
          have htaken := ih hrest hnext (by omega)
            (roundSignificant_nonneg precision (sub_nonneg.mpr hfull)) (by omega)
          rw [taken]
          dsimp only
          omega
        · -- The loop ends in this row.
          rename_i hfull
          have hless : remaining < ofUnits investment.investmentAmount := not_le.mp hfull
          have hrest : 0 ≤ ofUnits investment.investmentAmount - remaining :=
            (sub_pos.mpr hless).le
          have hrounded := roundSignificant_nonneg precision hrest
          have hleft : investment.investmentAmount - whole ≤
              toFixed4 (minus (ofUnits investment.investmentAmount) remaining) := by
            have hleft : Within (2 * (investment.investmentAmount - whole) - 1)
                (2 * investment.investmentAmount)
                (ofUnits investment.investmentAmount - remaining) := by
              constructor
              · have hsplit : 2 * (investment.investmentAmount - whole) - 1 =
                    2 * investment.investmentAmount - (2 * whole + 1) := by ring
                rw [hsplit, ofHalves_sub, ofUnits_eq_ofHalves]
                exact sub_le_sub_left hwithin.2 _
              · rw [← ofUnits_eq_ofHalves]
                exact sub_le_self _ hremaining
            refine le_toFixed4 (hleft.rounded hrest ?_).1 hrounded
            have hcolumn := hamount.2
            rw [precision]
            omega
          have hnone : taken rest [] = 0 := by cases rest <;> rfl
          rw [deductHoldings_nonpos le_rfl, taken, hnone]
          dsimp only
          omega

section Number

variable {db : Database} {input : PurchaseInput} {listing : SecondaryListing}
  {buyQuantity : Decimal} {investmentId : Uuid} {now : Timestamp}

theorem toFixed4_le_of_le (hquantity : AmountColumn listing.quantity) (hpos : 0 < buyQuantity)
    (hle : buyQuantity ≤ ofUnits listing.quantity) : toFixed4 buyQuantity ≤ 10 ^ 18 :=
  (roundPlaces_le hpos.le hle).trans hquantity.2.le

theorem debited_le (hrows : MarketRows db listing) (hpos : 0 < buyQuantity)
    (hle : buyQuantity ≤ ofUnits listing.quantity) :
    debited db listing buyQuantity ≤ toFixed4 buyQuantity := by
  rw [debited, sellerInvestments_eq hrows.named]
  refine taken_le (fun row hrow => hrows.amounts row (List.mem_of_mem_filter hrow)) ⟨?_, ?_⟩
    (toFixed4_le_of_le hrows.quantity hpos hle)
  · rw [ofHalves, Int.cast_zero, zero_div]
    exact hpos.le
  · exact (within_toFixed4 hpos.le).2

/-- A listing that is bought in part loses the rounded quantity, or one unit less. -/
theorem le_listingDecrease (hquantity : AmountColumn listing.quantity)
    (hactive : listing.status = .active) (hpos : 0 < buyQuantity)
    (hle : buyQuantity ≤ ofUnits listing.quantity) :
    toFixed4 buyQuantity - 1 ≤ listingDecrease listing (soldListing listing buyQuantity) := by
  rw [soldListing]
  split
  · rename_i hall
    rw [listingDecrease, if_pos rfl, hall, toFixed4_ofUnits]
    omega
  · rw [listingDecrease, if_neg (by rw [hactive]; decide)]
    dsimp only
    have hrest : 0 ≤ ofUnits listing.quantity - buyQuantity := sub_nonneg.mpr hle
    have hwhole : 0 ≤ toFixed4 buyQuantity := toFixed4_nonneg hpos.le
    have hleft : toFixed4 (minus (ofUnits listing.quantity) buyQuantity) ≤
        listing.quantity - toFixed4 buyQuantity + 1 := by
      have hwithin : Within 0 (2 * (listing.quantity - toFixed4 buyQuantity + 1))
          (ofUnits listing.quantity - buyQuantity) := by
        constructor
        · rw [ofHalves, Int.cast_zero, zero_div]
          exact hrest
        · have hlow := (within_toFixed4 hpos.le).1
          calc ofUnits listing.quantity - buyQuantity
              ≤ ofHalves (2 * listing.quantity) - ofHalves (2 * toFixed4 buyQuantity - 1) := by
                rw [ofUnits_eq_ofHalves]
                exact sub_le_sub_left hlow _
            _ = ofHalves (2 * listing.quantity - (2 * toFixed4 buyQuantity - 1)) :=
                (ofHalves_sub _ _).symm
            _ ≤ ofHalves (2 * (listing.quantity - toFixed4 buyQuantity + 1)) :=
                ofHalves_le_ofHalves.mpr (by omega)
      refine toFixed4_le (hwithin.rounded hrest ?_).2 (roundSignificant_nonneg precision hrest)
      have hcolumn := hquantity.2
      rw [precision]
      omega
    omega

theorem listingDecrease_nonneg (hquantity : AmountColumn listing.quantity)
    (hactive : listing.status = .active) (hpos : 0 < buyQuantity)
    (hle : buyQuantity ≤ ofUnits listing.quantity) :
    0 ≤ listingDecrease listing (soldListing listing buyQuantity) := by
  rw [soldListing]
  split
  · rw [listingDecrease, if_pos rfl]
    exact hquantity.1
  · rw [listingDecrease, if_neg (by rw [hactive]; decide), sub_nonneg]
    exact (toFixed4_minus_mem hquantity hpos.le hle).2

/-- The seller's holding loses no more than the listing, unless a quantity that is rounded
up leaves a tie in the listing and none in the holding. -/
theorem debited_le_listingDecrease (hrows : MarketRows db listing)
    (hactive : listing.status = .active) (hpos : 0 < buyQuantity)
    (hle : buyQuantity ≤ ofUnits listing.quantity)
    (htie : RoundsUp buyQuantity → buyQuantity < ofUnits listing.quantity →
      HalfUnit (minus (ofUnits listing.quantity) buyQuantity) →
      StopsOnHalf (sellerInvestments db.investments listing.sellerWallet listing.sellerId)
        buyQuantity) :
    debited db listing buyQuantity ≤
      listingDecrease listing (soldListing listing buyQuantity) := by
  have hdebited := debited_le hrows hpos hle
  by_cases hleaves : RoundsUp buyQuantity ∧ buyQuantity < ofUnits listing.quantity ∧
      HalfUnit (minus (ofUnits listing.quantity) buyQuantity)
  · obtain ⟨hup, hpart, hhalf⟩ := hleaves
    have hless : debited db listing buyQuantity ≠ toFixed4 buyQuantity := fun hall =>
      ((debited_eq_iff hrows hpos (toFixed4_le_of_le hrows.quantity hpos hle)).mp hall).2 hup
        (htie hup hpart hhalf)
    have hdecrease := le_listingDecrease hrows.quantity hactive hpos hle
    omega
  · have hdecrease := (listingDecrease_eq_iff hrows.quantity hactive hpos hle).mpr
      fun hup hpart hhalf => hleaves ⟨hup, hpart, hhalf⟩
    omega

theorem credited_nonneg {table : List Investment} {input : BuyListingInput}
    (hamounts : ∀ row ∈ table, AmountColumn row.investmentAmount) (hpos : 0 < buyQuantity) :
    0 ≤ credited table input buyQuantity investmentId := by
  have hfind : (table.find? fun row =>
      row.investorId == input.buyerId && row.status == .confirmed) =
        table.find? (ofBuyer input.buyerId) := rfl
  rw [credited, creditBuyer, hfind]
  cases hheld : table.find? (ofBuyer input.buyerId) with
  | none =>
      simp only [Option.map_none, Option.getD_none, sub_zero]
      exact toFixed4_nonneg hpos.le
  | some held =>
      obtain ⟨hnonneg, hless⟩ := hamounts held (List.mem_of_find?_eq_some hheld)
      have hsum : 0 ≤ ofUnits held.investmentAmount + buyQuantity :=
        add_nonneg (ofUnits_nonneg.mpr hnonneg) hpos.le
      have hkept : ofUnits held.investmentAmount ≤
          plus (ofUnits held.investmentAmount) buyQuantity :=
        le_roundSignificant hnonneg (hless.trans (by norm_num [precision]))
          (le_add_of_nonneg_right hpos.le)
      simp only [Option.map_some, Option.getD_some, sub_nonneg]
      refine le_toFixed4 (le_trans ?_ hkept) (roundSignificant_nonneg precision hsum)
      rw [ofUnits_eq_ofHalves, ofHalves_le_ofHalves]
      omega

/-- The debit leaves the rows of everyone but the seller. -/
theorem filter_debitedRows {sellerId : Uuid} (hrows : MarketRows db listing)
    (hlisted : ListedBy accounts sellerId listing)
    (hwallets : ∀ row ∈ db.investments, HeldWithWallet accounts row) (hother : sellerId ≠ userId) :
    (debitedRows db listing buyQuantity).filter (ofBuyer userId) =
      db.investments.filter (ofBuyer userId) := by
  have hseller : ∀ row ∈ db.investments, ofSeller listing row = true →
      ofBuyer userId row = false := by
    intro row hrow hown
    rw [ofSeller_iff hlisted (hwallets row hrow), ofBuyer, Bool.and_eq_true, beq_iff_eq] at hown
    rw [ofBuyer, hown.1, Bool.and_eq_false_iff]
    exact .inl (by simpa using hother)
  rw [debitedRows, sellerInvestments_eq hrows.named]
  have hsaved : ∀ entity ∈ deductHoldings (db.investments.filter (ofSeller listing)) buyQuantity,
      ∃ row ∈ db.investments, ofSeller listing row = true ∧ entity.id = row.id ∧
        ofBuyer userId entity = ofBuyer userId row := by
    intro entity hentity
    obtain ⟨row, hrow, amount, _, rfl⟩ := mem_deductHoldings
      (fun row hrow => hrows.amounts row (List.mem_of_mem_filter hrow)) hentity
    obtain ⟨hstored, hown⟩ := List.mem_filter.mp hrow
    exact ⟨row, hstored, hown, rfl, rfl⟩
  refine filter_foldl_saveRow_other (fun entity hentity => ?_)
    fun entity hentity row hrow hkey => ?_
  · obtain ⟨row, hrow, hown, _, hsame⟩ := hsaved entity hentity
    exact hsame.trans (hseller row hrow hown)
  · obtain ⟨old, hold, hown, hid, _⟩ := hsaved entity hentity
    obtain rfl : row = old :=
      List.inj_on_of_nodup_map hrows.keys hrow hold (hkey.trans hid)
    exact hseller row hrow hown

/-- The credit leaves the rows of everyone but the buyer. -/
theorem filter_creditedRows (hrows : MarketRows db listing)
    (hfresh : ∀ row ∈ db.investments, row.id ≠ investmentId) (hother : input.buyerId ≠ userId) :
    (saveInvestment (debitedRows db listing buyQuantity)
        (creditBuyer (debitedRows db listing buyQuantity) (input.withQuantity none) buyQuantity
          investmentId)).filter (ofBuyer userId) =
      (debitedRows db listing buyQuantity).filter (ofBuyer userId) := by
  set table := debitedRows db listing buyQuantity with htable
  have hkeys : (table.map Investment.id).Nodup := nodup_foldl_saveInvestment hrows.keys
  have hnot : ∀ row, row.investorId = input.buyerId → ofBuyer userId row = false := by
    intro row hbuyer
    rw [ofBuyer, hbuyer, Bool.and_eq_false_iff]
    exact .inl (by simpa using hother)
  have hfind : (table.find? fun row =>
      row.investorId == (input.withQuantity none).buyerId && row.status == .confirmed) =
        table.find? (ofBuyer input.buyerId) := rfl
  rw [creditBuyer, hfind]
  split
  · rename_i buyerRow hheld
    have hown : ofBuyer input.buyerId buyerRow = true := List.find?_some hheld
    rw [ofBuyer, Bool.and_eq_true, beq_iff_eq] at hown
    refine filter_saveRow_other (hnot _ hown.1) fun row hrow hkey => ?_
    obtain rfl : row = buyerRow :=
      List.inj_on_of_nodup_map hkeys hrow (List.mem_of_find?_eq_some hheld) hkey
    exact hnot row hown.1
  · refine filter_saveRow_other (hnot _ rfl) fun row hrow hkey => ?_
    exact absurd hkey (mem_debitedRows hrows hfresh hrow).2

/-- Only the seller of the listing loses, and only what is debited. -/
theorem held_purchase {sellerId : Uuid} (hrows : MarketRows db listing)
    (hfresh : ∀ row ∈ db.investments, row.id ≠ investmentId)
    (hlisted : ListedBy accounts sellerId listing)
    (hwallets : ∀ row ∈ db.investments, HeldWithWallet accounts row) (hpos : 0 < buyQuantity) :
    held db.investments userId - (if sellerId = userId then debited db listing buyQuantity else 0) ≤
      held (commitPurchase db
        (numberWrites db input listing buyQuantity investmentId now)).investments userId := by
  have hdebit : held (debitedRows db listing buyQuantity) userId =
      held db.investments userId -
        (if sellerId = userId then debited db listing buyQuantity else 0) := by
    split
    · rename_i hseller
      subst hseller
      exact selectedSum_debitedRows hrows (fun _ _ => rfl) fun row hrow hown =>
        (ofSeller_iff hlisted (hwallets row hrow)).symm.trans hown
    · rename_i hother
      rw [sub_zero, held, held, selectedSum, selectedSum,
        filter_debitedRows hrows hlisted hwallets hother]
  have hcredit : held (debitedRows db listing buyQuantity) userId ≤
      held (commitPurchase db
        (numberWrites db input listing buyQuantity investmentId now)).investments userId := by
    by_cases hbuyer : input.buyerId = userId
    · subst hbuyer
      rw [held, held, selectedSum_creditedRows hrows hfresh fun _ hown => hown]
      exact le_add_of_nonneg_right
        (credited_nonneg (fun row hrow => (mem_debitedRows hrows hfresh hrow).1) hpos)
    · rw [held, held, selectedSum, selectedSum, investments_numberWrites,
        filter_creditedRows hrows hfresh hbuyer]
  exact hdebit.symm.le.trans hcredit

/-- Only the listing that is bought changes, while it can be bought at all. -/
theorem listed_purchase {sellerId : Uuid} {later : Timestamp}
    (hkeys : (db.listings.map SecondaryListing.id).Nodup) (hstored : listing ∈ db.listings)
    (hactive : listing.status = .active) (hlisted : ListedBy accounts sellerId listing) :
    listed (commitPurchase db
        (numberWrites db input listing buyQuantity investmentId now)).listings later userId =
      listed db.listings later userId -
        (if sellerId = userId ∧ isExpired listing later = false then
          listingDecrease listing (soldListing listing buyQuantity) else 0) := by
  set entity := soldListing listing buyQuantity with hentity
  have hsame : entity.id = listing.id ∧ entity.sellerId = some sellerId ∧
      isExpired entity later = isExpired listing later ∧
      (entity.status = .sold ∨ entity.status = .active) := by
    rw [hentity, soldListing]
    split
    · exact ⟨rfl, hlisted.1, rfl, .inl rfl⟩
    · exact ⟨rfl, hlisted.1, rfl, .inr hactive⟩
  obtain ⟨hid, hseller, hexpiry, hstatus⟩ := hsame
  have hsaved : (commitPurchase db
      (numberWrites db input listing buyQuantity investmentId now)).listings =
        saveRow SecondaryListing.id db.listings entity := (saveRow_of_mem hstored hid).symm
  rw [listed, listed, hsaved, selectedSum_saveRow hkeys hstored hid, selectedPart, selectedPart,
    onSale, onSale, hactive, hlisted.1, hseller, hexpiry, listingDecrease]
  by_cases hown : sellerId = userId ∧ isExpired listing later = false
  · obtain ⟨rfl, hunexpired⟩ := hown
    rcases hstatus with hsold | hstill
    · simp [hunexpired, hsold]
    · simp only [hunexpired, hstill, beq_self_eq_true, Bool.and_self, Bool.not_false, and_self,
        if_true, reduceCtorEq, if_false]
      ring
  · have hneither : ∀ status : Bool,
        (status && some sellerId == some userId && !isExpired listing later) = false := by
      intro status
      rw [Bool.and_assoc, Bool.and_eq_false_iff]
      refine .inr (Bool.eq_false_iff.mpr fun hboth => hown ?_)
      simpa using hboth
    rw [hneither, hneither, if_neg hown]
    simp

end Number

/-! ## Rows of accounts -/

/-- Every row has its own key, an amount that fits its column, and one account. -/
structure Consistent (accounts : Accounts) (db : Database) : Prop where
  investmentKeys : (db.investments.map Investment.id).Nodup
  amounts : ∀ row ∈ db.investments, AmountColumn row.investmentAmount
  wallets : ∀ row ∈ db.investments, HeldWithWallet accounts row
  listingKeys : (db.listings.map SecondaryListing.id).Nodup
  quantities : ∀ listing ∈ db.listings, AmountColumn listing.quantity
  sellers : ∀ listing ∈ db.listings, ∃ sellerId, ListedBy accounts sellerId listing

/-- Every seller holds what he has for sale. -/
def Covered (db : Database) (now : Timestamp) : Prop :=
  ∀ userId, listed db.listings now userId ≤ held db.investments userId

theorem ListedBy.named {sellerId : Uuid} {listing : SecondaryListing}
    (hlisted : ListedBy accounts sellerId listing) :
    listing.sellerWallet ≠ "" ∨ listing.sellerId ≠ none :=
  .inr (by rw [hlisted.1]; exact Option.some_ne_none sellerId)

theorem Consistent.marketRows {db : Database} {listing : SecondaryListing}
    (hconsistent : Consistent accounts db) (hstored : listing ∈ db.listings) :
    MarketRows db listing where
  keys := hconsistent.investmentKeys
  amounts := hconsistent.amounts
  quantity := hconsistent.quantities listing hstored
  named := by
    obtain ⟨sellerId, hlisted⟩ := hconsistent.sellers listing hstored
    exact hlisted.named

theorem Consistent.congr {db after : Database} (hconsistent : Consistent accounts db)
    (hlistings : after.listings = db.listings) (hinvestments : after.investments = db.investments) :
    Consistent accounts after where
  investmentKeys := hinvestments ▸ hconsistent.investmentKeys
  amounts := hinvestments ▸ hconsistent.amounts
  wallets := hinvestments ▸ hconsistent.wallets
  listingKeys := hlistings ▸ hconsistent.listingKeys
  quantities := hlistings ▸ hconsistent.quantities
  sellers := hlistings ▸ hconsistent.sellers

theorem Covered.later {db : Database} {now later : Timestamp}
    (hconsistent : Consistent accounts db) (hcovered : Covered db now) (hlater : now ≤ later) :
    Covered db later := fun userId =>
  (listed_antitone hconsistent.quantities hlater).trans (hcovered userId)

/-! ### A new listing -/

theorem Consistent.insert {db : Database} {listing : SecondaryListing} {sellerId : Uuid}
    (hconsistent : Consistent accounts db) (hfresh : ∀ other ∈ db.listings, other.id ≠ listing.id)
    (hcolumn : AmountColumn listing.quantity) (hlisted : ListedBy accounts sellerId listing) :
    Consistent accounts (insertListing db listing) where
  investmentKeys := hconsistent.investmentKeys
  amounts := hconsistent.amounts
  wallets := hconsistent.wallets
  listingKeys := by
    rw [insertListing, List.map_append, List.nodup_append]
    refine ⟨hconsistent.listingKeys, List.nodup_singleton _, fun old hold new hnew hsame => ?_⟩
    obtain ⟨other, hother, rfl⟩ := List.mem_map.mp hold
    obtain rfl := List.mem_singleton.mp hnew
    exact hfresh other hother hsame
  quantities := by
    intro other hother
    rcases List.mem_append.mp hother with hold | hnew
    · exact hconsistent.quantities other hold
    · obtain rfl := List.mem_singleton.mp hnew
      exact hcolumn
  sellers := by
    intro other hother
    rcases List.mem_append.mp hother with hold | hnew
    · exact hconsistent.sellers other hold
    · obtain rfl := List.mem_singleton.mp hnew
      exact ⟨sellerId, hlisted⟩

/-- A listing of no more than what is left is covered. -/
theorem Covered.insert {db : Database} {now : Timestamp} {listing : SecondaryListing}
    {sellerId : Uuid} (hcovered : Covered db now) (hseller : listing.sellerId = some sellerId)
    (hleft : listed db.listings now sellerId + listing.quantity ≤ held db.investments sellerId) :
    Covered (insertListing db listing) now := by
  intro userId
  have hsum : listed (insertListing db listing).listings now userId =
      listed db.listings now userId + selectedPart (onSale now userId) SecondaryListing.quantity
        listing := by
    rw [listed, insertListing, selectedSum_append, selectedSum_cons, selectedPart, listed]
    simp [selectedSum]
  have hheld : held (insertListing db listing).investments userId = held db.investments userId :=
    rfl
  rw [hsum, hheld, selectedPart]
  split
  · rename_i honSale
    simp only [onSale, hseller, Bool.and_eq_true, beq_iff_eq, Option.some.injEq] at honSale
    obtain rfl := honSale.1.2
    exact hleft
  · rw [add_zero]
    exact hcovered userId

theorem activeListings_eq {db : Database} {now : Timestamp} {sellerId : Uuid}
    (hconsistent : Consistent accounts db) :
    ((activeListings db.listings (accounts.walletOf sellerId) (some sellerId)).filter
        fun listing => !isExpired listing now) = db.listings.filter (onSale now sellerId) := by
  have hwallet : (accounts.walletOf sellerId == "") = false := by
    simpa using accounts.named sellerId
  rw [activeListings, List.filter_filter]
  refine List.filter_congr fun listing hlisting => ?_
  obtain ⟨ownerId, hid, hname⟩ := hconsistent.sellers listing hlisting
  have hsame : (accounts.walletOf ownerId == accounts.walletOf sellerId) =
      (ownerId == sellerId) := by
    rw [Bool.eq_iff_iff, beq_iff_eq, beq_iff_eq]
    exact accounts.distinct.eq_iff
  have hboth : (some ownerId == some sellerId) = (ownerId == sellerId) := rfl
  rw [onSale, hwallet, hid, hname]
  dsimp only
  rw [hsame, hboth, Bool.or_self, Bool.and_comm]

theorem sellerInvestments_account {db : Database} {listing : SecondaryListing} {sellerId : Uuid}
    (hconsistent : Consistent accounts db) (hlisted : ListedBy accounts sellerId listing) :
    sellerInvestments db.investments listing.sellerWallet listing.sellerId =
      db.investments.filter (ofBuyer sellerId) := by
  rw [sellerInvestments_eq hlisted.named]
  exact List.filter_congr fun row hrow => ofSeller_iff hlisted (hconsistent.wallets row hrow)

/-- What `createListing` compares the quantity with. -/
theorem checkSeller_eq_ok {db : Database} {input : CreateListingInput} {now : Timestamp}
    {availableHoldings : Decimal} {expiresAt : Timestamp}
    (hok : checkSeller db input now = .ok (availableHoldings, expiresAt)) :
    (∃ invoice, db.invoice = some invoice ∧ invoice.status = .funded) ∧
      availableHoldings = minus
        (sumAmounts ((sellerInvestments db.investments input.sellerWallet input.sellerId).map
          Investment.investmentAmount))
        (sumAmounts (((activeListings db.listings input.sellerWallet input.sellerId).filter
          fun listing => !isExpired listing now).map SecondaryListing.quantity)) := by
  simp only [checkSeller, bind_eq_ok, orThrow_eq_ok, throwIf_eq_ok, exists_const] at hok
  obtain ⟨_, _, invoice, hinvoice, _, hfunded, _, _, _, hresult⟩ := hok
  obtain ⟨rfl, _⟩ := Prod.mk.inj (pure_eq_ok.mp hresult)
  exact ⟨⟨invoice, hinvoice, by simpa using hfunded⟩, rfl⟩

/-- What `createListing` lets through is covered, as long as the seller's holdings have
no more than twenty digits. -/
theorem listed_add_le {db : Database} {input : CreateListingInput} {now : Timestamp}
    {sellerId : Uuid} {value availableHoldings : Decimal} {expiresAt : Timestamp}
    (hconsistent : Consistent accounts db) (hcovered : Covered db now)
    (hid : input.sellerId = some sellerId)
    (hwallet : input.sellerWallet = accounts.walletOf sellerId)
    (hdigits : held db.investments sellerId < 10 ^ precision)
    (hcheck : checkSeller db input now = .ok (availableHoldings, expiresAt))
    (hpos : 0 < value) (hle : value ≤ availableHoldings) :
    listed db.listings now sellerId + toFixed4 value ≤ held db.investments sellerId := by
  have hlisted : ListedBy accounts sellerId (numberListing input value expiresAt 0) :=
    ⟨hid, hwallet⟩
  have hrows : sellerInvestments db.investments input.sellerWallet input.sellerId =
      db.investments.filter (ofBuyer sellerId) := sellerInvestments_account hconsistent hlisted
  have hheld : sumAmounts ((db.investments.filter (ofBuyer sellerId)).map
      Investment.investmentAmount) = ofUnits (held db.investments sellerId) := by
    refine sumAmounts_eq (fun amount hamount => ?_) hdigits
    obtain ⟨row, hrow, rfl⟩ := List.mem_map.mp hamount
    exact (hconsistent.amounts row (List.mem_of_mem_filter hrow)).1
  have hless := hcovered sellerId
  have hnonneg : 0 ≤ listed db.listings now sellerId := by
    refine List.sum_nonneg fun quantity hquantity => ?_
    obtain ⟨listing, hlisting, rfl⟩ := List.mem_map.mp hquantity
    exact (hconsistent.quantities listing (List.mem_of_mem_filter hlisting)).1
  have hsum : sumAmounts ((db.listings.filter (onSale now sellerId)).map
      SecondaryListing.quantity) = ofUnits (listed db.listings now sellerId) := by
    refine sumAmounts_eq (fun quantity hquantity => ?_) (hless.trans_lt hdigits)
    obtain ⟨listing, hlisting, rfl⟩ := List.mem_map.mp hquantity
    exact (hconsistent.quantities listing (List.mem_of_mem_filter hlisting)).1
  obtain ⟨_, havailable⟩ := checkSeller_eq_ok hcheck
  rw [hrows, hid, hwallet, activeListings_eq hconsistent, hheld, hsum,
    minus_ofUnits (by rw [abs_of_nonneg (by omega)]; omega)] at havailable
  have hunits : toFixed4 value ≤
      held db.investments sellerId - listed db.listings now sellerId :=
    roundPlaces_le hpos.le (hle.trans havailable.le)
  omega

/-! ### A purchase -/

section Purchase

variable {db : Database} {input : PurchaseInput} {listing : SecondaryListing}
  {buyQuantity : Decimal} {investmentId : Uuid} {now : Timestamp}

/-- The listing can still be bought when the purchase commits, and its rounding takes no
more from the holding than from the listing; or what is held covers the purchase besides
all that is for sale. -/
def Delivers (db : Database) (listing : SecondaryListing) (buyQuantity : Decimal)
    (later : Timestamp) : Prop :=
  (isExpired listing later = false ∧
      (RoundsUp buyQuantity → buyQuantity < ofUnits listing.quantity →
        HalfUnit (minus (ofUnits listing.quantity) buyQuantity) →
        StopsOnHalf (sellerInvestments db.investments listing.sellerWallet listing.sellerId)
          buyQuantity)) ∨
    ∀ sellerId ∈ listing.sellerId,
      listed db.listings later sellerId + toFixed4 buyQuantity ≤ held db.investments sellerId

instance (later : Timestamp) : Decidable (Delivers db listing buyQuantity later) :=
  inferInstanceAs (Decidable ((_ ∧ (_ → _ → _ → _)) ∨ ∀ sellerId ∈ _, _))

theorem Covered.purchase {later : Timestamp} (hconsistent : Consistent accounts db)
    (hcovered : Covered db later) (hstored : listing ∈ db.listings)
    (hactive : listing.status = .active) (hfresh : ∀ row ∈ db.investments, row.id ≠ investmentId)
    (hpos : 0 < buyQuantity) (hle : buyQuantity ≤ ofUnits listing.quantity)
    (hdelivers : Delivers db listing buyQuantity later) :
    Covered (commitPurchase db (numberWrites db input listing buyQuantity investmentId now))
      later := by
  intro userId
  have hrows := hconsistent.marketRows hstored
  obtain ⟨sellerId, hlisted⟩ := hconsistent.sellers listing hstored
  have hbefore := hcovered userId
  rw [listed_purchase hconsistent.listingKeys hstored hactive hlisted]
  refine le_trans ?_ (held_purchase hrows hfresh hlisted hconsistent.wallets hpos)
  by_cases hseller : sellerId = userId
  · subst hseller
    rw [if_pos rfl]
    rcases hdelivers with ⟨hunexpired, htie⟩ | hslack
    · rw [if_pos ⟨rfl, hunexpired⟩]
      have hdebited := debited_le_listingDecrease hrows hactive hpos hle htie
      omega
    · have hleft := hslack sellerId hlisted.1
      have hdebited := debited_le hrows hpos hle
      have hdecrease := listingDecrease_nonneg hrows.quantity hactive hpos hle
      split <;> omega
  · rw [if_neg hseller, if_neg fun hboth => hseller hboth.1]
    omega

/-- The rows that a purchase saves have amounts and the wallets of their investors. -/
theorem written_row (hconsistent : Consistent accounts db) (hstored : listing ∈ db.listings)
    (hpos : 0 < buyQuantity) (hbuyer : input.buyerWallet = accounts.walletOf input.buyerId)
    {row : Investment}
    (hrow : row ∈ (numberWrites db input listing buyQuantity investmentId now).investments) :
    0 ≤ row.investmentAmount ∧ HeldWithWallet accounts row := by
  have hrows := hconsistent.marketRows hstored
  rcases List.mem_append.mp hrow with hdeducted | hcredited
  · rw [sellerInvestments_eq hrows.named] at hdeducted
    obtain ⟨old, hold, amount, hamount, rfl⟩ := mem_deductHoldings
      (fun old hold => hrows.amounts old (List.mem_of_mem_filter hold)) hdeducted
    exact ⟨hamount.1, hconsistent.wallets old (List.mem_of_mem_filter hold)⟩
  · obtain rfl := List.mem_singleton.mp hcredited
    change 0 ≤ (creditBuyer (debitedRows db listing buyQuantity) (input.withQuantity none)
      buyQuantity investmentId).investmentAmount ∧ HeldWithWallet accounts
        (creditBuyer (debitedRows db listing buyQuantity) (input.withQuantity none) buyQuantity
          investmentId)
    rw [creditBuyer]
    split
    · rename_i buyerRow hheld
      obtain ⟨old, hold, amount, hamount, rfl⟩ :=
        exists_of_mem_debitedRows hrows (List.mem_of_find?_eq_some hheld)
      have hown := List.find?_some hheld
      simp only [Bool.and_eq_true, beq_iff_eq] at hown
      refine ⟨toFixed4_nonneg (roundSignificant_nonneg precision
        (add_nonneg (ofUnits_nonneg.mpr hamount.1) hpos.le)), fun wallet hwallet => ?_⟩
      dsimp only at hwallet ⊢
      split at hwallet
      · obtain rfl := Option.some.inj hwallet
        rw [hown.1]
        exact hbuyer
      · exact hconsistent.wallets old hold wallet hwallet
    · refine ⟨toFixed4_nonneg hpos.le, fun wallet hwallet => ?_⟩
      obtain rfl := Option.some.inj hwallet
      exact hbuyer

theorem Consistent.purchase (hconsistent : Consistent accounts db)
    (hstored : listing ∈ db.listings) (hpos : 0 < buyQuantity)
    (hle : buyQuantity ≤ ofUnits listing.quantity)
    (hbuyer : input.buyerWallet = accounts.walletOf input.buyerId)
    (hcolumns : ∀ row ∈ (numberWrites db input listing buyQuantity investmentId now).investments,
      |row.investmentAmount| < 10 ^ 18) :
    Consistent accounts
      (commitPurchase db (numberWrites db input listing buyQuantity investmentId now)) := by
  obtain ⟨sellerId, hlisted⟩ := hconsistent.sellers listing hstored
  have hsold : (soldListing listing buyQuantity).id = listing.id ∧
      AmountColumn (soldListing listing buyQuantity).quantity ∧
      ListedBy accounts sellerId (soldListing listing buyQuantity) := by
    have hquantity := hconsistent.quantities listing hstored
    rw [soldListing]
    split
    · exact ⟨rfl, hquantity, hlisted⟩
    · exact ⟨rfl, (toFixed4_minus_mem hquantity hpos.le hle).1, hlisted⟩
  have hlistings : (commitPurchase db
      (numberWrites db input listing buyQuantity investmentId now)).listings =
        saveRow SecondaryListing.id db.listings (soldListing listing buyQuantity) :=
    (saveRow_of_mem hstored hsold.1).symm
  have hsaved : ∀ row ∈ (commitPurchase db
      (numberWrites db input listing buyQuantity investmentId now)).investments,
        AmountColumn row.investmentAmount ∧ HeldWithWallet accounts row := by
    intro row hrow
    rcases mem_foldl_saveRow hrow with hwritten | ⟨hold, _⟩
    · obtain ⟨hnonneg, hwallet⟩ := written_row hconsistent hstored hpos hbuyer hwritten
      exact ⟨⟨hnonneg, (abs_lt.mp (hcolumns row hwritten)).2⟩, hwallet⟩
    · exact ⟨hconsistent.amounts row hold, hconsistent.wallets row hold⟩
  have hlisting : ∀ row ∈ saveRow SecondaryListing.id db.listings
      (soldListing listing buyQuantity), AmountColumn row.quantity ∧
        ∃ ownerId, ListedBy accounts ownerId row := by
    intro row hrow
    rcases mem_saveRow.mp hrow with rfl | ⟨hold, _⟩
    · exact ⟨hsold.2.1, sellerId, hsold.2.2⟩
    · exact ⟨hconsistent.quantities row hold, hconsistent.sellers row hold⟩
  rw [← hlistings] at hlisting
  exact
    { investmentKeys := nodup_foldl_saveInvestment hconsistent.investmentKeys
      amounts := fun row hrow => (hsaved row hrow).1
      wallets := fun row hrow => (hsaved row hrow).2
      listingKeys := by
        rw [hlistings]
        exact nodup_saveRow hconsistent.listingKeys
      quantities := fun row hrow => (hlisting row hrow).1
      sellers := fun row hrow => (hlisting row hrow).2 }

end Purchase

/-! ### A cancellation -/

section Cancellation

variable {db after : Database} {entity : SecondaryListing}

theorem Consistent.cancel {sellerId : Uuid} (hconsistent : Consistent accounts db)
    (hlistings : after.listings = db.listings.map fun listing =>
      if listing.id = entity.id then entity else listing)
    (hinvestments : after.investments = db.investments) (hcolumn : AmountColumn entity.quantity)
    (hlisted : ListedBy accounts sellerId entity) : Consistent accounts after where
  investmentKeys := hinvestments ▸ hconsistent.investmentKeys
  amounts := hinvestments ▸ hconsistent.amounts
  wallets := hinvestments ▸ hconsistent.wallets
  listingKeys := by
    rw [hlistings, map_key_replace]
    exact hconsistent.listingKeys
  quantities := by
    rw [hlistings]
    intro listing hlisting
    obtain ⟨old, hold, rfl⟩ := List.mem_map.mp hlisting
    split
    · exact hcolumn
    · exact hconsistent.quantities old hold
  sellers := by
    rw [hlistings]
    intro listing hlisting
    obtain ⟨old, hold, rfl⟩ := List.mem_map.mp hlisting
    split
    · exact ⟨sellerId, hlisted⟩
    · exact hconsistent.sellers old hold

/-- A listing that is cancelled is no longer for sale, whatever it was before. -/
theorem listed_cancel {now : Timestamp} (hconsistent : Consistent accounts db)
    (hlistings : after.listings = db.listings.map fun listing =>
      if listing.id = entity.id then entity else listing)
    (hcancelled : entity.status = .cancelled) :
    listed after.listings now userId ≤ listed db.listings now userId := by
  rw [hlistings]
  refine selectedSum_map_le ?_ fun listing hlisting => (hconsistent.quantities listing hlisting).1
  rw [onSale, hcancelled]
  rfl

end Cancellation

/-! ### A refund -/

section Refund

variable {db : Database} {removed : Investment} {now : Timestamp}

/-- The stored row is not confirmed, or what is held covers it besides all that is for
sale. -/
def Spares (db : Database) (removed : Investment) (now : Timestamp) : Prop :=
  ∀ row ∈ findRow Investment.id db.investments removed.id, row.status = .confirmed →
    listed db.listings now row.investorId + row.investmentAmount ≤
      held db.investments row.investorId

instance : Decidable (Spares db removed now) :=
  inferInstanceAs (Decidable (∀ row ∈ findRow _ _ _, _ → _))

theorem Consistent.remove (hconsistent : Consistent accounts db) :
    Consistent accounts (removeInvestment db removed) where
  investmentKeys := hconsistent.investmentKeys.sublist (List.filter_sublist.map _)
  amounts := fun row hrow => hconsistent.amounts row (List.mem_of_mem_filter hrow)
  wallets := fun row hrow => hconsistent.wallets row (List.mem_of_mem_filter hrow)
  listingKeys := hconsistent.listingKeys
  quantities := hconsistent.quantities
  sellers := hconsistent.sellers

theorem Covered.remove (hconsistent : Consistent accounts db) (hcovered : Covered db now)
    (hspares : Spares db removed now) :
    Covered (removeInvestment db removed) now := by
  intro userId
  have hheld : held (removeInvestment db removed).investments userId =
      held db.investments userId - ((findRow Investment.id db.investments removed.id).map
        (selectedPart (ofBuyer userId) Investment.investmentAmount)).getD 0 :=
    selectedSum_remove hconsistent.investmentKeys
  have hlisted : listed (removeInvestment db removed).listings now userId =
      listed db.listings now userId := rfl
  rw [hheld, hlisted]
  cases hfound : findRow Investment.id db.investments removed.id with
  | none =>
      have hbefore := hcovered userId
      simpa using hbefore
  | some row =>
      rw [Option.map_some, Option.getD_some, selectedPart]
      split
      · rename_i hown
        simp only [ofBuyer, Bool.and_eq_true, beq_iff_eq] at hown
        obtain ⟨rfl, hconfirmed⟩ := hown
        have hleft := hspares row hfound hconfirmed
        omega
      · have hbefore := hcovered userId
        omega

end Refund

end StellarSettle.Holdings
