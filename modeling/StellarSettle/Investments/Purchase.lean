import StellarSettle.Core.KeyedRows
import StellarSettle.Investments.MarketQuantity

/-!
# What a purchase moves

`buyListing` takes any text as its quantity.  The same number is rounded to four
decimals in four places: in what is left of the listing, in the seller's row at
which the debit ends, in the buyer's holding and in the answer.  The results below
say when the four agree.
-/

namespace StellarSettle.Purchase

open StellarSettle.Checks
open StellarSettle.DecimalJs
open StellarSettle.DecimalRounding
open StellarSettle.Entities
open StellarSettle.KeyedRows
open StellarSettle.MarketQuantity
open StellarSettle.SecondaryMarket

/-! ## Conservation -/

def confirmedTotal (investments : List Investment) : ℤ :=
  selectedSum (fun row => row.status == .confirmed) Investment.investmentAmount investments

/-- The row is one of the seller's confirmed investments. -/
def ofSeller (listing : SecondaryListing) (row : Investment) : Bool :=
  row.status == .confirmed &&
    ((listing.sellerWallet != "" && row.investorWallet == some listing.sellerWallet) ||
      listing.sellerId == some row.investorId)

/-- The row is one of the buyer's confirmed investments. -/
def ofBuyer (buyerId : Uuid) (row : Investment) : Bool :=
  row.investorId == buyerId && row.status == .confirmed

def sellerTotal (listing : SecondaryListing) (investments : List Investment) : ℤ :=
  selectedSum (ofSeller listing) Investment.investmentAmount investments

def buyerTotal (buyerId : Uuid) (investments : List Investment) : ℤ :=
  selectedSum (ofBuyer buyerId) Investment.investmentAmount investments

/-- The investments when the seller is debited and the buyer, who is saved last, is not
credited yet. -/
def afterDebit (db : Database) (writes : PurchaseWrites) : List Investment :=
  writes.investments.dropLast.foldl saveInvestment db.investments

/-- What the listing loses: all of it when it is sold. -/
def listingDecrease (listing saved : SecondaryListing) : ℤ :=
  if saved.status = .sold then listing.quantity else listing.quantity - saved.quantity

/-- The confirmed amounts keep their sum, and what is debited, credited, taken from the
listing and returned is one number.  NaN equals nothing. -/
def Conserves (db : Database) (input : PurchaseInput) (listing : SecondaryListing) :
    PurchaseResult → Prop
  | .notANumber _ _ => False
  | .transferred writes quantity =>
      confirmedTotal (commitPurchase db writes).investments = confirmedTotal db.investments ∧
        sellerTotal listing db.investments - sellerTotal listing (afterDebit db writes) =
          quantity ∧
        buyerTotal input.buyerId (commitPurchase db writes).investments -
          buyerTotal input.buyerId (afterDebit db writes) = quantity ∧
        listingDecrease listing writes.listing = quantity

instance (db : Database) (input : PurchaseInput) (listing : SecondaryListing) :
    (purchase : PurchaseResult) → Decidable (Conserves db input listing purchase)
  | .notANumber _ _ => inferInstanceAs (Decidable False)
  | .transferred _ _ => inferInstanceAs (Decidable (_ = _ ∧ _ = _ ∧ _ = _ ∧ _ = _))

/-! ## The condition -/

/-- The debit ends inside a row, and what is left of that row is a tie. -/
def StopsOnHalf : List Investment → Decimal → Prop
  | [], _ => False
  | investment :: rest, remainingToDeduct =>
      let currentAmount := ofUnits investment.investmentAmount
      0 < remainingToDeduct ∧
        (if currentAmount ≤ remainingToDeduct then
          StopsOnHalf rest (minus remainingToDeduct currentAmount)
        else HalfUnit (minus currentAmount remainingToDeduct))

instance decidableStopsOnHalf : (investments : List Investment) → (remaining : Decimal) →
    Decidable (StopsOnHalf investments remaining)
  | [], _ => inferInstanceAs (Decidable False)
  | investment :: rest, remaining =>
      have : Decidable (StopsOnHalf rest
          (minus remaining (ofUnits investment.investmentAmount))) :=
        decidableStopsOnHalf rest _
      inferInstanceAs (Decidable (0 < remaining ∧
        (if ofUnits investment.investmentAmount ≤ remaining then
          StopsOnHalf rest (minus remaining (ofUnits investment.investmentAmount))
        else HalfUnit (minus (ofUnits investment.investmentAmount) remaining))))

/-- The buyer's holding as the debit leaves it. -/
def heldByBuyer (db : Database) (listing : SecondaryListing) (buyerId : Uuid)
    (buyQuantity : Decimal) : Option Investment :=
  ((deductHoldings (sellerInvestments db.investments listing.sellerWallet listing.sellerId)
    buyQuantity).foldl saveInvestment db.investments).find? (ofBuyer buyerId)

/-- The seller holds the rounded quantity.  When it is rounded up, neither what is left
of the listing nor what is left of the seller's last row is a tie, for a tie is rounded
up again; when it is rounded down, the sum with the buyer's holding is no tie. -/
def TransfersExactly (db : Database) (listing : SecondaryListing) (buyerId : Uuid)
    (buyQuantity : Decimal) : Prop :=
  toFixed4 buyQuantity ≤ sellerTotal listing db.investments ∧
    (RoundsUp buyQuantity →
      ¬StopsOnHalf (sellerInvestments db.investments listing.sellerWallet listing.sellerId)
          buyQuantity ∧
        (buyQuantity < ofUnits listing.quantity →
          ¬HalfUnit (minus (ofUnits listing.quantity) buyQuantity))) ∧
    (¬RoundsUp buyQuantity → ∀ held ∈ heldByBuyer db listing buyerId buyQuantity,
      ¬HalfUnit (plus (ofUnits held.investmentAmount) buyQuantity))

instance (db : Database) (listing : SecondaryListing) (buyerId : Uuid) (buyQuantity : Decimal) :
    Decidable (TransfersExactly db listing buyerId buyQuantity) :=
  inferInstanceAs (Decidable (_ ∧ (_ → _ ∧ (_ → _)) ∧ (_ → ∀ held ∈ _, _)))

/-- The quantity is a number, or the whole listing, and is transferred exactly. -/
def ExactQuantity (db : Database) (input : PurchaseInput) (listing : SecondaryListing) : Prop :=
  match input.quantity with
  | none => TransfersExactly db listing input.buyerId (ofUnits listing.quantity)
  | some (.number value) => TransfersExactly db listing input.buyerId value
  | some _ => False

/-! ## The debit -/

/-- What the saved entities take from the rows. -/
def taken : List Investment → List Investment → ℤ
  | investment :: rest, entity :: entities =>
      investment.investmentAmount - entity.investmentAmount + taken rest entities
  | _, _ => 0

/-- `decimal(18,4)`, not negative. -/
def AmountColumn (units : ℤ) : Prop := 0 ≤ units ∧ units < 10 ^ 18

theorem deductHoldings_nonpos {investments : List Investment} {remaining : Decimal}
    (hdone : remaining ≤ 0) : deductHoldings investments remaining = [] := by
  cases investments with
  | nil => rfl
  | cons investment rest => rw [deductHoldings, if_pos hdone]

/-- What is left of a row, or of the listing. -/
theorem toFixed4_minus {units whole carry : ℤ} {value : Decimal} (hunits : units < 10 ^ 18)
    (hwithin : Within (2 * whole - carry) (2 * whole + 1 - carry) value)
    (hcarry : carry = 0 ∨ carry = 1) (hless : value < ofUnits units) (hwhole : 0 ≤ whole) :
    units - toFixed4 (minus (ofUnits units) value) = whole ↔
      ¬(carry = 1 ∧ HalfUnit (minus (ofUnits units) value)) := by
  obtain ⟨hlow, hhigh⟩ := hwithin
  have hpos : 0 ≤ ofUnits units - value := (sub_pos.mpr hless).le
  have hrounded := roundSignificant_nonneg precision hpos
  rw [ofUnits_eq_ofHalves] at hpos hrounded
  have hrest : ∀ low high : ℤ, low = 2 * units - (2 * whole + 1 - carry) →
      high = 2 * units - (2 * whole - carry) →
      Within low high (minus (ofUnits units) value) := by
    rintro low high rfl rfl
    rw [minus, ofUnits_eq_ofHalves]
    refine Within.rounded ⟨?_, ?_⟩ hpos (by rw [precision]; omega)
    · rw [ofHalves_sub]
      exact sub_le_sub_left hhigh _
    · rw [ofHalves_sub]
      exact sub_le_sub_left hlow _
  have hleft : 0 ≤ minus (ofUnits units) value := by
    rw [minus, ofUnits_eq_ofHalves]
    exact hrounded
  rcases hcarry with rfl | rfl
  · have hfixed := (hrest (2 * (units - whole) - 1) (2 * (units - whole)) (by ring)
      (by ring)).toFixed4_below hleft
    rw [hfixed]
    simp
  · have hfixed := (hrest (2 * (units - whole)) (2 * (units - whole) + 1) (by ring)
      (by ring)).toFixed4_above hleft
    rw [← not_iff_not] at hfixed ⊢
    simp only [true_and, not_not] at hfixed ⊢
    rw [← hfixed]
    omega

/-- What is left fits the column, and is no more than there was. -/
theorem toFixed4_minus_mem {units : ℤ} {value : Decimal} (hunits : AmountColumn units)
    (hvalue : 0 ≤ value) (hle : value ≤ ofUnits units) :
    AmountColumn (toFixed4 (minus (ofUnits units) value)) ∧
      toFixed4 (minus (ofUnits units) value) ≤ units := by
  have hrest : 0 ≤ ofUnits units - value := sub_nonneg.mpr hle
  have hrounded := roundSignificant_nonneg precision hrest
  have hless : toFixed4 (minus (ofUnits units) value) ≤ units := by
    refine roundPlaces_le hrounded ?_
    refine roundSignificant_le hrest (hunits.2.trans (by norm_num [precision])) ?_
    exact sub_le_self _ hvalue
  exact ⟨⟨toFixed4_nonneg hrounded, hless.trans_lt hunits.2⟩, hless⟩

/-- The loop takes the rounded quantity when the rows hold it, and unless a quantity that
is rounded up leaves a tie.  `carry` says whether it is rounded up. -/
theorem taken_eq_iff {investments : List Investment} {remaining : Decimal} {whole carry : ℤ}
    (hamounts : ∀ row ∈ investments, AmountColumn row.investmentAmount)
    (hwithin : Within (2 * whole - carry) (2 * whole + 1 - carry) remaining)
    (hcarry : carry = 0 ∨ carry = 1) (hremaining : 0 ≤ remaining) (hwhole : 0 ≤ whole)
    (hbound : whole ≤ 10 ^ 18) :
    taken investments (deductHoldings investments remaining) = whole ↔
      whole ≤ (investments.map Investment.investmentAmount).sum ∧
        ¬(carry = 1 ∧ StopsOnHalf investments remaining) := by
  induction investments generalizing remaining whole with
  | nil =>
      simp only [taken, List.map_nil, List.sum_nil, StopsOnHalf, and_false,
        not_false_eq_true, and_true]
      omega
  | cons investment rest ih =>
      obtain ⟨hamount, hrest⟩ := List.forall_mem_cons.mp hamounts
      have hrestSum : 0 ≤ (rest.map Investment.investmentAmount).sum :=
        List.sum_nonneg fun amount hmem => by
          obtain ⟨row, hrow, rfl⟩ := List.mem_map.mp hmem
          exact (hrest row hrow).1
      rw [List.map_cons, List.sum_cons]
      by_cases hdone : remaining ≤ 0
      · -- Nothing is left to take.
        obtain rfl : remaining = 0 := le_antisymm hdone hremaining
        have hzero : whole = 0 := by
          have hlow := hwithin.1
          rw [← ofUnits_zero, ofUnits_eq_ofHalves, ofHalves_le_ofHalves] at hlow
          omega
        rw [deductHoldings_nonpos le_rfl]
        simp only [taken, StopsOnHalf, lt_self_iff_false, false_and, and_false,
          not_false_eq_true, and_true]
        have hown := hamount.1
        omega
      · have hpos : 0 < remaining := not_le.mp hdone
        rw [deductHoldings, if_neg hdone, StopsOnHalf]
        dsimp only
        by_cases hfull : ofUnits investment.investmentAmount ≤ remaining
        · -- The whole row is taken.
          have hle : investment.investmentAmount ≤ whole := by
            have hhalves := hfull.trans hwithin.2
            rw [ofUnits_eq_ofHalves, ofHalves_le_ofHalves] at hhalves
            omega
          have hnext : Within (2 * (whole - investment.investmentAmount) - carry)
              (2 * (whole - investment.investmentAmount) + 1 - carry)
              (minus remaining (ofUnits investment.investmentAmount)) := by
            rw [minus]
            refine Within.rounded ⟨?_, ?_⟩ (sub_nonneg.mpr hfull)
              (by rw [precision]; have := hamount.1; omega)
            · have hsplit : 2 * (whole - investment.investmentAmount) - carry =
                  (2 * whole - carry) - 2 * investment.investmentAmount := by ring
              rw [hsplit, ofHalves_sub, ofUnits_eq_ofHalves]
              exact sub_le_sub_right hwithin.1 _
            · have hsplit : 2 * (whole - investment.investmentAmount) + 1 - carry =
                  (2 * whole + 1 - carry) - 2 * investment.investmentAmount := by ring
              rw [hsplit, ofHalves_sub, ofUnits_eq_ofHalves]
              exact sub_le_sub_right hwithin.2 _
          have hstep := ih hrest hnext
            (roundSignificant_nonneg precision (sub_nonneg.mpr hfull)) (by omega)
            (by have := hamount.1; omega)
          rw [if_pos hfull, if_pos hfull, taken]
          simp only [hpos, true_and]
          rw [← sub_le_iff_le_add', ← hstep]
          constructor <;> intro htaken <;> omega
        · -- The loop ends in this row.
          have hless : remaining < ofUnits investment.investmentAmount := not_le.mp hfull
          have hcovered : whole ≤ investment.investmentAmount := by
            have hhalves := hwithin.1.trans hless.le
            rw [ofUnits_eq_ofHalves, ofHalves_le_ofHalves] at hhalves
            omega
          rw [if_neg hfull, if_neg hfull, taken, deductHoldings_nonpos le_rfl]
          have hnone : taken rest [] = 0 := by cases rest <;> rfl
          rw [hnone, add_zero, toFixed4_minus hamount.2 hwithin hcarry hless hwhole]
          simp only [hpos, true_and]
          have hsum : whole ≤ investment.investmentAmount +
              (rest.map Investment.investmentAmount).sum := by omega
          simp only [hsum, true_and]

/-- The saved entities are the rows with amounts that are no larger. -/
theorem mem_deductHoldings {investments : List Investment} {remaining : Decimal}
    {entity : Investment} (hamounts : ∀ row ∈ investments, AmountColumn row.investmentAmount)
    (hentity : entity ∈ deductHoldings investments remaining) :
    ∃ row ∈ investments, ∃ amount, AmountColumn amount ∧
      entity = { row with investmentAmount := amount } := by
  induction investments generalizing remaining with
  | nil => cases hentity
  | cons investment rest ih =>
      obtain ⟨hamount, hrest⟩ := List.forall_mem_cons.mp hamounts
      rw [deductHoldings] at hentity
      split at hentity
      · cases hentity
      · rename_i hpos
        dsimp only at hentity
        split at hentity
        · rcases List.mem_cons.mp hentity with rfl | hlater
          · exact ⟨investment, List.mem_cons_self, 0, ⟨le_rfl, by norm_num⟩, rfl⟩
          · obtain ⟨row, hrow, hsaved⟩ := ih hrest hlater
            exact ⟨row, List.mem_cons_of_mem _ hrow, hsaved⟩
        · rename_i hless
          rw [deductHoldings_nonpos le_rfl, List.mem_singleton] at hentity
          have hrest := toFixed4_minus_mem hamount (not_le.mp hpos).le (not_le.mp hless).le
          exact ⟨investment, List.mem_cons_self, _, hrest.1, hentity⟩

section Tables

variable {selected : Investment → Bool} {table rows : List Investment} {remaining : Decimal}

/-- The debit takes the same from every sum in which the seller's rows count. -/
theorem selectedSum_debit
    (hsame : ∀ (row : Investment) (amount : ℤ),
      selected { row with investmentAmount := amount } = selected row)
    (hkeys : (table.map Investment.id).Nodup) (hrows : (rows.map Investment.id).Nodup)
    (hmem : ∀ row ∈ rows, row ∈ table) (hselected : ∀ row ∈ rows, selected row = true) :
    selectedSum selected Investment.investmentAmount
        ((deductHoldings rows remaining).foldl saveInvestment table) =
      selectedSum selected Investment.investmentAmount table -
        taken rows (deductHoldings rows remaining) := by
  induction rows generalizing table remaining with
  | nil => simp [deductHoldings, taken]
  | cons row rest ih =>
      obtain ⟨hfresh, hrest⟩ := List.nodup_cons.mp hrows
      obtain ⟨hrow, hothers⟩ := List.forall_mem_cons.mp hmem
      obtain ⟨hown, hrestSelected⟩ := List.forall_mem_cons.mp hselected
      -- One save, of this row with another amount.
      have hsave : ∀ amount : ℤ,
          selectedSum selected Investment.investmentAmount
              (saveInvestment table { row with investmentAmount := amount }) =
            selectedSum selected Investment.investmentAmount table - row.investmentAmount +
              amount :=
        fun amount => selectedSum_saveRow_of_mem hkeys hrow rfl hown ((hsame row amount).trans hown)
      rw [deductHoldings]
      by_cases hdone : remaining ≤ 0
      · rw [if_pos hdone]
        simp [taken]
      · rw [if_neg hdone]
        dsimp only
        by_cases hfull : ofUnits row.investmentAmount ≤ remaining
        · have hnext : ((saveInvestment table { row with investmentAmount := 0 }).map
              Investment.id).Nodup := nodup_saveRow hkeys
          have hstored : ∀ other ∈ rest,
              other ∈ saveInvestment table { row with investmentAmount := 0 } := by
            intro other hother
            refine mem_saveRow.mpr (.inr ⟨hothers other hother, fun hkey => hfresh ?_⟩)
            exact hkey ▸ List.mem_map_of_mem hother
          rw [if_pos hfull, List.foldl_cons, taken, ih hnext hrest hstored hrestSelected, hsave]
          ring
        · rw [if_neg hfull, deductHoldings_nonpos le_rfl, List.foldl_cons, List.foldl_nil, taken,
            hsave]
          have hnone : taken rest [] = 0 := by cases rest <;> rfl
          rw [hnone]
          ring

theorem nodup_foldl_saveInvestment {entities : List Investment}
    (hkeys : (table.map Investment.id).Nodup) :
    ((entities.foldl saveInvestment table).map Investment.id).Nodup := by
  induction entities generalizing table with
  | nil => exact hkeys
  | cons entity rest ih => exact ih (nodup_saveRow hkeys)

/-- What the buyer's row gains. -/
def credited (investments : List Investment) (input : BuyListingInput) (buyQuantity : Decimal)
    (investmentId : Uuid) : ℤ :=
  (creditBuyer investments input buyQuantity investmentId).investmentAmount -
    ((investments.find? (ofBuyer input.buyerId)).map Investment.investmentAmount).getD 0

/-- The credit adds the same to every sum in which the buyer's rows count. -/
theorem selectedSum_credit {input : BuyListingInput} {buyQuantity : Decimal} {investmentId : Uuid}
    (hselected : ∀ row, ofBuyer input.buyerId row = true → selected row = true)
    (hkeys : (table.map Investment.id).Nodup) (hfresh : ∀ row ∈ table, row.id ≠ investmentId) :
    selectedSum selected Investment.investmentAmount
        (saveInvestment table (creditBuyer table input buyQuantity investmentId)) =
      selectedSum selected Investment.investmentAmount table +
        credited table input buyQuantity investmentId := by
  have hfind : (table.find? fun row =>
      row.investorId == input.buyerId && row.status == .confirmed) =
        table.find? (ofBuyer input.buyerId) := rfl
  cases hheld : table.find? (ofBuyer input.buyerId) with
  | some held =>
      have hown : ofBuyer input.buyerId held = true := List.find?_some hheld
      have hcredit : (creditBuyer table input buyQuantity investmentId).id = held.id ∧
          ofBuyer input.buyerId (creditBuyer table input buyQuantity investmentId) = true := by
        rw [creditBuyer, hfind, hheld]
        exact ⟨rfl, hown⟩
      refine (selectedSum_saveRow_of_mem hkeys (List.mem_of_find?_eq_some hheld) hcredit.1
        (hselected held hown) (hselected _ hcredit.2)).trans ?_
      rw [credited, hheld, Option.map_some, Option.getD_some]
      ring
  | none =>
      have hcredit : (creditBuyer table input buyQuantity investmentId).id = investmentId ∧
          ofBuyer input.buyerId (creditBuyer table input buyQuantity investmentId) = true := by
        rw [creditBuyer, hfind, hheld]
        exact ⟨rfl, by simp [ofBuyer]⟩
      refine (selectedSum_saveRow_of_fresh (fun row hrow => ?_) (hselected _ hcredit.2)).trans ?_
      · rw [hcredit.1]
        exact hfresh row hrow
      · rw [credited, hheld, Option.map_none, Option.getD_none, sub_zero]

/-- The buyer gains the rounded quantity, unless it is rounded down and leaves a tie. -/
theorem credited_eq_iff {input : BuyListingInput} {buyQuantity : Decimal} {investmentId : Uuid}
    (hamounts : ∀ row ∈ table, AmountColumn row.investmentAmount) (hpos : 0 ≤ buyQuantity)
    (hbound : toFixed4 buyQuantity ≤ 10 ^ 18) :
    credited table input buyQuantity investmentId = toFixed4 buyQuantity ↔
      (¬RoundsUp buyQuantity → ∀ held ∈ table.find? (ofBuyer input.buyerId),
        ¬HalfUnit (plus (ofUnits held.investmentAmount) buyQuantity)) := by
  have hfind : (table.find? fun row =>
      row.investorId == input.buyerId && row.status == .confirmed) =
        table.find? (ofBuyer input.buyerId) := rfl
  rw [credited, creditBuyer, hfind]
  cases hheld : table.find? (ofBuyer input.buyerId) with
  | none => simp
  | some held =>
      obtain ⟨hnonneg, hless⟩ := hamounts held (List.mem_of_find?_eq_some hheld)
      have hsum : 0 ≤ ofUnits held.investmentAmount + buyQuantity :=
        add_nonneg (ofUnits_nonneg.mpr hnonneg) hpos
      have hrounded := roundSignificant_nonneg precision hsum
      -- The sum lies as far above the holding as the quantity above zero.
      have hshift : ∀ low high : ℤ, high ≤ 2 * toFixed4 buyQuantity + 1 →
          Within low high buyQuantity →
          Within (2 * held.investmentAmount + low) (2 * held.investmentAmount + high)
            (plus (ofUnits held.investmentAmount) buyQuantity) := by
        intro low high hhigh hwithin
        rw [plus]
        refine Within.rounded ⟨?_, ?_⟩ hsum (by rw [precision]; omega)
        · rw [ofHalves_add, ofUnits_eq_ofHalves]
          exact add_le_add_right hwithin.1 _
        · rw [ofHalves_add, ofUnits_eq_ofHalves]
          exact add_le_add_right hwithin.2 _
      simp only [Option.map_some, Option.getD_some, Option.mem_def, Option.some.injEq,
        forall_eq']
      rw [sub_eq_iff_eq_add']
      by_cases hup : RoundsUp buyQuantity
      · have hbelow : Within (2 * (held.investmentAmount + toFixed4 buyQuantity) - 1)
            (2 * (held.investmentAmount + toFixed4 buyQuantity))
            (plus (ofUnits held.investmentAmount) buyQuantity) := by
          convert hshift _ _ (by omega) (hup.within hpos) using 1 <;> ring
        exact ⟨fun _ hdown => absurd hup hdown, fun _ => hbelow.toFixed4_below hrounded⟩
      · have habove : Within (2 * (held.investmentAmount + toFixed4 buyQuantity))
            (2 * (held.investmentAmount + toFixed4 buyQuantity) + 1)
            (plus (ofUnits held.investmentAmount) buyQuantity) := by
          convert hshift _ _ le_rfl (within_of_not_roundsUp hup hpos) using 1 <;> ring
        exact (habove.toFixed4_above hrounded).trans
          ⟨fun htie _ => htie, fun htie => htie hup⟩

end Tables

/-! ## The purchase -/

/-- The columns hold amounts, the ids are unique, and the listing names its seller, as
`createListing` does with the wallet of the account. -/
structure MarketRows (db : Database) (listing : SecondaryListing) : Prop where
  keys : (db.investments.map Investment.id).Nodup
  amounts : ∀ row ∈ db.investments, AmountColumn row.investmentAmount
  quantity : AmountColumn listing.quantity
  named : listing.sellerWallet ≠ "" ∨ listing.sellerId ≠ none

theorem sellerInvestments_eq {listing : SecondaryListing}
    (hnamed : listing.sellerWallet ≠ "" ∨ listing.sellerId ≠ none)
    (investments : List Investment) :
    sellerInvestments investments listing.sellerWallet listing.sellerId =
      investments.filter (ofSeller listing) := by
  have hnot : ¬(listing.sellerWallet = "" ∧ listing.sellerId = none) := by
    rintro ⟨hwallet, hid⟩
    exact hnamed.elim (fun hne => hne hwallet) fun hne => hne hid
  rw [sellerInvestments, if_neg hnot]
  rfl

section Number

variable {db : Database} {input : PurchaseInput} {listing : SecondaryListing}
  {buyQuantity : Decimal} {investmentId : Uuid} {now : Timestamp}

/-- The rows between the debit and the credit. -/
def debitedRows (db : Database) (listing : SecondaryListing) (buyQuantity : Decimal) :
    List Investment :=
  (deductHoldings (sellerInvestments db.investments listing.sellerWallet listing.sellerId)
    buyQuantity).foldl saveInvestment db.investments

/-- What is debited. -/
def debited (db : Database) (listing : SecondaryListing) (buyQuantity : Decimal) : ℤ :=
  let rows := sellerInvestments db.investments listing.sellerWallet listing.sellerId
  taken rows (deductHoldings rows buyQuantity)

theorem afterDebit_numberWrites :
    afterDebit db (numberWrites db input listing buyQuantity investmentId now) =
      debitedRows db listing buyQuantity := by
  rw [afterDebit, numberWrites, List.dropLast_concat, debitedRows]

theorem investments_numberWrites :
    (commitPurchase db
      (numberWrites db input listing buyQuantity investmentId now)).investments =
      saveInvestment (debitedRows db listing buyQuantity)
        (creditBuyer (debitedRows db listing buyQuantity) (input.withQuantity none) buyQuantity
          investmentId) := by
  rw [commitPurchase, numberWrites, List.foldl_append]
  rfl

/-- The debit changes nothing but amounts. -/
theorem exists_of_mem_debitedRows (hrows : MarketRows db listing) {row : Investment}
    (hrow : row ∈ debitedRows db listing buyQuantity) :
    ∃ old ∈ db.investments, ∃ amount, AmountColumn amount ∧
      row = { old with investmentAmount := amount } := by
  rw [debitedRows, sellerInvestments_eq hrows.named] at hrow
  have hmem : ∀ old ∈ db.investments.filter (ofSeller listing), old ∈ db.investments :=
    fun _ hold => List.mem_of_mem_filter hold
  rcases mem_foldl_saveRow hrow with hsaved | ⟨hold, _⟩
  · obtain ⟨old, hold, amount, hamount, rfl⟩ := mem_deductHoldings
      (fun old hold => hrows.amounts old (hmem old hold)) hsaved
    exact ⟨old, hmem old hold, amount, hamount, rfl⟩
  · exact ⟨row, hold, row.investmentAmount, hrows.amounts row hold, rfl⟩

theorem mem_debitedRows (hrows : MarketRows db listing)
    (hfresh : ∀ row ∈ db.investments, row.id ≠ investmentId) {row : Investment}
    (hrow : row ∈ debitedRows db listing buyQuantity) :
    AmountColumn row.investmentAmount ∧ row.id ≠ investmentId := by
  obtain ⟨old, hold, amount, hamount, rfl⟩ := exists_of_mem_debitedRows hrows hrow
  exact ⟨hamount, hfresh old hold⟩

theorem selectedSum_debitedRows {selected : Investment → Bool} (hrows : MarketRows db listing)
    (hsame : ∀ (row : Investment) (amount : ℤ),
      selected { row with investmentAmount := amount } = selected row)
    (hseller : ∀ row ∈ db.investments, ofSeller listing row = true → selected row = true) :
    selectedSum selected Investment.investmentAmount (debitedRows db listing buyQuantity) =
      selectedSum selected Investment.investmentAmount db.investments -
        debited db listing buyQuantity := by
  rw [debitedRows, debited, sellerInvestments_eq hrows.named]
  refine selectedSum_debit hsame hrows.keys ?_ (fun _ hrow => List.mem_of_mem_filter hrow)
    fun row hrow => hseller row (List.mem_filter.mp hrow).1 (List.mem_filter.mp hrow).2
  exact hrows.keys.sublist (List.filter_sublist.map _)

theorem selectedSum_creditedRows {selected : Investment → Bool} (hrows : MarketRows db listing)
    (hfresh : ∀ row ∈ db.investments, row.id ≠ investmentId)
    (hbuyer : ∀ row, ofBuyer input.buyerId row = true → selected row = true) :
    selectedSum selected Investment.investmentAmount (commitPurchase db
        (numberWrites db input listing buyQuantity investmentId now)).investments =
      selectedSum selected Investment.investmentAmount (debitedRows db listing buyQuantity) +
        credited (debitedRows db listing buyQuantity) (input.withQuantity none) buyQuantity
          investmentId := by
  rw [investments_numberWrites]
  exact selectedSum_credit hbuyer (nodup_foldl_saveInvestment hrows.keys)
    fun row hrow => (mem_debitedRows hrows hfresh hrow).2

/-- The seller loses the rounded quantity when he holds it and no tie is left. -/
theorem debited_eq_iff (hrows : MarketRows db listing) (hpos : 0 < buyQuantity)
    (hbound : toFixed4 buyQuantity ≤ 10 ^ 18) :
    debited db listing buyQuantity = toFixed4 buyQuantity ↔
      toFixed4 buyQuantity ≤ sellerTotal listing db.investments ∧
        (RoundsUp buyQuantity → ¬StopsOnHalf
          (sellerInvestments db.investments listing.sellerWallet listing.sellerId)
          buyQuantity) := by
  rw [debited, sellerInvestments_eq hrows.named, sellerTotal, selectedSum]
  have hamounts : ∀ row ∈ db.investments.filter (ofSeller listing),
      AmountColumn row.investmentAmount := fun row hrow =>
    hrows.amounts row (List.mem_of_mem_filter hrow)
  have hwhole : 0 ≤ toFixed4 buyQuantity := toFixed4_nonneg hpos.le
  by_cases hup : RoundsUp buyQuantity
  · have hwithin : Within (2 * toFixed4 buyQuantity - 1) (2 * toFixed4 buyQuantity + 1 - 1)
        buyQuantity := by
      rw [add_sub_cancel_right]
      exact hup.within hpos.le
    rw [taken_eq_iff hamounts hwithin (.inr rfl) hpos.le hwhole hbound]
    simp [hup]
  · have hwithin : Within (2 * toFixed4 buyQuantity - 0) (2 * toFixed4 buyQuantity + 1 - 0)
        buyQuantity := by
      rw [sub_zero, sub_zero]
      exact within_of_not_roundsUp hup hpos.le
    rw [taken_eq_iff hamounts hwithin (.inl rfl) hpos.le hwhole hbound]
    simp [hup]

/-- The listing loses the rounded quantity when it is sold out or no tie is left. -/
theorem listingDecrease_eq_iff (hquantity : AmountColumn listing.quantity)
    (hactive : listing.status = .active) (hpos : 0 < buyQuantity)
    (hle : buyQuantity ≤ ofUnits listing.quantity) :
    listingDecrease listing (soldListing listing buyQuantity) = toFixed4 buyQuantity ↔
      (RoundsUp buyQuantity → buyQuantity < ofUnits listing.quantity →
        ¬HalfUnit (minus (ofUnits listing.quantity) buyQuantity)) := by
  rw [soldListing]
  split
  · rename_i hall
    subst hall
    rw [listingDecrease, if_pos rfl, toFixed4_ofUnits]
    exact ⟨fun _ _ hless => absurd hless (lt_irrefl _), fun _ => rfl⟩
  · rename_i hpart
    have hless : buyQuantity < ofUnits listing.quantity := lt_of_le_of_ne hle hpart
    have hwhole : 0 ≤ toFixed4 buyQuantity := toFixed4_nonneg hpos.le
    rw [listingDecrease, if_neg (by rw [hactive]; decide)]
    dsimp only
    by_cases hup : RoundsUp buyQuantity
    · have hwithin : Within (2 * toFixed4 buyQuantity - 1) (2 * toFixed4 buyQuantity + 1 - 1)
          buyQuantity := by
        rw [add_sub_cancel_right]
        exact hup.within hpos.le
      rw [toFixed4_minus hquantity.2 hwithin (.inr rfl) hless hwhole]
      simp [hup, hless]
    · have hwithin : Within (2 * toFixed4 buyQuantity - 0) (2 * toFixed4 buyQuantity + 1 - 0)
          buyQuantity := by
        rw [sub_zero, sub_zero]
        exact within_of_not_roundsUp hup hpos.le
      rw [toFixed4_minus hquantity.2 hwithin (.inl rfl) hless hwhole]
      simp [hup]

end Number

/-- A purchase of a number conserves the holdings exactly when the condition holds. -/
theorem conserves_number_iff {db : Database} {input : PurchaseInput} {listing : SecondaryListing}
    {buyQuantity : Decimal} {investmentId : Uuid} {now : Timestamp}
    (hrows : MarketRows db listing) (hfresh : ∀ row ∈ db.investments, row.id ≠ investmentId)
    (hactive : listing.status = .active) (hpos : 0 < buyQuantity)
    (hle : buyQuantity ≤ ofUnits listing.quantity) :
    Conserves db input listing
        (.transferred (numberWrites db input listing buyQuantity investmentId now)
          (toFixed4 buyQuantity)) ↔
      TransfersExactly db listing input.buyerId buyQuantity := by
  set writes := numberWrites db input listing buyQuantity investmentId now with hwrites
  set gained := credited (debitedRows db listing buyQuantity) (input.withQuantity none)
    buyQuantity investmentId with hgained
  have hbound : toFixed4 buyQuantity ≤ 10 ^ 18 :=
    (roundPlaces_le hpos.le hle).trans hrows.quantity.2.le
  have hdebit : sellerTotal listing (debitedRows db listing buyQuantity) =
      sellerTotal listing db.investments - debited db listing buyQuantity :=
    selectedSum_debitedRows hrows (fun _ _ => rfl) fun _ _ hown => hown
  have hdebitConfirmed : confirmedTotal (debitedRows db listing buyQuantity) =
      confirmedTotal db.investments - debited db listing buyQuantity :=
    selectedSum_debitedRows hrows (fun _ _ => rfl) fun _ _ hown =>
      (Bool.and_eq_true_iff.mp hown).1
  have hcredit : buyerTotal input.buyerId (commitPurchase db writes).investments =
      buyerTotal input.buyerId (debitedRows db listing buyQuantity) + gained :=
    selectedSum_creditedRows hrows hfresh fun _ hown => hown
  have hcreditConfirmed : confirmedTotal (commitPurchase db writes).investments =
      confirmedTotal (debitedRows db listing buyQuantity) + gained :=
    selectedSum_creditedRows hrows hfresh fun _ hown => (Bool.and_eq_true_iff.mp hown).2
  have hgainedIff : gained = toFixed4 buyQuantity ↔
      (¬RoundsUp buyQuantity → ∀ held ∈ heldByBuyer db listing input.buyerId buyQuantity,
        ¬HalfUnit (plus (ofUnits held.investmentAmount) buyQuantity)) :=
    credited_eq_iff (fun _ hrow => (mem_debitedRows hrows hfresh hrow).1) hpos.le hbound
  have hlisting : writes.listing = soldListing listing buyQuantity := rfl
  rw [Conserves, afterDebit_numberWrites, hcreditConfirmed, hdebitConfirmed, hdebit, hcredit,
    hlisting]
  calc _ ↔ debited db listing buyQuantity = toFixed4 buyQuantity ∧
          gained = toFixed4 buyQuantity ∧
          listingDecrease listing (soldListing listing buyQuantity) = toFixed4 buyQuantity := by
        constructor
        · rintro ⟨_, hdebited, hgain, hdecrease⟩
          exact ⟨by omega, by omega, hdecrease⟩
        · rintro ⟨hdebited, hgain, hdecrease⟩
          exact ⟨by omega, by omega, by omega, hdecrease⟩
    _ ↔ _ := by
        rw [debited_eq_iff hrows hpos hbound, hgainedIff,
          listingDecrease_eq_iff hrows.quantity hactive hpos hle, TransfersExactly]
        constructor
        · rintro ⟨⟨hheld, hrow⟩, hcarried, hrest⟩
          exact ⟨hheld, fun hup => ⟨hrow hup, hrest hup⟩, hcarried⟩
        · rintro ⟨hheld, hup, hcarried⟩
          exact ⟨⟨hheld, fun hround => (hup hround).1⟩, hcarried, fun hround => (hup hround).2⟩

/-- A purchase conserves the holdings exactly when its quantity is a number that is
transferred exactly. -/
theorem conserves_iff {db : Database} {input : PurchaseInput} {listing : SecondaryListing}
    {investmentId : Uuid} {now : Timestamp} {purchase : PurchaseResult}
    (hlisting : (db.listings.find? fun listing => listing.id == input.listingId) = some listing)
    (hrows : MarketRows db listing) (hfresh : ∀ row ∈ db.investments, row.id ≠ investmentId)
    (hbuy : buyListing db input investmentId now = .ok purchase) :
    Conserves db input listing purchase ↔ ExactQuantity db input listing := by
  obtain ⟨found, hlocked, htransfer⟩ := bind_eq_ok.mp hbuy
  obtain ⟨hfound, hactive, _⟩ := lockListing_eq_ok hlocked
  obtain rfl := Option.some.inj (hfound.symm.trans hlisting)
  have hnumber : ∀ buyQuantity, transferNumber db input found buyQuantity investmentId now =
      .ok purchase → (Conserves db input found purchase ↔
        TransfersExactly db found input.buyerId buyQuantity) := by
    intro buyQuantity hnumber
    obtain ⟨hpos, hle, rfl⟩ := transferNumber_eq_ok hnumber
    exact conserves_number_iff hrows hfresh hactive hpos hle
  obtain ⟨_, _, hrest⟩ := bind_eq_ok.mp htransfer
  rw [ExactQuantity]
  split at hrest
  · rename_i hquantity
    rw [hquantity]
    exact hnumber _ hrest
  · rename_i value hquantity
    rw [hquantity]
    exact hnumber value hrest
  · rename_i hquantity
    rw [hquantity]
    obtain rfl := pure_eq_ok.mp hrest
    exact Iff.rfl
  · cases hrest
  · cases hrest
  · cases hrest

/-! ## A quantity of half a unit -/

/-- A holding of 10.0000, of which 5.0000 are listed. -/
def listedHolding : SecondaryListing :=
  { id := 20, sellerWallet := "GINVESTOR", sellerId := some 4, quantity := 50000
    pricePerFraction := 10000, totalPrice := 50000, status := .active, expiresAt := 1000 }

def marketDatabase : Database :=
  { fundedDatabase with
    investments := [{ soleHolding with investmentAmount := 100000 }]
    listings := [listedHolding] }

def purchaseOf (quantity : Decimal) : PurchaseInput :=
  { listingId := 20, buyerWallet := "GBUYER", buyerId := 5, quantity := some (.number quantity) }

/-- 0.00005 is returned and credited as 0.0001; listing and seller lose nothing. -/
theorem halfUnit_not_conserved :
    ∃ purchase, buyListing marketDatabase (purchaseOf (5 / 10 ^ 5)) 21 0 = .ok purchase ∧
      ¬Conserves marketDatabase (purchaseOf (5 / 10 ^ 5)) listedHolding purchase := by
  have hcheck : ((buyListing marketDatabase (purchaseOf (5 / 10 ^ 5)) 21 0).toOption.any
      fun purchase => decide
        (¬Conserves marketDatabase (purchaseOf (5 / 10 ^ 5)) listedHolding purchase)) = true := by
    decide +kernel
  cases hbuy : buyListing marketDatabase (purchaseOf (5 / 10 ^ 5)) 21 0 with
  | error thrown =>
      rw [hbuy] at hcheck
      cases hcheck
  | ok purchase =>
      rw [hbuy] at hcheck
      exact ⟨purchase, rfl, of_decide_eq_true hcheck⟩

theorem marketRows_marketDatabase : MarketRows marketDatabase listedHolding where
  keys := by decide
  amounts := by
    intro row hrow
    obtain rfl := List.mem_singleton.mp hrow
    exact ⟨by decide, by decide⟩
  quantity := ⟨by decide, by decide⟩
  named := .inl (by decide)

theorem wholeUnits_conserved :
    ∃ purchase, buyListing marketDatabase (purchaseOf (5 / 2)) 21 0 = .ok purchase ∧
      Conserves marketDatabase (purchaseOf (5 / 2)) listedHolding purchase := by
  have hexact : ExactQuantity marketDatabase (purchaseOf (5 / 2)) listedHolding := by
    change TransfersExactly marketDatabase listedHolding 5 (5 / 2)
    decide +kernel
  have hfresh : ∀ row ∈ marketDatabase.investments, row.id ≠ 21 := by decide
  cases hbuy : buyListing marketDatabase (purchaseOf (5 / 2)) 21 0 with
  | error thrown =>
      have hok : (buyListing marketDatabase (purchaseOf (5 / 2)) 21 0).isOk = true := by
        decide +kernel
      rw [hbuy] at hok
      cases hok
  | ok purchase =>
      exact ⟨purchase, rfl,
        (conserves_iff (by decide) marketRows_marketDatabase hfresh hbuy).mpr hexact⟩

end StellarSettle.Purchase
