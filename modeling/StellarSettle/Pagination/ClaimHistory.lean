import StellarSettle.Core.OrderedRows
import StellarSettle.Core.PageWalk
import StellarSettle.Model.DecimalJs
import StellarSettle.Model.Entities

/-!
# The claim history of a wallet

`getClaimHistory` sorts the claims in memory, newest first and by descending ids within one
time, and continues at the first claim that lies past a cursor.  Past a cursor lie the claims of
earlier times, and those of its time with greater ids, which are sorted before its claim.
-/

namespace StellarSettle.ClaimHistory

open StellarSettle.DecimalJs
open StellarSettle.Entities (Timestamp Uuid)
open StellarSettle.OrderedRows
open StellarSettle.PageWalk
open Std (OrientedCmp ReflCmp TransCmp)

/-- The amount is in units of four decimals, as its column is. -/
structure DividendClaim where
  id : Uuid
  claimId : String
  distributionId : Option Uuid
  issuerWallet : Option String
  recipientWallet : String
  amount : ℤ
  cycleFrequency : Option String
  txHash : Option String
  ledgerSequence : Option String
  claimedAt : Option Timestamp
  deriving DecidableEq, Repr

structure DividendClaimView where
  claimId : String
  distributionId : Option Uuid
  issuerWallet : Option String
  cycleFrequency : Option String
  amount : ℤ
  txHash : Option String
  ledgerSequence : Option String
  claimedAt : Option Timestamp
  deriving DecidableEq, Repr

/-- The claims of a wallet, with the keys that tell them apart. -/
structure ClaimRows where
  rows : List DividendClaim
  unique : (rows.map DividendClaim.id).Nodup
  uniqueClaims : (rows.map DividendClaim.claimId).Nodup

/-- The clock of each call.  A page that comes from the cache has the clock of the call that
computed it. -/
structure Clock where
  now : ℕ → Timestamp
  after_epoch : ∀ call, 0 < now call

/-- The text of a cursor: a date, a bar and an id.  Other texts are ignored. -/
inductive ClaimCursorText where
  | text (claimedAt : Timestamp) (id : Uuid)
  | other
  deriving DecidableEq, Repr

structure ClaimCursor where
  claimedAt : Timestamp
  id : Uuid
  deriving DecidableEq, Repr

structure DividendClaimPage where
  items : List DividendClaimView
  hasMore : Bool
  nextCursor : Option ClaimCursorText
  deriving DecidableEq, Repr

def timeOf (value : Option Timestamp) : Timestamp := value.getD 0

/-- A limit that is missing or not positive is twenty. -/
def normalizeLimit (value : Option ℤ) : ℕ :=
  match value with
  | some value => if value ≤ 0 then 20 else (min 100 value).toNat
  | none => 20

def parseCursor : ClaimCursorText → Option ClaimCursor
  | .text claimedAt id => some ⟨claimedAt, id⟩
  | .other => none

/-- The comparator of the sort.  It is not asked about equal ids. -/
def compareClaims (left right : DividendClaim) : Ordering :=
  (compare (timeOf right.claimedAt) (timeOf left.claimedAt)).then
    (if left.id < right.id then .gt else .lt)

def pastCursor (cursor : ClaimCursor) (row : DividendClaim) : Bool :=
  let time := timeOf row.claimedAt
  decide (time < cursor.claimedAt ∨ (time = cursor.claimedAt ∧ cursor.id < row.id))

/-- The index of the first claim past the cursor, or the length where there is none. -/
def cursorOffset (sorted : List DividendClaim) (cursor : ClaimCursor) : ℕ :=
  sorted.findIdx (pastCursor cursor)

def formatCursor (now : Timestamp) (row : DividendClaim) : ClaimCursorText :=
  .text (row.claimedAt.getD now) row.id

def toClaimView (row : DividendClaim) : DividendClaimView where
  claimId := row.claimId
  distributionId := row.distributionId
  issuerWallet := row.issuerWallet
  cycleFrequency := row.cycleFrequency
  amount := toFixed4 (ofUnits row.amount)
  txHash := row.txHash
  ledgerSequence := row.ledgerSequence
  claimedAt := row.claimedAt

/-- The claims of the wallet that a call finds. -/
def claimWindow (rows : List DividendClaim) (cursor : Option ClaimCursorText) :
    List DividendClaim :=
  let sorted := sortRows compareClaims rows
  match cursor.bind parseCursor with
  | some cursor => sorted.drop (cursorOffset sorted cursor)
  | none => sorted

def getClaimHistory (rows : List DividendClaim) (now : Timestamp) (limit : Option ℤ)
    (cursor : Option ClaimCursorText) : DividendClaimPage :=
  let limit := normalizeLimit limit
  let window := (claimWindow rows cursor).take (limit + 1)
  let page := cutPage limit (formatCursor now) window
  { items := page.items.map toClaimView
    hasMore := decide (limit < window.length)
    nextCursor := page.next }

/-- The pages that `nextCursor` leads to. -/
def followClaims (claims : ClaimRows) (clock : Clock) (limit : Option ℤ) (call : ℕ)
    (cursor : Option ClaimCursorText) : Except Empty (Page DividendClaimView ClaimCursorText) :=
  let page := getClaimHistory claims.rows (clock.now call) limit cursor
  .ok ⟨page.items, page.nextCursor⟩

/-- The claims behind the views of the pages. -/
def followClaimRows (claims : ClaimRows) (clock : Clock) (limit : Option ℤ) (call : ℕ)
    (cursor : Option ClaimCursorText) : Except Empty (Page DividendClaim ClaimCursorText) :=
  .ok (cutPage (normalizeLimit limit) (formatCursor (clock.now call))
    ((claimWindow claims.rows cursor).take (normalizeLimit limit + 1)))

/-! ## The order of the claims -/

/-- Newest first, and by descending ids within one time. -/
def claimOrder : DividendClaim → DividendClaim → Ordering :=
  compareLex (fun left right => compare (timeOf right.claimedAt) (timeOf left.claimedAt))
    fun left right => compare right.id left.id

instance : TransCmp fun left right : DividendClaim =>
    compare (timeOf right.claimedAt) (timeOf left.claimedAt) :=
  inferInstanceAs (TransCmp fun left right : DividendClaim =>
    compareOn (fun claim : DividendClaim => timeOf claim.claimedAt) right left)

instance : TransCmp fun left right : DividendClaim => compare right.id left.id :=
  inferInstanceAs (TransCmp fun left right : DividendClaim =>
    compareOn DividendClaim.id right left)

instance : TransCmp claimOrder :=
  inferInstanceAs (TransCmp (compareLex _ _))

theorem claimOrder_lt {left right : DividendClaim} : claimOrder left right = .lt ↔
    timeOf right.claimedAt < timeOf left.claimedAt ∨
      (timeOf right.claimedAt = timeOf left.claimedAt ∧ right.id < left.id) := by
  rw [claimOrder, compareLex, Ordering.then_eq_lt, compare_lt_iff_lt, compare_eq_iff_eq,
    compare_lt_iff_lt]

theorem isLE_compareClaims (left right : DividendClaim) :
    (compareClaims left right).isLE = (claimOrder left right).isLE := by
  rw [compareClaims, claimOrder, compareLex]
  cases compare (timeOf right.claimedAt) (timeOf left.claimedAt) with
  | lt => rfl
  | gt => rfl
  | eq =>
      rw [Ordering.eq_then, Ordering.eq_then]
      rcases lt_trichotomy left.id right.id with hlt | heq | hgt
      · rw [if_pos hlt, compare_gt_iff_gt.mpr hlt]
      · rw [if_neg heq.not_lt, compare_eq_iff_eq.mpr heq.symm]
        rfl
      · rw [if_neg hgt.not_gt, compare_lt_iff_lt.mpr hgt]

theorem sortRows_compareClaims (rows : List DividendClaim) :
    sortRows compareClaims rows = sortRows claimOrder rows := by
  simp only [sortRows, isLE_compareClaims]

theorem claimOrder_isLE {left right : DividendClaim} (hle : (claimOrder left right).isLE) :
    timeOf right.claimedAt < timeOf left.claimedAt ∨
      (timeOf right.claimedAt = timeOf left.claimedAt ∧ right.id ≤ left.id) := by
  rcases Ordering.isLE_iff_eq_lt_or_eq_eq.mp hle with hlt | heq
  · rcases claimOrder_lt.mp hlt with hlt | ⟨hsame, hid⟩
    · exact .inl hlt
    · exact .inr ⟨hsame, hid.le⟩
  · rw [claimOrder, compareLex, Ordering.then_eq_eq, compare_eq_iff_eq, compare_eq_iff_eq] at heq
    exact .inr ⟨heq.1, heq.2.le⟩

section Claims

variable {claims : ClaimRows} {clock : Clock} {limit : Option ℤ}

theorem distinct_claims : claims.rows.Nodup := claims.unique.of_map

theorem separates_claims : Separates claimOrder claims.rows := by
  intro left hleft right hright hsame
  rw [claimOrder, compareLex, Ordering.then_eq_eq, compare_eq_iff_eq, compare_eq_iff_eq] at hsame
  exact List.inj_on_of_nodup_map claims.unique hleft hright hsame.2.symm

/-- The claims in their order. -/
def sortedClaims (claims : ClaimRows) : List DividendClaim := sortRows claimOrder claims.rows

theorem nodup_sortedClaims (claims : ClaimRows) : (sortedClaims claims).Nodup :=
  nodup_sortRows distinct_claims

theorem normalizeLimit_pos (limit : Option ℤ) : 0 < normalizeLimit limit := by
  unfold normalizeLimit
  split
  · split
    · decide
    · omega
  · decide

/-- What a cursor of a call carries. -/
def cursorOf (clock : Clock) (call : ℕ) (row : DividendClaim) : ClaimCursor :=
  ⟨row.claimedAt.getD (clock.now call), row.id⟩

def cursorText (cursor : ClaimCursor) : ClaimCursorText := .text cursor.claimedAt cursor.id

/-- The listing, continued at the first claim past a cursor. -/
def claimListing (claims : ClaimRows) (clock : Clock) (limit : Option ℤ) :
    Listing DividendClaim ClaimCursor where
  rows := sortedClaims claims
  distinct := nodup_sortedClaims claims
  limit := normalizeLimit limit
  limit_pos := normalizeLimit_pos limit
  eager := false
  cursorOf := cursorOf clock
  found _ cursor := (sortedClaims claims).drop (cursorOffset (sortedClaims claims) cursor)
  found_sublist _ _ := List.drop_sublist _ _

theorem servedBy_claimListing : (claimListing claims clock limit).ServedBy cursorText
    (followClaimRows claims clock limit) := by
  intro call cursor _
  rw [Listing.encode_page rfl]
  have hwindow : claimWindow claims.rows (cursor.map cursorText) =
      (claimListing claims clock limit).foundAt call cursor := by
    rw [claimWindow, sortRows_compareClaims]
    cases cursor <;> rfl
  rw [followClaimRows, hwindow]
  rfl

theorem drop_cursorOffset (sorted : List DividendClaim) (cursor : ClaimCursor) :
    sorted.drop (cursorOffset sorted cursor) =
      sorted.dropWhile fun row => ! pastCursor cursor row := by
  rw [List.dropWhile_eq_drop_findIdx_not, cursorOffset]
  simp only [Bool.not_not]

theorem pastCursor_iff {cursor : ClaimCursor} {row : DividendClaim} :
    pastCursor cursor row ↔ timeOf row.claimedAt < cursor.claimedAt ∨
      (timeOf row.claimedAt = cursor.claimedAt ∧ cursor.id < row.id) :=
  decide_eq_true_iff

/-- A claim is found when one before it, or itself, lies past the cursor. -/
theorem mem_found_iff {cursor : ClaimCursor} {row : DividendClaim} :
    row ∈ (sortedClaims claims).drop (cursorOffset (sortedClaims claims) cursor) ↔
      row ∈ sortedClaims claims ∧ ∃ first ∈ sortedClaims claims,
        (claimOrder first row).isLE ∧ pastCursor cursor first := by
  rw [drop_cursorOffset]
  exact mem_dropWhile_iff (sortRows_strict distinct_claims separates_claims)

theorem past_of_dated {first middle next last : ℤ} {firstId middleId nextId lastId : ℕ}
    (hpast : first < next ∨ (first = next ∧ nextId < firstId))
    (horder : middle < first ∨ (middle = first ∧ middleId < firstId))
    (hle : next < middle ∨ (next = middle ∧ nextId ≤ middleId))
    (hmiddle : middle < last ∨ (middle = last ∧ lastId < middleId)) :
    first < last ∨ (first = last ∧ lastId < firstId) := by
  omega

theorem past_of_undated {first now last : ℤ} {firstId nextId lastId : ℕ}
    (hpast : first < now ∨ (first = now ∧ nextId < firstId))
    (hlast : ¬ (last < now ∨ (last = now ∧ nextId < lastId)))
    (hafter : first < last ∨ (first = last ∧ firstId < lastId)) :
    first < last ∨ (first = last ∧ lastId < firstId) := by
  omega

theorem claimListing_closed : (claimListing claims clock limit).Closed := by
  intro call later before last rest hrows next hnext _ _ hback row hrow
  obtain ⟨hmem, first, hfirst, hle, hpast⟩ := mem_found_iff.mp hrow
  obtain ⟨-, middle, hmiddle, hmiddleNext, hmiddlePast⟩ := mem_found_iff.mp hnext
  apply mem_found_iff.mpr
  refine ⟨hmem, ?_⟩
  by_cases hbefore : (claimOrder middle row).isLE
  · exact ⟨middle, hmiddle, hbefore, hmiddlePast⟩
  refine ⟨first, hfirst, hle, ?_⟩
  -- The rows lie in the order first, row, middle, next.
  have horder : claimOrder first middle = .lt :=
    TransCmp.lt_of_isLE_of_lt hle (OrientedCmp.lt_of_not_isLE hbefore)
  have hself (other : DividendClaim) (hother : other ∈ sortedClaims claims) :
      pastCursor (cursorOf clock later next) other → other ∈ rest := by
    intro hpasses
    apply hback
    exact mem_found_iff.mpr ⟨hother, other, hother, ReflCmp.isLE_rfl, hpasses⟩
  change pastCursor (cursorOf clock later next) first at hpast
  change pastCursor (cursorOf clock call last) middle at hmiddlePast
  change pastCursor (cursorOf clock call last) first
  rw [pastCursor_iff] at hpast hmiddlePast ⊢
  cases hdate : next.claimedAt with
  | some date =>
      have hcursor : (cursorOf clock later next).claimedAt = timeOf next.claimedAt := by
        rw [cursorOf, hdate]
        rfl
      rw [hcursor] at hpast
      exact past_of_dated hpast (claimOrder_lt.mp horder) (claimOrder_isLE hmiddleNext) hmiddlePast
  | none =>
      have hlastMem : last ∈ sortedClaims claims := by
        change sortedClaims claims = _ at hrows
        rw [hrows]
        exact List.mem_append_right _ List.mem_cons_self
      have hlastPast : ¬ pastCursor (cursorOf clock later next) last := by
        intro hpasses
        have hdistinct := nodup_sortedClaims claims
        change sortedClaims claims = _ at hrows
        rw [hrows] at hdistinct
        exact (List.nodup_cons.mp (List.nodup_append.mp hdistinct).2.1).1
          (hself last hlastMem hpasses)
      have hafter : claimOrder last first = .lt :=
        lt_of_mem_rest distinct_claims separates_claims hrows
          (hself first hfirst (pastCursor_iff.mpr hpast))
      rw [pastCursor_iff] at hlastPast
      have hcursor : (cursorOf clock later next).claimedAt = clock.now later := by
        rw [cursorOf, hdate]
        rfl
      rw [hcursor] at hpast hlastPast
      have hlastCursor : (cursorOf clock call last).claimedAt = timeOf last.claimedAt := by
        cases hlast : last.claimedAt with
        | some date =>
            rw [cursorOf, hlast]
            rfl
        | none =>
            rw [hlast] at hlastPast
            exact absurd (.inl (clock.after_epoch later)) hlastPast
      rw [hlastCursor]
      exact past_of_undated hpast hlastPast (claimOrder_lt.mp hafter)

/-- Where a page is cut, the last claim has a time, and no other claim has the same one. -/
def CutsBetweenTimes (claims : ClaimRows) (limit : Option ℤ) : Prop :=
  ∀ before last rest, sortedClaims claims = before ++ last :: rest →
    normalizeLimit limit ∣ before.length + 1 → rest ≠ [] →
      last.claimedAt.isSome ∧
        ∀ other ∈ before ++ rest, timeOf other.claimedAt ≠ timeOf last.claimedAt

/-- The first claim past the cursor of a row is the next one exactly when the row has a time
that no other claim has. -/
theorem drop_eq_rest_iff (call : ℕ) {before rest : List DividendClaim} {last first : DividendClaim}
    (hrows : sortedClaims claims = before ++ last :: first :: rest) :
    (sortedClaims claims).drop (cursorOffset (sortedClaims claims) (cursorOf clock call last)) =
        first :: rest ↔
      last.claimedAt.isSome ∧ ∀ other ∈ before ++ first :: rest,
        timeOf other.claimedAt ≠ timeOf last.claimedAt := by
  have hdistinct := nodup_sortedClaims claims
  have hbefore (earlier : DividendClaim) (hearlier : earlier ∈ before) :=
    claimOrder_lt.mp (lt_of_mem_before distinct_claims separates_claims hrows hearlier)
  have hafter (later : DividendClaim) (hlater : later ∈ first :: rest) :=
    claimOrder_lt.mp (lt_of_mem_rest distinct_claims separates_claims hrows hlater)
  have hfirst := hafter first List.mem_cons_self
  have hrest (later : DividendClaim) (hlater : later ∈ rest) :
      timeOf later.claimedAt ≤ timeOf first.claimedAt := by
    have hcut : sortedClaims claims = (before ++ [last]) ++ first :: rest := by
      rw [hrows, List.append_cons]
    rcases claimOrder_lt.mp (lt_of_mem_rest distinct_claims separates_claims hcut hlater) with
      hlt | ⟨heq, -⟩
    · exact hlt.le
    · exact heq.le
  rw [drop_cursorOffset, hrows, dropWhile_eq_rest_iff (hrows ▸ hdistinct)]
  simp only [pastCursor_iff]
  rcases Option.eq_none_or_eq_some last.claimedAt with hdate | ⟨date, hdate⟩
  · have hnow : timeOf last.claimedAt < (cursorOf clock call last).claimedAt := by
      rw [cursorOf, hdate]
      exact clock.after_epoch call
    constructor
    · rintro ⟨-, hlast, -⟩
      exact absurd (.inl hnow) hlast
    · rintro ⟨hsome, -⟩
      rw [hdate] at hsome
      cases hsome
  · have hcursor : (cursorOf clock call last).claimedAt = timeOf last.claimedAt := by
      rw [cursorOf, hdate]
      rfl
    have hid : (cursorOf clock call last).id = last.id := rfl
    rw [hcursor, hid]
    constructor
    · rintro ⟨hearlier, -, hnext⟩
      have hlt : timeOf first.claimedAt < timeOf last.claimedAt := by
        rcases hnext with hlt | ⟨heq, hid⟩
        · exact hlt
        · rcases hfirst with hlt | ⟨-, hother⟩
          · exact hlt
          · exact absurd hid hother.not_gt
      refine ⟨by rw [hdate]; rfl, ?_⟩
      intro other hother hsame
      rcases List.mem_append.mp hother with hother | hother
      · rcases hbefore other hother with hlater | ⟨-, hgreater⟩
        · exact absurd hsame hlater.ne'
        · exact hearlier other hother (.inr ⟨hsame, hgreater⟩)
      · rcases List.mem_cons.mp hother with rfl | hother
        · exact hlt.ne hsame
        · exact ((hrest other hother).trans_lt hlt).ne hsame
    · rintro ⟨-, hothers⟩
      refine ⟨?_, ?_, ?_⟩
      · intro earlier hearlier
        have hdiffer := hothers earlier (List.mem_append_left _ hearlier)
        rintro (hlt | ⟨heq, -⟩)
        · rcases hbefore earlier hearlier with hgt | ⟨heq, -⟩
          · exact hlt.not_gt hgt
          · exact hdiffer heq.symm
        · exact hdiffer heq
      · rintro (hlt | ⟨-, hlt⟩)
        · exact lt_irrefl _ hlt
        · exact lt_irrefl _ hlt
      · have hdiffer := hothers first (List.mem_append_right _ List.mem_cons_self)
        exact .inl (hfirst.resolve_right fun htie => hdiffer htie.1)

theorem claimListing_clean_iff :
    (claimListing claims clock limit).Clean ↔ CutsBetweenTimes claims limit := by
  apply forall₄_congr
  intro before last rest hrows
  change (_ ∧ rest ≠ []) ∨ (false = true ∧ _) → (sortedClaims claims).drop
    (cursorOffset (sortedClaims claims) (cursorOf clock _ last)) = rest ↔ _
  cases rest with
  | nil => simp
  | cons first rest =>
      rw [drop_eq_rest_iff _ hrows]
      simp [claimListing]

/-- Views tell the claims apart by their claim ids. -/
theorem toClaimView_injOn : ∀ left ∈ claims.rows, ∀ right ∈ claims.rows,
    toClaimView left = toClaimView right → left = right := by
  intro left hleft right hright hsame
  exact List.inj_on_of_nodup_map claims.uniqueClaims hleft hright
    (congrArg DividendClaimView.claimId hsame)

theorem followClaims_eq :
    followClaims claims clock limit = presented toClaimView (followClaimRows claims clock limit) :=
  rfl

/-- The claims are returned in their order, each of them once, exactly when the last claim of
each page that is cut has a time that no other claim has. -/
theorem returnsInOrder_iff_cutsBetweenTimes (claims : ClaimRows) (clock : Clock)
    (limit : Option ℤ) :
    ReturnsInOrder (followClaims claims clock limit) ((sortedClaims claims).map toClaimView) ↔
      CutsBetweenTimes claims limit := by
  calc
    ReturnsInOrder (followClaims claims clock limit) ((sortedClaims claims).map toClaimView) ↔
        ReturnsInOrder (followClaimRows claims clock limit) (sortedClaims claims) := by
      rw [followClaims_eq]
      apply returnsInOrder_presented_iff
      · intro left hleft right hright
        exact toClaimView_injOn left (mem_sortRows.mp hleft) right (mem_sortRows.mp hright)
      · intro pages hwalk
        exact Listing.mem_rows_of_servedBy servedBy_claimListing hwalk
    _ ↔ (claimListing claims clock limit).Clean :=
      Listing.returnsInOrder_iff_of_servedBy servedBy_claimListing claimListing_closed
    _ ↔ CutsBetweenTimes claims limit := claimListing_clean_iff

end Claims

/-- Two claims of one time. -/
def claimedTogether : ClaimRows where
  rows :=
    [⟨1, "claim-a", none, none, "GHOLDER", 1000, none, none, none, some 1767225600000⟩,
      ⟨2, "claim-b", none, none, "GHOLDER", 2000, none, none, none, some 1767225600000⟩]
  unique := by decide
  uniqueClaims := by decide

def newYear : Clock := ⟨fun _ => 1767225700000, fun _ => by decide⟩

/-- The second claim has the smaller id, so it does not lie past the cursor of the first one. -/
theorem claimedTogether_skipped : ¬ ReturnsInOrder (followClaims claimedTogether newYear (some 1))
    ((sortedClaims claimedTogether).map toClaimView) := by
  have hfollow : follow (followClaims claimedTogether newYear (some 1)) 2 0 none =
      some [[⟨"claim-b", none, none, none, 2000, none, none, some 1767225600000⟩], []] := by
    decide +kernel
  exact fun horder => not_returnsOnce_of_follow hfollow (by decide +kernel) horder.once

end StellarSettle.ClaimHistory
