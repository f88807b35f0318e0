import StellarSettle.Core.FallbackCopies
import StellarSettle.Model.Entities
import StellarSettle.Projections.ReadModelCaches

/-!
# The cache of invoices

Processes share one Redis, and each keeps what it set in a map of its own.  A `get` that
finds nothing in Redis is answered from that map.  An invalidation deletes keys by patterns:
from the map of its process with a regular expression, and from Redis with `KEYS` and `DEL`.

Redis is taken to work; it may drop a key at any time.  The clock does not go back.
-/

namespace StellarSettle.InvoiceCache

open StellarSettle.Entities
open StellarSettle.FallbackCopies
open StellarSettle.ReadModelCaches (keyPart_injective colon_not_mem_toString)
open StellarSettle.TextPatterns (toString_injective)
open StellarSettle.TransitionSystem

/-! ## Keys -/

/-- The text of an id: letters, digits and hyphens, none of which a pattern reads otherwise. -/
@[ext]
structure IdText where
  text : String
  plain : ∀ c ∈ text.toList, c.isAlphanum = true ∨ c = '-'
  deriving DecidableEq

theorem plain_of_all {text : String}
    (hall : (text.toList.all fun c => c.isAlphanum || c == '-') = true) :
    ∀ c ∈ text.toList, c.isAlphanum = true ∨ c = '-' := by
  intro c hc
  have hplain := List.all_eq_true.mp hall c hc
  rwa [Bool.or_eq_true, beq_iff_eq] at hplain

/-- What a key is built from. -/
inductive CacheKey where
  | list (sellerId : IdText) (page limit : ℕ) (status : Option InvoiceStatus)
  | detail (sellerId invoiceId : IdText)
  deriving DecidableEq

def buildListKey (sellerId : IdText) (page limit : ℕ) (status : Option InvoiceStatus) : String :=
  "invoices" ++ ":" ++ ("list" ++ ":" ++ (sellerId.text ++ ":" ++ (toString page ++ ":" ++
    (toString limit ++ ":" ++ (status.map InvoiceStatus.text).getD "all"))))

def buildDetailKey (sellerId invoiceId : IdText) : String :=
  "invoices" ++ ":" ++ ("detail" ++ ":" ++ (sellerId.text ++ ":" ++ invoiceId.text))

def CacheKey.text : CacheKey → String
  | .list sellerId page limit status => buildListKey sellerId page limit status
  | .detail sellerId invoiceId => buildDetailKey sellerId invoiceId

/-! ## Patterns -/

/-- What may be left of a text when characters of one kind are skipped. -/
def skips (skipped : Char → Bool) : List Char → List (List Char)
  | [] => [[]]
  | c :: text => (c :: text) :: if skipped c then skips skipped text else []

/-- A star skips characters of one kind, and any other character stands for itself. -/
def matchesPattern (skipped : Char → Bool) : List Char → List Char → Bool
  | [], text => text.isEmpty
  | '*' :: pattern, text => (skips skipped text).any (matchesPattern skipped pattern)
  | _ :: _, [] => false
  | c :: pattern, first :: text => c = first && matchesPattern skipped pattern text

/-- What a dot of a regular expression does not match. -/
def isLineTerminator (c : Char) : Bool :=
  c = '\n' || c = '\r' || c = '\u2028' || c = '\u2029'

/-- The keys that `delPattern` deletes from the map and from Redis. -/
def delPattern (pattern : String) : Pattern CacheKey where
  inMemory key :=
    matchesPattern (fun c => !isLineTerminator c) pattern.toList key.text.toList
  inStore key := matchesPattern (fun _ => true) pattern.toList key.text.toList

section Facts

variable {skipped : Char → Bool} {sellerId invoiceId : IdText}

theorem IdText.not_mem_of_special (id : IdText) {c : Char} (hletter : c.isAlphanum = false)
    (hhyphen : c ≠ '-') : c ∉ id.text.toList := by
  intro hmem
  rcases id.plain c hmem with hplain | hplain
  · exact absurd (hplain.symm.trans hletter) (by decide)
  · exact hhyphen hplain

theorem statusText_injective {left right : Option InvoiceStatus}
    (hsame : (left.map InvoiceStatus.text).getD "all" =
      (right.map InvoiceStatus.text).getD "all") : left = right := by
  cases left with
  | none =>
      cases right with
      | none => rfl
      | some right => cases right <;> exact absurd hsame (by decide)
  | some left =>
      cases right with
      | none => cases left <;> exact absurd hsame (by decide)
      | some right =>
          cases left <;> cases right <;> first | rfl | exact absurd hsame (by decide)

/-- A key stands for one view. -/
theorem text_injective : Function.Injective CacheKey.text := by
  intro left right hsame
  have hcolon : ∀ id : IdText, ':' ∉ id.text.toList := fun id =>
    id.not_mem_of_special (by decide) (by decide)
  cases left <;> cases right <;>
    obtain ⟨-, hrest⟩ := keyPart_injective (by decide) (by decide) hsame
  case list.list seller page limit status other otherPage otherLimit otherStatus =>
    obtain ⟨-, hseller⟩ := keyPart_injective (by decide) (by decide) hrest
    obtain ⟨hsellers, hpage⟩ := keyPart_injective (hcolon _) (hcolon _) hseller
    obtain ⟨hpages, hlimit⟩ := keyPart_injective (colon_not_mem_toString _)
      (colon_not_mem_toString _) hpage
    obtain ⟨hlimits, hstatus⟩ := keyPart_injective (colon_not_mem_toString _)
      (colon_not_mem_toString _) hlimit
    rw [IdText.ext hsellers, toString_injective hpages, toString_injective hlimits,
      statusText_injective hstatus]
  case detail.detail seller invoice other otherInvoice =>
    obtain ⟨-, hids⟩ := keyPart_injective (by decide) (by decide) hrest
    obtain ⟨hsellers, hinvoices⟩ := keyPart_injective (hcolon _) (hcolon _) hids
    rw [IdText.ext hsellers, IdText.ext hinvoices]
  all_goals exact absurd (keyPart_injective (by decide) (by decide) hrest).1 (by decide)

/-- A pattern matches what it starts with, and then what its rest matches. -/
theorem matchesPattern_append {start : List Char} (hplain : '*' ∉ start)
    (pattern text : List Char) : matchesPattern skipped (start ++ pattern) (start ++ text) =
      matchesPattern skipped pattern text := by
  induction start with
  | nil => rfl
  | cons c start ih =>
      have hother : c ≠ '*' := fun hstar => hplain (hstar ▸ List.mem_cons_self)
      rw [List.cons_append, List.cons_append, matchesPattern, decide_eq_true rfl, Bool.true_and,
        ih (List.not_mem_of_not_mem_cons hplain)]
      exact hother

theorem nil_mem_skips {text : List Char} (hall : ∀ c ∈ text, skipped c = true) :
    [] ∈ skips skipped text := by
  induction text with
  | nil => exact List.mem_singleton_self []
  | cons c text ih =>
      rw [skips, if_pos (hall c List.mem_cons_self)]
      exact List.mem_cons_of_mem _
        (ih fun other hother => hall other (List.mem_cons_of_mem _ hother))

theorem matchesPattern_star {text : List Char} (hall : ∀ c ∈ text, skipped c = true) :
    matchesPattern skipped ['*'] text = true := by
  rw [matchesPattern, List.any_eq_true]
  exact ⟨[], nil_mem_skips hall, rfl⟩

theorem isLineTerminator_toString {number : ℕ} {c : Char} (hc : c ∈ (toString number).toList) :
    isLineTerminator c = false := by
  rw [Nat.toString_eq_repr, Nat.toList_repr] at hc
  have hdigit := Nat.isDigit_of_mem_toDigits (by decide) (by decide) hc
  have hother : ∀ other : Char, other.isDigit = false → c ≠ other := by
    rintro other hfalse rfl
    exact absurd (hdigit.symm.trans hfalse) (by decide)
  simp only [isLineTerminator, Bool.or_eq_false_iff, decide_eq_false_iff_not]
  exact ⟨⟨⟨hother _ (by decide), hother _ (by decide)⟩, hother _ (by decide)⟩,
    hother _ (by decide)⟩

theorem isLineTerminator_status {status : Option InvoiceStatus} {c : Char}
    (hc : c ∈ ((status.map InvoiceStatus.text).getD "all").toList) :
    isLineTerminator c = false := by
  have hstatus : (((status.map InvoiceStatus.text).getD "all").toList.all fun other =>
      !isLineTerminator other) = true := by
    cases status with
    | none => rfl
    | some status => cases status <;> rfl
  have hother := List.all_eq_true.mp hstatus c hc
  rwa [Bool.not_eq_true'] at hother

/-- The pattern of an invoice's detail matches its key. -/
theorem delPattern_detail (sellerId invoiceId : IdText) :
    (delPattern (buildDetailKey sellerId invoiceId)).Matches (.detail sellerId invoiceId) := by
  have hplain : '*' ∉ (buildDetailKey sellerId invoiceId).toList := by
    simp only [buildDetailKey, String.toList_append, List.mem_append, not_or]
    exact ⟨⟨by decide, by decide⟩, ⟨by decide, by decide⟩,
      ⟨sellerId.not_mem_of_special (by decide) (by decide), by decide⟩,
      invoiceId.not_mem_of_special (by decide) (by decide)⟩
  have hself : ∀ skipped, matchesPattern skipped (buildDetailKey sellerId invoiceId).toList
      (buildDetailKey sellerId invoiceId).toList = true := by
    intro skipped
    have happend : matchesPattern skipped ((buildDetailKey sellerId invoiceId).toList ++ [])
        ((buildDetailKey sellerId invoiceId).toList ++ []) = true :=
      matchesPattern_append hplain [] []
    rwa [List.append_nil] at happend
  exact ⟨hself _, hself _⟩

def listPattern (sellerId : IdText) : String :=
  "invoices" ++ ":" ++ ("list" ++ ":" ++ (sellerId.text ++ ":" ++ "*"))

/-- The pattern of a seller's lists matches the keys of all of them. -/
theorem delPattern_list (sellerId : IdText) (page limit : ℕ) (status : Option InvoiceStatus) :
    (delPattern (listPattern sellerId)).Matches (.list sellerId page limit status) := by
  set start := ("invoices" ++ ":" ++ ("list" ++ ":" ++ (sellerId.text ++ ":"))).toList with hstart
  have hplain : '*' ∉ start := by
    simp only [hstart, String.toList_append, List.mem_append, not_or]
    exact ⟨⟨by decide, by decide⟩, ⟨by decide, by decide⟩,
      sellerId.not_mem_of_special (by decide) (by decide), by decide⟩
  set rest := (toString page ++ ":" ++ (toString limit ++ ":" ++
    (status.map InvoiceStatus.text).getD "all")).toList with hrest
  have hpattern : (listPattern sellerId).toList = start ++ ['*'] := by
    simp [listPattern, hstart]
  have htext : (CacheKey.list sellerId page limit status).text.toList = start ++ rest := by
    simp [CacheKey.text, buildListKey, hstart, hrest]
  have hline : ∀ c ∈ rest, isLineTerminator c = false := by
    intro c hc
    simp only [hrest, String.toList_append, List.mem_append] at hc
    rcases hc with (hpage | hcolon) | (hlimit | hcolon) | hstatus
    · exact isLineTerminator_toString hpage
    · obtain rfl := List.mem_singleton.mp hcolon
      decide
    · exact isLineTerminator_toString hlimit
    · obtain rfl := List.mem_singleton.mp hcolon
      decide
    · exact isLineTerminator_status hstatus
  have hmatches : ∀ skipped : Char → Bool, (∀ c ∈ rest, skipped c = true) →
      matchesPattern skipped (listPattern sellerId).toList
        (CacheKey.list sellerId page limit status).text.toList = true := by
    intro skipped hall
    rw [hpattern, htext, matchesPattern_append hplain]
    exact matchesPattern_star hall
  refine ⟨hmatches _ fun c hc => ?_, hmatches _ fun _ _ => rfl⟩
  rw [hline c hc]
  rfl

end Facts

/-! ## Operations -/

structure InvoiceCacheOptions where
  listTtlSeconds : ℤ := 30
  detailTtlSeconds : ℤ := 60
  enabled : Bool := true

/-- `data` is the JSON text of what is set. -/
inductive Operation where
  | getInvoicesList (sellerId : IdText) (page limit : ℕ) (status : Option InvoiceStatus)
  | setInvoicesList (sellerId : IdText) (page limit : ℕ) (status : Option InvoiceStatus)
      (data : String) (ttlSeconds : Option ℤ)
  | getInvoiceDetail (sellerId invoiceId : IdText)
  | setInvoiceDetail (sellerId invoiceId : IdText) (data : String) (ttlSeconds : Option ℤ)
  | invalidateInvoice (invoiceId : IdText) (sellerId : Option IdText)
  | invalidateSellerInvoices (sellerId : IdText)
  | invalidateAll

/-- Patterns of which nothing is asked here. -/
def sweeping (patterns : List String) : Invalidation CacheKey where
  patterns := patterns.map delPattern
  covers _ := false
  matched _ hcovers := absurd hcovers Bool.false_ne_true

/-- The invalidation of an invoice of a seller covers its detail and the lists of the seller. -/
def invoiceOfSeller (invoiceId sellerId : IdText) : Invalidation CacheKey where
  patterns := [delPattern (buildDetailKey sellerId invoiceId), delPattern (listPattern sellerId)]
  covers
    | .detail seller invoice => seller = sellerId ∧ invoice = invoiceId
    | .list seller _ _ _ => seller = sellerId
  matched key hcovers := by
    cases key with
    | detail seller invoice =>
        obtain ⟨rfl, rfl⟩ := of_decide_eq_true hcovers
        exact ⟨_, List.mem_cons_self, delPattern_detail seller invoice⟩
    | list seller page limit status =>
        obtain rfl := of_decide_eq_true hcovers
        exact ⟨_, List.mem_cons_of_mem _ (List.mem_singleton_self _),
          delPattern_list seller page limit status⟩

/-- What an operation does when the cache is enabled; a disabled one does nothing. -/
def request (options : InvoiceCacheOptions) (operation : Operation) :
    Request CacheKey String :=
  if options.enabled = false then .nothing
  else
    match operation with
    | .getInvoicesList sellerId page limit status => .get (.list sellerId page limit status)
    | .setInvoicesList sellerId page limit status data ttlSeconds =>
        .set (.list sellerId page limit status) data
          ((ttlSeconds.getD options.listTtlSeconds) * 1000)
    | .getInvoiceDetail sellerId invoiceId => .get (.detail sellerId invoiceId)
    | .setInvoiceDetail sellerId invoiceId data ttlSeconds =>
        .set (.detail sellerId invoiceId) data
          ((ttlSeconds.getD options.detailTtlSeconds) * 1000)
    | .invalidateInvoice invoiceId (some sellerId) =>
        .invalidate (invoiceOfSeller invoiceId sellerId)
    | .invalidateInvoice invoiceId none =>
        .invalidate (sweeping ["invoices:detail:*:" ++ invoiceId.text, "invoices:list:*"])
    | .invalidateSellerInvoices sellerId =>
        .invalidate (sweeping [listPattern sellerId,
          "invoices" ++ ":" ++ ("detail" ++ ":" ++ (sellerId.text ++ ":" ++ "*"))])
    | .invalidateAll => .invalidate (sweeping ["invoices:*"])

theorem exists_get {options : InvoiceCacheOptions} (henabled : ¬options.enabled = false)
    (key : CacheKey) : ∃ reading, request options reading = .get key := by
  cases key with
  | list sellerId page limit status =>
      exact ⟨.getInvoicesList sellerId page limit status, if_neg henabled⟩
  | detail sellerId invoiceId =>
      exact ⟨.getInvoiceDetail sellerId invoiceId, if_neg henabled⟩

/-- No read returns what was set before an invalidation that had returned when the read started,
as long as no process but the invalidating one holds a live copy of a detail or list that is
invalidated; and where one does, a read after the invalidation may return that copy. -/
theorem invalidation_clears_iff_alone {Process : Type} [DecidableEq Process]
    (options : InvoiceCacheOptions) (now : ℤ) :
    (∀ events (after : World Process CacheKey String),
      GuardedRun (step (request options)) (Alone (request options)) { now := now } events after →
        NothingCleared after) ∧
      ∀ events (world : World Process CacheKey String) process invoiceId sellerId,
        Run (step (request options)) { now := now } events world →
        ¬Alone (request options) world
          (.start process (.invalidateInvoice invoiceId (some sellerId))) →
        ∃ later after, Run (step (request options)) world
            (.start process (.invalidateInvoice invoiceId (some sellerId)) :: later) after ∧
          ¬NothingCleared after := by
  constructor
  · intro events after hrun
    exact nothingCleared_of_alone hrun
  · intro events world process invoiceId sellerId hrun hshared
    simp only [Alone, not_forall, not_lt] at hshared
    obtain ⟨invalidation, hasks, other, hother, key, hcovers, copy, hcopy, hlive⟩ := hshared
    have henabled : ¬options.enabled = false := by
      intro hdisabled
      rw [request, if_pos hdisabled] at hasks
      cases hasks
    obtain ⟨reading, hreads⟩ := exists_get henabled key
    exact exists_cleared_returned hrun hasks hreads hcovers hother hcopy hlive

/-! ## A copy of another process -/

/-- What the reads have returned, with what their keys had been cleared of. -/
def results {Process Key Value : Type*} (world : World Process Key Value) :
    List (List ℕ × Copy Value) :=
  world.calls.filterMap fun call =>
    match call with
    | .returned cleared (some copy) => some (cleared, copy)
    | _ => none

theorem not_nothingCleared {Process Key Value : Type*} {world : World Process Key Value}
    {cleared : List ℕ} {copy : Copy Value} (hresult : (cleared, copy) ∈ results world)
    (hcleared : copy.writer ∈ cleared) : ¬NothingCleared world := by
  obtain ⟨call, hcall, hfound⟩ := List.mem_filterMap.mp hresult
  split at hfound
  · obtain ⟨rfl, rfl⟩ := Prod.mk.inj (Option.some.inj hfound)
    exact fun hnothing => hnothing _ _ hcall hcleared
  · cases hfound

def sellerText : IdText where
  text := "seller"
  plain := plain_of_all rfl

def invoiceText : IdText where
  text := "invoice"
  plain := plain_of_all rfl

/-- One process sets a detail, another invalidates it, and the first reads it. -/
def staleRead : List (Event Bool CacheKey Operation) :=
  [.start true (.setInvoiceDetail sellerText invoiceText "old" none), .store 0, .keep 0,
    .start false (.invalidateInvoice invoiceText (some sellerText)),
    .scan 1, .delete 1, .advance 1, .scan 1, .delete 1, .advance 1,
    .start true (.getInvoiceDetail sellerText invoiceText), .ask 2, .fallBack 2]

theorem staleRead_returns_old :
    ∃ after, Run (step (request {})) ({ now := 0 } : World Bool CacheKey String) staleRead
      after ∧ ¬NothingCleared after := by
  have hexec : (exec (step (request {})) ({ now := 0 } : World Bool CacheKey String)
      staleRead).map results = some [([0], ⟨0, "old", 60000⟩)] := by decide
  obtain ⟨after, hrun, hresults⟩ := exists_run hexec
  have hresult : ([0], ⟨0, "old", 60000⟩) ∈ results after := by
    rw [hresults]
    exact List.mem_singleton_self _
  exact ⟨after, hrun, not_nothingCleared hresult List.mem_cons_self⟩

end StellarSettle.InvoiceCache
