import StellarSettle.Core.TextPatterns
import StellarSettle.Core.TransitionSystem
import StellarSettle.Model.DecimalJs
import StellarSettle.Pagination.QueryPagination
import StellarSettle.Projections.EventReader

/-!
# The warnings of expiring subscriptions

`SubscriptionExpiryNotifierService` warns a subscriber seven days and one day before a
subscription expires.  A warning is sent under a key that names the cycle of the subscription,
and the cycle is written back to the row from which the next check reads it.
-/

namespace StellarSettle.ExpiryWarnings

open StellarSettle.DecimalJs
open StellarSettle.Entities (Timestamp)
open StellarSettle.EventReader (trimText)
open StellarSettle.QueryPagination (civilDate padded toISOString yearText)
open StellarSettle.TextPatterns
open StellarSettle.TransitionSystem

/-! ## Subscriptions -/

inductive ExpiryWarningWindow where
  | sevenDays
  | twentyFourHours
  deriving DecidableEq, Repr

def ExpiryWarningWindow.text : ExpiryWarningWindow → String
  | sevenDays => "7d"
  | twentyFourHours => "24h"

def MS_PER_DAY : ℤ := 24 * 60 * 60 * 1000

def MS_PER_HOUR : ℤ := 60 * 60 * 1000

/-- A Stellar address. -/
structure Wallet where
  text : String
  noColon : ':' ∉ text.toList
  deriving DecidableEq

/-- The columns of the unique index. -/
structure SubscriptionKey where
  wallet : Wallet
  keyId : String
  deriving DecidableEq

/-- The columns that others write. -/
structure Terms where
  keyName : Option String
  minHolding : Decimal
  currentBalance : Option Decimal
  expiryLedger : Option ℤ
  expiryDate : Option Timestamp
  isActive : Bool
  deriving DecidableEq, Repr

structure KeySubscription extends Terms where
  lastNotifiedCycle : Option String
  lastNotifiedWindow : Option ExpiryWarningWindow
  deriving DecidableEq, Repr

structure SubscriptionCandidate where
  key : SubscriptionKey
  keyName : Option String
  minHolding : Decimal
  currentBalance : Option Decimal
  expiryDate : Timestamp
  expiryLedger : Option ℤ
  cycleId : Option String

/-- A row of `findExpiringCandidates`. -/
def findExpiringCandidate (currentDate : Timestamp) (key : SubscriptionKey)
    (row : KeySubscription) : Option SubscriptionCandidate :=
  match row.expiryDate with
  | none => none
  | some expiryDate =>
      if row.isActive ∧ currentDate < expiryDate ∧ expiryDate ≤ currentDate + 7 * MS_PER_DAY then
        some
          { key := key
            keyName := row.keyName
            minHolding := row.minHolding
            currentBalance := row.currentBalance
            expiryDate := expiryDate
            expiryLedger := row.expiryLedger
            cycleId := row.lastNotifiedCycle }
      else none

/-! ## One check -/

/-- What the services answer during a check: the name of the key, the id of the user, and the
holding with its minimum.  Each may be missing. -/
structure Lookups where
  creatorKeyName : Option String
  userId : Option String
  holding : Option (Decimal × Decimal)
  deriving DecidableEq, Repr

def resolveKeyName (lookups : Lookups) (candidate : SubscriptionCandidate) : String :=
  match (candidate.keyName.map trimText).filter (· ≠ "") with
  | some keyName => keyName
  | none => (lookups.creatorKeyName.filter (· ≠ "")).getD candidate.key.keyId

/-- The days and hours that remain are those of the difference. -/
def calculateExpiryWindow (expiryDate now : Timestamp) : Option ExpiryWarningWindow :=
  let diffMs := expiryDate - now
  if 0 < diffMs ∧ diffMs ≤ 24 * MS_PER_HOUR then some .twentyFourHours
  else if 0 < diffMs ∧ diffMs ≤ 7 * MS_PER_DAY then some .sevenDays
  else none

structure HoldingCheck where
  meetsHolding : Bool
  currentBalance : Decimal
  minHolding : Decimal
  deriving DecidableEq, Repr

/-- A row always has a minimum, so only its balance may be read from the chain. -/
def verifyHolding (lookups : Lookups) (candidate : SubscriptionCandidate) : HoldingCheck :=
  let currentBalance :=
    (candidate.currentBalance <|> lookups.holding.map Prod.fst).getD 0
  { meetsHolding := decide (candidate.minHolding ≤ currentBalance)
    currentBalance := currentBalance
    minHolding := candidate.minHolding }

/-- An empty cycle counts as none. -/
def resolveCycleId (candidate : SubscriptionCandidate) : String :=
  match candidate.cycleId.filter (· ≠ "") with
  | some cycleId => cycleId
  | none =>
      match candidate.expiryLedger with
      | some expiryLedger => toString expiryLedger
      | none => String.ofList ((toISOString candidate.expiryDate).toList.take 10)

def dedupeKey (key : SubscriptionKey) (cycleId : String) (window : ExpiryWarningWindow) :
    String :=
  "sub_expiry:" ++ key.wallet.text ++ ":" ++ key.keyId ++ ":" ++ cycleId ++ ":" ++ window.text

/-- The numbers of whole days and hours are rounded up. -/
def ceilDiv (value unit : ℤ) : ℤ := max 0 (-(-value / unit))

/-- The `data` of a notification.  The expiry and the minimum stand there under two names each. -/
structure NotificationData where
  keyId : String
  keyName : String
  expiryDate : String
  minHolding : String
  currentBalance : String
  window : ExpiryWarningWindow
  cycleId : String
  daysRemaining : ℤ
  hoursRemaining : ℤ
  deriving DecidableEq, Repr

structure Notification where
  userId : String
  title : String
  message : String
  data : NotificationData
  dedupeKey : String
  deriving DecidableEq, Repr

def warningTitle (keyName : String) : ExpiryWarningWindow → String
  | .twentyFourHours => "Urgent: Subscription Expiring in 24 Hours - " ++ keyName
  | .sevenDays => "Subscription Expiring Soon: " ++ keyName

def warningMessage (keyName expiry minHolding : String) : ExpiryWarningWindow → String
  | .twentyFourHours =>
      "Urgent: Your subscription for key \"" ++ keyName ++ "\" expires in less than 24 hours on " ++
        expiry ++ ". Maintain a minimum holding of " ++ minHolding ++
          " tokens to prevent service disruption."
  | .sevenDays =>
      "Your subscription for key \"" ++ keyName ++ "\" expires on " ++ expiry ++
        ". Maintain a minimum holding of " ++ minHolding ++
          " tokens to retain uninterrupted access."

def buildNotification (lookups : Lookups) (candidate : SubscriptionCandidate) (now : Timestamp)
    (holding : HoldingCheck) (window : ExpiryWarningWindow) (cycleId : String) : Notification :=
  let keyName := resolveKeyName lookups candidate
  let expiry := toISOString candidate.expiryDate
  let minHolding := decimalText holding.minHolding
  { userId := (lookups.userId.filter (· ≠ "")).getD candidate.key.wallet.text
    title := warningTitle keyName window
    message := warningMessage keyName expiry minHolding window
    data :=
      { keyId := candidate.key.keyId
        keyName := keyName
        expiryDate := expiry
        minHolding := minHolding
        currentBalance := decimalText holding.currentBalance
        window := window
        cycleId := cycleId
        daysRemaining := ceilDiv (candidate.expiryDate - now) MS_PER_DAY
        hoursRemaining := ceilDiv (candidate.expiryDate - now) MS_PER_HOUR }
    dedupeKey := dedupeKey candidate.key cycleId window }

/-- A notification with the subscription and the expiry that it is about. -/
structure Warning where
  key : SubscriptionKey
  expiryDate : Timestamp
  window : ExpiryWarningWindow
  cycleId : String
  notification : Notification
  deriving DecidableEq

/-- The rows under their unique index, the keys in the memory of the process, and the stored
notifications with the oldest first. -/
structure System where
  rows : SubscriptionKey → Option KeySubscription
  sentKeys : List String
  warnings : List Warning

inductive CheckOutcomeStatus where
  | notified
  | skippedMeetsMinimumHolding
  | skippedDuplicate
  | skippedOutsideWindow
  | skippedAlreadyExpired
  deriving DecidableEq, Repr

/-- A key that is found among the notifications is remembered. -/
def isDuplicate (key : String) (system : System) : Bool :=
  decide (key ∈ system.sentKeys) ||
    system.warnings.any fun warning => decide (warning.notification.dedupeKey = key)

def recordSent (key : String) (system : System) : System :=
  { system with
    sentKeys := if key ∈ system.sentKeys then system.sentKeys else key :: system.sentKeys }

/-- The write of the database source. -/
def recordNotificationSent (key : SubscriptionKey) (cycleId : String)
    (window : ExpiryWarningWindow) (system : System) : System :=
  { system with
    rows := Function.update system.rows key
      ((system.rows key).map fun existing =>
        { existing with lastNotifiedCycle := some cycleId, lastNotifiedWindow := some window }) }

/-- A check from `createNotification` on. -/
def sendWarning (lookups : Lookups) (now : Timestamp) (candidate : SubscriptionCandidate)
    (window : ExpiryWarningWindow) (system : System) : System :=
  let cycleId := resolveCycleId candidate
  let notification :=
    buildNotification lookups candidate now (verifyHolding lookups candidate) window cycleId
  let warned := { system with
    warnings := system.warnings ++
      [ { key := candidate.key
          expiryDate := candidate.expiryDate
          window := window
          cycleId := cycleId
          notification := notification } ] }
  recordNotificationSent candidate.key cycleId window
    (recordSent notification.dedupeKey warned)

def checkSubscription (lookups : Lookups) (now : Timestamp) (candidate : SubscriptionCandidate)
    (system : System) : CheckOutcomeStatus × System :=
  if candidate.expiryDate ≤ now then (.skippedAlreadyExpired, system)
  else
    match calculateExpiryWindow candidate.expiryDate now with
    | none => (.skippedOutsideWindow, system)
    | some window =>
        if (verifyHolding lookups candidate).meetsHolding then (.skippedMeetsMinimumHolding, system)
        else
          let key := dedupeKey candidate.key (resolveCycleId candidate) window
          if isDuplicate key system then (.skippedDuplicate, recordSent key system)
          else (.notified, sendWarning lookups now candidate window system)

/-! ## Runs -/

inductive Event where
  /-- The candidates are queried at one time and checked at another. -/
  | check (key : SubscriptionKey) (currentDate now : Timestamp) (lookups : Lookups)
  /-- A renewal, or any other change of what a subscription is. -/
  | renew (key : SubscriptionKey) (terms : Terms)
  /-- A restart forgets the keys in memory. -/
  | restart
  deriving DecidableEq

/-- The candidate that a check finds. -/
def candidateAt (system : System) (key : SubscriptionKey) (currentDate : Timestamp) :
    Option SubscriptionCandidate :=
  (system.rows key).bind (findExpiringCandidate currentDate key)

def step (system : System) : Event → Option System
  | .check key currentDate now lookups =>
      (candidateAt system key currentDate).map fun candidate =>
        (checkSubscription lookups now candidate system).2
  | .renew key terms =>
      (system.rows key).map fun row =>
        { system with
          rows := Function.update system.rows key
            (some { row with toTerms := terms }) }
  | .restart => some { system with sentKeys := [] }

/-- Subscriptions of which none has been checked. -/
def unchecked (terms : SubscriptionKey → Option Terms) : System :=
  { rows := fun key => (terms key).map fun row =>
      { toTerms := row, lastNotifiedCycle := none, lastNotifiedWindow := none }
    sentKeys := []
    warnings := [] }

/-! ## What a check should send -/

/-- A warning of this window was sent for this expiry. -/
def WarnedFor (system : System) (key : SubscriptionKey) (expiryDate : Timestamp)
    (window : ExpiryWarningWindow) : Prop :=
  ∃ warning ∈ system.warnings,
    warning.key = key ∧ warning.window = window ∧ warning.expiryDate = expiryDate

/-- A warning of this window was sent for some expiry. -/
def WarnedOnce (system : System) (key : SubscriptionKey) (window : ExpiryWarningWindow) : Prop :=
  ∃ warning ∈ system.warnings, warning.key = key ∧ warning.window = window

/-- The step sent one warning, and it is about this subscription, expiry and window. -/
def Sends (before after : System) (key : SubscriptionKey) (expiryDate : Timestamp)
    (window : ExpiryWarningWindow) : Prop :=
  ∃ warning, after.warnings = before.warnings ++ [warning] ∧ warning.key = key ∧
    warning.expiryDate = expiryDate ∧ warning.window = window

/-- A check that finds the expiry in a window and the holding below its minimum. -/
structure Due (system : System) (event : Event) (candidate : SubscriptionCandidate)
    (window : ExpiryWarningWindow) : Prop where
  found : ∃ key currentDate now lookups, event = .check key currentDate now lookups ∧
    candidateAt system key currentDate = some candidate ∧
    calculateExpiryWindow candidate.expiryDate now = some window ∧
    (verifyHolding lookups candidate).meetsHolding = false

/-- Every expiry gets its warnings, each once. -/
def Lawful (before : System) (event : Event) (after : System) : Prop :=
  ∀ candidate window, Due before event candidate window →
    (Sends before after candidate.key candidate.expiryDate window ↔
      ¬WarnedFor before candidate.key candidate.expiryDate window)

/-- No warning of this window was sent under another expiry alone. -/
def FirstOrSameExpiry (system : System) (event : Event) : Prop :=
  ∀ candidate window, Due system event candidate window →
    WarnedOnce system candidate.key window →
      WarnedFor system candidate.key candidate.expiryDate window

/-! ## Keys of warnings -/

theorem colon_not_mem_padded (width : ℕ) (value : ℤ) : ':' ∉ (padded width value).toList := by
  rw [padded, String.toList_ofList, List.leftpad, List.mem_append, not_or]
  refine ⟨fun hmem => ?_, fun hmem => ?_⟩
  · exact absurd (List.eq_of_mem_replicate hmem) (by decide)
  · exact absurd (Nat.isDigit_of_mem_toDigits (by decide) (by decide) hmem) (by decide)

theorem length_padded (width : ℕ) (value : ℤ) : width ≤ (padded width value).toList.length := by
  rw [padded, String.toList_ofList, List.length_leftpad]
  exact le_max_left _ _

theorem colon_not_mem_yearText (year : ℤ) : ':' ∉ (yearText year).toList := by
  unfold yearText
  split
  · exact colon_not_mem_padded 4 year
  · rw [String.toList_append, List.mem_append, not_or]
    exact ⟨by split <;> decide, colon_not_mem_padded 6 year⟩

theorem length_yearText (year : ℤ) : 4 ≤ (yearText year).toList.length := by
  unfold yearText
  split
  · exact length_padded 4 year
  · rw [String.toList_append, List.length_append]
    have hpadded := length_padded 6 year
    omega

/-- The day of a time takes ten characters, none of them a colon. -/
theorem day_text (time : Timestamp) :
    ':' ∉ (toISOString time).toList.take 10 ∧ ((toISOString time).toList.take 10).length = 10 := by
  rcases hdate : civilDate (time / 86400000) with ⟨year, month, day⟩
  set front := (yearText year).toList ++ '-' :: ((padded 2 month).toList ++ '-' ::
    (padded 2 day).toList) with hfront
  have hlength : 10 ≤ front.length := by
    have hyear := length_yearText year
    have hmonth := length_padded 2 month
    have hday := length_padded 2 day
    simp only [hfront, List.length_append, List.length_cons]
    omega
  have hcolon : ':' ∉ front := by
    simp [hfront, colon_not_mem_yearText, colon_not_mem_padded]
  have hdash (rest : List Char) : "-".toList ++ rest = '-' :: rest := rfl
  have hprefix : front <+: (toISOString time).toList := by
    simp only [toISOString, hdate, String.toList_append, List.append_assoc]
    rw [hfront, hdash, hdash, List.prefix_append_right_inj, List.prefix_cons_inj,
      List.prefix_append_right_inj, List.prefix_cons_inj]
    exact List.prefix_append _ _
  obtain ⟨rest, hrest⟩ := hprefix
  rw [← hrest, List.take_append_of_le_length hlength, List.length_take, min_eq_left hlength]
  exact ⟨fun hmem => hcolon (List.mem_of_mem_take hmem), rfl⟩

theorem colon_not_mem_integer (value : ℤ) : ':' ∉ (toString value).toList := by
  cases value with
  | ofNat number => exact not_mem_toString (by decide) number
  | negSucc number =>
      have htext : (toString (Int.negSucc number)).toList =
          '-' :: (toString (number + 1)).toList := by
        simp [toString, Int.repr]
      rw [htext, List.mem_cons, not_or]
      exact ⟨by decide, not_mem_toString (by decide) (number + 1)⟩

theorem colon_not_mem_resolveCycleId {candidate : SubscriptionCandidate}
    (hcycle : ∀ cycleId, candidate.cycleId = some cycleId → ':' ∉ cycleId.toList) :
    ':' ∉ (resolveCycleId candidate).toList := by
  unfold resolveCycleId
  split
  · rename_i cycleId hsome
    exact hcycle cycleId (Option.filter_eq_some_iff.1 hsome).1
  · split
    · exact colon_not_mem_integer _
    · rw [String.toList_ofList]
      exact (day_text _).1

theorem toList_dedupeKey (key : SubscriptionKey) (cycle : String) (window : ExpiryWarningWindow) :
    (dedupeKey key cycle window).toList =
      "sub_expiry:".toList ++ (key.wallet.text.toList ++ ':' :: (key.keyId.toList ++
        ':' :: (cycle.toList ++ ':' :: window.text.toList))) := by
  have hcolon (rest : List Char) : ":".toList ++ rest = ':' :: rest := rfl
  change ("sub_expiry:" ++ key.wallet.text ++ ":" ++ key.keyId ++ ":" ++ cycle ++ ":" ++
    window.text).toList = _
  simp only [String.toList_append, List.append_assoc]
  rw [hcolon, hcolon, hcolon]

/-- The key tells what it was made of, as long as the cycle has no colon. -/
theorem dedupeKey_injective {first second : SubscriptionKey} {firstCycle secondCycle : String}
    {firstWindow secondWindow : ExpiryWarningWindow} (hfirst : ':' ∉ firstCycle.toList)
    (hsecond : ':' ∉ secondCycle.toList)
    (hsame : dedupeKey first firstCycle firstWindow =
      dedupeKey second secondCycle secondWindow) :
    first = second ∧ firstCycle = secondCycle ∧ firstWindow = secondWindow := by
  have hwindow : ∀ window : ExpiryWarningWindow, ':' ∉ window.text.toList.reverse := by
    intro window
    cases window <;> decide
  have hlists := congrArg String.toList hsame
  rw [toList_dedupeKey, toList_dedupeKey, List.append_cancel_left_eq] at hlists
  obtain ⟨hwallets, hrest⟩ := splitsAt first.wallet.noColon second.wallet.noColon hlists
  have hreversed := congrArg List.reverse hrest
  simp only [List.reverse_append, List.reverse_cons, List.append_assoc, List.cons_append,
    List.nil_append] at hreversed
  obtain ⟨hwindows, hreversed⟩ := splitsAt (hwindow firstWindow) (hwindow secondWindow) hreversed
  obtain ⟨hcycles, hkeyIds⟩ := splitsAt (by simpa using hfirst) (by simpa using hsecond) hreversed
  rw [List.reverse_inj] at hwindows hcycles hkeyIds
  refine ⟨?_, String.toList_inj.1 hcycles, ?_⟩
  · obtain ⟨⟨firstText, _⟩, firstKeyId⟩ := first
    obtain ⟨⟨secondText, _⟩, secondKeyId⟩ := second
    obtain rfl := String.toList_inj.1 hwallets
    obtain rfl := String.toList_inj.1 hkeyIds
    rfl
  · cases firstWindow <;> cases secondWindow <;> first | rfl | exact absurd hwindows (by decide)

theorem resolveCycleId_ne_empty (candidate : SubscriptionCandidate) :
    resolveCycleId candidate ≠ "" := by
  unfold resolveCycleId
  split
  · rename_i cycleId hsome
    simpa using (Option.filter_eq_some_iff.1 hsome).2
  · split
    · rename_i expiryLedger _
      cases expiryLedger with
      | ofNat number =>
          intro hempty
          have hdigits := congrArg String.toList hempty
          rw [show toString (Int.ofNat number) = toString number from rfl,
            Nat.toString_eq_repr, Nat.toList_repr] at hdigits
          exact Nat.toDigits_ne_nil hdigits
      | negSucc number => simp [toString, Int.repr, ← String.toList_inj]
    · intro hempty
      have hdigits := congrArg String.toList hempty
      have hlength := (day_text candidate.expiryDate).2
      rw [String.toList_ofList] at hdigits
      rw [hdigits] at hlength
      cases hlength

/-! ## One cycle for each subscription -/

/-- All warnings of a subscription name the cycle of its row. -/
structure Tracked (system : System) : Prop where
  rows : ∀ key row, system.rows key = some row → ∀ warning ∈ system.warnings,
    warning.key = key → row.lastNotifiedCycle = some warning.cycleId
  noColon : ∀ key row cycleId, system.rows key = some row →
    row.lastNotifiedCycle = some cycleId → ':' ∉ cycleId.toList
  warnings : ∀ warning ∈ system.warnings, warning.cycleId ≠ "" ∧ ':' ∉ warning.cycleId.toList ∧
    warning.notification.dedupeKey = dedupeKey warning.key warning.cycleId warning.window
  sentKeys : ∀ key ∈ system.sentKeys, ∃ warning ∈ system.warnings,
    warning.notification.dedupeKey = key

section Checks

variable {system : System} {key : SubscriptionKey} {row : KeySubscription}
variable {candidate : SubscriptionCandidate} {currentDate now : Timestamp} {lookups : Lookups}
variable {window : ExpiryWarningWindow}

/-- A candidate stands for its row. -/
theorem row_of_candidateAt (hcandidate : candidateAt system key currentDate = some candidate) :
    ∃ row, system.rows key = some row ∧ candidate.key = key ∧
      candidate.cycleId = row.lastNotifiedCycle ∧
        row.expiryDate = some candidate.expiryDate := by
  obtain ⟨row, hrow, hfound⟩ := Option.bind_eq_some_iff.1 hcandidate
  refine ⟨row, hrow, ?_⟩
  unfold findExpiringCandidate at hfound
  split at hfound
  · cases hfound
  · rename_i expiryDate hexpiry
    obtain ⟨_, hfound⟩ := Option.ite_none_right_eq_some.1 hfound
    obtain rfl := Option.some.inj hfound
    exact ⟨rfl, rfl, hexpiry⟩

/-- A key is a duplicate exactly when its window was warned of, under whatever expiry. -/
theorem isDuplicate_iff (htracked : Tracked system)
    (hcandidate : candidateAt system key currentDate = some candidate) :
    isDuplicate (dedupeKey candidate.key (resolveCycleId candidate) window) system = true ↔
      WarnedOnce system candidate.key window := by
  obtain ⟨row, hrow, hkey, hcycle, _⟩ := row_of_candidateAt hcandidate
  have hcolon : ':' ∉ (resolveCycleId candidate).toList :=
    colon_not_mem_resolveCycleId fun cycleId hsome =>
      htracked.noColon key row cycleId hrow (by rw [← hcycle, hsome])
  have hstored : isDuplicate (dedupeKey candidate.key (resolveCycleId candidate) window) system =
      true ↔ ∃ warning ∈ system.warnings, warning.notification.dedupeKey =
        dedupeKey candidate.key (resolveCycleId candidate) window := by
    simp only [isDuplicate, Bool.or_eq_true, decide_eq_true_eq, List.any_eq_true]
    exact or_iff_right_of_imp (htracked.sentKeys _)
  rw [hstored]
  constructor
  · rintro ⟨warning, hwarning, hsame⟩
    obtain ⟨_, hnoColon, hdedupe⟩ := htracked.warnings warning hwarning
    obtain ⟨hkeys, _, hwindows⟩ := dedupeKey_injective hnoColon hcolon (hdedupe.symm.trans hsame)
    exact ⟨warning, hwarning, hkeys, hwindows⟩
  · rintro ⟨warning, hwarning, hkeys, rfl⟩
    obtain ⟨hne, _, hdedupe⟩ := htracked.warnings warning hwarning
    have hlast := htracked.rows key row hrow warning hwarning (hkeys.trans hkey)
    have hresolved : resolveCycleId candidate = warning.cycleId := by
      rw [resolveCycleId, hcycle, hlast, Option.filter_some, if_pos (by simpa using hne)]
    exact ⟨warning, hwarning, by rw [hdedupe, hkeys, hresolved]⟩

/-- What a check that is due does. -/
theorem checkSubscription_of_due
    (hwindow : calculateExpiryWindow candidate.expiryDate now = some window)
    (hholding : (verifyHolding lookups candidate).meetsHolding = false) :
    (checkSubscription lookups now candidate system).2 =
      if isDuplicate (dedupeKey candidate.key (resolveCycleId candidate) window) system then
        recordSent (dedupeKey candidate.key (resolveCycleId candidate) window) system
      else sendWarning lookups now candidate window system := by
  have hfuture : ¬candidate.expiryDate ≤ now := by
    intro hpast
    have hpassed : ¬0 < candidate.expiryDate - now := not_lt.2 (sub_nonpos.2 hpast)
    rw [calculateExpiryWindow, if_neg (hpassed ∘ And.left), if_neg (hpassed ∘ And.left)] at hwindow
    cases hwindow
  rw [checkSubscription, if_neg hfuture, hwindow]
  simp only [hholding, Bool.false_eq_true, if_false]
  split <;> rfl

theorem warnings_sendWarning (lookups : Lookups) (now : Timestamp)
    (candidate : SubscriptionCandidate) (window : ExpiryWarningWindow) (system : System) :
    ∃ warning, (sendWarning lookups now candidate window system).warnings =
        system.warnings ++ [warning] ∧
      warning.key = candidate.key ∧ warning.expiryDate = candidate.expiryDate ∧
        warning.window = window ∧ warning.cycleId = resolveCycleId candidate ∧
          warning.notification.dedupeKey =
            dedupeKey candidate.key (resolveCycleId candidate) window :=
  ⟨_, rfl, rfl, rfl, rfl, rfl, rfl⟩

/-- A check changes nothing, remembers a key that it found, or sends a warning. -/
theorem checkSubscription_cases (lookups : Lookups) (now : Timestamp)
    (candidate : SubscriptionCandidate) (system : System) :
    (checkSubscription lookups now candidate system).2 = system ∨
      (∃ key, isDuplicate key system = true ∧
        (checkSubscription lookups now candidate system).2 = recordSent key system) ∨
      ∃ window,
        isDuplicate (dedupeKey candidate.key (resolveCycleId candidate) window) system = false ∧
        (checkSubscription lookups now candidate system).2 =
          sendWarning lookups now candidate window system := by
  unfold checkSubscription
  split
  · exact .inl rfl
  · split
    · exact .inl rfl
    · split
      · exact .inl rfl
      · dsimp only
        split
        · exact .inr (.inl ⟨_, ‹_›, rfl⟩)
        · rename_i hfresh
          exact .inr (.inr ⟨_, Bool.eq_false_iff.2 hfresh, rfl⟩)

theorem sends_iff (htracked : Tracked system)
    (hcandidate : candidateAt system key currentDate = some candidate)
    (hwindow : calculateExpiryWindow candidate.expiryDate now = some window)
    (hholding : (verifyHolding lookups candidate).meetsHolding = false) :
    Sends system (checkSubscription lookups now candidate system).2 candidate.key
        candidate.expiryDate window ↔
      ¬WarnedOnce system candidate.key window := by
  rw [← isDuplicate_iff htracked hcandidate, checkSubscription_of_due hwindow hholding]
  split
  · rename_i hduplicate
    refine iff_of_false ?_ (not_not.2 hduplicate)
    rintro ⟨warning, hsent, _⟩
    have hlength := congrArg List.length hsent
    rw [List.length_append, List.length_singleton] at hlength
    exact absurd hlength (by simp [recordSent])
  · rename_i hfresh
    refine iff_of_true ?_ hfresh
    obtain ⟨warning, hsent, hkey, hexpiry, hwindows, _⟩ :=
      warnings_sendWarning lookups now candidate window system
    exact ⟨warning, hsent, hkey, hexpiry, hwindows⟩

theorem mem_sentKeys_recordSent {dedupe other : String}
    (hother : other ∈ (recordSent dedupe system).sentKeys) :
    other ∈ system.sentKeys ∨ other = dedupe := by
  simp only [recordSent] at hother
  split at hother
  · exact .inl hother
  · exact (List.mem_cons.1 hother).symm

theorem Tracked.recordSent (htracked : Tracked system) {dedupe : String}
    (hduplicate : isDuplicate dedupe system = true) : Tracked (recordSent dedupe system) := by
  refine ⟨htracked.rows, htracked.noColon, htracked.warnings, fun other hother => ?_⟩
  rcases mem_sentKeys_recordSent hother with hsent | rfl
  · exact htracked.sentKeys other hsent
  · simp only [isDuplicate, Bool.or_eq_true, decide_eq_true_eq, List.any_eq_true] at hduplicate
    exact hduplicate.elim (htracked.sentKeys other) id

/-- A warning keeps to the cycle of those before it. -/
theorem Tracked.sendWarning (htracked : Tracked system)
    (hcandidate : candidateAt system key currentDate = some candidate) :
    Tracked (sendWarning lookups now candidate window system) := by
  obtain ⟨row, hrow, hkey, hcycle, _⟩ := row_of_candidateAt hcandidate
  have hcolon : ':' ∉ (resolveCycleId candidate).toList :=
    colon_not_mem_resolveCycleId fun cycleId hsome =>
      htracked.noColon key row cycleId hrow (by rw [← hcycle, hsome])
  obtain ⟨warning, hwarnings, hwarningKey, _, hwarningWindow, hwarningCycle, hdedupe⟩ :=
    warnings_sendWarning lookups now candidate window system
  have hrows : ∀ other, other ≠ candidate.key →
      (ExpiryWarnings.sendWarning lookups now candidate window system).rows other =
        system.rows other := fun other hother => Function.update_of_ne hother _ _
  have hown : ∀ after, (ExpiryWarnings.sendWarning lookups now candidate window system).rows
      candidate.key = some after → after.lastNotifiedCycle = some (resolveCycleId candidate) := by
    intro after hafter
    simp only [ExpiryWarnings.sendWarning, recordNotificationSent, Function.update_self] at hafter
    obtain ⟨_, _, rfl⟩ := Option.map_eq_some_iff.1 hafter
    rfl
  refine ⟨fun other after hafter known hknown hsame => ?_,
    fun other after cycleId hafter hlast => ?_,
    fun known hknown => ?_, fun other hother => ?_⟩
  · rw [hwarnings, List.mem_append, List.mem_singleton] at hknown
    by_cases hother : other = candidate.key
    · subst hother
      rw [hown after hafter]
      rcases hknown with hbefore | rfl
      · have hlast := htracked.rows key row hrow known hbefore (hsame.trans hkey)
        have hne := (htracked.warnings known hbefore).1
        rw [resolveCycleId, hcycle, hlast, Option.filter_some, if_pos (by simpa using hne)]
      · rw [hwarningCycle]
    · rw [hrows other hother] at hafter
      rcases hknown with hbefore | rfl
      · exact htracked.rows other after hafter known hbefore hsame
      · exact absurd (hsame.symm.trans hwarningKey) hother
  · by_cases hother : other = candidate.key
    · subst hother
      rw [hown after hafter, Option.some_inj] at hlast
      rwa [← hlast]
    · rw [hrows other hother] at hafter
      exact htracked.noColon other after cycleId hafter hlast
  · rw [hwarnings, List.mem_append, List.mem_singleton] at hknown
    rcases hknown with hbefore | rfl
    · exact htracked.warnings known hbefore
    · rw [hdedupe, hwarningCycle, hwarningKey, hwarningWindow]
      exact ⟨resolveCycleId_ne_empty candidate, hcolon, rfl⟩
  · rw [hwarnings]
    rcases mem_sentKeys_recordSent hother with hsent | rfl
    · obtain ⟨known, hknown, hsame⟩ := htracked.sentKeys other hsent
      exact ⟨known, List.mem_append_left _ hknown, hsame⟩
    · exact ⟨warning, List.mem_append_right _ (List.mem_singleton.2 rfl), hdedupe⟩

theorem Tracked.check (htracked : Tracked system)
    (hcandidate : candidateAt system key currentDate = some candidate) :
    Tracked (checkSubscription lookups now candidate system).2 := by
  rcases checkSubscription_cases lookups now candidate system with
    hsame | ⟨dedupe, hduplicate, hremembers⟩ | ⟨window, _, hsends⟩
  · rwa [hsame]
  · rw [hremembers]
    exact htracked.recordSent hduplicate
  · rw [hsends]
    exact htracked.sendWarning hcandidate

theorem Tracked.renew (htracked : Tracked system) (hrow : system.rows key = some row)
    (terms : Terms) :
    Tracked { system with
      rows := Function.update system.rows key (some { row with toTerms := terms }) } := by
  have hbefore : ∀ other after, Function.update system.rows key
      (some { row with toTerms := terms }) other = some after →
        ∃ earlier, system.rows other = some earlier ∧
          earlier.lastNotifiedCycle = after.lastNotifiedCycle := by
    intro other after hafter
    by_cases hother : other = key
    · subst hother
      rw [Function.update_self, Option.some_inj] at hafter
      exact ⟨row, hrow, by rw [← hafter]⟩
    · rw [Function.update_of_ne hother] at hafter
      exact ⟨after, hafter, rfl⟩
  refine ⟨fun other after hafter => ?_, fun other after cycleId hafter hlast => ?_,
    htracked.warnings, htracked.sentKeys⟩
  · obtain ⟨earlier, hearlier, hlast⟩ := hbefore other after hafter
    rw [← hlast]
    exact htracked.rows other earlier hearlier
  · obtain ⟨earlier, hearlier, hsame⟩ := hbefore other after hafter
    exact htracked.noColon other earlier cycleId hearlier (by rw [hsame, hlast])

end Checks

theorem tracked_unchecked (terms : SubscriptionKey → Option Terms) : Tracked (unchecked terms) := by
  constructor
  · intro key row _ warning hwarning
    cases hwarning
  · intro key row cycleId hrow hlast
    obtain ⟨_, _, rfl⟩ := Option.map_eq_some_iff.1 hrow
    cases hlast
  · intro warning hwarning
    cases hwarning
  · intro key hkey
    cases hkey

section Steps

variable {before after : System} {event : Event}

theorem tracked_of_step (hstep : step before event = some after) (htracked : Tracked before) :
    Tracked after := by
  cases event with
  | check key currentDate now lookups =>
      obtain ⟨candidate, hcandidate, rfl⟩ := Option.map_eq_some_iff.1 hstep
      exact htracked.check hcandidate
  | renew key terms =>
      obtain ⟨row, hrow, rfl⟩ := Option.map_eq_some_iff.1 hstep
      exact htracked.renew hrow terms
  | restart =>
      obtain rfl := Option.some.inj hstep
      exact ⟨htracked.rows, htracked.noColon, htracked.warnings, fun _ hkey => by cases hkey⟩

theorem lawful_iff_firstOrSameExpiry (hstep : step before event = some after)
    (htracked : Tracked before) :
    Lawful before event after ↔ FirstOrSameExpiry before event := by
  refine forall_congr' fun candidate => forall_congr' fun window => ?_
  refine forall_congr' fun hdue => ?_
  obtain ⟨key, currentDate, now, lookups, rfl, hcandidate, hwindow, hholding⟩ := hdue.found
  have hafter : (checkSubscription lookups now candidate before).2 = after := by
    simpa [step, hcandidate] using hstep
  rw [← hafter, sends_iff htracked hcandidate hwindow hholding, not_iff_not]
  have hweaker : WarnedFor before candidate.key candidate.expiryDate window →
      WarnedOnce before candidate.key window := by
    rintro ⟨warning, hwarning, hkey, hwindows, _⟩
    exact ⟨warning, hwarning, hkey, hwindows⟩
  exact ⟨fun hsame => hsame.1, fun honly => ⟨honly, hweaker⟩⟩

end Steps

/-- Every expiry gets its warnings, each once, exactly as long as no check meets an expiry whose
window was warned of only under another. -/
theorem expiryWarnings_lawful_iff (terms : SubscriptionKey → Option Terms) (events : List Event) :
    EveryStep step Lawful (unchecked terms) events ↔
      EveryStep step (fun before event _ => FirstOrSameExpiry before event) (unchecked terms)
        events :=
  everyStep_iff Tracked tracked_of_step lawful_iff_firstOrSameExpiry (tracked_unchecked terms)
    events

/-! ## A renewed subscription -/

def subscriber : SubscriptionKey where
  wallet := ⟨"GSUBSCRIBER", by decide⟩
  keyId := "vip-pass"

/-- The terms up to an expiry. -/
def termsUntil (expiryDate : Timestamp) : Terms :=
  { keyName := some "VIP Access Pass"
    minHolding := 10
    currentBalance := some 4
    expiryLedger := none
    expiryDate := some expiryDate
    isActive := true }

def noAnswers : Lookups := { creatorKeyName := none, userId := none, holding := none }

def beforeRenewal : Event := .check subscriber 0 0 noAnswers

def afterRenewal : Event :=
  .check subscriber (30 * MS_PER_DAY) (30 * MS_PER_DAY) noAnswers

/-- A warning for one expiry, a renewal by thirty days, and a check six days before the next. -/
def renewedSubscription : List Event :=
  [beforeRenewal, .renew subscriber (termsUntil (36 * MS_PER_DAY)), afterRenewal]

def subscribedUntil (expiryDate : Timestamp) : SubscriptionKey → Option Terms :=
  fun key => if key = subscriber then some (termsUntil expiryDate) else none

/-- What a check meets and leaves: its candidate, the warnings before it, and how many there are
after it. -/
structure Observation where
  found : Option (SubscriptionKey × Timestamp × Option ExpiryWarningWindow × Bool)
  warned : List (SubscriptionKey × Timestamp)
  sent : Option ℕ
  deriving DecidableEq

def observed (system : System) : Observation where
  found := (candidateAt system subscriber (30 * MS_PER_DAY)).map fun candidate =>
    (candidate.key, candidate.expiryDate,
      calculateExpiryWindow candidate.expiryDate (30 * MS_PER_DAY),
      (verifyHolding noAnswers candidate).meetsHolding)
  warned := system.warnings.map fun warning => (warning.key, warning.expiryDate)
  sent := (step system afterRenewal).map fun after => after.warnings.length

theorem renewedSubscription_notWarned :
    ¬EveryStep step Lawful (unchecked (subscribedUntil (6 * MS_PER_DAY))) renewedSubscription := by
  intro hlawful
  have hobserved : (exec step (unchecked (subscribedUntil (6 * MS_PER_DAY)))
      (renewedSubscription.take 2)).map observed =
        some
          { found := some (subscriber, 36 * MS_PER_DAY, some .sevenDays, false)
            warned := [(subscriber, 6 * MS_PER_DAY)]
            sent := some 1 } := by
    decide +kernel
  obtain ⟨before, hbefore, hsame⟩ := Option.map_eq_some_iff.1 hobserved
  simp only [observed, Observation.mk.injEq] at hsame
  obtain ⟨hfound, hwarnings, hafter⟩ := hsame
  obtain ⟨candidate, hcandidate, hfields⟩ := Option.map_eq_some_iff.1 hfound
  simp only [Prod.mk.injEq] at hfields
  obtain ⟨hkey, hexpiry, hwindow, hholding⟩ := hfields
  obtain ⟨after, hstep, hcount⟩ := Option.map_eq_some_iff.1 hafter
  have hdue : Due before afterRenewal candidate .sevenDays :=
    ⟨_, _, _, _, rfl, hcandidate, hwindow, hholding⟩
  have hlast := hlawful (renewedSubscription.take 2) afterRenewal [] rfl before after hbefore hstep
    candidate .sevenDays hdue
  have hone : before.warnings.length = 1 := by simpa using congrArg List.length hwarnings
  have hnone : ¬WarnedFor before candidate.key candidate.expiryDate .sevenDays := by
    rintro ⟨warning, hwarning, _, _, hsameExpiry⟩
    have hmem : (warning.key, warning.expiryDate) ∈ [(subscriber, 6 * MS_PER_DAY)] := by
      rw [← hwarnings]
      exact List.mem_map.2 ⟨warning, hwarning, rfl⟩
    rw [List.mem_singleton, Prod.mk.injEq, hsameExpiry, hexpiry] at hmem
    exact absurd hmem.2 (by decide)
  obtain ⟨warning, hsent, _⟩ := hlast.2 hnone
  rw [hsent, List.length_append, hone] at hcount
  cases hcount

end StellarSettle.ExpiryWarnings
