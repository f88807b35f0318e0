import Mathlib.Algebra.Order.Group.Int
import StellarSettle.Core.SlidingWindows
import StellarSettle.Core.TransitionSystem
import StellarSettle.Model.Entities

/-!
# The windows of wallets

The limiter of a process counts the requests of a wallet in windows that start with a request that
finds none.  A timer deletes windows that have ended.  No interval as long as a window has more than
two windows full of requests, the timer changes no answer, and who waits as long as a refusal says
is let through.
-/

namespace StellarSettle.WalletWindows

open StellarSettle.Entities (Timestamp)
open StellarSettle.SlidingWindows
open StellarSettle.TransitionSystem

/-! ## The limiter -/

structure WalletRateLimitEntry where
  count : ℕ
  windowStart : Timestamp
  deriving DecidableEq, Repr

structure WalletRateLimitConfig where
  windowMs : ℤ
  maxRequests : ℕ
  deriving DecidableEq, Repr

abbrev Store : Type := String → Option WalletRateLimitEntry

inductive Answer where
  | unauthenticated
  | next
  | tooMany (retryAfterSeconds : ℤ)
  deriving DecidableEq, Repr

inductive Event where
  | request (wallet : Option String) (now : Timestamp)
  | cleanup (now : Timestamp)
  deriving DecidableEq, Repr

section Limiter

variable (config : WalletRateLimitConfig)

/-- A window has ended. -/
def Ended (now : Timestamp) (entry : WalletRateLimitEntry) : Prop :=
  config.windowMs ≤ now - entry.windowStart

instance (now : Timestamp) (entry : WalletRateLimitEntry) : Decidable (Ended config now entry) :=
  inferInstanceAs (Decidable (_ ≤ _))

/-- The seconds that remain, rounded up. -/
def retryAfterSeconds (now : Timestamp) (entry : WalletRateLimitEntry) : ℤ :=
  -((now - entry.windowStart - config.windowMs) / 1000)

def serveWallet (store : Store) (wallet : String) (now : Timestamp) : Store × Answer :=
  match store wallet with
  | none => (setProcess store wallet (some ⟨1, now⟩), .next)
  | some entry =>
      if Ended config now entry then (setProcess store wallet (some ⟨1, now⟩), .next)
      else if config.maxRequests ≤ entry.count then
        (store, .tooMany (retryAfterSeconds config now entry))
      else (setProcess store wallet (some { entry with count := entry.count + 1 }), .next)

/-- A request starts a window, is refused, or is one more in its window. -/
theorem serveWallet_cases (store : Store) (wallet : String) (now : Timestamp) :
    ((∀ entry ∈ store wallet, Ended config now entry) ∧
      serveWallet config store wallet now = (setProcess store wallet (some ⟨1, now⟩), .next)) ∨
    ∃ entry, store wallet = some entry ∧ ¬Ended config now entry ∧
      ((config.maxRequests ≤ entry.count ∧ serveWallet config store wallet now =
        (store, .tooMany (retryAfterSeconds config now entry))) ∨
      (entry.count < config.maxRequests ∧ serveWallet config store wallet now =
        (setProcess store wallet (some { entry with count := entry.count + 1 }), .next))) := by
  rw [serveWallet]
  cases store wallet with
  | none => exact .inl ⟨nofun, rfl⟩
  | some entry =>
      dsimp only
      by_cases hended : Ended config now entry
      · rw [if_pos hended]
        exact .inl ⟨by rintro _ ⟨⟩; exact hended, rfl⟩
      · refine .inr ⟨entry, rfl, hended, ?_⟩
        rw [if_neg hended]
        by_cases hfull : config.maxRequests ≤ entry.count
        · exact .inl ⟨hfull, if_pos hfull⟩
        · exact .inr ⟨not_le.mp hfull, if_neg hfull⟩

def cleanup (store : Store) (now : Timestamp) : Store := fun wallet =>
  (store wallet).filter fun entry => ¬Ended config now entry

/-- The timer deletes a window that has ended and leaves the others. -/
theorem cleanup_cases (store : Store) (wallet : String) (now : Timestamp) :
    cleanup config store now wallet = store wallet ∨
      (cleanup config store now wallet = none ∧
        ∃ entry, store wallet = some entry ∧ Ended config now entry) := by
  rw [cleanup]
  cases store wallet with
  | none => exact .inl rfl
  | some entry =>
      by_cases hended : Ended config now entry
      · exact .inr ⟨Option.filter_some_neg (by simpa using hended), entry, rfl, hended⟩
      · exact .inl (Option.filter_some_pos (by simpa using hended))

/-- The store and the requests that were let through, the latest first. -/
structure Served where
  store : Store
  passed : List (String × Timestamp)

def serve (served : Served) : Event → Served × Option Answer
  | .request none _ => (served, some .unauthenticated)
  | .request (some wallet) now =>
      match serveWallet config served.store wallet now with
      | (store, .next) => (⟨store, (wallet, now) :: served.passed⟩, some .next)
      | (store, answer) => (⟨store, served.passed⟩, some answer)
  | .cleanup now => ({ served with store := cleanup config served.store now }, none)

theorem store_serve (served : Served) (wallet : String) (now : Timestamp) :
    (serve config served (.request (some wallet) now)).1.store =
      (serveWallet config served.store wallet now).1 := by
  rw [serve]
  split <;> rename_i hserve <;> rw [hserve]

theorem answer_serve (served : Served) (wallet : String) (now : Timestamp) :
    (serve config served (.request (some wallet) now)).2 =
      some (serveWallet config served.store wallet now).2 := by
  rw [serve]
  split <;> rename_i hserve <;> rw [hserve]

def serveAll (served : Served) : List Event → Served × List Answer
  | [] => (served, [])
  | event :: events =>
      let (next, answer) := serve config served event
      let (last, answers) := serveAll next events
      (last, answer.toList ++ answers)

def Served.initial : Served := ⟨fun _ => none, []⟩

end Limiter

def Event.now : Event → Timestamp
  | .request _ now => now
  | .cleanup now => now

/-- The times at which requests of a wallet were let through. -/
def passedTimes (served : Served) (wallet : String) : List Timestamp :=
  (served.passed.filter fun request => request.1 = wallet).map Prod.snd

/-! ## Counting -/

/-- What a window lets through. -/
def room (config : WalletRateLimitConfig) : ℕ := max 1 config.maxRequests

/-- The requests that were let through, and the window of a wallet. -/
def Counts (config : WalletRateLimitConfig) (times : List Timestamp) (now : Timestamp) :
    Option WalletRateLimitEntry → Prop
  | none => (recent config.windowMs now times).length ≤ room config
  | some entry => ∃ current older, times = current ++ older ∧ current.length = entry.count ∧
      entry.count ≤ room config ∧ entry.windowStart ≤ now ∧
      (∀ time ∈ older, time ≤ entry.windowStart) ∧
      (recent config.windowMs entry.windowStart older).length ≤ room config

section Counting

variable {config : WalletRateLimitConfig} {times : List Timestamp} {now later : Timestamp}
  {entry : WalletRateLimitEntry} {window : Option WalletRateLimitEntry}

/-- What is recent later was recent before. -/
theorem length_recent_mono (width : ℤ) (times : List Timestamp) (horder : now ≤ later) :
    (recent width later times).length ≤ (recent width now times).length := by
  rw [← recent_recent horder]
  exact List.length_filter_le _ _

/-- A window that has ended has left behind all that came before it. -/
theorem recent_of_ended (hcounts : Counts config times now window)
    (hended : ∀ entry ∈ window, Ended config now entry) :
    (recent config.windowMs now times).length ≤ room config := by
  obtain - | entry := window
  · exact hcounts
  obtain ⟨current, older, rfl, hlength, hcount, -, hbefore, -⟩ := hcounts
  have holder : recent config.windowMs now older = [] := by
    apply List.filter_eq_nil_iff.mpr
    intro time htime
    rw [decide_eq_true_iff]
    exact not_lt.mpr ((hbefore time htime).trans (le_sub_comm.mp (hended entry rfl)))
  rw [recent, List.filter_append, ← recent, ← recent, holder, List.append_nil]
  exact ((List.length_filter_le _ _).trans hlength.le).trans hcount

theorem Counts.mono (hcounts : Counts config times now window) (horder : now ≤ later) :
    Counts config times later window := by
  cases window with
  | none => exact (length_recent_mono _ times horder).trans hcounts
  | some entry =>
      obtain ⟨current, older, htimes, hlength, hcount, hstart, hbefore, hrecent⟩ := hcounts
      exact ⟨current, older, htimes, hlength, hcount, hstart.trans horder, hbefore, hrecent⟩

/-- A new window has one request, and all others came before it. -/
theorem counts_start (hpast : ∀ time ∈ times, time ≤ now)
    (hrecent : (recent config.windowMs now times).length ≤ room config) :
    Counts config (now :: times) now (some ⟨1, now⟩) :=
  ⟨[now], times, rfl, rfl, le_max_left _ _, le_rfl, hpast, hrecent⟩

/-- A window that has room counts one more. -/
theorem counts_next (hroom : entry.count < config.maxRequests)
    (hcounts : Counts config times now (some entry)) :
    Counts config (now :: times) now (some { entry with count := entry.count + 1 }) := by
  obtain ⟨current, older, rfl, hlength, -, hstart, hbefore, hrecent⟩ := hcounts
  refine ⟨now :: current, older, rfl, ?_, hroom.trans_le (le_max_right _ _), hstart, hbefore,
    hrecent⟩
  rw [List.length_cons, hlength]

/-- Of the recent requests at most one window is full, and the other has room. -/
theorem recent_lt_of_next (hroom : entry.count < config.maxRequests)
    (hcounts : Counts config times now (some entry)) :
    (recent config.windowMs now times).length < 2 * room config := by
  obtain ⟨current, older, rfl, hlength, -, hstart, -, hrecent⟩ := hcounts
  have hcurrent : (recent config.windowMs now current).length ≤ entry.count :=
    (List.length_filter_le _ _).trans hlength.le
  have holder := (length_recent_mono config.windowMs older hstart).trans hrecent
  have hmore : entry.count < room config := hroom.trans_le (le_max_right _ _)
  rw [recent, List.filter_append, ← recent, ← recent, List.length_append]
  omega

end Counting

/-! ## Runs -/

/-- The times of a run do not run back. -/
def InOrder (now : Timestamp) (events : List Event) : Prop :=
  (∀ event ∈ events, now ≤ event.now) ∧ events.Pairwise fun earlier later => earlier.now ≤ later.now

/-- What holds of every wallet. -/
def Counted (config : WalletRateLimitConfig) (served : Served) (now : Timestamp) : Prop :=
  ∀ wallet, Counts config (passedTimes served wallet) now (served.store wallet) ∧
    (∀ time ∈ passedTimes served wallet, time ≤ now) ∧
    Bounded config.windowMs (2 * room config) (passedTimes served wallet)

section Runs

variable {config : WalletRateLimitConfig} {served : Served} {now later : Timestamp}

theorem Counted.mono (hcounted : Counted config served now) (horder : now ≤ later) :
    Counted config served later := by
  intro wallet
  obtain ⟨hcounts, hpast, hbounded⟩ := hcounted wallet
  exact ⟨hcounts.mono horder, fun time htime => (hpast time htime).trans horder, hbounded⟩

theorem passedTimes_cons (served : Served) (store : Store) (wallet other : String)
    (now : Timestamp) :
    passedTimes ⟨store, (wallet, now) :: served.passed⟩ other =
      if wallet = other then now :: passedTimes served other else passedTimes served other := by
  rw [passedTimes, List.filter_cons]
  by_cases hsame : wallet = other
  · simp [hsame, passedTimes]
  · simp [hsame, passedTimes]

/-- A request that is let through has room in its window, and its window counts it. -/
theorem Counted.pass {wallet : String} {entry : WalletRateLimitEntry}
    (hcounted : Counted config served now)
    (hcounts : Counts config (now :: passedTimes served wallet) now (some entry))
    (hrecent : (recent config.windowMs now (passedTimes served wallet)).length <
      2 * room config) :
    Counted config
      ⟨setProcess served.store wallet (some entry), (wallet, now) :: served.passed⟩ now := by
  intro other
  rw [passedTimes_cons]
  by_cases hsame : wallet = other
  · subst hsame
    obtain ⟨-, hpast, hbounded⟩ := hcounted wallet
    rw [if_pos rfl]
    refine ⟨?_, List.forall_mem_cons.mpr ⟨le_rfl, hpast⟩, hbounded.cons hrecent⟩
    change Counts config _ now (setProcess served.store wallet (some entry) wallet)
    rw [setProcess, Function.update_self]
    exact hcounts
  · rw [if_neg hsame]
    obtain ⟨hothers, hpast, hbounded⟩ := hcounted other
    refine ⟨?_, hpast, hbounded⟩
    change Counts config _ now (setProcess served.store wallet (some entry) other)
    rw [setProcess, Function.update_of_ne (Ne.symm hsame)]
    exact hothers

theorem Counted.start {wallet : String} (hcounted : Counted config served now)
    (hrecent : (recent config.windowMs now (passedTimes served wallet)).length ≤ room config) :
    Counted config
      ⟨setProcess served.store wallet (some ⟨1, now⟩), (wallet, now) :: served.passed⟩ now := by
  apply hcounted.pass (counts_start (hcounted wallet).2.1 hrecent)
  have hone : 1 ≤ room config := le_max_left _ _
  omega

theorem Counted.serve (event : Event) (hcounted : Counted config served event.now) :
    Counted config (serve config served event).1 event.now := by
  match event with
  | .request none _ => exact hcounted
  | .cleanup now =>
      intro wallet
      obtain ⟨hcounts, hpast, hbounded⟩ := hcounted wallet
      refine ⟨?_, hpast, hbounded⟩
      change Counts config (passedTimes served wallet) now (cleanup config served.store now wallet)
      obtain hkept | ⟨hnone, entry, hentry, hended⟩ := cleanup_cases config served.store wallet now
      · rw [hkept]
        exact hcounts
      · rw [hentry] at hcounts
        rw [hnone]
        exact recent_of_ended hcounts (by rintro _ ⟨⟩; exact hended)
  | .request (some wallet) now =>
      have hcounts := (hcounted wallet).1
      rw [WalletWindows.serve]
      obtain ⟨hended, hserve⟩ | ⟨entry, hentry, -, ⟨-, hserve⟩ | ⟨hroom, hserve⟩⟩ :=
        serveWallet_cases config served.store wallet now <;> rw [hserve]
      · exact hcounted.start (recent_of_ended hcounts hended)
      · exact hcounted
      · rw [hentry] at hcounts
        exact hcounted.pass (counts_next hroom hcounts) (recent_lt_of_next hroom hcounts)

theorem counted_serveAll {events : List Event} (horder : InOrder now events)
    (hcounted : Counted config served now) :
    ∃ last, Counted config (serveAll config served events).1 last := by
  induction events generalizing served now with
  | nil => exact ⟨now, hcounted⟩
  | cons event events ih =>
      obtain ⟨hfirst, hrest⟩ := List.pairwise_cons.mp horder.2
      have hnext := (hcounted.mono (horder.1 event (List.mem_cons_self ..))).serve event
      exact ih ⟨hfirst, hrest⟩ hnext

/-! ## The timer -/

/-- Two stores that differ in windows that have ended. -/
def Alike (config : WalletRateLimitConfig) (now : Timestamp) (store other : Store) : Prop :=
  ∀ wallet, store wallet = other wallet ∨
    (store wallet = none ∧ ∃ entry, other wallet = some entry ∧ Ended config now entry)

theorem Alike.mono {store other : Store} (halike : Alike config now store other)
    (horder : now ≤ later) : Alike config later store other := by
  intro wallet
  rcases halike wallet with hsame | ⟨hnone, entry, hentry, hended⟩
  · exact .inl hsame
  · refine .inr ⟨hnone, entry, hentry, ?_⟩
    rw [Ended] at hended ⊢
    exact hended.trans (sub_le_sub_right horder _)

theorem Alike.setProcess {store other : Store} (halike : Alike config now store other)
    (wallet : String) (entry : WalletRateLimitEntry) :
    Alike config now (setProcess store wallet (some entry))
      (setProcess other wallet (some entry)) := by
  intro asked
  by_cases hsame : asked = wallet
  · subst hsame
    rw [TransitionSystem.setProcess, TransitionSystem.setProcess, Function.update_self,
      Function.update_self]
    exact .inl rfl
  · rw [TransitionSystem.setProcess, TransitionSystem.setProcess, Function.update_of_ne hsame,
      Function.update_of_ne hsame]
    exact halike asked

/-- A window that has ended answers as one that is not there. -/
theorem Alike.serveWallet {store other : Store} (halike : Alike config now store other)
    (wallet : String) :
    (serveWallet config store wallet now).2 = (serveWallet config other wallet now).2 ∧
      Alike config now (serveWallet config store wallet now).1
        (serveWallet config other wallet now).1 := by
  rw [WalletWindows.serveWallet, WalletWindows.serveWallet]
  rcases halike wallet with hsame | ⟨hnone, entry, hentry, hended⟩
  · rw [hsame]
    cases other wallet with
    | none => exact ⟨rfl, halike.setProcess wallet _⟩
    | some entry =>
        dsimp only
        split
        · exact ⟨rfl, halike.setProcess wallet _⟩
        · split
          · exact ⟨rfl, halike⟩
          · exact ⟨rfl, halike.setProcess wallet _⟩
  · rw [hnone, hentry]
    dsimp only
    rw [if_pos hended]
    exact ⟨rfl, halike.setProcess wallet _⟩

theorem Alike.cleanup {store other : Store} (halike : Alike config now store other) :
    Alike config now (cleanup config store now) other := by
  intro wallet
  rcases cleanup_cases config store wallet now with hkept | ⟨hdeleted, entry, hentry, hended⟩
  · rw [hkept]
    exact halike wallet
  · rcases halike wallet with hsame | ⟨hnone, -⟩
    · rw [hsame] at hentry
      exact .inr ⟨hdeleted, entry, hentry, hended⟩
    · rw [hnone] at hentry
      cases hentry

def Event.isRequest : Event → Bool
  | .request _ _ => true
  | .cleanup _ => false

/-- The timer changes no answer. -/
theorem answers_without_timer {other : Served} {events : List Event} (horder : InOrder now events)
    (halike : Alike config now served.store other.store) :
    (serveAll config served events).2 =
      (serveAll config other (events.filter Event.isRequest)).2 := by
  induction events generalizing served other now with
  | nil => rfl
  | cons event events ih =>
      obtain ⟨hfirst, hrest⟩ := List.pairwise_cons.mp horder.2
      have hlater := halike.mono (horder.1 event (List.mem_cons_self ..))
      have hnext : InOrder event.now events := ⟨hfirst, hrest⟩
      match event with
      | .cleanup now => exact ih hnext hlater.cleanup
      | .request none now => exact congrArg (Answer.unauthenticated :: ·) (ih hnext hlater)
      | .request (some wallet) now =>
          obtain ⟨hanswer, hstores⟩ := hlater.serveWallet wallet
          have hserve : (serve config served (.request (some wallet) now)).2 =
              (serve config other (.request (some wallet) now)).2 := by
            rw [answer_serve, answer_serve]
            exact congrArg some hanswer
          have hnextStores : Alike config now
              (serve config served (.request (some wallet) now)).1.store
              (serve config other (.request (some wallet) now)).1.store := by
            rw [store_serve, store_serve]
            exact hstores
          rw [serveAll, List.filter_cons_of_pos rfl, serveAll]
          exact congrArg₂ (fun answer answers => answer.toList ++ answers) hserve
            (ih hnext hnextStores)

/-! ## Waiting -/

/-- A wallet does not ask. -/
def AsksNot (wallet : String) : Event → Prop
  | .request (some other) _ => other ≠ wallet
  | _ => True

theorem serve_asksNot {wallet : String} {event : Event} (hevent : AsksNot wallet event) :
    (serve config served event).1.store wallet = served.store wallet ∨
      (serve config served event).1.store wallet = none := by
  match event with
  | .request none now => exact .inl rfl
  | .cleanup now => exact (cleanup_cases config served.store wallet now).imp_right And.left
  | .request (some other) now =>
      left
      have hother : ∀ entry, setProcess served.store other (some entry) wallet =
          served.store wallet := fun entry => Function.update_of_ne (Ne.symm hevent) ..
      rw [store_serve]
      obtain ⟨-, hserve⟩ | ⟨entry, -, -, ⟨-, hserve⟩ | ⟨-, hserve⟩⟩ :=
        serveWallet_cases config served.store other now <;> rw [hserve]
      · exact hother _
      · exact hother _

theorem serveAll_asksNot {wallet : String} {events : List Event}
    (hevents : ∀ event ∈ events, AsksNot wallet event) :
    (serveAll config served events).1.store wallet = served.store wallet ∨
      (serveAll config served events).1.store wallet = none := by
  induction events generalizing served with
  | nil => exact .inl rfl
  | cons event events ih =>
      obtain ⟨hevent, hrest⟩ := List.forall_mem_cons.mp hevents
      have hlater : (serveAll config served (event :: events)).1.store wallet =
            (serve config served event).1.store wallet ∨
          (serveAll config served (event :: events)).1.store wallet = none := ih hrest
      rcases hlater with hlater | hlater
      · rw [hlater]
        exact serve_asksNot hevent
      · exact .inr hlater

/-- A refusal is not for longer than a window, and its time ends the window. -/
theorem ended_after_refusal {store : Store} {wallet : String} {seconds : ℤ}
    (hrefused : (serveWallet config store wallet now).2 = .tooMany seconds) :
    0 < seconds ∧ ∃ entry, store wallet = some entry ∧
      ∀ later, now + 1000 * seconds ≤ later → Ended config later entry := by
  obtain ⟨-, hserve⟩ | ⟨entry, hentry, hopen, ⟨-, hserve⟩ | ⟨-, hserve⟩⟩ :=
    serveWallet_cases config store wallet now <;> rw [hserve] at hrefused
  · cases hrefused
  · have hseconds : retryAfterSeconds config now entry = seconds := by
      injection hrefused
    have hremaining : 0 < config.windowMs - (now - entry.windowStart) :=
      sub_pos.mpr (not_le.mp hopen)
    dsimp only [retryAfterSeconds] at hseconds
    refine ⟨by omega, entry, hentry, fun later hlater => ?_⟩
    calc
      config.windowMs ≤ now + 1000 * seconds - entry.windowStart := by omega
      _ ≤ later - entry.windowStart := sub_le_sub_right hlater _
  · cases hrefused

end Runs

/-- No interval as long as a window has more than two windows full of requests of a wallet.  The
timer changes no answer.  A request that waits as long as the wallet's last refusal says is let
through. -/
theorem walletWindows_spec (config : WalletRateLimitConfig) {now : Timestamp} {events : List Event}
    (horder : InOrder now events) :
    (∀ wallet, Bounded config.windowMs (2 * room config)
      (passedTimes (serveAll config .initial events).1 wallet)) ∧
    (serveAll config .initial events).2 =
      (serveAll config .initial (events.filter Event.isRequest)).2 ∧
    ∀ (served : Served) (wallet : String) (refusedAt later seconds : ℤ),
      (serveWallet config served.store wallet refusedAt).2 = .tooMany seconds →
      refusedAt + 1000 * seconds ≤ later → (∀ event ∈ events, AsksNot wallet event) →
        (serveWallet config (serveAll config served events).1.store wallet later).2 = .next := by
  refine ⟨fun wallet => ?_, ?_, ?_⟩
  · have hinitial : Counted config .initial now := fun _ =>
      ⟨Nat.zero_le _, List.forall_mem_nil _, bounded_nil⟩
    obtain ⟨last, hcounted⟩ := counted_serveAll horder hinitial
    exact (hcounted wallet).2.2
  · exact answers_without_timer horder fun _ => .inl rfl
  · intro served wallet refusedAt later seconds hrefused hlater hasksNot
    obtain ⟨-, entry, hentry, hends⟩ := ended_after_refusal hrefused
    rw [serveWallet]
    rcases serveAll_asksNot hasksNot with hkept | hgone
    · rw [hkept, hentry]
      dsimp only
      rw [if_pos (hends later hlater)]
    · rw [hgone]

/-- Two windows of one request meet. -/
theorem walletWindows_spec_edge :
    (serveAll ⟨1000, 1⟩ .initial
      [.request (some "GA") 0, .request (some "GA") 999, .cleanup 1000,
        .request (some "GA") 1000]).2 = [.next, .tooMany 1, .next] ∧
    Bounded 1000 2 (passedTimes (serveAll ⟨1000, 1⟩ .initial
      [.request (some "GA") 0, .request (some "GA") 999, .cleanup 1000,
        .request (some "GA") 1000]).1 "GA") := by
  have horder : InOrder 0 [.request (some "GA") 0, .request (some "GA") 999, .cleanup 1000,
      .request (some "GA") 1000] := by
    constructor <;> simp [Event.now]
  refine ⟨?_, (walletWindows_spec ⟨1000, 1⟩ horder).1 "GA"⟩
  rw [(walletWindows_spec ⟨1000, 1⟩ horder).2.1]
  decide

end StellarSettle.WalletWindows
