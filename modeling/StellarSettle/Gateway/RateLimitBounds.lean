import StellarSettle.Core.TextPatterns
import StellarSettle.Gateway.RateLimiter

/-!
# Whom the rate limiter limits

The sliding window of each client is tracked by the requests that were logged for that client.  So
the requests of an address are bounded where the client is always the one of the address.  Where a
header may name another client, one more request passes.
-/

namespace StellarSettle.RateLimiter

open StellarSettle.SlidingWindow
open StellarSettle.SlidingWindows
open StellarSettle.TextPatterns (toString_injective)
open StellarSettle.TransitionSystem

/-! ## Keys -/

theorem ipKey_injective {endpoint left right : String}
    (hsame : ipKey endpoint left = ipKey endpoint right) : left = right := by
  have hlists := congrArg String.toList hsame
  simp only [ipKey, String.toList_append, List.append_cancel_left_eq] at hlists
  exact String.toList_inj.mp hlists

theorem walletKey_ne_ipKey (endpoint wallet clientIp : String) :
    walletKey endpoint wallet ≠ ipKey endpoint clientIp := by
  intro hsame
  have hlists := congrArg String.toList hsame
  simp only [ipKey, walletKey, String.toList_append, List.append_cancel_left_eq] at hlists
  exact absurd (List.cons.inj hlists).1 (by decide)

/-! ## One request -/

section Requests

variable {environment : Environment} {options : RedisRateLimiterOptions} {arrival : Arrival}
variable {store : Store}

/-- The reply of Redis to the check of the client, and the set that it leaves. -/
def clientReply (environment : Environment) (options : RedisRateLimiterOptions) (arrival : Arrival)
    (store : Store) : Reply × Option SortedSet :=
  slidingWindowLuaScript arrival.now (ipThreshold environment options).windowMs
    (ipThreshold environment options).maxRequests arrival.ipMember
    (live arrival.now (store (ipKey options.endpoint (clientOf arrival.request))))

theorem limit_ne {threshold : RateLimitThreshold} {now : ℤ} {member key other : String}
    (hother : other ≠ key) : (limit threshold now member key store).2 other = store other := by
  rw [limit]
  split
  · exact Function.update_of_ne hother _ _
  · rfl

variable (hforce : InForce environment options)
variable (hmax : 0 < (ipThreshold environment options).maxRequests)

include hmax

theorem limit_client : limit (ipThreshold environment options) arrival.now arrival.ipMember
    (ipKey options.endpoint (clientOf arrival.request)) store =
      (some (checkSlidingWindow (ipThreshold environment options).maxRequests
        (some (clientReply environment options arrival store).1)),
        Function.update store (ipKey options.endpoint (clientOf arrival.request))
          (clientReply environment options arrival store).2) := by
  rw [limit, if_pos hmax]
  rfl

include hforce

theorem verdict_ip : (createRedisRateLimiter environment options arrival store).1.ip =
    some (checkSlidingWindow (ipThreshold environment options).maxRequests
      (some (clientReply environment options arrival store).1)) := by
  rw [createRedisRateLimiter, if_pos hforce, limit_client hmax]
  simp only
  split
  · rfl
  · split <;> rfl

/-- The request changes the set of its client and no other. -/
theorem store_ipKey (clientIp : String) :
    (createRedisRateLimiter environment options arrival store).2
        (ipKey options.endpoint clientIp) =
      if clientIp = clientOf arrival.request then
        (clientReply environment options arrival store).2
      else store (ipKey options.endpoint clientIp) := by
  have hclient : Function.update store (ipKey options.endpoint (clientOf arrival.request))
      (clientReply environment options arrival store).2 (ipKey options.endpoint clientIp) =
        if clientIp = clientOf arrival.request then
          (clientReply environment options arrival store).2
        else store (ipKey options.endpoint clientIp) := by
    split
    · rename_i hsame
      rw [hsame, Function.update_self]
    · rename_i hother
      exact Function.update_of_ne (fun hsame => hother (ipKey_injective hsame)) _ _
  rw [← hclient, createRedisRateLimiter, if_pos hforce, limit_client hmax]
  simp only
  split
  · rfl
  · split
    · rfl
    · exact limit_ne (walletKey_ne_ipKey _ _ _).symm

end Requests

/-! ## Each client's window -/

/-- The checks of a client. -/
def callsOf (clientIp : String) (log : List LoggedRequest) : List Call :=
  log.filterMap fun entry =>
    if entry.clientIp = clientIp then entry.verdict.ip.map fun result => ⟨entry.now, result⟩
    else none

theorem callsOf_cons_self {log : List LoggedRequest} {remoteAddress clientIp : String} {now : ℤ}
    {verdict : Verdict} {result : SlidingWindowResult} (hresult : verdict.ip = some result) :
    callsOf clientIp (⟨remoteAddress, clientIp, now, verdict⟩ :: log) =
      ⟨now, result⟩ :: callsOf clientIp log := by
  rw [callsOf, List.filterMap_cons, if_pos rfl, hresult]
  rfl

theorem callsOf_cons_ne {log : List LoggedRequest} {entry : LoggedRequest} {clientIp : String}
    (hother : entry.clientIp ≠ clientIp) :
    callsOf clientIp (entry :: log) = callsOf clientIp log := by
  rw [callsOf, List.filterMap_cons, if_neg hother]
  rfl

/-- The window of each client is tracked by its checks. -/
def Tracked (environment : Environment) (options : RedisRateLimiterOptions) (system : System) :
    Prop :=
  ∀ clientIp, Tracks (ipThreshold environment options).windowMs
    (ipThreshold environment options).maxRequests
    { key := system.store (ipKey options.endpoint clientIp)
      clock := system.clock
      members := system.members
      calls := callsOf clientIp system.log }

theorem tracked_start (environment : Environment) (options : RedisRateLimiterOptions) :
    Tracked environment options .start := fun _ => tracks_unused _ _ 0

/-- A key whose lifetime has ended is dropped. -/
theorem tracks_live {windowMs maxRequests : ℕ} {state : KeyState} {now : ℤ}
    (htracks : Tracks windowMs maxRequests state) (hmax : 1 ≤ maxRequests)
    (hclock : state.clock ≤ now) :
    Tracks windowMs maxRequests { state with key := live now state.key, clock := now } := by
  cases hkey : state.key with
  | none =>
      have hticked := htracks.tick hclock (fun _ hmember => hmember)
      simp only [hkey] at hticked
      exact hticked
  | some set =>
      by_cases hlives : now < set.expireAt
      · have hlive : live now (some set) = some set := by simp [live, hlives]
        have hticked := htracks.tick hclock (fun _ hmember => hmember)
        simp only [hkey] at hticked
        rw [hlive]
        exact hticked
      · have hlive : live now (some set) = none := by simpa [live] using hlives
        rw [hlive]
        exact htracks.expire hmax hclock hkey (not_lt.mp hlives)

section Steps

variable {environment : Environment} {options : RedisRateLimiterOptions} {arrival : Arrival}
variable {before after : System}

/-- What a request leaves. -/
theorem after_step (hstep : step environment options before arrival = some after) :
    before.clock ≤ arrival.now ∧ arrival.now ≤ arrival.walletNow ∧
      arrival.ipMember ∉ before.members ∧
      after = { store := (createRedisRateLimiter environment options arrival before.store).2
                clock := arrival.walletNow
                members := arrival.ipMember :: arrival.walletMember :: before.members
                log := ⟨arrival.request.remoteAddress, clientOf arrival.request, arrival.now,
                  (createRedisRateLimiter environment options arrival before.store).1⟩ ::
                    before.log } := by
  rw [step] at hstep
  split at hstep
  · rename_i henabled
    obtain ⟨hnow, hwallet, hfresh, _⟩ := henabled
    exact ⟨hnow, hwallet, hfresh, (Option.some.inj hstep).symm⟩
  · cases hstep

variable (hforce : InForce environment options)
variable (hmax : 1 ≤ (ipThreshold environment options).maxRequests)

include hforce hmax

theorem tracked_of_step (hstep : step environment options before arrival = some after)
    (htracked : Tracked environment options before) : Tracked environment options after := by
  obtain ⟨hnow, hwallet, hfresh, rfl⟩ := after_step hstep
  intro clientIp
  have hlater : ∀ member, member ∈ before.members →
      member ∈ arrival.ipMember :: arrival.walletMember :: before.members :=
    fun _ hmember => List.mem_cons_of_mem _ (List.mem_cons_of_mem _ hmember)
  simp only [store_ipKey hforce hmax]
  by_cases hclient : clientOf arrival.request = clientIp
  · subst hclient
    have hlive := tracks_live (htracked (clientOf arrival.request)) hmax hnow
    have hchecked := hlive.check hmax (le_refl _) hfresh
    have hfilled : ∀ member ∈ arrival.ipMember :: before.members,
        member ∈ arrival.ipMember :: arrival.walletMember :: before.members := by
      intro member hmember
      rcases List.mem_cons.mp hmember with rfl | hold
      · exact List.mem_cons_self
      · exact hlater member hold
    rw [if_pos rfl, callsOf_cons_self (verdict_ip hforce hmax)]
    exact hchecked.tick hwallet hfilled
  · rw [if_neg (Ne.symm hclient), callsOf_cons_ne hclient]
    exact (htracked clientIp).tick (hnow.trans hwallet) hlater

/-- A request without a wallet passes exactly when its client's window has room. -/
theorem passes_iff_room (htracked : Tracked environment options before)
    (hclock : before.clock ≤ arrival.now) (hwallet : extractWalletAddress arrival.request = none) :
    (createRedisRateLimiter environment options arrival before.store).1.passes = true ↔
      (recent ((ipThreshold environment options).windowMs : ℤ) arrival.now
        (allowedTimes (callsOf (clientOf arrival.request) before.log))).length <
          (ipThreshold environment options).maxRequests := by
  have hlive := tracks_live (htracked (clientOf arrival.request)) hmax hclock
  rw [← hlive.allowed_iff (le_refl arrival.now) arrival.ipMember, createRedisRateLimiter,
    if_pos hforce, limit_client hmax, hwallet]
  change _ ↔ (clientReply environment options arrival before.store).1.allowed = true
  cases hallowed : (clientReply environment options arrival before.store).1.allowed with
  | true => simp [rejects, checkSlidingWindow, hallowed, Verdict.passes, Verdict.answer]
  | false => simp [rejects, checkSlidingWindow, hallowed, Verdict.passes, Verdict.answer]

end Steps

/-! ## Headers that name the socket -/

section Named

variable {environment : Environment} {options : RedisRateLimiterOptions} {arrival : Arrival}

/-- What passes, its client's window allowed. -/
theorem allowed_of_passes {verdict : Verdict} {result : SlidingWindowResult}
    (hresult : verdict.ip = some result) (hpasses : verdict.passes = true) :
    result.allowed = true := by
  cases hallowed : result.allowed with
  | true => rfl
  | false =>
      rw [Verdict.passes, Verdict.answer, hresult, Option.filter_some, hallowed] at hpasses
      cases hpasses

/-- An entry whose client is the one of its address. -/
structure NamedEntry (entry : LoggedRequest) : Prop where
  client : entry.clientIp = socketIp entry.remoteAddress
  checked : ∃ result, entry.verdict.ip = some result

theorem passTimes_cons (remoteAddress : String) (entry : LoggedRequest) (log : List LoggedRequest) :
    passTimes remoteAddress (entry :: log) =
      if entry.remoteAddress = remoteAddress ∧ entry.verdict.passes = true then
        entry.now :: passTimes remoteAddress log
      else passTimes remoteAddress log := by
  by_cases hcounts : entry.remoteAddress = remoteAddress ∧ entry.verdict.passes = true
  · simp [passTimes, hcounts]
  · rw [if_neg hcounts, passTimes, List.filter_cons_of_neg (by simpa using hcounts)]
    rfl

/-- The requests of an address that passed are calls of its client that were allowed. -/
theorem passTimes_sublist (remoteAddress : String) {log : List LoggedRequest}
    (hnamed : ∀ entry ∈ log, NamedEntry entry) :
    (passTimes remoteAddress log).Sublist
      (allowedTimes (callsOf (socketIp remoteAddress) log)) := by
  induction log with
  | nil => exact List.Sublist.refl _
  | cons entry log ih =>
      obtain ⟨hentry, hlog⟩ := List.forall_mem_cons.mp hnamed
      have hrest := ih hlog
      obtain ⟨result, hresult⟩ := hentry.checked
      by_cases hclient : entry.clientIp = socketIp remoteAddress
      · have hcalls : callsOf (socketIp remoteAddress) (entry :: log) =
            ⟨entry.now, result⟩ :: callsOf (socketIp remoteAddress) log := by
          rw [← hclient]
          exact callsOf_cons_self hresult
        rw [hcalls, passTimes_cons, allowedTimes_cons]
        split
        · rename_i hcounts
          rw [if_pos (allowed_of_passes hresult hcounts.2)]
          exact hrest.cons_cons entry.now
        · split
          · exact hrest.cons _
          · exact hrest
      · have hother : entry.remoteAddress ≠ remoteAddress := by
          rintro rfl
          exact hclient hentry.client
        rw [callsOf_cons_ne hclient, passTimes_cons, if_neg fun hcounts => hother hcounts.1]
        exact hrest

theorem clientOf_eq_socketIp {clients : Clients} (hnames : NamesSocket clients)
    (hsend : clients.maySend arrival.request) :
    clientOf arrival.request = socketIp arrival.request.remoteAddress := by
  rw [clientOf]
  cases hheader : arrival.request.forwardedFor with
  | none => rfl
  | some header => exact hnames _ header (hsend header hheader)

/-- A request is treated in the same way without its headers. -/
theorem step_bare {clients : Clients} (hnames : NamesSocket clients)
    (hsend : clients.maySend arrival.request) (system : System) :
    step environment options system arrival.bare = step environment options system arrival := by
  have hclient : clientOf arrival.bare.request = clientOf arrival.request :=
    (clientOf_eq_socketIp hnames hsend).symm
  have hhandled : createRedisRateLimiter environment options arrival.bare system.store =
      createRedisRateLimiter environment options arrival system.store := by
    rw [createRedisRateLimiter, createRedisRateLimiter, hclient]
    rfl
  rw [step, step, hhandled, hclient]
  rfl

/-- The windows are tracked, and the log has named entries only. -/
theorem named_of_run {clients : Clients} (hforce : InForce environment options)
    (hmax : 1 ≤ (ipThreshold environment options).maxRequests) (hnames : NamesSocket clients)
    {arrivals : List Arrival} {last : System}
    (hrun : Run (step environment options) .start arrivals last)
    (hsend : ∀ arrival ∈ arrivals, clients.maySend arrival.request) :
    Tracked environment options last ∧ ∀ entry ∈ last.log, NamedEntry entry := by
  have hpreserve : ∀ {before after : System} {arrival : Arrival},
      clients.maySend arrival.request → step environment options before arrival = some after →
        (Tracked environment options before ∧ ∀ entry ∈ before.log, NamedEntry entry) →
          Tracked environment options after ∧ ∀ entry ∈ after.log, NamedEntry entry := by
    intro before after arrival hallowed hstep hinv
    refine ⟨tracked_of_step hforce hmax hstep hinv.1, ?_⟩
    obtain ⟨_, _, _, rfl⟩ := after_step hstep
    intro entry hentry
    rcases List.mem_cons.mp hentry with rfl | hold
    · exact ⟨clientOf_eq_socketIp hnames hallowed, _, verdict_ip hforce hmax⟩
    · exact hinv.2 entry hold
  have hstart : Tracked environment options System.start ∧
      ∀ entry ∈ System.start.log, NamedEntry entry :=
    ⟨tracked_start _ _, fun _ hnone => absurd hnone List.not_mem_nil⟩
  exact (hrun.guard_events hsend).invariant hpreserve hstart

theorem exec_bare {clients : Clients} (hnames : NamesSocket clients) {arrivals : List Arrival}
    (hsend : ∀ arrival ∈ arrivals, clients.maySend arrival.request) (first : System) :
    exec (step environment options) first (arrivals.map Arrival.bare) =
      exec (step environment options) first arrivals :=
  exec_map (fun arrival hmem system => step_bare hnames (hsend arrival hmem) system) first

theorem limitsAddresses_of_namesSocket {clients : Clients}
    (hforce : InForce environment options)
    (hmax : 1 ≤ (ipThreshold environment options).maxRequests) (hnames : NamesSocket clients) :
    LimitsAddresses environment options clients where
  bounded := by
    intro arrivals last hrun hsend remoteAddress time
    obtain ⟨htracked, hnamed⟩ := named_of_run hforce hmax hnames hrun hsend
    have htimes := passTimes_sublist remoteAddress hnamed
    exact ((htimes.filter _).length_le).trans
      ((htracked (socketIp remoteAddress)).limited.bounded time)
  independent := by
    intro left right lastLeft lastRight hleft hright hsendLeft hsendRight hsame
    have hend : some lastLeft = some lastRight := by
      calc
        some lastLeft = exec (step environment options) .start (left.map Arrival.bare) := by
          rw [exec_bare hnames hsendLeft, hleft.exec_eq]
        _ = some lastRight := by
          rw [hsame, exec_bare hnames hsendRight, hright.exec_eq]
    rw [Option.some.inj hend]

end Named

/-! ## One request too many -/

section Burst

variable {environment : Environment} {options : RedisRateLimiterOptions}

/-- A request that comes at the start, with members of its own. -/
def arrivalAt (index : ℕ) (remoteAddress : String) (forwardedFor : Option HeaderValue) :
    Arrival where
  request :=
    { remoteAddress := remoteAddress, forwardedFor := forwardedFor, user := none, body := none }
  now := 0
  walletNow := 0
  ipMember := toString (2 * index)
  walletMember := toString (2 * index + 1)

/-- Requests without headers. -/
def burst (remoteAddress : String) : ℕ → List Arrival
  | 0 => []
  | count + 1 => burst remoteAddress count ++ [arrivalAt count remoteAddress none]

/-- So many requests of an address have come at the start, and all have passed. -/
structure Burst (remoteAddress : String) (count : ℕ) (system : System) : Prop where
  clock : system.clock = 0
  members : ∀ member ∈ system.members, ∃ index < 2 * count, member = toString index
  length : system.log.length = count
  clients : ∀ entry ∈ system.log, entry.clientIp = socketIp remoteAddress
  passed : passTimes remoteAddress system.log = List.replicate count 0

theorem burst_start (remoteAddress : String) : Burst remoteAddress 0 .start where
  clock := rfl
  members := fun _ hnone => absurd hnone List.not_mem_nil
  length := rfl
  clients := fun _ hnone => absurd hnone List.not_mem_nil
  passed := rfl

theorem not_mem_members {remoteAddress : String} {count index : ℕ} {system : System}
    (hburst : Burst remoteAddress count system) (hindex : 2 * count ≤ index) :
    toString index ∉ system.members := by
  intro hmem
  obtain ⟨other, hless, hsame⟩ := hburst.members _ hmem
  rw [toString_injective hsame] at hindex
  exact absurd hless (not_lt.mpr hindex)

/-- The next request is taken. -/
theorem Burst.step {remoteAddress : String} {count : ℕ} {system : System}
    (hburst : Burst remoteAddress count system) (forwardedFor : Option HeaderValue) :
    step environment options system (arrivalAt count remoteAddress forwardedFor) = some
      { store := (createRedisRateLimiter environment options
          (arrivalAt count remoteAddress forwardedFor) system.store).2
        clock := 0
        members := toString (2 * count) :: toString (2 * count + 1) :: system.members
        log := ⟨remoteAddress, getClientIp remoteAddress forwardedFor, 0,
          (createRedisRateLimiter environment options
            (arrivalAt count remoteAddress forwardedFor) system.store).1⟩ :: system.log } :=
  if_pos ⟨hburst.clock.le, le_refl _, not_mem_members hburst (le_refl _),
    not_mem_members hburst (Nat.le_succ _)⟩

/-- One more request that passes. -/
theorem exists_next {remoteAddress : String} {count : ℕ} {system : System}
    (hburst : Burst remoteAddress count system)
    (hpasses : (createRedisRateLimiter environment options (arrivalAt count remoteAddress none)
      system.store).1.passes = true) :
    ∃ next, RateLimiter.step environment options system (arrivalAt count remoteAddress none) =
      some next ∧ Burst remoteAddress (count + 1) next := by
  refine ⟨_, hburst.step none, ?_⟩
  exact
    { clock := rfl
      members := by
        intro member hmember
        rcases List.mem_cons.mp hmember with rfl | hrest
        · exact ⟨2 * count, by omega, rfl⟩
        · rcases List.mem_cons.mp hrest with rfl | hold
          · exact ⟨2 * count + 1, by omega, rfl⟩
          · obtain ⟨index, hless, hsame⟩ := hburst.members member hold
            exact ⟨index, by omega, hsame⟩
      length := congrArg Nat.succ hburst.length
      clients := List.forall_mem_cons.mpr ⟨rfl, hburst.clients⟩
      passed := by
        rw [passTimes_cons, if_pos ⟨rfl, hpasses⟩, hburst.passed]
        rfl }

theorem maySend_burst (clients : Clients) (remoteAddress : String) (count : ℕ) :
    ∀ arrival ∈ burst remoteAddress count, clients.maySend arrival.request := by
  induction count with
  | zero => exact fun _ hnone => absurd hnone List.not_mem_nil
  | succ count ih =>
      intro arrival hmem
      rcases List.mem_append.mp hmem with hold | hnew
      · exact ih arrival hold
      · obtain rfl := List.mem_singleton.mp hnew
        exact nofun

/-- Requests that all pass, as many as are known to. -/
theorem exists_burst {remoteAddress : String} {bound : ℕ}
    (hpasses : ∀ count < bound, ∀ system,
      Run (step environment options) .start (burst remoteAddress count) system →
      Burst remoteAddress count system →
      (createRedisRateLimiter environment options (arrivalAt count remoteAddress none)
        system.store).1.passes = true) :
    ∀ count ≤ bound, ∃ last,
      Run (step environment options) .start (burst remoteAddress count) last ∧
        Burst remoteAddress count last := by
  intro count
  induction count with
  | zero => exact fun _ => ⟨System.start, .nil System.start, burst_start remoteAddress⟩
  | succ count ih =>
      intro hcount
      obtain ⟨system, hrun, hburst⟩ := ih (Nat.le_of_succ_le hcount)
      obtain ⟨next, hstep, hnext⟩ := exists_next hburst (hpasses count hcount system hrun hburst)
      exact ⟨next, hrun.append (.cons trivial hstep (.nil next)), hnext⟩

/-- More requests at one moment than a window may contain. -/
theorem not_bounded_replicate {windowMs count bound : ℕ} (hwindow : 0 < windowMs)
    (hmore : bound < count) : ¬Bounded (windowMs : ℤ) bound (List.replicate count 0) := by
  intro hbounded
  have hall : within (windowMs : ℤ) 0 (List.replicate count 0) = List.replicate count 0 := by
    apply List.filter_eq_self.mpr
    intro time hmem
    rw [(List.mem_replicate.mp hmem).2, decide_eq_true_iff]
    omega
  have hcount := hbounded 0
  rw [hall, List.length_replicate] at hcount
  exact absurd hmore (not_lt.mpr hcount)

/-- Where the limit is off, every request without a wallet passes. -/
theorem passes_of_off {arrival : Arrival} {store : Store}
    (hoff : ¬(InForce environment options ∧ 1 ≤ (ipThreshold environment options).maxRequests))
    (hwallet : extractWalletAddress arrival.request = none) :
    (createRedisRateLimiter environment options arrival store).1.passes = true := by
  rw [createRedisRateLimiter]
  split
  · rename_i hforce
    have hzero : ¬0 < (ipThreshold environment options).maxRequests :=
      fun hmax => hoff ⟨hforce, hmax⟩
    rw [limit, if_neg hzero, hwallet]
    rfl
  · rfl

theorem on_of_limitsAddresses {clients : Clients}
    (hlimits : LimitsAddresses environment options clients) :
    InForce environment options ∧ 1 ≤ (ipThreshold environment options).maxRequests := by
  by_contra hoff
  have hall : ∀ count < (ipThreshold environment options).maxRequests + 1, ∀ system,
      Run (step environment options) .start (burst clients.someAddress count) system →
      Burst clients.someAddress count system →
      (createRedisRateLimiter environment options (arrivalAt count clients.someAddress none)
        system.store).1.passes = true :=
    fun _ _ _ _ _ => passes_of_off hoff rfl
  obtain ⟨last, hrun, hburst⟩ := exists_burst hall
    ((ipThreshold environment options).maxRequests + 1) (le_refl _)
  have hbounded := hlimits.bounded _ last hrun (maySend_burst clients _ _) clients.someAddress
  rw [hburst.passed] at hbounded
  exact not_bounded_replicate (ipThreshold environment options).windowMs_pos (Nat.lt_succ_self _)
    hbounded

/-- A client with no requests so far has no calls. -/
theorem callsOf_other {remoteAddress clientIp : String} {count : ℕ} {system : System}
    (hburst : Burst remoteAddress count system) (hother : clientIp ≠ socketIp remoteAddress) :
    callsOf clientIp system.log = [] := by
  apply List.filterMap_eq_nil_iff.mpr
  intro entry hentry
  exact if_neg fun hsame => hother (hsame.symm.trans (hburst.clients entry hentry))

theorem tracked_of_run (hforce : InForce environment options)
    (hmax : 1 ≤ (ipThreshold environment options).maxRequests) {arrivals : List Arrival}
    {last : System} (hrun : Run (step environment options) .start arrivals last) :
    Tracked environment options last := by
  have hpreserve : ∀ {before after : System} {arrival : Arrival}, True →
      step environment options before arrival = some after → Tracked environment options before →
        Tracked environment options after :=
    fun _ hstep htracked => tracked_of_step hforce hmax hstep htracked
  exact hrun.invariant hpreserve (tracked_start environment options)

theorem length_recent_callsOf (width now : ℤ) (clientIp : String) (log : List LoggedRequest) :
    (recent width now (allowedTimes (callsOf clientIp log))).length ≤ log.length := by
  calc
    (recent width now (allowedTimes (callsOf clientIp log))).length ≤
        (allowedTimes (callsOf clientIp log)).length := List.length_filter_le _ _
    _ ≤ (callsOf clientIp log).length := by
      rw [allowedTimes, List.length_map]
      exact List.length_filter_le _ _
    _ ≤ log.length := List.length_filterMap_le _ _

/-- After as many requests as may pass, one more passes under another client's name. -/
theorem namesSocket_of_limitsAddresses {clients : Clients} (hforce : InForce environment options)
    (hmax : 1 ≤ (ipThreshold environment options).maxRequests)
    (hlimits : LimitsAddresses environment options clients) : NamesSocket clients := by
  intro remoteAddress header hallowed
  by_contra hother
  have hfill : ∀ count < (ipThreshold environment options).maxRequests, ∀ system,
      Run (step environment options) .start (burst remoteAddress count) system →
      Burst remoteAddress count system →
      (createRedisRateLimiter environment options (arrivalAt count remoteAddress none)
        system.store).1.passes = true := by
    intro count hcount system hrun hburst
    apply (passes_iff_room hforce hmax (tracked_of_run hforce hmax hrun) hburst.clock.le rfl).mpr
    refine lt_of_le_of_lt (length_recent_callsOf _ _ _ _) ?_
    rw [hburst.length]
    exact hcount
  obtain ⟨system, hrun, hburst⟩ := exists_burst hfill
    (ipThreshold environment options).maxRequests (le_refl _)
  have hpasses : (createRedisRateLimiter environment options
      (arrivalAt (ipThreshold environment options).maxRequests remoteAddress (some header))
        system.store).1.passes = true := by
    apply (passes_iff_room hforce hmax (tracked_of_run hforce hmax hrun) hburst.clock.le rfl).mpr
    have hnone : callsOf (getClientIp remoteAddress (some header)) system.log = [] :=
      callsOf_other hburst hother
    change (recent _ _ (allowedTimes (callsOf (getClientIp remoteAddress (some header))
      system.log))).length < _
    rw [hnone]
    exact hmax
  have hnext := hrun.append (.cons trivial (hburst.step (some header)) (.nil _))
  have hbounded := hlimits.bounded _ _ hnext ?_ remoteAddress
  · rw [passTimes_cons, if_pos ⟨rfl, hpasses⟩, hburst.passed, ← List.replicate_succ] at hbounded
    exact not_bounded_replicate (ipThreshold environment options).windowMs_pos
      (Nat.lt_succ_self _) hbounded
  · intro arrival hmem
    rcases List.mem_append.mp hmem with hold | hnew
    · exact maySend_burst clients remoteAddress _ arrival hold
    · obtain rfl := List.mem_singleton.mp hnew
      intro sent hsent
      obtain rfl := Option.some.inj hsent
      exact hallowed

end Burst

/-- The limit holds for each address, whatever its requests are, and no header matters, exactly when
the limiter is on and no header that a client may send names another client than its socket. -/
theorem limitsAddresses_iff (environment : Environment) (options : RedisRateLimiterOptions)
    (clients : Clients) :
    LimitsAddresses environment options clients ↔
      (InForce environment options ∧ 1 ≤ (ipThreshold environment options).maxRequests) ∧
        NamesSocket clients := by
  constructor
  · intro hlimits
    obtain ⟨hforce, hmax⟩ := on_of_limitsAddresses hlimits
    exact ⟨⟨hforce, hmax⟩, namesSocket_of_limitsAddresses hforce hmax hlimits⟩
  · rintro ⟨⟨hforce, hmax⟩, hnames⟩
    exact limitsAddresses_of_namesSocket hforce hmax hnames

/-! ## A header that names another client -/

def plainEnvironment : Environment := ⟨none, fun _ => none⟩

def oneEachMinute : RedisRateLimiterOptions where
  endpoint := "auth-verify"
  ipLimit := some ⟨60000, 1, by decide⟩
  walletLimit := none
  enabled := none

def anyHeader : Clients := ⟨fun _ _ => True, "203.0.113.9"⟩

/-- Two requests of one address, the second with a header. -/
def twoRequests : List Arrival :=
  [arrivalAt 0 "203.0.113.9" none, arrivalAt 1 "203.0.113.9" (some (.text "198.51.100.1"))]

theorem twoRequests_pass : (∃ last,
      Run (step plainEnvironment oneEachMinute) .start twoRequests last ∧
        passTimes "203.0.113.9" last.log = [0, 0]) ∧
      ¬LimitsAddresses plainEnvironment oneEachMinute anyHeader := by
  have hexec : (exec (step plainEnvironment oneEachMinute) .start twoRequests).map
      (fun last => passTimes "203.0.113.9" last.log) = some [0, 0] := by decide
  obtain ⟨last, hrun, hpasses⟩ := exists_run hexec
  refine ⟨⟨last, hrun, hpasses⟩, fun hlimits => ?_⟩
  have hbounded := hlimits.bounded twoRequests last hrun (fun _ _ _ _ => trivial) "203.0.113.9" 0
  rw [hpasses] at hbounded
  exact absurd hbounded (by decide)

end StellarSettle.RateLimiter
