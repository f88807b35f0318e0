import Mathlib.Data.PNat.Defs
import Mathlib.Logic.Function.Basic
import StellarSettle.Gateway.SlidingWindow
import StellarSettle.Projections.EventReader

/-!
# The rate limiter

A request passes when the sliding window of its client and the one of its wallet have room.  The
client is the first entry of an `X-Forwarded-For` header, where there is one, and else the address
of the socket: no proxy is trusted, so `req.ip` is that address.

Redis answers, and drops a key when its lifetime has ended.
-/

namespace StellarSettle.RateLimiter

open StellarSettle.EventReader (trimText)
open StellarSettle.SlidingWindow
open StellarSettle.SlidingWindows
open StellarSettle.TransitionSystem

/-! ## Requests -/

inductive HeaderValue where
  | text (value : String)
  | list (values : List String)
  deriving DecidableEq, Repr

structure AuthenticatedUser where
  stellarAddress : Option String
  publicKey : Option String
  deriving DecidableEq, Repr

/-- The fields that are texts. -/
structure RequestBody where
  publicKey : Option String
  walletAddress : Option String
  investorWallet : Option String
  deriving DecidableEq, Repr

/-- What the limiter reads.  The address of a socket that is closed is empty. -/
structure Request where
  remoteAddress : String
  forwardedFor : Option HeaderValue
  user : Option AuthenticatedUser
  body : Option RequestBody
  deriving DecidableEq, Repr

/-- `text.split(",")[0]`. -/
def beforeComma (text : String) : String := String.ofList (text.toList.takeWhile (· ≠ ','))

/-- `req.ip || req.socket.remoteAddress || "127.0.0.1"`. -/
def socketIp (remoteAddress : String) : String :=
  if remoteAddress = "" then "127.0.0.1" else remoteAddress

def getClientIp (remoteAddress : String) (forwardedFor : Option HeaderValue) : String :=
  match forwardedFor with
  | some (.text forwarded) =>
      if trimText forwarded = "" then socketIp remoteAddress else trimText (beforeComma forwarded)
  | _ => socketIp remoteAddress

def nonempty (text : Option String) : Option String := text.filter (· ≠ "")

def trimmed (text : Option String) : Option String := nonempty (text.map trimText)

def extractWalletAddress (request : Request) : Option String :=
  ((request.user.bind fun user => nonempty user.stellarAddress) <|>
    request.user.bind fun user => nonempty user.publicKey) <|>
  ((request.body.bind fun body => trimmed body.publicKey) <|>
    (request.body.bind fun body => trimmed body.walletAddress) <|>
    request.body.bind fun body => trimmed body.investorWallet)

/-! ## Thresholds -/

structure RateLimitThreshold where
  windowMs : ℕ
  maxRequests : ℕ
  windowMs_pos : 0 < windowMs

structure RedisRateLimiterOptions where
  endpoint : String
  ipLimit : Option RateLimitThreshold
  walletLimit : Option RateLimitThreshold
  enabled : Option Bool

/-- The variables of the process: `RATE_LIMIT_ENABLED`, and those that are positive whole
numbers. -/
structure Environment where
  rateLimitEnabled : Option String
  number : String → Option ℕ+

def normalizedEndpoint (endpoint : String) : String :=
  endpoint.toUpper.map fun c => if c.isUpper || c.isDigit then c else '_'

def resolveThreshold (environment : Environment) (endpoint dimension : String)
    (fallback : RateLimitThreshold) : RateLimitThreshold :=
  let variable_ := s!"RATE_LIMIT_{normalizedEndpoint endpoint}_{dimension}"
  { windowMs := ((environment.number s!"{variable_}_WINDOW_MS").map PNat.val).getD fallback.windowMs
    maxRequests := ((environment.number s!"{variable_}_MAX").map PNat.val).getD fallback.maxRequests
    windowMs_pos := by
      cases environment.number s!"{variable_}_WINDOW_MS" with
      | none => exact fallback.windowMs_pos
      | some windowMs => exact windowMs.pos }

def defaultWindow (environment : Environment) : ℕ+ :=
  (environment.number "RATE_LIMIT_WINDOW_MS").getD 60000

def ipThreshold (environment : Environment) (options : RedisRateLimiterOptions) :
    RateLimitThreshold :=
  resolveThreshold environment options.endpoint "IP" <| options.ipLimit.getD
    { windowMs := defaultWindow environment
      maxRequests := ((environment.number "RATE_LIMIT_MAX").map PNat.val).getD 100
      windowMs_pos := (defaultWindow environment).pos }

def walletThreshold (environment : Environment) (options : RedisRateLimiterOptions) :
    RateLimitThreshold :=
  resolveThreshold environment options.endpoint "WALLET" <| options.walletLimit.getD
    { windowMs := defaultWindow environment
      maxRequests := 10
      windowMs_pos := (defaultWindow environment).pos }

/-! ## The middleware -/

abbrev Store := String → Option SortedSet

/-- A key whose lifetime has ended is not there. -/
def live (now : ℤ) (key : Option SortedSet) : Option SortedSet :=
  key.filter fun set => now < set.expireAt

def ipKey (endpoint clientIp : String) : String :=
  "ratelimit:" ++ endpoint ++ ":" ++ ("ip:" ++ clientIp)

def walletKey (endpoint wallet : String) : String :=
  "ratelimit:" ++ endpoint ++ ":" ++ ("wallet:" ++ wallet)

/-- A threshold of zero limits nothing. -/
def limit (threshold : RateLimitThreshold) (now : ℤ) (member key : String) (store : Store) :
    Option SlidingWindowResult × Store :=
  if 0 < threshold.maxRequests then
    let (reply, set) := slidingWindowLuaScript now threshold.windowMs threshold.maxRequests member
      (live now (store key))
    (some (checkSlidingWindow threshold.maxRequests (some reply)), Function.update store key set)
  else (none, store)

/-- What the two checks of a request said. -/
structure Verdict where
  ip : Option SlidingWindowResult
  wallet : Option SlidingWindowResult
  deriving DecidableEq, Repr

def rejects (check : Option SlidingWindowResult) : Bool := check.any fun result => !result.allowed

structure TooManyRequests where
  statusCode : ℕ
  retryAfter : String
  code : String
  message : String
  deriving DecidableEq, Repr

def tooManyRequests (result : SlidingWindowResult) : TooManyRequests :=
  { statusCode := 429
    retryAfter := toString result.retryAfterSeconds
    code := "RATE_LIMIT_EXCEEDED"
    message :=
      s!"Too many requests. Please wait {result.retryAfterSeconds} seconds before retrying." }

/-- The answer to a request that does not pass. -/
def Verdict.answer (verdict : Verdict) : Option TooManyRequests :=
  ((verdict.ip.filter fun result => !result.allowed) <|>
    verdict.wallet.filter fun result => !result.allowed).map tooManyRequests

def Verdict.passes (verdict : Verdict) : Bool := verdict.answer.isNone

/-- A request with the times of its checks and the members that they add. -/
structure Arrival where
  request : Request
  now : ℤ
  walletNow : ℤ
  ipMember : String
  walletMember : String
  deriving DecidableEq, Repr

def InForce (environment : Environment) (options : RedisRateLimiterOptions) : Prop :=
  options.enabled ≠ some false ∧ environment.rateLimitEnabled ≠ some "false"

instance (environment : Environment) (options : RedisRateLimiterOptions) :
    Decidable (InForce environment options) := inferInstanceAs (Decidable (_ ∧ _))

def clientOf (request : Request) : String :=
  getClientIp request.remoteAddress request.forwardedFor

def createRedisRateLimiter (environment : Environment) (options : RedisRateLimiterOptions)
    (arrival : Arrival) (store : Store) : Verdict × Store :=
  if InForce environment options then
    let (ip, afterIp) := limit (ipThreshold environment options) arrival.now arrival.ipMember
      (ipKey options.endpoint (clientOf arrival.request)) store
    if rejects ip then (⟨ip, none⟩, afterIp)
    else
      match extractWalletAddress arrival.request with
      | none => (⟨ip, none⟩, afterIp)
      | some wallet =>
          let (walletResult, afterWallet) := limit (walletThreshold environment options)
            arrival.walletNow arrival.walletMember (walletKey options.endpoint wallet) afterIp
          (⟨ip, walletResult⟩, afterWallet)
  else (⟨none, none⟩, store)

/-! ## Sequences of requests -/

structure LoggedRequest where
  remoteAddress : String
  clientIp : String
  now : ℤ
  verdict : Verdict
  deriving DecidableEq, Repr

/-- The store, the members that were used, and the requests with the newest first. -/
structure System where
  store : Store
  clock : ℤ
  members : List String
  log : List LoggedRequest

def System.start : System := { store := fun _ => none, clock := 0, members := [], log := [] }

def step (environment : Environment) (options : RedisRateLimiterOptions) (system : System)
    (arrival : Arrival) : Option System :=
  if system.clock ≤ arrival.now ∧ arrival.now ≤ arrival.walletNow ∧
      arrival.ipMember ∉ system.members ∧ arrival.walletMember ∉ system.members then
    let (verdict, store) := createRedisRateLimiter environment options arrival system.store
    some
      { store := store
        clock := arrival.walletNow
        members := arrival.ipMember :: arrival.walletMember :: system.members
        log := ⟨arrival.request.remoteAddress, clientOf arrival.request, arrival.now, verdict⟩ ::
          system.log }
  else none

/-- The times of the requests from an address that passed. -/
def passTimes (remoteAddress : String) (log : List LoggedRequest) : List ℤ :=
  (log.filter fun entry => entry.remoteAddress = remoteAddress && entry.verdict.passes).map
    LoggedRequest.now

/-- How many requests passed. -/
def passes (log : List LoggedRequest) : ℕ := log.countP fun entry => entry.verdict.passes

/-- A request without what its client may choose. -/
def Arrival.bare (arrival : Arrival) : Arrival :=
  { arrival with request := { arrival.request with forwardedFor := none } }

/-- The headers that clients may send from their addresses.  A client may leave one out. -/
structure Clients where
  mayForward : String → HeaderValue → Prop
  someAddress : String

def Clients.maySend (clients : Clients) (request : Request) : Prop :=
  ∀ header ∈ request.forwardedFor, clients.mayForward request.remoteAddress header

/-- The limit holds for each address, and the headers do not matter. -/
structure LimitsAddresses (environment : Environment) (options : RedisRateLimiterOptions)
    (clients : Clients) : Prop where
  bounded : ∀ arrivals last, Run (step environment options) .start arrivals last →
    (∀ arrival ∈ arrivals, clients.maySend arrival.request) → ∀ remoteAddress,
      Bounded ((ipThreshold environment options).windowMs : ℤ)
        (ipThreshold environment options).maxRequests (passTimes remoteAddress last.log)
  independent : ∀ left right lastLeft lastRight,
    Run (step environment options) .start left lastLeft →
    Run (step environment options) .start right lastRight →
    (∀ arrival ∈ left, clients.maySend arrival.request) →
    (∀ arrival ∈ right, clients.maySend arrival.request) →
    left.map Arrival.bare = right.map Arrival.bare → passes lastLeft.log = passes lastRight.log

/-- No header that a client may send names another client than its address does. -/
def NamesSocket (clients : Clients) : Prop :=
  ∀ remoteAddress header, clients.mayForward remoteAddress header →
    getClientIp remoteAddress (some header) = getClientIp remoteAddress none

end StellarSettle.RateLimiter
