import InferenceCache.Lib.Range
import InferenceCache.Lib.Scalars
import InferenceCache.Lib.Strings

namespace InferenceCache.Auth

inductive Result
  | ok
  | unauth
  | forbidden
  | error
  deriving DecidableEq

structure TokenReviewSpec where
  token     : GoString
  audiences : List GoString
  deriving DecidableEq

structure TokenReviewStatus where
  authenticated : Bool
  username      : GoString
  deriving DecidableEq

-- What a call of the reviewer returns: an error, neither an error nor a review, or a review.
inductive Answer
  | failed
  | missing
  | review (status : TokenReviewStatus)
  deriving DecidableEq

structure Options where
  reviewer               : Bool
  expectedServiceAccount : GoString
  audience               : GoString
  cacheTTL               : Duration
  cacheMaxEntries        : Int

structure Authenticator where
  expectedSA : GoString
  audience   : GoString
  cacheTTL   : Duration
  cacheMax   : Int
  ttl_pos    : 0 < cacheTTL
  max_pos    : 0 < cacheMax

def defaultCacheTTL : Duration := 30 * 10 ^ 9

def defaultCacheMaxEntries : Int := 32

def newAuthenticator (opts : Options) : Except GoString Authenticator :=
  if !opts.reviewer then .error (utf8 "auth: Reviewer is required")
  else if opts.expectedServiceAccount = [] then
    .error (utf8 "auth: ExpectedServiceAccount is required")
  else .ok {
    expectedSA := opts.expectedServiceAccount
    audience   := opts.audience
    cacheTTL   := if opts.cacheTTL ≤ 0 then defaultCacheTTL else opts.cacheTTL
    cacheMax   := if opts.cacheMaxEntries ≤ 0 then defaultCacheMaxEntries else opts.cacheMaxEntries
    ttl_pos    := by
      split
      case isTrue    => decide
      case isFalse h => exact not_le.mp h
    max_pos    := by
      split
      case isTrue    => decide
      case isFalse h => exact not_le.mp h }

-- No letter outside ASCII has one of the letters of the scheme as its lower case.
def extractBearer (h : GoString) : Option GoString :=
  if h = [] then none else
    match GoString.cut h 0x20 with
    | none               => none
    | some (scheme, tok) =>
      if GoString.asciiLower scheme ≠ utf8 "bearer" then none
      else if GoString.trimSpace tok = [] then none
      else some (GoString.trimSpace tok)

-- The time at which an entry expires, by the digest of its token.
abbrev Cache := GoMap GoString Time

-- An expired entry is removed on access.
def cacheHit (cache : Cache) (now : Time) (hash : GoString) : Bool × Cache :=
  match cache.lookup hash with
  | none         => (false, cache)
  | some expires => if ¬now < expires then (false, cache.erase hash) else (true, cache)

-- The iteration orders of the two `range` statements of an insertion.
structure PutOrders where
  prune : RangeOrder GoString
  evict : RangeOrder GoString

def pruneExpired (order : RangeOrder GoString) (now : Time) (cache : Cache) : Cache :=
  (order.range cache).foldl (fun c x => if ¬now < x.2 then c.erase x.1 else c) cache

def soonest (entries : List (GoString × Time)) : Option (GoString × Time) :=
  entries.foldl (fun victim x =>
    match victim with
    | none   => some x
    | some v => if x.2 < v.2 then some x else some v) none

def evictSoonest (order : RangeOrder GoString) (cache : Cache) : Cache :=
  match soonest (order.range cache) with
  | none        => cache.erase []
  | some victim => cache.erase victim.1

namespace Authenticator

variable (a : Authenticator)

def cachePut (cache : Cache) (orders : PutOrders) (now : Time) (hash : GoString) : Cache :=
  let cache :=
    if a.cacheMax ≤ cache.len then
      let cache := pruneExpired orders.prune now cache
      if a.cacheMax ≤ cache.len then evictSoonest orders.evict cache else cache
    else cache
  cache.insert hash (now + a.cacheTTL)

def specOf (token : GoString) : TokenReviewSpec where
  token     := token
  audiences := if a.audience ≠ [] then [a.audience] else []

-- What the middleware makes of an answer, `ok` being the only case in which it goes on.
def judge : Answer → Result
  | .failed        => .error
  | .missing       => .error
  | .review status =>
    if !status.authenticated then .unauth
    else if status.username ≠ a.expectedSA then .forbidden
    else .ok

end Authenticator

section Middleware

abbrev RequestID := Nat

-- How far the middleware has come with a request. It holds no lock between two of these points, so
-- that any other request may go on there.
inductive Phase
  | arrived (header : GoString)
  | reviewing (token : GoString)
  | reviewed (token : GoString)
  | admitted (now : Time)
  | denied (result : Result)
  | done

-- What is observable of the middleware: requests, answers of the reviewer, insertions into the cache,
-- calls of the recorder, and calls of the wrapped handler with the time at which they were admitted.
inductive Action
  | arrives (id : RequestID) (header : GoString)
  | answers (id : RequestID) (spec : TokenReviewSpec) (answer : Answer)
  | caches (id : RequestID) (token : GoString) (now : Time)
  | records (id : RequestID) (result : Result)
  | serves (id : RequestID) (now : Time)
  deriving DecidableEq

def Action.id : Action → RequestID
  | .arrives id _ | .answers id _ _ | .caches id _ _ | .records id _ | .serves id _ => id

-- The latest action is the first of the history.
structure State where
  cache   : Cache
  phase   : GoMap RequestID Phase
  history : List Action

def State.new : State where
  cache   := ∅
  phase   := ∅
  history := []

-- Which request goes on, and what the clock and the reviewer say then.
inductive Move
  | arrive (id : RequestID) (header : GoString)
  | check (id : RequestID) (now : Time)
  | review (id : RequestID) (answer : Answer)
  | put (id : RequestID) (now : Time) (orders : PutOrders)
  | finish (id : RequestID)

def Move.now : Move → Option Time
  | .check _ now  => some now
  | .put _ now _  => some now
  | .arrive _ _   => none
  | .review _ _   => none
  | .finish _     => none

namespace State

variable (s : State)

def goOn (id : RequestID) (phase : Phase) (actions : List Action) : State :=
  { s with phase := s.phase.insert id phase, history := actions ++ s.history }

-- Up to the end of the critical section of `cacheHit`.
def check (sha256Hex : GoString → GoString) (id : RequestID) (header : GoString) (now : Time) :
    State :=
  match extractBearer header with
  | none       => s.goOn id (.denied .unauth) []
  | some token =>
    let (hit, cache) := cacheHit s.cache now (sha256Hex token)
    { s with cache }.goOn id (if hit then .admitted now else .reviewing token) []

def review (a : Authenticator) (id : RequestID) (token : GoString) (answer : Answer) : State :=
  s.goOn id (match a.judge answer with | .ok => .reviewed token | deny => .denied deny)
    [.answers id (a.specOf token) answer]

-- The critical section of `cachePut`.
def put (a : Authenticator) (sha256Hex : GoString → GoString) (id : RequestID) (token : GoString)
    (now : Time) (orders : PutOrders) : State :=
  { s with cache := a.cachePut s.cache orders now (sha256Hex token) }.goOn id (.admitted now)
    [.caches id token now]

-- A request only goes on from where it is, any other move changes nothing.
def step (a : Authenticator) (sha256Hex : GoString → GoString) (s : State) : Move → State
  | .arrive id header =>
    match s.phase.lookup id with
    | none => s.goOn id (.arrived header) [.arrives id header]
    | _    => s
  | .check id now =>
    match s.phase.lookup id with
    | some (.arrived header) => s.check sha256Hex id header now
    | _                      => s
  | .review id answer =>
    match s.phase.lookup id with
    | some (.reviewing token) => s.review a id token answer
    | _                       => s
  | .put id now orders =>
    match s.phase.lookup id with
    | some (.reviewed token) => s.put a sha256Hex id token now orders
    | _                      => s
  | .finish id =>
    match s.phase.lookup id with
    | some (.admitted now)  => s.goOn id .done [.serves id now, .records id .ok]
    | some (.denied result) => s.goOn id .done [.records id result]
    | _                     => s

def run (a : Authenticator) (sha256Hex : GoString → GoString) (moves : List Move) : State :=
  moves.foldl (step a sha256Hex) new

end State

end Middleware

end InferenceCache.Auth
