import InferenceCache.Index.Credit
import InferenceCache.Server.Service

namespace InferenceCache.Server

open FloatFormat

-- The service with all that a `LookupRoute` call depends on. There is no option by which the server
-- could give its index another ranker than the default one.
structure Handler (F : Type) [GoFloat F] extends Service where
  cfg             : Config F
  policies        : Option (PolicyStore F)
  tokenizeTimeout : Duration
  ranker_default  : cfg.ranker = .default

-- What the caller's context, the clock, the scheduler and other callers decide during one call:
-- whether the caller has set a deadline, what `ctx.Err` says each time it is asked, which case each
-- `select` takes, and how long the lookup and the whole call take.
structure Timing where
  callerDeadline     : Bool
  errAtStart         : Bool
  slotFree           : Bool
  resolvedInTime     : Bool
  errAfterResolution : Bool
  lookedUpInTime     : Bool
  errAfterLookup     : Bool
  lookupTime         : Duration
  elapsed            : Duration

-- A call that nothing interrupts.
def Timing.unhurried : Timing :=
  ⟨false, false, true, true, false, true, false, 0, 0⟩

section Conversion

variable {F : Type}

-- Tiers that the contract does not know are not reported.
def cacheTierToProto (t : CacheTier) : Int32 :=
  if t = CacheTier.t1 then Wire.CacheTier.t1
  else if t = CacheTier.t2 then Wire.CacheTier.t2
  else if t = CacheTier.t3 then Wire.CacheTier.t3
  else Wire.CacheTier.unspecified

def scoreToProto (sc : ReplicaScore F) : Wire.ReplicaScore F where
  replicaID := sc.replicaID
  score := sc.score
  matchedTokens := sc.matchedTokens
  estimatedCacheHitProb := sc.estimatedCacheHitProb
  tier := cacheTierToProto sc.tier

def reasonForStrategy : Strategy → Wire.ReasonCode
  | .prefixMatch       => .prefixMatch
  | .tenantHot         => .tenantHot
  | .unknownTenant     => .unknownTenant
  | .unknownModel      => .unknownModel
  | .unknownHashScheme => .unknownHashScheme
  | .none              => .noHint

-- An answer without replicas, which leaves it to the caller where to route the request.
def failOpenResponse (reason : Wire.ReasonCode) (tm : Timing) (echoTokens : List UInt32) :
    Wire.LookupRouteResponse F :=
  { reasonCode := reason, lookupLatencyUs := Time.microseconds tm.elapsed, tokenIDs := echoTokens }

def timeoutResponse : Timing → List UInt32 → Wire.LookupRouteResponse F :=
  failOpenResponse .timeout

def noHintResponse : Timing → List UInt32 → Wire.LookupRouteResponse F :=
  failOpenResponse .noHint

def policyGateResponse : Timing → List UInt32 → Wire.LookupRouteResponse F :=
  failOpenResponse .policyRequiresChain

end Conversion

-- The tokens a request claims its prefix to have. A chain takes precedence over the single hash.
def effectivePrefixTokens (blockTokenCounts : List Int32) (legacyCount : Int32) : Int32 :=
  if 0 < blockTokenCounts.length then blockTokenCounts.foldl (· + ·) 0 else legacyCount

def LookupInputs.effectiveTokens (inputs : LookupInputs) : Int32 :=
  effectivePrefixTokens inputs.blockTokenCounts inputs.exactTokenCount

def requestCarriesValidBlockHashChain (req : Wire.LookupRouteRequest) : Bool :=
  0 < req.blockHashes.length ∧ req.blockHashes.length = req.blockTokenCounts.length

section Affinity

def affinityEligible (req : Wire.LookupRouteRequest) : Bool :=
  if req.tenantID = [] ∨ req.modelID = [] ∨ req.hashScheme = [] then false
  else if (0 < req.blockHashes.length ∨ 0 < req.blockTokenCounts.length) ∧
      req.blockHashes.length ≠ req.blockTokenCounts.length then false
  else true

-- Each hash is preceded by its length, so that no two chains have the same seed.
def canonicalAffinitySeed (inputs : LookupInputs) : Option Bytes :=
  if 0 < inputs.blockHashes.length then
    some <| inputs.blockHashes.flatMap fun b => beBytes 4 b.length ++ b
  else if 0 < inputs.exactPrefixHash.length then some inputs.exactPrefixHash
  else none

def scopeOf (req : Wire.LookupRouteRequest) : ScopeKey :=
  ⟨req.tenantID, req.modelID, req.hashScheme⟩

end Affinity

namespace Handler

variable {F : Type} [GoFloat F] (s : Handler F)

-- A service to which no policies are ever pushed.
def ungated (service : Service) (cfg : Config F) (h : cfg.ranker = .default) : Handler F :=
  { service with cfg := cfg, policies := none, tokenizeTimeout := 0, ranker_default := h }

section Policy

variable (tenant : GoString)

-- A setting of the tenant's policy. Without a store there are only defaults.
def policyOr {A : Type} (setting : PolicyStore F → GoString → A) (dflt : A) : A :=
  (s.policies.map (setting · tenant)).getD dflt

def policyTimeout : Duration :=
  s.policyOr tenant PolicyStore.lookupTimeout 0

def policyMinimumPrefixTokens : Int32 :=
  s.policyOr tenant PolicyStore.minimumPrefixTokens 0

def policyMinimumMatchedTokens : Int32 :=
  s.policyOr tenant PolicyStore.minimumMatchedTokens 0

def policyRoutingFloorScore : F :=
  s.policyOr tenant (fun store tenant => store.routingFloorScore tenant) 0

def affinityRoutingEnabled : Bool :=
  s.policyOr tenant PolicyStore.affinityRoutingEnabled defaultAffinityRoutingEnabled

def policyChainMatchingEnabled : Bool :=
  s.policyOr tenant PolicyStore.chainMatchingEnabled defaultEnableChainMatching

def policyChainRequired : Bool :=
  s.policyOr tenant PolicyStore.chainRequired defaultRequireChain

def policyTenantHotEnabled : Bool :=
  s.policyOr tenant PolicyStore.tenantHotEnabled defaultEnableTenantHot

end Policy

section Gates

variable (tenant : GoString) (result : LookupResult F)

def applyLookupStrategyGates : LookupResult F :=
  if result.strategy = .tenantHot ∧ !s.policyTenantHotEnabled tenant then .nothing else result

def tooShort (inputs : LookupInputs) : Bool :=
  0 < s.policyMinimumPrefixTokens tenant ∧
    inputs.effectiveTokens < s.policyMinimumPrefixTokens tenant

def applyMinimumPrefixTokens (inputs : LookupInputs) : LookupResult F :=
  if s.tooShort tenant inputs ∧ (result.strategy = .prefixMatch ∨ result.strategy = .tenantHot) then
    .nothing
  else result

def applyMatchedTokensFloor : LookupResult F :=
  let floor := s.policyMinimumMatchedTokens tenant
  if floor ≤ 0 ∨ result.scores.length = 0 then result else
    let survivors := result.scores.filter fun sc => floor ≤ sc.matchedTokens
    if survivors.length = result.scores.length then result
    else if survivors.length = 0 then .nothing
    else result.retainReplicas fun id => survivors.any fun sc => sc.replicaID = id

-- The first score is the highest one.
def applyRoutingFloorScore : LookupResult F :=
  let floor := s.policyRoutingFloorScore tenant
  match result.scores with
  | []      => result
  | sc :: _ => if lt 0 floor ∧ lt sc.score floor then .nothing else result

-- All that happens to a result between the index and the answer.
def gated (inputs : LookupInputs) : LookupResult F :=
  let result := s.applyMinimumPrefixTokens tenant (s.applyLookupStrategyGates tenant result) inputs
  let result :=
    if result.strategy = .prefixMatch then s.applyMatchedTokensFloor tenant result else result
  if result.strategy = .prefixMatch then s.applyRoutingFloorScore tenant result else result

end Gates

section Call

variable (hashSeed : Bytes → UInt64 → UInt64) (sha256 : Bytes → Bytes)
variable (i : Index F) (env env' : Env) (tm : Timing) (req : Wire.LookupRouteRequest)

def willTokenize : Bool :=
  req.promptText ≠ [] ∧
    (!s.policyChainMatchingEnabled req.tenantID ∨
      req.blockHashes.length = 0 ∧ req.blockTokenCounts.length = 0) ∧
    req.prefixHash.length = 0 ∧ req.tokenIDs.length = 0

def hasDeadline : Bool :=
  tm.callerDeadline ∨ 0 < s.policyTimeout req.tenantID ∨ s.willTokenize req ∧ 0 < s.tokenizeTimeout

def inputs : LookupInputs :=
  resolveLookupChain s.toService hashSeed tm.slotFree req (s.policyChainMatchingEnabled req.tenantID)

def indexRequest : LookupRequest :=
  lookupRequest req (s.inputs hashSeed tm req) (s.policyChainMatchingEnabled req.tenantID)

-- The answer that a call gives without a look at the index, if it does.
def beforeLookup : Option (Wire.LookupRouteResponse F) :=
  let inputs := s.inputs hashSeed tm req
  if req.tenantID = probeTenantID then some { reasonCode := .noHint }
  else if tm.errAtStart then some (timeoutResponse tm [])
  else if s.policyChainRequired req.tenantID ∧ !requestCarriesValidBlockHashChain req then
    some (policyGateResponse tm [])
  else if s.hasDeadline tm req ∧ !tm.resolvedInTime then some (timeoutResponse tm [])
  else if tm.errAfterResolution then some (timeoutResponse tm inputs.echoTokens)
  else if inputs.failOpen then some (noHintResponse tm inputs.echoTokens)
  else if s.tooShort req.tenantID inputs ∧ !s.affinityRoutingEnabled req.tenantID then
    some (noHintResponse tm inputs.echoTokens)
  else none

-- Whether the result of the lookup comes too late. Without a deadline the call waits for it.
def lookupTimedOut : Bool :=
  s.hasDeadline tm req ∧
    (!tm.lookedUpInTime ∨ tm.errAfterLookup ∨
      0 < s.policyTimeout req.tenantID ∧ s.policyTimeout req.tenantID < tm.lookupTime)

def tryAffinityResponse (inputs : LookupInputs) : Option (Wire.LookupRouteResponse F) :=
  if !s.affinityRoutingEnabled req.tenantID then none
  else if !affinityEligible req then none
  else do
    let seed ← canonicalAffinitySeed inputs
    let id ← i.affinityHint env' sha256 (scopeOf req) seed
    return {
      reasonCode := .affinityHint
      replicaScores := [⟨id, 0, 0, 0, Wire.CacheTier.unspecified⟩]
      tokenIDs := inputs.echoTokens
      adapterID := req.adapterID
      lookupLatencyUs := Time.microseconds tm.elapsed }

def responseOf (inputs : LookupInputs) (result : LookupResult F) : Wire.LookupRouteResponse F where
  reasonCode := reasonForStrategy result.strategy
  replicaScores := result.scores.map scoreToProto
  tokenIDs := inputs.echoTokens
  adapterID := req.adapterID
  lookupLatencyUs := Time.microseconds tm.elapsed

-- Only what is delivered is credited. A hint by affinity delivers nothing of the result.
def buildLookupResponse (inputs : LookupInputs) (result : LookupResult F) :
    Wire.LookupRouteResponse F × Index F :=
  let result := s.gated req.tenantID result inputs
  let affinity? :=
    if result.strategy = .none then s.tryAffinityResponse sha256 i env' tm req inputs else none
  match affinity? with
  | some resp => (resp, i)
  | none      =>
    (responseOf tm req inputs result, i.creditHits (env'.order 1).ids result.hitsByReplica)

-- Returns the index with the uses counted. `env` is what the lookup reads, `env'` what is read after.
def lookupRoute : Wire.LookupRouteResponse F × Index F :=
  match s.beforeLookup hashSeed tm req with
  | some resp => (resp, i)
  | none      =>
    let inputs := s.inputs hashSeed tm req
    if s.lookupTimedOut tm req then (timeoutResponse tm inputs.echoTokens, i)
    else s.buildLookupResponse sha256 i env' tm req inputs
      (i.lookupRoute s.cfg env (s.indexRequest hashSeed tm req))

end Call

end Handler

end InferenceCache.Server
