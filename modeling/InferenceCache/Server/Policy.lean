import InferenceCache.Index.Types

namespace InferenceCache.Server

-- The gates of a policy. A gate that is absent is at its default.
structure ResolvedLookupStrategy where
  enableChainMatching : Option Bool := none
  requireChain        : Option Bool := none
  enableTenantHot     : Option Bool := none

structure ResolvedPolicy (F : Type) where
  forNamespace         : GoString
  evictionTTL          : Duration := 0
  minimumPrefixTokens  : Int32 := 0
  minimumMatchedTokens : Int32 := 0
  routingFloorScore    : Option F := none
  lookupTimeoutMs      : Int32 := 0
  affinityRouting      : Option Bool := none
  eviction             : GoString := []
  strategy             : Option ResolvedLookupStrategy := none

structure ResolvedTenant where
  tenantID        : GoString
  maxIndexEntries : Int
  isolationMode   : GoString := []

-- The policies the controller has pushed, by namespace, and the quotas, by tenant.
structure PolicyStore (F : Type) where
  policies : GoMap GoString (ResolvedPolicy F)
  tenants  : GoMap GoString ResolvedTenant

section Defaults

def defaultMinimumMatchedTokens : Int32 := 64

-- The constant 0.1, which a correctly rounded division yields as well.
def defaultRoutingFloorScore {F : Type} [FloatFormat F] : F :=
  FloatFormat.ofInt 1 / FloatFormat.ofInt 10

def defaultEnableChainMatching : Bool := true

def defaultRequireChain : Bool := false

def defaultEnableTenantHot : Bool := true

def defaultAffinityRoutingEnabled : Bool := true

end Defaults

-- The tenant of the server's own probes, "inferencecache.io/probe". Nobody else may use it.
def probeTenantID : GoString :=
  [0x69, 0x6e, 0x66, 0x65, 0x72, 0x65, 0x6e, 0x63, 0x65, 0x63, 0x61, 0x63, 0x68, 0x65, 0x2e, 0x69,
    0x6f, 0x2f, 0x70, 0x72, 0x6f, 0x62, 0x65]

namespace PolicyStore

variable {F : Type}

def new : PolicyStore F :=
  ⟨∅, ∅⟩

-- A push replaces all that was there. What has no key is dropped, and a negative quota counts as the
-- strictest one.
def replaceSnapshot (policies : List (ResolvedPolicy F)) (tenants : List ResolvedTenant) :
    PolicyStore F where
  policies := policies.foldl (fun m p => if p.forNamespace = [] then m else m.insert p.forNamespace p) ∅
  tenants  := tenants.foldl (fun m t =>
    if t.tenantID = [] then m else
      m.insert t.tenantID { t with maxIndexEntries := max 0 t.maxIndexEntries }) ∅

variable (store : PolicyStore F) (tenant : GoString)

def lookup : Option (ResolvedPolicy F) :=
  store.policies.lookup tenant

section Resolvers

def ttl : Duration :=
  ((store.lookup tenant).map ResolvedPolicy.evictionTTL).getD 0

def eviction : GoString :=
  ((store.lookup tenant).map ResolvedPolicy.eviction).getD []

def tenantQuota : Option Int :=
  if tenant = probeTenantID then none
  else (store.tenants.lookup tenant).map ResolvedTenant.maxIndexEntries

-- Surroundings of an index whose resolvers are the store.
def environment (env : Env) : Env :=
  { env with
    ttlResolver      := some store.ttl
    quotaResolver    := some store.tenantQuota
    evictionResolver := some store.eviction }

end Resolvers

section Gates

def minimumPrefixTokens : Int32 :=
  ((store.lookup tenant).map ResolvedPolicy.minimumPrefixTokens).getD 0

def minimumMatchedTokens : Int32 :=
  match store.lookup tenant with
  | some p => if p.minimumMatchedTokens < 0 then 0 else p.minimumMatchedTokens
  | none   => defaultMinimumMatchedTokens

def routingFloorScore [FloatFormat F] : F :=
  match (store.lookup tenant).bind ResolvedPolicy.routingFloorScore with
  | some floor => if FloatFormat.lt floor 0 then 0 else floor
  | none       => defaultRoutingFloorScore

def affinityRoutingEnabled : Bool :=
  ((store.lookup tenant).bind ResolvedPolicy.affinityRouting).getD defaultAffinityRoutingEnabled

def lookupTimeout : Duration :=
  match store.lookup tenant with
  | some p => if 0 < p.lookupTimeoutMs then p.lookupTimeoutMs.toInt * Time.millisecond else 0
  | none   => 0

-- A gate of the strategy, if there is a policy, the policy has a strategy, and the strategy has it.
def strategyGate (gate : ResolvedLookupStrategy → Option Bool) (dflt : Bool) : Bool :=
  (((store.lookup tenant).bind ResolvedPolicy.strategy).bind gate).getD dflt

def chainMatchingEnabled : Bool :=
  store.strategyGate tenant ResolvedLookupStrategy.enableChainMatching defaultEnableChainMatching

def chainRequired : Bool :=
  store.strategyGate tenant ResolvedLookupStrategy.requireChain defaultRequireChain

def tenantHotEnabled : Bool :=
  store.strategyGate tenant ResolvedLookupStrategy.enableTenantHot defaultEnableTenantHot

end Gates

end PolicyStore

end InferenceCache.Server
