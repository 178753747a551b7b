import InferenceCache.Server.PolicyWire

namespace InferenceCache.Controller

open Server

section Types

structure CachePolicyStrategySpec where
  enableChainMatching : Option Bool := none
  requireChain        : Option Bool := none
  enableTenantHot     : Option Bool := none

structure CachePolicySpec where
  eviction             : GoString := []
  evictionTTL          : Option Int64 := none
  minimumPrefixTokens  : Option Int32 := none
  minimumMatchedTokens : Option Int32 := none
  routingFloorScore    : Option GoString := none
  lookupTimeoutMs      : Option Int32 := none
  strategy             : Option CachePolicyStrategySpec := none
  affinityRouting      : Option GoString := none

-- Namespaced, like `CacheTenant`.
structure CachePolicy where
  inNamespace    : GoString
  name           : GoString
  spec           : CachePolicySpec
  inNamespace_ne : inNamespace ≠ []

structure CacheTenantQuotaSpec where
  maxIndexEntries : Option Int64 := none

structure CacheTenant where
  inNamespace   : GoString
  name          : GoString
  tenantID      : GoString
  quota         : Option CacheTenantQuotaSpec := none
  isolationMode : GoString := []

def cachePolicyEvictionAlgorithmLRU : GoString := utf8 "LRU"

def cachePolicyEvictionAlgorithmLFU : GoString := utf8 "LFU"

def cachePolicyAffinityRoutingEnabled : GoString := utf8 "Enabled"

def cachePolicyAffinityRoutingDisabled : GoString := utf8 "Disabled"

-- What the API server makes of a policy: fields for which the CRD has a default are never unset.
def CachePolicyStrategySpec.served (s : CachePolicyStrategySpec) : CachePolicyStrategySpec where
  enableChainMatching := some (s.enableChainMatching.getD true)
  requireChain        := some (s.requireChain.getD false)
  enableTenantHot     := some (s.enableTenantHot.getD true)

def CachePolicySpec.served (spec : CachePolicySpec) : CachePolicySpec :=
  { spec with
    eviction             := if spec.eviction = [] then cachePolicyEvictionAlgorithmLRU else spec.eviction
    minimumMatchedTokens := some (spec.minimumMatchedTokens.getD 64)
    routingFloorScore    := some (spec.routingFloorScore.getD (utf8 "0.1"))
    strategy             := spec.strategy.map CachePolicyStrategySpec.served
    affinityRouting      := some (spec.affinityRouting.getD cachePolicyAffinityRoutingEnabled) }

def CachePolicy.served (cp : CachePolicy) : CachePolicy :=
  { cp with spec := cp.spec.served }

end Types

def before (inNamespace name : A → GoString) (a b : A) : Bool :=
  if inNamespace a ≠ inNamespace b then inNamespace a < inNamespace b else name a < name b

section Policies

variable {F : Type} [FloatFormat F] (text : FloatText F)

-- What cannot be a floor falls back to the default.
def resolveFloor (s : GoString) : F :=
  match text.parse s with
  | some f => if ¬FloatFormat.isFinite f ∨ FloatFormat.lt f 0 then defaultRoutingFloorScore else f
  | none   => defaultRoutingFloorScore

def resolveOnePolicy (cp : CachePolicy) : ResolvedPolicy F where
  forNamespace := cp.inNamespace
  evictionTTL := (cp.spec.evictionTTL.map Int64.toInt).getD 0
  minimumPrefixTokens := cp.spec.minimumPrefixTokens.getD 0
  minimumMatchedTokens := cp.spec.minimumMatchedTokens.getD 0
  routingFloorScore := cp.spec.routingFloorScore.map (resolveFloor text)
  lookupTimeoutMs := cp.spec.lookupTimeoutMs.getD 0
  affinityRouting := cp.spec.affinityRouting.map fun a => decide (a = cachePolicyAffinityRoutingEnabled)
  -- The names of the algorithms are ASCII.
  eviction :=
    (if cp.spec.eviction ≠ [] then cp.spec.eviction else cachePolicyEvictionAlgorithmLRU).asciiLower
  strategy := cp.spec.strategy.map fun s => ⟨s.enableChainMatching, s.requireChain, s.enableTenantHot⟩

def resolvePolicies (items : List CachePolicy) : List (ResolvedPolicy F) :=
  (firstOfRuns CachePolicy.inNamespace none
    (sortSlice (before CachePolicy.inNamespace CachePolicy.name) items)).map (resolveOnePolicy text)

end Policies

section Tenants

def resolveOneTenant (ct : CacheTenant) : Option ResolvedTenant :=
  if ct.tenantID = [] then none
  else do
    let quota ← ct.quota
    let maxIndexEntries ← quota.maxIndexEntries
    some ⟨ct.tenantID, maxIndexEntries.toInt, ct.isolationMode⟩

-- Of several with one ID, the first that has a quota.
def firstPerID (seen : List GoString) : List ResolvedTenant → List ResolvedTenant
  | []      => []
  | t :: ts => if t.tenantID ∈ seen then firstPerID seen ts else t :: firstPerID (t.tenantID :: seen) ts

def resolveTenants (items : List CacheTenant) : List ResolvedTenant :=
  firstPerID [] <|
    (sortSlice (before CacheTenant.inNamespace CacheTenant.name) items).filterMap resolveOneTenant

end Tenants

def pushSnapshot {F : Type} [FloatFormat F] (text : FloatText F) (policies : List CachePolicy)
    (tenants : List CacheTenant) : Option Json :=
  PolicySnapshot.encode text ⟨policyPropagationVersion, resolvePolicies text policies, resolveTenants tenants⟩

end InferenceCache.Controller
