import InferenceCache.Lib.Ieee
import InferenceCache.Server.Theorems.Gates

-- Which requests are served with their matches, with the routing floor left open.
namespace InferenceCache.Server

open FloatFormat

variable {F : Type} {tenant : GoString} {floor : F}

namespace PolicyStore

-- The same policies, except for the routing floor of one tenant.
def withFloor (store : PolicyStore F) (tenant : GoString) (floor : F) : PolicyStore F :=
  let policy := (store.lookup tenant).getD
    { forNamespace := tenant, minimumMatchedTokens := defaultMinimumMatchedTokens }
  { store with policies := store.policies.insert tenant { policy with routingFloorScore := some floor } }

theorem lookup_withFloor {store : PolicyStore F} :
    (store.withFloor tenant floor).lookup tenant =
      some { (store.lookup tenant).getD
        { forNamespace := tenant, minimumMatchedTokens := defaultMinimumMatchedTokens } with
          routingFloorScore := some floor } := by
  simp [withFloor, PolicyStore.lookup]

end PolicyStore

namespace Handler

variable [GoFloat F] {s : Handler F} {hashSeed : Bytes → UInt64 → UInt64} {sha256 : Bytes → Bytes}
variable {i : Index F} {env env' : Env} {tm : Timing} {req : Wire.LookupRouteRequest}
variable {inputs : LookupInputs} {result : LookupResult F}

theorem sixteen_pos : (0 : Int) < 16 := by decide

-- A service for the examples, which cannot tokenize.
def anyService : Service :=
  ⟨16, fun _ _ => none, sixteen_pos⟩

def under (s : Handler F) (policies : Option (PolicyStore F)) : Handler F :=
  { s with policies := policies }

def withFloor (s : Handler F) (tenant : GoString) (floor : F) : Handler F :=
  s.under (s.policies.map (·.withFloor tenant floor))

section Frame

theorem policyOr_withFloor {A : Type} {setting : PolicyStore F → GoString → A} {dflt : A}
    (h : ∀ store, setting (store.withFloor tenant floor) tenant = setting store tenant) :
    (s.withFloor tenant floor).policyOr tenant setting dflt = s.policyOr tenant setting dflt := by
  unfold policyOr withFloor under
  cases s.policies
  case none => rfl
  case some store => exact h store

@[simp]
theorem policyMinimumPrefixTokens_withFloor :
    (s.withFloor tenant floor).policyMinimumPrefixTokens tenant = s.policyMinimumPrefixTokens tenant := by
  refine policyOr_withFloor fun store => ?_
  cases h : store.lookup tenant
  all_goals simp [PolicyStore.minimumPrefixTokens, PolicyStore.lookup_withFloor, h]

@[simp]
theorem policyMinimumMatchedTokens_withFloor :
    (s.withFloor tenant floor).policyMinimumMatchedTokens tenant = s.policyMinimumMatchedTokens tenant := by
  refine policyOr_withFloor fun store => ?_
  cases h : store.lookup tenant
  case none =>
    simp only [PolicyStore.minimumMatchedTokens, PolicyStore.lookup_withFloor, h, Option.getD_none]
    decide
  case some => simp [PolicyStore.minimumMatchedTokens, PolicyStore.lookup_withFloor, h]

omit [GoFloat F] in
theorem strategyGate_withFloor {store : PolicyStore F} {gate : ResolvedLookupStrategy → Option Bool}
    {dflt : Bool} :
    (store.withFloor tenant floor).strategyGate tenant gate dflt = store.strategyGate tenant gate dflt := by
  cases h : store.lookup tenant
  all_goals simp [PolicyStore.strategyGate, PolicyStore.lookup_withFloor, h]

@[simp]
theorem policyChainRequired_withFloor :
    (s.withFloor tenant floor).policyChainRequired tenant = s.policyChainRequired tenant :=
  policyOr_withFloor fun _ => strategyGate_withFloor

@[simp]
theorem policyChainMatchingEnabled_withFloor :
    (s.withFloor tenant floor).policyChainMatchingEnabled tenant = s.policyChainMatchingEnabled tenant :=
  policyOr_withFloor fun _ => strategyGate_withFloor

@[simp]
theorem inputs_withFloor :
    (s.withFloor req.tenantID floor).inputs hashSeed tm req = s.inputs hashSeed tm req := by
  rw [Handler.inputs, policyChainMatchingEnabled_withFloor]
  rfl

@[simp]
theorem indexRequest_withFloor :
    (s.withFloor req.tenantID floor).indexRequest hashSeed tm req = s.indexRequest hashSeed tm req := by
  rw [indexRequest, inputs_withFloor, policyChainMatchingEnabled_withFloor]
  rfl

@[simp]
theorem tooShort_withFloor : (s.withFloor tenant floor).tooShort tenant inputs = s.tooShort tenant inputs := by
  simp [tooShort]

end Frame

-- That a request reaches the index, and that its length is no reason to withhold a match.
structure Served (s : Handler F) (hashSeed : Bytes → UInt64 → UInt64) (req : Wire.LookupRouteRequest) :
    Prop where
  workload : req.tenantID ≠ probeTenantID
  admitted : s.policyChainRequired req.tenantID → requestCarriesValidBlockHashChain req
  resolved : (s.inputs hashSeed .unhurried req).failOpen = false
  long     : s.tooShort req.tenantID (s.inputs hashSeed .unhurried req) = false
  asked    : Index.dropped (s.indexRequest hashSeed .unhurried req) = false

-- That a match has enough tokens for the tenant's policy.
def Suffices (s : Handler F) (tenant : GoString) (tokens : Int32) : Prop :=
  s.policyMinimumMatchedTokens tenant ≤ 0 ∨ s.policyMinimumMatchedTokens tenant ≤ tokens

theorem mem_above_iff {sc : ReplicaScore F} :
    sc ∈ (result.above (s.policyMinimumMatchedTokens tenant)).scores ↔
      sc ∈ result.scores ∧ s.Suffices tenant sc.matchedTokens := by
  simp [LookupResult.above, Suffices]

theorem Served.of_withFloor (h : (s.withFloor req.tenantID floor).Served hashSeed req) :
    s.Served hashSeed req :=
  ⟨h.workload, by simpa using h.admitted, by simpa using h.resolved, by simpa using h.long,
    by simpa using h.asked⟩

theorem inputs_of_consults (h : s.Consults hashSeed tm req) :
    s.inputs hashSeed tm req = s.inputs hashSeed .unhurried req :=
  resolveLookupChain_slotFree h.resolved

theorem indexRequest_of_consults (h : s.Consults hashSeed tm req) :
    s.indexRequest hashSeed tm req = s.indexRequest hashSeed .unhurried req := by
  rw [indexRequest, inputs_of_consults h, indexRequest]

theorem served_of_passes (h : s.Consults hashSeed tm req)
    (hp : s.Passes req.tenantID (s.inputs hashSeed tm req)
      (i.lookupRoute s.cfg env (s.indexRequest hashSeed tm req))) : s.Served hashSeed req := by
  have hb := h.1
  simp only [beforeLookup, ite_some_eq_none] at hb
  exact {
    workload := h.workload
    admitted := by simpa using hb.2.2.1
    resolved := inputs_of_consults h ▸ h.resolved
    long     := inputs_of_consults h ▸ hp.tokens
    asked    := indexRequest_of_consults h ▸ (Index.hits_of_prefixMatch hp.strategy).1 }

theorem Served.consults (h : s.Served hashSeed req) :
    (s.withFloor req.tenantID floor).Consults hashSeed .unhurried req := by
  constructor
  case left =>
    simp only [beforeLookup, ite_some_eq_none, inputs_withFloor, policyChainRequired_withFloor,
      tooShort_withFloor, h.resolved, h.long]
    simpa [Timing.unhurried, h.workload] using h.admitted
  case right =>
    have ht : ∀ d : Duration, ¬(0 < d ∧ d < 0) := fun _ h => lt_asymm h.1 h.2
    simp [lookupTimedOut, Timing.unhurried, ht]

theorem reachesFloor_zero [IeeeFloat F] {l : List (ReplicaScore F)} :
    (s.withFloor tenant 0).reachesFloor tenant l = true := by
  have hz : lt (0 : F) 0 = false := by
    simpa using (IeeeFormat.lt_iff (F := F) IeeeFormat.val_zero IeeeFormat.val_zero).not.mpr (lt_irrefl _)
  have hf : (s.withFloor tenant 0).policyRoutingFloorScore tenant = 0 := by
    unfold policyRoutingFloorScore policyOr withFloor under
    cases s.policies
    case none => rfl
    case some store =>
      simp [PolicyStore.routingFloorScore, PolicyStore.lookup_withFloor, hz]
  cases l <;> simp [reachesFloor, hf, hz]

-- Without a floor every match with enough tokens is delivered.
theorem Served.lookupRoute_eq [IeeeFloat F] (h : s.Served hashSeed req)
    (hl : i.lookupRoute s.cfg env (s.indexRequest hashSeed .unhurried req) = result)
    (hm : ∃ sc ∈ result.scores, s.Suffices req.tenantID sc.matchedTokens)
    (hs : result.strategy = .prefixMatch) :
    (s.withFloor req.tenantID 0).lookupRoute hashSeed sha256 i env env' .unhurried req =
      (responseOf .unhurried req (s.inputs hashSeed .unhurried req)
          (result.above (s.policyMinimumMatchedTokens req.tenantID)),
        i.creditHits (env'.order 1).ids
          (result.above (s.policyMinimumMatchedTokens req.tenantID)).hitsByReplica) := by
  have hv : result.Valid := hl ▸ Index.lookupRoute_valid
  have hk : (result.above (s.policyMinimumMatchedTokens req.tenantID)).scores ≠ [] := by
    obtain ⟨sc, hsc, hm⟩ := hm
    exact List.ne_nil_of_mem (mem_above_iff.mpr ⟨hsc, hm⟩)
  have ho : (s.withFloor req.tenantID 0).outcome hashSeed i env .unhurried req =
      result.above (s.policyMinimumMatchedTokens req.tenantID) := by
    have hr : i.lookupRoute (s.withFloor req.tenantID 0).cfg env (s.indexRequest hashSeed .unhurried req) =
        result := hl
    rw [outcome, indexRequest_withFloor, inputs_withFloor, hr]
    have hp : (s.withFloor req.tenantID 0).Passes req.tenantID (s.inputs hashSeed .unhurried req) result :=
      ⟨hs, by simpa using h.long, by simpa using hk, reachesFloor_zero⟩
    rw [hp.gated_eq hv, policyMinimumMatchedTokens_withFloor]
  have hw := answer (s.withFloor req.tenantID 0) hashSeed sha256 i env env' .unhurried req
  generalize (s.withFloor req.tenantID 0).lookupRoute hashSeed sha256 i env env' .unhurried req = res at hw
  cases hw
  case failsOpen hn _ _ => exact absurd h.consults hn
  case affinity _ hn _ => simp [ho, LookupResult.above, hs] at hn
  case delivers => rw [ho, inputs_withFloor]

end Handler

end InferenceCache.Server
