import InferenceCache.Controller.ControlPlane
import InferenceCache.Server.Theorems.PolicyWire

namespace InferenceCache.Controller

open Server FloatFormat

-- A push, from the objects in the cluster to what the server works with.
def propagate {F : Type} [FloatFormat F] (text : FloatText F) (policies : List CachePolicy)
    (tenants : List CacheTenant) : Option (PolicyStore F) := do
  let body ← pushSnapshot text policies tenants
  policyHandler text body

structure Decides (policies : List CachePolicy) (cp : CachePolicy) : Prop where
  mem   : cp ∈ policies
  least : ∀ cp' ∈ policies, cp'.inNamespace = cp.inNamespace → cp.name ≤ cp'.name

def Unclaimed (policies : List CachePolicy) (ns : GoString) : Prop :=
  ∀ cp ∈ policies, cp.inNamespace ≠ ns

-- A field that is set, to something that stands for `b`, is answered by `b`.
def Answers (field : Option A) (stands : A → B → Prop) (answer fallback : B) : Prop :=
  match field with
  | some a => ∀ b, stands a b → answer = b
  | none   => answer = fallback

section Spec

variable {F : Type} [FloatFormat F] (text : FloatText F) (env : Env) (store : PolicyStore F)

def algorithm (a : GoString) (algo : EvictionAlgo) : Prop :=
  a = cachePolicyEvictionAlgorithmLRU ∧ algo = .lru ∨ a = cachePolicyEvictionAlgorithmLFU ∧ algo = .lfu

def enabled (a : GoString) (b : Bool) : Prop :=
  a = cachePolicyAffinityRoutingEnabled ∧ b = true ∨ a = cachePolicyAffinityRoutingDisabled ∧ b = false

def floor (s : GoString) (x : F) : Prop :=
  text.parse s = some x ∧ isFinite x ∧ ¬lt x 0

def tokens (n m : Int32) : Prop :=
  0 ≤ n ∧ m = n

def timeout (n : Int32) (d : Duration) : Prop :=
  0 ≤ n ∧ d = n.toInt * Time.millisecond

-- What is answered for the namespace of a policy as it was submitted, and for the namespace `ns`, which has
-- none.
structure Faithful (cp : CachePolicy) (ns : GoString) : Prop where
  ttl         : Answers cp.spec.evictionTTL (fun d t => t = d.toInt) (store.ttl cp.inNamespace) (store.ttl ns)
  eviction    : Answers (if cp.spec.eviction = [] then none else some cp.spec.eviction) algorithm
                  ((store.environment env).evictionFor cp.inNamespace) ((store.environment env).evictionFor ns)
  prefixes    : Answers cp.spec.minimumPrefixTokens tokens
                  (store.minimumPrefixTokens cp.inNamespace) (store.minimumPrefixTokens ns)
  matched     : Answers cp.spec.minimumMatchedTokens tokens
                  (store.minimumMatchedTokens cp.inNamespace) (store.minimumMatchedTokens ns)
  floor       : Answers cp.spec.routingFloorScore (floor text)
                  (store.routingFloorScore cp.inNamespace) (store.routingFloorScore ns)
  affinity    : Answers cp.spec.affinityRouting enabled
                  (store.affinityRoutingEnabled cp.inNamespace) (store.affinityRoutingEnabled ns)
  timeout     : Answers cp.spec.lookupTimeoutMs timeout
                  (store.lookupTimeout cp.inNamespace) (store.lookupTimeout ns)
  chain       : Answers (cp.spec.strategy.bind (·.enableChainMatching)) Eq
                  (store.chainMatchingEnabled cp.inNamespace) (store.chainMatchingEnabled ns)
  required    : Answers (cp.spec.strategy.bind (·.requireChain)) Eq
                  (store.chainRequired cp.inNamespace) (store.chainRequired ns)
  hot         : Answers (cp.spec.strategy.bind (·.enableTenantHot)) Eq
                  (store.tenantHotEnabled cp.inNamespace) (store.tenantHotEnabled ns)

end Spec

section Selection

variable {policies policies' : List CachePolicy} {cp : CachePolicy} {ns : GoString}

theorem compares_before (inNamespace name : A → GoString) :
    ComparesBy (before inNamespace name) fun a => toLex (inNamespace a, name a) := by
  intro a b
  rw [toLex_lt_toLex_iff_ite, before]
  split <;> simp

def FullNames (policies : List CachePolicy) : List (GoString × GoString) :=
  policies.map fun cp => (cp.inNamespace, cp.name)

theorem nodup_toLex (h : (FullNames policies).Nodup) :
    (policies.map fun cp => toLex (cp.inNamespace, cp.name)).Nodup := by
  have hl := h.map toLex.injective
  rwa [FullNames, List.map_map] at hl

variable {F : Type} [FloatFormat F] (text : FloatText F)

theorem mem_resolvePolicies (h : (FullNames policies).Nodup) {p : ResolvedPolicy F} :
    p ∈ resolvePolicies text policies ↔ ∃ cp, Decides policies cp ∧ resolveOnePolicy text cp = p := by
  have hs := (compares_before CachePolicy.inNamespace CachePolicy.name).pairwise_lt_sortSlice (nodup_toLex h)
  have hn : ∀ k ∈ (none : Option GoString), ∀ cp ∈ sortSlice (before CachePolicy.inNamespace CachePolicy.name)
      policies, k ≤ cp.inNamespace := by simp
  simp only [resolvePolicies, List.mem_map, mem_firstOfRuns_iff hs hn, sortSlice_perm.mem_iff]
  refine exists_congr fun cp => and_congr_left fun _ => ⟨fun hd => ⟨hd.1, hd.2.2⟩, fun hd => ?_⟩
  exact ⟨hd.mem, by simp, hd.least⟩

theorem resolvePolicies_eq_of_perm (h : (FullNames policies).Nodup) (hp : policies.Perm policies') :
    resolvePolicies text policies = resolvePolicies text policies' := by
  have hs := (compares_before CachePolicy.inNamespace CachePolicy.name).sortSlice_eq_of_perm (nodup_toLex h) hp
  rw [resolvePolicies, hs, resolvePolicies]

-- Names are unique, so no other policy can count in the namespace.
theorem Decides.unique (h : (FullNames policies).Nodup) (hd : Decides policies cp)
    (hd' : Decides policies cp') (he : cp'.inNamespace = cp.inNamespace) : cp' = cp := by
  have hle := hd.least cp' hd'.mem he
  have hge := hd'.least cp hd.mem he.symm
  exact List.inj_on_of_nodup_map h hd'.mem hd.mem (Prod.ext he (le_antisymm hge hle))

end Selection

section Wire

variable {F : Type} [FloatFormat F] [IeeeFormat F] (text : FloatText F)

theorem isFinite_resolveFloor (s : GoString) : isFinite (resolveFloor text s) := by
  simp only [resolveFloor]
  split
  case h_2 => exact isFinite_defaultRoutingFloorScore
  case h_1 f _ =>
    split
    case isTrue => exact isFinite_defaultRoutingFloorScore
    case isFalse h => simpa using (not_or.mp h).1

theorem fitsInt64_toInt (n : Int64) : FitsInt64 n.toInt :=
  ⟨n.le_toInt, by simpa using n.toInt_lt⟩

theorem sendable_resolveOnePolicy (cp : CachePolicy) : (resolveOnePolicy text cp).Sendable where
  ttl := by
    cases h : cp.spec.evictionTTL
    case none => simp [resolveOnePolicy, h, FitsInt64]
    case some d => simpa [resolveOnePolicy, h] using fitsInt64_toInt d
  finite x hx := by
    have ⟨s, _, hs⟩ := Option.map_eq_some_iff.mp hx
    exact hs ▸ isFinite_resolveFloor text s

theorem firstPerID_subset : firstPerID seen ts ⊆ ts := by
  fun_induction firstPerID seen ts
  case case1 => exact List.Subset.refl _
  case case2 hi => exact List.subset_cons_of_subset _ hi
  case case3 hi => exact List.cons_subset_cons _ hi

theorem fitsInt64_resolveTenants (h : t ∈ resolveTenants tenants) : FitsInt64 t.maxIndexEntries := by
  have ⟨ct, _, ht⟩ := List.mem_filterMap.mp (firstPerID_subset h)
  simp only [resolveOneTenant] at ht
  split at ht
  case isTrue => cases ht
  case isFalse =>
    have ⟨quota, _, ht⟩ := Option.bind_eq_some_iff.mp ht
    have ⟨n, _, ht⟩ := Option.bind_eq_some_iff.mp ht
    cases ht
    exact fitsInt64_toInt n

theorem propagate_eq (policies : List CachePolicy) (tenants : List CacheTenant) :
    propagate text policies tenants =
      some (.replaceSnapshot (resolvePolicies text policies) (resolveTenants tenants)) := by
  have hs : (⟨policyPropagationVersion, resolvePolicies text policies, resolveTenants tenants⟩ :
      PolicySnapshot F).Sendable := by
    have hv : FitsInt64 policyPropagationVersion := by simp [FitsInt64, policyPropagationVersion]
    refine ⟨hv, fun p hp => ?_, fun t => fitsInt64_resolveTenants⟩
    have ⟨cp, _, he⟩ := List.mem_map.mp hp
    exact he ▸ sendable_resolveOnePolicy text cp
  have ⟨body, he, hd⟩ := PolicySnapshot.decode_encode text hs
  have hh : policyHandler text body =
      some (.replaceSnapshot (resolvePolicies text policies) (resolveTenants tenants)) := by
    rw [policyHandler, hd]
    rfl
  rw [propagate, pushSnapshot, he]
  exact hh

end Wire

section Store

variable {F : Type} {l : List (ResolvedPolicy F)} {tenants : List ResolvedTenant} {ns : GoString}

theorem lookup_replaceSnapshot : (PolicyStore.replaceSnapshot l tenants).lookup ns =
    l.reverse.find? fun p => p.forNamespace ≠ [] ∧ p.forNamespace = ns := by
  induction l using List.reverseRecOn
  case nil => rfl
  case append_singleton l p hi =>
    rw [List.reverse_concat, List.find?_cons, ← hi]
    simp only [PolicyStore.lookup, PolicyStore.replaceSnapshot, List.foldl_concat]
    by_cases he : p.forNamespace = []
    case pos => simp [he]
    case neg =>
      by_cases hn : p.forNamespace = ns
      case pos => simp [hn ▸ he, hn]
      case neg => simp [he, hn, Finmap.lookup_insert_of_ne _ (Ne.symm hn)]

end Store

section Resolved

variable {F : Type} [FloatFormat F] {text : FloatText F} {policies : List CachePolicy} {cp : CachePolicy}
variable {tenants : List ResolvedTenant} {ns : GoString}

theorem lookup_of_decides (h : (FullNames policies).Nodup) (hd : Decides policies cp) :
    (PolicyStore.replaceSnapshot (resolvePolicies text policies) tenants).lookup cp.inNamespace =
      some (resolveOnePolicy text cp) := by
  rw [lookup_replaceSnapshot]
  cases hf : (resolvePolicies text policies).reverse.find?
    fun p => p.forNamespace ≠ [] ∧ p.forNamespace = cp.inNamespace
  case none =>
    have hm := List.mem_reverse.mpr <| (mem_resolvePolicies text h).mpr ⟨cp, hd, rfl⟩
    exact absurd (List.find?_eq_none.mp hf _ hm) (by simp [resolveOnePolicy, cp.inNamespace_ne])
  case some p =>
    have ⟨cp', hd', he⟩ := (mem_resolvePolicies text h).mp <| List.mem_reverse.mp <| List.mem_of_find?_eq_some hf
    have hn : p.forNamespace ≠ [] ∧ p.forNamespace = cp.inNamespace := by simpa using List.find?_some hf
    subst he
    rw [hd.unique h hd' hn.2]

theorem lookup_of_unclaimed (h : (FullNames policies).Nodup) (hu : Unclaimed policies ns) :
    (PolicyStore.replaceSnapshot (resolvePolicies text policies) tenants).lookup ns = none := by
  rw [lookup_replaceSnapshot, List.find?_eq_none]
  intro p hp
  have ⟨cp, hd, he⟩ := (mem_resolvePolicies text h).mp (List.mem_reverse.mp hp)
  have hn := hu cp hd.mem
  simp [← he, resolveOnePolicy, hn]

theorem Decides.served (h : Decides policies cp) : Decides (policies.map CachePolicy.served) cp.served where
  mem   := List.mem_map_of_mem h.mem
  least := by
    intro cp' hm hn
    have ⟨submitted, hs, he⟩ := List.mem_map.mp hm
    subst he
    exact h.least submitted hs hn

theorem Unclaimed.served (h : Unclaimed policies ns) : Unclaimed (policies.map CachePolicy.served) ns := by
  intro cp' hm
  have ⟨cp, hm, he⟩ := List.mem_map.mp hm
  exact he ▸ h cp hm

theorem fullNames_served : FullNames (policies.map CachePolicy.served) = FullNames policies :=
  List.map_map

section Answers

variable {store : PolicyStore F} {env : Env}
variable (hc : store.lookup cp.inNamespace = some (resolveOnePolicy text cp.served))
variable (hn : store.lookup ns = none)
include hc hn

theorem answers_floor [IeeeFormat F] (hd : text.parse (utf8 "0.1") = some defaultRoutingFloorScore) :
    Answers cp.spec.routingFloorScore (floor text)
      (store.routingFloorScore cp.inNamespace) (store.routingFloorScore ns) := by
  have hr : resolveFloor text (utf8 "0.1") = defaultRoutingFloorScore := by simp [resolveFloor, hd]
  cases h : cp.spec.routingFloorScore
  case none =>
    simp [Answers, PolicyStore.routingFloorScore, hc, hn, resolveOnePolicy, CachePolicy.served,
      CachePolicySpec.served, h, hr, not_lt_defaultRoutingFloorScore]
  case some s =>
    intro x ⟨hp, hf, hl⟩
    simp [PolicyStore.routingFloorScore, hc, resolveOnePolicy, CachePolicy.served, CachePolicySpec.served, h,
      resolveFloor, hp, hf, hl]

theorem answers_eviction :
    Answers (if cp.spec.eviction = [] then none else some cp.spec.eviction) algorithm
      ((store.environment env).evictionFor cp.inNamespace) ((store.environment env).evictionFor ns) := by
  have hlru : Env.toLower cachePolicyEvictionAlgorithmLRU.asciiLower ≠ Env.lfuName := by decide +kernel
  have hlfu : Env.toLower cachePolicyEvictionAlgorithmLFU.asciiLower = Env.lfuName := by decide +kernel
  have hnil : Env.toLower [] ≠ Env.lfuName := by decide +kernel
  have hne : cachePolicyEvictionAlgorithmLRU ≠ [] := by decide +kernel
  simp only [Env.evictionFor, PolicyStore.environment, PolicyStore.eviction, hc, hn, resolveOnePolicy,
    Option.map_some, Option.map_none, Option.getD_some, Option.getD_none, if_neg hnil]
  by_cases h : cp.spec.eviction = []
  case pos =>
    have hs : cp.served.spec.eviction = cachePolicyEvictionAlgorithmLRU := if_pos h
    simp [Answers, h, hs, hlru, hne]
  case neg =>
    have hs : cp.served.spec.eviction = cp.spec.eviction := if_neg h
    rw [hs, if_neg h, if_pos h]
    rintro algo (⟨he, ha⟩ | ⟨he, ha⟩)
    case inl => simp [he, ha, hlru]
    case inr => simp [he, ha, hlfu]

theorem answers_affinity : Answers cp.spec.affinityRouting enabled
    (store.affinityRoutingEnabled cp.inNamespace) (store.affinityRoutingEnabled ns) := by
  have hd : cachePolicyAffinityRoutingDisabled ≠ cachePolicyAffinityRoutingEnabled := by decide +kernel
  cases h : cp.spec.affinityRouting
  case none =>
    simp [Answers, PolicyStore.affinityRoutingEnabled, hc, hn, resolveOnePolicy, CachePolicy.served,
      CachePolicySpec.served, h, defaultAffinityRoutingEnabled]
  case some a =>
    rintro b (⟨ha, hb⟩ | ⟨ha, hb⟩)
    all_goals simp [PolicyStore.affinityRoutingEnabled, hc, resolveOnePolicy, CachePolicy.served,
      CachePolicySpec.served, h, ha, hb, hd]

theorem answers_timeout : Answers cp.spec.lookupTimeoutMs timeout
    (store.lookupTimeout cp.inNamespace) (store.lookupTimeout ns) := by
  have hs : cp.served.spec.lookupTimeoutMs = cp.spec.lookupTimeoutMs := rfl
  cases h : cp.spec.lookupTimeoutMs
  case none => simp [Answers, PolicyStore.lookupTimeout, hc, hn, resolveOnePolicy, hs, h]
  case some n =>
    intro d ⟨hl, hd⟩
    by_cases hp : 0 < n
    case pos => simp [PolicyStore.lookupTimeout, hc, resolveOnePolicy, hs, h, hp, hd]
    case neg =>
      have h0 : n = 0 := Int32.le_antisymm (Int32.not_lt.mp hp) hl
      simp [PolicyStore.lookupTimeout, hc, resolveOnePolicy, hs, h, hd, h0]

theorem answers_gate {gate : CachePolicyStrategySpec → Option Bool}
    {gate' : ResolvedLookupStrategy → Option Bool} {dflt : Bool}
    (hg : ∀ s, gate' ⟨s.served.enableChainMatching, s.served.requireChain, s.served.enableTenantHot⟩ =
      some ((gate s).getD dflt)) :
    Answers (cp.spec.strategy.bind gate) Eq (store.strategyGate cp.inNamespace gate' dflt)
      (store.strategyGate ns gate' dflt) := by
  have ha : store.strategyGate cp.inNamespace gate' dflt = (cp.spec.strategy.bind gate).getD dflt := by
    cases h : cp.spec.strategy
    all_goals simp [PolicyStore.strategyGate, hc, resolveOnePolicy, CachePolicy.served, CachePolicySpec.served,
      h, hg]
  have hf : store.strategyGate ns gate' dflt = dflt := by simp [PolicyStore.strategyGate, hn]
  rw [ha, hf]
  cases cp.spec.strategy.bind gate <;> simp [Answers]

-- The default of the CRD is the one of the server.
theorem answers_matched : Answers cp.spec.minimumMatchedTokens tokens
    (store.minimumMatchedTokens cp.inNamespace) (store.minimumMatchedTokens ns) := by
  cases h : cp.spec.minimumMatchedTokens
  case none =>
    simp [Answers, PolicyStore.minimumMatchedTokens, hc, hn, resolveOnePolicy, CachePolicy.served,
      CachePolicySpec.served, h]
    decide
  case some n =>
    intro m ⟨hl, hm⟩
    simp [PolicyStore.minimumMatchedTokens, hc, resolveOnePolicy, CachePolicy.served, CachePolicySpec.served, h,
      hm, Int32.not_lt.mpr hl]

theorem faithful [IeeeFormat F] (hd : text.parse (utf8 "0.1") = some defaultRoutingFloorScore) :
    Faithful text env store cp ns where
  ttl := by
    have hs : cp.served.spec.evictionTTL = cp.spec.evictionTTL := rfl
    cases h : cp.spec.evictionTTL <;> simp [Answers, PolicyStore.ttl, hc, hn, resolveOnePolicy, hs, h]
  eviction := answers_eviction hc hn
  prefixes := by
    have hs : cp.served.spec.minimumPrefixTokens = cp.spec.minimumPrefixTokens := rfl
    cases h : cp.spec.minimumPrefixTokens <;>
      simp +contextual [Answers, PolicyStore.minimumPrefixTokens, hc, hn, resolveOnePolicy, hs, h, tokens]
  matched := answers_matched hc hn
  floor := answers_floor hc hn hd
  affinity := answers_affinity hc hn
  timeout := answers_timeout hc hn
  chain := answers_gate hc hn fun _ => rfl
  required := answers_gate hc hn fun _ => rfl
  hot := answers_gate hc hn fun _ => rfl

end Answers

end Resolved

section Propagation

-- Wherever a policy counts, what it sets is what the server answers, and what it leaves open is answered
-- like in a namespace without a policy. `hd` is that the number 0.1 is read as the nearest float.
theorem policies_are_propagated {F : Type} [FloatFormat F] [IeeeFormat F] (text : FloatText F)
    (hd : text.parse (utf8 "0.1") = some defaultRoutingFloorScore) (env : Env)
    (policies : List CachePolicy) (tenants : List CacheTenant) (h : (FullNames policies).Nodup) :
    ∃ store, propagate text (policies.map CachePolicy.served) tenants = some store ∧
      (∀ policies' : List CachePolicy, policies'.Perm policies →
        propagate text (policies'.map CachePolicy.served) tenants = some store) ∧
      ∀ cp ns, Decides policies cp → Unclaimed policies ns → Faithful text env store cp ns := by
  have hs : (FullNames (policies.map CachePolicy.served)).Nodup := by rwa [fullNames_served]
  refine ⟨_, propagate_eq text _ tenants, fun policies' hp => ?_, fun cp ns hc hu => ?_⟩
  case refine_1 => rw [propagate_eq, resolvePolicies_eq_of_perm text hs (hp.symm.map _)]
  case refine_2 => exact faithful (lookup_of_decides hs hc.served) (lookup_of_unclaimed hs hu.served) hd

-- A text for exact numbers, by counting them, apart from the one default.
def countingText : FloatText ℚ where
  format x := List.replicate (Encodable.encode x) 0x31
  parse s := if s = utf8 "0.1" then some (1 / 10) else Encodable.decode s.length
  parse_format x _ := by
    have hn : List.replicate (Encodable.encode x) 0x31 ≠ utf8 "0.1" := by
      intro he
      have hm : (0x30 : UInt8) ∈ List.replicate (Encodable.encode x) 0x31 := he ▸ by decide +kernel
      cases List.eq_of_mem_replicate hm
    simp [hn]

def outspoken : CachePolicy where
  inNamespace := utf8 "team-b"
  name := utf8 "default"
  spec := { eviction := utf8 "LFU", minimumMatchedTokens := some 0 }
  inNamespace_ne := by decide +kernel

theorem policies_are_propagated_outspoken :
    (FullNames [outspoken]).Nodup ∧ ∃ store,
      propagate countingText [outspoken.served] [] = some store ∧
      Faithful countingText (.still 0) store outspoken [] := by
  have hn : (FullNames [outspoken]).Nodup := List.nodup_singleton _
  have hd : Decides [outspoken] outspoken := ⟨.head _, by simp⟩
  have ht : countingText.parse (utf8 "0.1") = some defaultRoutingFloorScore := if_pos rfl
  have ⟨store, hp, _, hf⟩ := policies_are_propagated countingText ht (.still 0) [outspoken] [] hn
  exact ⟨hn, store, hp, hf outspoken [] hd fun cp _ => cp.inNamespace_ne⟩

end Propagation

end InferenceCache.Controller
