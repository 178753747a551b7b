import InferenceCache.Index.Theorems.Order
import InferenceCache.Index.Theorems.Reserved

namespace InferenceCache.Index

variable {F : Type} [GoFloat F] {cfg : Config F} {i j : Index F} {env env' : Env}
variable {req : LookupRequest}

-- Two indexes give the same answers to all that the scores of a request depend on.
structure SameReads (req : LookupRequest) (i j : Index F) : Prop where
  holders : ∀ h, i.prefixes.inner (req.keyOf h) = j.prefixes.inner (req.keyOf h)
  stats   : ∀ id, i.stats.lookup (req.statsKeyOf id) = j.stats.lookup (req.statsKeyOf id)
  serving : i.servingByScope.inner req.scopeKey = j.servingByScope.inner req.scopeKey
  known   : i.replicasByModel.inner req.modelKey = j.replicasByModel.inner req.modelKey

-- A replica serves an engine domain as often as it holds one of its prefixes.
omit [GoFloat F] in
theorem Consistent.lookup₂_servingByScope (hi : Consistent cfg i) (hj : Consistent cfg j) {scope : ScopeKey}
    {r : GoString} (h : ∀ key, key.scopeKey = scope → i.entryAt key r = j.entryAt key r) :
    i.servingByScope.lookup₂ scope r = j.servingByScope.lookup₂ scope r := by
  have hl := hi.serving.lookup_congr hj.serving (a := (scope, r)) fun x hx => by
    have ⟨hk, hr⟩ := Prod.mk.inj hx
    rw [mem_pairs, mem_pairs, hr, h x.1 hk]
  simpa [Finmap.lookup_flatten] using hl

omit [GoFloat F] in
theorem Consistent.serving_congr (hi : Consistent cfg i) (hj : Consistent cfg j) {scope : ScopeKey}
    (h : ∀ key r, key.scopeKey = scope → i.entryAt key r = j.entryAt key r) :
    i.servingByScope.inner scope = j.servingByScope.inner scope := by
  refine Finmap.ext_lookup fun r => ?_
  rw [Finmap.lookup_inner, Finmap.lookup_inner, hi.lookup₂_servingByScope hj fun key => h key r]

omit [GoFloat F] in
theorem Consistent.serving_isSome_iff (h : Consistent cfg i) {scope : ScopeKey} {r : GoString} :
    (i.servingByScope.lookup₂ scope r).isSome ↔ ∃ key, key.scopeKey = scope ∧ (i.entryAt key r).isSome := by
  have hn := (h.serving.lookup_eq_none_iff (scope, r)).not
  rw [Finmap.lookup_flatten, ← ne_eq, Option.ne_none_iff_isSome] at hn
  rw [hn]
  push Not
  constructor
  case mp =>
    rintro ⟨⟨key, r'⟩, hp, hk⟩
    cases hk
    exact ⟨key, rfl, mem_pairs.mp hp⟩
  case mpr =>
    rintro ⟨key, hk, he⟩
    exact ⟨(key, r), mem_pairs.mpr he, by rw [hk]⟩

namespace AgreeOn

variable {p : ModelKey → Prop}

omit [GoFloat F]

theorem known (h : AgreeOn p i j) (hi : Consistent cfg i) (hj : Consistent cfg j) {mk : ModelKey}
    (hp : p mk) : i.replicasByModel.inner mk = j.replicasByModel.inner mk := by
  refine Finmap.ext_lookup fun r => ?_
  rw [Finmap.lookup_inner, Finmap.lookup_inner, hi.lookup₂_replicasByModel hj (h.stats _ hp)]

theorem sameReads (h : AgreeOn (· = req.modelKey) i j) (hi : Consistent cfg i) (hj : Consistent cfg j) :
    SameReads req i j where
  holders _ := h.inner rfl
  stats _ := h.stats _ rfl
  serving := hi.serving_congr hj fun key r hk => h.entry key r <| by
    exact congrArg (fun scope : ScopeKey => ModelKey.mk scope.tenant scope.model) hk
  known := h.known hi hj rfl

end AgreeOn

namespace SameReads

theorem scoreOf (h : SameReads req i j) : i.scoreOf cfg env req = j.scoreOf cfg env req := by
  funext id tokens lastSeen tier
  simp only [Index.scoreOf, pressureOf, h.stats]

omit [GoFloat F] in
theorem totalReplicas (h : SameReads req i j) : i.totalReplicas req = j.totalReplicas req := by
  simp only [Index.totalReplicas, h.serving]

theorem lookupExact (h : SameReads req i j) : i.lookupExact cfg env req = j.lookupExact cfg env req := by
  simp only [Index.lookupExact, h.holders, h.scoreOf, h.totalReplicas]

theorem chainRest (h : SameReads req i j) {n : Nat} {l : List (Bytes × Int32)}
    {current finalized : GoMap GoString Running} :
    i.chainRest cfg env req n l current finalized = j.chainRest cfg env req n l current finalized := by
  induction l generalizing n current finalized
  case nil => rfl
  case cons x l hi => simp only [Index.chainRest, h.holders, hi]

theorem chainWalk (h : SameReads req i j) {l : List (Bytes × Int32)} :
    i.chainWalk cfg env req l = j.chainWalk cfg env req l := by
  cases l
  case nil => rfl
  case cons => simp only [Index.chainWalk, h.holders, h.chainRest]

theorem lookupChain (h : SameReads req i j) : i.lookupChain cfg env req = j.lookupChain cfg env req := by
  simp only [Index.lookupChain, h.chainWalk, h.scoreOf, h.totalReplicas]

theorem lookupWithHits (h : SameReads req i j) :
    i.lookupWithHits cfg env req = j.lookupWithHits cfg env req := by
  simp only [Index.lookupWithHits, h.lookupExact, h.lookupChain]

theorem warmReplicas (h : SameReads req i j) :
    i.warmReplicas cfg env req = j.warmReplicas cfg env req := by
  funext known
  simp only [warmReplicas_eq, warmOf, h.stats]

theorem tenantHotCandidates (h : SameReads req i j) :
    i.tenantHotCandidates cfg env req = j.tenantHotCandidates cfg env req := by
  simp only [Index.tenantHotCandidates, h.warmReplicas, h.known, h.serving]

theorem fallback (h : SameReads req i j) : i.fallback cfg env req = j.fallback cfg env req := by
  simp only [Index.fallback, h.tenantHotCandidates]

-- Everything but the reason for a miss.
theorem lookupRoute (cfg : Config F) (env : Env) (h : SameReads req i j) :
    (i.lookupRoute cfg env req).scores = (j.lookupRoute cfg env req).scores ∧
      (i.lookupRoute cfg env req).hitsByReplica = (j.lookupRoute cfg env req).hitsByReplica ∧
      (i.classifyMiss req = j.classifyMiss req →
        (i.lookupRoute cfg env req).strategy = (j.lookupRoute cfg env req).strategy) := by
  rw [lookupRoute_eq, lookupRoute_eq, h.lookupWithHits, h.fallback]
  split_ifs
  iterate 3 exact ⟨rfl, rfl, fun _ => rfl⟩
  exact ⟨rfl, rfl, id⟩

end SameReads

section Found

-- What the matches of a request are, as opposed to how they rank, depends on no more than what is
-- held under its own keys.
theorem runFrom_congr (h : i.freshEntry cfg env req = j.freshEntry cfg env req) {id : GoString}
    {st : Running} {l : List (Bytes × Int32)} :
    i.runFrom cfg env req id st l = j.runFrom cfg env req id st l := by
  induction l generalizing st
  case nil => rfl
  case cons x l hi =>
    simp only [runFrom, h]
    cases j.freshEntry cfg env req id x.1
    case none => rfl
    case some => exact hi

theorem runOf_congr (h : i.freshEntry cfg env req = j.freshEntry cfg env req) {id : GoString}
    {l : List (Bytes × Int32)} : i.runOf cfg env req id l = j.runOf cfg env req id l := by
  cases l
  case nil => rfl
  case cons => simp only [runOf, h, runFrom_congr h]

theorem found_of_freshEntry (hf : i.freshEntry cfg env req = j.freshEntry cfg env req)
    (x : GoString × Int32 × CacheTier) :
    x ∈ (i.lookupWithHits cfg env req).1.map ReplicaScore.found ↔
      x ∈ (j.lookupWithHits cfg env req).1.map ReplicaScore.found := by
  unfold lookupWithHits
  split
  case isTrue => rfl
  case isFalse =>
    split
    case isFalse => rw [mem_found_lookupExact, mem_found_lookupExact, hf]
    case isTrue =>
      split
      case isTrue => rfl
      case isFalse => rw [mem_found_lookupChain, mem_found_lookupChain, runOf_congr hf]

theorem found_congr (h : ∀ hash r, i.entryAt (req.keyOf hash) r = j.entryAt (req.keyOf hash) r)
    (x : GoString × Int32 × CacheTier) :
    x ∈ (i.lookupWithHits cfg env req).1.map ReplicaScore.found ↔
      x ∈ (j.lookupWithHits cfg env req).1.map ReplicaScore.found := by
  apply found_of_freshEntry
  funext id hash
  rw [freshEntry, freshEntry, h]

omit [GoFloat F] in
theorem length_pos_congr {l l' : List (ReplicaScore F)}
    (h : ∀ x, x ∈ l.map ReplicaScore.found ↔ x ∈ l'.map ReplicaScore.found) :
    0 < l.length ↔ 0 < l'.length := by
  have hl (l : List (ReplicaScore F)) : 0 < l.length ↔ ∃ x, x ∈ l.map ReplicaScore.found := by
    rw [← List.length_pos_iff_exists_mem, List.length_map]
  rw [hl, hl]
  exact exists_congr h

end Found

section Strategy

omit [GoFloat F] in
theorem classifyMiss_ne : i.classifyMiss req ≠ .prefixMatch := by
  unfold classifyMiss
  split_ifs <;> exact Strategy.noConfusion

theorem strategy_eq_prefixMatch_iff : (i.lookupRoute cfg env req).strategy = .prefixMatch ↔
    ¬dropped req ∧ 0 < (i.lookupWithHits cfg env req).1.length := by
  rw [lookupRoute_eq]
  split_ifs <;> simp_all [classifyMiss_ne]

theorem scores_of_prefixMatch (h : (i.lookupRoute cfg env req).strategy = .prefixMatch) :
    (i.lookupRoute cfg env req).scores = (i.lookupWithHits cfg env req).1 := by
  have ⟨hd, hl⟩ := strategy_eq_prefixMatch_iff.mp h
  rw [lookupRoute_eq, if_neg hd, if_pos hl]

-- With prefixes on both sides, a miss has the same reason if the tenant holds the same.
omit [GoFloat F] in
theorem classifyMiss_congr (hi : Consistent cfg i) (hj : Consistent cfg j)
    (h : ∀ key r, key.tenant = req.tenant → i.entryAt key r = j.entryAt key r)
    (hs : i.servingByScope.inner req.scopeKey = j.servingByScope.inner req.scopeKey)
    (hn : i.prefixes.len = 0 ↔ j.prefixes.len = 0) : i.classifyMiss req = j.classifyMiss req := by
  have hk : ∀ key : PrefixKey, key.tenant = req.tenant →
      (key ∈ i.prefixes.keys ↔ key ∈ j.prefixes.keys) := fun key ht => by
    simp only [hi.mem_keys_iff, hj.mem_keys_iff, h key _ ht]
  have ht := hi.byTenant.lookup_congr hj.byTenant hk
  have hm := hi.byTenantModel.lookup_congr hj.byTenantModel (a := req.modelKey) fun key hm =>
    hk key <| congrArg ModelKey.tenant hm
  have h₁ : i.hasAnyForTenantLocked req.tenant = j.hasAnyForTenantLocked req.tenant := by
    rw [hasAnyForTenantLocked, hasAnyForTenantLocked, Finmap.count, Finmap.count, ht]
  have h₂ : i.hasAnyForTenantModelLocked req.modelKey = j.hasAnyForTenantModelLocked req.modelKey := by
    rw [hasAnyForTenantModelLocked, hasAnyForTenantModelLocked, Finmap.count, Finmap.count, hm]
  unfold classifyMiss hasAnyForTenantModelSchemeLocked
  rw [h₁, h₂, hs]
  exact if_congr hn rfl rfl

theorem lookup_isolated (cfg : Config F) (i j : Index F) (hi : Reachable cfg i) (hj : Reachable cfg j)
    (env env' : Env) (he : env.SameInputs env') (req : LookupRequest) :
    (AgreeOn (· = req.modelKey) i j →
      (i.lookupRoute cfg env req).scores = (j.lookupRoute cfg env req).scores ∧
      SameRanking (i.lookupRoute cfg env req).scores (j.lookupRoute cfg env' req).scores ∧
      (i.lookupRoute cfg env req).hitsByReplica = (j.lookupRoute cfg env' req).hitsByReplica) ∧
    ((∀ hash r, i.entryAt (req.keyOf hash) r = j.entryAt (req.keyOf hash) r) →
      ((i.lookupRoute cfg env req).strategy = .prefixMatch ↔
        (j.lookupRoute cfg env' req).strategy = .prefixMatch) ∧
      ((i.lookupRoute cfg env req).strategy = .prefixMatch → ∀ x,
        x ∈ (i.lookupRoute cfg env req).scores.map ReplicaScore.found ↔
          x ∈ (j.lookupRoute cfg env' req).scores.map ReplicaScore.found)) ∧
    (AgreeOn (· = req.modelKey) i j →
      (∀ key r, key.tenant = req.tenant → i.entryAt key r = j.entryAt key r) →
      i.prefixes ≠ ∅ → j.prefixes ≠ ∅ →
      (i.lookupRoute cfg env req).strategy = (j.lookupRoute cfg env' req).strategy) := by
  have hci := hi.consistent
  have hcj := hj.consistent
  have ⟨hr, hh, hs⟩ := j.lookupRoute_order cfg req he
  refine ⟨fun ha => ?_, fun ha => ?_, fun ha ht hni hnj => ?_⟩
  case refine_1 =>
    have ⟨hr', hh', _⟩ := (ha.sameReads hci hcj).lookupRoute cfg env
    exact ⟨hr', hr' ▸ hr, hh'.trans hh⟩
  case refine_2 =>
    have hp : (i.lookupRoute cfg env req).strategy = .prefixMatch ↔
        (j.lookupRoute cfg env req).strategy = .prefixMatch := by
      rw [strategy_eq_prefixMatch_iff, strategy_eq_prefixMatch_iff, length_pos_congr (found_congr ha)]
    refine ⟨hs ▸ hp, fun hm x => ?_⟩
    rw [← (hr.perm.map _).mem_iff, scores_of_prefixMatch hm, scores_of_prefixMatch (hp.mp hm)]
    exact found_congr ha x
  case refine_3 =>
    have hn : i.prefixes.len = 0 ↔ j.prefixes.len = 0 := by
      simp only [Finmap.len_eq_zero_iff, hni, hnj]
    have hw := ha.sameReads hci hcj
    exact ((hw.lookupRoute cfg env).2.2 <| classifyMiss_congr hci hcj ht hw.serving hn).trans hs

-- What one tenant reports is no concern of another's, as long as no cap is shared.
theorem AgreeOn.ingest_self (h : Consistent cfg i) (env : Env) (u : Update F)
    (hm : ¬0 < cfg.maxEntries) :
    AgreeOn (·.tenant ≠ u.tenant) (i.ingest cfg env u) i := by
  rw [Index.ingest, enforceCapLocked_of_unbounded hm]
  exact beforeCap_self h

-- A request for the prefix that `workload` reports.
def sample : LookupRequest :=
  ⟨[0x6d], [0x74], [0x73], [], [1], [], [], 0⟩

theorem lookup_isolated_probe :
    ((run probed [workload]).lookupRoute probed (.still 9) sample).scores =
      ((run probed [workload, probe]).lookupRoute probed (.still 9) sample).scores ∧
    ((run probed [workload]).lookupRoute probed (.still 9) sample).strategy =
      ((run probed [workload, probe]).lookupRoute probed (.still 9) sample).strategy ∧
    ((run probed [workload]).lookupRoute probed (.still 9) sample).strategy = .prefixMatch := by
  have hi : Reachable probed (run probed [workload]) := ⟨_, rfl⟩
  have ha : AgreeOn (·.tenant ≠ [0x70]) (run probed [workload]) (run probed [workload, probe]) :=
    (AgreeOn.ingest_self hi.consistent (.still 9) (.single [0x70] [0x61] [1] 1) (by decide)).symm
  have hm : AgreeOn (· = sample.modelKey) (run probed [workload]) (run probed [workload, probe]) :=
    ha.mono fun mk hk => by rw [hk]; decide
  have h := lookup_isolated probed _ _ hi ⟨[workload, probe], rfl⟩ (.still 9) (.still 9)
    ⟨rfl, rfl, rfl, rfl⟩ sample
  refine ⟨(h.1 hm).1, h.2.2 hm (fun key r ht => ha.entry key r ?_) ?_ ?_, by decide +kernel⟩
  case refine_1 => exact show key.tenant ≠ [0x70] by rw [ht]; decide
  case refine_2 => exact (Finmap.len_eq_zero_iff.not.mp (by decide +kernel))
  case refine_3 => exact (Finmap.len_eq_zero_iff.not.mp (by decide +kernel))

end Strategy

section Probe

-- A replica is found only if it holds something fresh under one of the request's keys.
theorem exists_freshEntry {x : GoString × Int32 × CacheTier}
    (h : x ∈ (i.lookupWithHits cfg env req).1.map ReplicaScore.found) :
    ∃ hash e, i.freshEntry cfg env req x.1 hash = some e := by
  unfold lookupWithHits at h
  split at h
  case isTrue => cases h
  case isFalse =>
    split at h
    case isFalse =>
      have ⟨e, he, _⟩ := mem_found_lookupExact.mp h
      exact ⟨_, e, he⟩
    case isTrue =>
      split at h
      case isTrue => cases h
      case isFalse =>
        have ⟨_, hr, _⟩ := mem_found_lookupChain.mp h
        cases hb : blocks req
        case nil => rw [hb] at hr; cases hr
        case cons b _ =>
          rw [hb] at hr
          have ⟨e, he, _⟩ := Option.map_eq_some_iff.mp hr
          exact ⟨b.1, e, he⟩

theorem lookupWithHits_of_absent (h : ∀ hash r, i.entryAt (req.keyOf hash) r = none) :
    (i.lookupWithHits cfg env req).1 = [] := by
  refine List.eq_nil_iff_forall_not_mem.mpr fun s hs => ?_
  have ⟨hash, e, he⟩ := exists_freshEntry (List.mem_map_of_mem hs)
  rw [freshEntry, h, Option.filter_none] at he
  cases he

theorem fallback_of_notServing (h : i.servingByScope.inner req.scopeKey = ∅) :
    i.fallback cfg env req = [] := by
  have hl : (∅ : GoMap GoString Int).len = 0 := rfl
  simp only [fallback, tenantHotCandidates, h, hl, if_true, ite_self]

omit [GoFloat F] in
theorem affinityHint_congr {scope : ScopeKey}
    (h : i.servingByScope.inner scope = j.servingByScope.inner scope) {sha256 : Bytes → Bytes}
    {seed : Bytes} : i.affinityHint env sha256 scope seed = j.affinityHint env sha256 scope seed := by
  have hr : i.replicasForRouting env scope = j.replicasForRouting env scope := by
    rw [replicasForRouting, replicasForRouting, h]
  rw [affinityHint, affinityHint, hr]

omit [GoFloat F] in
theorem mem_replicasForRouting {scope : ScopeKey} {r : GoString} (h : r ∈ i.replicasForRouting env scope) :
    (i.servingByScope.lookup₂ scope r).isSome := by
  rw [replicasForRouting] at h
  split at h
  case isTrue => cases h
  case isFalse =>
    obtain ⟨x, hx, hr⟩ := List.mem_map.mp <| sortSlice_perm.mem_iff.mp h
    have hl := RangeOrder.mem_range.mp hx
    rw [hr, Finmap.lookup_inner] at hl
    exact Option.isSome_of_eq_some hl

omit [GoFloat F] in
theorem mem_of_affinityHint {sha256 : Bytes → Bytes} {scope : ScopeKey} {seed : Bytes} {r : GoString}
    (h : i.affinityHint env sha256 scope seed = some r) : r ∈ i.replicasForRouting env scope := by
  rw [affinityHint] at h
  split at h
  case isTrue => cases h
  case isFalse =>
    dsimp only at h
    split at h
    case isTrue => cases h
    case isFalse => exact List.mem_of_getElem? h

omit [GoFloat F] in
theorem Consistent.prefixes_eq_empty_iff (h : Consistent cfg i) : i.prefixes = ∅ ↔ i.pairs = ∅ := by
  rw [← Finmap.keys_eq_empty_iff, Finset.eq_empty_iff_forall_notMem, Finset.eq_empty_iff_forall_notMem]
  simp only [h.mem_keys_iff, mem_pairs, Option.isSome_iff_exists, Prod.forall, not_exists]

-- An index that holds nothing but what probes left behind blames the tenant of the request, unless
-- it holds nothing at all.
theorem strategy_of_free_eq_empty (h : Consistent cfg i) (hr : cfg.isReservedTenant req.tenant = false)
    (hd : ¬dropped req) (hf : i.free cfg = ∅) :
    (i.lookupRoute cfg env req).strategy = if i.prefixes.len = 0 then .none else .unknownTenant := by
  have ha : ∀ key r, key.tenant = req.tenant → i.entryAt key r = none := fun key r ht =>
    entryAt_eq_none_of_notMem_free (x := (key, r)) (ht ▸ hr) (hf ▸ Finset.notMem_empty _)
  have hw : (i.lookupWithHits cfg env req).1 = [] := lookupWithHits_of_absent fun _ _ => ha _ _ rfl
  have hs : i.servingByScope.inner req.scopeKey = (new : Index F).servingByScope.inner req.scopeKey :=
    h.serving_congr .new fun key r hk => ha key r (congrArg ScopeKey.tenant hk)
  have ht : i.hasAnyForTenantLocked req.tenant = false := by
    have hn := (h.byTenant.lookup_eq_none_iff req.tenant).mpr fun key hk ht => by
      have ⟨r, e, he⟩ := h.mem_keys_iff.mp hk
      cases (ha key r ht).symm.trans he
    rw [hasAnyForTenantLocked, Finmap.count, hn]
    rfl
  rw [lookupRoute_eq, if_neg hd, hw, fallback_of_notServing hs, classifyMiss, ht]
  rfl

theorem probe_invisible_iff (cfg : Config F) (i : Index F) (h : Reachable cfg i) (env : Env)
    (req : LookupRequest) (hr : cfg.isReservedTenant req.tenant = false) :
    let j := i.eraseReserved cfg
    ((i.lookupRoute cfg env req).strategy = (j.lookupRoute cfg env req).strategy ∧
      (i.lookupRoute cfg env req).scores = (j.lookupRoute cfg env req).scores ∧
      ∀ sha256 seed, i.affinityHint env sha256 req.scopeKey seed =
        j.affinityHint env sha256 req.scopeKey seed) ↔
    (i.free cfg).Nonempty ∨ i.prefixes = ∅ ∨ dropped req := by
  intro j
  have hi := h.consistent
  have hj : Consistent cfg j := hi.eraseReserved
  have ha : AgreeOn (Real cfg) i j := agreeOn_eraseReserved.symm
  have hw : SameReads req i j := (ha.mono fun mk hm => by rw [hm]; exact hr).sameReads hi hj
  obtain ⟨hs, _, hm⟩ := hw.lookupRoute cfg env
  have hp : j.prefixes = ∅ ↔ i.free cfg = ∅ := by rw [hj.prefixes_eq_empty_iff, pairs_eraseReserved]
  have he : i.prefixes = ∅ → i.free cfg = ∅ := fun he => by
    rw [free, hi.prefixes_eq_empty_iff.mp he, Finset.filter_empty]
  constructor
  case mp =>
    rintro ⟨ht, _⟩
    by_contra hc
    simp only [not_or, Finset.not_nonempty_iff_eq_empty] at hc
    obtain ⟨hf, hn, hd⟩ := hc
    rw [strategy_of_free_eq_empty hi hr hd hf, strategy_of_free_eq_empty hj hr hd (ha.free ▸ hf),
      if_neg (Finmap.len_eq_zero_iff.not.mpr hn), if_pos (Finmap.len_eq_zero_iff.mpr <| hp.mpr hf)] at ht
    cases ht
  case mpr =>
    intro hc
    refine ⟨?_, hs, fun _ _ => affinityHint_congr hw.serving⟩
    by_cases hd : dropped req
    case pos => rw [lookupRoute_eq, lookupRoute_eq, if_pos hd, if_pos hd]
    case neg =>
      have hn : i.prefixes.len = 0 ↔ j.prefixes.len = 0 := by
        rw [Finmap.len_eq_zero_iff, Finmap.len_eq_zero_iff, hp]
        refine ⟨he, fun hf => ?_⟩
        simpa [hf, hd] using hc
      refine hm <| classifyMiss_congr hi hj (fun key r ht => ha.entry key r ?_) hw.serving hn
      exact show cfg.isReservedTenant key.tenant = false from ht ▸ hr

-- The index before any workload has reported, once without and once with a probe in flight.
theorem probe_visible_coldStart :
    Reachable probed (run probed [probe]) ∧ probed.isReservedTenant sample.tenant = false ∧
      ((run probed [probe]).lookupRoute probed (.still 9) sample).strategy = .unknownTenant ∧
      (((run probed [probe]).eraseReserved probed).lookupRoute probed (.still 9) sample).strategy =
        .none :=
  ⟨⟨_, rfl⟩, by decide, by decide +kernel, by decide +kernel⟩

theorem probe_invisible_iff_workload :
    ((run probed [probe, workload]).lookupRoute probed (.still 9) sample).strategy =
      (((run probed [probe, workload]).eraseReserved probed).lookupRoute probed (.still 9) sample).strategy :=
  ((probe_invisible_iff probed _ ⟨[probe, workload], rfl⟩ (.still 9) sample (by decide)).mpr <|
    .inl (by decide +kernel)).1

end Probe

end InferenceCache.Index
