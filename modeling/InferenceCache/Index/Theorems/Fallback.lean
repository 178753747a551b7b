import InferenceCache.Index.Theorems.Isolation

namespace InferenceCache.Index

open FloatFormat

variable {F : Type} {cfg : Config F} {i : Index F} {env : Env} {req : LookupRequest}

section Hot

variable [GoFloat F] {sc : ReplicaScore F} {r : GoString}

-- Stats that a plain scan takes into account, and the score that goes with them.
def Rates (cfg : Config F) (env : Env) (req : LookupRequest) (s : StatEntry F) (sc : ReplicaScore F) : Prop :=
  Time.sub (env.now 1) s.statsReported < cfg.ranker.tenantHotMaxAge ∧
    lt s.stats.hitRate cfg.ranker.tenantHotMinHitRate = false ∧
    sc = hotScore cfg env req sc.replicaID ⟨s.stats.hitRate, s.stats.pressure, s.statsReported⟩

omit [GoFloat F] in
theorem Consistent.count_serving (h : Consistent cfg i) {scope : ScopeKey} :
    (i.servingByScope.inner scope).count r = 0 ↔ ¬∃ key, key.scopeKey = scope ∧ (i.entryAt key r).isSome := by
  have hc : (i.servingByScope.inner scope).count r = i.servingByScope.flatten.count (scope, r) := by
    rw [Finmap.count, Finmap.count, Finmap.lookup_inner, Finmap.lookup_flatten]
  rw [hc, h.serving.count_eq, Int.natCast_eq_zero, Finset.card_eq_zero, Finset.filter_eq_empty_iff,
    ← h.serving.lookup_eq_none_iff (scope, r), Finmap.lookup_flatten, ← h.serving_isSome_iff,
    Option.not_isSome_iff_eq_none]

theorem warmOf_eq_some {w : WarmReplica F} : i.warmOf cfg env req r = some w ↔
    ∃ s, i.stats.lookup (req.statsKeyOf r) = some s ∧
      Time.sub (env.now 1) s.statsReported < cfg.ranker.tenantHotMaxAge ∧
      lt s.stats.hitRate cfg.ranker.tenantHotMinHitRate = false ∧
      ⟨s.stats.hitRate, s.stats.pressure, s.statsReported⟩ = w := by
  rw [warmOf, Option.bind_eq_some_iff]
  refine exists_congr fun s => and_congr_right fun _ => ?_
  split_ifs with ha hr <;> simp_all

theorem lookup_warmReplicas (h : Consistent cfg i) :
    (i.warmReplicas cfg env req (i.replicasByModel.inner req.modelKey)).lookup r = i.warmOf cfg env req r := by
  rw [warmReplicas_eq, RangeOrder.lookup_collect, Finmap.lookup_inner, Finmap.lookup_empty, Option.or_none]
  have hk := h.replicas (req.statsKeyOf r)
  cases hl : i.replicasByModel.lookup₂ req.modelKey r
  case some => rfl
  case none =>
    rw [show i.replicasByModel.lookup₂ (req.statsKeyOf r).modelKey (req.statsKeyOf r).replicaID = none from hl,
      Option.isSome_none, Bool.false_eq_true, false_iff, Option.not_isSome_iff_eq_none] at hk
    rw [warmOf, hk]
    rfl

theorem tenantHot_is_scan (cfg : Config F) (i : Index F) (h : Reachable cfg i) (env : Env) (req : LookupRequest)
    (sc : ReplicaScore F) : sc ∈ i.tenantHotCandidates cfg env req ↔
      (0 < cfg.ranker.tenantHotMaxAge ∧ req.hashScheme ≠ []) ∧
        (∃ key, key.scopeKey = req.scopeKey ∧ (i.entryAt key sc.replicaID).isSome) ∧
        ∃ s, i.stats.lookup (req.statsKeyOf sc.replicaID) = some s ∧ Rates cfg env req s sc := by
  have hc := h.consistent
  rw [tenantHotCandidates_eq]
  split
  case isTrue hn =>
    simp only [List.not_mem_nil, false_iff]
    rintro ⟨⟨ha, hs⟩, hv, s, hl, hage, hrate, _⟩
    -- The tests for empty maps only save work.
    have hw := (lookup_warmReplicas hc).trans (warmOf_eq_some.mpr ⟨s, hl, hage, hrate, rfl⟩)
    rw [← not_not (a := ∃ key, _), ← hc.count_serving] at hv
    simp only [Finmap.len_eq_zero_iff] at hn
    rcases hn with hn | hn | hn | hn | hn
    case inl => exact absurd ha (Int.not_lt.mpr hn)
    case inr.inl => exact hs hn
    all_goals simp [hn, warmReplicas_eq, Finmap.count] at hw hv
  case isFalse hn =>
    rw [← or_assoc, not_or, not_or, Int.not_le] at hn
    rw [and_iff_right hn.1, sortSlice_perm.mem_iff, List.mem_filterMap]
    simp only [RangeOrder.mem_range, lookup_warmReplicas hc, warmOf_eq_some, Option.ite_none_left_eq_some,
      Option.some.injEq, hc.count_serving, not_not]
    constructor
    case mp =>
      rintro ⟨⟨r, w⟩, ⟨s, hs, ha, hr, rfl⟩, hv, rfl⟩
      exact ⟨hv, s, hs, ha, hr, rfl⟩
    case mpr =>
      rintro ⟨hv, s, hs, ha, hr, he⟩
      exact ⟨(sc.replicaID, _), ⟨s, hs, ha, hr, rfl⟩, hv, he.symm⟩

-- A report of a prefix, and then one of stats only.
theorem tenantHot_is_scan_reported :
    ∃ i sc, Reachable probed i ∧ sc ∈ i.tenantHotCandidates probed (.still 9) sample := by
  let report : Call ℚ × Env := (.ingest ⟨[0x61], [0x6d], [0x74], [], [], 1, [], some ⟨[0x61], 0, 1, 0, 0, 0⟩⟩, .still 9)
  let s : StatEntry ℚ := ⟨⟨[0x61], 0, 1, 0, 0, 0⟩, 1, 1⟩
  have h : Reachable probed (run probed [workload, report]) := ⟨_, rfl⟩
  refine ⟨_, hotScore probed (.still 9) sample [0x61] ⟨1, 0, 1⟩, h, (tenantHot_is_scan probed _ h _ _ _).mpr ?_⟩
  exact ⟨by decide +kernel, ⟨⟨[0x74], [0x6d], [0x73], [], [1]⟩, by decide +kernel⟩, s, by decide +kernel,
    by decide +kernel, by decide +kernel, rfl⟩

end Hot

section Miss

-- The outermost of the request's keys that no entry has, by a scan of all entries.
def scannedMiss (i : Index F) (req : LookupRequest) : Strategy :=
  if i.pairs = ∅ then .none
  else if ∀ x ∈ i.pairs, x.1.tenant ≠ req.tenant then .unknownTenant
  else if ∀ x ∈ i.pairs, x.1.modelKey ≠ req.modelKey then .unknownModel
  else if ∀ x ∈ i.pairs, x.1.scopeKey ≠ req.scopeKey then .unknownHashScheme
  else .none

theorem Consistent.exists_key_iff (h : Consistent cfg i) {p : PrefixKey → Prop} :
    (∃ key ∈ i.prefixes.keys, p key) ↔ ∃ x ∈ i.pairs, p x.1 := by
  simp only [h.mem_keys_iff, mem_pairs, Option.isSome_iff_exists, Prod.exists]
  constructor
  case mp =>
    rintro ⟨key, ⟨r, he⟩, hp⟩
    exact ⟨key, r, he, hp⟩
  case mpr =>
    rintro ⟨key, r, he, hp⟩
    exact ⟨key, ⟨r, he⟩, hp⟩

theorem Consistent.count_pos_iff {A : Type} [DecidableEq A] {counts : GoMap A Int} {f : PrefixKey → A} {a : A}
    (h : Consistent cfg i) (ht : counts.Tallies i.prefixes.keys f) : 0 < counts.count a ↔ ∃ x ∈ i.pairs, f x.1 = a := by
  rw [ht.count_eq, Int.natCast_pos, Finset.card_pos, Finset.filter_nonempty_iff, h.exists_key_iff]

theorem Consistent.len_serving_pos_iff (h : Consistent cfg i) {scope : ScopeKey} :
    0 < (i.servingByScope.inner scope).len ↔ ∃ x ∈ i.pairs, x.1.scopeKey = scope := by
  rw [Finmap.len, Finset.card_pos]
  simp only [Finset.Nonempty, Finmap.mem_keys_iff, Finmap.lookup_inner, h.serving_isSome_iff, mem_pairs, Prod.exists]
  rw [exists_comm]
  exact exists_congr fun key => exists_congr fun r => and_comm

theorem miss_is_scan [GoFloat F] (cfg : Config F) (i : Index F) (h : Reachable cfg i) (req : LookupRequest) :
    i.classifyMiss req = i.scannedMiss req := by
  have hc := h.consistent
  have he : i.prefixes.len = 0 ↔ i.pairs = ∅ := by
    have hk := (hc.exists_key_iff (p := fun _ => True)).not
    simpa [Finmap.len, Finset.eq_empty_iff_forall_notMem] using hk
  simp only [classifyMiss, scannedMiss, hasAnyForTenantLocked, hasAnyForTenantModelLocked,
    hasAnyForTenantModelSchemeLocked, he, Bool.not_eq_true', decide_eq_false_iff_not, hc.count_pos_iff hc.byTenant,
    hc.count_pos_iff hc.byTenantModel, hc.len_serving_pos_iff, not_exists, not_and, ne_eq]

theorem miss_is_scan_model : Reachable probed (run probed [workload]) ∧
    (run probed [workload]).classifyMiss { sample with model := [0x6e] } = .unknownModel :=
  ⟨⟨_, rfl⟩, (miss_is_scan probed _ ⟨_, rfl⟩ _).trans (by decide +kernel)⟩

end Miss

end InferenceCache.Index
