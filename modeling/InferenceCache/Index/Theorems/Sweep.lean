import InferenceCache.Index.Theorems.Isolation

namespace InferenceCache.Index

section Stale

variable {cfg : Config ℚ} {i : Index ℚ} {env env' : Env} {req : LookupRequest}

theorem freshnessAt_nonpos_iff {now lastSeen : Time} {ttl : Duration} (h : 0 < ttl) :
    (freshnessAt now lastSeen ttl : ℚ) ≤ 0 ↔ ttl ≤ Time.sub now lastSeen := by
  generalize ha : Time.sub now lastSeen = age
  have hd : (0 : ℚ) < (ttl : ℚ) := by exact_mod_cast h
  simp only [freshnessAt, ha, not_le.mpr h, if_false]
  split
  case isTrue ho =>
    have hl : ¬(1 : ℚ) ≤ 0 := by norm_num
    exact iff_of_false hl (not_le.mpr (lt_of_le_of_lt ho h))
  case isFalse =>
    split
    case isTrue ht => simpa using ht
    case isFalse ht =>
      have hl : (age : ℚ) / (ttl : ℚ) < 1 := by
        rw [div_lt_one hd]
        exact_mod_cast not_le.mp ht
      exact iff_of_false (not_le.mpr (sub_pos.mpr hl)) ht

-- Exact arithmetic never rounds a freshness down to zero, so that a lookup passes over exactly what
-- the sweep removes.
theorem stale_eq_expired {t : Time} : stale cfg env req t = expired cfg env req.tenant t := by
  have hp := @Config.ttlFor_pos _ cfg env req.tenant
  simp only [stale, expired, FloatFormat.le, freshnessAt_nonpos_iff hp, hp, true_and]

theorem expired_congr (hn : env'.now 0 = env.now 0) (ht : env'.ttlResolver = env.ttlResolver) :
    expired cfg env' = expired cfg env := by
  funext tenant t
  have hl : cfg.ttlFor env' tenant = cfg.ttlFor env tenant := by
    unfold Config.ttlFor
    rw [ht]
  rw [expired, expired, hl, hn]

theorem freshEntry_evictExpired (hn : env'.now 0 = env.now 0) (ht : env'.ttlResolver = env.ttlResolver) :
    (i.evictExpired cfg env).freshEntry cfg env' req = i.freshEntry cfg env' req := by
  funext id hash
  rw [freshEntry, freshEntry, entryAt_of_filter entries_evictExpired, Option.filter_filter]
  congr 1
  funext e
  rw [stale_eq_expired, expired_congr hn ht]
  exact Bool.and_self _

end Stale

-- What a sweep does to the index, and what a lookup that reads the same clock makes of it.
theorem sweep_exact_and_unseen (cfg : Config ℚ) (i : Index ℚ) (env : Env) :
    (i.evictExpired cfg env).entries =
      i.entries.filter (fun x e => !decide (cfg.ttlFor env x.1.tenant ≤ Time.sub (env.now 0) e.lastSeen)) ∧
    (i.evictExpired cfg env).stats =
      i.stats.filter (fun sk s => !decide (cfg.ttlFor env sk.tenant ≤ Time.sub (env.now 0) s.lastSeen)) ∧
    (Consistent cfg i → Consistent cfg (i.evictExpired cfg env)) ∧
    ∀ (env' : Env) (req : LookupRequest), env'.now 0 = env.now 0 → env'.ttlResolver = env.ttlResolver →
      (∀ x, x ∈ ((i.evictExpired cfg env).lookup cfg env' req).map ReplicaScore.found ↔
        x ∈ (i.lookup cfg env' req).map ReplicaScore.found) ∧
      (((i.evictExpired cfg env).lookupRoute cfg env' req).strategy = .prefixMatch ↔
        (i.lookupRoute cfg env' req).strategy = .prefixMatch) := by
  have hx (tenant : GoString) (t : Time) : expired cfg env tenant t =
      decide (cfg.ttlFor env tenant ≤ Time.sub (env.now 0) t) := by
    have hp := @Config.ttlFor_pos _ cfg env tenant
    simp only [expired, hp, true_and]
  refine ⟨?entries, ?stats, Consistent.evictExpired, ?unseen⟩
  case entries => simp only [entries_evictExpired, hx]
  case stats   => simp only [stats_evictExpired, hx]
  case unseen  =>
    intro env' req hn ht
    have hf : (i.evictExpired cfg env).freshEntry cfg env' req = i.freshEntry cfg env' req :=
      freshEntry_evictExpired hn ht
    refine ⟨found_of_freshEntry hf, ?_⟩
    rw [strategy_eq_prefixMatch_iff, strategy_eq_prefixMatch_iff, length_pos_congr (found_of_freshEntry hf)]

-- The first report is half an hour old, and the second one is new.
def agedReports : List (Call ℚ × Env) :=
  [(.ingest <| .single [0x74] [0x62] [1] 1, .still 1),
    (.ingest <| .single [0x74] [0x61] [1] (1800 * 10 ^ 9), .still (1800 * 10 ^ 9))]

theorem sweep_exact_and_unseen_aged :
    let i := run probed agedReports
    let env := Env.still (1800 * 10 ^ 9 + 1)
    i.pairs.card = 2 ∧ (i.evictExpired probed env).entries.keys.card = 1 ∧
      ((i.evictExpired probed env).lookupRoute probed env sample).strategy = .prefixMatch := by
  have ⟨he, _, _, h⟩ := sweep_exact_and_unseen probed (run probed agedReports) (.still (1800 * 10 ^ 9 + 1))
  have hm : ((run probed agedReports).lookupRoute probed (.still (1800 * 10 ^ 9 + 1)) sample).strategy =
      .prefixMatch := by
    decide +kernel
  exact ⟨by decide +kernel, he ▸ by decide +kernel, (h _ sample rfl rfl).2.mpr hm⟩

end InferenceCache.Index
