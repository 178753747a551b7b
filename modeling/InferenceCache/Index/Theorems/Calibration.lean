import InferenceCache.Index.Calibration
import InferenceCache.Index.Theorems.Order

namespace InferenceCache

namespace Index

variable {F : Type} {cfg : Config F} {i : Index F} {env env' : Env}

theorem capRefs_perm (h : env.evictionResolver = env'.evictionResolver) :
    (i.capRefs cfg env).Perm (i.capRefs cfg env') := by
  have hr : i.capRef env = i.capRef env' := by
    funext x
    simp only [capRef, effectiveCount, Env.evictionFor, h]
  apply (List.perm_ext_iff_of_nodup (List.Nodup.of_map _ capRefs_nodup) (List.Nodup.of_map _ capRefs_nodup)).mpr
  intro c
  rw [mem_capRefs, mem_capRefs, hr]

-- The victims of the cap step are sorted by an order that tells all of them apart.
theorem enforceCapLocked_order (h : env.evictionResolver = env'.evictionResolver) :
    i.enforceCapLocked cfg env = i.enforceCapLocked cfg env' := by
  have hn : ((i.capRefs cfg env).map CapRef.rank).Nodup := by
    have hp := List.pairwise_map.mp (@capRefs_nodup _ cfg i env)
    apply List.pairwise_map.mpr
    refine hp.imp fun {a b} hne he => hne ?_
    simp only [CapRef.rank, EmbeddingLike.apply_eq_iff_eq, Prod.mk.injEq] at he
    exact Prod.ext he.2.2.1 he.2.2.2
  rw [enforceCapLocked, enforceCapLocked, CapRef.comparesBy_rank.sortSlice_eq_of_perm hn (capRefs_perm h)]

theorem ingest_order [GoFloat F] {u : Update F} (h : env.SameInputs env') (hq : env.quotaResolver = none) :
    i.ingest cfg env u = i.ingest cfg env' u := by
  have hq' : env'.quotaResolver = none := h.quotaResolver ▸ hq
  have hb : i.beforeCap cfg env u = i.beforeCap cfg env' u := by
    rw [beforeCap, beforeCap, enforceQuota, enforceQuota, Env.tenantQuotaFor, Env.tenantQuotaFor, hq, hq']
    dsimp only
    rw [recordUpdate, recordUpdate, Update.seenAt, Update.seenAt, h.now]
  rw [ingest, ingest, hb, enforceCapLocked_order h.evictionResolver]

end Index

namespace Calibration

open FloatFormat GoFloat

section Orders

theorem sameInputs_envAt (anchor : Time) (order order' : Nat → MapOrders) :
    (envAt anchor order).SameInputs (envAt anchor order') :=
  ⟨rfl, rfl, rfl, rfl⟩

theorem comparable_rat (l : List ℚ) : Comparable l :=
  ⟨id, fun _ _ _ _ => ⟨decide_eq_true_iff, decide_eq_true_iff⟩⟩

variable {F : Type} [GoFloat F] {cfg : InferenceCache.Config F} {ttl : Duration} {o : Observation F}
variable {orders orders' : Orders} {i : Index F}

theorem ingestReplica_order {x : ReplicaObservation F × Nat} :
    ingestReplica cfg ttl o orders i x = ingestReplica cfg ttl o orders' i x := by
  have hi (i : Index F) (u : Update F) (n : Nat) :
      i.ingest cfg (envAt (unixMilli o.atMillis) (orders n)) u =
        i.ingest cfg (envAt (unixMilli o.atMillis) (orders' n)) u :=
    Index.ingest_order (sameInputs_envAt _ _ _) rfl
  simp only [ingestReplica, hi]

-- With exact arithmetic, no map order can be told from the outcome of a replay.
theorem replayObservation_order {trace : Trace ℚ} {o : Observation ℚ} {config : Config ℚ} :
    replayObservation orders trace o config = replayObservation orders' trace o config := by
  have hf : ingestReplica (trace.indexConfig config) (milliseconds trace.ttlMillis) o orders =
      ingestReplica (trace.indexConfig config) (milliseconds trace.ttlMillis) o orders' := by
    funext i x
    exact ingestReplica_order
  have ⟨hs, _, ht⟩ := Index.lookupRoute_order (trace.indexConfig config)
    (o.replicas.zipIdx.foldl (ingestReplica (trace.indexConfig config) (milliseconds trace.ttlMillis) o orders') .new)
    o.request (sameInputs_envAt (unixMilli o.atMillis) (orders (2 * o.replicas.length))
      (orders' (2 * o.replicas.length)))
  simp only [replayObservation, hf, ht, hs.eq (comparable_rat _)]

theorem replay_order (trace : Trace ℚ) (config : Config ℚ) (os os' : Nat → Orders) :
    replay os trace config = replay os' trace config := by
  have ho (o : Observation ℚ) (n : Nat) :
      replayObservation (os n) trace o config = replayObservation (os' n) trace o config :=
    replayObservation_order
  simp only [replay, ho]

end Orders

section Grid

variable {F : Type} [GoFloat F]

-- The configurations that the five loops go through, in their order.
def Sweep.grid (s : Sweep F) : List (Config F) :=
  s.pressureWeights.flatMap fun pressureWeight =>
    s.sloTightTTFTMillis.flatMap fun ttft =>
      s.sloTightBiases.flatMap fun bias =>
        s.tenantHotMinHitRates.flatMap fun hitRate =>
          s.tenantHotMaxAgeMillis.map fun maxAge => ⟨pressureWeight, ttft, bias, hitRate, maxAge⟩

structure Sweep.Contains (s : Sweep F) (c : Config F) : Prop where
  pressureWeight        : c.pressureWeight ∈ s.pressureWeights
  sloTightTTFTMillis    : c.sloTightTTFTMillis ∈ s.sloTightTTFTMillis
  sloTightBias          : c.sloTightBias ∈ s.sloTightBiases
  tenantHotMinHitRate   : c.tenantHotMinHitRate ∈ s.tenantHotMinHitRates
  tenantHotMaxAgeMillis : c.tenantHotMaxAgeMillis ∈ s.tenantHotMaxAgeMillis

theorem Sweep.mem_grid {s : Sweep F} {c : Config F} : c ∈ s.grid ↔ s.Contains c := by
  simp only [grid, List.mem_flatMap, List.mem_map]
  constructor
  case mp =>
    rintro ⟨_, h₁, _, h₂, _, h₃, _, h₄, _, h₅, rfl⟩
    exact ⟨h₁, h₂, h₃, h₄, h₅⟩
  case mpr =>
    intro h
    exact ⟨_, h.pressureWeight, _, h.sloTightTTFTMillis, _, h.sloTightBias, _, h.tenantHotMinHitRate, _,
      h.tenantHotMaxAgeMillis, rfl⟩

structure Sweep.NonEmpty (s : Sweep F) : Prop where
  pressureWeights       : s.pressureWeights ≠ []
  sloTightTTFTMillis    : s.sloTightTTFTMillis ≠ []
  sloTightBiases        : s.sloTightBiases ≠ []
  tenantHotMinHitRates  : s.tenantHotMinHitRates ≠ []
  tenantHotMaxAgeMillis : s.tenantHotMaxAgeMillis ≠ []

theorem Sweep.NonEmpty.grid {s : Sweep F} (h : s.NonEmpty) : s.grid ≠ [] := by
  have ⟨_, h₁⟩ := List.exists_mem_of_ne_nil _ h.pressureWeights
  have ⟨_, h₂⟩ := List.exists_mem_of_ne_nil _ h.sloTightTTFTMillis
  have ⟨_, h₃⟩ := List.exists_mem_of_ne_nil _ h.sloTightBiases
  have ⟨_, h₄⟩ := List.exists_mem_of_ne_nil _ h.tenantHotMinHitRates
  have ⟨_, h₅⟩ := List.exists_mem_of_ne_nil _ h.tenantHotMaxAgeMillis
  have hc : s.Contains ⟨_, _, _, _, _⟩ := ⟨h₁, h₂, h₃, h₄, h₅⟩
  exact List.ne_nil_of_mem (mem_grid.mpr hc)

theorem bestGridPoint_eq {orders : Nat → Nat → Orders} {trace : Trace F} :
    bestGridPoint orders trace =
      let s := trace.sweep.grid.foldl (Search.consider orders trace) .start
      (s.best, s.bestMetrics) := by
  simp only [bestGridPoint, Sweep.grid, List.foldl_flatMap, List.foldl_map]

end Grid

section Best

-- Double precision, read exactly.
def asRat (x : Double ℚ) : ℚ := x

theorem eq_eq_asRat (x y : Double ℚ) : FloatFormat.eq x y = decide (asRat x = asRat y) :=
  rfl

theorem lt_eq_asRat (x y : Double ℚ) : FloatFormat.lt x y = decide (asRat x < asRat y) :=
  rfl

-- The eight criteria as one order, in which less is better.
def rank (x : Config ℚ × Metrics ℚ) : ℚ ×ₗ ℚ ×ₗ ℚ ×ₗ ℚ ×ₗ ℚ ×ₗ ℤ ×ₗ ℤ ×ₗ ℚ :=
  toLex (-asRat x.2.macroHitRatePct, toLex (-asRat x.2.prefixHitRatePct, toLex (-asRat x.2.tenantHotHitRatePct,
    toLex (asRat x.1.pressureWeight, toLex (asRat x.1.sloTightBias, toLex (x.1.sloTightTTFTMillis.toInt,
      toLex (x.1.tenantHotMaxAgeMillis.toInt, -asRat x.1.tenantHotMinHitRate)))))))

def prefer (x y : Config ℚ × Metrics ℚ) : Bool :=
  better x.2 x.1 y.2 y.1

theorem comparesBy_rank : ComparesBy prefer rank := by
  intro x y
  simp only [prefer, better, rank, toLex_lt_toLex_iff_ite, eq_eq_asRat, lt_eq_asRat, neg_lt_neg_iff, ne_eq, neg_inj,
    Int32.toInt_inj, Int64.toInt_inj, ← Int32.lt_iff_toInt_lt, ← Int64.lt_iff_toInt_lt, Bool.ite_eq_true_distrib,
    decide_eq_true_eq, Bool.not_eq_true', decide_eq_false_iff_not]

theorem config_eq_of_rank {x y : Config ℚ × Metrics ℚ} (h : rank x = rank y) : x.1 = y.1 := by
  simp only [rank, EmbeddingLike.apply_eq_iff_eq, Prod.mk.injEq, neg_inj, Int32.toInt_inj, Int64.toInt_inj] at h
  have ⟨_, _, _, hp, hb, ht, ha, hr⟩ := h
  exact Config.ext hp ht hb hr ha

def Search.found (s : Search ℚ) : Option (Config ℚ × Metrics ℚ) :=
  if s.first then none else some (s.best, s.bestMetrics)

variable {trace : Trace ℚ} {orders : Nat → Nat → Orders} {s : Search ℚ} {c : Config ℚ} {l : List (Config ℚ)}

theorem Search.found_consider (os : Nat → Orders) : (s.consider orders trace c).found =
    keepBest prefer s.found (c, replay os trace c) := by
  rw [consider, replay_order trace c _ os, found, found]
  cases hs : s.first
  case true => simp [keepBest]
  case false =>
    by_cases hb : better (replay os trace c) c s.bestMetrics s.best = true
    case pos => simp [keepBest, prefer, hb]
    case neg => simp [keepBest, prefer, hb]

theorem Search.found_foldl (os : Nat → Orders) : (l.foldl (consider orders trace) s).found =
    (l.map fun c => (c, replay os trace c)).foldl (keepBest prefer) s.found := by
  induction l generalizing s
  case nil => rfl
  case cons c l hi => rw [List.foldl_cons, hi, found_consider os, List.map_cons, List.foldl_cons]

theorem isBest_bestGridPoint (trace : Trace ℚ) (orders : Nat → Nat → Orders) (h : trace.sweep.NonEmpty)
    (os : Nat → Orders) :
    IsBest rank (trace.sweep.grid.map fun c => (c, replay os trace c)) (bestGridPoint orders trace) := by
  have hn : (trace.sweep.grid.map fun c => (c, replay os trace c)) ≠ [] := by simpa using h.grid
  have ⟨x, hx, hb⟩ := comparesBy_rank.isBest_foldl hn
  have hf : (trace.sweep.grid.foldl (Search.consider orders trace) .start).found = some x := by
    rw [Search.found_foldl os]
    exact hx
  rw [Search.found] at hf
  split at hf
  case isTrue => cases hf
  case isFalse =>
    cases hf
    rwa [bestGridPoint_eq]

-- Each list has the same values, in any order and any number of times.
structure Sweep.SameValues (s s' : Sweep ℚ) : Prop where
  pressureWeights       : ∀ x, x ∈ s.pressureWeights ↔ x ∈ s'.pressureWeights
  sloTightTTFTMillis    : ∀ x, x ∈ s.sloTightTTFTMillis ↔ x ∈ s'.sloTightTTFTMillis
  sloTightBiases        : ∀ x, x ∈ s.sloTightBiases ↔ x ∈ s'.sloTightBiases
  tenantHotMinHitRates  : ∀ x, x ∈ s.tenantHotMinHitRates ↔ x ∈ s'.tenantHotMinHitRates
  tenantHotMaxAgeMillis : ∀ x, x ∈ s.tenantHotMaxAgeMillis ↔ x ∈ s'.tenantHotMaxAgeMillis

theorem Sweep.SameValues.contains_iff {s s' : Sweep ℚ} (h : s.SameValues s') : s.Contains c ↔ s'.Contains c := by
  constructor
  case mp =>
    intro hc
    exact ⟨(h.pressureWeights _).mp hc.pressureWeight, (h.sloTightTTFTMillis _).mp hc.sloTightTTFTMillis,
      (h.sloTightBiases _).mp hc.sloTightBias, (h.tenantHotMinHitRates _).mp hc.tenantHotMinHitRate,
      (h.tenantHotMaxAgeMillis _).mp hc.tenantHotMaxAgeMillis⟩
  case mpr =>
    intro hc
    exact ⟨(h.pressureWeights _).mpr hc.pressureWeight, (h.sloTightTTFTMillis _).mpr hc.sloTightTTFTMillis,
      (h.sloTightBiases _).mpr hc.sloTightBias, (h.tenantHotMinHitRates _).mpr hc.tenantHotMinHitRate,
      (h.tenantHotMaxAgeMillis _).mpr hc.tenantHotMaxAgeMillis⟩

theorem Sweep.SameValues.nonEmpty {s s' : Sweep ℚ} (h : s.SameValues s') (hs : s.NonEmpty) : s'.NonEmpty := by
  have hn {A : Type} {l l' : List A} (hm : ∀ x, x ∈ l ↔ x ∈ l') (hl : l ≠ []) : l' ≠ [] := by
    have ⟨x, hx⟩ := List.exists_mem_of_ne_nil _ hl
    exact List.ne_nil_of_mem ((hm x).mp hx)
  exact ⟨hn h.pressureWeights hs.pressureWeights, hn h.sloTightTTFTMillis hs.sloTightTTFTMillis,
    hn h.sloTightBiases hs.sloTightBiases, hn h.tenantHotMinHitRates hs.tenantHotMinHitRates,
    hn h.tenantHotMaxAgeMillis hs.tenantHotMaxAgeMillis⟩

-- The points of the grid with the metrics of their replays. A replay does not look at the sweep.
theorem mem_points (os : Nat → Orders) {x : Config ℚ × Metrics ℚ} :
    x ∈ (trace.sweep.grid.map fun c => (c, replay os trace c)) ↔
      trace.sweep.Contains x.1 ∧ x.2 = replay os trace x.1 := by
  simp only [List.mem_map, Sweep.mem_grid]
  constructor
  case mp =>
    rintro ⟨c, hc, rfl⟩
    exact ⟨hc, rfl⟩
  case mpr =>
    intro h
    exact ⟨x.1, h.left, Prod.ext rfl h.right.symm⟩

-- One request that two replicas could serve, and a sweep of two pressure weights.
def twoReplicas : Trace ℚ where
  ttlMillis    := 60000
  sweep        := ⟨[(2 : ℚ), (0 : ℚ)], [200], [(1 : ℚ)], [(0 : ℚ)], [300000]⟩
  observations := [⟨.ofPrefix, 10000, utf8 "t", utf8 "m", utf8 "s", utf8 "h", 0,
    [⟨utf8 "a", 9000, 9000, true, 32, 1, 1, false⟩, ⟨utf8 "b", 9000, 9000, true, 16, 1, 0, true⟩]⟩]

end Best

end Calibration

end InferenceCache
