import InferenceCache.Index.Theorems.Consistent

namespace InferenceCache

theorem PrefixKey.lt_iff {k₁ k₂ : PrefixKey} : k₁ < k₂ ↔
    if k₁.tenant ≠ k₂.tenant then k₁.tenant < k₂.tenant
    else if k₁.model ≠ k₂.model then k₁.model < k₂.model
    else if k₁.hashScheme ≠ k₂.hashScheme then k₁.hashScheme < k₂.hashScheme
    else if k₁.adapter ≠ k₂.adapter then k₁.adapter < k₂.adapter
    else k₁.prefixHash < k₂.prefixHash := by
  have h : k₁ < k₂ ↔ k₁.toLexTuple < k₂.toLexTuple := Iff.rfl
  simp only [h, toLexTuple, toLex_lt_toLex_iff_ite]

def CapRef.rank (c : CapRef) : Int ×ₗ Time ×ₗ PrefixKey ×ₗ GoString :=
  toLex (c.effectiveCount, toLex (c.lastSeen, toLex (c.key, c.replica)))

def CapRef.pair (c : CapRef) : PrefixKey × GoString :=
  (c.key, c.replica)

theorem CapRef.comparesBy_rank : ComparesBy CapRef.less CapRef.rank := by
  intro x y
  simp only [rank, toLex_lt_toLex_iff_ite, PrefixKey.lt_iff, less, Bool.ite_eq_true_distrib,
    decide_eq_true_eq]

namespace Index

variable {F : Type} {cfg : Config F} {i : Index F} {env env' : Env} {x : PrefixKey × GoString}

-- The entry at a pair. Reading one that is absent yields the zero value.
def held (i : Index F) (x : PrefixKey × GoString) : ReplicaEntry :=
  (i.entryAt x.1 x.2).getD ⟨0, 0, CacheTier.unspecified, 0⟩

def free (cfg : Config F) (i : Index F) : Finset (PrefixKey × GoString) :=
  i.pairs.filter fun x => ¬cfg.isReservedTenant x.1.tenant

def capRank (i : Index F) (env : Env) (x : PrefixKey × GoString) :
    Int ×ₗ Time ×ₗ PrefixKey ×ₗ GoString :=
  toLex (effectiveCount env x.1.tenant (i.held x), toLex ((i.held x).lastSeen, toLex x))

theorem capRank_injective : Function.Injective (i.capRank env) := by
  intro x y h
  simp only [capRank, EmbeddingLike.apply_eq_iff_eq, Prod.mk.injEq] at h
  exact h.2.2

theorem mem_free : x ∈ i.free cfg ↔ x ∈ i.pairs ∧ cfg.isReservedTenant x.1.tenant = false := by
  simp [free]

theorem entryAt_eq_none_of_notMem_free (hr : cfg.isReservedTenant x.1.tenant = false)
    (h : x ∉ i.free cfg) : i.entryAt x.1 x.2 = none := by
  simpa [mem_free, mem_pairs, hr] using h

theorem Consistent.free_card (h : Consistent cfg i) :
    i.totalEntries - i.reservedEntries = (i.free cfg).card := by
  have hc := i.pairs.card_filter_add_card_filter_not fun x => cfg.isReservedTenant x.1.tenant
  rw [h.total, h.reserved, free]
  omega

section Refs

def capRef (i : Index F) (env : Env) (x : PrefixKey × GoString) : CapRef :=
  ⟨x.1, x.2, env.evictionFor x.1.tenant, effectiveCount env x.1.tenant (i.held x),
    (i.held x).lastSeen⟩

theorem mem_capRefs {c : CapRef} : c ∈ i.capRefs cfg env ↔ ∃ x ∈ i.free cfg, c = i.capRef env x := by
  simp only [capRefs, List.mem_flatMap, RangeOrder.mem_range]
  constructor
  case mp =>
    rintro ⟨x, hx, hc⟩
    split at hc
    case isTrue => cases hc
    case isFalse hr =>
      have ⟨y, hy, hc⟩ := List.mem_map.mp hc
      have he : i.entryAt x.1 y.1 = some y.2 :=
        Finmap.lookup₂_eq_some_iff.mpr ⟨x.2, hx, RangeOrder.mem_range.mp hy⟩
      refine ⟨(x.1, y.1), ?_, ?_⟩
      case refine_1 => simp [mem_free, mem_pairs, he, hr]
      case refine_2 => simp [← hc, capRef, held, he]
  case mpr =>
    rintro ⟨x, hx, rfl⟩
    have ⟨hp, hr⟩ := mem_free.mp hx
    have ⟨e, he⟩ := Option.isSome_iff_exists.mp <| mem_pairs.mp hp
    have ⟨replicas, hk, hm⟩ := Finmap.lookup₂_eq_some_iff.mp he
    refine ⟨(x.1, replicas), hk, ?_⟩
    simp only [hr, Bool.false_eq_true, if_false, List.mem_map]
    exact ⟨(x.2, e), RangeOrder.mem_range.mpr hm, by simp [capRef, held, he]⟩

theorem capRefs_nodup : ((i.capRefs cfg env).map CapRef.pair).Nodup := by
  rw [capRefs, List.map_flatMap, List.nodup_flatMap]
  constructor
  case left =>
    intro x hx
    split
    case isTrue => exact List.nodup_nil
    case isFalse =>
      rw [List.map_map]
      refine RangeOrder.range_nodup.map_on fun y hy z hz h => ?_
      have he : y.1 = z.1 := congrArg Prod.snd h
      rw [RangeOrder.mem_range] at hy hz
      exact Prod.ext he <| Option.some_injective _ <| hy.symm.trans (he ▸ hz)
  case right =>
    have hk : ∀ (x : PrefixKey × GoMap GoString ReplicaEntry) p, p ∈ (if cfg.isReservedTenant x.1.tenant then [] else
        (((env.order 4).replicas x.1).range x.2).map fun r => (⟨x.1, r.1, env.evictionFor x.1.tenant,
          effectiveCount env x.1.tenant r.2, r.2.lastSeen⟩ : CapRef)).map CapRef.pair → p.1 = x.1 := by
      intro x p hp
      split at hp <;> simp at hp
      have ⟨_, _, _, h⟩ := hp
      exact (congrArg Prod.fst h).symm
    refine (List.pairwise_map.mp RangeOrder.range_keys_nodup).imp fun {x y} hxy p hp hp' => ?_
    exact hxy <| (hk x p hp).symm.trans (hk y p hp')

theorem capRefs_toFinset (env : Env) :
    ((i.capRefs cfg env).map CapRef.pair).toFinset = i.free cfg := by
  ext x
  simp only [List.mem_toFinset, List.mem_map, mem_capRefs]
  constructor
  case mp =>
    rintro ⟨_, ⟨y, hy, rfl⟩, rfl⟩
    exact hy
  case mpr =>
    intro hx
    exact ⟨_, ⟨x, hx, rfl⟩, rfl⟩

theorem capRefs_length : (i.capRefs cfg env).length = (i.free cfg).card := by
  rw [← capRefs_toFinset env, List.toFinset_card_of_nodup capRefs_nodup, List.length_map]

end Refs

def excess (cfg : Config F) (i : Index F) : Nat :=
  (i.free cfg).card - cfg.maxEntries.toNat

theorem free_removeReplicaLocked :
    (i.removeReplicaLocked cfg x.1 x.2).free cfg = (i.free cfg).erase x := by
  rw [free, pairs, entries_removeReplicaLocked, Finmap.keys_erase]
  exact Finset.filter_erase _ _ _

theorem evictOverCap_eq_drain {refs : List CapRef} {evicted : GoMap EvictionAlgo Int} :
    (evictOverCap cfg refs i evicted).1 =
      drain (fun i => cfg.maxEntries < i.totalEntries - i.reservedEntries)
        (fun i c => i.removeReplicaLocked cfg c.key c.replica) i refs := by
  induction refs generalizing i evicted
  case nil => rfl
  case cons c refs hi =>
    unfold Index.evictOverCap drain
    split
    case isTrue h => simp [not_lt.mpr h]
    case isFalse h => rw [hi, if_pos (decide_eq_true <| not_le.mp h)]

-- The guard reads counters that every removal changes, and what they say is how many entries count.
theorem Consistent.evictOverCap (h : Consistent cfg i) (hm : 0 < cfg.maxEntries) {refs : List CapRef}
    {evicted : GoMap EvictionAlgo Int} (hn : (refs.map CapRef.pair).Nodup)
    (hf : ∀ c ∈ refs, c.pair ∈ i.free cfg) :
    (evictOverCap cfg refs i evicted).1 =
      i.removeAll cfg ((refs.take (i.excess cfg)).map CapRef.pair) := by
  rw [evictOverCap_eq_drain, Index.removeAll, List.foldl_map]
  apply drain_eq_foldl (Consistent cfg) (free cfg) CapRef.pair ?guard ?inv ?erase h hn hf
  case guard =>
    intro i h
    rw [decide_eq_true_iff, h.free_card]
    omega
  case inv => exact fun _ _ h => h.removeReplicaLocked
  case erase => exact fun _ c _ => free_removeReplicaLocked (x := c.pair)

def capVictims (cfg : Config F) (i : Index F) (env : Env) : Finset (PrefixKey × GoString) :=
  i.pairs \ (i.enforceCapLocked cfg env).1.pairs

section CapStep

variable {v : Finset (PrefixKey × GoString)}

theorem Consistent.enforceCapLocked (h : Consistent cfg i) (env : Env) (hm : 0 < cfg.maxEntries) :
    ∃ l : List (PrefixKey × GoString),
      IsLowest (i.capRank env) (i.excess cfg) (i.free cfg) l.toFinset ∧
        (i.enforceCapLocked cfg env).1 = i.removeAll cfg l := by
  unfold Index.enforceCapLocked
  rw [h.free_card]
  split
  case isTrue hle =>
    have he : i.excess cfg = 0 := by unfold excess; omega
    exact ⟨[], he ▸ isLowest_zero, rfl⟩
  case isFalse =>
    refine ⟨_, ?_, h.evictOverCap hm ?_ ?_⟩
    case refine_1 =>
      rw [← capRefs_toFinset env]
      refine CapRef.comparesBy_rank.isLowest_take ?_ capRank_injective.injOn capRefs_nodup ?_
      case refine_1 =>
        intro c hc
        have ⟨x, _, hc⟩ := mem_capRefs.mp hc
        subst hc
        rfl
      case refine_2 =>
        rw [capRefs_length]
        exact Nat.sub_le _ _
    case refine_2 => exact (sortSlice_perm.map _).nodup_iff.mpr capRefs_nodup
    case refine_3 =>
      intro c hc
      have ⟨x, hx, hc⟩ := mem_capRefs.mp <| sortSlice_perm.mem_iff.mp hc
      exact hc ▸ hx

theorem Consistent.enforceCapLocked_spec (h : Consistent cfg i) (env : Env)
    (hm : 0 < cfg.maxEntries) :
    IsLowest (i.capRank env) (i.excess cfg) (i.free cfg) (i.capVictims cfg env) ∧
      (i.enforceCapLocked cfg env).1.entries = i.entries.filter fun x _ => x ∉ i.capVictims cfg env := by
  have ⟨l, hl, he⟩ := h.enforceCapLocked env hm
  have hs : l.toFinset ⊆ i.pairs := hl.subset.trans (Finset.filter_subset _ _)
  have hv : i.capVictims cfg env = l.toFinset := by
    rw [capVictims, he, pairs_removeAll, Finset.sdiff_sdiff_eq_self hs]
  refine ⟨hv ▸ hl, ?_⟩
  simp [hv, he, entries_removeAll]

theorem enforceCapLocked_of_unbounded (hm : ¬0 < cfg.maxEntries) :
    (i.enforceCapLocked cfg env).1 = i := by
  rw [Index.enforceCapLocked, if_pos (.inl <| not_lt.mp hm)]

theorem capVictims_of_unbounded (hm : ¬0 < cfg.maxEntries) : i.capVictims cfg env = ∅ := by
  rw [capVictims, enforceCapLocked_of_unbounded hm, Finset.sdiff_self]

theorem Consistent.entries_enforceCapLocked (h : Consistent cfg i) :
    (i.enforceCapLocked cfg env).1.entries = i.entries.filter fun x _ => x ∉ i.capVictims cfg env := by
  by_cases hm : 0 < cfg.maxEntries
  case pos => exact (h.enforceCapLocked_spec _ hm).2
  case neg =>
    rw [enforceCapLocked_of_unbounded hm, capVictims_of_unbounded hm]
    exact (Finmap.filter_eq_self fun _ _ _ => by simp).symm

theorem Consistent.capVictims_subset (h : Consistent cfg i) : i.capVictims cfg env ⊆ i.free cfg := by
  by_cases hm : 0 < cfg.maxEntries
  case pos => exact (h.enforceCapLocked_spec _ hm).1.subset
  case neg => rw [capVictims_of_unbounded hm]; exact Finset.empty_subset _

theorem stats_enforceCapLocked : (i.enforceCapLocked cfg env).1.stats = i.stats := by
  have ⟨_, he⟩ := enforceCapLocked_eq cfg i env
  exact he ▸ stats_removeAll

theorem capRank_congr (h : env.evictionResolver = env'.evictionResolver) :
    i.capRank env = i.capRank env' := by
  funext x
  simp only [capRank, effectiveCount, Env.evictionFor, h]

-- Neither the order in which the scan visits the entries nor the sorting algorithm matter.
theorem Consistent.capVictims_congr (h : Consistent cfg i) (hm : 0 < cfg.maxEntries)
    (he : env.evictionResolver = env'.evictionResolver) :
    i.capVictims cfg env = i.capVictims cfg env' := by
  have hv := (h.enforceCapLocked_spec env hm).1
  rw [capRank_congr he] at hv
  exact hv.unique (h.enforceCapLocked_spec _ hm).1

theorem Consistent.free_enforceCapLocked (h : Consistent cfg i) (hm : 0 < cfg.maxEntries) :
    ((i.enforceCapLocked cfg env).1.free cfg) = i.free cfg \ i.capVictims cfg env := by
  rw [free, pairs, (h.enforceCapLocked_spec _ hm).2, Finmap.keys_filter_key]
  ext x
  simp only [free, pairs, Finset.mem_filter, Finset.mem_sdiff, decide_eq_true_eq]
  tauto

theorem Consistent.free_card_le (h : Consistent cfg i) (hm : 0 < cfg.maxEntries) :
    (((i.enforceCapLocked cfg env).1.free cfg).card : Int) ≤ cfg.maxEntries := by
  have hv := (h.enforceCapLocked_spec env hm).1
  rw [h.free_enforceCapLocked hm, Finset.card_sdiff_of_subset hv.subset, hv.card, excess]
  omega

end CapStep

section Bound

theorem free_card_le_of_subset {j : Index F} (hp : j.pairs ⊆ i.pairs)
    (h : ((i.free cfg).card : Int) ≤ cfg.maxEntries) : ((j.free cfg).card : Int) ≤ cfg.maxEntries := by
  have := Finset.card_le_card <| Finset.filter_subset_filter
    (fun x => ¬cfg.isReservedTenant x.1.tenant) hp
  exact le_trans (by exact_mod_cast this) h

variable [GoFloat F]

theorem free_card_le_step (h : Consistent cfg i) (hm : 0 < cfg.maxEntries) {c : Call F × Env}
    (hi : ((i.free cfg).card : Int) ≤ cfg.maxEntries) :
    (((step cfg i c).free cfg).card : Int) ≤ cfg.maxEntries := by
  unfold step
  cases c.1
  case ingest u => exact h.beforeCap.free_card_le hm
  case applyEvent ev =>
    refine free_card_le_of_subset ?_ hi
    rw [pairs, entries_applyEvent]
    exact Finmap.keys_filter_subset
  case evictExpired =>
    refine free_card_le_of_subset ?_ hi
    rw [pairs, entries_evictExpired]
    exact Finmap.keys_filter_subset
  case creditHit key r =>
    refine free_card_le_of_subset (subset_of_eq ?_) hi
    rw [pairs, entries_creditHit]
    cases he : i.entryAt key r
    case none => rfl
    case some => exact Finmap.keys_insert_of_mem (mem_pairs_of_entryAt he)

theorem Reachable.free_card_le (h : Reachable cfg i) (hm : 0 < cfg.maxEntries) :
    ((i.free cfg).card : Int) ≤ cfg.maxEntries := by
  let P := fun i : Index F => Consistent cfg i ∧ ((i.free cfg).card : Int) ≤ cfg.maxEntries
  have hn : P new := ⟨.new, by simpa [free, pairs, entries, new] using hm.le⟩
  exact (h.induction hn fun _ _ hi => ⟨hi.1.step, free_card_le_step hi.1 hm hi.2⟩).2

end Bound

section Enforced

variable [GoFloat F]

theorem cap_enforced (cfg : Config F) (i : Index F) (h : Reachable cfg i) (hm : 0 < cfg.maxEntries) :
    ((i.free cfg).card : Int) ≤ cfg.maxEntries ∧
    ∀ (env : Env) (u : Update F),
      let j := i.beforeCap cfg env u
      IsLowest (j.capRank env) ((j.free cfg).card - cfg.maxEntries.toNat) (j.free cfg)
        (j.capVictims cfg env) ∧
      (i.ingest cfg env u).entries = j.entries.filter (fun x _ => x ∉ j.capVictims cfg env) ∧
      ∀ env' : Env, env.evictionResolver = env'.evictionResolver →
        j.capVictims cfg env = j.capVictims cfg env' := by
  refine ⟨h.free_card_le hm, fun env u => ?_⟩
  have hj : Consistent cfg (i.beforeCap cfg env u) := h.consistent.beforeCap
  have ⟨hv, he⟩ := hj.enforceCapLocked_spec env hm
  exact ⟨hv, he, fun _ => hj.capVictims_congr hm⟩

end Enforced

section

-- A cap of one entry, and two replicas that report the same prefix one after the other.
def tight : Config ℚ :=
  .new 0 1 .default []

def reports : List (Call ℚ × Env) :=
  [(.ingest <| .single [0x74] [0x61] [1] 1, .still 9), (.ingest <| .single [0x74] [0x62] [1] 2, .still 9)]

theorem cap_enforced_reports :
    (((run tight reports).free tight).card : Int) ≤ 1 ∧
      (run tight reports).entryAt ⟨[0x74], [0x6d], [0x73], [], [1]⟩ [0x62] = some ⟨16, 2, 1, 0⟩ :=
  ⟨(cap_enforced tight _ ⟨reports, rfl⟩ (by decide)).1, by decide +kernel⟩

end

end Index

end InferenceCache
