import InferenceCache.Lib.Group
import InferenceCache.Index.Theorems.Isolation

namespace InferenceCache.Index

variable {F : Type} {cfg : Config F} {i : Index F} {env env' : Env} {tr : TenantReplica}

section Latest

-- Stats of a replica that none of its other models has newer ones than.
structure Newest (cfg : Config F) (i : Index F) (sk : StatsKey) (s : StatEntry F) : Prop where
  held   : i.stats.lookup sk = some s
  real   : cfg.isReservedTenant sk.tenant = false
  newest : ∀ sk' s', i.stats.lookup sk' = some s' → sk'.tenantReplica = sk.tenantReplica →
    s'.lastSeen ≤ s.lastSeen

-- What a row shows of the stats it is made from.
structure SameStats (s s' : StatEntry F) : Prop where
  cacheMemoryBytes : s.stats.cacheMemoryBytes = s'.stats.cacheMemoryBytes
  hitRate          : s.stats.hitRate = s'.stats.hitRate
  pressure         : s.stats.pressure = s'.stats.pressure
  t2HitTokens      : s.stats.t2HitTokens = s'.stats.t2HitTokens
  t2QueryTokens    : s.stats.t2QueryTokens = s'.stats.t2QueryTokens

-- Wherever several models of a replica have its newest stats, they have the same.
def Untied (cfg : Config F) (i : Index F) : Prop :=
  ∀ sk s sk' s', Newest cfg i sk s → Newest cfg i sk' s' → sk.tenantReplica = sk'.tenantReplica →
    SameStats s s'

def newer (cur? : Option (StatEntry F)) (x : StatsKey × StatEntry F) : StatEntry F :=
  match cur? with
  | some cur => if cur.lastSeen < x.2.lastSeen then x.2 else cur
  | none     => x.2

def realStats (cfg : Config F) (i : Index F) (env : Env) : List (StatsKey × StatEntry F) :=
  ((env.order 0).stats.range i.stats).filter fun x => !cfg.isReservedTenant x.1.tenant

theorem mem_realStats {x : StatsKey × StatEntry F} : x ∈ i.realStats cfg env ↔
    i.stats.lookup x.1 = some x.2 ∧ cfg.isReservedTenant x.1.tenant = false := by
  rw [realStats, List.mem_filter, RangeOrder.mem_range, Bool.not_eq_true']

theorem latestByReplica_eq : i.latestByReplica cfg env =
    Finmap.group (fun x => x.1.tenantReplica) newer (i.realStats cfg env) ∅ := by
  rw [latestByReplica, Finmap.group, realStats, List.foldl_filter]
  congr 1
  funext latest x
  cases hr : cfg.isReservedTenant x.1.tenant
  case true => rfl
  case false =>
    cases hl : latest.lookup x.1.tenantReplica
    case none => simp [newer]
    case some cur =>
      by_cases hn : cur.lastSeen < x.2.lastSeen
      case pos => simp [newer, hn]
      case neg => simp [newer, hn, Finmap.insert_of_lookup hl]

-- Once the newest stats have been visited, they stay.
theorem foldl_newer_of_le {l : List (StatsKey × StatEntry F)} {s : StatEntry F}
    (h : ∀ x ∈ l, x.2.lastSeen ≤ s.lastSeen) :
    l.foldl (fun v x => some (newer v x)) (some s) = some s := by
  induction l
  case nil => rfl
  case cons x l hi =>
    have ⟨hx, h⟩ := List.forall_mem_cons.mp h
    have hn : newer (some s) x = s := if_neg (not_lt.mpr hx)
    rw [List.foldl_cons, hn, hi h]

theorem newer_spec (v : Option (StatEntry F)) (x : StatsKey × StatEntry F) :
    x.2.lastSeen ≤ (newer v x).lastSeen ∧ (∀ t ∈ v, t.lastSeen ≤ (newer v x).lastSeen) ∧
      (v = some (newer v x) ∨ x.2 = newer v x) := by
  cases v
  case none => exact ⟨le_rfl, fun t ht => (by cases ht), .inr rfl⟩
  case some t =>
    by_cases hn : t.lastSeen < x.2.lastSeen
    case pos => simp [newer, hn, le_of_lt hn]
    case neg => simp [newer, hn, not_lt.mp hn]

theorem foldl_newer {l : List (StatsKey × StatEntry F)} {v : Option (StatEntry F)} {s : StatEntry F}
    (h : l.foldl (fun v x => some (newer v x)) v = some s) :
    (v = some s ∨ ∃ x ∈ l, x.2 = s) ∧ (∀ t ∈ v, t.lastSeen ≤ s.lastSeen) ∧
      ∀ x ∈ l, x.2.lastSeen ≤ s.lastSeen := by
  induction l generalizing v
  case nil =>
    have hv : v = some s := h
    exact ⟨.inl hv, fun t ht => by cases ht.symm.trans hv; exact le_rfl, fun x hx => by cases hx⟩
  case cons x l hi =>
    have ⟨hm, hb, hl⟩ := hi h
    have hb : (newer v x).lastSeen ≤ s.lastSeen := hb _ rfl
    have hx := newer_spec v x
    refine ⟨?_, fun t ht => (hx.2.1 t ht).trans hb, List.forall_mem_cons.mpr ⟨hx.1.trans hb, hl⟩⟩
    rcases hm with hm | ⟨y, hy, he⟩
    case inr => exact .inr ⟨y, .tail _ hy, he⟩
    case inl =>
      cases Option.some.inj hm
      exact hx.2.2.imp id fun he => ⟨x, .head _, he⟩

theorem newest_of_lookup {s : StatEntry F} (h : (i.latestByReplica cfg env).lookup tr = some s) :
    ∃ sk, sk.tenantReplica = tr ∧ Newest cfg i sk s := by
  rw [latestByReplica_eq, Finmap.lookup_group] at h
  have ⟨hm, _, hb⟩ := foldl_newer h
  rcases hm with hm | ⟨x, hx, he⟩
  case inl => simp at hm
  case inr =>
    rw [List.mem_filter, mem_realStats, decide_eq_true_iff] at hx
    have ⟨⟨hl, hr⟩, hk⟩ := hx
    refine ⟨x.1, hk, he ▸ hl, hr, fun sk' s' hl' hk' => ?_⟩
    refine hb (sk', s') ?_
    rw [List.mem_filter, mem_realStats, decide_eq_true_iff]
    have ht : sk'.tenant = x.1.tenant := congrArg TenantReplica.tenant hk'
    exact ⟨⟨hl', ht ▸ hr⟩, hk'.trans hk⟩

theorem isSome_latestByReplica : ((i.latestByReplica cfg env).lookup tr).isSome ↔
    ∃ sk s, i.stats.lookup sk = some s ∧ cfg.isReservedTenant sk.tenant = false ∧ sk.tenantReplica = tr := by
  rw [latestByReplica_eq, Finmap.isSome_lookup_group]
  simp only [Finmap.lookup_empty, Option.isSome_none, Bool.false_eq_true, false_or, Prod.exists, mem_realStats,
    and_assoc]

-- The newest stats of a replica that are visited before all others are the ones shown.
theorem lookup_latestByReplica_first {sk : StatsKey} {s : StatEntry F} (h : Newest cfg i sk s)
    (ho : (env.order 0).stats = RangeOrder.first sk .ascending) :
    (i.latestByReplica cfg env).lookup sk.tenantReplica = some s := by
  have ⟨l, hl⟩ := RangeOrder.range_first (o := .ascending) h.held
  rw [← ho] at hl
  have hm : ∀ x ∈ l, i.stats.lookup x.1 = some x.2 := fun x hx =>
    RangeOrder.mem_range.mp (hl ▸ List.mem_cons_of_mem _ hx)
  rw [latestByReplica_eq, Finmap.lookup_group, realStats, hl, List.filter_cons, if_pos (by simp [h.real]),
    List.filter_cons, if_pos (by simp), List.foldl_cons]
  refine foldl_newer_of_le fun x hx => ?_
  rw [List.mem_filter, List.mem_filter, decide_eq_true_iff] at hx
  exact h.newest x.1 x.2 (hm x hx.1.1) hx.2

end Latest

section Held

abbrev Holding := (PrefixKey × GoString) × ReplicaEntry

def Holding.tenantReplica (y : Holding) : TenantReplica :=
  ⟨y.1.1.tenant, y.1.2⟩

-- The entries that are not reserved, in the order they are visited.
def holdings (cfg : Config F) (i : Index F) (env : Env) : List Holding :=
  ((env.order 1).prefixes.range i.prefixes).flatMap fun x =>
    if cfg.isReservedTenant x.1.tenant then []
    else (((env.order 2).replicas x.1).range x.2).map fun r => ((x.1, r.1), r.2)

def addTo (a? : Option ReplicaPrefixAgg) (y : Holding) : ReplicaPrefixAgg :=
  ⟨(a?.getD ⟨0, 0⟩).count + 1,
    if (a?.getD ⟨0, 0⟩).lastEventAt < y.2.lastSeen then y.2.lastSeen else (a?.getD ⟨0, 0⟩).lastEventAt⟩

theorem mem_holdings {y : Holding} : y ∈ i.holdings cfg env ↔
    i.entryAt y.1.1 y.1.2 = some y.2 ∧ cfg.isReservedTenant y.1.1.tenant = false := by
  rw [holdings, List.mem_flatMap]
  constructor
  case mp =>
    rintro ⟨x, hx, hy⟩
    split at hy
    case isTrue => cases hy
    case isFalse hr =>
      have ⟨r, hm, he⟩ := List.mem_map.mp hy
      rw [← he]
      exact ⟨Finmap.lookup₂_eq_some_iff.mpr ⟨x.2, RangeOrder.mem_range.mp hx, RangeOrder.mem_range.mp hm⟩,
        Bool.eq_false_iff.mpr hr⟩
  case mpr =>
    rintro ⟨he, hr⟩
    have ⟨m, hm, hl⟩ := Finmap.lookup₂_eq_some_iff.mp he
    refine ⟨(y.1.1, m), RangeOrder.mem_range.mpr hm, ?_⟩
    rw [if_neg (Bool.eq_false_iff.mp hr)]
    exact List.mem_map.mpr ⟨(y.1.2, y.2), RangeOrder.mem_range.mpr hl, rfl⟩

theorem nodup_holdings_keys : ((i.holdings cfg env).map Prod.fst).Nodup := by
  rw [holdings, List.map_flatMap, List.nodup_flatMap]
  constructor
  case left =>
    intro x _
    split
    case isTrue => exact List.nodup_nil
    case isFalse =>
      rw [List.map_map]
      exact (List.pairwise_map.mp RangeOrder.range_keys_nodup).map _ fun a b hab he => hab (Prod.mk.inj he).2
  case right =>
    have hk := List.pairwise_map.mp (RangeOrder.range_keys_nodup (o := (env.order 1).prefixes) (m := i.prefixes))
    refine hk.imp fun {x x'} hne => ?_
    intro y hy hy'
    have hf (z : PrefixKey × GoMap GoString ReplicaEntry) (hz : y ∈ (if cfg.isReservedTenant z.1.tenant then []
        else (((env.order 2).replicas z.1).range z.2).map fun r => ((z.1, r.1), r.2)).map Prod.fst) :
        y.1 = z.1 := by
      have ⟨w, hw, he⟩ := List.mem_map.mp hz
      split at hw
      case isTrue => cases hw
      case isFalse =>
        have ⟨r, _, hr⟩ := List.mem_map.mp hw
        rw [← he, ← hr]
    exact hne ((hf x hy).symm.trans (hf x' hy'))

theorem holdings_perm : (i.holdings cfg env).Perm (i.holdings cfg env') :=
  (List.perm_ext_iff_of_nodup nodup_holdings_keys.of_map nodup_holdings_keys.of_map).mpr fun _ =>
    mem_holdings.trans mem_holdings.symm

theorem prefixByReplica_eq : i.prefixByReplica cfg env =
    Finmap.group Holding.tenantReplica addTo (i.holdings cfg env) ∅ := by
  rw [prefixByReplica, Finmap.group, holdings, List.foldl_flatMap]
  congr 1
  funext held x
  split
  case isTrue => rfl
  case isFalse =>
    rw [List.foldl_map]
    rfl

theorem prefixByReplica_order (env env' : Env) : i.prefixByReplica cfg env = i.prefixByReplica cfg env' := by
  rw [prefixByReplica_eq, prefixByReplica_eq]
  refine Finmap.group_perm holdings_perm fun x _ y _ v _ => ?_
  have hm (a b : Time) : (if a < b then b else a) = max a b := by
    split
    case isTrue h => exact (max_eq_right (le_of_lt h)).symm
    case isFalse h => exact (max_eq_left (not_lt.mp h)).symm
  simp only [addTo, Option.getD_some, hm]
  rw [max_assoc, max_comm x.2.lastSeen, ← max_assoc]

theorem foldl_addTo_count {l : List Holding} {v : Option ReplicaPrefixAgg} :
    ((l.foldl (fun v y => some (addTo v y)) v).map ReplicaPrefixAgg.count).getD 0 =
      (v.map ReplicaPrefixAgg.count).getD 0 + l.length := by
  induction l generalizing v
  case nil => simp
  case cons y l hi =>
    rw [List.foldl_cons, hi, List.length_cons]
    cases v <;> simp [addTo] <;> omega

theorem mem_free_iff_holdings (env : Env) {x : PrefixKey × GoString} :
    x ∈ i.free cfg ↔ ∃ y ∈ i.holdings cfg env, y.1 = x := by
  rw [mem_free, mem_pairs]
  constructor
  case mp =>
    rintro ⟨hs, hr⟩
    have ⟨e, he⟩ := Option.isSome_iff_exists.mp hs
    exact ⟨(x, e), mem_holdings.mpr ⟨he, hr⟩, rfl⟩
  case mpr =>
    rintro ⟨y, hy, he⟩
    have ⟨hl, hr⟩ := mem_holdings.mp hy
    rw [← he]
    exact ⟨Option.isSome_of_eq_some hl, hr⟩

-- A replica is said to hold as many prefixes as it has entries.
theorem count_prefixByReplica :
    (((i.prefixByReplica cfg env).lookup tr).map ReplicaPrefixAgg.count).getD 0 =
      (((i.free cfg).filter fun x => (⟨x.1.tenant, x.2⟩ : TenantReplica) = tr).card : Int) := by
  rw [prefixByReplica_eq, Finmap.lookup_group, foldl_addTo_count, Finmap.lookup_empty, Option.map_none,
    Option.getD_none, zero_add, Nat.cast_inj]
  have hs : (((i.holdings cfg env).filter (Holding.tenantReplica · = tr)).map Prod.fst).toFinset =
      (i.free cfg).filter fun x => (⟨x.1.tenant, x.2⟩ : TenantReplica) = tr := by
    ext x
    rw [List.mem_toFinset, Finset.mem_filter, mem_free_iff_holdings env]
    constructor
    case mp =>
      intro hx
      have ⟨y, hy, he⟩ := List.mem_map.mp hx
      rw [List.mem_filter, decide_eq_true_iff] at hy
      subst he
      exact ⟨⟨y, hy.1, rfl⟩, hy.2⟩
    case mpr =>
      rintro ⟨⟨y, hy, he⟩, ht⟩
      subst he
      exact List.mem_map_of_mem (List.mem_filter.mpr ⟨hy, decide_eq_true ht⟩)
  rw [← hs, List.toFinset_card_of_nodup, List.length_map]
  exact nodup_holdings_keys.sublist (List.filter_sublist.map _)

theorem isSome_prefixByReplica : ((i.prefixByReplica cfg env).lookup tr).isSome ↔
    ∃ x ∈ i.free cfg, (⟨x.1.tenant, x.2⟩ : TenantReplica) = tr := by
  rw [prefixByReplica_eq, Finmap.isSome_lookup_group]
  simp only [Finmap.lookup_empty, Option.isSome_none, Bool.false_eq_true, false_or]
  constructor
  case mp =>
    rintro ⟨y, hy, he⟩
    exact ⟨y.1, (mem_free_iff_holdings env).mpr ⟨y, hy, rfl⟩, he⟩
  case mpr =>
    rintro ⟨x, hx, he⟩
    have ⟨y, hy, hyx⟩ := (mem_free_iff_holdings env).mp hx
    subst hyx
    exact ⟨y, hy, he⟩

end Held

section Rows

variable [GoFloat F] {pairs pairs' : Nat → RangeOrder TenantReplica}

def shownReplicas (cfg : Config F) (i : Index F) (env : Env) : Finset TenantReplica :=
  (i.latestByReplica cfg env).keys ∪ (i.prefixByReplica cfg env).keys

def rowOf (cfg : Config F) (i : Index F) (env : Env) (tr : TenantReplica) : ReplicaSnapshot F :=
  replicaSnapshot tr ((i.latestByReplica cfg env).lookup tr) ((i.prefixByReplica cfg env).lookup tr)

theorem replicas_snapshot : (i.snapshot cfg env pairs).replicas =
    sortSlice ReplicaSnapshot.less (((pairs 2).list (i.shownReplicas cfg env)).map (i.rowOf cfg env)) := by
  have hs : (((pairs 1).range (i.prefixByReplica cfg env)).foldl (fun seen x => seen.insert x.1 ())
      (((pairs 0).range (i.latestByReplica cfg env)).foldl (fun seen x => seen.insert x.1 ())
        (∅ : GoMap TenantReplica Unit))).keys = i.shownReplicas cfg env := by
    rw [Finmap.keys_foldl_insert, Finmap.keys_foldl_insert, RangeOrder.range_keys, RangeOrder.range_keys,
      RangeOrder.toFinset_list, RangeOrder.toFinset_list, Finmap.keys_empty, Finset.empty_union]
    rfl
  rw [← hs, ← RangeOrder.range_keys, List.map_map]
  rfl

omit [GoFloat F] in
theorem comparesBy_less : ComparesBy ReplicaSnapshot.less
    fun r : ReplicaSnapshot F => toLex (r.tenant, r.replicaID) := by
  intro a b
  rw [toLex_lt_toLex_iff_ite, ReplicaSnapshot.less]
  split <;> simp

theorem nodup_rows {l : List TenantReplica} (h : l.Nodup) :
    ((l.map (i.rowOf cfg env)).map fun r => toLex (r.tenant, r.replicaID)).Nodup := by
  rw [List.map_map]
  refine h.map fun a b he => ?_
  have ⟨ht, hr⟩ := Prod.mk.inj (toLex.injective he)
  cases a
  cases b
  exact congrArg₂ TenantReplica.mk ht hr

theorem sorted_replicas : (i.snapshot cfg env pairs).replicas.Pairwise
    fun a b => toLex (a.tenant, a.replicaID) < toLex (b.tenant, b.replicaID) := by
  rw [replicas_snapshot]
  exact comparesBy_less.pairwise_lt_sortSlice (nodup_rows ((pairs 2).nodup _))

theorem mem_replicas {r : ReplicaSnapshot F} : r ∈ (i.snapshot cfg env pairs).replicas ↔
    ∃ tr ∈ i.shownReplicas cfg env, i.rowOf cfg env tr = r := by
  rw [replicas_snapshot, sortSlice_perm.mem_iff, List.mem_map]
  simp only [RangeOrder.mem_list]

end Rows

section Tenants

variable [GoFloat F] {pairs pairs' : Nat → RangeOrder TenantReplica}

omit [GoFloat F] in
theorem foldl_emit (row : GoString → TenantSnapshot F) (l : List GoString) {ts : List GoString}
    {seen : GoMap GoString Unit} (hn : ts.Nodup) (hs : ts.toFinset = seen.keys) :
    ∃ (ts' : List GoString) (seen' : GoMap GoString Unit),
      l.foldl (emit row) (seen, ts.map row) = (seen', ts'.map row) ∧ ts'.Nodup ∧
      ts'.toFinset = seen'.keys ∧ seen'.keys = seen.keys ∪ l.toFinset := by
  induction l generalizing ts seen
  case nil => exact ⟨ts, seen, rfl, hn, hs, by simp⟩
  case cons t l hi =>
    rw [List.foldl_cons, List.toFinset_cons, Finset.union_insert, ← Finset.insert_union]
    cases ht : seen.lookup t
    case some u =>
      have he : emit row (seen, ts.map row) t = (seen, ts.map row) := by simp [emit, ht]
      rw [he, Finset.insert_eq_of_mem (Finmap.mem_keys_of_lookup ht)]
      exact hi hn hs
    case none =>
      have he : emit row (seen, ts.map row) t = (seen.insert t (), (ts ++ [t]).map row) := by
        simp [emit, ht]
      have hm : t ∉ ts := fun hm => Finmap.notMem_keys_iff.mpr ht (hs ▸ List.mem_toFinset.mpr hm)
      rw [he, ← Finmap.keys_insert]
      refine hi (List.nodup_append.mpr ⟨hn, List.nodup_singleton t, ?_⟩) ?_
      case refine_1 =>
        intro a ha b hb he
        exact hm (List.mem_singleton.mp hb ▸ he ▸ ha)
      case refine_2 =>
        rw [List.toFinset_append, hs, Finmap.keys_insert, Finset.union_comm]
        rfl

def hitsByTenant (cfg : Config F) (i : Index F) (env : Env) (o : RangeOrder TenantReplica) :
    GoMap GoString (TenantAgg F) :=
  (o.range (i.latestByReplica cfg env)).foldl (fun byTenant x => addHit byTenant x.1.tenant x.2.stats.hitRate) ∅

def tenantRow (cfg : Config F) (i : Index F) (env : Env) (o : RangeOrder TenantReplica) (tenant : GoString) :
    TenantSnapshot F :=
  tenantSnapshot tenant ((i.hitsByTenant cfg env o).lookup tenant)
    ((i.aggregateLocked cfg env).perTenant.count tenant)

def shownTenants (cfg : Config F) (i : Index F) (env : Env) (o : RangeOrder TenantReplica) : Finset GoString :=
  (i.hitsByTenant cfg env o).keys ∪ (i.aggregateLocked cfg env).perTenant.keys

theorem tenants_snapshot (cfg : Config F) (i : Index F) (env : Env) (pairs : Nat → RangeOrder TenantReplica) :
    ∃ ts : List GoString, ts.Nodup ∧ ts.toFinset = i.shownTenants cfg env (pairs 3) ∧
      (i.snapshot cfg env pairs).tenants =
        sortSlice (fun a b => a.tenantID < b.tenantID) (ts.map (i.tenantRow cfg env (pairs 3))) := by
  have h₀ : ([] : List GoString).toFinset = (∅ : GoMap GoString Unit).keys := rfl
  have ⟨ts, seen, he, hn, hs, hk⟩ := foldl_emit (i.tenantRow cfg env (pairs 3))
    (((env.order 3).ids.range (i.hitsByTenant cfg env (pairs 3))).map Prod.fst) List.nodup_nil h₀
  have ⟨ts', seen', he', hn', hs', hk'⟩ := foldl_emit (i.tenantRow cfg env (pairs 3))
    (((env.order 4).ids.range (i.aggregateLocked cfg env).perTenant).map Prod.fst) hn hs
  refine ⟨ts', hn', ?_, ?_⟩
  case refine_1 =>
    rw [hs', hk', hk, RangeOrder.range_keys, RangeOrder.range_keys, RangeOrder.toFinset_list,
      RangeOrder.toFinset_list, Finmap.keys_empty, Finset.empty_union]
    rfl
  case refine_2 =>
    rw [← he] at he'
    exact congrArg (sortSlice _) (congrArg Prod.snd he')

theorem sorted_tenants : (i.snapshot cfg env pairs).tenants.Pairwise fun a b => a.tenantID < b.tenantID := by
  have ⟨ts, hn, _, he⟩ := tenants_snapshot cfg i env pairs
  have hc : ComparesBy (fun a b : TenantSnapshot F => decide (a.tenantID < b.tenantID)) TenantSnapshot.tenantID :=
    fun _ _ => decide_eq_true_iff
  rw [he]
  refine hc.pairwise_lt_sortSlice ?_
  rwa [List.map_map, show TenantSnapshot.tenantID ∘ i.tenantRow cfg env (pairs 3) = id from rfl, List.map_id]

theorem mem_tenants {t : TenantSnapshot F} : t ∈ (i.snapshot cfg env pairs).tenants ↔
    ∃ tenant ∈ i.shownTenants cfg env (pairs 3), i.tenantRow cfg env (pairs 3) tenant = t := by
  have ⟨ts, _, hs, he⟩ := tenants_snapshot cfg i env pairs
  rw [he, sortSlice_perm.mem_iff, List.mem_map, ← hs]
  simp only [List.mem_toFinset]

def addRate (a? : Option (TenantAgg F)) (x : TenantReplica × F) : TenantAgg F :=
  ⟨(a?.getD ⟨0, 0⟩).sumHit + GoFloat.widen x.2, (a?.getD ⟨0, 0⟩).n + 1⟩

theorem hitsByTenant_eq {o : RangeOrder TenantReplica} : i.hitsByTenant cfg env o =
    Finmap.group (·.1.tenant) addRate
      ((o.range (i.latestByReplica cfg env)).map fun x => (x.1, x.2.stats.hitRate)) ∅ := by
  rw [Finmap.group, List.foldl_map]
  rfl

theorem mem_keys_hitsByTenant {o : RangeOrder TenantReplica} {tenant : GoString} :
    tenant ∈ (i.hitsByTenant cfg env o).keys ↔
      ∃ tr ∈ (i.latestByReplica cfg env).keys, tr.tenant = tenant := by
  rw [Finmap.mem_keys_iff, hitsByTenant_eq, Finmap.isSome_lookup_group]
  simp only [Finmap.lookup_empty, Option.isSome_none, Bool.false_eq_true, false_or, List.mem_map]
  constructor
  case mp =>
    rintro ⟨_, ⟨x, hx, he⟩, ht⟩
    subst he
    exact ⟨x.1, Finmap.mem_keys_of_lookup (RangeOrder.mem_range.mp hx), ht⟩
  case mpr =>
    rintro ⟨tr, hk, ht⟩
    have ⟨s, hs⟩ := Option.isSome_iff_exists.mp (Finmap.mem_keys_iff.mp hk)
    exact ⟨_, ⟨(tr, s), RangeOrder.mem_range.mpr hs, rfl⟩, ht⟩

end Tenants

section Real

variable [GoFloat F] {pairs : Nat → RangeOrder TenantReplica}

omit [GoFloat F] in
theorem real_of_mem_latest (h : tr ∈ (i.latestByReplica cfg env).keys) :
    cfg.isReservedTenant tr.tenant = false := by
  have ⟨sk, _, _, hr, he⟩ := isSome_latestByReplica.mp (Finmap.mem_keys_iff.mp h)
  exact congrArg TenantReplica.tenant he ▸ hr

omit [GoFloat F] in
theorem real_of_mem_shownReplicas (h : tr ∈ i.shownReplicas cfg env) :
    cfg.isReservedTenant tr.tenant = false := by
  cases Finset.mem_union.mp h
  case inl h => exact real_of_mem_latest h
  case inr h =>
    have ⟨x, hx, he⟩ := isSome_prefixByReplica.mp (Finmap.mem_keys_iff.mp h)
    exact congrArg TenantReplica.tenant he ▸ (mem_free.mp hx).2

omit [GoFloat F] in
theorem mem_keys_perTenant {tenant : GoString} : tenant ∈ (i.aggregateLocked cfg env).perTenant.keys ↔
    ∃ key ∈ i.realKeys cfg, key.tenant = tenant := by
  have hn := ((aggregateLocked_spec cfg i env).1.lookup_eq_none_iff tenant).not
  rw [← ne_eq, Option.ne_none_iff_isSome] at hn
  rw [Finmap.mem_keys_iff, hn]
  push Not
  rfl

theorem real_of_mem_shownTenants {o : RangeOrder TenantReplica} {tenant : GoString}
    (h : tenant ∈ i.shownTenants cfg env o) : cfg.isReservedTenant tenant = false := by
  cases Finset.mem_union.mp h
  case inl h =>
    have ⟨tr, hk, ht⟩ := mem_keys_hitsByTenant.mp h
    exact ht ▸ real_of_mem_latest hk
  case inr h =>
    have ⟨key, hk, ht⟩ := mem_keys_perTenant.mp h
    rw [realKeys, Finset.mem_filter, Bool.not_eq_true'] at hk
    exact ht ▸ hk.2

omit [GoFloat F] in
theorem count_perTenant (env : Env) (h : Consistent cfg i) {tenant : GoString}
    (hr : cfg.isReservedTenant tenant = false) :
    (i.aggregateLocked cfg env).perTenant.count tenant = i.prefixesByTenant.count tenant := by
  rw [(aggregateLocked_spec cfg i env).1.count_eq, h.byTenant.count_eq, realKeys, Finset.filter_filter]
  congr 2
  refine Finset.filter_congr fun key _ => ⟨And.right, fun ht => ⟨?_, ht⟩⟩
  rw [ht, hr]
  rfl

theorem sum_indexEntries : ((i.snapshot cfg env pairs).tenants.map TenantSnapshot.indexEntries).sum =
    (i.snapshot cfg env pairs).totalPrefixes := by
  have ⟨hp, ht⟩ := aggregateLocked_spec cfg i env
  have ⟨ts, hn, hs, he⟩ := tenants_snapshot cfg i env pairs
  have hc : ∀ key ∈ i.realKeys cfg, key.tenant ∈ i.shownTenants cfg env (pairs 3) := fun key hk =>
    Finset.mem_union_right _ (mem_keys_perTenant.mpr ⟨key, hk, rfl⟩)
  calc ((i.snapshot cfg env pairs).tenants.map TenantSnapshot.indexEntries).sum
    _ = (ts.map fun t => (i.aggregateLocked cfg env).perTenant.count t).sum := by
        rw [he, (sortSlice_perm.map _).sum_eq, List.map_map]
        rfl
    _ = ∑ t ∈ i.shownTenants cfg env (pairs 3), (i.aggregateLocked cfg env).perTenant.count t := by
        rw [← hs, List.sum_toFinset _ hn]
    _ = ((i.realKeys cfg).card : Int) := by
        rw [Finset.card_eq_sum_card_fiberwise hc, Nat.cast_sum]
        exact Finset.sum_congr rfl fun t _ => hp.count_eq t
    _ = (i.snapshot cfg env pairs).totalPrefixes := ht.symm

theorem sum_prefixCount (h : Consistent cfg i) :
    ((i.snapshot cfg env pairs).replicas.map ReplicaSnapshot.prefixCount).sum =
      i.totalEntries - i.reservedEntries := by
  have hc : ∀ x ∈ i.free cfg, (⟨x.1.tenant, x.2⟩ : TenantReplica) ∈ i.shownReplicas cfg env := fun x hx =>
    Finset.mem_union_right _ (Finmap.mem_keys_iff.mpr (isSome_prefixByReplica.mpr ⟨x, hx, rfl⟩))
  calc ((i.snapshot cfg env pairs).replicas.map ReplicaSnapshot.prefixCount).sum
    _ = (((pairs 2).list (i.shownReplicas cfg env)).map fun tr =>
          (((i.prefixByReplica cfg env).lookup tr).map ReplicaPrefixAgg.count).getD 0).sum := by
        rw [replicas_snapshot, (sortSlice_perm.map _).sum_eq, List.map_map]
        rfl
    _ = ∑ tr ∈ i.shownReplicas cfg env,
          (((i.prefixByReplica cfg env).lookup tr).map ReplicaPrefixAgg.count).getD 0 := by
        rw [← List.sum_toFinset _ ((pairs 2).nodup _), RangeOrder.toFinset_list]
    _ = ((i.free cfg).card : Int) := by
        rw [Finset.card_eq_sum_card_fiberwise hc, Nat.cast_sum]
        exact Finset.sum_congr rfl fun tr _ => count_prefixByReplica
    _ = i.totalEntries - i.reservedEntries := h.free_card.symm

end Real

-- What a snapshot reports adds up to what the budgets are enforced with.
theorem snapshot_accounts [GoFloat F] (cfg : Config F) (i : Index F) (h : Reachable cfg i) (env : Env)
    (pairs : Nat → RangeOrder TenantReplica) :
    let snap := i.snapshot cfg env pairs
    (snap.tenants.map TenantSnapshot.indexEntries).sum = snap.totalPrefixes ∧
    (∀ t ∈ snap.tenants, t.indexEntries = i.prefixesByTenant.count t.tenantID) ∧
    (∀ tenant, cfg.isReservedTenant tenant = false → tenant ∉ snap.tenants.map TenantSnapshot.tenantID →
      i.prefixesByTenant.count tenant = 0) ∧
    (snap.replicas.map ReplicaSnapshot.prefixCount).sum = i.totalEntries - i.reservedEntries ∧
    (∀ r ∈ snap.replicas, cfg.isReservedTenant r.tenant = false) ∧
    (∀ t ∈ snap.tenants, cfg.isReservedTenant t.tenantID = false) ∧
    snap.replicas.Pairwise (fun a b => toLex (a.tenant, a.replicaID) < toLex (b.tenant, b.replicaID)) ∧
    snap.tenants.Pairwise (fun a b => a.tenantID < b.tenantID) := by
  intro snap
  have hi := h.consistent
  refine ⟨sum_indexEntries, ?counter, ?absent, sum_prefixCount hi, ?replica, ?tenant, sorted_replicas, sorted_tenants⟩
  case counter =>
    intro t ht
    have ⟨tenant, hm, he⟩ := mem_tenants.mp ht
    subst he
    exact count_perTenant env hi (real_of_mem_shownTenants hm)
  case absent =>
    intro tenant hr hn
    rw [← count_perTenant env hi hr, (aggregateLocked_spec cfg i env).1.count_eq, Nat.cast_eq_zero,
      Finset.card_eq_zero, Finset.filter_eq_empty_iff]
    intro key hk ht
    refine hn (List.mem_map.mpr ⟨_, mem_tenants.mpr ⟨tenant, ?_, rfl⟩, rfl⟩)
    exact Finset.mem_union_right _ (mem_keys_perTenant.mpr ⟨key, hk, ht⟩)
  case replica =>
    intro r hr
    have ⟨tr, hm, he⟩ := mem_replicas.mp hr
    subst he
    exact real_of_mem_shownReplicas hm
  case tenant =>
    intro t ht
    have ⟨tenant, hm, he⟩ := mem_tenants.mp ht
    subst he
    exact real_of_mem_shownTenants hm

theorem snapshot_accounts_probe :
    ((run probed [probe, workload]).snapshot probed (.still 9) fun _ => .ascending).totalPrefixes = 1 ∧
      (((run probed [probe, workload]).snapshot probed (.still 9) fun _ => .ascending).tenants.map
        TenantSnapshot.indexEntries).sum = 1 := by
  have h := (snapshot_accounts probed (run probed [probe, workload]) ⟨_, rfl⟩ (.still 9) fun _ => .ascending).1
  have ht : ((run probed [probe, workload]).snapshot probed (.still 9) fun _ => .ascending).totalPrefixes = 1 := by
    decide +kernel
  exact ⟨ht, h.trans ht⟩

section Order

-- All that a snapshot takes from the stats of a replica.
def StatEntry.shown (s : StatEntry F) : Int × F × F × Int × Int × Time :=
  (s.stats.cacheMemoryBytes, s.stats.hitRate, s.stats.pressure, s.stats.t2HitTokens, s.stats.t2QueryTokens,
    s.lastSeen)

theorem lookup_latestByReplica_shown (h : Untied cfg i) :
    ((i.latestByReplica cfg env).lookup tr).map StatEntry.shown =
      ((i.latestByReplica cfg env').lookup tr).map StatEntry.shown := by
  have hs : ((i.latestByReplica cfg env).lookup tr).isSome ↔ ((i.latestByReplica cfg env').lookup tr).isSome :=
    isSome_latestByReplica.trans isSome_latestByReplica.symm
  cases hl : (i.latestByReplica cfg env).lookup tr
  case none =>
    rw [hl] at hs
    have hn : (i.latestByReplica cfg env').lookup tr = none := by simpa using hs
    rw [hn]
  case some s =>
    rw [hl] at hs
    have ⟨s', hl'⟩ := Option.isSome_iff_exists.mp (hs.mp rfl)
    have ⟨sk, hk, hn⟩ := newest_of_lookup hl
    have ⟨sk', hk', hn'⟩ := newest_of_lookup hl'
    have he := h sk s sk' s' hn hn' (hk.trans hk'.symm)
    have ht : s.lastSeen = s'.lastSeen :=
      le_antisymm (hn'.newest sk s hn.held (hk.trans hk'.symm)) (hn.newest sk' s' hn'.held (hk'.trans hk.symm))
    rw [hl', Option.map_some, Option.map_some, StatEntry.shown, StatEntry.shown, he.cacheMemoryBytes, he.hitRate,
      he.pressure, he.t2HitTokens, he.t2QueryTokens, ht]

theorem keys_latestByReplica : (i.latestByReplica cfg env).keys = (i.latestByReplica cfg env').keys := by
  ext tr
  rw [Finmap.mem_keys_iff, Finmap.mem_keys_iff, isSome_latestByReplica, isSome_latestByReplica]

theorem perTenant_order : (i.aggregateLocked cfg env).perTenant = (i.aggregateLocked cfg env').perTenant :=
  (aggregateLocked_spec cfg i env).1.unique (aggregateLocked_spec cfg i env').1

section Replicas

variable [GoFloat F] {pairs pairs' : Nat → RangeOrder TenantReplica}

theorem replicaSnapshot_congr {s? s'? : Option (StatEntry F)} {a? : Option ReplicaPrefixAgg}
    (h : s?.map StatEntry.shown = s'?.map StatEntry.shown) :
    replicaSnapshot tr s? a? = replicaSnapshot tr s'? a? := by
  cases s? <;> cases s'? <;> simp_all [StatEntry.shown, replicaSnapshot]

theorem rowOf_order (h : Untied cfg i) : i.rowOf cfg env = i.rowOf cfg env' := by
  funext tr
  rw [rowOf, rowOf, prefixByReplica_order env env']
  exact replicaSnapshot_congr (lookup_latestByReplica_shown h)

theorem replicas_order (h : Untied cfg i) :
    (i.snapshot cfg env pairs).replicas = (i.snapshot cfg env' pairs').replicas := by
  have hs : i.shownReplicas cfg env = i.shownReplicas cfg env' := by
    rw [shownReplicas, shownReplicas, prefixByReplica_order env env', keys_latestByReplica]
  rw [replicas_snapshot, replicas_snapshot, rowOf_order h, hs]
  exact comparesBy_less.sortSlice_eq_of_perm (nodup_rows ((pairs 2).nodup _)) (RangeOrder.list_perm.map _)

end Replicas

section Exact

variable {cfg : Config ℚ} {i : Index ℚ} {pairs pairs' : Nat → RangeOrder TenantReplica}

-- Exact sums do not depend on the order of their terms.
theorem hitsByTenant_order (h : Untied cfg i) {o o' : RangeOrder TenantReplica} :
    i.hitsByTenant cfg env o = i.hitsByTenant cfg env' o' := by
  have hl (tr : TenantReplica) : ((i.latestByReplica cfg env).lookup tr).map (·.stats.hitRate) =
      ((i.latestByReplica cfg env').lookup tr).map (·.stats.hitRate) := by
    have hs : ((i.latestByReplica cfg env).lookup tr).map StatEntry.shown =
        ((i.latestByReplica cfg env').lookup tr).map StatEntry.shown := lookup_latestByReplica_shown h
    simpa only [Option.map_map, Function.comp_def, StatEntry.shown] using congrArg (Option.map (·.2.1)) hs
  rw [hitsByTenant_eq, hitsByTenant_eq]
  refine Finmap.group_perm (RangeOrder.range_map_perm hl) fun x _ y _ v _ => ?_
  have hs (a b c : ℚ) : a + b + c = a + c + b := add_right_comm a b c
  simp only [addRate, Option.getD_some]
  exact congrArg (TenantAgg.mk · _) (hs _ _ _)

theorem tenants_order (h : Untied cfg i) :
    (i.snapshot cfg env pairs).tenants = (i.snapshot cfg env' pairs').tenants := by
  have hh : i.hitsByTenant cfg env (pairs 3) = i.hitsByTenant cfg env' (pairs' 3) := hitsByTenant_order h
  have hr : i.tenantRow cfg env (pairs 3) = i.tenantRow cfg env' (pairs' 3) := by
    funext tenant
    rw [tenantRow, tenantRow, hh, perTenant_order]
  have hs : i.shownTenants cfg env (pairs 3) = i.shownTenants cfg env' (pairs' 3) := by
    rw [shownTenants, shownTenants, hh, perTenant_order]
  have ⟨ts, hn, hts, he⟩ := tenants_snapshot cfg i env pairs
  have ⟨ts', hn', hts', he'⟩ := tenants_snapshot cfg i env' pairs'
  have hc : ComparesBy (fun a b : TenantSnapshot ℚ => decide (a.tenantID < b.tenantID)) TenantSnapshot.tenantID :=
    fun _ _ => decide_eq_true_iff
  have hp : ts.Perm ts' := by
    rw [List.perm_ext_iff_of_nodup hn hn']
    intro t
    rw [← List.mem_toFinset, ← List.mem_toFinset, hts, hts', hs]
  rw [he, he', hr]
  refine hc.sortSlice_eq_of_perm ?_ (hp.map _)
  rwa [List.map_map, show TenantSnapshot.tenantID ∘ i.tenantRow cfg env' (pairs' 3) = id from rfl, List.map_id]

theorem snapshot_order (h : Untied cfg i) : i.snapshot cfg env pairs = i.snapshot cfg env' pairs' :=
  Snapshot.ext (replicas_order h) (tenants_order h)
    ((aggregateLocked_spec cfg i env).2.trans (aggregateLocked_spec cfg i env').2.symm) rfl

end Exact

-- The iteration orders under which the stats under one key are visited first.
def startingAt (sk : StatsKey) : Env :=
  { Env.still 0 with
    order := fun _ => { (Env.still 0).order 0 with stats := .first sk .ascending } }

section Tie

variable [GoFloat F] {sk sk' : StatsKey} {s s' : StatEntry F}

theorem rowOf_startingAt (h : Newest cfg i sk s) :
    i.rowOf cfg (startingAt sk) sk.tenantReplica = replicaSnapshot sk.tenantReplica (some s)
      ((i.prefixByReplica cfg (startingAt sk)).lookup sk.tenantReplica) := by
  rw [rowOf, lookup_latestByReplica_first h rfl]

theorem sameStats_of_row {a? a'? : Option ReplicaPrefixAgg}
    (h : replicaSnapshot tr (some s) a? = replicaSnapshot tr (some s') a'?) : SameStats s s' where
  cacheMemoryBytes := congrArg ReplicaSnapshot.cacheMemoryBytes h
  hitRate := congrArg ReplicaSnapshot.hitRate h
  pressure := congrArg ReplicaSnapshot.pressure h
  t2HitTokens := congrArg ReplicaSnapshot.t2HitTokens h
  t2QueryTokens := congrArg ReplicaSnapshot.t2QueryTokens h

-- Of the newest stats of a replica, those that are visited first are shown.
theorem sameStats_of_snapshot {pairs : Nat → RangeOrder TenantReplica} (hn : Newest cfg i sk s)
    (hn' : Newest cfg i sk' s') (hk : sk.tenantReplica = sk'.tenantReplica)
    (h : i.snapshot cfg (startingAt sk) pairs = i.snapshot cfg (startingAt sk') pairs) : SameStats s s' := by
  have hm : i.rowOf cfg (startingAt sk) sk.tenantReplica ∈ (i.snapshot cfg (startingAt sk) pairs).replicas := by
    refine mem_replicas.mpr ⟨_, Finset.mem_union_left _ (Finmap.mem_keys_iff.mpr ?_), rfl⟩
    exact isSome_latestByReplica.mpr ⟨sk, s, hn.held, hn.real, rfl⟩
  rw [h] at hm
  have ⟨tr, _, he⟩ := mem_replicas.mp hm
  have ht : tr = sk.tenantReplica := by
    have h₁ : tr.tenant = sk.tenantReplica.tenant := congrArg ReplicaSnapshot.tenant he
    have h₂ : tr.replica = sk.tenantReplica.replica := congrArg ReplicaSnapshot.replicaID he
    cases tr
    exact congrArg₂ TenantReplica.mk h₁ h₂
  rw [ht, rowOf_startingAt hn, hk, rowOf_startingAt hn'] at he
  exact sameStats_of_row he.symm

end Tie

theorem snapshot_deterministic_iff (cfg : Config ℚ) (i : Index ℚ) :
    (∀ env env' pairs pairs', i.snapshot cfg env pairs = i.snapshot cfg env' pairs') ↔ Untied cfg i := by
  constructor
  case mp =>
    intro h sk s sk' s' hn hn' hk
    exact sameStats_of_snapshot hn hn' hk (h _ _ (fun _ => .ascending) fun _ => .ascending)
  case mpr => exact fun h _ _ _ _ => snapshot_order h

-- One replica reports its stats for two models at the same time.
def statsReport (model : GoString) (hitRate : ℚ) : Call ℚ × Env :=
  (.ingest ⟨[0x61], model, [0x74], [], [], 1, [], some ⟨[0x61], 0, hitRate, 0, 0, 0⟩⟩, .still 9)

theorem snapshot_depends_on_order :
    ((run probed [statsReport [0x6d] 0, statsReport [0x6e] 1]).snapshot probed
        (startingAt ⟨[0x74], [0x6d], [0x61]⟩) fun _ => .ascending).replicas.map ReplicaSnapshot.hitRate = [0] ∧
      ((run probed [statsReport [0x6d] 0, statsReport [0x6e] 1]).snapshot probed
        (startingAt ⟨[0x74], [0x6e], [0x61]⟩) fun _ => .ascending).replicas.map ReplicaSnapshot.hitRate = [1] := by
  decide +kernel

end Order

end InferenceCache.Index
