import InferenceCache.Index.Theorems.Cap

namespace InferenceCache

def AgeRef.rank (a : AgeRef) : Time ×ₗ GoString ×ₗ GoString ×ₗ GoString ×ₗ GoString :=
  toLex (a.age, toLex (a.key.model, toLex (a.key.hashScheme, toLex (a.key.adapter, a.key.prefixHash))))

theorem AgeRef.comparesBy_rank : ComparesBy AgeRef.less AgeRef.rank := by
  intro a b
  simp only [rank, toLex_lt_toLex_iff_ite, less, Bool.ite_eq_true_distrib, decide_eq_true_eq]

-- Among the prefixes of one tenant the order is by age and then by key.
theorem AgeRef.rank_lt_rank_iff {a b : AgeRef} (h : a.key.tenant = b.key.tenant) :
    a.rank < b.rank ↔ toLex (a.age, a.key) < toLex (b.age, b.key) := by
  simp only [rank, toLex_lt_toLex_iff_ite, PrefixKey.lt_iff, h, ne_eq, not_true_eq_false, if_false]

namespace Index

variable {F : Type} {cfg : Config F} {i j : Index F} {env env' : Env} {tenant : GoString}
variable {key : PrefixKey} {r : GoString} {q : Int}

def keysOf (i : Index F) (tenant : GoString) : Finset PrefixKey :=
  i.prefixes.keys.filter (·.tenant = tenant)

theorem mem_keysOf : key ∈ i.keysOf tenant ↔ key ∈ i.prefixes.keys ∧ key.tenant = tenant := by
  simp [keysOf]

theorem Consistent.mem_keys_iff (h : Consistent cfg i) :
    key ∈ i.prefixes.keys ↔ ∃ r e, i.entryAt key r = some e :=
  h.noEmpty.mem_keys_iff

theorem Consistent.keysOf_card (h : Consistent cfg i) :
    i.prefixesByTenant.count tenant = (i.keysOf tenant).card :=
  h.byTenant.count_eq tenant

section NewestSeen

variable {l l' : List (GoString × ReplicaEntry)} {x : GoString × ReplicaEntry}

theorem newestSeen_concat : newestSeen (l ++ [x]) = max (newestSeen l) x.2.lastSeen := by
  rw [newestSeen, List.foldl_concat, ← newestSeen]
  split
  case isTrue h => exact (max_eq_right h.le).symm
  case isFalse h => exact (max_eq_left <| not_lt.mp h).symm

theorem le_newestSeen (h : x ∈ l) : x.2.lastSeen ≤ newestSeen l := by
  induction l using List.reverseRecOn
  case nil => cases h
  case append_singleton l y hi =>
    rw [newestSeen_concat]
    cases List.mem_append.mp h
    case inl h => exact le_max_of_le_left (hi h)
    case inr h => exact le_max_of_le_right (List.mem_singleton.mp h ▸ le_rfl)

theorem newestSeen_eq_zero_or_mem : newestSeen l = 0 ∨ ∃ x ∈ l, x.2.lastSeen = newestSeen l := by
  induction l using List.reverseRecOn
  case nil => exact .inl rfl
  case append_singleton l y hi =>
    rw [newestSeen_concat]
    cases max_choice (newestSeen l) y.2.lastSeen
    case inr h => exact .inr ⟨y, by simp, h.symm⟩
    case inl h =>
      rw [h]
      exact hi.imp_right fun ⟨x, hx, he⟩ => ⟨x, by simp [hx], he⟩

theorem newestSeen_perm (h : l.Perm l') : newestSeen l = newestSeen l' := by
  have hc : RightCommutative fun (newest : Time) (x : GoString × ReplicaEntry) =>
      if newest < x.2.lastSeen then x.2.lastSeen else newest :=
    ⟨fun n x y => by grind⟩
  exact h.foldl_eq 0

-- The scan starts from the zero time, which makes no difference unless all of them are before it.
theorem isGreatest_newestSeen (hn : l ≠ []) (h : ∀ x ∈ l, 0 < x.2.lastSeen) :
    IsGreatest { t | ∃ x ∈ l, x.2.lastSeen = t } (newestSeen l) := by
  constructor
  case right =>
    rintro t ⟨x, hx, rfl⟩
    exact le_newestSeen hx
  case left =>
    refine newestSeen_eq_zero_or_mem.resolve_left fun hz => ?_
    have ⟨x, hx⟩ := List.exists_mem_of_ne_nil l hn
    exact absurd (le_newestSeen hx) (not_le.mpr <| hz ▸ h x hx)

end NewestSeen

def freshest (i : Index F) (key : PrefixKey) : Time :=
  (((i.prefixes.inner key).keys.image fun r => (i.held (key, r)).lastSeen).max).unbotD 0

def quotaRank (i : Index F) (key : PrefixKey) :
    Time ×ₗ GoString ×ₗ GoString ×ₗ GoString ×ₗ GoString :=
  AgeRef.rank ⟨key, i.freshest key⟩

def ageRef (i : Index F) (env : Env) (key : PrefixKey) : AgeRef :=
  ⟨key, newestSeen (((env.order 1).replicas key).range (i.prefixes.inner key))⟩

theorem ageRef_congr : i.ageRef env key = i.ageRef env' key := by
  rw [ageRef, newestSeen_perm RangeOrder.range_perm]
  rfl

theorem mem_range_replicas {o : RangeOrder GoString} {x : GoString × ReplicaEntry} :
    x ∈ o.range (i.prefixes.inner key) ↔ i.entryAt key x.1 = some x.2 := by
  rw [RangeOrder.mem_range, Finmap.lookup_inner, entryAt]

theorem le_age (env : Env) {x : PrefixKey × GoString} (h : x ∈ i.pairs) :
    (i.held x).lastSeen ≤ (i.ageRef env x.1).age := by
  have ⟨e, he⟩ := Option.isSome_iff_exists.mp <| mem_pairs.mp h
  rw [held, he]
  exact @le_newestSeen _ (x.2, e) (mem_range_replicas.mpr he)

theorem age_eq_zero_or_mem (env : Env) : (i.ageRef env key).age = 0 ∨
    ∃ r, (key, r) ∈ i.pairs ∧ (i.held (key, r)).lastSeen = (i.ageRef env key).age := by
  refine newestSeen_eq_zero_or_mem.imp_right fun ⟨x, hx, he⟩ => ?_
  have hx := mem_range_replicas.mp hx
  refine ⟨x.1, mem_pairs_of_entryAt hx, ?_⟩
  rw [held, hx]
  exact he

theorem ageRef_age_eq_freshest (env : Env) (hk : i.prefixes.inner key ≠ ∅)
    (h : ∀ r e, i.entryAt key r = some e → 0 < e.lastSeen) : (i.ageRef env key).age = i.freshest key := by
  have hm : ∀ x, x ∈ ((env.order 1).replicas key).range (i.prefixes.inner key) ↔
      i.entryAt key x.1 = some x.2 := fun _ => mem_range_replicas
  obtain ⟨r, e, he⟩ := Finmap.exists_lookup_of_ne_empty hk
  rw [Finmap.lookup_inner] at he
  have hg := isGreatest_newestSeen (List.ne_nil_of_mem <| (hm (r, e)).mpr he)
    fun x hx => h _ _ <| (hm x).mp hx
  have hs : { t | ∃ x ∈ ((env.order 1).replicas key).range (i.prefixes.inner key), x.2.lastSeen = t } =
      ((i.prefixes.inner key).keys.image fun r => (i.held (key, r)).lastSeen) := by
    ext t
    simp only [hm, Set.mem_ofPred_eq, Finset.coe_image, Set.mem_image, Finset.mem_coe,
      Finmap.mem_keys_iff, Finmap.lookup_inner, Option.isSome_iff_exists, Prod.exists]
    constructor
    case mp =>
      rintro ⟨r, e, he, rfl⟩
      exact ⟨r, ⟨e, he⟩, by simp [held, he]⟩
    case mpr =>
      rintro ⟨r, ⟨e, he⟩, rfl⟩
      exact ⟨r, e, he, by simp [held, entryAt, he]⟩
  rw [hs] at hg
  have hne : ((i.prefixes.inner key).keys.image fun r => (i.held (key, r)).lastSeen).Nonempty :=
    ⟨_, hg.1⟩
  rw [freshest, ← Finset.coe_max' hne, WithBot.unbotD_coe]
  exact hg.unique (Finset.isGreatest_max' _ hne)

section Refs

theorem ageRefs_eq : i.ageRefs env tenant =
    (((env.order 0).prefixes.list i.prefixes.keys).filter (·.tenant = tenant)).map (i.ageRef env) := by
  rw [ageRefs, RangeOrder.range, List.filterMap_filterMap, ← List.filterMap_eq_map,
    List.filterMap_filter]
  refine List.filterMap_congr fun key hk => ?_
  rw [RangeOrder.mem_list, Finmap.mem_keys_iff, Option.isSome_iff_exists] at hk
  obtain ⟨replicas, hk⟩ := hk
  have hi : i.prefixes.inner key = replicas := by simp [Finmap.inner, hk]
  by_cases ht : key.tenant = tenant <;> simp [hk, ht, ageRef, hi]

theorem ageRefs_keys : (i.ageRefs env tenant).map AgeRef.key =
    ((env.order 0).prefixes.list i.prefixes.keys).filter (·.tenant = tenant) := by
  simp [ageRefs_eq, Function.comp_def, ageRef]

theorem ageRefs_nodup : ((i.ageRefs env tenant).map AgeRef.key).Nodup := by
  rw [ageRefs_keys]
  exact (RangeOrder.nodup _ _).filter _

theorem ageRefs_toFinset (env : Env) :
    ((i.ageRefs env tenant).map AgeRef.key).toFinset = i.keysOf tenant := by
  ext key
  simp [ageRefs_keys, RangeOrder.mem_list, mem_keysOf]

theorem ageRefs_length : (i.ageRefs env tenant).length = (i.keysOf tenant).card := by
  rw [← ageRefs_toFinset env, List.toFinset_card_of_nodup ageRefs_nodup, List.length_map]

theorem ageRank_injOn : Set.InjOn (fun key => (i.ageRef env key).rank)
    { key | key ∈ (i.ageRefs env tenant).map AgeRef.key } := by
  intro k₁ h₁ k₂ h₂ h
  simp only [Set.mem_ofPred_eq, ageRefs_keys, List.mem_filter, decide_eq_true_eq] at h₁ h₂
  simp only [AgeRef.rank, ageRef, EmbeddingLike.apply_eq_iff_eq, Prod.mk.injEq] at h
  exact PrefixKey.ext (h₁.2.trans h₂.2.symm) h.2.1 h.2.2.1 h.2.2.2.1 h.2.2.2.2

end Refs

section QuotaStep

theorem entries_removePrefix :
    (i.removePrefix cfg env key).entries = i.entries.filter fun x _ => x.1 ≠ key := by
  rw [removePrefix_eq, entries_removeAll]
  refine Finmap.filter_congr fun x e h => ?_
  rw [lookup_entries] at h
  simp only [List.mem_map, RangeOrder.mem_range, Finmap.lookup_inner, decide_eq_decide]
  refine not_congr ⟨?_, ?_⟩
  case refine_1 =>
    rintro ⟨y, -, rfl⟩
    rfl
  case refine_2 =>
    rintro rfl
    exact ⟨(x.2, e), h, rfl⟩

theorem Consistent.removePrefix (h : Consistent cfg i) : Consistent cfg (i.removePrefix cfg env key) := by
  rw [removePrefix_eq]
  exact h.removeAll

theorem Consistent.keysOf_of_filter (h : Consistent cfg i) (hj : Consistent cfg j)
    {p : PrefixKey → Bool} (he : j.entries = i.entries.filter fun x _ => p x.1) :
    j.keysOf tenant = (i.keysOf tenant).filter (p ·) := by
  ext key
  simp only [mem_keysOf, Finset.mem_filter, h.mem_keys_iff, hj.mem_keys_iff, entryAt_of_filter he,
    Option.filter_eq_some_iff]
  grind

theorem Consistent.keysOf_removePrefix (h : Consistent cfg i) :
    (i.removePrefix cfg env key).keysOf tenant = (i.keysOf tenant).erase key := by
  rw [h.keysOf_of_filter h.removePrefix (p := (· ≠ key)) entries_removePrefix]
  simp [Finset.filter_ne']

theorem entries_removePrefixes {refs : List AgeRef} :
    (refs.foldl (fun i a => i.removePrefix cfg env a.key) i).entries =
      i.entries.filter fun x _ => x.1 ∉ refs.map AgeRef.key := by
  induction refs generalizing i
  case nil => simp [Finmap.filter_eq_self]
  case cons a refs hi =>
    rw [List.foldl_cons, hi, entries_removePrefix, Finmap.filter_filter]
    apply Finmap.filter_congr
    simp [Bool.decide_and]

theorem evictOverQuota_eq_drain {refs : List AgeRef} {removed : Nat} :
    (evictOverQuota cfg env tenant q refs i removed).1 =
      drain (fun i => q < i.prefixesByTenant.count tenant)
        (fun i a => i.removePrefix cfg env a.key) i refs := by
  induction refs generalizing i removed
  case nil => rfl
  case cons a refs hi =>
    unfold evictOverQuota drain
    split
    case isTrue h => simp [not_lt.mpr h]
    case isFalse h => rw [hi, if_pos (decide_eq_true <| not_le.mp h)]

-- The guard reads a counter that only the removal of the last replica of a prefix changes. Each
-- candidate loses all its replicas, so every pass brings the counter down by one.
theorem Consistent.entries_evictOverQuota (h : Consistent cfg i) (hq : 0 ≤ q) {refs : List AgeRef}
    {removed : Nat} (hn : (refs.map AgeRef.key).Nodup) (hf : ∀ a ∈ refs, a.key ∈ i.keysOf tenant) :
    (evictOverQuota cfg env tenant q refs i removed).1.entries =
      i.entries.filter fun x _ =>
        x.1 ∉ (refs.take ((i.keysOf tenant).card - q.toNat)).map AgeRef.key := by
  rw [evictOverQuota_eq_drain, ← entries_removePrefixes]
  congr 1
  apply drain_eq_foldl (Consistent cfg) (keysOf · tenant) AgeRef.key ?guard ?inv ?erase h hn hf
  case guard =>
    intro i h
    rw [decide_eq_true_iff, h.keysOf_card]
    omega
  case inv => exact fun _ _ h => h.removePrefix
  case erase => exact fun _ _ h => h.keysOf_removePrefix

theorem Consistent.enforceQuota (h : Consistent cfg i) :
    Consistent cfg (i.enforceQuota cfg env tenant) := by
  have ⟨_, he⟩ := enforceQuota_eq cfg i env tenant
  exact he ▸ h.removeAll

theorem stats_enforceQuota : (i.enforceQuota cfg env tenant).stats = i.stats := by
  have ⟨_, he⟩ := enforceQuota_eq cfg i env tenant
  exact he ▸ stats_removeAll

theorem stats_ingest [GoFloat F] {u : Update F} :
    (i.ingest cfg env u).stats = (i.recordUpdate cfg env u).stats :=
  stats_enforceCapLocked.trans stats_enforceQuota

theorem enforceQuota_of_none (hq : env.tenantQuotaFor tenant = none) :
    i.enforceQuota cfg env tenant = i := by
  simp [Index.enforceQuota, hq]

def quotaExcess (i : Index F) (env : Env) (tenant : GoString) : Nat :=
  match env.tenantQuotaFor tenant with
  | none   => 0
  | some q => if 0 ≤ q then (i.keysOf tenant).card - q.toNat else 0

theorem quotaExcess_of_some (hq : env.tenantQuotaFor tenant = some q) (h0 : 0 ≤ q) :
    i.quotaExcess env tenant = (i.keysOf tenant).card - q.toNat := by
  simp [quotaExcess, hq, h0]

theorem quotaExcess_congr (hk : i.keysOf tenant = j.keysOf tenant)
    (he : env.quotaResolver = env'.quotaResolver) :
    i.quotaExcess env tenant = j.quotaExcess env' tenant := by
  simp only [quotaExcess, Env.tenantQuotaFor, hk, he]

theorem Consistent.entries_evictOldest (h : Consistent cfg i) (h0 : 0 ≤ q) :
    ∃ v, IsLowest (fun key => (i.ageRef env key).rank) ((i.keysOf tenant).card - q.toNat)
        (i.keysOf tenant) v ∧
      (i.evictOldestForTenantLocked cfg env tenant q).1.entries =
        i.entries.filter fun x _ => x.1 ∉ v := by
  rw [evictOldestForTenantLocked, if_neg (not_lt.mpr h0), h.keysOf_card]
  split
  case isTrue hle =>
    have he : (i.keysOf tenant).card - q.toNat = 0 := by omega
    exact ⟨∅, he ▸ isLowest_zero, by simp [Finmap.filter_eq_self]⟩
  case isFalse =>
    let n := (i.keysOf tenant).card - q.toNat
    refine ⟨(((sortSlice AgeRef.less (i.ageRefs env tenant)).take n).map AgeRef.key).toFinset, ?_, ?_⟩
    case refine_1 =>
      have hl : n ≤ (i.ageRefs env tenant).length := ageRefs_length ▸ Nat.sub_le _ _
      show IsLowest _ n _ _
      rw [← ageRefs_toFinset env]
      apply AgeRef.comparesBy_rank.isLowest_take ?_ ageRank_injOn ageRefs_nodup hl
      intro a ha
      obtain ⟨key, _, ha⟩ := List.mem_map.mp (ageRefs_eq ▸ ha)
      subst ha
      rfl
    case refine_2 =>
      rw [h.entries_evictOverQuota h0]
      case hn => exact (sortSlice_perm.map _).nodup_iff.mpr ageRefs_nodup
      case hf =>
        intro a ha
        rw [← ageRefs_toFinset env, List.mem_toFinset]
        exact List.mem_map_of_mem <| sortSlice_perm.mem_iff.mp ha
      simp [n]

-- A quota takes the oldest prefixes of its tenant, each with all its replicas.
theorem Consistent.entries_enforceQuota (h : Consistent cfg i) (env : Env) (tenant : GoString) :
    ∃ v, IsLowest (fun key => (i.ageRef env key).rank) (i.quotaExcess env tenant)
        (i.keysOf tenant) v ∧
      (i.enforceQuota cfg env tenant).entries = i.entries.filter fun x _ => x.1 ∉ v := by
  unfold quotaExcess Index.enforceQuota
  cases env.tenantQuotaFor tenant
  case none => exact ⟨∅, isLowest_zero, by simp [Finmap.filter_eq_self]⟩
  case some q =>
    dsimp only
    split
    case isTrue h0 => exact h.entries_evictOldest h0
    case isFalse h0 =>
      rw [evictOldestForTenantLocked, if_pos (not_le.mp h0)]
      exact ⟨∅, isLowest_zero, by simp [Finmap.filter_eq_self]⟩

theorem Consistent.enforceQuota_congr (h : Consistent cfg i)
    (he : env.quotaResolver = env'.quotaResolver) :
    i.enforceQuota cfg env tenant = i.enforceQuota cfg env' tenant := by
  have ⟨v, hv, h₁⟩ := h.entries_enforceQuota env tenant
  have ⟨v', hv', h₂⟩ := h.entries_enforceQuota env' tenant
  have hr : ∀ key ∈ i.keysOf tenant, (i.ageRef env key).rank = (i.ageRef env' key).rank :=
    fun _ _ => by rw [ageRef_congr]
  rw [← quotaExcess_congr rfl he] at hv'
  apply h.enforceQuota.ext h.enforceQuota ?_ (stats_enforceQuota.trans stats_enforceQuota.symm)
  rw [h₁, h₂, hv.unique (hv'.congr hr)]

theorem quotaRank_eq (h : Consistent cfg i)
    (hp : ∀ key r e, i.entryAt key r = some e → key.tenant = tenant → 0 < e.lastSeen)
    (hk : key ∈ i.keysOf tenant) : i.quotaRank key = (i.ageRef env key).rank := by
  have ⟨hk, ht⟩ := mem_keysOf.mp hk
  have hn : i.prefixes.inner key ≠ ∅ := by
    have ⟨replicas, hl⟩ := Option.isSome_iff_exists.mp <| Finmap.mem_keys_iff.mp hk
    simpa [Finmap.inner, hl] using h.noEmpty key replicas hl
  rw [quotaRank, ← ageRef_age_eq_freshest env hn fun r e he => hp key r e he ht]
  rfl

theorem Consistent.keysOf_enforceQuota (h : Consistent cfg i)
    (hq : env.tenantQuotaFor tenant = some q) (h0 : 0 ≤ q)
    (hp : ∀ key r e, i.entryAt key r = some e → key.tenant = tenant → 0 < e.lastSeen) :
    IsHighest i.quotaRank q.toNat (i.keysOf tenant) ((i.enforceQuota cfg env tenant).keysOf tenant) ∧
      (i.enforceQuota cfg env tenant).entries = i.entries.filter fun x _ =>
        x.1.tenant ≠ tenant ∨ x.1 ∈ (i.enforceQuota cfg env tenant).keysOf tenant := by
  have ⟨v, hv, he⟩ := h.entries_enforceQuota env tenant
  rw [quotaExcess_of_some hq h0] at hv
  have hk : (i.enforceQuota cfg env tenant).keysOf tenant = i.keysOf tenant \ v := by
    rw [h.keysOf_of_filter h.enforceQuota (p := (· ∉ v)) he]
    simp [Finset.filter_notMem_eq_sdiff]
  have hv' : IsLowest i.quotaRank ((i.keysOf tenant).card - q.toNat) (i.keysOf tenant) v :=
    hv.congr fun _ => quotaRank_eq h hp
  refine ⟨hk ▸ hv'.sdiff, ?_⟩
  rw [he, hk]
  refine Finmap.filter_congr fun x e hx => ?_
  rw [lookup_entries] at hx
  have hm := fun hx => (mem_keysOf.mp <| hv.subset (x := x.1) hx).2
  simp only [Finset.mem_sdiff, mem_keysOf, mem_keys_of_entryAt hx, true_and, decide_eq_decide]
  tauto

end QuotaStep

section Fair

variable [GoFloat F]

theorem quota_fair (cfg : Config F) (i : Index F) (env : Env) (u : Update F) (q : Int)
    (h : Reachable cfg i) (hq : env.tenantQuotaFor u.tenant = some q) (h0 : 0 ≤ q)
    (hu : 0 < u.seenAt env)
    (hp : ∀ key r e, i.entryAt key r = some e → key.tenant = u.tenant → 0 < e.lastSeen) :
    let j := i.recordUpdate cfg env u
    let k := i.beforeCap cfg env u
    IsHighest j.quotaRank q.toNat (j.keysOf u.tenant) (k.keysOf u.tenant) ∧
    (∀ key ∈ k.keysOf u.tenant, ∀ r, k.entryAt key r = j.entryAt key r) ∧
    (∀ key r, key.tenant ≠ u.tenant → k.entryAt key r = j.entryAt key r) ∧
    ∀ order, i.beforeCap cfg { env with order := order } u = k := by
  intro j k
  have hj : Consistent cfg j := h.consistent.recordUpdate
  have hp' : ∀ key r e, j.entryAt key r = some e → key.tenant = u.tenant → 0 < e.lastSeen := by
    intro key r e he ht
    rw [entryAt_recordUpdate] at he
    split at he
    case isFalse => exact hp key r e he ht
    case isTrue =>
      cases hl : u.latest key <;> rw [hl] at he
      case none => exact hp key r e he ht
      case some => cases he; exact hu
  have ⟨hh, he⟩ := hj.keysOf_enforceQuota hq h0 hp'
  have hl : ∀ key r, key.tenant ≠ u.tenant ∨ key ∈ k.keysOf u.tenant →
      k.entryAt key r = j.entryAt key r := by
    intro key r hk
    exact entryAt_of_filter_pos he fun _ => decide_eq_true hk
  exact ⟨hh, fun key hk r => hl key r (.inr hk), fun key r hk => hl key r (.inl hk),
    fun _ => hj.enforceQuota_congr rfl⟩

end Fair

section

-- One replica of a tenant that may hold one prefix reports two of them.
def twoPrefixes : Update ℚ :=
  { Update.single [0x74] [0x61] [1] 1 with
    prefixes := [⟨[1], 16, [], [], CacheTier.t1, []⟩, ⟨[2], 32, [], [], CacheTier.t1, []⟩] }

def quotaOfOne : Env :=
  { Env.still 9 with quotaResolver := some fun _ => some 1 }

theorem quota_fair_twoPrefixes :
    IsHighest (new.recordUpdate tight quotaOfOne twoPrefixes).quotaRank 1
      ((new.recordUpdate tight quotaOfOne twoPrefixes).keysOf [0x74])
      ((new.beforeCap tight quotaOfOne twoPrefixes).keysOf [0x74]) ∧
    (new.beforeCap tight quotaOfOne twoPrefixes).keysOf [0x74] =
      {⟨[0x74], [0x6d], [0x73], [], [2]⟩} :=
  ⟨(quota_fair tight new quotaOfOne twoPrefixes 1 ⟨[], rfl⟩ rfl (by decide) (by decide)
    fun _ _ _ h => by simp [new, entryAt] at h).1, by decide +kernel⟩

end

end Index

end InferenceCache
