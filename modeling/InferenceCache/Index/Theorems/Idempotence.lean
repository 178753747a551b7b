import InferenceCache.Index.Theorems.Agreement
import InferenceCache.Index.Theorems.PathIndependence

namespace InferenceCache.Index

variable {F : Type} {cfg : Config F} {env env' : Env} {tenant : GoString} {ts : Time}
variable {i j k m j' : Index F} {v : Finset PrefixKey} {w : Finset (PrefixKey × GoString)}
variable {x y : PrefixKey × GoString} {key key' : PrefixKey}

-- The number of entries a cap step has to remove, where there need not be a cap.
def capExcess (cfg : Config F) (i : Index F) : Nat :=
  if 0 < cfg.maxEntries then i.excess cfg else 0

theorem Consistent.isLowest_capVictims (h : Consistent cfg i) (env : Env) :
    IsLowest (i.capRank env) (i.capExcess cfg) (i.free cfg) (i.capVictims cfg env) := by
  by_cases hm : 0 < cfg.maxEntries
  case pos =>
    rw [capExcess, if_pos hm]
    exact (h.enforceCapLocked_spec env hm).1
  case neg =>
    rw [capExcess, if_neg hm, capVictims_of_unbounded hm]
    exact isLowest_zero

-- The states around a report of a tenant that is ingested a second time. The first time it led from
-- `j` (recorded) through `k` (within the quota) to `m` (within the cap), where `v` and `w` were evicted.
-- Recording it again leads to `j'`, in which some of what was evicted is back.
structure Twice (cfg : Config F) (env env' : Env) (tenant : GoString) (ts : Time)
    (j k m j' : Index F) (v : Finset PrefixKey) (w : Finset (PrefixKey × GoString)) : Prop where
  lru      : env.evictionFor tenant = .lru
  eviction : env.evictionResolver = env'.evictionResolver
  resolver : env.tenantQuotaFor tenant = env'.tenantQuotaFor tenant
  ts_pos   : 0 < ts
  j_cons   : Consistent cfg j
  k_cons   : Consistent cfg k
  m_cons   : Consistent cfg m
  j'_cons  : Consistent cfg j'
  quota    : IsLowest (fun key => (j.ageRef env key).rank) (j.quotaExcess env tenant)
    (j.keysOf tenant) v
  cap      : IsLowest (k.capRank env) (k.capExcess cfg) (k.free cfg) w
  mem_k    : ∀ x, x ∈ k.pairs ↔ x ∈ j.pairs ∧ x.1 ∉ v
  held_k   : ∀ x ∈ k.pairs, k.held x = j.held x
  mem_m    : ∀ x, x ∈ m.pairs ↔ x ∈ k.pairs ∧ x ∉ w
  held_m   : ∀ x ∈ m.pairs, m.held x = k.held x
  kept     : ∀ x ∈ m.pairs, x ∈ j'.pairs ∧ j'.held x = m.held x
  back     : ∀ x ∈ j'.pairs, x ∉ m.pairs → x ∈ j.pairs ∧ x.1.tenant = tenant ∧
    (j.held x).lastSeen = ts ∧ (j'.held x).lastSeen = ts

theorem Consistent.mem_keysOf_iff (h : Consistent cfg i) :
    key ∈ i.keysOf tenant ↔ key.tenant = tenant ∧ ∃ r, (key, r) ∈ i.pairs := by
  rw [mem_keysOf, h.mem_keys_iff, and_comm]
  simp only [mem_pairs, Option.isSome_iff_exists]

theorem Consistent.mem_keysOf_of_mem (h : Consistent cfg i) (hx : x ∈ i.pairs)
    (ht : x.1.tenant = tenant) : x.1 ∈ i.keysOf tenant :=
  h.mem_keysOf_iff.mpr ⟨ht, x.2, hx⟩

-- When an entry was last seen, and then which prefix it is for.
def seen (i : Index F) (x : PrefixKey × GoString) : Time ×ₗ PrefixKey :=
  toLex ((i.held x).lastSeen, x.1)

def aged (i : Index F) (env : Env) (key : PrefixKey) : Time ×ₗ PrefixKey :=
  toLex ((i.ageRef env key).age, key)

theorem seen_le_aged (env : Env) (h : x ∈ i.pairs) : i.seen x ≤ i.aged env x.1 :=
  Prod.Lex.toLex_mono ⟨le_age env h, le_rfl⟩

theorem exists_seen_eq_aged (h : 0 < (i.ageRef env key).age) :
    ∃ r, (key, r) ∈ i.pairs ∧ i.seen (key, r) = i.aged env key := by
  have ⟨r, hr, he⟩ := (age_eq_zero_or_mem env).resolve_left h.ne'
  exact ⟨r, hr, by rw [seen, aged, he]⟩

theorem capRank_of_lru (h : env.evictionFor x.1.tenant = .lru) :
    i.capRank env x = toLex (0, toLex ((i.held x).lastSeen, toLex x)) := by
  rw [capRank, effectiveCount, h]

namespace Twice

section First

variable (h : Twice cfg env env' tenant ts j k m j' v w)

include h

theorem seen_k (hx : x ∈ k.pairs) : k.seen x = j.seen x := by
  rw [seen, seen, h.held_k x hx]

theorem mem_k_of_mem_m (hx : x ∈ m.pairs) : x ∈ k.pairs :=
  ((h.mem_m x).mp hx).1

theorem seen_j' (hx : x ∈ m.pairs) : j'.seen x = j.seen x := by
  rw [seen, (h.kept x hx).2, h.held_m x hx, h.held_k x (h.mem_k_of_mem_m hx), seen]

theorem w_subset (hx : x ∈ w) : x ∈ k.pairs ∧ cfg.isReservedTenant x.1.tenant = false :=
  mem_free.mp <| h.cap.subset hx

theorem capRank_lt (hx : x ∈ w) (hy : y ∈ m.free cfg) : k.capRank env x < k.capRank env y := by
  have ⟨hm, hr⟩ := mem_free.mp hy
  have ⟨hk, hw⟩ := (h.mem_m y).mp hm
  exact h.cap.below x hx y (mem_free.mpr ⟨hk, hr⟩) hw

-- What the cap evicts of the tenant was seen no later than what it leaves.
theorem seen_le (hx : x ∈ w) (hxt : x.1.tenant = tenant) (hy : y ∈ m.pairs)
    (hyt : y.1.tenant = tenant) : j.seen x ≤ j.seen y := by
  have ⟨hxk, hr⟩ := h.w_subset hx
  have hf : y ∈ m.free cfg := mem_free.mpr ⟨hy, by rw [hyt, ← hxt]; exact hr⟩
  have hlt := h.capRank_lt hx hf
  rw [capRank_of_lru (by rw [hxt]; exact h.lru), capRank_of_lru (by rw [hyt]; exact h.lru),
    Prod.Lex.toLex_lt_toLex] at hlt
  have hlt := (hlt.resolve_left (lt_irrefl _)).2
  rw [← h.seen_k hxk, ← h.seen_k (h.mem_k_of_mem_m hy)]
  exact toLex_le_of_lt_of_assoc hlt

theorem aged_lt (hv : key ∈ v) (hk : key' ∈ j.keysOf tenant) (hn : key' ∉ v) :
    j.aged env key < j.aged env key' := by
  have hlt := h.quota.below key hv key' hk hn
  have ht : key.tenant = key'.tenant :=
    (mem_keysOf.mp <| h.quota.subset hv).2.trans (mem_keysOf.mp hk).2.symm
  exact (AgeRef.rank_lt_rank_iff ht).mp hlt

theorem notMem_v (hx : x ∈ m.pairs) : x.1 ∉ v :=
  ((h.mem_k x).mp <| h.mem_k_of_mem_m hx).2

theorem mem_j_of_mem_m (hx : x ∈ m.pairs) : x ∈ j.pairs :=
  ((h.mem_k x).mp <| h.mem_k_of_mem_m hx).1

end First

section Back

variable (h : Twice cfg env env' tenant ts j k m j' v w)

include h

theorem seen_back (hx : x ∈ j'.pairs) (hm : x ∉ m.pairs) :
    j.seen x = toLex (ts, x.1) ∧ j'.seen x = toLex (ts, x.1) := by
  have ⟨_, _, h₁, h₂⟩ := h.back x hx hm
  exact ⟨by rw [seen, h₁], by rw [seen, h₂]⟩

-- It was either the quota or the cap that had evicted it.
theorem evicted_of_back (hx : x ∈ j'.pairs) (hm : x ∉ m.pairs) : x.1 ∈ v ∨ x ∈ w := by
  have hj := (h.back x hx hm).1
  by_contra hn
  rw [not_or] at hn
  exact hm <| (h.mem_m x).mpr ⟨(h.mem_k x).mpr ⟨hj, hn.1⟩, hn.2⟩

-- A prefix that lost replicas to the cap still has the one that was seen last.
theorem aged_le_again (hy : y ∈ m.pairs) (ht : y.1.tenant = tenant)
    (hpos : 0 < (j.ageRef env y.1).age) : j.aged env y.1 ≤ j'.aged env' y.1 := by
  have ⟨r, hz, he⟩ := exists_seen_eq_aged hpos
  have hyj : j.seen y ≤ j'.aged env' y.1 := by
    rw [← h.seen_j' hy]
    exact seen_le_aged env' (h.kept y hy).1
  rw [← he]
  by_cases hm : (y.1, r) ∈ m.pairs
  case pos =>
    rw [← h.seen_j' hm]
    exact seen_le_aged env' (h.kept _ hm).1
  case neg =>
    have hv : y.1 ∉ v := h.notMem_v hy
    have hk : (y.1, r) ∈ k.pairs := (h.mem_k _).mpr ⟨hz, hv⟩
    have hw : (y.1, r) ∈ w := by
      by_contra hw
      exact hm <| (h.mem_m _).mpr ⟨hk, hw⟩
    exact (h.seen_le hw ht hy ht).trans hyj

theorem lt_aged_of_mem_v (hx : x ∈ j'.pairs) (hm : x ∉ m.pairs) (hv : x.1 ∈ v)
    (hk : key' ∈ j.keysOf tenant) (hn : key' ∉ v) :
    toLex (ts, x.1) < j.aged env key' ∧ 0 < (j.ageRef env key').age := by
  have hlt : toLex (ts, x.1) < j.aged env key' := by
    rw [← (h.seen_back hx hm).1]
    exact (seen_le_aged env (h.back x hx hm).1).trans_lt (h.aged_lt hv hk hn)
  have hle : ts ≤ (j.ageRef env key').age := by
    rw [aged, Prod.Lex.toLex_lt_toLex] at hlt
    exact hlt.elim le_of_lt fun h => h.1.le
  exact ⟨hlt, h.ts_pos.trans_le hle⟩

theorem exists_back (hk : key ∈ j'.keysOf tenant \ m.keysOf tenant) :
    ∃ r, (key, r) ∈ j'.pairs ∧ (key, r) ∉ m.pairs := by
  have ⟨hj, hm⟩ := Finset.mem_sdiff.mp hk
  have ⟨ht, r, hr⟩ := h.j'_cons.mem_keysOf_iff.mp hj
  exact ⟨r, hr, fun hx => hm <| h.m_cons.mem_keysOf_iff.mpr ⟨ht, r, hx⟩⟩

theorem aged_back (hk : key ∈ j'.keysOf tenant \ m.keysOf tenant) :
    j'.aged env' key = toLex (ts, key) := by
  have ⟨hj, hm⟩ := Finset.mem_sdiff.mp hk
  have ht := (mem_keysOf.mp hj).2
  have ⟨r, hr, hn⟩ := h.exists_back hk
  have hpos : 0 < (j'.ageRef env' key).age := by
    have hle := le_age env' hr
    rw [(h.back _ hr hn).2.2.2] at hle
    exact h.ts_pos.trans_le hle
  have ⟨r', hr', he⟩ := exists_seen_eq_aged hpos
  have hn' : (key, r') ∉ m.pairs := fun hx => hm <| h.m_cons.mem_keysOf_iff.mpr ⟨ht, r', hx⟩
  rw [← he, (h.seen_back hr' hn').2]

-- A prefix that is back ranks below all that had stayed.
theorem lt_aged_again (hk : key ∈ j'.keysOf tenant \ m.keysOf tenant)
    (hk' : key' ∈ m.keysOf tenant) : j'.aged env' key < j'.aged env' key' := by
  have ⟨r, hx, hn⟩ := h.exists_back hk
  have ⟨ht, r', hy⟩ := h.m_cons.mem_keysOf_iff.mp hk'
  rw [h.aged_back hk]
  cases h.evicted_of_back hx hn
  case inl hv =>
    have hj : key' ∈ j.keysOf tenant := h.j_cons.mem_keysOf_iff.mpr ⟨ht, r', h.mem_j_of_mem_m hy⟩
    have ⟨hlt, hpos⟩ := h.lt_aged_of_mem_v hx hn hv hj (h.notMem_v hy)
    have hle := h.aged_le_again hy ht hpos
    exact hlt.trans_le hle
  case inr hw =>
    have hle : toLex (ts, key) ≤ j'.aged env' key' := by
      rw [← (h.seen_back hx hn).1]
      apply (h.seen_le hw (h.back _ hx hn).2.1 hy ht).trans
      rw [← h.seen_j' hy]
      exact seen_le_aged env' (h.kept _ hy).1
    apply lt_of_le_of_ne hle
    intro he
    have hkey : key = key' := congrArg (fun z => (ofLex z).2) he
    exact (Finset.mem_sdiff.mp hk).2 (hkey ▸ hk')

end Back

section Quota

variable (h : Twice cfg env env' tenant ts j k m j' v w) {v' : Finset PrefixKey}

include h

theorem keysOf_m_subset : m.keysOf tenant ⊆ k.keysOf tenant := by
  intro key hk
  have ⟨ht, r, hr⟩ := h.m_cons.mem_keysOf_iff.mp hk
  exact h.k_cons.mem_keysOf_iff.mpr ⟨ht, r, h.mem_k_of_mem_m hr⟩

theorem keysOf_m_subset_again : m.keysOf tenant ⊆ j'.keysOf tenant := by
  intro key hk
  have ⟨ht, r, hr⟩ := h.m_cons.mem_keysOf_iff.mp hk
  exact h.j'_cons.mem_keysOf_iff.mpr ⟨ht, r, (h.kept _ hr).1⟩

theorem keysOf_k : k.keysOf tenant = j.keysOf tenant \ v := by
  ext key
  rw [Finset.mem_sdiff, h.k_cons.mem_keysOf_iff, h.j_cons.mem_keysOf_iff]
  simp only [h.mem_k]
  tauto

theorem card_keysOf_k :
    (k.keysOf tenant).card = (j.keysOf tenant).card - j.quotaExcess env tenant := by
  rw [h.keysOf_k, Finset.card_sdiff_of_subset h.quota.subset, h.quota.card]

theorem quotaExcess_again_le :
    j'.quotaExcess env' tenant ≤ (j'.keysOf tenant \ m.keysOf tenant).card := by
  rw [Finset.card_sdiff_of_subset h.keysOf_m_subset_again]
  have hm := Finset.card_le_card h.keysOf_m_subset
  rw [h.card_keysOf_k, quotaExcess] at hm
  rw [quotaExcess, ← h.resolver]
  cases hq : env.tenantQuotaFor tenant
  case none => exact Nat.zero_le _
  case some q =>
    rw [hq] at hm
    dsimp only at hm ⊢
    split at hm
    case isTrue h0 => rw [if_pos h0]; omega
    case isFalse h0 => rw [if_neg h0]; exact Nat.zero_le _

-- The quota takes nothing but prefixes that are back.
theorem subset_back (hv : IsLowest (fun key => (j'.ageRef env' key).rank)
    (j'.quotaExcess env' tenant) (j'.keysOf tenant) v') :
    v' ⊆ j'.keysOf tenant \ m.keysOf tenant := by
  apply hv.subset_of_le_card h.quotaExcess_again_le
  case hs => exact Finset.sdiff_subset
  case hd =>
    intro key hk key' hk' hn
    have hm : key' ∈ m.keysOf tenant := by
      by_contra hm
      exact hn <| Finset.mem_sdiff.mpr ⟨hk', hm⟩
    have ht : key.tenant = key'.tenant :=
      (mem_keysOf.mp (Finset.mem_sdiff.mp hk).1).2.trans (mem_keysOf.mp hk').2.symm
    exact (AgeRef.rank_lt_rank_iff ht).mpr <| h.lt_aged_again hk hm

-- If the quota had evicted a prefix that it does not evict again, then there is room now, and so the
-- cap must have evicted all replicas of another one.
theorem exists_evicted (hv : IsLowest (fun key => (j'.ageRef env' key).rank)
    (j'.quotaExcess env' tenant) (j'.keysOf tenant) v')
    (hk : key ∈ j'.keysOf tenant \ m.keysOf tenant) (hkv : key ∈ v) (hn : key ∉ v') :
    ∃ key' ∈ k.keysOf tenant, key' ∉ m.keysOf tenant := by
  have hlt : v'.card < (j'.keysOf tenant \ m.keysOf tenant).card :=
    Finset.card_lt_card <| (Finset.ssubset_iff_of_subset (h.subset_back hv)).mpr ⟨key, hk, hn⟩
  have hpos : 0 < j.quotaExcess env tenant := h.quota.card ▸ Finset.card_pos.mpr ⟨key, hkv⟩
  have hc := h.card_keysOf_k
  have hle := Finset.card_le_card h.keysOf_m_subset_again
  rw [hv.card, Finset.card_sdiff_of_subset h.keysOf_m_subset_again] at hlt
  rw [quotaExcess, ← h.resolver] at hlt
  rw [quotaExcess] at hc hpos
  have hcard : (m.keysOf tenant).card < (k.keysOf tenant).card := by
    cases hq : env.tenantQuotaFor tenant
    case none => simp [hq] at hpos
    case some q =>
      rw [hq] at hlt hc hpos
      dsimp only at hlt hc hpos
      by_cases h0 : 0 ≤ q
      case neg => simp [h0] at hpos
      case pos =>
        rw [if_pos h0] at hlt hc hpos
        omega
  have hns : ¬k.keysOf tenant ⊆ m.keysOf tenant :=
    fun hs => absurd (Finset.card_le_card hs) (not_le.mpr hcard)
  exact Finset.not_subset.mp hns

end Quota

section Cap

variable (h : Twice cfg env env' tenant ts j k m j' v w) {v' : Finset PrefixKey}

include h

-- What stays past the quota this time ranks no higher than something the cap had evicted.
theorem exists_capRank_le (hv : IsLowest (fun key => (j'.ageRef env' key).rank)
    (j'.quotaExcess env' tenant) (j'.keysOf tenant) v')
    (hx : x ∈ j'.pairs) (hm : x ∉ m.pairs) (hn : x.1 ∉ v') :
    ∃ z ∈ w, z.1.tenant = tenant ∧ toLex (0, toLex (ts, toLex x)) ≤ k.capRank env z := by
  have ⟨hj, ht, hs, _⟩ := h.back x hx hm
  by_cases hw : x ∈ w
  case pos =>
    have hl : env.evictionFor x.1.tenant = .lru := ht ▸ h.lru
    refine ⟨x, hw, ht, ?_⟩
    rw [capRank_of_lru hl, h.held_k x (h.w_subset hw).1, hs]
  case neg =>
    have hxv : x.1 ∈ v := (h.evicted_of_back hx hm).resolve_right hw
    have hxm : x.1 ∉ m.keysOf tenant := by
      intro hk
      have ⟨_, _, hr⟩ := h.m_cons.mem_keysOf_iff.mp hk
      exact h.notMem_v hr hxv
    have hxj : x.1 ∈ j'.keysOf tenant := h.j'_cons.mem_keysOf_of_mem hx ht
    have ⟨key', hk', hm'⟩ := h.exists_evicted hv (Finset.mem_sdiff.mpr ⟨hxj, hxm⟩) hxv hn
    have ⟨hj', hv'⟩ := Finset.mem_sdiff.mp (h.keysOf_k ▸ hk')
    have ht' := (mem_keysOf.mp hk').2
    have ⟨hlt, hpos⟩ := h.lt_aged_of_mem_v hx hm hxv hj' hv'
    have ⟨r, hz, he⟩ := exists_seen_eq_aged hpos
    have hzk : (key', r) ∈ k.pairs := (h.mem_k _).mpr ⟨hz, hv'⟩
    have hzw : (key', r) ∈ w := by
      by_contra hzw
      have hzm := (h.mem_m _).mpr ⟨hzk, hzw⟩
      exact hm' <| h.m_cons.mem_keysOf_of_mem hzm ht'
    have hl : env.evictionFor key'.tenant = .lru := ht' ▸ h.lru
    refine ⟨(key', r), hzw, ht', le_of_lt ?_⟩
    rw [← he, ← h.seen_k hzk] at hlt
    rw [capRank_of_lru hl, Prod.Lex.toLex_lt_toLex]
    exact .inr ⟨rfl, toLex_lt_assoc_of_lt hlt⟩

theorem free_m : m.free cfg = k.free cfg \ w := by
  ext x
  rw [Finset.mem_sdiff, mem_free, mem_free, h.mem_m]
  tauto

theorem card_free_m : (m.free cfg).card = (k.free cfg).card - k.capExcess cfg := by
  rw [h.free_m, Finset.card_sdiff_of_subset h.cap.subset, h.cap.card]

section Again

variable {k' : Index F}
variable (hv : IsLowest (fun key => (j'.ageRef env' key).rank) (j'.quotaExcess env' tenant)
  (j'.keysOf tenant) v')
variable (hk : ∀ x, x ∈ k'.pairs ↔ x ∈ j'.pairs ∧ x.1 ∉ v')
variable (hh : ∀ x ∈ k'.pairs, k'.held x = j'.held x)

include hk

theorem tenant_again (hx : x ∈ k'.pairs \ m.pairs) : x.1.tenant = tenant := by
  have ⟨hx, hm⟩ := Finset.mem_sdiff.mp hx
  exact (h.back x ((hk x).mp hx).1 hm).2.1

include hh in
theorem capRank_again (hx : x ∈ k'.pairs \ m.pairs) :
    k'.capRank env' x = toLex (0, toLex (ts, toLex x)) := by
  have ht := h.tenant_again hk hx
  have ⟨hx, hm⟩ := Finset.mem_sdiff.mp hx
  have hl : env'.evictionFor x.1.tenant = .lru := by
    rw [ht, Env.evictionFor, ← h.eviction]
    exact h.lru
  rw [capRank_of_lru hl, hh x hx, (h.back x ((hk x).mp hx).1 hm).2.2.2]

include hv

theorem mem_again (hx : x ∈ m.pairs) : x ∈ k'.pairs := by
  refine (hk x).mpr ⟨(h.kept x hx).1, fun hx' => ?_⟩
  have ⟨hj, hm⟩ := Finset.mem_sdiff.mp <| h.subset_back hv hx'
  exact hm <| h.m_cons.mem_keysOf_of_mem hx (mem_keysOf.mp hj).2

theorem exists_capRank_le_again (hx : x ∈ k'.pairs \ m.pairs) :
    ∃ z ∈ w, z.1.tenant = tenant ∧ toLex (0, toLex (ts, toLex x)) ≤ k.capRank env z := by
  have ⟨hx, hm⟩ := Finset.mem_sdiff.mp hx
  have ⟨hj, hn⟩ := (hk x).mp hx
  exact h.exists_capRank_le hv hj hm hn

theorem not_reserved_again (hx : x ∈ k'.pairs \ m.pairs) :
    cfg.isReservedTenant x.1.tenant = false := by
  have ⟨z, hz, ht, _⟩ := h.exists_capRank_le_again hv hk hx
  rw [h.tenant_again hk hx, ← ht]
  exact (h.w_subset hz).2

theorem free_again : k'.free cfg = m.free cfg ∪ (k'.pairs \ m.pairs) := by
  ext x
  rw [Finset.mem_union, mem_free, mem_free]
  constructor
  case mp =>
    intro ⟨hx, hr⟩
    by_cases hm : x ∈ m.pairs
    case pos => exact .inl ⟨hm, hr⟩
    case neg => exact .inr <| Finset.mem_sdiff.mpr ⟨hx, hm⟩
  case mpr =>
    intro hx
    cases hx
    case inl hx => exact ⟨h.mem_again hv hk hx.1, hx.2⟩
    case inr hx => exact ⟨(Finset.mem_sdiff.mp hx).1, h.not_reserved_again hv hk hx⟩

theorem card_again : (k'.pairs \ m.pairs).card = k'.capExcess cfg := by
  have hd : Disjoint (m.free cfg) (k'.pairs \ m.pairs) :=
    Finset.disjoint_sdiff.mono_left <| Finset.filter_subset _ _
  have hc := Finset.card_union_of_disjoint hd
  rw [← h.free_again hv hk] at hc
  have hm := h.card_free_m
  have hw : (k'.pairs \ m.pairs).Nonempty → 0 < k.capExcess cfg := by
    intro ⟨x, hx⟩
    have ⟨z, hz, _⟩ := h.exists_capRank_le_again hv hk hx
    exact h.cap.card ▸ Finset.card_pos.mpr ⟨z, hz⟩
  rw [← Finset.card_pos] at hw
  by_cases h0 : 0 < cfg.maxEntries
  all_goals simp only [capExcess, excess, h0, if_true, if_false] at hm hw ⊢
  all_goals omega

include hh

theorem capRank_kept (hx : x ∈ m.pairs) : k'.capRank env' x = k.capRank env x := by
  have he : k'.held x = k.held x := by
    rw [hh x (h.mem_again hv hk hx), (h.kept x hx).2, h.held_m x hx]
  rw [← capRank_congr h.eviction, capRank, he, capRank]

-- What is back and stays past the quota is what the cap takes.
theorem isLowest_back :
    IsLowest (k'.capRank env') (k'.capExcess cfg) (k'.free cfg) (k'.pairs \ m.pairs) where
  subset := by
    rw [h.free_again hv hk]
    exact Finset.subset_union_right
  card := h.card_again hv hk
  below := by
    intro x hx y hy hn
    rw [h.free_again hv hk, Finset.mem_union] at hy
    have hy := hy.resolve_right hn
    have ⟨z, hz, _, hle⟩ := h.exists_capRank_le_again hv hk hx
    rw [h.capRank_again hk hh hx, h.capRank_kept hv hk hh (mem_free.mp hy).1]
    exact hle.trans_lt (h.capRank_lt hz hy)

end Again

end Cap

end Twice

section Ingest

theorem held_of_entryAt (h : i.entryAt x.1 x.2 = j.entryAt x.1 x.2) : i.held x = j.held x := by
  rw [held, h, held]

theorem entries_eq_of_held (hp : ∀ x, x ∈ i.pairs ↔ x ∈ j.pairs) (hh : ∀ x ∈ j.pairs, i.held x = j.held x) :
    i.entries = j.entries := by
  apply entries_ext
  intro key r
  by_cases hx : (key, r) ∈ j.pairs
  case neg => rw [notMem_pairs.mp hx, notMem_pairs.mp fun hn => hx <| (hp _).mp hn]
  case pos =>
    have ⟨e, he⟩ := Option.isSome_iff_exists.mp <| mem_pairs.mp hx
    have ⟨e', he'⟩ := Option.isSome_iff_exists.mp <| mem_pairs.mp <| (hp _).mpr hx
    have hh := hh _ hx
    rw [held, he', held, he] at hh
    exact he'.trans <| (congrArg some hh).trans he.symm

theorem entryAt_of_kept {p : PrefixKey × GoString → Prop} [DecidablePred p]
    (h : j.entries = i.entries.filter fun x _ => p x) :
    (∀ x, x ∈ j.pairs ↔ x ∈ i.pairs ∧ p x) ∧
      ∀ x ∈ j.pairs, j.entryAt x.1 x.2 = i.entryAt x.1 x.2 := by
  have hp : ∀ x, x ∈ j.pairs ↔ x ∈ i.pairs ∧ p x := by
    intro x
    rw [pairs, h, Finmap.keys_filter_key, Finset.mem_filter, decide_eq_true_iff, pairs]
  refine ⟨hp, fun x hx => ?_⟩
  have hpx := ((hp x).mp hx).2
  exact entryAt_of_filter_pos h fun _ => decide_eq_true hpx

variable [GoFloat F] {u : Update F}

-- Whoever still has the entry of a report does not learn anything from it.
theorem entryAt_recordUpdate_again (env' : Env) (ht : u.timestamp ≠ 0)
    (hm : m.entryAt x.1 x.2 = (i.recordUpdate cfg env u).entryAt x.1 x.2) :
    (m.recordUpdate cfg env' u).entryAt x.1 x.2 = m.entryAt x.1 x.2 := by
  rw [entryAt_recordUpdate, hm, entryAt_recordUpdate, u.seenAt_of_ne ht, u.seenAt_of_ne ht]
  by_cases hr : x.2 = u.replicaID
  case neg => simp only [hr, if_false]
  case pos =>
    simp only [hr, if_true]
    cases u.latest x.1
    case none => rfl
    case some p => rfl

theorem exists_latest_of_recordUpdate (hx : x ∈ (m.recordUpdate cfg env u).pairs) (hm : x ∉ m.pairs) :
    x.2 = u.replicaID ∧ ∃ p, u.latest x.1 = some p := by
  rw [mem_pairs, entryAt_recordUpdate, notMem_pairs.mp hm] at hx
  split at hx
  case isFalse => cases hx
  case isTrue hr =>
    refine ⟨hr, Option.isSome_iff_exists.mp ?_⟩
    simpa using hx

theorem lastSeen_recordUpdate (cfg : Config F) (i : Index F) (env : Env) (ht : u.timestamp ≠ 0) (hr : x.2 = u.replicaID)
    (hp : u.latest x.1 = some p) :
    x ∈ (i.recordUpdate cfg env u).pairs ∧
      ((i.recordUpdate cfg env u).held x).lastSeen = u.timestamp := by
  rw [mem_pairs, held, entryAt_recordUpdate, if_pos hr, hp, u.seenAt_of_ne ht]
  exact ⟨rfl, rfl⟩

theorem stats_recordUpdate_again (ht : u.timestamp ≠ 0)
    (hm : m.stats = (i.recordUpdate cfg env u).stats) :
    (m.recordUpdate cfg env' u).stats = m.stats := by
  apply Finmap.ext_lookup
  intro sk
  rw [lookup_stats_recordUpdate, hm, lookup_stats_recordUpdate, u.seenAt_of_ne ht, u.seenAt_of_ne ht]
  by_cases hk : sk = ⟨u.tenant, u.model, u.replicaID⟩
  case neg => simp only [hk, if_false]
  case pos =>
    simp only [hk, if_true]
    cases statsOf u u.timestamp
    case none => rfl
    case some _ => rfl

theorem Consistent.twice (h : Consistent cfg i) (ht : 0 < u.timestamp)
    (hq : env.quotaResolver = env'.quotaResolver) (he : env.evictionResolver = env'.evictionResolver)
    (hl : env.evictionFor u.tenant = .lru) :
    ∃ v w, Twice cfg env env' u.tenant u.timestamp (i.recordUpdate cfg env u) (i.beforeCap cfg env u)
      (i.ingest cfg env u) ((i.ingest cfg env u).recordUpdate cfg env' u) v w := by
  have hj : Consistent cfg (i.recordUpdate cfg env u) := h.recordUpdate
  have hk : Consistent cfg (i.beforeCap cfg env u) := h.beforeCap
  have hm : Consistent cfg (i.ingest cfg env u) := h.ingest
  obtain ⟨v, hv, hkv⟩ := hj.entries_enforceQuota env u.tenant
  obtain ⟨mem_k, held_k⟩ := entryAt_of_kept hkv
  have hme : (i.ingest cfg env u).entries = _ := hk.entries_enforceCapLocked
  obtain ⟨mem_m, held_m⟩ := entryAt_of_kept hme
  refine ⟨v, _, hl, he, ?resolver, ht, hj, hk, hm, hm.recordUpdate, hv, hk.isLowest_capVictims env,
    ?mem_k, ?held_k, ?mem_m, ?held_m, ?kept, ?back⟩
  case resolver => rw [Env.tenantQuotaFor, hq, Env.tenantQuotaFor]
  case mem_k => exact mem_k
  case held_k => exact fun x hx => held_of_entryAt (held_k x hx)
  case mem_m => exact mem_m
  case held_m => exact fun x hx => held_of_entryAt (held_m x hx)
  case kept =>
    intro x hx
    have hx' : x ∈ (i.beforeCap cfg env u).pairs := ((mem_m x).mp hx).1
    have hr := entryAt_recordUpdate_again env' ht.ne' <| (held_m x hx).trans (held_k x hx')
    exact ⟨mem_pairs.mpr <| hr ▸ mem_pairs.mp hx, held_of_entryAt hr⟩
  case back =>
    intro x hx hn
    obtain ⟨hr, p, hp⟩ := exists_latest_of_recordUpdate hx hn
    have htn : x.1.tenant = u.tenant := by
      by_contra hne
      exact Option.some_ne_none p <| hp.symm.trans (u.latest_eq_none hne)
    obtain ⟨hxj, hs⟩ := lastSeen_recordUpdate cfg i env ht.ne' hr hp
    exact ⟨hxj, htn, hs, (lastSeen_recordUpdate cfg _ env' ht.ne' hr hp).2⟩

theorem ingest_idempotent (cfg : Config F) (i : Index F) (h : Reachable cfg i) (env env' : Env)
    (u : Update F) (ht : 0 < u.timestamp) (hq : env.quotaResolver = env'.quotaResolver)
    (he : env.evictionResolver = env'.evictionResolver) (hl : env.evictionFor u.tenant = .lru) :
    (i.ingest cfg env u).ingest cfg env' u = i.ingest cfg env u := by
  have ⟨v, w, h₂⟩ := h.consistent.twice ht hq he hl
  have ⟨v', hv', hk⟩ := h₂.j'_cons.entries_enforceQuota env' u.tenant
  have hk' : Consistent cfg ((i.ingest cfg env u).beforeCap cfg env' u) := h₂.m_cons.beforeCap
  have ⟨mem_k, held_k⟩ := entryAt_of_kept hk
  have hme : ((i.ingest cfg env u).ingest cfg env' u).entries = _ := hk'.entries_enforceCapLocked
  have ⟨mem_m, held_m⟩ := entryAt_of_kept hme
  have hw := (hk'.isLowest_capVictims env').unique <|
    h₂.isLowest_back hv' mem_k fun x hx => held_of_entryAt (held_k x hx)
  have hp : ∀ x, x ∈ ((i.ingest cfg env u).ingest cfg env' u).pairs ↔ x ∈ (i.ingest cfg env u).pairs := by
    intro x
    rw [mem_m, hw, Finset.mem_sdiff]
    constructor
    case mp  => exact fun hx => not_not.mp fun hn => hx.2 ⟨hx.1, hn⟩
    case mpr => exact fun hx => ⟨h₂.mem_again hv' mem_k hx, fun hn => hn.2 hx⟩
  apply h₂.m_cons.ingest.ext h₂.m_cons
  case he =>
    apply entries_eq_of_held hp
    intro x hx
    have hm := held_m x ((hp x).mpr hx)
    have hk := held_k x (h₂.mem_again hv' mem_k hx)
    rw [held_of_entryAt (hm.trans hk), (h₂.kept x hx).2]
  case hs => rw [stats_ingest, stats_recordUpdate_again ht.ne' stats_ingest]

end Ingest

-- One of the two prefixes is evicted by the quota, and the other one by the cap.
theorem ingest_idempotent_twoPrefixes :
    ((run tight reports).ingest tight quotaOfOne twoPrefixes).pairs =
        {(⟨[0x74], [0x6d], [0x73], [], [1]⟩, [0x62])} ∧
      ((run tight reports).ingest tight quotaOfOne twoPrefixes).ingest tight
        { quotaOfOne with now := 10 } twoPrefixes =
          (run tight reports).ingest tight quotaOfOne twoPrefixes :=
  ⟨by decide +kernel, ingest_idempotent tight _ ⟨reports, rfl⟩ _ _ _ (by decide) rfl rfl rfl⟩

end InferenceCache.Index
