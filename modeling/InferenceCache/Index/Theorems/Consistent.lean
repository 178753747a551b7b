import InferenceCache.Index.Theorems.Entries

namespace InferenceCache.Index

variable {F : Type} {cfg : Config F} {i i₁ i₂ : Index F} {key key' : PrefixKey}
variable {r r' : GoString} {tokenCount : Int32} {tier : CacheTier} {ts : Time} {e : ReplicaEntry}

-- The secondary fields agree with `prefixes` and `stats`.
structure Consistent (cfg : Config F) (i : Index F) : Prop where
  noEmpty         : i.prefixes.NoEmpty
  total           : i.totalEntries = i.pairs.card
  reserved        : i.reservedEntries = (i.pairs.filter (cfg.isReservedTenant ·.1.tenant)).card
  byTenant        : i.prefixesByTenant.Tallies i.prefixes.keys PrefixKey.tenant
  byTenantModel   : i.prefixesByTenantModel.Tallies i.prefixes.keys PrefixKey.modelKey
  serving         : i.servingByScope.flatten.Tallies i.pairs fun x => (x.1.scopeKey, x.2)
  servingNoEmpty  : i.servingByScope.NoEmpty
  replicas        : ∀ sk : StatsKey, (i.replicasByModel.lookup₂ sk.modelKey sk.replicaID).isSome ↔
                      (i.stats.lookup sk).isSome
  replicasNoEmpty : i.replicasByModel.NoEmpty

namespace Consistent

theorem new : Consistent cfg (Index.new (F := F)) where
  noEmpty := .empty
  total := rfl
  reserved := rfl
  byTenant := .empty
  byTenantModel := .empty
  serving := by simpa [Index.new, pairs_def] using Finmap.Tallies.empty
  servingNoEmpty := .empty
  replicas := by simp [Index.new]
  replicasNoEmpty := .empty

-- Changing the values of entries, but not which there are, leaves nothing to count anew.
theorem of_pairs_eq (h : Consistent cfg i) {p : GoMap PrefixKey (GoMap GoString ReplicaEntry)}
    (hn : p.NoEmpty) (hk : p.keys = i.prefixes.keys) (hp : p.flatten.keys = i.pairs) :
    Consistent cfg { i with prefixes := p } where
  noEmpty := hn
  total := by simpa [pairs_def, hp] using h.total
  reserved := by simpa [pairs_def, hp] using h.reserved
  byTenant := by simpa [hk] using h.byTenant
  byTenantModel := by simpa [hk] using h.byTenantModel
  serving := by simpa [pairs_def, hp] using h.serving
  servingNoEmpty := h.servingNoEmpty
  replicas := h.replicas
  replicasNoEmpty := h.replicasNoEmpty

theorem insert₂_of_some (h : Consistent cfg i) (he : i.entryAt key r = some e) {e' : ReplicaEntry} :
    Consistent cfg { i with prefixes := i.prefixes.insert₂ key r e' } := by
  refine h.of_pairs_eq h.noEmpty.insert₂ ?_ ?_
  case refine_1 => rw [Finmap.keys_insert₂, Finset.insert_eq_of_mem (mem_keys_of_entryAt he)]
  case refine_2 =>
    rw [Finmap.flatten_insert₂]
    exact Finmap.keys_insert_of_mem (mem_pairs_of_entryAt he)

section Pairs

variable {s : Finset (PrefixKey × GoString)} {x : PrefixKey × GoString} {n : Int}

theorem card_insert (h : n = s.card) (hx : x ∉ s) : n + 1 = (insert x s).card := by
  rw [Finset.card_insert_of_notMem hx, h]
  push_cast
  rfl

theorem card_erase (h : n = s.card) (hx : x ∈ s) : n - 1 = (s.erase x).card := by
  have hp := Finset.card_pos.mpr ⟨_, hx⟩
  rw [Finset.card_erase_of_mem hx, h]
  omega

end Pairs

theorem upsertReplicaLocked (h : Consistent cfg i) :
    Consistent cfg (i.upsertReplicaLocked cfg key r tokenCount tier ts) := by
  cases he : i.entryAt key r
  case some => rw [upsertReplicaLocked_of_some he]; exact h.insert₂_of_some he
  case none =>
    have hx : (key, r) ∉ i.pairs := notMem_pairs.mpr he
    have hp : (i.prefixes.insert₂ key r (refreshed none tokenCount tier ts)).flatten.keys =
        insert (key, r) i.pairs := by
      rw [Finmap.flatten_insert₂]
      exact Finmap.keys_insert
    rw [upsertReplicaLocked_of_none he]
    constructor
    case noEmpty => exact h.noEmpty.insert₂
    case byTenant => exact h.byTenant.insert₂
    case byTenantModel => exact h.byTenantModel.insert₂
    case servingNoEmpty => exact h.servingNoEmpty.incr₂
    case replicas => exact h.replicas
    case replicasNoEmpty => exact h.replicasNoEmpty
    case total =>
      rw [pairs_def, hp]
      exact card_insert h.total hx
    case reserved =>
      rw [pairs_def, hp, Finset.filter_insert]
      dsimp only
      split
      case isTrue => exact card_insert h.reserved (by simp [hx])
      case isFalse => rw [add_zero, h.reserved]
    case serving =>
      rw [pairs_def, hp]
      dsimp only
      rw [Finmap.flatten_incr₂]
      exact h.serving.incr hx

theorem removeReplicaLocked (h : Consistent cfg i) : Consistent cfg (i.removeReplicaLocked cfg key r) := by
  cases he : i.entryAt key r
  case none => rwa [removeReplicaLocked_of_none he]
  case some =>
    have hx : (key, r) ∈ i.pairs := mem_pairs_of_entryAt he
    have hk : key ∈ i.prefixes.keys := mem_keys_of_entryAt he
    have hp : (i.prefixes.erase₂ key r).flatten.keys = i.pairs.erase (key, r) := by
      rw [Finmap.flatten_erase₂]
      exact Finmap.keys_erase _ _
    rw [removeReplicaLocked_of_some he]
    constructor
    case noEmpty => exact h.noEmpty.erase₂
    case byTenant => exact h.byTenant.erase₂ hk
    case byTenantModel => exact h.byTenantModel.erase₂ hk
    case servingNoEmpty => exact h.servingNoEmpty.decr₂
    case replicas => exact h.replicas
    case replicasNoEmpty => exact h.replicasNoEmpty
    case total =>
      rw [pairs_def, hp]
      exact card_erase h.total hx
    case reserved =>
      rw [pairs_def, hp, Finset.filter_erase]
      dsimp only
      split
      case isTrue hr => exact card_erase h.reserved (by simp [hx, hr])
      case isFalse hr =>
        rw [Finset.erase_eq_of_notMem (by simp [hr]), sub_zero, h.reserved]
    case serving =>
      rw [pairs_def, hp]
      dsimp only
      rw [Finmap.flatten_decr₂]
      -- Stated first, as unifying it with the goal unfolds the counters.
      have hd := h.serving.decr hx
      exact hd

theorem removeAll (h : Consistent cfg i) {l : List (PrefixKey × GoString)} :
    Consistent cfg (i.removeAll cfg l) :=
  List.foldlRecOn (motive := Consistent cfg) l _ h fun _ h _ _ => h.removeReplicaLocked

theorem recordPrefixes (h : Consistent cfg i) {u : Update F} :
    Consistent cfg (i.recordPrefixes cfg u ts) :=
  List.foldlRecOn (motive := Consistent cfg) _ _ h fun _ h _ _ => h.upsertReplicaLocked

-- Stats and the replicas they belong to change together.
theorem of_stats (h : Consistent cfg i) {stats : GoMap StatsKey (StatEntry F)}
    {replicas : GoMap ModelKey (GoMap GoString Unit)} (hn : replicas.NoEmpty)
    (hr : ∀ sk : StatsKey, (replicas.lookup₂ sk.modelKey sk.replicaID).isSome ↔
      (stats.lookup sk).isSome) :
    Consistent cfg { i with stats := stats, replicasByModel := replicas } :=
  { h with replicas := hr, replicasNoEmpty := hn }

theorem modelKey_replicaID_inj {sk sk' : StatsKey} :
    sk.modelKey = sk'.modelKey ∧ sk.replicaID = sk'.replicaID ↔ sk = sk' := by
  cases sk
  cases sk'
  simp [StatsKey.modelKey, and_assoc]

theorem insertStats (h : Consistent cfg i) (sk : StatsKey) {s : StatEntry F} :
    Consistent cfg ({ i with stats := i.stats.insert sk s }.statsScopeAddLocked
      sk.modelKey sk.replicaID) := by
  refine h.of_stats h.replicasNoEmpty.insert₂ fun sk' => ?_
  simp only [Finmap.lookup₂_insert₂, Finmap.lookup_insert_ite, modelKey_replicaID_inj]
  split
  case isTrue => simp
  case isFalse => exact h.replicas sk'

theorem dropStats (h : Consistent cfg i) (sk : StatsKey) : Consistent cfg (i.dropStats sk) := by
  refine h.of_stats h.replicasNoEmpty.erase₂ fun sk' => ?_
  simp only [Finmap.lookup₂_erase₂, Finmap.lookup_erase_ite, modelKey_replicaID_inj]
  split
  case isTrue => simp
  case isFalse => exact h.replicas sk'

theorem refreshStats (h : Consistent cfg i) {sk : StatsKey} {s s' : StatEntry F}
    (hs : i.stats.lookup sk = some s) : Consistent cfg { i with stats := i.stats.insert sk s' } := by
  refine h.of_stats h.replicasNoEmpty fun sk' => ?_
  rw [h.replicas sk', Finmap.lookup_insert_ite]
  split
  case isTrue hk => subst hk; simp [hs]
  case isFalse => rfl

section Calls

variable {env : Env}

theorem evictExpired (h : Consistent cfg i) : Consistent cfg (i.evictExpired cfg env) := by
  rw [evictExpired_eq]
  exact List.foldlRecOn (motive := Consistent cfg) _ _ h.removeAll fun _ h sk _ => h.dropStats sk

theorem applyEvent (h : Consistent cfg i) {ev : Event} :
    Consistent cfg (i.applyEvent cfg env ev) := by
  unfold Index.applyEvent
  cases ev.type
  case prefixAdded => exact h
  case prefixEvicted => dsimp only; rw [removeAmong_eq]; exact h.removeAll
  case allCleared =>
    dsimp only
    rw [removeAmong_eq]
    exact h.removeAll.dropStats ⟨ev.tenant, ev.model, ev.replicaID⟩
  case replicaUpdated =>
    dsimp only
    split
    case h_1 hs => exact h.refreshStats hs
    case h_2 => exact h

theorem creditHit (h : Consistent cfg i) : Consistent cfg (i.creditHit key r) := by
  unfold Index.creditHit
  split
  case h_1 he => exact h.insert₂_of_some he
  case h_2 => exact h

variable [GoFloat F] {u : Update F}

theorem recordUpdate (h : Consistent cfg i) : Consistent cfg (i.recordUpdate cfg env u) := by
  unfold Index.recordUpdate recordStats
  split
  case h_1 => exact h.recordPrefixes
  case h_2 => exact h.recordPrefixes.insertStats ⟨u.tenant, u.model, u.replicaID⟩

theorem beforeCap (h : Consistent cfg i) : Consistent cfg (i.beforeCap cfg env u) := by
  have ⟨_, hq⟩ := enforceQuota_eq cfg (i.recordUpdate cfg env u) env u.tenant
  rw [Index.beforeCap, hq]
  exact h.recordUpdate.removeAll

theorem ingest (h : Consistent cfg i) : Consistent cfg (i.ingest cfg env u) := by
  have ⟨_, hc⟩ := enforceCapLocked_eq cfg (i.beforeCap cfg env u) env
  rw [Index.ingest, hc]
  exact h.beforeCap.removeAll

theorem step (h : Consistent cfg i) {c : Call F × Env} : Consistent cfg (step cfg i c) := by
  unfold Index.step
  cases c.1
  case ingest => exact h.ingest
  case applyEvent => exact h.applyEvent
  case evictExpired => exact h.evictExpired
  case creditHit => exact h.creditHit

end Calls

theorem lookup₂_replicasByModel (h₁ : Consistent cfg i₁) (h₂ : Consistent cfg i₂) {mk : ModelKey}
    (hs : i₁.stats.lookup ⟨mk.tenant, mk.model, r⟩ = i₂.stats.lookup ⟨mk.tenant, mk.model, r⟩) :
    i₁.replicasByModel.lookup₂ mk r = i₂.replicasByModel.lookup₂ mk r := by
  have hr : (i₁.replicasByModel.lookup₂ mk r).isSome ↔ (i₂.replicasByModel.lookup₂ mk r).isSome :=
    (h₁.replicas ⟨mk.tenant, mk.model, r⟩).trans <|
      hs ▸ (h₂.replicas ⟨mk.tenant, mk.model, r⟩).symm
  revert hr
  cases i₁.replicasByModel.lookup₂ mk r <;> cases i₂.replicasByModel.lookup₂ mk r <;> simp

-- The secondary fields carry no information of their own.
theorem ext (h₁ : Consistent cfg i₁) (h₂ : Consistent cfg i₂) (he : i₁.entries = i₂.entries)
    (hs : i₁.stats = i₂.stats) : i₁ = i₂ := by
  have hf : i₁.prefixes = i₂.prefixes := h₁.noEmpty.flatten_inj h₂.noEmpty he
  have hp : i₁.pairs = i₂.pairs := congrArg Finmap.keys he
  refine Index.ext hf hs ?_ ?_ ?_ ?_ ?_ ?_
  case refine_1 => rw [h₁.total, h₂.total, hp]
  case refine_2 => rw [h₁.reserved, h₂.reserved, hp]
  case refine_3 => exact h₁.byTenant.unique (hf ▸ h₂.byTenant)
  case refine_4 => exact h₁.byTenantModel.unique (hf ▸ h₂.byTenantModel)
  case refine_5 => exact h₁.servingNoEmpty.flatten_inj h₂.servingNoEmpty <| h₁.serving.unique (hp ▸ h₂.serving)
  case refine_6 =>
    refine h₁.replicasNoEmpty.flatten_inj h₂.replicasNoEmpty <| Finmap.ext_lookup fun x => ?_
    rw [Finmap.lookup_flatten, Finmap.lookup_flatten, h₁.lookup₂_replicasByModel h₂ (hs ▸ rfl)]

end Consistent

variable [GoFloat F]

theorem Reachable.consistent (h : Reachable cfg i) : Consistent cfg i :=
  h.induction .new fun _ _ h => h.step

theorem run_consistent (cfg : Config F) (calls : List (Call F × Env)) :
    Consistent cfg (run cfg calls) :=
  Reachable.consistent ⟨calls, rfl⟩

end InferenceCache.Index
