import InferenceCache.Index.Ingest

namespace InferenceCache

-- What a report says about a key. Where it names the key more than once, the last mention counts.
def Update.latest (u : Update F) (key : PrefixKey) : Option Upsert :=
  u.upserts.reverse.find? (·.key = key)

theorem Update.seenAt_of_ne {u : Update F} {env : Env} (h : u.timestamp ≠ 0) :
    u.seenAt env = u.timestamp :=
  if_neg h

theorem Event.seenAt_of_ne {ev : Event} {env : Env} (h : ev.timestamp ≠ 0) :
    ev.seenAt env = ev.timestamp :=
  if_neg h

namespace Index

variable {F : Type} {cfg : Config F} {i i₁ i₂ : Index F} {key key' : PrefixKey}
variable {r r' : GoString} {tokenCount : Int32} {tier : CacheTier} {ts : Time} {e : ReplicaEntry}

def entries (i : Index F) : GoMap (PrefixKey × GoString) ReplicaEntry :=
  i.prefixes.flatten

def pairs (i : Index F) : Finset (PrefixKey × GoString) :=
  i.entries.keys

theorem pairs_def : i.pairs = i.prefixes.flatten.keys :=
  rfl

@[simp]
theorem lookup_entries {x : PrefixKey × GoString} : i.entries.lookup x = i.entryAt x.1 x.2 :=
  Finmap.lookup_flatten

@[simp]
theorem entries_new : (new : Index F).entries = ∅ :=
  Finmap.flatten_empty

theorem mem_pairs {x : PrefixKey × GoString} : x ∈ i.pairs ↔ (i.entryAt x.1 x.2).isSome :=
  Finmap.mem_keys_flatten

theorem notMem_pairs {x : PrefixKey × GoString} : x ∉ i.pairs ↔ i.entryAt x.1 x.2 = none := by
  simp [mem_pairs]

theorem mem_pairs_of_entryAt (h : i.entryAt key r = some e) : (key, r) ∈ i.pairs := by
  simp [mem_pairs, h]

theorem mem_keys_of_entryAt (h : i.entryAt key r = some e) : key ∈ i.prefixes.keys := by
  have ⟨_, h, _⟩ := Finmap.lookup₂_eq_some_iff.mp h
  exact Finmap.mem_keys_of_lookup h

-- An entry after a report of it, which starts counting accesses anew if there was none.
def refreshed (e? : Option ReplicaEntry) (tokenCount : Int32) (tier : CacheTier) (ts : Time) :
    ReplicaEntry :=
  ⟨tokenCount, ts, tier, (e?.map ReplicaEntry.accessCount).getD 0⟩

theorem upsertReplicaLocked_of_some (h : i.entryAt key r = some e) :
    i.upsertReplicaLocked cfg key r tokenCount tier ts =
      { i with prefixes := i.prefixes.insert₂ key r (refreshed (some e) tokenCount tier ts) } := by
  have ⟨_, hk, _⟩ := Finmap.lookup₂_eq_some_iff.mp h
  simp [upsertReplicaLocked, hk, h, refreshed]

theorem upsertReplicaLocked_of_none (h : i.entryAt key r = none) :
    i.upsertReplicaLocked cfg key r tokenCount tier ts =
      { i with
        prefixes := i.prefixes.insert₂ key r (refreshed none tokenCount tier ts)
        totalEntries := i.totalEntries + 1
        reservedEntries :=
          i.reservedEntries + if cfg.isReservedTenant key.tenant then 1 else 0
        prefixesByTenant :=
          if key ∈ i.prefixes.keys then i.prefixesByTenant else i.prefixesByTenant.incr key.tenant
        prefixesByTenantModel :=
          if key ∈ i.prefixes.keys then i.prefixesByTenantModel
          else i.prefixesByTenantModel.incr key.modelKey
        servingByScope := i.servingByScope.incr₂ key.scopeKey r } := by
  cases hk : i.prefixes.lookup key
  case some =>
    have hm := Finmap.mem_keys_of_lookup hk
    simp [upsertReplicaLocked, hk, h, refreshed, hm, scopeIncLocked]
  case none =>
    have hm := Finmap.notMem_keys_iff.mpr hk
    have he : (i.prefixes.insert key ∅).lookup₂ key r = none := by simp [Finmap.lookup₂]
    simp [upsertReplicaLocked, entryAt, hk, refreshed, hm, scopeIncLocked, he, Finmap.insert₂,
      Finmap.inner]

theorem removeReplicaLocked_of_none (h : i.entryAt key r = none) :
    i.removeReplicaLocked cfg key r = i := by
  simp [removeReplicaLocked, h]

theorem removeReplicaLocked_of_some (h : i.entryAt key r = some e) :
    i.removeReplicaLocked cfg key r =
      { i with
        prefixes := i.prefixes.erase₂ key r
        totalEntries := i.totalEntries - 1
        reservedEntries :=
          i.reservedEntries - if cfg.isReservedTenant key.tenant then 1 else 0
        prefixesByTenant :=
          if key ∈ (i.prefixes.erase₂ key r).keys then i.prefixesByTenant
          else i.prefixesByTenant.decr key.tenant
        prefixesByTenantModel :=
          if key ∈ (i.prefixes.erase₂ key r).keys then i.prefixesByTenantModel
          else i.prefixesByTenantModel.decr key.modelKey
        servingByScope := i.servingByScope.decr₂ key.scopeKey r } := by
  have ⟨replicas, hk, _⟩ := Finmap.lookup₂_eq_some_iff.mp h
  have hi : i.prefixes.inner key = replicas := by simp [Finmap.inner, hk]
  by_cases hl : (replicas.erase r).len = 0
  case pos =>
    simp [removeReplicaLocked, h, hi, hl, Finmap.erase₂, hk, scopeDecLocked, Finmap.erase_insert_self]
  case neg =>
    simp [removeReplicaLocked, h, hi, hl, Finmap.erase₂, hk, scopeDecLocked, Finmap.keys_insert]

theorem entries_upsertReplicaLocked :
    (i.upsertReplicaLocked cfg key r tokenCount tier ts).entries =
      i.entries.insert (key, r) (refreshed (i.entryAt key r) tokenCount tier ts) := by
  cases h : i.entryAt key r
  case none => rw [upsertReplicaLocked_of_none h]; exact Finmap.flatten_insert₂
  case some => rw [upsertReplicaLocked_of_some h]; exact Finmap.flatten_insert₂

theorem entries_removeReplicaLocked :
    (i.removeReplicaLocked cfg key r).entries = i.entries.erase (key, r) := by
  cases h : i.entryAt key r
  case some => rw [removeReplicaLocked_of_some h]; exact Finmap.flatten_erase₂
  case none =>
    rw [removeReplicaLocked_of_none h]
    refine Finmap.ext_lookup fun x => ?_
    rw [Finmap.lookup_erase_ite]
    split
    case isTrue hx => simp [hx, h]
    case isFalse => rfl

theorem stats_upsertReplicaLocked : (i.upsertReplicaLocked cfg key r tokenCount tier ts).stats = i.stats := by
  cases h : i.entryAt key r
  case none => rw [upsertReplicaLocked_of_none h]
  case some => rw [upsertReplicaLocked_of_some h]

theorem stats_removeReplicaLocked : (i.removeReplicaLocked cfg key r).stats = i.stats := by
  cases h : i.entryAt key r
  case none => rw [removeReplicaLocked_of_none h]
  case some => rw [removeReplicaLocked_of_some h]

theorem entries_ext (h : ∀ key r, i₁.entryAt key r = i₂.entryAt key r) : i₁.entries = i₂.entries :=
  Finmap.ext_lookup fun x => by simp [h]

theorem entryAt_of_filter {p : PrefixKey × GoString → ReplicaEntry → Bool}
    (h : i₂.entries = i₁.entries.filter p) :
    i₂.entryAt key r = (i₁.entryAt key r).filter (p (key, r)) := by
  simpa using congrArg (Finmap.lookup (key, r)) h

theorem entryAt_of_filter_pos {p : PrefixKey × GoString → ReplicaEntry → Bool}
    (h : i₂.entries = i₁.entries.filter p) (hp : ∀ e, p (key, r) e = true) :
    i₂.entryAt key r = i₁.entryAt key r := by
  simpa [Finmap.lookup_filter_of_pos hp] using congrArg (Finmap.lookup (key, r)) h

theorem entryAt_removeReplicaLocked :
    (i.removeReplicaLocked cfg key r).entryAt key' r' =
      if key' = key ∧ r' = r then none else i.entryAt key' r' := by
  rw [← lookup_entries (x := (key', r')), entries_removeReplicaLocked, Finmap.lookup_erase_ite]
  simp only [Prod.mk.injEq, lookup_entries]

section RemoveAll

variable {l : List (PrefixKey × GoString)} {env : Env}

-- Every eviction path removes entries one by one, whichever it selects.
def removeAll (cfg : Config F) (i : Index F) (l : List (PrefixKey × GoString)) : Index F :=
  l.foldl (fun i x => i.removeReplicaLocked cfg x.1 x.2) i

theorem entryAt_removeAll :
    (i.removeAll cfg l).entryAt key r = if (key, r) ∈ l then none else i.entryAt key r := by
  induction l generalizing i
  case nil => simp [removeAll]
  case cons x l hi =>
    rw [removeAll, List.foldl_cons, ← removeAll, hi, entryAt_removeReplicaLocked]
    simp only [List.mem_cons, Prod.ext_iff]
    split <;> split <;> simp_all

theorem stats_removeAll : (i.removeAll cfg l).stats = i.stats :=
  List.foldlRecOn (motive := (stats · = i.stats)) l _ rfl
    fun _ h _ _ => stats_removeReplicaLocked.trans h

theorem entries_removeAll : (i.removeAll cfg l).entries = i.entries.filter fun x _ => x ∉ l := by
  refine Finmap.ext_lookup fun x => ?_
  rw [lookup_entries, entryAt_removeAll, Finmap.lookup_filter, lookup_entries]
  by_cases h : x ∈ l <;> cases i.entryAt x.1 x.2 <;> simp [h, Option.filter]

theorem pairs_removeAll : (i.removeAll cfg l).pairs = i.pairs \ l.toFinset := by
  rw [pairs, entries_removeAll, Finmap.keys_filter_key, ← pairs, ← Finset.filter_notMem_eq_sdiff]
  simp

theorem removeAll_append {l' : List (PrefixKey × GoString)} :
    i.removeAll cfg (l ++ l') = (i.removeAll cfg l).removeAll cfg l' :=
  List.foldl_append

theorem removePrefix_eq : i.removePrefix cfg env key =
    i.removeAll cfg ((((env.order 2).replicas key).range (i.prefixes.inner key)).map (key, ·.1)) := by
  simp only [removePrefix, removeAll, List.foldl_map]

theorem removeAmong_eq {select : PrefixKey → Bool} : i.removeAmong cfg env select r =
    i.removeAll cfg
      ((((env.order 0).prefixes.range i.prefixes).filter (select ·.1)).map (·.1, r)) := by
  simp only [removeAmong, removeAll, List.foldl_map, List.foldl_filter]

-- The loop stops somewhere in the list of candidates.
theorem evictOverCap_eq {refs : List CapRef} {evicted : GoMap EvictionAlgo Int} :
    ∃ n, (evictOverCap cfg refs i evicted).1 =
      i.removeAll cfg ((refs.take n).map fun r => (r.key, r.replica)) := by
  induction refs generalizing i evicted
  case nil => exact ⟨0, rfl⟩
  case cons r refs hi =>
    unfold evictOverCap
    split
    case isTrue => exact ⟨0, rfl⟩
    case isFalse =>
      have ⟨n, h⟩ := @hi (i.removeReplicaLocked cfg r.key r.replica) (evicted.incr r.algo)
      exact ⟨n + 1, h⟩

theorem enforceCapLocked_eq (cfg : Config F) (i : Index F) (env : Env) :
    ∃ l, (i.enforceCapLocked cfg env).1 = i.removeAll cfg l := by
  unfold enforceCapLocked
  split
  case isTrue => exact ⟨[], rfl⟩
  case isFalse => exact evictOverCap_eq.elim fun _ h => ⟨_, h⟩

theorem evictOverQuota_eq {tenant : GoString} {q : Int} {refs : List AgeRef} {removed : Nat} :
    ∃ l, (evictOverQuota cfg env tenant q refs i removed).1 = i.removeAll cfg l := by
  induction refs generalizing i removed
  case nil => exact ⟨[], rfl⟩
  case cons r refs hi =>
    unfold evictOverQuota
    split
    case isTrue => exact ⟨[], rfl⟩
    case isFalse =>
      have ⟨_, h⟩ := @hi (i.removePrefix cfg env r.key) (removed + 1)
      rw [h, removePrefix_eq, ← removeAll_append]
      exact ⟨_, rfl⟩

theorem enforceQuota_eq (cfg : Config F) (i : Index F) (env : Env) (tenant : GoString) :
    ∃ l, i.enforceQuota cfg env tenant = i.removeAll cfg l := by
  unfold enforceQuota evictOldestForTenantLocked
  split
  case h_2 => exact ⟨[], rfl⟩
  case h_1 =>
    split
    case isTrue => exact ⟨[], rfl⟩
    case isFalse =>
      split
      case isTrue => exact ⟨[], rfl⟩
      case isFalse => exact evictOverQuota_eq

end RemoveAll

section Stats

variable {l : List StatsKey}

def dropStats (i : Index F) (sk : StatsKey) : Index F :=
  { i with stats := i.stats.erase sk }.statsScopeRemoveLocked sk.modelKey sk.replicaID

def dropAllStats (i : Index F) (l : List StatsKey) : Index F :=
  l.foldl dropStats i

theorem entries_dropAllStats : (i.dropAllStats l).entries = i.entries :=
  List.foldlRecOn (motive := (entries · = i.entries)) l _ rfl fun _ h _ _ => h

theorem stats_dropAllStats : (i.dropAllStats l).stats = i.stats.filter fun sk _ => sk ∉ l := by
  induction l generalizing i
  case nil => exact (Finmap.filter_eq_self fun _ _ _ => by simp).symm
  case cons sk l hi =>
    rw [dropAllStats, List.foldl_cons, ← dropAllStats, hi]
    refine Finmap.ext_lookup fun sk' => ?_
    simp only [dropStats, statsScopeRemoveLocked, Finmap.lookup_filter, Finmap.lookup_erase_ite,
      List.mem_cons]
    split <;> cases i.stats.lookup sk' <;> simp_all [Option.filter]

end Stats

section EvictExpired

variable {env : Env}

def expiredPairs (cfg : Config F) (i : Index F) (env : Env) : List (PrefixKey × GoString) :=
  ((env.order 0).prefixes.range i.prefixes).flatMap fun x =>
    ((((env.order 1).replicas x.1).range x.2).filter
      fun r => expired cfg env x.1.tenant r.2.lastSeen).map (x.1, ·.1)

def expiredStats (cfg : Config F) (i : Index F) (env : Env) : List StatsKey :=
  (((env.order 2).stats.range i.stats).filter
    fun s => expired cfg env s.1.tenant s.2.lastSeen).map Prod.fst

theorem mem_expiredPairs {x : PrefixKey × GoString} : x ∈ i.expiredPairs cfg env ↔
    ∃ e, i.entryAt x.1 x.2 = some e ∧ expired cfg env x.1.tenant e.lastSeen := by
  simp only [expiredPairs, List.mem_flatMap, List.mem_map, List.mem_filter, RangeOrder.mem_range,
    entryAt, Finmap.lookup₂_eq_some_iff]
  constructor
  case mp =>
    rintro ⟨y, hy, z, ⟨hz, he⟩, rfl⟩
    exact ⟨z.2, ⟨y.2, hy, hz⟩, he⟩
  case mpr =>
    rintro ⟨e, ⟨replicas, hk, hr⟩, he⟩
    exact ⟨(x.1, replicas), hk, (x.2, e), ⟨hr, he⟩, rfl⟩

theorem mem_expiredStats {sk : StatsKey} : sk ∈ i.expiredStats cfg env ↔
    ∃ s, i.stats.lookup sk = some s ∧ expired cfg env sk.tenant s.lastSeen := by
  simp only [expiredStats, List.mem_map, List.mem_filter, RangeOrder.mem_range]
  constructor
  case mp =>
    rintro ⟨x, ⟨hx, he⟩, rfl⟩
    exact ⟨x.2, hx, he⟩
  case mpr =>
    rintro ⟨s, hs, he⟩
    exact ⟨(sk, s), ⟨hs, he⟩, rfl⟩

theorem evictExpired_eq : i.evictExpired cfg env =
    (i.removeAll cfg (i.expiredPairs cfg env)).dropAllStats (i.expiredStats cfg env) := by
  have hs : (i.removeAll cfg (i.expiredPairs cfg env)).stats = i.stats := stats_removeAll
  rw [expiredStats, ← hs]
  simp only [evictExpired, dropAllStats, removeAll, expiredPairs, List.foldl_flatMap, List.foldl_map,
    List.foldl_filter, dropStats]

theorem entries_evictExpired : (i.evictExpired cfg env).entries =
    i.entries.filter fun x e => !expired cfg env x.1.tenant e.lastSeen := by
  rw [evictExpired_eq, entries_dropAllStats, entries_removeAll]
  refine Finmap.filter_congr fun x e h => ?_
  rw [lookup_entries] at h
  simp [mem_expiredPairs, h]

theorem stats_evictExpired : (i.evictExpired cfg env).stats =
    i.stats.filter fun sk s => !expired cfg env sk.tenant s.lastSeen := by
  rw [evictExpired_eq, stats_dropAllStats, stats_removeAll]
  refine Finmap.filter_congr fun sk s h => ?_
  simp [mem_expiredStats, h]

end EvictExpired

section Record

variable {u : Update F} {env : Env}

theorem entryAt_upsertReplicaLocked :
    (i.upsertReplicaLocked cfg key r tokenCount tier ts).entryAt key' r' =
      if key' = key ∧ r' = r then some (refreshed (i.entryAt key r) tokenCount tier ts)
      else i.entryAt key' r' := by
  rw [← lookup_entries (x := (key', r')), entries_upsertReplicaLocked, Finmap.lookup_insert_ite]
  simp only [Prod.mk.injEq, lookup_entries]

theorem entryAt_foldl_upsert {l : List Upsert} :
    (l.foldl (fun i p => i.upsertReplicaLocked cfg p.key r p.tokenCount p.tier ts) i).entryAt key r =
      ((l.reverse.find? (·.key = key)).map
        fun p => refreshed (i.entryAt key r) p.tokenCount p.tier ts).or (i.entryAt key r) := by
  induction l using List.reverseRecOn
  case nil => simp
  case append_singleton l p hi =>
    rw [List.foldl_concat, List.reverse_concat, entryAt_upsertReplicaLocked, List.find?_cons]
    by_cases hk : key = p.key
    case neg => simpa [hk, Ne.symm hk] using hi
    case pos =>
      subst hk
      rw [hi]
      cases l.reverse.find? (·.key = p.key) <;> simp [refreshed]

theorem entryAt_foldl_upsert_of_ne {l : List Upsert} (h : r' ≠ r) :
    (l.foldl (fun i p => i.upsertReplicaLocked cfg p.key r p.tokenCount p.tier ts) i).entryAt key r' =
      i.entryAt key r' :=
  List.foldlRecOn (motive := (entryAt · key r' = i.entryAt key r')) l _ rfl fun j hj p _ => by
    rw [entryAt_upsertReplicaLocked, if_neg (by simp [h]), hj]

theorem entryAt_recordPrefixes :
    (i.recordPrefixes cfg u ts).entryAt key r =
      if r = u.replicaID then
        ((u.latest key).map fun p => refreshed (i.entryAt key r) p.tokenCount p.tier ts).or
          (i.entryAt key r)
      else i.entryAt key r := by
  split
  case isTrue h => subst h; exact entryAt_foldl_upsert
  case isFalse h => exact entryAt_foldl_upsert_of_ne h

theorem stats_recordPrefixes : (i.recordPrefixes cfg u ts).stats = i.stats :=
  List.foldlRecOn (motive := (stats · = i.stats)) _ _ rfl
    fun _ h _ _ => stats_upsertReplicaLocked.trans h

variable [GoFloat F]

theorem entries_recordStats : (i.recordStats u ts).entries = i.entries := by
  unfold recordStats
  split <;> rfl

theorem entries_recordUpdate :
    (i.recordUpdate cfg env u).entries = (i.recordPrefixes cfg u (u.seenAt env)).entries :=
  entries_recordStats

theorem entryAt_recordUpdate :
    (i.recordUpdate cfg env u).entryAt key r =
      if r = u.replicaID then
        ((u.latest key).map
          fun p => refreshed (i.entryAt key r) p.tokenCount p.tier (u.seenAt env)).or (i.entryAt key r)
      else i.entryAt key r := by
  rw [← lookup_entries (x := (key, r)), entries_recordUpdate, lookup_entries]
  exact entryAt_recordPrefixes

-- The stats a report leaves behind for its replica.
def statsOf (u : Update F) (ts : Time) : Option (StatEntry F) :=
  u.stats.map fun st =>
    ⟨{ st with
        replicaID := u.replicaID
        hitRate   := sanitizeRate st.hitRate
        pressure  := sanitizeRate st.pressure }, ts, ts⟩

theorem lookup_stats_recordUpdate {sk : StatsKey} :
    (i.recordUpdate cfg env u).stats.lookup sk =
      if sk = ⟨u.tenant, u.model, u.replicaID⟩ then
        (statsOf u (u.seenAt env)).or (i.stats.lookup sk)
      else i.stats.lookup sk := by
  unfold recordUpdate recordStats statsOf
  cases u.stats
  case none => simp [stats_recordPrefixes]
  case some => simp [statsScopeAddLocked, stats_recordPrefixes, Finmap.lookup_insert_ite]

end Record

section ApplyEvent

variable {env : Env} {ev : Event}

theorem entries_removeAmong {select : PrefixKey → Bool} :
    (i.removeAmong cfg env select r).entries =
      i.entries.filter fun x _ => !(select x.1 && x.2 == r) := by
  rw [removeAmong_eq, entries_removeAll]
  refine Finmap.filter_congr fun x e h => ?_
  rw [lookup_entries] at h
  have ⟨replicas, hk, _⟩ := Finmap.lookup₂_eq_some_iff.mp h
  have hm : x ∈ (((env.order 0).prefixes.range i.prefixes).filter (select ·.1)).map (·.1, r) ↔
      select x.1 = true ∧ x.2 = r := by
    simp only [List.mem_map, List.mem_filter, RangeOrder.mem_range]
    constructor
    case mp =>
      rintro ⟨y, ⟨-, hs⟩, rfl⟩
      exact ⟨hs, rfl⟩
    case mpr =>
      rintro ⟨hs, rfl⟩
      exact ⟨(x.1, replicas), ⟨hk, hs⟩, rfl⟩
  simp only [hm]
  cases select x.1 <;> simp [beq_eq_decide]

theorem stats_removeAmong {select : PrefixKey → Bool} :
    (i.removeAmong cfg env select r).stats = i.stats := by
  rw [removeAmong_eq, stats_removeAll]

-- The entries an event takes away from its replica.
def removes (ev : Event) (key : PrefixKey) : Bool :=
  match ev.type with
  | .prefixEvicted => ev.evicts key
  | .allCleared => ev.clears key
  | .replicaUpdated | .prefixAdded => false

theorem entries_applyEvent : (i.applyEvent cfg env ev).entries =
    i.entries.filter fun x _ => !(removes ev x.1 && x.2 == ev.replicaID) := by
  unfold applyEvent removes
  cases ev.type
  case prefixAdded => exact (Finmap.filter_eq_self fun _ _ _ => by simp).symm
  case prefixEvicted => exact entries_removeAmong
  case allCleared => exact entries_removeAmong
  case replicaUpdated =>
    have h : i.entries.filter (fun x _ => !(false && x.2 == ev.replicaID)) = i.entries :=
      Finmap.filter_eq_self fun _ _ _ => by simp
    dsimp only
    rw [h]
    split <;> rfl

-- What an event does to the stats of its replica.
def touched (ev : Event) (ts : Time) (s : StatEntry F) : Option (StatEntry F) :=
  match ev.type with
  | .replicaUpdated => some { s with lastSeen := ts }
  | .allCleared => none
  | .prefixEvicted | .prefixAdded => some s

theorem lookup_stats_applyEvent {sk : StatsKey} :
    (i.applyEvent cfg env ev).stats.lookup sk =
      if sk = ⟨ev.tenant, ev.model, ev.replicaID⟩ then
        (i.stats.lookup sk).bind (touched ev (ev.seenAt env))
      else i.stats.lookup sk := by
  unfold applyEvent touched
  cases ev.type
  case prefixAdded => simp
  case prefixEvicted => simp [stats_removeAmong]
  case allCleared =>
    simp [statsScopeRemoveLocked, stats_removeAmong, Finmap.lookup_erase_ite]
  case replicaUpdated =>
    by_cases hk : sk = ⟨ev.tenant, ev.model, ev.replicaID⟩
    case neg => dsimp only; split <;> simp [hk]
    case pos => subst hk; dsimp only; split <;> simp [*]

end ApplyEvent

theorem entries_creditHit : (i.creditHit key r).entries =
    match i.entryAt key r with
    | some e => i.entries.insert (key, r) { e with accessCount := e.accessCount + 1 }
    | none => i.entries := by
  unfold creditHit
  cases i.entryAt key r
  case none => rfl
  case some => exact Finmap.flatten_insert₂

theorem entryAt_creditHit : (i.creditHit key r).entryAt key' r' =
    if key' = key ∧ r' = r then
      (i.entryAt key r).map fun e => { e with accessCount := e.accessCount + 1 }
    else i.entryAt key' r' := by
  rw [← lookup_entries (x := (key', r')), entries_creditHit]
  cases h : i.entryAt key r
  case some => simp [Finmap.lookup_insert_ite]
  case none =>
    rw [lookup_entries]
    split
    case isTrue hk => simp [hk, h]
    case isFalse => rfl

theorem stats_creditHit : (i.creditHit key r).stats = i.stats := by
  unfold creditHit
  split <;> rfl

end Index

end InferenceCache
