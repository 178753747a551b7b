import InferenceCache.Index.Theorems.Entries
import InferenceCache.Lib.Table
import InferenceCache.Server.Service
import InferenceCache.Subscriber.Reporter

-- What the index holds of one replica, and what the calls of its subscriber do to that.
namespace InferenceCache.EndToEnd

open Server

variable {F : Type} [GoFloat F]

section Serving

def tenantOf : Wire.Rpc F → GoString
  | .reportCacheState u => u.tenantID
  | .publishEvent ev    => ev.tenantID

-- A call that the server does not drop, and that leads to no entry being evicted for room.
def Succeeds (cfg : Config F) (env : Env) (i : Index F) (rpc : Wire.Rpc F) : Prop :=
  tenantOf rpc ≠ probeTenantID ∧ ∀ u, rpc = .reportCacheState u →
    (i.ingest cfg env (updateFromProto u)).entries = (i.recordUpdate cfg env (updateFromProto u)).entries

def Serves (cfg : Config F) (i : Index F) (rpc : Wire.Rpc F) (i' : Index F) : Prop :=
  ∃ env, Succeeds cfg env i rpc ∧ i' = serve cfg i env rpc

-- Without any limit there is nothing to evict.
theorem runs_of_unlimited {cfg : Config F} {env : Env} {i : Index F} {rpcs : List (Wire.Rpc F)}
    (hc : cfg.maxEntries ≤ 0) (hq : env.quotaResolver = none)
    (ht : ∀ rpc ∈ rpcs, tenantOf rpc ≠ probeTenantID) :
    Runs (Serves cfg) i rpcs (rpcs.foldl (fun i rpc => serve cfg i env rpc) i) := by
  induction rpcs generalizing i
  case nil => exact .nil _
  case cons rpc rpcs hi =>
    refine .cons ⟨env, ⟨ht rpc (.head _), fun u _ => ?_⟩, rfl⟩ (hi fun rpc hm => ht rpc (.tail _ hm))
    rw [Index.ingest, Index.enforceCapLocked, if_pos (.inl hc), Index.beforeCap, Index.enforceQuota,
      Env.tenantQuotaFor, hq]

theorem serve_event {cfg : Config F} {i i' : Index F} (type : EventType) {ev : Wire.CacheEvent}
    (ht : eventTypeFromProto ev.type = some type) (hv : Serves cfg i (.publishEvent ev) i') :
    ∃ env, i' = i.applyEvent cfg env (eventFromProto type ev) := by
  have ⟨env, ⟨hp, _⟩, hi⟩ := hv
  have hn : ev.tenantID ≠ probeTenantID := hp
  refine ⟨env, ?_⟩
  rw [hi, serve, publishEvent, if_neg hn, ht]

end Serving

variable {cfg : Config F} {c : Subscriber.Config} {i i' : Index F} {pending l : List Wire.PrefixEntry}

def contents (c : Subscriber.Config) (i : Index F) : Table PrefixKey (Int32 × CacheTier) :=
  fun key => (i.entryAt key c.replicaID).map fun e => (e.tokenCount, e.tier)

-- The events of an input, in the order in which the engine emitted them.
def eventsOf : Subscriber.Input F → List Subscriber.Event
  | .batch b => b.events
  | .tick    => []

theorem hashScheme_of_validate (h : c.validate = .ok ()) : c.hashScheme ≠ [] := by
  intro hs
  unfold Subscriber.Config.validate at h
  rw [if_pos hs] at h
  split at h
  case isTrue => cases h
  case isFalse =>
    split at h
    case isTrue => cases h
    case isFalse => cases h

section Report

-- The key that an entry of a replica's report is stored under.
def keyOf (c : Subscriber.Config) (x : Wire.PrefixEntry) : PrefixKey :=
  ⟨c.tenantID, c.modelID, c.hashScheme, x.adapterID, x.prefixHash⟩

def Plain (x : Wire.PrefixEntry) : Prop :=
  x.blockHashes = [] ∧ x.blockTokenCounts = []

def writes (c : Subscriber.Config) (l : List Wire.PrefixEntry) : List (PrefixKey × Int32 × CacheTier) :=
  if c.hashScheme = [] then [] else
    l.map fun x => (keyOf c x, x.tokenCount, normalizeIngestTier (cacheTierFromProto x.tier))

variable {tsUs : Int} {u : Wire.CacheStateUpdate F}

omit [GoFloat F] in
theorem update_eq_some (hu : c.update tsUs l = some u) :
    u.replicaID = c.replicaID ∧ u.modelID = c.modelID ∧ u.tenantID = c.tenantID ∧
      u.hashScheme = c.hashScheme ∧ u.adapterID = [] ∧ u.prefixes = l := by
  unfold Subscriber.Config.update at hu
  split at hu
  case isTrue => cases hu
  case isFalse =>
    obtain rfl := Option.some_injective _ hu
    exact ⟨rfl, rfl, rfl, rfl, rfl, rfl⟩

omit [GoFloat F] in
theorem upserts_eq (hp : ∀ x ∈ l, Plain x) (hu : c.update tsUs l = some u) :
    (updateFromProto u).upserts.map (fun p => (p.key, p.tokenCount, p.tier)) = writes c l := by
  have ⟨_, hm, ht, hc, ha, hx⟩ := update_eq_some hu
  have hk : ∀ x ∈ l, ((updateFromProto u).upsertsOf (prefixRefFromProto x)).map
      (fun p => (p.key, p.tokenCount, p.tier)) =
        [(keyOf c x, x.tokenCount, normalizeIngestTier (cacheTierFromProto x.tier))] := by
    intro x hx
    have ⟨hh, hn⟩ := hp x hx
    by_cases hd : x.adapterID = [] <;>
      simp [Update.upsertsOf, prefixRefFromProto, Update.keyOf, keyOf, updateFromProto, *]
  have hs : (updateFromProto u).hashScheme = c.hashScheme := hc
  have hl : (updateFromProto u).prefixes = l.map prefixRefFromProto := hx ▸ rfl
  rw [Update.upserts, writes, hs, hl, List.flatMap_map]
  split
  case isTrue => rfl
  case isFalse => rw [List.map_flatMap, List.flatMap_congr hk, List.map_eq_flatMap]

theorem contents_report (hp : ∀ x ∈ l, Plain x) (hu : c.update tsUs l = some u)
    (hv : Serves cfg i (.reportCacheState u) i') :
    contents c i' = (contents c i).putAll (writes c l) := by
  have ⟨env, ⟨ht, he⟩, hi⟩ := hv
  have hn : u.tenantID ≠ probeTenantID := ht
  have hr : (updateFromProto u).replicaID = c.replicaID := (update_eq_some hu).1
  have hi' : i'.entries = (i.recordUpdate cfg env (updateFromProto u)).entries := by
    rw [hi, serve, reportCacheState, if_neg hn, he u rfl]
  funext key
  have hk : i'.entryAt key c.replicaID =
      (i.recordUpdate cfg env (updateFromProto u)).entryAt key c.replicaID := by
    rw [← Index.lookup_entries (x := (key, _)), ← Index.lookup_entries (x := (key, _)), hi']
  have hf : (writes c l).reverse.find? (·.1 = key) =
      ((updateFromProto u).latest key).map fun p => (p.key, p.tokenCount, p.tier) := by
    rw [← upserts_eq hp hu, ← List.map_reverse, List.find?_map, Update.latest]
    rfl
  rw [contents, hk, Index.entryAt_recordUpdate, if_pos hr.symm, Table.putAll_apply, hf, contents]
  cases (updateFromProto u).latest key
  case none => simp
  case some p => cases i.entryAt key c.replicaID <;> rfl

end Report

section Removal

-- Which keys an eviction is about: those of one adapter, or of all if none is given.
def evicts (c : Subscriber.Config) (ep : Subscriber.EvictedPrefix) (key : PrefixKey) : Bool :=
  key.tenant = c.tenantID ∧ key.model = c.modelID ∧ key.prefixHash = ep.prefixHash ∧
    (ep.adapterID = [] ∨ key.adapter = ep.adapterID)

def clears (c : Subscriber.Config) (key : PrefixKey) : Bool :=
  key.tenant = c.tenantID ∧ key.model = c.modelID

theorem contents_event {type : EventType} {ev : Wire.CacheEvent} {p : PrefixKey → Bool}
    (hr : ev.replicaID = c.replicaID) (ht : eventTypeFromProto ev.type = some type)
    (hp : ∀ key, Index.removes (eventFromProto type ev) key = p key)
    (hv : Serves cfg i (.publishEvent ev) i') : contents c i' = (contents c i).drop p := by
  have ⟨env, hi⟩ := serve_event type ht hv
  funext key
  have hr' : c.replicaID = (eventFromProto type ev).replicaID := hr.symm
  rw [contents, Table.drop, contents, hi, Index.entryAt_of_filter Index.entries_applyEvent, hp key]
  cases i.entryAt key c.replicaID <;> cases p key <;> simp [hr']

theorem contents_evicted {ep : Subscriber.EvictedPrefix} {tsSeconds : GoFloat.Double F}
    (hv : Serves cfg i (.publishEvent (c.evictedEvent ep.prefixHash ep.adapterID tsSeconds)) i') :
    contents c i' = (contents c i).drop (evicts c ep) := by
  apply contents_event rfl rfl ?_ hv
  intro key
  simp only [Index.removes, Event.evicts, eventFromProto, Subscriber.Config.evictedEvent, evicts]
  grind

theorem contents_cleared {tsSeconds : GoFloat.Double F}
    (hv : Serves cfg i (.publishEvent (c.clearedEvent tsSeconds)) i') :
    contents c i' = (contents c i).drop (clears c) := by
  apply contents_event rfl rfl ?_ hv
  intro key
  simp only [Index.removes, Event.clears, eventFromProto, Subscriber.Config.clearedEvent, clears]
  grind

end Removal

section Sending

open Subscriber (Reporter)

variable {r : Reporter} {st : Reporter.State} {tsUs : Int} {tsSeconds : GoFloat.Double F}

-- What the index is going to hold of a replica once all that is pending has been sent.
def view (c : Subscriber.Config) (i : Index F) (pending : List Wire.PrefixEntry) :
    Table PrefixKey (Int32 × CacheTier) :=
  (contents c i).putAll (writes c pending)

omit [GoFloat F] in
theorem writes_append : writes c (pending ++ l) = writes c pending ++ writes c l := by
  unfold writes
  split
  case isTrue => rfl
  case isFalse => exact List.map_append

omit [GoFloat F] in
theorem view_append : view c i (pending ++ l) = (view c i pending).putAll (writes c l) := by
  rw [view, writes_append, Table.putAll_append, view]

omit [GoFloat F] in
theorem view_nil : view c i [] = contents c i := by
  unfold view writes
  split <;> rfl

theorem contents_sendAdds (hp : ∀ x ∈ l, Plain x) (hv : Runs (Serves cfg) i (r.sendAdds l tsUs) i') :
    contents r.cfg i' = view r.cfg i l := by
  unfold Reporter.sendAdds at hv
  cases hu : r.cfg.update (F := F) tsUs l
  case some u =>
    rw [hu] at hv
    exact contents_report hp hu (Runs.singleton_iff.mp hv)
  case none =>
    have hl : l = [] := by
      unfold Subscriber.Config.update at hu
      split at hu
      case isTrue h => exact List.length_eq_zero_iff.mp h
      case isFalse => cases hu
    rw [hu] at hv
    rw [hl, view_nil, Runs.nil_iff.mp hv]

omit [GoFloat F] in
theorem flush_pending : (r.flush (F := F) st).2.pending = [] := by
  unfold Reporter.flush
  split
  case isTrue h => exact List.length_eq_zero_iff.mp h
  case isFalse => rfl

omit [GoFloat F] in
theorem flush_pos : (r.flush (F := F) st).2.pos = st.pos := by
  unfold Reporter.flush
  split <;> rfl

theorem contents_flush (hp : ∀ x ∈ st.pending, Plain x) (hv : Runs (Serves cfg) i (r.flush st).1 i') :
    contents r.cfg i' = view r.cfg i st.pending := by
  unfold Reporter.flush at hv
  split at hv
  case isTrue h => rw [Runs.nil_iff.mp hv, List.length_eq_zero_iff.mp h, view_nil]
  case isFalse h => exact contents_sendAdds hp hv

theorem contents_evictions {evicted : List Subscriber.EvictedPrefix}
    (hv : Runs (Serves cfg) i (evicted.map fun ep =>
      .publishEvent (c.evictedEvent ep.prefixHash ep.adapterID tsSeconds)) i') :
    contents c i' = evicted.foldl (fun m ep => m.drop (evicts c ep)) (contents c i) := by
  induction evicted generalizing i
  case nil => rw [Runs.nil_iff.mp hv]; rfl
  case cons ep evicted hi =>
    have ⟨j, hj, hr⟩ := Runs.cons_iff.mp hv
    rw [hi hr, contents_evicted hj, List.foldl_cons]

end Sending

section Tenant

open Subscriber (Reporter)

variable {r : Reporter} {hashSeed : Bytes → UInt64 → UInt64} {tsSeconds : GoFloat.Double F} {tsUs : Int}
variable {st : Reporter.State}

omit [GoFloat F] in
theorem tenantOf_sendAdds : ∀ rpc ∈ r.sendAdds (F := F) l tsUs, tenantOf rpc = r.cfg.tenantID := by
  intro rpc hm
  have ⟨u, hu, he⟩ := List.mem_map.mp hm
  exact he ▸ (update_eq_some <| Option.mem_toList.mp hu).2.2.1

omit [GoFloat F] in
theorem tenantOf_flush : ∀ rpc ∈ (r.flush (F := F) st).1, tenantOf rpc = r.cfg.tenantID := by
  unfold Reporter.flush
  split
  case isTrue => simp
  case isFalse => exact tenantOf_sendAdds

theorem tenantOf_event {ev : Subscriber.Event} :
    ∀ rpc ∈ (r.onEvent hashSeed tsSeconds st ev).1, tenantOf rpc = r.cfg.tenantID := by
  intro rpc hm
  cases ev
  case allBlocksCleared => exact List.mem_singleton.mp hm ▸ rfl
  case blockStored ev =>
    simp only [Reporter.onEvent, Reporter.onStored] at hm
    split at hm
    case h_1 => cases hm
    case h_2 =>
      split at hm
      case isTrue => exact tenantOf_flush rpc hm
      case isFalse => cases hm
  case blockRemoved ev =>
    simp only [Reporter.onEvent, Reporter.onRemoved] at hm
    split at hm
    case isTrue =>
      split at hm
      case isTrue => cases hm
      case isFalse => exact (List.mem_append.mp hm).elim (tenantOf_flush rpc) (tenantOf_sendAdds rpc)
    case isFalse =>
      cases List.mem_append.mp hm
      case inl hm => exact tenantOf_flush rpc hm
      case inr hm =>
        have ⟨_, _, he⟩ := List.mem_map.mp hm
        exact he ▸ rfl

theorem tenantOf_run {inputs : List (Subscriber.Input F)} :
    ∀ rpc ∈ r.run hashSeed inputs, tenantOf rpc = r.cfg.tenantID := by
  intro rpc hm
  cases List.mem_append.mp hm
  case inr hm => exact tenantOf_flush rpc hm
  case inl hm =>
    refine forall_emitAll (p := fun rpc => tenantOf rpc = r.cfg.tenantID) (fun st x => ?_) rpc hm
    cases x
    case batch b => exact forall_emitAll fun _ _ => tenantOf_event
    case tick => exact tenantOf_flush

end Tenant

section

-- A replica, and an index without limits that its calls go to.
def replica : Subscriber.Reporter :=
  ⟨⟨[0x72], [0x6d], [0x74], [0x73], ∅⟩, 4096, false⟩

def unlimited : Config ℚ :=
  .new 0 0 .default []

def servedBy (rpcs : List (Wire.Rpc ℚ)) : Index ℚ :=
  rpcs.foldl (fun i rpc => serve unlimited i (.still 9) rpc) .new

-- Two blocks are stored and the second one is removed again, with a tick in between.
def storeThenRemove : List (Subscriber.Input ℚ) :=
  [.batch ⟨(1 : ℚ), [.blockStored ⟨[[1], [2]], none, [1, 2, 3, 4], 2, none⟩]⟩, .tick,
    .batch ⟨(2 : ℚ), [.blockRemoved ⟨[[2]]⟩]⟩]

end

end InferenceCache.EndToEnd
