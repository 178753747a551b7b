import InferenceCache.Index.Eviction

namespace InferenceCache

variable {F : Type}

-- An entry that arrives without a tier is held in the engine's own cache.
def normalizeIngestTier (t : CacheTier) : CacheTier :=
  if t = CacheTier.unspecified then CacheTier.t1 else t

-- One call of `upsertReplicaLocked` that a report leads to.
structure Upsert where
  key        : PrefixKey
  tokenCount : Int32
  tier       : CacheTier

-- The entries of a chain, one per block, each with the tokens up to and including its block.
def chainUpserts (keyOf : Bytes → PrefixKey) (tier : CacheTier) :
    Int32 → List (Bytes × Int32) → List Upsert
  | _,          []             => []
  | cumulative, (h, n) :: rest =>
    ⟨keyOf h, cumulative + n, tier⟩ :: chainUpserts keyOf tier (cumulative + n) rest

def Update.keyOf (u : Update F) (p : PrefixRef) (h : Bytes) : PrefixKey where
  tenant     := u.tenant
  model      := u.model
  hashScheme := u.hashScheme
  adapter    := if p.adapter = [] then u.adapter else p.adapter
  prefixHash := h

-- A chain whose two arrays disagree in length is dropped, not downgraded to the single hash. A chain
-- that also carries a single hash yields both.
def Update.upsertsOf (u : Update F) (p : PrefixRef) : List Upsert :=
  let tier := normalizeIngestTier p.tier
  if 0 < p.blockHashes.length ∨ 0 < p.blockTokenCounts.length then
    if p.blockHashes.length ≠ p.blockTokenCounts.length then [] else
      chainUpserts (u.keyOf p) tier 0 (p.blockHashes.zip p.blockTokenCounts) ++
        if 0 < p.prefixHash.length then [⟨u.keyOf p p.prefixHash, p.tokenCount, tier⟩] else []
  else [⟨u.keyOf p p.prefixHash, p.tokenCount, tier⟩]

-- Hashes are only comparable within a known scheme, so without one no prefix is recorded.
def Update.upserts (u : Update F) : List Upsert :=
  if u.hashScheme = [] then [] else u.prefixes.flatMap u.upsertsOf

def Update.seenAt (u : Update F) (env : Env) : Time :=
  if u.timestamp = 0 then env.now 0 else u.timestamp

-- A report of one prefix under one hash.
def Update.single (tenant replicaID : GoString) (hash : Bytes) (timestamp : Time) : Update F where
  replicaID := replicaID
  model := [0x6d]
  tenant := tenant
  hashScheme := [0x73]
  adapter := []
  timestamp := timestamp
  prefixes := [⟨hash, 16, [], [], CacheTier.unspecified, []⟩]
  stats := none

def Event.seenAt (ev : Event) (env : Env) : Time :=
  if ev.timestamp = 0 then env.now 0 else ev.timestamp

-- Which entries a PREFIX_EVICTED event removes: under any scheme, and under any adapter unless the
-- event gives one.
def Event.evicts (ev : Event) (key : PrefixKey) : Bool :=
  if key.tenant ≠ ev.tenant ∨ key.model ≠ ev.model ∨ key.prefixHash ≠ ev.prefixHash then false
  else if ev.adapter ≠ [] ∧ key.adapter ≠ ev.adapter then false
  else true

def Event.clears (ev : Event) (key : PrefixKey) : Bool :=
  if key.tenant ≠ ev.tenant ∨ key.model ≠ ev.model then false else true

namespace Index

def recordPrefixes (cfg : Config F) (i : Index F) (u : Update F) (ts : Time) : Index F :=
  u.upserts.foldl (fun i p => i.upsertReplicaLocked cfg p.key u.replicaID p.tokenCount p.tier ts) i

section Ingest

variable [GoFloat F] (cfg : Config F) (i : Index F) (env : Env)

-- The replica id of the report is authoritative, since it is the one the index keys on.
def recordStats (i : Index F) (u : Update F) (ts : Time) : Index F :=
  match u.stats with
  | none => i
  | some st =>
    let st := { st with
      replicaID := u.replicaID
      hitRate   := sanitizeRate st.hitRate
      pressure  := sanitizeRate st.pressure }
    { i with stats := i.stats.insert ⟨u.tenant, u.model, u.replicaID⟩ ⟨st, ts, ts⟩ }.statsScopeAddLocked
      ⟨u.tenant, u.model⟩ u.replicaID

-- `Ingest` up to the point where budgets are enforced.
def recordUpdate (u : Update F) : Index F :=
  (i.recordPrefixes cfg u (u.seenAt env)).recordStats u (u.seenAt env)

omit [GoFloat F] in
def enforceQuota (tenant : GoString) : Index F :=
  match env.tenantQuotaFor tenant with
  | some maxEntries => (i.evictOldestForTenantLocked cfg env tenant maxEntries).1
  | none            => i

-- The state in which the cap step of an `Ingest` starts.
def beforeCap (u : Update F) : Index F :=
  (i.recordUpdate cfg env u).enforceQuota cfg env u.tenant

def ingest (u : Update F) : Index F :=
  ((i.beforeCap cfg env u).enforceCapLocked cfg env).1

end Ingest

section ApplyEvent

variable (cfg : Config F) (i : Index F) (env : Env)

def removeAmong (select : PrefixKey → Bool) (replicaID : GoString) : Index F :=
  ((env.order 0).prefixes.range i.prefixes).foldl (fun i x =>
    if select x.1 then i.removeReplicaLocked cfg x.1 replicaID else i) i

def applyEvent (ev : Event) : Index F :=
  match ev.type with
  | .replicaUpdated =>
    match i.stats.lookup ⟨ev.tenant, ev.model, ev.replicaID⟩ with
    | some s => { i with
        stats := i.stats.insert ⟨ev.tenant, ev.model, ev.replicaID⟩ { s with lastSeen := ev.seenAt env } }
    | none => i
  | .prefixEvicted => i.removeAmong cfg env ev.evicts ev.replicaID
  | .allCleared =>
    let i := i.removeAmong cfg env ev.clears ev.replicaID
    { i with stats := i.stats.erase ⟨ev.tenant, ev.model, ev.replicaID⟩ }.statsScopeRemoveLocked
      ⟨ev.tenant, ev.model⟩ ev.replicaID
  -- Reports are the only way entries are added.
  | .prefixAdded => i

end ApplyEvent

-- One use of an entry, counted when the lookup that matched it is delivered.
def creditHit (i : Index F) (key : PrefixKey) (replicaID : GoString) : Index F :=
  match i.entryAt key replicaID with
  | some e => { i with
      prefixes := i.prefixes.insert₂ key replicaID { e with accessCount := e.accessCount + 1 } }
  | none => i

end Index

-- The calls that change an index. Each runs under the index lock, so a run is a sequence of them.
inductive Call (F : Type)
  | ingest (u : Update F)
  | applyEvent (ev : Event)
  | evictExpired
  | creditHit (key : PrefixKey) (replicaID : GoString)

namespace Index

variable [GoFloat F] (cfg : Config F)

def step (i : Index F) (c : Call F × Env) : Index F :=
  match c.1 with
  | .ingest u                => i.ingest cfg c.2 u
  | .applyEvent ev           => i.applyEvent cfg c.2 ev
  | .evictExpired            => i.evictExpired cfg c.2
  | .creditHit key replicaID => i.creditHit key replicaID

-- A run of the index from the state it is built in, each call with its own environment.
def run (calls : List (Call F × Env)) : Index F :=
  calls.foldl (step cfg) new

def Reachable (i : Index F) : Prop :=
  ∃ calls, run cfg calls = i

-- What holds initially and is kept by every call holds of all reachable states.
theorem Reachable.induction {cfg : Config F} {P : Index F → Prop} {i : Index F}
    (h : Reachable cfg i) (hn : P new) (hs : ∀ i c, P i → P (step cfg i c)) : P i := by
  have ⟨calls, he⟩ := h
  subst he
  induction calls using List.reverseRecOn
  case nil => exact hn
  case append_singleton calls c hi =>
    rw [run, List.foldl_append]
    exact hs _ c <| hi ⟨calls, rfl⟩

end Index

end InferenceCache
