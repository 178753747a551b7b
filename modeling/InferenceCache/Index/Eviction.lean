import InferenceCache.Index.Accounting

-- The `range` statements of a call are numbered in program order, those of the quota step before
-- those of the cap step.
namespace InferenceCache

structure CapRef where
  key            : PrefixKey
  replica        : GoString
  algo           : EvictionAlgo
  effectiveCount : Int
  lastSeen       : Time

-- A prefix of one tenant with the latest time any of its holders was seen.
structure AgeRef where
  key : PrefixKey
  age : Time

def CapRef.less (x y : CapRef) : Bool :=
  if x.effectiveCount ≠ y.effectiveCount then x.effectiveCount < y.effectiveCount
  else if x.lastSeen ≠ y.lastSeen then x.lastSeen < y.lastSeen
  else if x.key ≠ y.key then
    if x.key.tenant ≠ y.key.tenant then x.key.tenant < y.key.tenant
    else if x.key.model ≠ y.key.model then x.key.model < y.key.model
    else if x.key.hashScheme ≠ y.key.hashScheme then x.key.hashScheme < y.key.hashScheme
    else if x.key.adapter ≠ y.key.adapter then x.key.adapter < y.key.adapter
    else x.key.prefixHash < y.key.prefixHash
  else x.replica < y.replica

-- The comparator of the quota step, which only ever sees keys of one tenant.
def AgeRef.less (a b : AgeRef) : Bool :=
  if a.age ≠ b.age then a.age < b.age
  else if a.key.model ≠ b.key.model then a.key.model < b.key.model
  else if a.key.hashScheme ≠ b.key.hashScheme then a.key.hashScheme < b.key.hashScheme
  else if a.key.adapter ≠ b.key.adapter then a.key.adapter < b.key.adapter
  else a.key.prefixHash < b.key.prefixHash

namespace Index

variable {F : Type} (cfg : Config F) (i : Index F) (env : Env)

def expired (tenant : GoString) (lastSeen : Time) : Bool :=
  0 < cfg.ttlFor env tenant ∧ cfg.ttlFor env tenant ≤ Time.sub (env.now 0) lastSeen

def evictExpired : Index F :=
  let i := ((env.order 0).prefixes.range i.prefixes).foldl (fun i x =>
    (((env.order 1).replicas x.1).range x.2).foldl (fun i r =>
      if expired cfg env x.1.tenant r.2.lastSeen then i.removeReplicaLocked cfg x.1 r.1 else i) i) i
  ((env.order 2).stats.range i.stats).foldl (fun i s =>
    if expired cfg env s.1.tenant s.2.lastSeen then
      { i with stats := i.stats.erase s.1 }.statsScopeRemoveLocked s.1.modelKey s.1.replicaID
    else i) i

def effectiveCount (tenant : GoString) (e : ReplicaEntry) : Int :=
  match env.evictionFor tenant with
  | .lfu => e.accessCount
  | .lru => 0

-- The victim candidates of the cap step, as the scan of the index collects them.
def capRefs : List CapRef :=
  ((env.order 3).prefixes.range i.prefixes).flatMap fun x =>
    if cfg.isReservedTenant x.1.tenant then [] else
      (((env.order 4).replicas x.1).range x.2).map fun r =>
        ⟨x.1, r.1, env.evictionFor x.1.tenant, effectiveCount env x.1.tenant r.2, r.2.lastSeen⟩

def evictOverCap : List CapRef → Index F → GoMap EvictionAlgo Int → Index F × GoMap EvictionAlgo Int
  | [],       i, evicted => (i, evicted)
  | r :: all, i, evicted =>
    if i.totalEntries - i.reservedEntries ≤ cfg.maxEntries then (i, evicted) else
      evictOverCap all (i.removeReplicaLocked cfg r.key r.replica) (evicted.incr r.algo)

-- Returns the evictions by algorithm as well.
def enforceCapLocked : Index F × GoMap EvictionAlgo Int :=
  if cfg.maxEntries ≤ 0 ∨ i.totalEntries - i.reservedEntries ≤ cfg.maxEntries then (i, ∅) else
    evictOverCap cfg (sortSlice CapRef.less (i.capRefs cfg env)) i ∅

def newestSeen (replicas : List (GoString × ReplicaEntry)) : Time :=
  replicas.foldl (fun newest r => if newest < r.2.lastSeen then r.2.lastSeen else newest) 0

def ageRefs (tenant : GoString) : List AgeRef :=
  ((env.order 0).prefixes.range i.prefixes).filterMap fun x =>
    if x.1.tenant ≠ tenant then none else
      some ⟨x.1, newestSeen (((env.order 1).replicas x.1).range x.2)⟩

-- Drops a prefix with all its replicas, whose ids are collected first.
def removePrefix (key : PrefixKey) : Index F :=
  ((((env.order 2).replicas key).range (i.prefixes.inner key)).map Prod.fst).foldl
    (fun i id => i.removeReplicaLocked cfg key id) i

def evictOverQuota (tenant : GoString) (maxPrefixes : Int) : List AgeRef → Index F → Nat → Index F × Nat
  | [],       i, removed => (i, removed)
  | r :: all, i, removed =>
    if i.prefixesByTenant.count tenant ≤ maxPrefixes then (i, removed) else
      evictOverQuota tenant maxPrefixes all (i.removePrefix cfg env r.key) (removed + 1)

-- Returns the number of prefixes removed as well.
def evictOldestForTenantLocked (tenant : GoString) (maxPrefixes : Int) : Index F × Nat :=
  if maxPrefixes < 0 then (i, 0)
  else if i.prefixesByTenant.count tenant ≤ maxPrefixes then (i, 0)
  else evictOverQuota cfg env tenant maxPrefixes (sortSlice AgeRef.less (i.ageRefs env tenant)) i 0

end Index

end InferenceCache
