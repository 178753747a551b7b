import InferenceCache.Index.Ingest

namespace InferenceCache

-- Distinct prefixes, not entries: a prefix counts once however many replicas hold it.
@[ext]
structure Aggregate where
  perTenant : GoMap GoString Int
  total     : Int

-- Replicas of different tenants may have the same id.
structure TenantReplica where
  tenant  : GoString
  replica : GoString
  deriving DecidableEq

namespace TenantReplica

def toLexTuple (tr : TenantReplica) : GoString ×ₗ GoString :=
  toLex (tr.tenant, tr.replica)

theorem toLexTuple_injective : Function.Injective toLexTuple := by
  intro ⟨_, _⟩ ⟨_, _⟩ h
  simp only [toLexTuple, EmbeddingLike.apply_eq_iff_eq, Prod.mk.injEq] at h
  simp [h]

instance : LinearOrder TenantReplica :=
  LinearOrder.lift' toLexTuple toLexTuple_injective

end TenantReplica

-- What a replica holds, over all models, schemes and adapters.
structure ReplicaPrefixAgg where
  count       : Int
  lastEventAt : Time

structure TenantAgg (F : Type) [GoFloat F] where
  sumHit : GoFloat.Double F
  n      : Int

-- The latest state of a replica. Without a report of stats, their values are zero and `statsReported`
-- is false.
structure ReplicaSnapshot (F : Type) where
  replicaID        : GoString
  tenant           : GoString
  cacheMemoryBytes : Int
  hitRate          : F
  pressure         : F
  lastUpdate       : Time
  prefixCount      : Int
  lastEventAt      : Time
  statsReported    : Bool
  t2HitTokens      : Int
  t2QueryTokens    : Int
  deriving DecidableEq

structure TenantSnapshot (F : Type) where
  tenantID        : GoString
  indexEntries    : Int
  hitRate         : F
  hitRateReported : Bool
  memoryUsed      : Int := 0
  deriving DecidableEq

@[ext]
structure Snapshot (F : Type) where
  replicas      : List (ReplicaSnapshot F)
  tenants       : List (TenantSnapshot F)
  totalPrefixes : Int
  hotPrefixes   : Int := 0
  deriving DecidableEq

namespace ReplicaSnapshot

variable {F : Type}

def less (a b : ReplicaSnapshot F) : Bool :=
  if a.tenant ≠ b.tenant then a.tenant < b.tenant else a.replicaID < b.replicaID

end ReplicaSnapshot

def StatsKey.tenantReplica (sk : StatsKey) : TenantReplica :=
  ⟨sk.tenant, sk.replicaID⟩

namespace Index

variable {F : Type} (cfg : Config F) (i : Index F) (env : Env)

def aggregateLocked : Aggregate :=
  ((env.order 0).prefixes.range i.prefixes).foldl (fun agg x =>
    if cfg.isReservedTenant x.1.tenant then agg
    else ⟨agg.perTenant.incr x.1.tenant, agg.total + 1⟩) ⟨∅, 0⟩

def entryCountsByModel : GoMap GoString Int :=
  ((env.order 0).prefixes.range i.prefixes).foldl (fun counts x =>
    if cfg.isReservedTenant x.1.tenant then counts else counts.incr x.1.model) ∅

section Snapshot

-- The newest stats of a replica over its models. Of several that are as new, the first one visited stays.
def latestByReplica : GoMap TenantReplica (StatEntry F) :=
  ((env.order 0).stats.range i.stats).foldl (fun latest x =>
    if cfg.isReservedTenant x.1.tenant then latest
    else
      match latest.lookup x.1.tenantReplica with
      | some cur => if cur.lastSeen < x.2.lastSeen then latest.insert x.1.tenantReplica x.2 else latest
      | none     => latest.insert x.1.tenantReplica x.2) ∅

def addHeld (held : GoMap TenantReplica ReplicaPrefixAgg) (tr : TenantReplica) (e : ReplicaEntry) :
    GoMap TenantReplica ReplicaPrefixAgg :=
  let a := (held.lookup tr).getD ⟨0, 0⟩
  held.insert tr ⟨a.count + 1, if a.lastEventAt < e.lastSeen then e.lastSeen else a.lastEventAt⟩

def prefixByReplica : GoMap TenantReplica ReplicaPrefixAgg :=
  ((env.order 1).prefixes.range i.prefixes).foldl (fun held x =>
    if cfg.isReservedTenant x.1.tenant then held
    else (((env.order 2).replicas x.1).range x.2).foldl
      (fun held r => addHeld held ⟨x.1.tenant, r.1⟩ r.2) held) ∅

variable [GoFloat F]

-- The row of a replica, from its stats and from what it holds.
def replicaSnapshot (tr : TenantReplica) (s? : Option (StatEntry F)) (a? : Option ReplicaPrefixAgg) :
    ReplicaSnapshot F where
  replicaID := tr.replica
  tenant := tr.tenant
  cacheMemoryBytes := (s?.map (·.stats.cacheMemoryBytes)).getD 0
  hitRate := (s?.map (·.stats.hitRate)).getD 0
  pressure := (s?.map (·.stats.pressure)).getD 0
  lastUpdate := (s?.map StatEntry.lastSeen).getD 0
  prefixCount := (a?.map ReplicaPrefixAgg.count).getD 0
  lastEventAt := (a?.map ReplicaPrefixAgg.lastEventAt).getD 0
  statsReported := s?.isSome
  t2HitTokens := (s?.map (·.stats.t2HitTokens)).getD 0
  t2QueryTokens := (s?.map (·.stats.t2QueryTokens)).getD 0

def addHit (byTenant : GoMap GoString (TenantAgg F)) (tenant : GoString) (hitRate : F) :
    GoMap GoString (TenantAgg F) :=
  let a := (byTenant.lookup tenant).getD ⟨0, 0⟩
  byTenant.insert tenant ⟨a.sumHit + GoFloat.widen hitRate, a.n + 1⟩

-- The row of a tenant, from the stats of its replicas and from its prefixes.
def tenantSnapshot (tenant : GoString) (a? : Option (TenantAgg F)) (indexEntries : Int) :
    TenantSnapshot F where
  tenantID        := tenant
  indexEntries    := indexEntries
  hitRate         := (a?.map fun a => if 0 < a.n then GoFloat.narrow (a.sumHit / FloatFormat.ofInt a.n) else 0).getD 0
  hitRateReported := (a?.map fun a => decide (0 < a.n)).getD false

-- Appends the row of a tenant, unless it is there already.
def emit (row : GoString → TenantSnapshot F) (s : GoMap GoString Unit × List (TenantSnapshot F))
    (tenant : GoString) : GoMap GoString Unit × List (TenantSnapshot F) :=
  match s.1.lookup tenant with
  | some _ => s
  | none   => (s.1.insert tenant (), s.2 ++ [row tenant])

-- `pairs` are the orders of the `range` statements over maps by replica.
def snapshot (pairs : Nat → RangeOrder TenantReplica) : Snapshot F :=
  let latest   := i.latestByReplica cfg env
  let held     := i.prefixByReplica cfg env
  let agg      := i.aggregateLocked cfg env
  let seen     := ((pairs 0).range latest).foldl (fun seen x => seen.insert x.1 ()) (∅ : GoMap TenantReplica Unit)
  let seen     := ((pairs 1).range held).foldl (fun seen x => seen.insert x.1 ()) seen
  let replicas := ((pairs 2).range seen).map fun x => replicaSnapshot x.1 (latest.lookup x.1) (held.lookup x.1)
  let byTenant := ((pairs 3).range latest).foldl
    (fun byTenant x => addHit byTenant x.1.tenant x.2.stats.hitRate) ∅
  let row (tenant : GoString) := tenantSnapshot tenant (byTenant.lookup tenant) (agg.perTenant.count tenant)
  let tenants  := (((env.order 3).ids.range byTenant).map Prod.fst).foldl (emit row) (∅, [])
  let tenants  := (((env.order 4).ids.range agg.perTenant).map Prod.fst).foldl (emit row) tenants
  { replicas      := sortSlice ReplicaSnapshot.less replicas
    tenants       := sortSlice (fun a b => a.tenantID < b.tenantID) tenants.2
    totalPrefixes := agg.total }

end Snapshot

end Index

end InferenceCache
