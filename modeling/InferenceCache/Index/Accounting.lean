import InferenceCache.Index.Types

namespace InferenceCache

-- The state of an index. All fields after `stats` are secondary: they are kept by hand in lockstep
-- with `prefixes` and `stats`, so that no lookup has to scan those.
@[ext]
structure Index (F : Type) where
  prefixes              : GoMap PrefixKey (GoMap GoString ReplicaEntry)
  stats                 : GoMap StatsKey (StatEntry F)
  totalEntries          : Int
  reservedEntries       : Int
  prefixesByTenant      : GoMap GoString Int
  prefixesByTenantModel : GoMap ModelKey Int
  servingByScope        : GoMap ScopeKey (GoMap GoString Int)
  replicasByModel       : GoMap ModelKey (GoMap GoString Unit)

namespace Index

variable {F : Type}

def new : Index F where
  prefixes := ∅
  stats := ∅
  totalEntries := 0
  reservedEntries := 0
  prefixesByTenant := ∅
  prefixesByTenantModel := ∅
  servingByScope := ∅
  replicasByModel := ∅

def entryAt (i : Index F) (key : PrefixKey) (replicaID : GoString) : Option ReplicaEntry :=
  i.prefixes.lookup₂ key replicaID

def scopeIncLocked (i : Index F) (scope : ScopeKey) (replicaID : GoString) : Index F :=
  { i with servingByScope := i.servingByScope.incr₂ scope replicaID }

def scopeDecLocked (i : Index F) (scope : ScopeKey) (replicaID : GoString) : Index F :=
  { i with servingByScope := i.servingByScope.decr₂ scope replicaID }

def statsScopeAddLocked (i : Index F) (mk : ModelKey) (replicaID : GoString) : Index F :=
  { i with replicasByModel := i.replicasByModel.insert₂ mk replicaID () }

def statsScopeRemoveLocked (i : Index F) (mk : ModelKey) (replicaID : GoString) : Index F :=
  { i with replicasByModel := i.replicasByModel.erase₂ mk replicaID }

def upsertReplicaLocked (cfg : Config F) (i : Index F) (key : PrefixKey) (replicaID : GoString)
    (tokenCount : Int32) (tier : CacheTier) (ts : Time) : Index F :=
  let i := match i.prefixes.lookup key with
    | some _ => i
    | none => { i with
        prefixes := i.prefixes.insert key ∅
        prefixesByTenant := i.prefixesByTenant.incr key.tenant
        prefixesByTenantModel := i.prefixesByTenantModel.incr key.modelKey }
  match i.entryAt key replicaID with
  | some e =>
    -- A refresh keeps the access counter: it counts lookups, not reports.
    let e := { e with tokenCount := tokenCount, lastSeen := ts, tier := tier }
    { i with prefixes := i.prefixes.insert₂ key replicaID e }
  | none =>
    let i := { i with
      prefixes := i.prefixes.insert₂ key replicaID ⟨tokenCount, ts, tier, 0⟩
      totalEntries := i.totalEntries + 1
      reservedEntries := i.reservedEntries + if cfg.isReservedTenant key.tenant then 1 else 0 }
    i.scopeIncLocked key.scopeKey replicaID

-- Every caller passes the replicas stored under `key`, so they are read from the index here.
def removeReplicaLocked (cfg : Config F) (i : Index F) (key : PrefixKey) (replicaID : GoString) :
    Index F :=
  match i.entryAt key replicaID with
  | none => i
  | some _ =>
    let replicas := (i.prefixes.inner key).erase replicaID
    let i := { i with
      prefixes := i.prefixes.insert key replicas
      totalEntries := i.totalEntries - 1
      reservedEntries := i.reservedEntries - if cfg.isReservedTenant key.tenant then 1 else 0 }
    let i := if replicas.len = 0 then { i with
        prefixes := i.prefixes.erase key
        prefixesByTenant := i.prefixesByTenant.decr key.tenant
        prefixesByTenantModel := i.prefixesByTenantModel.decr key.modelKey }
      else i
    i.scopeDecLocked key.scopeKey replicaID

variable [GoFloat F]

-- A rate that is not finite would later break the encoding of a snapshot.
def sanitizeRate (f : F) : F :=
  if FloatFormat.isFinite f then f else 0

end Index

end InferenceCache
