import InferenceCache.Index.Accounting
import InferenceCache.Index.Ranking

-- The `range` statements of a lookup are numbered in program order. Those over the blocks of a chain
-- come first, one per block.
namespace InferenceCache

structure LookupRequest where
  model            : GoString
  tenant           : GoString
  hashScheme       : GoString
  adapter          : GoString
  prefixHash       : Bytes
  blockHashes      : List Bytes
  blockTokenCounts : List Int32
  ttftBudgetMs     : Int32

namespace LookupRequest

def keyOf (req : LookupRequest) (h : Bytes) : PrefixKey :=
  ⟨req.tenant, req.model, req.hashScheme, req.adapter, h⟩

def statsKeyOf (req : LookupRequest) (id : GoString) : StatsKey :=
  ⟨req.tenant, req.model, id⟩

def modelKey (req : LookupRequest) : ModelKey :=
  ⟨req.tenant, req.model⟩

def scopeKey (req : LookupRequest) : ScopeKey :=
  ⟨req.tenant, req.model, req.hashScheme⟩

def chainBearing (req : LookupRequest) : Bool :=
  0 < req.blockHashes.length ∨ 0 < req.blockTokenCounts.length

end LookupRequest

inductive Strategy
  | none
  | prefixMatch
  | tenantHot
  | unknownTenant
  | unknownModel
  | unknownHashScheme
  deriving DecidableEq

-- The entries a lookup is going to credit, by the replica that holds them. An entry is referred to by
-- the key it is stored under.
abbrev Hits := GoMap GoString (List PrefixKey)

structure LookupResult (F : Type) where
  scores        : List (ReplicaScore F)
  strategy      : Strategy
  hitsByReplica : Hits

structure Running where
  matchedTokens  : Int32
  oldestLastSeen : Time
  runTier        : CacheTier
  entries        : List PrefixKey

structure WarmReplica (F : Type) where
  hitRate  : F
  pressure : F
  lastSeen : Time

namespace Index

open FloatFormat GoFloat

variable {F : Type} [GoFloat F] (cfg : Config F) (i : Index F) (env : Env) (req : LookupRequest)

def stale (lastSeen : Time) : Bool :=
  le (freshnessAt (env.now 0) lastSeen (cfg.ttlFor env req.tenant) : F) 0

-- A replica without fresh stats counts as unloaded.
def pressureOf (id : GoString) : F :=
  match i.stats.lookup (req.statsKeyOf id) with
  | some s =>
    if lt (0 : F) (freshnessAt (env.now 0) s.statsReported (cfg.ttlFor env req.tenant)) then
      s.stats.pressure
    else 0
  | none => 0

-- The score of a replica that matched `tokens`, the oldest of them seen at `lastSeen`.
def scoreOf (id : GoString) (tokens : Int32) (lastSeen : Time) (tier : CacheTier) : ReplicaScore F :=
  let fresh          := freshnessAt (env.now 0) lastSeen (cfg.ttlFor env req.tenant)
  let pressureFactor := pressureFactorAt (i.pressureOf cfg env req id) cfg.ranker.pressureWeight
  let sloBias        := 1 + fresh * sloTightBiasCoefficient cfg req.ttftBudgetMs
  ⟨id, ofInt tokens.toInt * fresh * pressureFactor * sloBias, tokens, fresh, tier⟩

-- All replicas with an entry in the engine domain, whichever prefix it is for.
def totalReplicas : Int :=
  (i.servingByScope.inner req.scopeKey).len

def lfu : Bool :=
  env.evictionFor req.tenant = .lfu

def lookupExact : List (ReplicaScore F) × Hits :=
  let key      := req.keyOf req.prefixHash
  let replicas := ((env.order 0).replicas key).range (i.prefixes.inner key)
  let scores   := replicas.filterMap fun x =>
    if stale cfg env req x.2.lastSeen then none
    else some (i.scoreOf cfg env req x.1 x.2.tokenCount x.2.lastSeen x.2.tier)
  let hits := replicas.foldl (fun hits x =>
    if stale cfg env req x.2.lastSeen then hits
    else if lfu env req ∧ 0 < x.2.tokenCount then
      hits.insert x.1 ((hits.lookup x.1).getD [] ++ [key])
    else hits) ∅
  let dp     := distinguishingPower F scores.length (i.totalReplicas req)
  let scores := if !eq dp 1 then scores.map (·.scale (narrow dp)) else scores
  (sortScoresDescByScoreThenID scores, hits)

section Chain

-- The first block, which starts a run for each of its holders.
def chainStart (o : RangeOrder GoString) (key : PrefixKey) (blockTokens : Int32)
    (holders : GoMap GoString ReplicaEntry) : GoMap GoString Running :=
  (o.range holders).foldl (fun current x =>
    if stale cfg env req x.2.lastSeen then current else
      current.insert x.1
        ⟨blockTokens, x.2.lastSeen, x.2.tier, if lfu env req then [key] else []⟩) ∅

def extendRun (key : PrefixKey) (blockTokens : Int32) (st : Running) (e : ReplicaEntry) : Running where
  matchedTokens  := st.matchedTokens + blockTokens
  oldestLastSeen := if e.lastSeen < st.oldestLastSeen then e.lastSeen else st.oldestLastSeen
  runTier        := worstTier st.runTier e.tier
  entries        := if lfu env req then st.entries ++ [key] else st.entries

-- Any later block, which either extends a run or ends it. Returns the runs that go on and all that
-- have ended.
def chainNext (o : RangeOrder GoString) (key : PrefixKey) (blockTokens : Int32)
    (holders : GoMap GoString ReplicaEntry) (current finalized : GoMap GoString Running) :
    GoMap GoString Running × GoMap GoString Running :=
  (o.range current).foldl (fun s x =>
    match holders.lookup x.1 with
    | some e =>
      if stale cfg env req e.lastSeen then (s.1, s.2.insert x.1 x.2)
      else (s.1.insert x.1 (extendRun env req key blockTokens x.2 e), s.2)
    | none => (s.1, s.2.insert x.1 x.2)) (∅, finalized)

def chainRest : Nat → List (Bytes × Int32) → GoMap GoString Running → GoMap GoString Running →
    GoMap GoString Running × GoMap GoString Running
  | _,        [],             current, finalized => (current, finalized)
  | blockIdx, (h, n) :: rest, current, finalized =>
    let key := req.keyOf h
    let s := chainNext cfg env req (env.order blockIdx).ids key n (i.prefixes.inner key) current finalized
    if s.1.len = 0 then s else chainRest (blockIdx + 1) rest s.1 s.2

def chainWalk : List (Bytes × Int32) → GoMap GoString Running × GoMap GoString Running
  | []             => (∅, ∅)
  | (h, n) :: rest =>
    let key := req.keyOf h
    let current := chainStart cfg env req ((env.order 0).replicas key) key n (i.prefixes.inner key)
    if current.len = 0 then (current, ∅) else i.chainRest cfg env req 1 rest current ∅

def lookupChain : List (ReplicaScore F) × Hits :=
  let blocks    := req.blockHashes.zip req.blockTokenCounts
  let walk      := i.chainWalk cfg env req blocks
  let finalized := ((env.order blocks.length).ids.range walk.1).foldl (fun m x => m.insert x.1 x.2) walk.2
  let runs      := (env.order (blocks.length + 1)).ids.range finalized
  let scores := runs.filterMap fun x =>
    if x.2.matchedTokens ≤ 0 ∨ stale cfg env req x.2.oldestLastSeen then none
    else some (i.scoreOf cfg env req x.1 x.2.matchedTokens x.2.oldestLastSeen x.2.runTier)
  let hits := runs.foldl (fun hits x =>
    if x.2.matchedTokens ≤ 0 ∨ stale cfg env req x.2.oldestLastSeen then hits
    else if lfu env req ∧ 0 < x.2.entries.length then hits.insert x.1 x.2.entries
    else hits) ∅
  (sortScoresDescByScoreThenID (applyChainDistinguishingPower scores (i.totalReplicas req)), hits)

end Chain

-- A chain whose two arrays disagree in length yields no hint, not a match of the single hash.
def lookupWithHits : List (ReplicaScore F) × Hits :=
  if req.hashScheme = [] then ([], ∅)
  else if req.chainBearing then
    if req.blockHashes.length ≠ req.blockTokenCounts.length then ([], ∅) else i.lookupChain cfg env req
  else i.lookupExact cfg env req

def lookup : List (ReplicaScore F) :=
  (i.lookupWithHits cfg env req).1

section TenantHot

def warmReplicas (known : GoMap GoString Unit) : GoMap GoString (WarmReplica F) :=
  ((env.order 1).ids.range known).foldl (fun warm x =>
    match i.stats.lookup (req.statsKeyOf x.1) with
    | none => warm
    | some s =>
      if cfg.ranker.tenantHotMaxAge ≤ Time.sub (env.now 1) s.statsReported then warm
      else if lt s.stats.hitRate cfg.ranker.tenantHotMinHitRate then warm
      else warm.insert x.1 ⟨s.stats.hitRate, s.stats.pressure, s.statsReported⟩) ∅

def recencyAt (now lastSeen : Time) (maxAge : Duration) : F :=
  let age := Time.sub now lastSeen
  if age ≤ 0 then 1
  else if maxAge ≤ age then 0
  else 1 - ofInt age / ofInt maxAge

def hotScore (id : GoString) (w : WarmReplica F) : ReplicaScore F :=
  let recency        := recencyAt (env.now 1) w.lastSeen cfg.ranker.tenantHotMaxAge
  let pressureFactor := pressureFactorAt w.pressure cfg.ranker.pressureWeight
  let sloBias        := 1 + recency * sloTightBiasCoefficient cfg req.ttftBudgetMs
  ⟨id, w.hitRate * recency * pressureFactor * sloBias, 0, w.hitRate, CacheTier.unspecified⟩

def tenantHotCandidates : List (ReplicaScore F) :=
  if cfg.ranker.tenantHotMaxAge ≤ 0 then []
  else if req.hashScheme = [] then []
  else
    let known := i.replicasByModel.inner req.modelKey
    if known.len = 0 then [] else
      let warm := i.warmReplicas cfg env req known
      if warm.len = 0 then [] else
        let serving := i.servingByScope.inner req.scopeKey
        if serving.len = 0 then [] else
          sortSlice ReplicaScore.before <| ((env.order 2).ids.range warm).filterMap fun x =>
            if serving.count x.1 = 0 then none else some (hotScore cfg env req x.1 x.2)

end TenantHot

section Diagnostics

omit [GoFloat F]

def hasAnyForTenantLocked (tenant : GoString) : Bool :=
  0 < i.prefixesByTenant.count tenant

def hasAnyForTenantModelLocked (mk : ModelKey) : Bool :=
  0 < i.prefixesByTenantModel.count mk

def hasAnyForTenantModelSchemeLocked (scope : ScopeKey) : Bool :=
  0 < (i.servingByScope.inner scope).len

-- The outermost of the request's keys the index has no data for. An index without any data blames
-- none of them.
def classifyMiss : Strategy :=
  if i.prefixes.len = 0 then .none
  else if !i.hasAnyForTenantLocked req.tenant then .unknownTenant
  else if !i.hasAnyForTenantModelLocked req.modelKey then .unknownModel
  else if !i.hasAnyForTenantModelSchemeLocked req.scopeKey then .unknownHashScheme
  else .none

end Diagnostics

-- A request with a chain never falls through to replicas that are merely warm.
def lookupRoute : LookupResult F :=
  if req.tenant = [] ∨ req.model = [] ∨ req.hashScheme = [] then ⟨[], .none, ∅⟩
  else if req.chainBearing then
    if req.blockHashes.length ≠ req.blockTokenCounts.length then ⟨[], .none, ∅⟩ else
      let (scores, hits) := i.lookupWithHits cfg env req
      if 0 < scores.length then ⟨scores, .prefixMatch, hits⟩ else ⟨[], i.classifyMiss req, ∅⟩
  else
    let (scores, hits) := i.lookupWithHits cfg env req
    if 0 < scores.length then ⟨scores, .prefixMatch, hits⟩ else
      let hot := i.tenantHotCandidates cfg env req
      if 0 < hot.length then ⟨hot, .tenantHot, ∅⟩ else ⟨[], i.classifyMiss req, ∅⟩

section Affinity

omit [GoFloat F]

def replicasForRouting (scope : ScopeKey) : List GoString :=
  if scope.hashScheme = [] then [] else
    sortSlice (· < ·) <| ((env.order 0).ids.range (i.servingByScope.inner scope)).map Prod.fst

-- `sha256` is the digest of the seed.
def affinityHint (sha256 : Bytes → Bytes) (scope : ScopeKey) (seed : Bytes) : Option GoString :=
  if seed.length = 0 then none else
    let replicas := i.replicasForRouting env scope
    if replicas.length = 0 then none else
      replicas[ofBeBytes ((sha256 seed).take 8) % replicas.length]?

end Affinity

end Index

end InferenceCache
