import InferenceCache.Index.Ingest
import InferenceCache.Index.Lookup

-- Observed routing decisions are replayed through the index for every configuration of a grid, and the best one
-- is selected. Each call of the index iterates over its maps in an order of its own.
namespace InferenceCache.Calibration

open FloatFormat GoFloat

def unixMilli (ms : Int64) : Time :=
  Time.unixEpoch + ms.toInt * Time.millisecond

-- `time.Duration(ms) * time.Millisecond`, which wraps around.
def milliseconds (ms : Int64) : Duration :=
  (ms * 1000000).toInt

section Types

variable (F : Type)

structure ReplicaObservation where
  id                     : GoString
  prefixReportedAtMillis : Int64
  statsReportedAtMillis  : Int64
  reportedPrefix         : Bool
  matchedTokens          : Int32
  hitRate                : F
  pressure               : F
  observedHit            : Bool

-- An observation of another kind is not counted.
inductive Kind
  | ofPrefix
  | tenantHot
  | other (kind : GoString)
  deriving DecidableEq

structure Observation where
  kind             : Kind
  atMillis         : Int64
  tenant           : GoString
  model            : GoString
  hashScheme       : GoString
  prefixHash       : Bytes
  ttftBudgetMillis : Int32
  replicas         : List (ReplicaObservation F)

variable [GoFloat F]

structure Sweep where
  pressureWeights       : List (Double F)
  sloTightTTFTMillis    : List Int32
  sloTightBiases        : List (Double F)
  tenantHotMinHitRates  : List (Double F)
  tenantHotMaxAgeMillis : List Int64

structure Trace where
  ttlMillis    : Int64
  sweep        : Sweep F
  observations : List (Observation F)

@[ext]
structure Config where
  pressureWeight        : Double F
  sloTightTTFTMillis    : Int32
  sloTightBias          : Double F
  tenantHotMinHitRate   : Double F
  tenantHotMaxAgeMillis : Int64

structure Metrics where
  prefixRequests      : Int
  prefixHits          : Int
  prefixHitRatePct    : Double F
  tenantHotRequests   : Int
  tenantHotHits       : Int
  tenantHotHitRatePct : Double F
  macroHitRatePct     : Double F

end Types

variable {F : Type} [GoFloat F]

section Replay

-- The map orders of the calls that one replayed observation makes, and of the `range` statements of each.
abbrev Orders := Nat → Nat → MapOrders

def defaultMaxEntries : Int := 1000000

-- The index of a replay, whose clock stands still.
def Trace.indexConfig (trace : Trace F) (config : Config F) : InferenceCache.Config F :=
  let ranker := {
    pressureWeight := narrow config.pressureWeight
    sloTightTTFTMs := config.sloTightTTFTMillis
    sloTightBias := narrow config.sloTightBias
    tenantHotMinHitRate := narrow config.tenantHotMinHitRate
    tenantHotMaxAge := milliseconds config.tenantHotMaxAgeMillis }
  .new (milliseconds trace.ttlMillis) defaultMaxEntries ranker []

def envAt (anchor : Time) (order : Nat → MapOrders) : Env where
  now _            := anchor
  ttlResolver      := none
  quotaResolver    := none
  evictionResolver := none
  order            := order

def servingOnlyHash (requested : Bytes) (replicaID : GoString) : Bytes :=
  requested ++ [0] ++ replicaID

namespace Observation

variable (o : Observation F) (replica : ReplicaObservation F)

-- A replica that did not report the prefix still serves the model, by a hash that nothing asks for.
def prefixUpdate : Update F where
  replicaID := replica.id
  model := o.model
  tenant := o.tenant
  hashScheme := o.hashScheme
  adapter := []
  timestamp := unixMilli replica.prefixReportedAtMillis
  prefixes := [{
    prefixHash := if replica.reportedPrefix then o.prefixHash else servingOnlyHash o.prefixHash replica.id
    tokenCount := if replica.reportedPrefix then replica.matchedTokens else 1
    blockHashes := []
    blockTokenCounts := []
    tier := 0
    adapter := [] }]
  stats := none

def statsUpdate : Update F where
  replicaID := replica.id
  model := o.model
  tenant := o.tenant
  hashScheme := o.hashScheme
  adapter := []
  timestamp := unixMilli replica.statsReportedAtMillis
  prefixes := []
  stats := some {
    replicaID := []
    cacheMemoryBytes := 0
    hitRate := replica.hitRate
    pressure := replica.pressure
    t2HitTokens := 0
    t2QueryTokens := 0 }

def request : LookupRequest where
  model := o.model
  tenant := o.tenant
  hashScheme := o.hashScheme
  adapter := []
  prefixHash := o.prefixHash
  blockHashes := []
  blockTokenCounts := []
  ttftBudgetMs := o.ttftBudgetMillis

end Observation

-- One round of the loop over the replicas of an observation, for the index.
def ingestReplica (cfg : InferenceCache.Config F) (ttl : Duration) (o : Observation F) (orders : Orders)
    (i : Index F) (x : ReplicaObservation F × Nat) : Index F :=
  let anchor := unixMilli o.atMillis
  let i :=
    if Time.sub anchor (unixMilli x.1.prefixReportedAtMillis) < ttl then
      i.ingest cfg (envAt anchor (orders (2 * x.2))) (o.prefixUpdate x.1)
    else i
  if Time.sub anchor (unixMilli x.1.statsReportedAtMillis) < ttl then
    i.ingest cfg (envAt anchor (orders (2 * x.2 + 1))) (o.statsUpdate x.1)
  else i

def observedHits (replicas : List (ReplicaObservation F)) : GoMap GoString Bool :=
  replicas.foldl (fun hits r => hits.insert r.id r.observedHit) ∅

def Kind.wantStrategy : Kind → Strategy
  | .tenantHot => .tenantHot
  | _          => .prefixMatch

def replayObservation (orders : Orders) (trace : Trace F) (o : Observation F) (config : Config F) : Bool :=
  let cfg    := trace.indexConfig config
  let i      := o.replicas.zipIdx.foldl (ingestReplica cfg (milliseconds trace.ttlMillis) o orders) .new
  let env    := envAt (unixMilli o.atMillis) (orders (2 * o.replicas.length))
  let result := i.lookupRoute cfg env o.request
  result.strategy = o.kind.wantStrategy ∧
    result.scores.head?.any fun s => ((observedHits o.replicas).lookup s.replicaID).getD false

def percentage (numerator denominator : Int) : Double F :=
  if denominator = 0 then 0 else ofInt numerator * ofInt 100 / ofInt denominator

namespace Metrics

def zero : Metrics F :=
  ⟨0, 0, 0, 0, 0, 0, 0⟩

def count (metrics : Metrics F) (kind : Kind) (hit : Bool) : Metrics F :=
  match kind with
  | .ofPrefix => { metrics with
      prefixRequests := metrics.prefixRequests + 1
      prefixHits     := if hit then metrics.prefixHits + 1 else metrics.prefixHits }
  | .tenantHot => { metrics with
      tenantHotRequests := metrics.tenantHotRequests + 1
      tenantHotHits     := if hit then metrics.tenantHotHits + 1 else metrics.tenantHotHits }
  | .other _ => metrics

-- The mean of the rates for which there were requests.
def withRates (metrics : Metrics F) : Metrics F :=
  let prefixHitRatePct    := percentage metrics.prefixHits metrics.prefixRequests
  let tenantHotHitRatePct := percentage metrics.tenantHotHits metrics.tenantHotRequests
  let (macroPct, samples) := if 0 < metrics.prefixRequests then (0 + prefixHitRatePct, 1) else (0, 0)
  let (macroPct, samples) :=
    if 0 < metrics.tenantHotRequests then (macroPct + tenantHotHitRatePct, samples + 1) else (macroPct, samples)
  { metrics with
    prefixHitRatePct
    tenantHotHitRatePct
    macroHitRatePct := if 0 < samples then macroPct / ofInt samples else macroPct }

end Metrics

def replay (orders : Nat → Orders) (trace : Trace F) (config : Config F) : Metrics F :=
  let metrics : Metrics F := trace.observations.zipIdx.foldl (fun metrics x =>
    metrics.count x.1.kind (replayObservation (orders x.2) trace x.1 config)) .zero
  metrics.withRates

end Replay

-- The first three criteria are maximised. Then smaller multipliers and a shorter window are preferred.
def better (candidateMetrics : Metrics F) (candidate : Config F) (bestMetrics : Metrics F) (best : Config F) :
    Bool :=
  if !eq candidateMetrics.macroHitRatePct bestMetrics.macroHitRatePct then
    lt bestMetrics.macroHitRatePct candidateMetrics.macroHitRatePct
  else if !eq candidateMetrics.prefixHitRatePct bestMetrics.prefixHitRatePct then
    lt bestMetrics.prefixHitRatePct candidateMetrics.prefixHitRatePct
  else if !eq candidateMetrics.tenantHotHitRatePct bestMetrics.tenantHotHitRatePct then
    lt bestMetrics.tenantHotHitRatePct candidateMetrics.tenantHotHitRatePct
  else if !eq candidate.pressureWeight best.pressureWeight then lt candidate.pressureWeight best.pressureWeight
  else if !eq candidate.sloTightBias best.sloTightBias then lt candidate.sloTightBias best.sloTightBias
  else if candidate.sloTightTTFTMillis ≠ best.sloTightTTFTMillis then
    candidate.sloTightTTFTMillis < best.sloTightTTFTMillis
  else if candidate.tenantHotMaxAgeMillis ≠ best.tenantHotMaxAgeMillis then
    candidate.tenantHotMaxAgeMillis < best.tenantHotMaxAgeMillis
  else lt best.tenantHotMinHitRate candidate.tenantHotMinHitRate

-- The variables of the search, and how many replays there were. Each of them has its own map orders.
structure Search (F : Type) [GoFloat F] where
  best        : Config F
  bestMetrics : Metrics F
  first       : Bool
  replays     : Nat

namespace Search

def start : Search F where
  best        := ⟨0, 0, 0, 0, 0⟩
  bestMetrics := .zero
  first       := true
  replays     := 0

def consider (orders : Nat → Nat → Orders) (trace : Trace F) (s : Search F) (candidate : Config F) : Search F :=
  let metrics := replay (orders s.replays) trace candidate
  if s.first || better metrics candidate s.bestMetrics s.best then ⟨candidate, metrics, false, s.replays + 1⟩
  else { s with replays := s.replays + 1 }

end Search

def bestGridPoint (orders : Nat → Nat → Orders) (trace : Trace F) : Config F × Metrics F :=
  let s : Search F :=
    trace.sweep.pressureWeights.foldl (fun s pressureWeight =>
      trace.sweep.sloTightTTFTMillis.foldl (fun s ttft =>
        trace.sweep.sloTightBiases.foldl (fun s bias =>
          trace.sweep.tenantHotMinHitRates.foldl (fun s hitRate =>
            trace.sweep.tenantHotMaxAgeMillis.foldl (fun s maxAge =>
              s.consider orders trace ⟨pressureWeight, ttft, bias, hitRate, maxAge⟩) s) s) s) s) .start
  (s.best, s.bestMetrics)

end InferenceCache.Calibration
