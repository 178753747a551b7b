import InferenceCache.Server.Handler

namespace InferenceCache.Server

structure ProbeRequest where
  backend     : GoString
  backendType : GoString
  model       : GoString
  hashScheme  : GoString
  deriving DecidableEq

inductive ProbeStageResult
  | ok
  | failed
  | skipped
  deriving DecidableEq

inductive ProbeStage
  | ingest
  | routing
  | t2
  deriving DecidableEq

structure ProbeStageError where
  stage   : ProbeStage
  message : GoString
  deriving DecidableEq

structure ProbeResult where
  backend : GoString
  ingest  : ProbeStageResult
  routing : ProbeStageResult
  t2      : ProbeStageResult
  errors  : List ProbeStageError
  deriving DecidableEq

section Names

def probeReplicaPrefix : GoString := utf8 "__probe-"

def probeTokenCount : Int32 := 16

def backendTypeLMCache : GoString := utf8 "LMCache"

def probeReplicaID (backend : GoString) : GoString :=
  probeReplicaPrefix ++ backend

-- Only the low 32 bits of a length are written.
def probeHashField (s : GoString) : Bytes :=
  beBytes 4 s.length ++ s

def probeHash (sha256 : Bytes → Bytes) (req : ProbeRequest) : Bytes :=
  sha256 (utf8 "inferencecache.io/probe/v1\n" ++ probeHashField req.hashScheme ++
    probeHashField req.model ++ probeHashField req.backend)

def probePayload (hash : Bytes) : Bytes :=
  utf8 "probe-payload-v1\n" ++ hash

-- Where a backend contains the separator, two requests may share a lock without need.
def lockKey (req : ProbeRequest) : GoString :=
  req.backend ++ [0] ++ req.model

def reasonText : Wire.ReasonCode → GoString
  | .prefixMatch         => utf8 "PREFIX_MATCH"
  | .tenantHot           => utf8 "TENANT_HOT"
  | .affinityHint        => utf8 "AFFINITY_HINT"
  | .noHint              => utf8 "NO_HINT"
  | .timeout             => utf8 "TIMEOUT"
  | .policyRequiresChain => utf8 "POLICY_REQUIRES_CHAIN"
  | .unknownTenant       => utf8 "UNKNOWN_TENANT"
  | .unknownModel        => utf8 "UNKNOWN_MODEL"
  | .unknownHashScheme   => utf8 "UNKNOWN_HASH_SCHEME"

end Names

-- What a prober is built with. A prober of the second tier answers with the text of its error, if any.
structure Prober where
  sha256 : Bytes → Bytes
  quote  : GoString → GoString
  t2     : Option (GoString → Bytes → Option GoString)

namespace Prober

variable {F : Type} (p : Prober) (req : ProbeRequest)

section Stages

def update [FloatFormat F] (now : Time) : Update F where
  replicaID := probeReplicaID req.backend
  model := req.model
  tenant := probeTenantID
  hashScheme := req.hashScheme
  adapter := []
  timestamp := now
  prefixes := [⟨[], 0, [probeHash p.sha256 req], [probeTokenCount], CacheTier.unspecified, []⟩]
  stats := some ⟨probeReplicaID req.backend, 0, 1, 0, 0, 0⟩

def directReq : LookupRequest where
  model := req.model
  tenant := probeTenantID
  hashScheme := req.hashScheme
  adapter := []
  prefixHash := []
  blockHashes := [probeHash p.sha256 req]
  blockTokenCounts := [probeTokenCount]
  ttftBudgetMs := 0

def cleanupEvent (now : Time) : Event where
  type := .allCleared
  replicaID := probeReplicaID req.backend
  model := req.model
  tenant := probeTenantID
  prefixHash := []
  adapter := []
  timestamp := now

def replicaInScores (scores : List (ReplicaScore F)) (replicaID : GoString) : Bool :=
  scores.any (·.replicaID = replicaID)

def ingestFailed : ProbeResult where
  backend := req.backend
  ingest  := .failed
  routing := .skipped
  t2      := .skipped
  errors  := [⟨.ingest, utf8 ("synthesized probe event did not land in the index — in-process index " ++
    "ingest path is broken (Stage A calls index.Ingest directly; the wire ReportCacheState handler is " ++
    "not exercised here)")⟩]

def routingFailed (message : GoString) : ProbeResult where
  backend := req.backend
  ingest  := .ok
  routing := .failed
  t2      := .skipped
  errors  := [⟨.routing, message⟩]

def passed (t2 : ProbeStageResult) (errors : List ProbeStageError) : ProbeResult where
  backend := req.backend
  ingest  := .ok
  routing := .ok
  t2      := t2
  errors  := errors

def stageC : ProbeResult :=
  let runT2 := req.backendType = backendTypeLMCache ∨ req.backendType = []
  match p.t2 with
  | none       => passed req .skipped []
  | some probe =>
    if ¬runT2 then passed req .skipped [] else
      match probe req.backend (probePayload (probeHash p.sha256 req)) with
      | some err => passed req .failed [⟨.t2, utf8 "T2 put/get cycle failed: " ++ err⟩]
      | none     => passed req .ok []

def stageB (res : LookupResult F) : ProbeResult :=
  if res.strategy ≠ .prefixMatch then
    routingFailed req <| utf8 "LookupRoute returned " ++ reasonText (reasonForStrategy res.strategy) ++
      utf8 (", expected PREFIX_MATCH — index routing/key-derivation regression (this stage does not " ++
        "exercise the gRPC handler; see probe.go)")
  else if !replicaInScores res.scores (probeReplicaID req.backend) then
    routingFailed req <| utf8 "LookupRoute returned PREFIX_MATCH but probe replica " ++
      p.quote (probeReplicaID req.backend) ++
      utf8 (" is not among the scored replicas — possible probe-id or reserved-replica collision")
  else p.stageC req

end Stages

end Prober

section Runs

abbrev RunID := Nat

-- How far a call of `Run` has come, between two accesses to anything shared. The time is that of the
-- ingested entry.
inductive RunPhase
  | waiting
  | locked
  | ingested (seen : Time)
  | landed (seen : Time)
  | returning (result : ProbeResult)
  | cleaned (result : ProbeResult)
  | finished (result : ProbeResult)
  deriving DecidableEq

structure ProbeState (F : Type) where
  index : Index F
  locks : GoMap GoString RunID
  runs  : GoMap RunID (ProbeRequest × RunPhase)

-- What goes on next: a run, or a call that has nothing to do with probes.
inductive ProbeMove (F : Type)
  | start (id : RunID) (req : ProbeRequest)
  | lock (id : RunID)
  | ingest (id : RunID) (now : Time) (env : Env)
  | lookup (id : RunID) (env : Env)
  | route (id : RunID) (env : Env)
  | cleanup (id : RunID) (now : Time) (env : Env)
  | unlock (id : RunID)
  | call (c : Call F) (env : Env)

namespace ProbeState

variable {F : Type}

def new : ProbeState F where
  index := .new
  locks := ∅
  runs  := ∅

def goOn (s : ProbeState F) (id : RunID) (req : ProbeRequest) (phase : RunPhase) : ProbeState F :=
  { s with runs := s.runs.insert id (req, phase) }

variable [GoFloat F] (p : Prober) (cfg : Config F)

-- A deferred cleanup comes before the deferred unlock.
def step (s : ProbeState F) : ProbeMove F → ProbeState F
  | .start id req =>
    match s.runs.lookup id with
    | none => s.goOn id req .waiting
    | _    => s
  | .lock id =>
    match s.runs.lookup id with
    | some (req, .waiting) =>
      match s.locks.lookup (lockKey req) with
      | none   => { s with locks := s.locks.insert (lockKey req) id }.goOn id req .locked
      | some _ => s
    | _ => s
  | .ingest id now env =>
    match s.runs.lookup id with
    | some (req, .locked) =>
      let u := p.update req now
      { s with index := s.index.ingest cfg env u }.goOn id req (.ingested (u.seenAt env))
    | _ => s
  | .lookup id env =>
    match s.runs.lookup id with
    | some (req, .ingested seen) =>
      let scores := s.index.lookup cfg env (p.directReq req)
      if !Prober.replicaInScores scores (probeReplicaID req.backend) then
        s.goOn id req (.returning (Prober.ingestFailed req))
      else s.goOn id req (.landed seen)
    | _ => s
  | .route id env =>
    match s.runs.lookup id with
    | some (req, .landed _) =>
      s.goOn id req (.returning (p.stageB req (s.index.lookupRoute cfg env (p.directReq req))))
    | _ => s
  | .cleanup id now env =>
    match s.runs.lookup id with
    | some (req, .returning result) =>
      let ev := Prober.cleanupEvent req now
      { s with index := s.index.applyEvent cfg env ev }.goOn id req (.cleaned result)
    | _ => s
  | .unlock id =>
    match s.runs.lookup id with
    | some (req, .cleaned result) =>
      { s with locks := s.locks.erase (lockKey req) }.goOn id req (.finished result)
    | _ => s
  | .call c env => { s with index := s.index.step cfg (c, env) }

def run (moves : List (ProbeMove F)) : ProbeState F :=
  moves.foldl (step p cfg) new

end ProbeState

end Runs

end InferenceCache.Server
