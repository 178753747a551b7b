import InferenceCache.Controller.Readiness
import InferenceCache.Adapters.Backend
import InferenceCache.Server.Probe

namespace InferenceCache.Controller

open Adapters (Library)

section Wire

-- A newer server may answer by an outcome that the controller does not know.
inductive StageOutcome
  | ok
  | failed
  | skipped
  | other (text : GoString)
  deriving DecidableEq

def StageOutcome.text : StageOutcome → GoString
  | ok      => utf8 "ok"
  | failed  => utf8 "failed"
  | skipped => utf8 "skipped"
  | other s => s

structure StageError where
  stage   : GoString
  message : GoString

structure ProbeResult where
  ingest  : StageOutcome
  routing : StageOutcome
  t2      : StageOutcome
  errors  : List StageError := []

def stagePassed (stage : StageOutcome) : Bool :=
  stage = .ok ∨ stage = .skipped

def ProbeResult.allPassed (r : ProbeResult) : Bool :=
  stagePassed r.ingest && stagePassed r.routing && stagePassed r.t2

-- The answer of the server, or an error of the call. A client without a URL is no client.
abbrev ProbeClient := Server.ProbeRequest → Except GoString ProbeResult

end Wire

section Limiter

-- The time of the last call that is on record for one backend.
abbrev ProbeLimiter := Option Time

namespace ProbeLimiter

variable (p : ProbeLimiter)

def lastCalled : Time :=
  p.getD 0

def allow (now : Time) (rateLimit : Duration) : Bool :=
  lastCalled p = 0 ∨ Time.sub now (lastCalled p) ≥ rateLimit

def requeueUntilNextProbe (rateLimit : Duration) (now : Time) : Duration :=
  if lastCalled p = 0 then rateLimit
  else
    let remaining := rateLimit - Time.sub now (lastCalled p)
    if remaining ≤ 0 then 10 ^ 9 else remaining

end ProbeLimiter

end Limiter

section Messages

def truncateMessage (s : GoString) : GoString :=
  if s.length ≤ 512 then s else s.take 509 ++ utf8 "..."

def errorMessageForStage (r : ProbeResult) (stage : GoString) (fallback : GoString) : GoString :=
  match r.errors.find? fun e => e.stage = stage ∧ e.message.trimSpace ≠ [] with
  | some e => truncateMessage e.message
  | none   => fallback

def stageReasonAndMessage (lib : Library) (r : ProbeResult) : Reason × GoString :=
  if r.ingest = .failed then
    (.probeIngestFailed, errorMessageForStage r (utf8 "ingest") (utf8 "in-process index ingest path is broken"))
  else if r.routing = .failed then
    (.probeRoutingFailed,
      errorMessageForStage r (utf8 "routing") (utf8 "index routing/key-derivation regression"))
  else if r.t2 = .failed then
    (.probeT2Failed, errorMessageForStage r (utf8 "t2") (utf8 "tier-2 put/get cycle failed"))
  else
    (.probeError, utf8 "probe returned an unrecognized stage outcome (ingest=" ++ lib.quote r.ingest.text ++
      utf8 " routing=" ++ lib.quote r.routing.text ++ utf8 " t2=" ++ lib.quote r.t2.text ++
      utf8 "); upgrade the controller if a newer server has added stages")

end Messages

section Request

def probeFixedModel : GoString :=
  utf8 "functional-self-test"

def probeHashSchemeForBackend (b : Backend) : GoString :=
  match b.details.runtime with
  | .vllm   => utf8 "vllm"
  | .sglang => utf8 "sglang"

def backendType (b : Backend) : GoString :=
  match b.details.type with
  | .unset         => []
  | .lmCache       => utf8 "LMCache"
  | .sglangHiCache => utf8 "SGLangHiCache"

def probeRequest (b : Backend) : Server.ProbeRequest where
  backend     := b.name
  backendType := backendType b
  model       := probeFixedModel
  hashScheme  := probeHashSchemeForBackend b

end Request

section Gate

def annotationSkipFunctionalProbe : GoString :=
  utf8 "inferencecache.io/skip-functional-probe"

def isProbeBypassed (b : Backend) : Bool :=
  b.annotations.lookup annotationSkipFunctionalProbe = some (utf8 "true")

-- What to do with the condition, whether the backend is ready after all, and whether the call counts for
-- the limiter once the status is written.
structure ProbeVerdict where
  condition       : Option Verdict := none
  removeCondition : Bool := false
  downgrade       : Option (Reason × GoString) := none
  requeueAfter    : Duration := 0
  commitMark      : Bool := false

-- A failure that is on record stands.
def inherited (s : Status) : Option (Reason × GoString) :=
  match s.conditions.functionalProbeOK with
  | some c => if c.status = .false then some (c.reason, c.message) else none
  | none   => none

def probeCallVerdict (lib : Library) (s : Status) (rateLimit : Duration) :
    Except GoString ProbeResult → ProbeVerdict
  | .error err =>
    match inherited s with
    | some failure => { downgrade := some failure, requeueAfter := rateLimit }
    | none         =>
      { condition    := some ⟨.unknown, .probeError, utf8 "probe call failed: " ++ truncateMessage err⟩
        requeueAfter := rateLimit }
  | .ok result =>
    if result.allPassed then
      { condition    := some ⟨.true, .probeOK,
          utf8 "functional probe round-trip succeeded across all enabled stages"⟩
        requeueAfter := rateLimit
        commitMark   := true }
    else
      let (reason, message) := stageReasonAndMessage lib result
      { condition    := some ⟨.false, reason, message⟩
        downgrade    := some (reason, message)
        requeueAfter := rateLimit
        commitMark   := true }

def evaluateFunctionalProbe (lib : Library) (b : Backend) (s : Status) (upstream : KvReadiness)
    (probe : Option ProbeClient) (limiter : ProbeLimiter) (rateLimit : Duration) (now : Time) :
    ProbeVerdict :=
  match probe with
  | none     => { removeCondition := s.conditions.functionalProbeOK.isSome }
  | some run =>
    if upstream.ready.status ≠ .true then {}
    else if isProbeBypassed b then
      { condition := some ⟨.true, .probeBypassed,
          utf8 "functional probe bypassed via " ++ annotationSkipFunctionalProbe ++ utf8 ": \"true\""⟩ }
    else if ¬limiter.allow now rateLimit then
      { downgrade    := inherited s
        requeueAfter := limiter.requeueUntilNextProbe rateLimit now }
    else probeCallVerdict lib s rateLimit (run (probeRequest b))

def downgradeReadyVerdict (upstream : KvReadiness) (v : ProbeVerdict) : KvReadiness :=
  match v.downgrade with
  | none                   => upstream
  | some (reason, message) =>
    { upstream with ready := ⟨.false, reason, utf8 "functional probe failed: " ++ message⟩ }

end Gate

end InferenceCache.Controller
