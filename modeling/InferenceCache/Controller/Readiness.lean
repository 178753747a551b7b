import InferenceCache.Controller.Conditions

namespace InferenceCache.Controller

section Managed

structure Deployment where
  generation         : Int
  replicas           : Option Int32
  observedGeneration : Int
  updatedReplicas    : Int32
  availableReplicas  : Int32

def desiredReplicas (dep : Deployment) : Int32 :=
  dep.replicas.getD 1

def replicasMessage (n want : Int32) (what : String) : GoString :=
  GoString.formatInt n.toInt ++ utf8 "/" ++ GoString.formatInt want.toInt ++ utf8 " replicas " ++ utf8 what

def managedReadiness (dep : Deployment) : Verdict :=
  let want := desiredReplicas dep
  let rolledOut := dep.observedGeneration ≥ dep.generation
  if want = 0 then ⟨.false, .scaledToZero, utf8 "backend scaled to zero replicas"⟩
  else if rolledOut ∧ dep.updatedReplicas ≥ want ∧ dep.availableReplicas ≥ want then
    ⟨.true, .backendReady, replicasMessage dep.availableReplicas want "available"⟩
  else if ¬rolledOut ∨ dep.updatedReplicas < want then
    ⟨.false, .rolloutInProgress, replicasMessage dep.updatedReplicas want "updated"⟩
  else ⟨.false, .replicasUnavailable, replicasMessage dep.availableReplicas want "available"⟩

def managedRemote (ready : Verdict) (endpoint : GoString) : Verdict :=
  if ready.reason = .rolloutInProgress then
    ⟨.unknown, .remoteStoragePending, utf8 "managed remote-storage rollout is still converging"⟩
  else if endpoint = [] then
    ⟨.false, .remoteStorageUnavailable, utf8 "managed remote storage has no live Service endpoint"⟩
  else if ready.status = .true then
    ⟨ready.status, .remoteStorageReady,
      utf8 "managed remote storage workload is Available and its Service endpoint is published"⟩
  else { ready with reason := .remoteStorageUnavailable }

end Managed

-- The connector always counts, the remote storage only if the backend is fail-closed.
def lmCacheMPReadyBase (b : Backend) (s : Status) (remote : Verdict) : Verdict :=
  if ¬b.isTypedLMCacheMP then remote
  else
    match s.conditions.connectorReady with
    | none           => unobserved
    | some connector =>
      if connector.observedGeneration ≠ b.generation then unobserved
      else if connector.status ≠ .true then connector.toVerdict
      else if b.details.remoteStorage.isSome ∧ ¬b.details.integrationFailOpen ∧ remote.status ≠ .true then
        remote
      else if b.details.remoteStorage.isSome ∧ remote.status ≠ .true then
        ⟨.true, .connectorReady,
          utf8 "the LMCache MP connector is ready; remote storage is degraded but does not gate Ready " ++
          utf8 "while failOpen is true"⟩
      else ⟨.true, .connectorReady, connector.message⟩
where
  unobserved := ⟨.unknown, .connectorInjectionUnverified,
    utf8 "connector health for the current CacheBackend generation has not been observed yet"⟩

section KVEvents

def annotationRequireKVEvents : GoString :=
  utf8 "inferencecache.io/require-kv-events"

def defaultFirstEventTimeout : Duration :=
  5 * 60 * 10 ^ 9

structure KvReadiness where
  ready        : Verdict
  degraded     : Verdict
  requeueAfter : Duration := 0

def notDegraded : Verdict :=
  ⟨.false, .notDegraded, utf8 "backend is not in a degraded state"⟩

def kvEventGateEnabled (b : Backend) : Bool :=
  b.annotations.lookup annotationRequireKVEvents ≠ some (utf8 "false")

def currentLastEventAt (p : Option IndexParticipation) : Option Time :=
  p.bind (·.lastEventAt)

def lastKVEventSeen (s : Status) (p : Option IndexParticipation) : Bool :=
  s.firstKVEventObservedAt.isSome || (currentLastEventAt p).isSome

def firstEventTimeout (b : Backend) : Duration :=
  match b.firstEventTimeout with
  | some timeout => if 0 < timeout.toInt then timeout.toInt else defaultFirstEventTimeout
  | none         => defaultFirstEventTimeout

section Messages

variable (b : Backend)

def awaitingMessage : GoString :=
  utf8 (if b.details.isEventsOnly then "events-only backend is wired but no KV events observed yet; waiting up to "
    else "cache-backend workload is Available but no KV events observed yet; waiting up to ") ++
  GoString.formatDuration (firstEventTimeout b) ++ utf8 " for the engine to report state"

def withinTimeout : GoString :=
  utf8 "no KV events observed within " ++ GoString.formatDuration (firstEventTimeout b) ++ utf8 " of the "

def noEventsMessage : GoString :=
  withinTimeout b ++
  utf8 (if b.details.isEventsOnly then "events-only backend being wired" else "workload becoming Available") ++
  utf8 "; check that engine pods are attached and their --kv-events-config / ZMQ publisher is healthy"

def noEventsDegradedMessage : GoString :=
  withinTimeout b ++
  utf8 (if b.details.isEventsOnly then "events-only backend being wired"
    else "cache-backend workload becoming Available")

end Messages

-- Without the gate, only unavailable replicas are a degradation.
def baseReadiness (ready : Verdict) : KvReadiness where
  ready    := ready
  degraded :=
    if ready.status = .false ∧ ready.reason = .replicasUnavailable then
      ⟨.true, ready.reason, ready.message⟩
    else notDegraded

-- The first event that a backend which is otherwise ready has to wait for. With `freshWindow`, it waits
-- again even if it has waited in vain before.
def evaluateKVEventReadiness (b : Backend) (s : Status) (p : Option IndexParticipation) (ready : Verdict)
    (anchor now : Time) (freshWindow : Bool) : KvReadiness :=
  if ¬kvEventGateEnabled b ∨ ready.status ≠ .true then baseReadiness ready
  else if lastKVEventSeen s p then
    { ready := ⟨.true, .kvEventsObserved,
        utf8 "at least one KV event observed; cache is receiving engine state"⟩
      degraded := notDegraded }
  else if ¬freshWindow ∧ s.conditions.readyReason = some .noKVEventsObserved then
    { ready := ⟨.false, .noKVEventsObserved,
        utf8 "no KV events observed before the first-event timeout; staying Degraded until an event arrives"⟩
      degraded := ⟨.true, .noKVEventsObserved, utf8 "no KV events observed before the first-event timeout"⟩ }
  else
    let timeout := firstEventTimeout b
    let anchor := if anchor = 0 then now else anchor
    let elapsed := Time.sub now anchor
    if elapsed < timeout then
      { ready := ⟨.false, .awaitingFirstKVEvent, awaitingMessage b⟩
        degraded := notDegraded
        requeueAfter := timeout - elapsed }
    else
      { ready := ⟨.false, .noKVEventsObserved, noEventsMessage b⟩
        degraded := ⟨.true, .noKVEventsObserved, noEventsDegradedMessage b⟩ }

end KVEvents

def progressingFromReady (ready : Verdict) : Verdict :=
  if ready.status = .true then ⟨.false, .synced, utf8 "rendered children match desired state"⟩
  else
    match ready.reason with
    | .rolloutInProgress | .awaitingFirstKVEvent => ⟨.true, ready.reason, ready.message⟩
    | .replicasUnavailable                       => ⟨.false, .degraded, ready.message⟩
    | reason                                     => ⟨.false, reason, ready.message⟩

end InferenceCache.Controller
