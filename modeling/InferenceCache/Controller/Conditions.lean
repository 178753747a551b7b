import InferenceCache.Api.Types
import InferenceCache.Lib.Scalars

-- The status that the controller publishes, and what it reads of an object.
namespace InferenceCache.Controller

section Conditions

inductive ConditionStatus
  | true
  | false
  | unknown
  deriving DecidableEq

inductive Reason
  | awaitingFirstKVEvent
  | kvEventsObserved
  | noKVEventsObserved
  | notDegraded
  | t2ZeroHitRate
  | t2Serving
  | injectedEngineCrashLooping
  | externalEndpointAccepted
  | externalEndpointMissing
  | externalEndpointInvalid
  | backendReady
  | scaledToZero
  | rolloutInProgress
  | eventsOnlyActive
  | hostOnlyActive
  | replicasUnavailable
  | synced
  | degraded
  | probeOK
  | probeIngestFailed
  | probeRoutingFailed
  | probeT2Failed
  | probeBypassed
  | probeError
  | kernelsHealthy
  | kernelLoadFailed
  | kernelCheckError
  | kernelCheckPending
  | engineKernelDegraded
  | connectorReady
  | connectorInjectionUnverified
  | noEnginePods
  | mpServersNotReady
  | nodeLocalServerPoolPending
  | nodeLocalHostPortConflict
  | nodeLocalWorkerCapacityExceeded
  | ambiguousNodeLocalServers
  | remoteStorageReady
  | remoteStorageNotConfigured
  | remoteStoragePending
  | remoteStorageUnavailable
  deriving DecidableEq

structure Verdict where
  status  : ConditionStatus
  reason  : Reason
  message : GoString
  deriving DecidableEq

structure Condition extends Verdict where
  observedGeneration : Int
  deriving DecidableEq

def Verdict.at (v : Verdict) (generation : Int) : Condition :=
  ⟨v, generation⟩

@[simp]
theorem Verdict.at_toVerdict (v : Verdict) (generation : Int) : (v.at generation).toVerdict = v :=
  rfl

-- A list with one entry of each type in Go. `meta.SetStatusCondition` puts `some`, and
-- `meta.RemoveStatusCondition` puts `none`. No one reads the time of the last transition.
structure Conditions where
  ready                : Option Condition := none
  progressing          : Option Condition := none
  degraded             : Option Condition := none
  functionalProbeOK    : Option Condition := none
  engineKernelsHealthy : Option Condition := none
  t2Degraded           : Option Condition := none
  engineCompatibility  : Option Condition := none
  connectorReady       : Option Condition := none
  remoteStorageReady   : Option Condition := none
  deriving DecidableEq

def Conditions.readyReason (c : Conditions) : Option Reason :=
  c.ready.map (·.reason)

end Conditions

section Status

structure RemoteStorageStatus where
  provider : Api.Provider
  endpoint : GoString
  ready    : ConditionStatus
  deriving DecidableEq

-- What the poller of the index has found out about a backend. It is written by the poller only, so it is
-- not part of the status here but comes with each reconcile.
structure IndexParticipation where
  lastEventAt : Option Time := none
  t2HitRate   : Option GoString := none

structure Status where
  conditions             : Conditions := {}
  observedGeneration     : Int := 0
  firstKVEventObservedAt : Option Time := none
  firstAvailableAt       : Option Time := none
  remoteStorage          : Option RemoteStorageStatus := none
  failOpen               : Option Bool := none
  deriving DecidableEq

-- A `metav1.Time` is stored by the second.
def storedTime (t : Time) : Time :=
  t - t % 10 ^ 9

end Status

section Backend

-- The observation is in `object` with its model only, so the timeout is here.
structure Backend where
  object            : Api.CacheBackend
  annotations       : GoMap GoString GoString
  firstEventTimeout : Option Int64

namespace Backend

variable (b : Backend)

def details : Api.Details :=
  b.object.spec.rest

def generation : Int :=
  b.details.generation

def name : GoString :=
  b.object.key.inNamespace ++ utf8 "/" ++ b.object.key.name

def hasTopology (t : Api.Topology) : Bool :=
  b.details.effectiveCacheType = .lmCache ∧ b.details.lmCache.map (·.topology) = some t

def isTypedLMCachePodLocal : Bool :=
  b.hasTopology .podLocal

def isTypedLMCacheNodeLocal : Bool :=
  b.hasTopology .nodeLocal

def isTypedLMCacheMP : Bool :=
  b.isTypedLMCachePodLocal || b.isTypedLMCacheNodeLocal

end Backend

-- Writes only what has changed. A failed write changes nothing, neither in the cluster nor in memory.
def patchStatus (b : Backend) (patched : Bool) (before after : Status) : Status × Bool :=
  let after := { after with failOpen := some b.details.integrationFailOpen }
  if after = before then (before, true)
  else if patched then (after, true)
  else (before, false)

end Backend

section RemoteStorage

def setRemoteStorageStatus (b : Backend) (endpoint : GoString) (ready : Verdict) (generation : Int)
    (s : Status) : Status :=
  match b.details.remoteStorage, b.isTypedLMCacheMP with
  | some storage, true =>
    { s with
      remoteStorage := some ⟨storage.provider, endpoint, ready.status⟩
      conditions.remoteStorageReady := some (ready.at generation) }
  | _, _ =>
    { s with
      remoteStorage := none
      conditions.remoteStorageReady := none }

variable {b : Backend} {endpoint : GoString} {ready : Verdict} {generation : Int} {s : Status}

@[simp]
theorem setRemoteStorageStatus_firstKVEventObservedAt :
    (setRemoteStorageStatus b endpoint ready generation s).firstKVEventObservedAt =
      s.firstKVEventObservedAt := by
  simp only [setRemoteStorageStatus]
  split <;> rfl

@[simp]
theorem setRemoteStorageStatus_functionalProbeOK :
    (setRemoteStorageStatus b endpoint ready generation s).conditions.functionalProbeOK =
      s.conditions.functionalProbeOK := by
  simp only [setRemoteStorageStatus]
  split <;> rfl

@[simp]
theorem setRemoteStorageStatus_connectorReady :
    (setRemoteStorageStatus b endpoint ready generation s).conditions.connectorReady =
      s.conditions.connectorReady := by
  simp only [setRemoteStorageStatus]
  split <;> rfl

end RemoteStorage

end InferenceCache.Controller
