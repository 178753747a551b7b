import InferenceCache.Controller.KernelCheck

-- What a reconcile does to the status of a backend. What it reads from the cluster is an input.
namespace InferenceCache.Controller

open Adapters (Library)

-- The status of a backend as stored, and what the controller remembers of its probes.
structure World where
  status  : Status := {}
  limiter : ProbeLimiter := none

section Inputs

-- Observations that the managed and the serverless modes have in common. The pods of the engines may fail
-- to be listed, once for their kernels and once for their crash loops.
structure Observed where
  now           : Time
  participation : Option IndexParticipation
  kernelPods    : Option (List EnginePod)
  engineCompat  : Option GoString

structure ManagedObserved extends Observed where
  endpoint   : GoString
  deployment : Deployment
  applyOK    : Bool
  probe      : Option ProbeClient
  rateLimit  : Duration

end Inputs

section Advisories

def t2Verdict (p : Option IndexParticipation) : Option Verdict :=
  (p.bind (·.t2HitRate)).map fun rate =>
    if rate = utf8 "0" then
      ⟨.true, .t2ZeroHitRate,
        utf8 "Tier-2 (external offload) cache is wired but served zero reloads; check the remote " ++
        utf8 "server's availability/sizing and the engine/server version + hash-scheme compatibility."⟩
    else
      ⟨.false, .t2Serving, utf8 "Tier-2 (external offload) cache is serving reloads (hitRate=" ++ rate ++ utf8 ")."⟩

-- Left as it is if nothing was observed.
def engineCompatibility (generation : Int) (compat : Option GoString) (old : Option Condition) :
    Option Condition :=
  match compat with
  | none     => old
  | some msg => if msg ≠ [] then some ⟨⟨.false, .injectedEngineCrashLooping, msg⟩, generation⟩ else none

def settle (condition : Option Verdict) (remove : Bool) (generation : Int) (old : Option Condition) :
    Option Condition :=
  match condition with
  | some v => some (v.at generation)
  | none   => if remove then none else old

end Advisories

-- The first event that was observed stays.
def latchFirstKVEvent (p : Option IndexParticipation) (s : Status) : Option Time :=
  s.firstKVEventObservedAt <|> currentLastEventAt p

section Managed

variable (lib : Library) (b : Backend) (o : ManagedObserved) (w : World)

def managedBase : Verdict :=
  let ready := managedReadiness o.deployment
  if b.isTypedLMCacheMP then lmCacheMPReadyBase b w.status (managedRemote ready o.endpoint) else ready

def managedGate : KvReadiness :=
  let ready := managedBase b o w
  let anchor :=
    match w.status.firstAvailableAt with
    | some t => t
    | none   => if ready.status = .true then o.now else 0
  evaluateKVEventReadiness b w.status o.participation ready anchor o.now false

def managedProbe : ProbeVerdict :=
  evaluateFunctionalProbe lib b w.status (managedGate b o w) o.probe w.limiter o.rateLimit o.now

def managedVerdict : KvReadiness :=
  downgradeKernelReadyVerdict (downgradeReadyVerdict (managedGate b o w) (managedProbe lib b o w))
    (evaluateEngineKernelHealth w.status o.kernelPods)

def managedStatus : Status :=
  let s := w.status
  let generation := if o.applyOK then b.generation else s.observedGeneration
  let verdict := managedVerdict lib b o w
  let probe := managedProbe lib b o w
  let kernel := evaluateEngineKernelHealth s o.kernelPods
  let s := setRemoteStorageStatus b o.endpoint (managedRemote (managedReadiness o.deployment) o.endpoint) generation s
  { s with
    observedGeneration := generation
    firstKVEventObservedAt := latchFirstKVEvent o.participation s
    firstAvailableAt :=
      s.firstAvailableAt <|> if (managedBase b o w).status = .true then some (storedTime o.now) else none
    conditions :=
      { s.conditions with
        ready := some (verdict.ready.at generation)
        degraded := some (verdict.degraded.at generation)
        progressing := some ((progressingFromReady verdict.ready).at generation)
        functionalProbeOK :=
          settle probe.condition probe.removeCondition generation s.conditions.functionalProbeOK
        engineKernelsHealthy :=
          settle kernel.condition kernel.removeCondition generation s.conditions.engineKernelsHealthy
        t2Degraded := (t2Verdict o.participation).map (·.at generation)
        engineCompatibility := engineCompatibility generation o.engineCompat s.conditions.engineCompatibility } }

-- A call of the probe counts only once its result is stored.
def updateManagedStatus (patched : Bool) : World :=
  let (status, ok) := patchStatus b patched w.status (managedStatus lib b o w)
  { status  := status
    limiter := if ok && (managedProbe lib b o w).commitMark then some o.now else w.limiter }

end Managed

section External

variable (lib : Library) (b : Backend) (w : World)

def externalEndpoint : GoString :=
  match b.details.remoteStorage with
  | some storage => storage.endpoint.trimSpace
  | none         => []

def externalAcceptance : Verdict :=
  match b.details.remoteStorage with
  | none         => missing
  | some storage =>
    if externalEndpoint b = [] then missing
    else
      match Adapters.validateExternalEndpoint lib storage.provider (externalEndpoint b) with
      | .error err => ⟨.false, .externalEndpointInvalid, utf8 "spec.remoteStorage." ++ err⟩
      | .ok ()     =>
        ⟨.true, .externalEndpointAccepted,
          utf8 "External endpoint accepted; controller does not provision cache pods for External backends"⟩
where
  missing := ⟨.false, .externalEndpointMissing, utf8 "the external remote-storage endpoint is empty"⟩

def externalRemote : Verdict :=
  let ready := externalAcceptance lib b
  if ready.status = .true then
    ⟨ready.status, .remoteStorageReady,
      utf8 "external remote-storage binding was accepted; reachability is owned by the operator"⟩
  else ready

def externalReady : Verdict :=
  if b.isTypedLMCacheMP then lmCacheMPReadyBase b w.status (externalRemote lib b) else externalAcceptance lib b

def externalStatus : Status :=
  let s := setRemoteStorageStatus b (externalEndpoint b) (externalRemote lib b) b.generation w.status
  let ready := externalReady lib b w
  { s with
    observedGeneration := b.generation
    conditions :=
      { s.conditions with
        progressing := some ((progressingFromReady ready).at b.generation)
        ready := some (ready.at b.generation)
        degraded := none
        functionalProbeOK := none
        engineKernelsHealthy := none
        t2Degraded := none
        engineCompatibility := none } }

def reconcileExternal (patched : Bool) : World where
  status  := (patchStatus b patched w.status (externalStatus lib b w)).1
  limiter := none

end External

section Serverless

-- Of a backend with events only, and of one with a cache in the engine only.
def serverlessActive (b : Backend) : Verdict :=
  if b.details.isEventsOnly then
    ⟨.true, .eventsOnlyActive, utf8 "events-only backend active; routing tier wired with no offload server"⟩
  else ⟨.true, .hostOnlyActive, utf8 "host-only cache active; engine-local cache wired with no remote provider"⟩

variable (b : Backend) (o : Observed) (w : World)

def serverlessBase : Verdict :=
  if b.details.isEventsOnly then serverlessActive b else lmCacheMPReadyBase b w.status (serverlessActive b)

-- A status of a remote storage can only be from another mode.
def transitionedFromServerMode : Bool :=
  w.status.remoteStorage.isSome

def serverlessGate : KvReadiness :=
  let anchor :=
    match w.status.firstAvailableAt with
    | some t => if transitionedFromServerMode w then o.now else t
    | none   => o.now
  evaluateKVEventReadiness b w.status o.participation (serverlessBase b w) anchor o.now
    (transitionedFromServerMode w)

def serverlessKernel : KernelHealthVerdict :=
  if b.details.isEventsOnly then {} else evaluateEngineKernelHealth w.status o.kernelPods

def serverlessVerdict : KvReadiness :=
  downgradeKernelReadyVerdict (serverlessGate b o w) (serverlessKernel b o w)

def serverlessAvailable : Option Time :=
  let available := b.details.isEventsOnly || !b.isTypedLMCacheMP || (serverlessBase b w).status = .true
  if transitionedFromServerMode w ∧ ¬available then none
  else if available ∧ (w.status.firstAvailableAt = none ∨ transitionedFromServerMode w) then
    some (storedTime o.now)
  else w.status.firstAvailableAt

def serverlessStatus : Status :=
  let s := w.status
  let eventsOnly := b.details.isEventsOnly
  let verdict := serverlessVerdict b o w
  let kernel := serverlessKernel b o w
  let s :=
    if eventsOnly then { s with remoteStorage := none, conditions.remoteStorageReady := none }
    else
      setRemoteStorageStatus b []
        ⟨.true, .remoteStorageNotConfigured,
          utf8 "no remote storage is configured; the MP server operates with Pod-local L1 only"⟩ b.generation s
  { s with
    observedGeneration := b.generation
    firstKVEventObservedAt := latchFirstKVEvent o.participation s
    firstAvailableAt := serverlessAvailable b o w
    conditions :=
      { s.conditions with
        ready := some (verdict.ready.at b.generation)
        degraded := some (verdict.degraded.at b.generation)
        progressing := some ((progressingFromReady verdict.ready).at b.generation)
        functionalProbeOK := none
        engineKernelsHealthy :=
          if eventsOnly then none
          else settle kernel.condition kernel.removeCondition b.generation s.conditions.engineKernelsHealthy
        t2Degraded := none
        engineCompatibility :=
          if eventsOnly then none
          else engineCompatibility b.generation o.engineCompat s.conditions.engineCompatibility } }

def reconcileServerless (patched : Bool) : World where
  status  := (patchStatus b patched w.status (serverlessStatus b o w)).1
  limiter := none

end Serverless

section Unmanaged

variable (b : Backend) (w : World)

def unmanagedStatus : Status :=
  { w.status with
    remoteStorage      := none
    observedGeneration := b.generation
    firstAvailableAt   := none
    conditions         := {} }

def reconcileUnmanaged (patched : Bool) : World where
  status  := (patchStatus b patched w.status (unmanagedStatus b w)).1
  limiter := none

end Unmanaged

section Connector

structure ConnectorCounts where
  matched                : Int32
  verified               : Int32
  readyEngines           : Int32
  desiredServers         : Int32
  readyServers           : Int32
  covered                : Int32
  maxGPUWorkers          : Int32
  hostPortConflict       : Bool
  workerCapacityExceeded : Bool
  ambiguousServers       : Bool

def num (n : Int32) : GoString :=
  GoString.formatInt n.toInt

def podLocalVerdict (c : ConnectorCounts) : Verdict :=
  if c.matched = 0 then ⟨.false, .noEnginePods, utf8 "no active engine Pods match spec.engineSelector"⟩
  else if c.verified ≠ c.matched then
    ⟨.unknown, .connectorInjectionUnverified, num c.verified ++ utf8 "/" ++ num c.matched ++
      utf8 " selected engine Pods carry the webhook-authenticated injection record for this CacheBackend " ++
      utf8 "generation; unverified Pods are left un-injected"⟩
  else if c.readyServers = c.desiredServers ∧ c.readyEngines = c.matched then
    ⟨.true, .connectorReady, utf8 "all " ++ num c.matched ++
      utf8 " selected engine Pods have a Ready LMCache MP server and connector"⟩
  else
    ⟨.false, .mpServersNotReady, num c.readyServers ++ utf8 "/" ++ num c.desiredServers ++
      utf8 " selected engine Pods have a Ready LMCache MP native sidecar; " ++ num c.readyEngines ++
      utf8 " engine Pods are Ready with the connector"⟩

def nodeLocalVerdict (c : ConnectorCounts) : Verdict :=
  if c.matched = 0 then ⟨.false, .noEnginePods, utf8 "no active engine Pods match spec.engineSelector"⟩
  else if c.verified ≠ c.matched then
    ⟨.unknown, .connectorInjectionUnverified, num c.verified ++ utf8 "/" ++ num c.matched ++
      utf8 " selected engine Pods carry the current CacheBackend name, UID, and generation injection record"⟩
  else if c.desiredServers = 0 then
    ⟨.false, .nodeLocalServerPoolPending, utf8 "selected engine Pods have not been scheduled onto a node yet"⟩
  else if c.hostPortConflict then
    ⟨.false, .nodeLocalHostPortConflict,
      utf8 "a NodeLocal server Pod is unschedulable because a declared host port is already allocated; " ++
      utf8 "choose disjoint MP and HTTP ports"⟩
  else if c.workerCapacityExceeded then
    ⟨.false, .nodeLocalWorkerCapacityExceeded,
      utf8 "at least one node has more selected engine instances than maxGPUWorkers=" ++ num c.maxGPUWorkers⟩
  else if c.ambiguousServers then
    ⟨.false, .ambiguousNodeLocalServers,
      utf8 "more than one healthy current-generation NodeLocal server claims the same engine node"⟩
  else if c.readyServers = c.desiredServers ∧ c.covered = c.matched ∧ c.readyEngines = c.matched then
    ⟨.true, .connectorReady, utf8 "all " ++ num c.matched ++
      utf8 " selected engine Pods are Ready and covered by exactly one healthy same-node server; all " ++
      num c.desiredServers ++ utf8 " engine-demanded servers are Ready"⟩
  else
    ⟨.false, .nodeLocalServerPoolPending, num c.readyServers ++ utf8 "/" ++ num c.desiredServers ++
      utf8 " engine-demanded LMCache MP servers are Ready; " ++ num c.covered ++ utf8 "/" ++ num c.matched ++
      utf8 " selected engine Pods have exactly one healthy same-node server"⟩

-- The counts are absent if the pods could not be listed. Unlike `patchStatus`, this leaves `failOpen` alone.
def refreshLMCacheMPConnectorStatus (b : Backend) (counts : Option ConnectorCounts) (patched : Bool)
    (w : World) : World :=
  if ¬patched then w
  else if ¬b.isTypedLMCacheMP then { w with status.conditions.connectorReady := none }
  else
    match counts with
    | none   => w
    | some c =>
      let v := if b.isTypedLMCacheNodeLocal then nodeLocalVerdict c else podLocalVerdict c
      { w with status.conditions.connectorReady := some (v.at b.generation) }

end Connector

section Dispatch

inductive Path
  | failed
  | unmanaged
  | external
  | serverless
  | managed
  deriving DecidableEq

-- What the adapters say of a backend, and which calls to the cluster succeed before the status is written.
structure DispatchFacts where
  registriesConfigured     : Bool
  adapterSelected          : Bool
  supportsHostOnly         : Bool
  supportsBinding          : Bool
  protocolSupported        : Bool
  providerSelected         : Bool
  rendered                 : Bool
  rendersWorkload          : Bool
  serverPodsCleanedUp      : Bool
  ownedWorkloadCleanedUp   : Bool
  serverPodsReconciled     : Bool
  workloadObserved         : Bool

def dispatch (b : Backend) (f : DispatchFacts) : Path :=
  if ¬f.registriesConfigured then .failed
  else if ¬b.isTypedLMCacheNodeLocal ∧ ¬f.serverPodsCleanedUp then .failed
  else if b.details.isEventsOnly then
    if ¬f.adapterSelected ∨ ¬f.supportsHostOnly then .unmanaged
    else if ¬f.ownedWorkloadCleanedUp then .failed
    else .serverless
  else if ¬f.adapterSelected then .unmanaged
  else
    match b.details.remoteStorage with
    | some storage =>
      if storage.ownership = .external then
        if ¬f.protocolSupported ∨ ¬f.supportsBinding then .unmanaged
        else if ¬f.ownedWorkloadCleanedUp ∨ ¬f.serverPodsReconciled then .failed
        else .external
      else if ¬f.providerSelected then .unmanaged
      else if ¬f.rendered then .failed
      else if ¬f.supportsBinding then .unmanaged
      else if ¬f.serverPodsReconciled then .failed
      else if ¬f.rendersWorkload then .unmanaged
      else if ¬f.workloadObserved then .failed
      else .managed
    | none =>
      if ¬f.ownedWorkloadCleanedUp then .failed
      else if ¬f.supportsHostOnly then .unmanaged
      else if b.details.effectiveCacheType = .sglangHiCache then .unmanaged
      else if ¬f.serverPodsReconciled then .failed
      else .serverless

end Dispatch

section Runs

structure Reconcile where
  backend  : Backend
  facts    : DispatchFacts
  observed : ManagedObserved
  patched  : Bool

-- The refresh of the connector is the last part of a reconcile. It is a step of its own since its write is.
inductive Event
  | reconcile (r : Reconcile)
  | refresh (b : Backend) (counts : Option ConnectorCounts) (patched : Bool)
  | restart

def reconcile (lib : Library) (r : Reconcile) (w : World) : World :=
  match dispatch r.backend r.facts with
  | .failed     => w
  | .unmanaged  => if r.facts.ownedWorkloadCleanedUp then reconcileUnmanaged r.backend w r.patched else w
  | .external   => reconcileExternal lib r.backend w r.patched
  | .serverless => reconcileServerless r.backend r.observed.toObserved w r.patched
  | .managed    => updateManagedStatus lib r.backend r.observed w r.patched

def step (lib : Library) (w : World) : Event → World
  | .reconcile r                => reconcile lib r w
  | .refresh b counts patched   => refreshLMCacheMPConnectorStatus b counts patched w
  | .restart                    => { w with limiter := none }

def run (lib : Library) (w : World) (events : List Event) : World :=
  events.foldl (step lib) w

end Runs

end InferenceCache.Controller
