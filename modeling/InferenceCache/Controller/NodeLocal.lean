import InferenceCache.Adapters.NodeLocalPods
import InferenceCache.Controller.Conditions
import InferenceCache.Webhook.PodInjector

-- One server Pod for every node with an active engine of the backend, and one cleanup Pod for every node
-- that a server has left. Where the source has a set of nodes as a map, there is the set of its keys here.
namespace InferenceCache.Controller.NodeLocal

open Kube Adapters EngineBinding

-- What the reconciler is built with, and functions of Go's library.
structure Setup where
  lib           : Adapters.Library
  sha256        : Bytes → Bytes
  cleanupImage  : GoString
  parseTime     : GoString → Option Time
  formatTime    : Time → GoString
  sha256_length : ∀ b, (sha256 b).length = 32

-- The backend as a reconcile finds it.
structure Owner extends Controller.Backend where
  idleRetentionSeconds : Int32
  hasFinalizer         : Bool

namespace Owner

variable (o : Owner)

def uid : GoString :=
  o.details.uid

def inNamespace : GoString :=
  o.object.key.inNamespace

def lists (label : GoString) (p : PodObject) : Bool :=
  p.key.inNamespace = o.inNamespace ∧ p.label label = utf8 "true" ∧ p.label labelCacheBackendUID = o.uid

def listsServer (p : PodObject) : Bool :=
  o.lists labelLMCacheNodeLocalServer p

def listsCleanup (p : PodObject) : Bool :=
  o.lists labelLMCacheNodeLocalCleanup p

end Owner

def podName (p : PodObject) : GoString :=
  p.key.inNamespace ++ utf8 "/" ++ p.key.name

def targetNode (p : PodObject) : GoString :=
  p.annotation annotationNodeLocalTargetNode

section Servers

def nodeLocalServerTargetNode (pod : PodObject) : GoString :=
  if targetNode pod ≠ [] then targetNode pod else pod.nodeName

def nodeLocalServerHasRuntimeIdentity (pod : PodObject) (wantHostPath : GoString) : Bool :=
  match pod.spec.containers.find? (·.name = lmCacheMPServerContainerName) with
  | none           => false
  | some container =>
    match container.volumeMounts.find? isWholeShm with
    | none       => false
    | some mount =>
      wantHostPath ≠ [] ∧ mount.name ≠ [] ∧
        pod.spec.volumes.any (fun v => v.name = mount.name ∧
          v.source.hostPath = some ⟨wantHostPath, some hostPathDirectoryOrCreate⟩) ∧
        isLMCacheMPCUDAServerProfile container.args
where
  isWholeShm (mount : VolumeMount) : Bool :=
    mount.mountPath = lmCacheMPShmMountPath ∧ ¬mount.readOnly ∧ mount.subPath = [] ∧ mount.subPathExpr = []

def nodeLocalServerUsesShmHostPath (pod : PodObject) (wantHostPath : GoString) : Bool :=
  wantHostPath ≠ [] ∧ pod.usesHostPath wantHostPath

end Servers

section Demand

variable (o : Owner)

def injectedBy (pod : PodObject) : Bool :=
  pod.annotation annotationInjectedBy = ownerName o.object ∧ pod.annotation annotationInjectedByUID = o.uid

def selects (pod : PodObject) : Bool :=
  pod.key.inNamespace = o.inNamespace ∧ Webhook.selectorMatches o.object.spec.matchLabels pod.labels

-- An engine that is on a node and not about to leave it.
def demands (pod : PodObject) : Bool :=
  ¬pod.deleting ∧ ¬pod.isTerminal ∧ pod.nodeName ≠ [] ∧ injectedBy o pod

def demandOf (pods : List PodObject) : GoMap GoString PodObject :=
  (sortSlice (fun a b => a.key.name < b.key.name) pods).foldl (fun out pod =>
    if demands o pod ∧ out.lookup pod.nodeName = none then out.insert pod.nodeName pod else out) ∅

def nodeLocalEngineDemand : Api (GoMap GoString PodObject) :=
  if o.object.spec.matchLabels.len = 0 then pure ∅ else do
    let pods ← Api.list (selects o) >>=
      Api.orFail (utf8 "list selected engines for NodeLocal CacheBackend " ++ ownerName o.object)
    return demandOf o pods

end Demand

section Consumers

variable (s : Setup) (o : Owner)

-- A Pod on a node, with or without its engine running, that has not come to its end. The cleanups of the
-- backend itself do not count.
def consumesShm (path nodeName : GoString) (pod : PodObject) : Bool :=
  pod.nodeName ≠ [] ∧ ¬pod.isTerminal ∧ (nodeName = [] ∨ pod.nodeName = nodeName) ∧
    ¬(pod.key.inNamespace = o.inNamespace ∧ pod.label labelLMCacheNodeLocalCleanup = utf8 "true" ∧
      pod.isControlledBy o.uid) ∧
    pod.usesHostPath path

def nodeLocalShmConsumers (nodeName : GoString) : Api (List GoString) := do
  let path ← .of (nodeLocalServerShmHostPath s.lib o.object)
  let pods ← Api.list (fun _ => true) >>=
    Api.orFail (utf8 "list cluster-wide SHM consumers for NodeLocal CacheBackend " ++ ownerName o.object)
  return (pods.filter (consumesShm o path nodeName)).map podName

end Consumers

section Ensure

variable (s : Setup) (o : Owner)

def isCleanup (pod : PodObject) (nodeName : GoString) : Bool :=
  isLMCacheNodeLocalCleanupPod s.lib s.sha256 pod o.object nodeName s.cleanupImage

def cleanupText (what : String) (pod : PodObject) : GoString :=
  utf8 what ++ utf8 " LMCache NodeLocal SHM cleanup Pod " ++ podName pod

-- A cleanup that is not behind its gate any more, be it running or done, is taken for an invalid one.
def ensureLMCacheNodeLocalCleanupForNode (nodeName : GoString) : Api Unit := do
  let cleanups ← Api.list o.listsCleanup >>=
    Api.orFail (utf8 "list existing LMCache NodeLocal SHM cleanup Pods for " ++ ownerName o.object)
  match cleanups.find? fun p => p.isControlledBy o.uid ∧ targetNode p = nodeName with
  | some cleanup =>
    if isCleanup s o cleanup nodeName ∧ lmCacheNodeLocalCleanupIsGated cleanup then pure ()
    else do
      Api.delete cleanup.key >>= Api.unlessNotFound (cleanupText "delete invalid" cleanup)
      .fail (cleanupText "deleted invalid" cleanup)
  | none => do
    let desired ← .of (renderLMCacheNodeLocalCleanupPod s.lib s.sha256 o.object nodeName s.cleanupImage)
    let desired := { desired with controller := some o.uid }
    match ← Api.create desired with
    | .ok ()                    => pure ()
    | .error (.alreadyExists _) => do
      let existing ← Api.get desired.key >>= Api.orFail (cleanupText "inspect existing" desired)
      if isCleanup s o existing nodeName ∧ lmCacheNodeLocalCleanupIsGated existing then pure ()
      else .fail (utf8 "LMCache NodeLocal SHM cleanup Pod name " ++ podName desired ++
        utf8 " is occupied by another object")
    | .error err => .fail (cleanupText "create" desired ++ utf8 ": " ++ err.text)

def ensureLMCacheNodeLocalCleanupPod (server : PodObject) : Api Unit :=
  if server.isControlledBy o.uid then
    ensureLMCacheNodeLocalCleanupForNode s o (nodeLocalServerTargetNode server)
  else
    .fail (utf8 "create LMCache NodeLocal SHM cleanup intent: controlled source server is required")

-- Whatever was injected for the backend and is on a node, even if it has come to its end.
def leavesTraces (path : GoString) (pod : PodObject) : Bool :=
  pod.nodeName ≠ [] ∧ pod.label labelLMCacheNodeLocalCleanup ≠ utf8 "true" ∧ injectedBy o pod ∧
    pod.usesHostPath path

def ensureLMCacheNodeLocalCleanupForConsumers : Api Unit :=
  if o.uid = [] then pure () else do
    let path ← .of (nodeLocalServerShmHostPath s.lib o.object)
    let pods ← Api.list (·.key.inNamespace = o.inNamespace) >>=
      Api.orFail (utf8 "list NodeLocal SHM consumers for finalization of " ++ ownerName o.object)
    pods.foldlM (fun _ pod =>
      if leavesTraces o path pod then ensureLMCacheNodeLocalCleanupForNode s o pod.nodeName else pure ()) ()

end Ensure

section Cleanups

variable (s : Setup) (o : Owner)

def nodeLocalShmCleanupRetryAnnotation : GoString :=
  utf8 "inferencecache.io/node-local-shm-cleanup-retry"

def nodeLocalShmCleanupMaxRetryAttempts : Nat :=
  3

-- `if pod.DeletionTimestamp == nil { Delete }`
def deleteUnlessMarked (what : GoString) (pod : PodObject) : Api Unit :=
  if pod.deleting then pure () else Api.delete pod.key >>= Api.unlessNotFound what

-- The nodes with a cleanup that is under way, and those with one that has succeeded.
structure Found where
  active    : Finset GoString
  succeeded : Finset GoString

def classify (f : Found) (pod : PodObject) : Api Found :=
  let nodeName := targetNode pod
  if ¬pod.isControlledBy o.uid then pure f
  else if ¬isCleanup s o pod nodeName then do
    deleteUnlessMarked (cleanupText "delete invalid" pod) pod
    .fail (cleanupText "delete invalid" pod)
  else if lmCacheNodeLocalCleanupSucceeded pod nodeName then
    pure { f with succeeded := insert nodeName f.succeeded }
  else if pod.isTerminal ∨ pod.deleting then pure f
  else pure { f with active := insert nodeName f.active }

-- How often the cleanup has been tried again, if there is a further try.
def retryCount (pod : PodObject) : Option Int :=
  let count :=
    if pod.annotation nodeLocalShmCleanupRetryAnnotation = [] then some 0
    else GoString.parseInt 64 (pod.annotation nodeLocalShmCleanupRetryAnnotation)
  count.filter fun n => 0 ≤ n ∧ n < nodeLocalShmCleanupMaxRetryAttempts

def createRetry (pod : PodObject) (count : Int) : Api Unit := do
  let retry ← .of (renderLMCacheNodeLocalCleanupRetryPod s.sha256 o.object pod)
  let retry := { retry with
    annotations := retry.annotations.insert nodeLocalShmCleanupRetryAnnotation (GoString.formatInt (count + 1))
    controller  := some o.uid }
  match ← Api.create retry with
  | .ok ()                    => pure ()
  | .error (.alreadyExists _) => do
    let existing ← Api.get retry.key >>=
      Api.orFail (utf8 "inspect existing LMCache NodeLocal SHM cleanup retry Pod " ++ podName retry)
    if existing.isControlledBy o.uid then pure ()
    else .fail (utf8 "LMCache NodeLocal SHM cleanup retry Pod name " ++ podName retry ++
      utf8 " is occupied by another object")
  | .error err =>
    .fail (utf8 "create LMCache NodeLocal SHM cleanup retry Pod " ++ podName retry ++ utf8 ": " ++ err.text)

structure Progress where
  blocked : Finset GoString
  active  : Finset GoString

-- A cleanup that has failed goes once there is another one for its node. After the last retry it stays.
def advanceFailed (succeeded : Finset GoString) (p : Progress) (pod : PodObject) : Api Progress :=
  let nodeName := targetNode pod
  let p := { p with blocked := insert nodeName p.blocked }
  let remove := deleteUnlessMarked (cleanupText "delete failed" pod) pod
  if nodeName ∈ succeeded then do
    remove
    return p
  else
    match retryCount pod with
    | none       => pure p
    | some count =>
      if nodeName ∈ p.active then do
        remove
        return p
      else do
        createRetry s o pod count
        remove
        return { p with active := insert nodeName p.active }

def release (pod : PodObject) : PodObject :=
  { pod with schedulingGates := [] }

-- While it is behind its gate, a cleanup gives way to an engine. Once it is released it blocks the node.
def advance (demand : GoMap GoString PodObject) (cancelOnDemand : Bool) (succeeded : Finset GoString)
    (p : Progress) (pod : PodObject) : Api Progress :=
  let nodeName := targetNode pod
  if ¬pod.isControlledBy o.uid then pure p
  else if lmCacheNodeLocalCleanupSucceeded pod nodeName then do
    deleteUnlessMarked (cleanupText "delete completed" pod) pod
    return p
  else if pod.isTerminal then advanceFailed s o succeeded p pod
  else if pod.schedulingGates ≠ [] ∧ cancelOnDemand ∧ (demand.lookup nodeName).isSome then do
    deleteUnlessMarked (cleanupText "cancel" pod) pod
    return p
  else
    let p := { p with blocked := insert nodeName p.blocked }
    if pod.schedulingGates = [] ∨ pod.deleting then pure p
    else do
      let consumers ← nodeLocalShmConsumers s o nodeName
      if consumers.length ≠ 0 then pure p
      else do
        Api.patch pod.key release >>= Api.orFail (cleanupText "release" pod)
        return p

-- The nodes that no server may be created on.
def reconcileLMCacheNodeLocalCleanupPods (demand : GoMap GoString PodObject) (cancelOnDemand : Bool) :
    Api (Finset GoString) :=
  if o.uid = [] then pure ∅ else do
    let pods ← Api.list o.listsCleanup >>=
      Api.orFail (utf8 "list LMCache NodeLocal SHM cleanup Pods for " ++ ownerName o.object)
    let found ← pods.foldlM (classify s o) ⟨∅, ∅⟩
    let p ← pods.foldlM (advance s o demand cancelOnDemand found.succeeded) ⟨∅, found.active⟩
    return p.blocked

end Cleanups

section Reconcile

variable (s : Setup) (o : Owner)

def serverText (what : String) (pod : PodObject) : GoString :=
  utf8 what ++ utf8 " LMCache NodeLocal server Pod " ++ podName pod

def cleanupLMCacheNodeLocalServerPods : Api Unit :=
  if o.uid = [] then pure () else do
    let pods ← Api.list o.listsServer >>=
      Api.orFail (utf8 "list obsolete LMCache NodeLocal server Pods for " ++ ownerName o.object)
    let path ← .of (nodeLocalServerShmHostPath s.lib o.object)
    pods.foldlM (fun _ pod =>
      if ¬pod.isControlledBy o.uid ∨ pod.deleting then pure ()
      else do
        if nodeLocalServerUsesShmHostPath pod path then ensureLMCacheNodeLocalCleanupPod s o pod else pure ()
        Api.delete pod.key >>= Api.unlessNotFound (serverText "delete" pod)) ()
    let _ ← reconcileLMCacheNodeLocalCleanupPods s o ∅ false

structure Seen where
  live    : Finset GoString
  blocked : Finset GoString

-- Ensures a cleanup and deletes the server, unless it is being deleted.
def retire (what : String) (pod : PodObject) : Api Unit :=
  if pod.deleting then pure () else do
    ensureLMCacheNodeLocalCleanupPod s o pod
    Api.delete pod.key >>= Api.unlessNotFound (serverText what pod)

def retireStale (path : GoString) (wanted : Bool) (seen : Seen) (pod : PodObject) : Api Seen :=
  let ensures := nodeLocalServerUsesShmHostPath pod path ∧
    (¬nodeLocalServerHasRuntimeIdentity pod path ∨ ¬wanted)
  if pod.deleting then pure seen
  else if ensures then do
    retire s o "delete stale" pod
    return { seen with blocked := insert (nodeLocalServerTargetNode pod) seen.blocked }
  else do
    Api.delete pod.key >>= Api.unlessNotFound (serverText "delete stale" pod)
    return seen

-- A server without engines is kept for some time.
def retireIdle (now : Time) (pod : PodObject) : Api Unit :=
  let retention := o.idleRetentionSeconds.toInt * 10 ^ 9
  if retention ≤ 0 then retire s o "delete idle" pod
  else
    match s.parseTime (pod.annotation annotationNodeLocalIdleSince) with
    | none =>
      Api.patch pod.key (fun p => { p with
        annotations := p.annotations.insert annotationNodeLocalIdleSince (s.formatTime now) }) >>=
        Api.orFail (serverText "mark" pod ++ utf8 " idle")
    | some idleSince =>
      if Time.sub now idleSince ≥ retention then retire s o "delete expired idle" pod else pure ()

def keepServer (seen : Seen) (pod : PodObject) : Api Seen := do
  if (pod.annotations.lookup annotationNodeLocalIdleSince).isSome then
    Api.patch pod.key (fun p => { p with
      annotations := p.annotations.erase annotationNodeLocalIdleSince }) >>=
      Api.orFail (serverText "reactivate" pod)
  else pure ()
  if nodeLocalServerTargetNode pod ∈ seen.live then do
    deleteUnlessMarked (serverText "delete duplicate" pod) pod
    return seen
  else return { seen with live := insert (nodeLocalServerTargetNode pod) seen.live }

def isCurrent (path : GoString) (pod : PodObject) : Bool :=
  pod.annotation annotationNodeLocalOwnerUID = o.uid ∧
    pod.annotation annotationNodeLocalGeneration = GoString.formatInt o.generation ∧
    pod.key.name = nodeLocalServerPodName s.sha256 o.object.key.name (nodeLocalServerTargetNode pod) ∧
    nodeLocalServerHasRuntimeIdentity pod path

-- `now` is the time when the turn comes to the Pod.
def reconcileServer (path : GoString) (demand : GoMap GoString PodObject) (now : PodObject → Time) (seen : Seen)
    (pod : PodObject) : Api Seen :=
  let wanted := (demand.lookup (nodeLocalServerTargetNode pod)).isSome
  if ¬pod.isControlledBy o.uid then pure seen
  else if ¬isCurrent s o path pod then retireStale s o path wanted seen pod
  else if ¬wanted then do
    retireIdle s o (now pod) pod
    return seen
  else keepServer seen pod

def createServer (binding : Option Binding) (nodeName : GoString) (source : PodObject) : Api Unit := do
  let desired ← .of (renderLMCacheNodeLocalServerPod s.lib s.sha256 o.object binding nodeName source)
  let desired := { desired with controller := some o.uid }
  match ← Api.create desired with
  | .ok ()                    => pure ()
  | .error (.alreadyExists _) => do
    let existing ← Api.get desired.key >>= Api.orFail (serverText "inspect colliding" desired)
    if existing.isControlledBy o.uid ∧ existing.deleting then pure ()
    else .fail (utf8 "LMCache NodeLocal server Pod name " ++ podName desired ++
      utf8 " is already occupied by another object")
  | .error err => .fail (serverText "create" desired ++ utf8 ": " ++ err.text)

def createServers (binding : Option Binding) (demand : GoMap GoString PodObject) (seen : Seen) : Api Unit :=
  (RangeOrder.ascending.range demand).foldlM (fun _ x =>
    if x.1 ∈ seen.live ∨ x.1 ∈ seen.blocked then pure () else createServer s o binding x.1 x.2) ()

def reconcileNodeLocal (binding : Option Binding) (now : PodObject → Time) : Api Unit := do
  let demand ← nodeLocalEngineDemand o
  let path ← .of (nodeLocalServerShmHostPath s.lib o.object)
  let servers ← Api.list o.listsServer >>=
    Api.orFail (utf8 "list LMCache NodeLocal server Pods for " ++ ownerName o.object)
  let blocked ← reconcileLMCacheNodeLocalCleanupPods s o demand true
  let seen ← servers.foldlM (reconcileServer s o path demand now) ⟨∅, blocked⟩
  createServers s o binding demand seen

def reconcileLMCacheNodeLocalServerPods (binding : Option Binding) (now : PodObject → Time) : Api Unit :=
  if o.isTypedLMCacheNodeLocal then reconcileNodeLocal s o binding now
  else do
    if o.hasFinalizer then ensureLMCacheNodeLocalCleanupForConsumers s o else pure ()
    cleanupLMCacheNodeLocalServerPods s o

-- The requests of a finalization that are not about Pods, by the errors that they are answered with.
structure Elsewhere where
  cleanupOwnedWorkload : Option GoString
  removeFinalizer      : Option GoString

def orElsewhere (err : Option GoString) : Api Unit :=
  match err with
  | some err => .fail err
  | none     => pure ()

def finalizeLMCacheNodeLocal (e : Elsewhere) : Api Bool := do
  orElsewhere e.cleanupOwnedWorkload
  ensureLMCacheNodeLocalCleanupForConsumers s o
  cleanupLMCacheNodeLocalServerPods s o
  let _ ← reconcileLMCacheNodeLocalCleanupPods s o ∅ false
  let servers ← Api.list o.listsServer >>= Api.orReturn
  let cleanups ← Api.list o.listsCleanup >>= Api.orReturn
  if servers.length ≠ 0 ∨ cleanups.length ≠ 0 then return false
  else do
    let consumers ← nodeLocalShmConsumers s o []
    if consumers.length ≠ 0 then return false
    else do
      orElsewhere (e.removeFinalizer.map fun err =>
        utf8 "remove NodeLocal SHM cleanup finalizer from " ++ ownerName o.object ++ utf8 ": " ++ err)
      return true

end Reconcile

end InferenceCache.Controller.NodeLocal
