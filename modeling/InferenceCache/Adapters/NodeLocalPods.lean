import InferenceCache.Adapters.NodeLocal
import InferenceCache.Api.Metadata
import InferenceCache.Kube.Cluster
import InferenceCache.Lib.Hex

-- The server Pods that the engines on a node share, and the Pods that clean up after those. What only
-- concerns the scheduling of a Pod, apart from its node, is left out: nothing reads it.
namespace InferenceCache.Adapters

open Kube Api EngineBinding

section Names

def lmCacheNodeLocalShmCleanupName : GoString :=
  utf8 "lmcache-node-shm-cleanup"

def lmCacheNodeLocalShmCleanupGate : GoString :=
  utf8 "inferencecache.io/await-shm-quiescence"

def lmCacheNodeLocalShmCleanupPath : GoString :=
  utf8 "/var/run/inference-cache/shm-pool"

def restartPolicyNever : GoString :=
  utf8 "Never"

variable (sha256 : Bytes → Bytes)

def nodeLocalCleanupPodName (uid nodeName : GoString) : GoString :=
  utf8 "lmcache-shm-cleanup-" ++ GoString.hex ((sha256 (uid ++ [0] ++ nodeName)).take 12)

def nodeLocalCleanupRetryPodName (uid nodeName failedName : GoString) : GoString :=
  nodeLocalCleanupPodName sha256 uid nodeName ++ utf8 "-retry-" ++ GoString.hex ((sha256 failedName).take 6)

def isNodeLocalCleanupPodName (uid nodeName name : GoString) : Bool :=
  let base := nodeLocalCleanupPodName sha256 uid nodeName
  let suffix := name.trimPrefix (base ++ utf8 "-retry-")
  name = base ∨ (suffix ≠ name ∧ suffix.length = 12 ∧ suffix.all GoString.isLowerHex)

-- `strings.TrimRight(s, ".-")`
def trimDotsAndDashes (s : GoString) : GoString :=
  (s.reverse.dropWhile (· ∈ utf8 ".-")).reverse

def nodeLocalServerPodName (backendName nodeName : GoString) : GoString :=
  let suffix := GoString.hex ((sha256 nodeName).take 6)
  let maxPrefix := 253 - suffix.length - 1
  let stem := trimDotsAndDashes backendName
  let stem := if maxPrefix < stem.length then trimDotsAndDashes (stem.take maxPrefix) else stem
  stem ++ utf8 "-" ++ suffix

end Names

section Server

-- An empty `--shm-name` keeps the L1 private to the server.
def isLMCacheMPCUDAServerProfile (args : List GoString) : Bool :=
  argValues (utf8 "--supported-transfer-mode") args = ([lmCacheMPTransferModeLMCacheDriven], false) ∧
    argValues (utf8 "--shm-name") args = ([[]], false) ∧
    args.count (utf8 "--no-l1-use-lazy") = 1 ∧ args.count (utf8 "--l1-use-lazy") = 0

def nodeLocalServerArgs (cache : CacheBackend) (lm : LMCacheEngine) (server : NodeLocalServer)
    (l1GiB l2Adapter : GoString) : List GoString :=
  let nodeIP := utf8 "$(" ++ lmCacheNodeIPEnv ++ utf8 ")"
  [utf8 "server",
    utf8 "--instance-id", lmCacheNodeLocalInstanceID cache,
    utf8 "--supported-transfer-mode", lmCacheMPTransferModeLMCacheDriven,
    utf8 "--no-l1-use-lazy",
    utf8 "--shm-name", [],
    utf8 "--host", nodeIP,
    utf8 "--port", GoString.formatInt server.port,
    utf8 "--http-host", nodeIP,
    utf8 "--http-port", GoString.formatInt server.httpPort,
    utf8 "--chunk-size", GoString.formatInt (effectiveLMCacheChunkSize lm),
    utf8 "--l1-size-gb", l1GiB,
    utf8 "--eviction-policy", utf8 "LRU",
    utf8 "--max-gpu-workers", GoString.formatInt server.maxGPUWorkers,
    utf8 "--max-cpu-workers", GoString.formatInt server.maxCPUWorkers] ++
  if l2Adapter ≠ [] then [utf8 "--l2-adapter", l2Adapter] else []

def nodeLocalServerContainer (server : NodeLocalServer) (args : List GoString) (bindingEnv : List EnvVar) :
    Container where
  name := lmCacheMPServerContainerName
  image := server.image.trimSpace
  imagePullPolicy := utf8 "IfNotPresent"
  restartPolicy := none
  command := [utf8 "lmcache"]
  args := args
  env := bindingEnv.foldl (fun env e => upsertEnv e env)
    [.ofValue (utf8 "NVIDIA_VISIBLE_DEVICES") (utf8 "all"),
      .ofValue lmCacheMPServerManagedEnv lmCacheMPServerManagedValue,
      nodeIPEnv]
  resources := server.resources
  volumeMounts := [nodeShmMount]
  ports := [⟨lmCacheMPServerPortName, server.port, server.port, utf8 "TCP"⟩,
    ⟨lmCacheMPHTTPPortName, server.httpPort, server.httpPort, utf8 "TCP"⟩]
  startupProbe := some (lmCacheMPHTTPProbe 3 40)
  readinessProbe := some (lmCacheMPHTTPProbe 5 3)
  livenessProbe := some (lmCacheMPHTTPProbe 10 3)
  securityContext := some (lmCacheMPServerSecurityContext none)

def ownerName (cache : CacheBackend) : GoString :=
  cache.key.inNamespace ++ utf8 "/" ++ cache.key.name

-- Labels or annotations that are written one after the other.
def stringMap (entries : List (GoString × GoString)) : GoMap GoString GoString :=
  entries.foldl (fun m x => m.insert x.1 x.2) ∅

-- The controller is set by the caller.
def renderLMCacheNodeLocalServerPod (lib : Library) (sha256 : Bytes → Bytes) (cache : CacheBackend)
    (binding : Option Binding) (nodeName : GoString) (source : PodObject) : Except GoString PodObject := do
  match cache.spec.rest.lmCache, cache.spec.rest.lmCache.bind (·.nodeLocal) with
  | some lm, some server =>
    if lm.topology ≠ .nodeLocal then .error incomplete
    else if cache.spec.rest.uid = [] then
      .error (utf8 "render LMCache NodeLocal server Pod: CacheBackend UID is empty")
    else if nodeName.trimSpace = [] ∨ source.nodeName ≠ nodeName then
      .error (utf8 "render LMCache NodeLocal server Pod: a scheduled source engine on the target node is " ++
        utf8 "required")
    else
      validateLMCacheNodeLocalServerConfig server (effectiveLMCacheChunkSize lm)
      let (l2Adapter, bindingEnv) ← renderLMCacheMPL2Binding lib binding
      let l1GiB ← quantityAsGiB lib server.l1Capacity
      let shmHostPath ← nodeLocalServerShmHostPath lib cache
      let args := nodeLocalServerArgs cache lm server l1GiB l2Adapter
      return {
        key := ⟨cache.key.inNamespace, nodeLocalServerPodName sha256 cache.key.name nodeName⟩
        labels := stringMap [
          (utf8 "app.kubernetes.io/name", utf8 "lmcache-mp-server"),
          (utf8 "app.kubernetes.io/managed-by", utf8 "inference-cache-controller"),
          (labelLMCacheNodeLocalServer, utf8 "true"),
          (labelCacheBackendUID, cache.spec.rest.uid),
          (labelLMCacheMPMetrics, labelLMCacheMPMetricsEnabled)]
        annotations := stringMap [
          (annotationNodeLocalOwner, ownerName cache),
          (annotationNodeLocalOwnerUID, cache.spec.rest.uid),
          (annotationNodeLocalGeneration, GoString.formatInt cache.spec.rest.generation),
          (annotationNodeLocalTargetNode, nodeName)]
        controller := none
        deleting := false
        nodeName := []
        affinity := some (.exactNode nodeName)
        restartPolicy := utf8 "Always"
        schedulingGates := []
        spec := ⟨[nodeLocalServerContainer server args bindingEnv], [], [nodeShmVolume shmHostPath]⟩
        ephemeralContainers := []
        phase := .pending
        containerStatuses := []
      }
  | _, _ => .error incomplete
where
  incomplete :=
    utf8 "render LMCache NodeLocal server Pod: complete typed NodeLocal configuration is required"

end Server

section Cleanup

def nodeLocalShmHelperSecurityContext : SecurityContext where
  allowPrivilegeEscalation := some false
  dropCapabilities := [utf8 "ALL"]
  seccompProfile := some (utf8 "RuntimeDefault")
  runAsNonRoot := some false
  runAsUser := some 0
  runAsGroup := some 0

def cleanupContainer (image : GoString) : Container where
  name := lmCacheNodeLocalShmCleanupName
  image := image
  imagePullPolicy := utf8 "IfNotPresent"
  restartPolicy := none
  command := [utf8 "/node-local-shm-cleanup"]
  args := [lmCacheNodeLocalShmCleanupPath]
  env := []
  resources := gateResources
  volumeMounts := [⟨lmCacheNodeLocalShmVolumeName, lmCacheNodeLocalShmCleanupPath, false, none, [], none, []⟩]
  ports := []
  startupProbe := none
  readinessProbe := none
  livenessProbe := none
  securityContext := some nodeLocalShmHelperSecurityContext

def renderLMCacheNodeLocalCleanupPod (lib : Library) (sha256 : Bytes → Bytes) (cache : CacheBackend)
    (nodeName image : GoString) : Except GoString PodObject := do
  if cache.spec.rest.uid = [] ∨ image.trimSpace = [] ∨ nodeName.trimSpace = [] then
    .error (utf8 "render LMCache NodeLocal SHM cleanup Pod: backend UID, target node, cleanup image, and " ++
      utf8 "scheduling source are required")
  else
    let shmHostPath ← nodeLocalServerShmHostPath lib cache
    return {
      key := ⟨cache.key.inNamespace, nodeLocalCleanupPodName sha256 cache.spec.rest.uid nodeName⟩
      labels := stringMap [
        (utf8 "app.kubernetes.io/name", utf8 "lmcache-shm-cleanup"),
        (utf8 "app.kubernetes.io/managed-by", utf8 "inference-cache-controller"),
        (labelLMCacheNodeLocalCleanup, utf8 "true"),
        (labelCacheBackendUID, cache.spec.rest.uid)]
      annotations := stringMap [
        (annotationNodeLocalOwner, ownerName cache),
        (annotationNodeLocalOwnerUID, cache.spec.rest.uid),
        (annotationNodeLocalTargetNode, nodeName)]
      controller := none
      deleting := false
      nodeName := []
      affinity := some (.exactNode nodeName)
      restartPolicy := restartPolicyNever
      schedulingGates := [lmCacheNodeLocalShmCleanupGate]
      spec := ⟨[cleanupContainer image.trimSpace], [], [nodeShmVolume shmHostPath]⟩
      ephemeralContainers := []
      phase := .pending
      containerStatuses := []
    }

-- The retry is gated again, so that it waits for its own proof that nobody uses the directory.
def renderLMCacheNodeLocalCleanupRetryPod (sha256 : Bytes → Bytes) (cache : CacheBackend)
    (failed : PodObject) : Except GoString PodObject :=
  let nodeName := failed.annotation annotationNodeLocalTargetNode
  if cache.spec.rest.uid = [] ∨ failed.key.name.trimSpace = [] then
    .error (utf8 "render LMCache NodeLocal SHM cleanup retry: backend UID and failed cleanup Pod are required")
  else if nodeName.trimSpace = [] then
    .error (utf8 "render LMCache NodeLocal SHM cleanup retry: target node is required")
  else
    .ok { failed with
      key := ⟨cache.key.inNamespace,
        nodeLocalCleanupRetryPodName sha256 cache.spec.rest.uid nodeName failed.key.name⟩
      controller := none
      deleting := false
      nodeName := []
      schedulingGates := [lmCacheNodeLocalShmCleanupGate]
      phase := .pending
      containerStatuses := [] }

def lmCacheNodeLocalCleanupIsGated (pod : PodObject) : Bool :=
  pod.schedulingGates = [lmCacheNodeLocalShmCleanupGate]

def isExactNodeAffinity (nodeName : GoString) : Option Affinity → Bool
  | some (.exactNode name) => name = nodeName
  | _                      => false

-- Exactly what the cleanup of a node runs, as it was rendered.
def isLMCacheNodeLocalCleanupPod (lib : Library) (sha256 : Bytes → Bytes) (pod : PodObject)
    (cache : CacheBackend) (nodeName image : GoString) : Bool :=
  let uid := cache.spec.rest.uid
  uid ≠ [] ∧ nodeName.trimSpace ≠ [] ∧ image.trimSpace ≠ [] ∧
    pod.key.inNamespace = cache.key.inNamespace ∧ pod.isControlledBy uid ∧
    isNodeLocalCleanupPodName sha256 uid nodeName pod.key.name ∧
    pod.label labelLMCacheNodeLocalCleanup = utf8 "true" ∧ pod.label labelCacheBackendUID = uid ∧
    pod.annotation annotationNodeLocalOwnerUID = uid ∧
    pod.annotation annotationNodeLocalTargetNode = nodeName ∧
    (pod.nodeName = [] ∨ pod.nodeName = nodeName) ∧ isExactNodeAffinity nodeName pod.affinity ∧
    pod.restartPolicy = restartPolicyNever ∧ pod.spec.initContainers.length = 0 ∧
    pod.ephemeralContainers.length = 0 ∧
    (pod.schedulingGates.length = 0 ∨ lmCacheNodeLocalCleanupIsGated pod) ∧
    runsCleanup pod.spec
where
  runsCleanup (spec : PodSpec) : Bool :=
    match spec.containers, spec.volumes with
    | [container], [volume] =>
      volume.name = lmCacheNodeLocalShmVolumeName ∧ isShmOf volume.source ∧
        container.name = lmCacheNodeLocalShmCleanupName ∧ container.image = image.trimSpace ∧
        container.command = [utf8 "/node-local-shm-cleanup"] ∧
        container.args = [lmCacheNodeLocalShmCleanupPath] ∧ mountsOnly container.volumeMounts
    | _, _ => false
  isShmOf (source : VolumeSource) : Bool :=
    match nodeLocalServerShmHostPath lib cache with
    | .ok path => source.hostPath = some ⟨path, some hostPathDirectoryOrCreate⟩
    | .error _ => false
  mountsOnly : List VolumeMount → Bool
    | [mount] =>
      mount.name = lmCacheNodeLocalShmVolumeName ∧ mount.mountPath = lmCacheNodeLocalShmCleanupPath ∧
        ¬mount.readOnly ∧ mount.subPath = [] ∧ mount.subPathExpr = [] ∧ mount.mountPropagation = none
    | _ => false

-- The phase alone does not prove that the helper has run on this node.
def lmCacheNodeLocalCleanupSucceeded (pod : PodObject) (nodeName : GoString) : Bool :=
  pod.phase = .succeeded ∧ pod.nodeName = nodeName ∧ exited pod.containerStatuses
where
  exited : List ContainerStatus → Bool
    | [status] => status.name = lmCacheNodeLocalShmCleanupName ∧ status.terminated = some 0
    | _        => false

end Cleanup

end InferenceCache.Adapters
