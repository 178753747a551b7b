import InferenceCache.Adapters.Helpers

-- The LMCache server next to an engine, as a sidecar of its pod.
namespace InferenceCache.Adapters

open Kube Api

section Names

def lmCacheMPServerContainerName : GoString :=
  utf8 "lmcache-mp-server"

def lmCacheMPServerManagedEnv : GoString :=
  utf8 "INFERENCECACHE_MP_SERVER"

def lmCacheMPServerManagedValue : GoString :=
  utf8 "true"

def lmCacheMPConfigVolumeName : GoString :=
  utf8 "lmcache-mp-config"

def lmCacheMPConfigMountPath : GoString :=
  utf8 "/var/run/inference-cache/lmcache"

def lmCacheMPConfigFilePath : GoString :=
  lmCacheMPConfigMountPath ++ utf8 "/client.yaml"

def lmCacheMPShmVolumeName : GoString :=
  utf8 "lmcache-mp-shm"

def lmCacheMPShmMountPath : GoString :=
  utf8 "/dev/shm"

def storageMediumMemory : GoString :=
  utf8 "Memory"

def lmCacheMPTransferModeLMCacheDriven : GoString :=
  utf8 "lmcache_driven"

def lmCacheMPServerPortName : GoString :=
  utf8 "lmcache-mp"

def lmCacheMPHTTPPortName : GoString :=
  utf8 "lmcache-http"

def lmCacheMPHTTPPort : Int :=
  8080

def lmCacheRESPUsernameEnv : GoString :=
  utf8 "LMCACHE_RESP_USERNAME"

def lmCacheRESPPasswordEnv : GoString :=
  utf8 "LMCACHE_RESP_PASSWORD"

end Names

structure LMCacheMPServerConfig where
  image             : GoString
  port              : Int
  chunkSizeTokens   : Int
  l1Capacity        : Quantity
  maxWorkers        : Int
  resources         : ResourceRequirements
  binding           : Option Binding
  writeClientConfig : Bool

section L2

structure RESPAdapter where
  host : GoString
  port : Int
  deriving DecidableEq

-- Keys are sorted.
def RESPAdapter.marshal (lib : Library) (a : RESPAdapter) : GoString :=
  utf8 "\x7b\"host\":" ++ lib.jsonString a.host ++ utf8 ",\"port\":" ++ GoString.formatInt a.port ++
    utf8 ",\"type\":\"resp\"\x7d"

def respAdapter (lib : Library) (binding : Binding) : Except GoString RESPAdapter :=
  if binding.protocol ≠ .resp then
    .error (utf8 "render LMCache MP server: unsupported remote protocol " ++
      lib.quote binding.protocol.text)
  else if (binding.redis.bind (·.tls)).isSome then
    .error (utf8 "render LMCache MP server: LMCache 0.5.3 resp adapter does not support TLS")
  else if (binding.redis.bind (·.database)).isSome then
    .error (utf8 "render LMCache MP server: LMCache 0.5.3 resp adapter does not support database selection")
  else
    let (host, portText, ok) := splitLMCacheHostPort binding.endpoint.trimSpace
    if ¬ok ∨ host = [] ∨ portText = [] then
      .error (utf8 "render LMCache MP server: Redis endpoint " ++ lib.quote binding.endpoint ++
        utf8 " is not host:port")
    else
      match portText.parseInt 32 with
      | none      => .error (invalidPort portText)
      | some port => if port < 1 ∨ 65535 < port then .error (invalidPort portText) else .ok ⟨host, port⟩
where
  invalidPort (portText : GoString) : GoString :=
    utf8 "render LMCache MP server: Redis endpoint " ++ lib.quote binding.endpoint ++
      utf8 " has invalid port " ++ lib.quote portText

def bindingEnv (binding : Binding) : List EnvVar :=
  match binding.redis.bind (·.authentication) with
  | none      => []
  | some auth =>
    (match auth.username with
    | none          => []
    | some username => [.ofSecret lmCacheRESPUsernameEnv username]) ++
    [.ofSecret lmCacheRESPPasswordEnv auth.password]

-- The argument for the remote storage, empty if there is none, and the variables with the credentials.
def renderLMCacheMPL2Binding (lib : Library) : Option Binding → Except GoString (GoString × List EnvVar)
  | none         => .ok ([], [])
  | some binding => do
    let adapter ← respAdapter lib binding
    return (adapter.marshal lib, bindingEnv binding)

-- What the engines of a backend are connected to, if anything.
def dialed (lib : Library) (cache : CacheBackend) : Option RESPAdapter :=
  let storage := cache.spec.rest.remoteStorage
  match protocolFor lib storage with
  | .error _     => none
  | .ok protocol =>
    match (bindingFor storage protocol (effectiveEndpoint lib cache)).map (respAdapter lib) with
    | some (.ok adapter) => some adapter
    | _                  => none

end L2

section Shm

-- `1Gi` more than the first level of the cache.
def lmCacheMPMemoryBudget (l1Capacity : Quantity) : Quantity :=
  l1Capacity.add (.gib 1)

def VolumeSource.isReadOnly (s : VolumeSource) : Bool :=
  s.configMap.isSome ∨ s.secret.isSome ∨ s.downwardAPI.isSome ∨ s.projected.isSome ∨
    s.persistentVolumeClaim.any (·.readOnly) ∨ s.csi.any (·.readOnly = some true) ∨ s.nfs.any (·.readOnly)

def checkLMCacheMPShmReusable (lib : Library) (volumes : List Volume) (mount : VolumeMount) :
    Except GoString Unit :=
  let mounts := utf8 "inject engine config: engine container mounts " ++ lib.quote lmCacheMPShmMountPath
  if mount.readOnly then
    .error (mounts ++ utf8 " read-only (volume " ++ lib.quote mount.name ++
      utf8 "), but the LMCache MP data path writes there — drop readOnly or mount it elsewhere")
  else if mount.subPathExpr ≠ [] then
    .error (mounts ++ utf8 " with subPathExpr " ++ lib.quote mount.subPathExpr ++ utf8 " (volume " ++
      lib.quote mount.name ++ utf8 "); the LMCache MP server cannot reproduce that expansion in its " ++
      utf8 "own env — use a literal subPath, or mount " ++ lib.quote lmCacheMPShmMountPath ++
      utf8 " without it")
  else
    match Keyed.first Volume.name mount.name volumes with
    | none   => .ok ()
    | some v =>
      if VolumeSource.isReadOnly v.source then
        .error (mounts ++ utf8 " from read-only volume " ++ lib.quote mount.name ++
          utf8 ", but the LMCache MP data path writes there — use an emptyDir (medium: Memory) instead")
      else .ok ()

def checkLMCacheMPShmBudget (lib : Library) (volumes : List Volume) (mount : VolumeMount)
    (budget : Quantity) : Except GoString Unit :=
  match Keyed.first Volume.name mount.name volumes with
  | none   => .error (utf8 "render LMCache MP server: engine /dev/shm mount references missing volume " ++
    lib.quote mount.name)
  | some v =>
    match v.source.emptyDir with
    | none          => .error notMemory
    | some emptyDir =>
      if emptyDir.medium ≠ storageMediumMemory then .error notMemory else
        match emptyDir.sizeLimit with
        | none       => .error (tooSmall (utf8 "unbounded"))
        | some limit =>
          if limit.amount < budget.amount then .error (tooSmall (lib.formatQuantity limit)) else .ok ()
where
  notMemory :=
    utf8 "render LMCache MP server: engine container mounts " ++ lib.quote lmCacheMPShmMountPath ++
      utf8 " from volume " ++ lib.quote mount.name ++
      utf8 ", but the PodLocal CUDA IPC budget requires a memory-backed emptyDir"
  tooSmall (got : GoString) :=
    utf8 "render LMCache MP server: engine /dev/shm volume " ++ lib.quote mount.name ++
      utf8 " has sizeLimit " ++ got ++ utf8 ", need at least " ++ lib.formatQuantity budget ++
      utf8 " (l1Capacity + 1Gi headroom)"

end Shm

section Server

def validateLMCacheMPServerConfig (cfg : LMCacheMPServerConfig) : Except GoString Unit :=
  if cfg.image.trimSpace = [] then .error (utf8 "render LMCache MP server: image is empty")
  else if cfg.port < 1 ∨ 65535 < cfg.port then
    .error (utf8 "render LMCache MP server: port " ++ GoString.formatInt cfg.port ++
      utf8 " is outside 1-65535")
  else if cfg.port = lmCacheMPHTTPPort then
    .error (utf8 "render LMCache MP server: MP port " ++ GoString.formatInt cfg.port ++
      utf8 " collides with HTTP health/control port")
  else if cfg.chunkSizeTokens < 1 then
    .error (utf8 "render LMCache MP server: chunkSizeTokens must be at least 1")
  else if cfg.l1Capacity.amount ≤ 0 then
    .error (utf8 "render LMCache MP server: l1Capacity must be greater than zero")
  else if cfg.maxWorkers < 1 then
    .error (utf8 "render LMCache MP server: maxWorkers must be at least 1")
  else .ok ()

def quantityAsGiB (lib : Library) (q : Quantity) : Except GoString GoString :=
  if q.value ≤ 0 then .error (utf8 "render LMCache MP server: l1Capacity must be greater than zero")
  else if q.value % 2 ^ 30 = 0 then .ok (GoString.formatInt (q.value / 2 ^ 30))
  else .ok (lib.formatGiB q.value)

def lmCacheMPHTTPProbe (period failures : Int) : Probe where
  httpGet          := some ⟨utf8 "/healthcheck", lmCacheMPHTTPPortName, utf8 "HTTP"⟩
  periodSeconds    := period
  failureThreshold := failures
  timeoutSeconds   := 2

def serverArgs (cfg : LMCacheMPServerConfig) (l1GiB l2Adapter : GoString) : List GoString :=
  [utf8 "server",
    utf8 "--supported-transfer-mode", lmCacheMPTransferModeLMCacheDriven,
    utf8 "--no-l1-use-lazy",
    utf8 "--shm-name", [],
    utf8 "--host", utf8 "127.0.0.1",
    utf8 "--port", GoString.formatInt cfg.port,
    utf8 "--http-host", utf8 "0.0.0.0",
    utf8 "--http-port", GoString.formatInt lmCacheMPHTTPPort,
    utf8 "--chunk-size", GoString.formatInt cfg.chunkSizeTokens,
    utf8 "--l1-size-gb", l1GiB,
    utf8 "--eviction-policy", utf8 "LRU",
    utf8 "--max-workers", GoString.formatInt cfg.maxWorkers] ++
  if l2Adapter ≠ [] then [utf8 "--l2-adapter", l2Adapter] else []

-- Writes the file from which a client reads where the server is, and starts the server.
def clientConfigScript : GoString :=
  utf8 "set -eu\nconfig_path=\"$1\"\nchunk_size=\"$2\"\nmp_port=\"$3\"\nshift 3\n" ++
  utf8 "printf 'chunk_size: %s\\nmp_host: \"127.0.0.1\"\\nmp_port: %s\\n' \"$chunk_size\" \"$mp_port\"" ++
  utf8 " > \"$config_path\"\nexec \"$@\""

def configMount : VolumeMount where
  name      := lmCacheMPConfigVolumeName
  mountPath := lmCacheMPConfigMountPath

def lmCacheMPServerContainer (lib : Library) (cfg : LMCacheMPServerConfig) (l2Adapter : GoString)
    (bindingEnv : List EnvVar) (shmMount : VolumeMount) : Except GoString Container := do
  let l1GiB ← quantityAsGiB lib cfg.l1Capacity
  let serverArgs := serverArgs cfg l1GiB l2Adapter
  return {
    name := lmCacheMPServerContainerName
    image := cfg.image.trimSpace
    imagePullPolicy := utf8 "IfNotPresent"
    restartPolicy := some (utf8 "Always")
    command := if cfg.writeClientConfig then [utf8 "/bin/sh", utf8 "-c"] else [utf8 "lmcache"]
    args :=
      if cfg.writeClientConfig then
        [clientConfigScript, utf8 "inference-cache-lmcache-config", lmCacheMPConfigFilePath,
          GoString.formatInt cfg.chunkSizeTokens, GoString.formatInt cfg.port, utf8 "lmcache"] ++ serverArgs
      else serverArgs
    env := bindingEnv.foldl (fun env e => upsertEnv e env)
      [.ofValue (utf8 "NVIDIA_VISIBLE_DEVICES") (utf8 "all"),
        .ofValue lmCacheMPServerManagedEnv lmCacheMPServerManagedValue]
    resources := cfg.resources
    volumeMounts := if cfg.writeClientConfig then [shmMount, configMount] else [shmMount]
    ports := [⟨lmCacheMPServerPortName, 0, cfg.port, utf8 "TCP"⟩,
      ⟨lmCacheMPHTTPPortName, 0, lmCacheMPHTTPPort, utf8 "TCP"⟩]
    startupProbe := some (lmCacheMPHTTPProbe 3 40)
    readinessProbe := some (lmCacheMPHTTPProbe 5 3)
    livenessProbe := some (lmCacheMPHTTPProbe 10 3)
    securityContext := some (lmCacheMPServerSecurityContext none)
  }

def lmCacheMPWireIsOurs (pod : PodSpec) : Bool :=
  isOurs pod lmCacheMPServerContainerName lmCacheMPServerManagedEnv lmCacheMPServerManagedValue

end Server

section Render

-- What is changed of a pod while volumes are added: its volumes, and what its engine mounts.
structure Wire where
  volumes : List Volume
  mounts  : List VolumeMount

def configVolume : Volume where
  name   := lmCacheMPConfigVolumeName
  source := { emptyDir := some {} }

def addClientConfig (lib : Library) (owned : Bool) (w : Wire) : Except GoString Wire :=
  match mountAtPath lmCacheMPConfigMountPath w.mounts with
  | some existing =>
    if owned ∧ existing.name = lmCacheMPConfigVolumeName then addVolume else
      .error (utf8 "render LMCache MP server: engine container already mounts " ++
        lib.quote lmCacheMPConfigMountPath ++ utf8 " from volume " ++ lib.quote existing.name ++
        utf8 "; that path is reserved for the LMCache MP client config")
  | none => addVolume
where
  addVolume : Except GoString Wire := do
    let volumes ← adoptVolume lib configVolume owned w.volumes
    return ⟨volumes, upsertMountByName configMount w.mounts⟩

def shmVolume (budget : Quantity) : Volume where
  name   := lmCacheMPShmVolumeName
  source := { emptyDir := some ⟨storageMediumMemory, some budget⟩ }

def shmMount : VolumeMount where
  name      := lmCacheMPShmVolumeName
  mountPath := lmCacheMPShmMountPath

-- The mount that the server shares with the engine. One that the engine has already is used if it is
-- large enough.
def addShm (lib : Library) (owned : Bool) (budget : Quantity) (w : Wire) :
    Except GoString (Wire × VolumeMount) :=
  match mountAtPath lmCacheMPShmMountPath w.mounts with
  | some existing =>
    if owned ∧ existing.name = lmCacheMPShmVolumeName then addVolume else do
      checkLMCacheMPShmReusable lib w.volumes existing
      checkLMCacheMPShmBudget lib w.volumes existing budget
      return (w, { name := existing.name, mountPath := lmCacheMPShmMountPath, subPath := existing.subPath })
  | none => addVolume
where
  addVolume : Except GoString (Wire × VolumeMount) := do
    let volumes ← adoptVolume lib (shmVolume budget) owned w.volumes
    return (⟨volumes, upsertMountByName shmMount w.mounts⟩, shmMount)

-- Mounts are changed in the engine's container only.
def PodSpec.withWire (pod : PodSpec) (engineIndex : Nat) (w : Wire) (initContainers : List Container) :
    PodSpec where
  containers     := pod.containers.modify engineIndex fun c => { c with volumeMounts := w.mounts }
  initContainers := initContainers
  volumes        := w.volumes

def PodSpec.wire (pod : PodSpec) (engineIndex : Nat) : Wire where
  volumes := pod.volumes
  mounts  := (pod.containers[engineIndex]?.map (·.volumeMounts)).getD []

-- The pod with the server, and the path of the file for the client, if one is written.
def renderLMCachePodLocalServer (lib : Library) (pod : PodSpec) (engineContainerName : GoString)
    (cfg : LMCacheMPServerConfig) : Except GoString (PodSpec × GoString) := do
  let engineIndex ← engineContainerIndexNamed lib pod engineContainerName
  validateLMCacheMPServerConfig cfg
  let (l2Adapter, bindingEnv) ← renderLMCacheMPL2Binding lib cfg.binding
  let owned := lmCacheMPWireIsOurs pod
  let w := PodSpec.wire pod engineIndex
  let w ← if cfg.writeClientConfig then addClientConfig lib owned w else pure w
  let (w, shmMount) ← addShm lib owned (lmCacheMPMemoryBudget cfg.l1Capacity) w
  let server ← lmCacheMPServerContainer lib cfg l2Adapter bindingEnv shmMount
  let initContainers ← adoptContainer lib server owned pod.initContainers
  return (PodSpec.withWire pod engineIndex w initContainers,
    if cfg.writeClientConfig then lmCacheMPConfigFilePath else [])

end Render

end InferenceCache.Adapters
