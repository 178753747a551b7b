import InferenceCache.Adapters.Renderer

-- The engine's side of an LMCache server that all engines on a node share.
namespace InferenceCache.Adapters

open Kube Api

section Names

def lmCacheNodeLocalGateContainerName : GoString :=
  utf8 "lmcache-node-local-gate"

def lmCacheNodeLocalGateManagedEnv : GoString :=
  utf8 "INFERENCECACHE_NODE_LOCAL_GATE"

def lmCacheNodeLocalGateManagedValue : GoString :=
  utf8 "true"

def lmCacheNodeLocalShmVolumeName : GoString :=
  utf8 "lmcache-node-shm"

def lmCacheNodeLocalConfigVolumeName : GoString :=
  utf8 "lmcache-node-config"

def lmCacheNodeLocalConfigMountPath : GoString :=
  utf8 "/var/run/inference-cache/lmcache-node"

def lmCacheNodeLocalConfigFilePath : GoString :=
  lmCacheNodeLocalConfigMountPath ++ utf8 "/client.yaml"

def lmCacheNodeIPEnv : GoString :=
  utf8 "INFERENCECACHE_NODE_IP"

def hostPathDirectoryOrCreate : GoString :=
  utf8 "DirectoryOrCreate"

end Names

section HostPath

def isSafeInPath (c : UInt8) : Bool :=
  (0x61 ≤ c ∧ c ≤ 0x7a) ∨ (0x41 ≤ c ∧ c ≤ 0x5a) ∨ (0x30 ≤ c ∧ c ≤ 0x39) ∨ c ∈ utf8 "-_."

-- The character in the message is printed by the library, from the rest of the string that starts with it.
def nodeLocalBackendUID (lib : Library) (cache : CacheBackend) : Except GoString GoString :=
  let uid := cache.spec.rest.uid
  if uid = [] then .error (utf8 "derive LMCache NodeLocal host path: CacheBackend UID is empty") else
    match uid.dropWhile isSafeInPath with
    | c :: rest =>
      .error (utf8 "derive LMCache NodeLocal host path: CacheBackend UID contains unsafe character " ++
        lib.quoteRune (c :: rest))
    | [] =>
      if 255 < uid.length then
        .error (utf8 "derive LMCache NodeLocal host path: " ++ GoString.formatInt uid.length ++
          utf8 "-byte UID exceeds path-component limit 255")
      else .ok uid

def nodeLocalServerShmHostPath (lib : Library) (cache : CacheBackend) : Except GoString GoString := do
  let uid ← nodeLocalBackendUID lib cache
  return utf8 "/dev/shm/inference-cache" ++ utf8 "/" ++ uid

def checkNodeLocalHostShm (lib : Library) (volumes : List Volume) (mount : VolumeMount)
    (wantHostPath : GoString) : Except GoString Unit :=
  if mount.readOnly ∨ mount.subPath ≠ [] ∨ mount.subPathExpr ≠ [] then
    .error (utf8 "render LMCache NodeLocal engine: /dev/shm must be a writable whole-volume hostPath mount")
  else
    match Keyed.first Volume.name mount.name volumes with
    | none   => .error (utf8 "render LMCache NodeLocal engine: /dev/shm mount references missing volume " ++
      lib.quote mount.name)
    | some v =>
      if v.source.hostPath = some ⟨wantHostPath, some hostPathDirectoryOrCreate⟩ then .ok () else
        .error (utf8 "render LMCache NodeLocal engine: /dev/shm must use UID-scoped hostPath " ++
          lib.quote wantHostPath ++ utf8 " with type DirectoryOrCreate for cross-Pod CUDA IPC")

end HostPath

section Gate

def validateLMCacheNodeLocalServerConfig (server : NodeLocalServer) (chunkSize : Int) :
    Except GoString Unit :=
  if server.image.trimSpace = [] then .error (utf8 "render LMCache NodeLocal server: image is empty")
  else if server.port < 1 ∨ 65535 < server.port then .error (outside server.port)
  else if server.httpPort < 1 ∨ 65535 < server.httpPort then .error (outside server.httpPort)
  else if server.port = server.httpPort then
    .error (utf8 "render LMCache NodeLocal server: host ports must be distinct")
  else if chunkSize < 1 ∨ server.l1Capacity.amount ≤ 0 ∨ server.maxGPUWorkers < 1 ∨
      server.maxCPUWorkers < 1 then
    .error (utf8 "render LMCache NodeLocal server: chunk size, L1 capacity, and worker counts must be " ++
      utf8 "positive")
  else .ok ()
where
  outside (port : Int) :=
    utf8 "render LMCache NodeLocal server: port " ++ GoString.formatInt port ++ utf8 " is outside 1-65535"

def lmCacheNodeLocalInstanceID (cache : CacheBackend) : GoString :=
  cache.key.inNamespace ++ utf8 "/" ++ cache.key.name ++ utf8 "@" ++ cache.spec.rest.uid ++ utf8 "#" ++
    GoString.formatInt cache.spec.rest.generation

def nodeIPEnv : EnvVar :=
  .ofField lmCacheNodeIPEnv (utf8 "status.hostIP")

-- Waits until the server of the node answers and is the right one.
def gateScript : GoString :=
  utf8 "import json, os, time, urllib.request\n" ++
  utf8 "ip = os.environ[\"INFERENCECACHE_NODE_IP\"]\n" ++
  utf8 "host = \"[\" + ip + \"]\" if \":\" in ip else ip\n" ++
  utf8 "base = \"http://%s:%s\" % (host, os.environ[\"EXPECTED_HTTP_PORT\"])\n" ++
  utf8 "expected = \x7b\n" ++
  utf8 "    \"instance_id\": os.environ[\"EXPECTED_INSTANCE_ID\"],\n" ++
  utf8 "    \"supported_transfer_mode\": \"lmcache_driven\",\n" ++
  utf8 "    \"shm_name\": \"\",\n" ++
  utf8 "    \"port\": int(os.environ[\"EXPECTED_MP_PORT\"]),\n" ++
  utf8 "    \"chunk_size\": int(os.environ[\"EXPECTED_CHUNK_SIZE\"]),\n" ++
  utf8 "    \"max_gpu_workers\": int(os.environ[\"EXPECTED_MAX_GPU_WORKERS\"]),\n" ++
  utf8 "    \"max_cpu_workers\": int(os.environ[\"EXPECTED_MAX_CPU_WORKERS\"]),\n" ++
  utf8 "\x7d\n" ++
  utf8 "while True:\n" ++
  utf8 "    try:\n" ++
  utf8 "        with urllib.request.urlopen(base + \"/config\", timeout=2) as response:\n" ++
  utf8 "            config = json.load(response)\n" ++
  utf8 "        mp = config.get(\"mp\", \x7b\x7d)\n" ++
  utf8 "        http = config.get(\"http\", \x7b\x7d)\n" ++
  utf8 "        for key, value in expected.items():\n" ++
  utf8 "            if mp.get(key) != value:\n" ++
  utf8 "                raise RuntimeError(\"server config %s=%r, expected %r\" % " ++
  utf8 "(key, mp.get(key), value))\n" ++
  utf8 "        memory = config.get(\"storage_manager\", \x7b\x7d).get(\"l1_manager_config\", \x7b\x7d)" ++
  utf8 ".get(\"memory_config\", \x7b\x7d)\n" ++
  utf8 "        if memory.get(\"use_lazy\") is not False:\n" ++
  utf8 "            raise RuntimeError(\"effective L1 use_lazy=%r, expected False\" % " ++
  utf8 "memory.get(\"use_lazy\"))\n" ++
  utf8 "        if memory.get(\"shm_name\") != \"\":\n" ++
  utf8 "            raise RuntimeError(\"effective L1 shm_name=%r, expected empty\" % " ++
  utf8 "memory.get(\"shm_name\"))\n" ++
  utf8 "        if http.get(\"http_port\") != int(os.environ[\"EXPECTED_HTTP_PORT\"]):\n" ++
  utf8 "            raise RuntimeError(\"server HTTP port does not match\")\n" ++
  utf8 "        with urllib.request.urlopen(base + \"/healthcheck\", timeout=2) as response:\n" ++
  utf8 "            health = json.load(response)\n" ++
  utf8 "        if health.get(\"status\") != \"healthy\":\n" ++
  utf8 "            raise RuntimeError(\"server health is %r\" % health)\n" ++
  utf8 "        config_path = os.environ.get(\"CLIENT_CONFIG_PATH\", \"\")\n" ++
  utf8 "        if config_path:\n" ++
  utf8 "            tmp = config_path + \".tmp\"\n" ++
  utf8 "            with open(tmp, \"w\", encoding=\"utf-8\") as output:\n" ++
  utf8 "                # LMCache's SGLang MP adapter adds the tcp:// scheme itself;\n" ++
  utf8 "                # unlike vLLM's connector JSON, this YAML field is a bare host.\n" ++
  utf8 "                output.write('chunk_size: %s\\nmp_host: \"%s\"\\nmp_port: %s\\n' % " ++
  utf8 "(expected[\"chunk_size\"], ip, expected[\"port\"]))\n" ++
  utf8 "            os.replace(tmp, config_path)\n" ++
  utf8 "        print(\"verified healthy same-node LMCache server \" + expected[\"instance_id\"], " ++
  utf8 "flush=True)\n" ++
  utf8 "        break\n" ++
  utf8 "    except Exception as exc:\n" ++
  utf8 "        print(\"waiting for ownership-verified same-node LMCache server: %s\" % exc, " ++
  utf8 "flush=True)\n" ++
  utf8 "        time.sleep(2)\n"

def gateResources : ResourceRequirements where
  requests := ((∅ : GoMap GoString Quantity).insert (utf8 "cpu") (.milli 10)).insert (utf8 "memory") (.mib 32)
  limits   := (∅ : GoMap GoString Quantity).insert (utf8 "memory") (.mib 128)
  claims   := []

def lmCacheNodeLocalGateContainer (cache : CacheBackend) (lm : LMCacheEngine) (server : NodeLocalServer)
    (configPath : GoString) (mounts : List VolumeMount) : Container where
  name := lmCacheNodeLocalGateContainerName
  image := server.image.trimSpace
  imagePullPolicy := utf8 "IfNotPresent"
  restartPolicy := none
  command := [utf8 "python3", utf8 "-c"]
  args := [gateScript]
  env := [
    .ofValue lmCacheNodeLocalGateManagedEnv lmCacheNodeLocalGateManagedValue,
    nodeIPEnv,
    .ofValue (utf8 "EXPECTED_INSTANCE_ID") (lmCacheNodeLocalInstanceID cache),
    .ofValue (utf8 "EXPECTED_MP_PORT") (GoString.formatInt server.port),
    .ofValue (utf8 "EXPECTED_HTTP_PORT") (GoString.formatInt server.httpPort),
    .ofValue (utf8 "EXPECTED_CHUNK_SIZE") (GoString.formatInt (effectiveLMCacheChunkSize lm)),
    .ofValue (utf8 "EXPECTED_MAX_GPU_WORKERS") (GoString.formatInt server.maxGPUWorkers),
    .ofValue (utf8 "EXPECTED_MAX_CPU_WORKERS") (GoString.formatInt server.maxCPUWorkers),
    .ofValue (utf8 "CLIENT_CONFIG_PATH") configPath]
  resources := gateResources
  volumeMounts := mounts
  ports := []
  startupProbe := none
  readinessProbe := none
  livenessProbe := none
  securityContext := some (lmCacheMPServerSecurityContext none)

def lmCacheNodeLocalWireIsOurs (pod : PodSpec) : Bool :=
  isOurs pod lmCacheNodeLocalGateContainerName lmCacheNodeLocalGateManagedEnv
    lmCacheNodeLocalGateManagedValue

def adoptNodeLocalGate (lib : Library) (want : Container) (owned : Bool) (containers : List Container) :
    Except GoString (List Container) :=
  adopt Container.name (utf8 "render LMCache NodeLocal engine: init container name " ++
    lib.quote want.name ++ utf8 " is reserved for the ownership-verification gate") want owned containers

end Gate

section Render

def nodeShmVolume (shmHostPath : GoString) : Volume where
  name   := lmCacheNodeLocalShmVolumeName
  source := { hostPath := some ⟨shmHostPath, some hostPathDirectoryOrCreate⟩ }

def nodeShmMount : VolumeMount where
  name      := lmCacheNodeLocalShmVolumeName
  mountPath := lmCacheMPShmMountPath

def nodeConfigVolume : Volume where
  name   := lmCacheNodeLocalConfigVolumeName
  source := { emptyDir := some {} }

def nodeConfigMount : VolumeMount where
  name      := lmCacheNodeLocalConfigVolumeName
  mountPath := lmCacheNodeLocalConfigMountPath

def addNodeShm (lib : Library) (owned : Bool) (shmHostPath : GoString) (w : Wire) : Except GoString Wire :=
  match mountAtPath lmCacheMPShmMountPath w.mounts with
  | some existing => do
    checkNodeLocalHostShm lib w.volumes existing shmHostPath
    return w
  | none => do
    let volumes ← adoptVolume lib (nodeShmVolume shmHostPath) owned w.volumes
    return ⟨volumes, upsertMountByName nodeShmMount w.mounts⟩

def addNodeConfig (lib : Library) (owned : Bool) (w : Wire) : Except GoString Wire :=
  match mountAtPath lmCacheNodeLocalConfigMountPath w.mounts with
  | some existing =>
    if owned ∧ existing.name = lmCacheNodeLocalConfigVolumeName then addVolume else
      .error (utf8 "render LMCache NodeLocal engine: engine already mounts reserved config path " ++
        lib.quote lmCacheNodeLocalConfigMountPath)
  | none => addVolume
where
  addVolume : Except GoString Wire := do
    let volumes ← adoptVolume lib nodeConfigVolume owned w.volumes
    return ⟨volumes, upsertMountByName nodeConfigMount w.mounts⟩

-- A variable with the name of the one for the address is in the way, unless it is the same.
def checkNodeIPEnv (lib : Library) (owned : Bool) (env : List EnvVar) : Except GoString Unit :=
  if env.any fun e => e.name = lmCacheNodeIPEnv ∧ ¬owned ∧ e ≠ nodeIPEnv then
    .error (utf8 "render LMCache NodeLocal engine: environment variable " ++ lib.quote lmCacheNodeIPEnv ++
      utf8 " is reserved for the node address")
  else .ok ()

def PodSpec.withNodeIP (pod : PodSpec) (engineIndex : Nat) : PodSpec where
  containers     := pod.containers.modify engineIndex fun c => { c with env := upsertEnv nodeIPEnv c.env }
  initContainers := pod.initContainers
  volumes        := pod.volumes

def PodSpec.env (pod : PodSpec) (engineIndex : Nat) : List EnvVar :=
  (pod.containers[engineIndex]?.map (·.env)).getD []

def renderLMCacheNodeLocalEngine (lib : Library) (pod : PodSpec) (engineContainerName : GoString)
    (cache : CacheBackend) (writeClientConfig : Bool) : Except GoString (PodSpec × GoString) := do
  let engineIndex ← engineContainerIndexNamed lib pod engineContainerName
  match cache.spec.rest.lmCache, cache.spec.rest.lmCache.bind (·.nodeLocal) with
  | some lm, some server =>
    if cache.spec.rest.uid = [] then .error incomplete else
      validateLMCacheNodeLocalServerConfig server (effectiveLMCacheChunkSize lm)
      let shmHostPath ← nodeLocalServerShmHostPath lib cache
      let owned := lmCacheNodeLocalWireIsOurs pod
      checkNodeIPEnv lib owned (PodSpec.env pod engineIndex)
      let w := PodSpec.wire pod engineIndex
      let w ← addNodeShm lib owned shmHostPath w
      let w ← if writeClientConfig then addNodeConfig lib owned w else pure w
      let configPath := if writeClientConfig then lmCacheNodeLocalConfigFilePath else []
      let gateMounts := if writeClientConfig then [nodeConfigMount] else []
      let gate := lmCacheNodeLocalGateContainer cache lm server configPath gateMounts
      let initContainers ← adoptNodeLocalGate lib gate owned pod.initContainers
      return (PodSpec.withWire (PodSpec.withNodeIP pod engineIndex) engineIndex w initContainers, configPath)
  | _, _ => .error incomplete
where
  incomplete := utf8 "render LMCache NodeLocal engine: complete typed NodeLocal configuration and " ++
    utf8 "CacheBackend UID are required"

end Render

end InferenceCache.Adapters
