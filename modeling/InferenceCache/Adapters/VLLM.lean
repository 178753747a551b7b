import InferenceCache.Adapters.NodeLocal

-- The adapter for vLLM.
namespace InferenceCache.Adapters

open Kube Api

def vllmDisableHybridKVCacheArg : GoString :=
  utf8 "--disable-hybrid-kv-cache-manager"

section Validate

-- The values of a flag that has several names, with the names. No argument matches two of them.
def parallelValues (flags : List GoString) : List GoString → Except GoString (List (GoString × GoString))
  | []          => .ok []
  | arg :: args =>
    match flags.find? fun flag => arg = flag ∨ arg.hasPrefix (flag ++ utf8 "=") with
    | none      => parallelValues flags args
    | some flag =>
      if arg = flag then
        match args with
        | []           => .error (malformed flag)
        | next :: rest =>
          if next.hasPrefix (utf8 "-") then .error (malformed flag)
          else (parallelValues flags rest).map ((flag, next) :: ·)
      else
        let value := arg.trimPrefix (flag ++ utf8 "=")
        if value = [] then .error (malformed flag)
        else (parallelValues flags args).map ((flag, value) :: ·)
where
  malformed (flag : GoString) := flag ++ utf8 " is malformed; declare one positive integer value"

def positiveParallelSize (lib : Library) (args flags : List GoString) (fallback : Int) :
    Except GoString Int := do
  match ← parallelValues flags args with
  | []              => return fallback
  | [(flag, value)] =>
    let invalid := flag ++ utf8 "=" ++ lib.quote value ++ utf8 " must be a positive integer"
    match value.parseInt 32 with
    | none   => .error invalid
    | some n => if n < 1 then .error invalid else return n
  | values => .error (utf8 "parallel-size aliases are duplicated: " ++
    (utf8 ", ").intercalate (values.map (·.1)))

def isBooleanLiteral (lib : Library) (arg : GoString) : Bool :=
  lib.toLower arg ∈ [utf8 "true", utf8 "false", utf8 "0", utf8 "1"]

def validateVLLMBooleanArg (lib : Library) (flag : GoString) (count : Nat) :
    List GoString → Except GoString Unit
  | [] =>
    if count > 1 then .error (utf8 "vLLM LMCache MP " ++ flag ++ utf8 " is duplicated") else .ok ()
  | arg :: args =>
    if arg = flag then
      match args.head?.filter (isBooleanLiteral lib) with
      | none      => validateVLLMBooleanArg lib flag (count + 1) args
      | some next => .error (utf8 "vLLM LMCache MP " ++ flag ++
        utf8 " is a boolean flag and must not carry value " ++ lib.quote next)
    else if arg.hasPrefix (flag ++ utf8 "=") then
      .error (utf8 "vLLM LMCache MP " ++ flag ++ utf8 " is a boolean flag and must not carry a value")
    else validateVLLMBooleanArg lib flag count args

def unsupportedDataParallelFlags : List GoString :=
  [utf8 "--data-parallel-rank", utf8 "--data-parallel-start-rank", utf8 "--data-parallel-size-local",
    utf8 "--data-parallel-address", utf8 "--data-parallel-rpc-port"]

def context (text : GoString) (x : Except GoString α) : Except GoString α :=
  x.mapError (text ++ utf8 ": " ++ ·)

def requireOne (kind : GoString) (n : Int) : Except GoString Unit :=
  if n ≠ 1 then
    .error (utf8 "vLLM LMCache MP " ++ kind ++ utf8 " parallel size " ++ GoString.formatInt n ++
      utf8 " is not supported by the initial PodLocal profile; use 1")
  else .ok ()

def validateVLLMArgs (lib : Library) (args : List GoString) : Except GoString Unit := do
  let _ ← context (utf8 "vLLM LMCache MP tensor parallelism")
    (positiveParallelSize lib args [utf8 "--tensor-parallel-size", utf8 "-tp"] 1)
  let pp ← context (utf8 "vLLM LMCache MP pipeline parallelism")
    (positiveParallelSize lib args [utf8 "--pipeline-parallel-size", utf8 "-pp"] 1)
  requireOne (utf8 "pipeline") pp
  let dp ← context (utf8 "vLLM LMCache MP data parallelism")
    (positiveParallelSize lib args [utf8 "--data-parallel-size", utf8 "-dp"] 1)
  requireOne (utf8 "data") dp
  match unsupportedDataParallelFlags.find? (hasArg args) with
  | some flag => .error (utf8 "vLLM LMCache MP multi-process data parallel flag " ++ flag ++
    utf8 " is not supported by the initial PodLocal profile")
  | none =>
    validateVLLMBooleanArg lib vllmDisableHybridKVCacheArg 0 args
    let (values, malformed) := argValues defaultEngineKVTransferConfigArg args
    if malformed ∨ values.length > 1 then
      .error (utf8 "vLLM LMCache MP " ++ defaultEngineKVTransferConfigArg ++
        utf8 " must appear at most once with one JSON value")
    else .ok ()

-- The configuration of the server has to be there. `engine` is the name of the engine in messages.
def requireServer (lib : Library) (engine : GoString) (cache : CacheBackend) :
    Except GoString LMCacheEngine :=
  match cache.spec.rest.lmCache with
  | none    => .error (engine ++ utf8 " LMCache MP CacheBackend configuration is missing")
  | some lm =>
    match lm.topology with
    | .podLocal =>
      if lm.podLocal.isSome then .ok lm
      else .error (engine ++ utf8 " LMCache PodLocal server configuration is missing")
    | .nodeLocal =>
      if lm.nodeLocal.isSome then .ok lm
      else .error (engine ++ utf8 " LMCache NodeLocal server configuration is missing")
    | .unset => .error (engine ++ utf8 " LMCache MP topology " ++ lib.quote lm.topology.text ++
      utf8 " is not implemented")

def PodSpec.args (pod : PodSpec) (engineIndex : Nat) : List GoString :=
  (pod.containers[engineIndex]?.map (·.args)).getD []

def VLLM.validateMPEnginePod (lib : Library) (pod : PodSpec) (cache : CacheBackend) :
    Except GoString Unit := do
  let _ ← requireServer lib (utf8 "vLLM") cache
  let engineIndex ← engineContainerIndexNamed lib pod engineContainerName
  validateVLLMArgs lib (PodSpec.args pod engineIndex)

end Validate

section Inject

def kvRole : Role → GoString
  | .readOnly          => utf8 "kv_consumer"
  | .writeOnly         => utf8 "kv_producer"
  | .unset | .readWrite => utf8 "kv_both"

def vllmMPKVTransferConfigJSONForHost (role : Role) (host : GoString) (port : Int) : GoString :=
  utf8 "\x7b\"kv_connector\":\"LMCacheMPConnector\"," ++
  utf8 "\"kv_connector_module_path\":\"lmcache.integration.vllm.lmcache_mp_connector\"," ++
  utf8 "\"kv_role\":\"" ++ kvRole role ++ utf8 "\",\"kv_connector_extra_config\":\x7b" ++
  utf8 "\"lmcache.mp.host\":\"" ++ host ++ utf8 "\",\"lmcache.mp.port\":\"" ++ GoString.formatInt port ++
  utf8 "\",\"lmcache.mp.mp_transfer_mode\":\"" ++ lmCacheMPTransferModeLMCacheDriven ++ utf8 "\"\x7d\x7d"

def vllmMPKVTransferConfigJSON (role : Role) (port : Int) : GoString :=
  vllmMPKVTransferConfigJSONForHost role (utf8 "tcp://127.0.0.1") port

def supportsBinding (binding : Option Binding) : Bool :=
  binding.all (·.protocol = .resp)

def PodLocalServer.config (lm : LMCacheEngine) (server : PodLocalServer) (binding : Option Binding)
    (writeClientConfig : Bool) : LMCacheMPServerConfig where
  image := server.image
  port := server.port
  chunkSizeTokens := effectiveLMCacheChunkSize lm
  l1Capacity := server.l1Capacity
  maxWorkers := server.maxWorkers
  resources := server.resources
  binding := binding
  writeClientConfig := writeClientConfig

def PodSpec.modifyEngine (pod : PodSpec) (engineIndex : Nat) (f : Container → Container) : PodSpec :=
  { pod with containers := pod.containers.modify engineIndex f }

-- The variables are moved to the end, where they count.
def VLLM.wireEngine (configJSON : GoString) (cache : CacheBackend) (c : Container) : Container :=
  { c with
    args := upsertFlag vllmDisableHybridKVCacheArg
      (upsertArgPair defaultEngineKVTransferConfigArg configJSON c.args)
    env  := removeEnv envInferenceCacheFailOpen
      (removeEnv envPythonHashSeed c.env ++ [.ofValue envPythonHashSeed defaultPythonHashSeed]) ++
      [.ofValue envInferenceCacheFailOpen (failOpenString cache)] }

def VLLM.injectEngineConfig (lib : Library) (pod : PodSpec) (binding : Option Binding)
    (cache : CacheBackend) : Except GoString PodSpec := do
  validateInjectPodCacheInputs pod (utf8 "engine")
  match cache.spec.rest.lmCache with
  | none    => .error (utf8 "inject vLLM LMCache MP: typed server configuration is required")
  | some lm =>
    if ¬supportsBinding binding then
      .error (utf8 "vLLM LMCache MP adapter does not support remote binding protocol " ++
        lib.quote ((binding.map (·.protocol.text)).getD []))
    else do
      let (work, configJSON) ← render lm
      let engineIndex ← engineContainerIndexNamed lib work engineContainerName
      return PodSpec.modifyEngine work engineIndex (VLLM.wireEngine configJSON cache)
where
  render (lm : LMCacheEngine) : Except GoString (PodSpec × GoString) :=
    match lm.topology with
    | .podLocal =>
      match lm.podLocal with
      | none        => .error (utf8 "inject vLLM LMCache MP: typed PodLocal server configuration is required")
      | some server => do
        let (work, _) ← renderLMCachePodLocalServer lib pod engineContainerName
          (PodLocalServer.config lm server binding false)
        return (work, vllmMPKVTransferConfigJSON (integrationRole cache) server.port)
    | .nodeLocal =>
      match lm.nodeLocal with
      | none => .error (utf8 "inject vLLM LMCache MP: typed NodeLocal server configuration is required")
      | some server => do
        let (work, _) ← renderLMCacheNodeLocalEngine lib pod engineContainerName cache false
        return (work, vllmMPKVTransferConfigJSONForHost (integrationRole cache)
          (utf8 "tcp://$(" ++ lmCacheNodeIPEnv ++ utf8 ")") server.port)
    | .unset => .error (utf8 "inject vLLM LMCache MP: topology " ++ lib.quote lm.topology.text ++
      utf8 " is not implemented")

def VLLM.reservedArgs : List GoString :=
  [defaultEngineKVTransferConfigArg, vllmDisableHybridKVCacheArg]

def VLLM.reservedEnv : List GoString :=
  [envPythonHashSeed, envInferenceCacheFailOpen]

end Inject

end InferenceCache.Adapters
