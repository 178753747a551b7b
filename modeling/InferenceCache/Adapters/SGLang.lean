import InferenceCache.Adapters.VLLM

-- The adapter for SGLang.
namespace InferenceCache.Adapters

open Kube Api

def envLMCacheUseExperimental : GoString :=
  utf8 "LMCACHE_USE_EXPERIMENTAL"

def sglangEngineContainerName : GoString :=
  utf8 "sglang"

def sglangEnableLMCacheArg : GoString :=
  utf8 "--enable-lmcache"

def sglangEnableMetricsArg : GoString :=
  utf8 "--enable-metrics"

def sglangConfigFileArg : GoString :=
  utf8 "--lmcache-config-file"

def validateSGLangMPPageSize (lib : Library) (args : List GoString) (chunkSize : Int) :
    Except GoString Unit :=
  let flag := utf8 "--page-size"
  let (values, malformed) := argValues flag args
  if malformed then
    .error (utf8 "SGLang LMCache MP " ++ flag ++ utf8 " is malformed; declare one positive integer value")
  else
    match values with
    | [] => .error (utf8 "SGLang LMCache MP engine must explicitly declare " ++ flag ++
      utf8 " so chunk-size compatibility can be verified")
    | [value] =>
      let invalid := utf8 "SGLang LMCache MP " ++ flag ++ utf8 "=" ++ lib.quote value ++
        utf8 " must be a positive integer"
      match value.parseInt 32 with
      | none          => .error invalid
      | some pageSize =>
        if pageSize < 1 then .error invalid
        else if chunkSize.tmod pageSize ≠ 0 then
          .error (utf8 "LMCache chunk size " ++ GoString.formatInt chunkSize ++
            utf8 " must be a multiple of SGLang page size " ++ GoString.formatInt pageSize)
        else .ok ()
    | _ => .error (utf8 "SGLang LMCache MP " ++ flag ++ utf8 " is duplicated")

def SGLang.validateMPEnginePod (lib : Library) (pod : PodSpec) (cache : CacheBackend) :
    Except GoString Unit := do
  let lm ← requireServer lib (utf8 "SGLang") cache
  let engineIndex ← engineContainerIndexNamed lib pod sglangEngineContainerName
  validateSGLangMPPageSize lib (PodSpec.args pod engineIndex) (effectiveLMCacheChunkSize lm)

def SGLang.wireEngine (configPath : GoString) (cache : CacheBackend) (c : Container) : Container :=
  { c with
    args := upsertArgPair sglangConfigFileArg configPath (upsertFlag sglangEnableLMCacheArg c.args)
    env  := upsertEnv (.ofValue envInferenceCacheFailOpen (failOpenString cache))
      (upsertEnv (.ofValue envLMCacheUseExperimental (utf8 "True")) c.env) }

def injectSGLangLMCacheMP (lib : Library) (pod : PodSpec) (binding : Option Binding)
    (cache : CacheBackend) : Except GoString PodSpec := do
  validateInjectPodCacheInputs pod (utf8 "engine")
  match cache.spec.rest.lmCache with
  | none    => .error (utf8 "inject SGLang LMCache MP: typed server configuration is required")
  | some lm => do
    let (work, configPath) ← render lm
    let engineIndex ← engineContainerIndexNamed lib work sglangEngineContainerName
    return PodSpec.modifyEngine work engineIndex (SGLang.wireEngine configPath cache)
where
  render (lm : LMCacheEngine) : Except GoString (PodSpec × GoString) :=
    match lm.topology with
    | .podLocal =>
      match lm.podLocal with
      | none => .error (utf8 "inject SGLang LMCache MP: typed PodLocal server configuration is required")
      | some server =>
        renderLMCachePodLocalServer lib pod sglangEngineContainerName
          (PodLocalServer.config lm server binding true)
    | .nodeLocal =>
      match lm.nodeLocal with
      | none   => .error (utf8 "inject SGLang LMCache MP: typed NodeLocal server configuration is required")
      | some _ => renderLMCacheNodeLocalEngine lib pod sglangEngineContainerName cache true
    | .unset => .error (utf8 "inject SGLang LMCache MP: topology " ++ lib.quote lm.topology.text ++
      utf8 " is not implemented")

-- A subscriber needs the metrics of the engine. Without an image there is none.
def ensureSGLangMetricsForSubscriber (lib : Library) (subscriberImage : GoString) (pod : PodSpec)
    (cache : CacheBackend) : Except GoString PodSpec :=
  if subscriberImage = [] ∨ cache.spec.rest.effectiveObservationModelID = [] then .ok pod else do
    let engineIndex ← engineContainerIndexNamed lib pod sglangEngineContainerName
    return PodSpec.modifyEngine pod engineIndex fun c =>
      { c with args := upsertFlag sglangEnableMetricsArg c.args }

def SGLang.injectEngineConfig (lib : Library) (subscriberImage : GoString) (pod : PodSpec)
    (binding : Option Binding) (cache : CacheBackend) : Except GoString PodSpec := do
  let pod ← injectSGLangLMCacheMP lib pod binding cache
  ensureSGLangMetricsForSubscriber lib subscriberImage pod cache

def SGLang.reservedArgs : List GoString :=
  [sglangEnableLMCacheArg, sglangConfigFileArg, sglangEnableMetricsArg]

def SGLang.reservedEnv : List GoString :=
  [envLMCacheUseExperimental, envInferenceCacheFailOpen]

end InferenceCache.Adapters
