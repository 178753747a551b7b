import InferenceCache.Adapters.SGLang

-- The adapters for the engines that LMCache is built into.
namespace InferenceCache.Adapters

open Kube Api

-- The adapter for SGLang is configured with the image of the subscriber.
inductive Engine
  | vllm
  | sglang (subscriberImage : GoString)

namespace Engine

def containerName : Engine → GoString
  | vllm     => engineContainerName
  | sglang _ => sglangEngineContainerName

def validateMPEnginePod (lib : Library) : Engine → PodSpec → CacheBackend → Except GoString Unit
  | vllm,     pod, cache => VLLM.validateMPEnginePod lib pod cache
  | sglang _, pod, cache => SGLang.validateMPEnginePod lib pod cache

def injectEngineConfig (lib : Library) :
    Engine → PodSpec → Option Binding → CacheBackend → Except GoString PodSpec
  | vllm,         pod, binding, cache => VLLM.injectEngineConfig lib pod binding cache
  | sglang image, pod, binding, cache => SGLang.injectEngineConfig lib image pod binding cache

def reservedArgs : Engine → List GoString
  | vllm     => VLLM.reservedArgs
  | sglang _ => SGLang.reservedArgs

def reservedEnv : Engine → List GoString
  | vllm     => VLLM.reservedEnv
  | sglang _ => SGLang.reservedEnv

def pairFlag : Engine → GoString
  | vllm     => defaultEngineKVTransferConfigArg
  | sglang _ => sglangConfigFileArg

def pairValue : Engine → CacheBackend → GoString
  | vllm, cache =>
    match cache.spec.rest.lmCache with
    | some ⟨.podLocal, some server, _, _⟩  => vllmMPKVTransferConfigJSON (integrationRole cache) server.port
    | some ⟨.nodeLocal, _, some server, _⟩ => vllmMPKVTransferConfigJSONForHost (integrationRole cache)
      (utf8 "tcp://$(" ++ lmCacheNodeIPEnv ++ utf8 ")") server.port
    | _ => []
  | sglang _, cache =>
    match cache.spec.rest.lmCache with
    | some ⟨.podLocal, _, _, _⟩  => lmCacheMPConfigFilePath
    | some ⟨.nodeLocal, _, _, _⟩ => lmCacheNodeLocalConfigFilePath
    | _                          => []

def wireArgs (cache : CacheBackend) (args : List GoString) : Engine → List GoString
  | vllm => upsertFlag vllmDisableHybridKVCacheArg
    (upsertArgPair defaultEngineKVTransferConfigArg (vllm.pairValue cache) args)
  | sglang image =>
    let args := upsertArgPair sglangConfigFileArg ((sglang image).pairValue cache)
      (upsertFlag sglangEnableLMCacheArg args)
    if image = [] ∨ cache.spec.rest.effectiveObservationModelID = [] then args
    else upsertFlag sglangEnableMetricsArg args

def usesNodeIP (cache : CacheBackend) : Bool :=
  cache.spec.rest.lmCache.any (·.topology = .nodeLocal)

def wireEnv (cache : CacheBackend) (env : List EnvVar) (e : Engine) : List EnvVar :=
  let env := if usesNodeIP cache then upsertEnv nodeIPEnv env else env
  let failOpen := EnvVar.ofValue envInferenceCacheFailOpen (failOpenString cache)
  match e with
  | vllm =>
    removeEnv envInferenceCacheFailOpen
      (removeEnv envPythonHashSeed env ++ [.ofValue envPythonHashSeed defaultPythonHashSeed]) ++ [failOpen]
  | sglang _ => upsertEnv failOpen (upsertEnv (.ofValue envLMCacheUseExperimental (utf8 "True")) env)

-- The variables that are set where they are defined first, and those that are moved to the end.
def replacedEnv (cache : CacheBackend) (e : Engine) : List EnvVar :=
  (if usesNodeIP cache then [nodeIPEnv] else []) ++
  match e with
  | vllm     => []
  | sglang _ => [.ofValue envLMCacheUseExperimental (utf8 "True"),
    .ofValue envInferenceCacheFailOpen (failOpenString cache)]

def movedEnv (cache : CacheBackend) : Engine → List EnvVar
  | vllm     => [.ofValue envPythonHashSeed defaultPythonHashSeed,
    .ofValue envInferenceCacheFailOpen (failOpenString cache)]
  | sglang _ => []

end Engine

end InferenceCache.Adapters
