import InferenceCache.Adapters.Engine

-- How the webhooks find an adapter.
namespace InferenceCache.Adapters

open Kube Api

-- The interface `KVCacheRuntimeAdapter`. The last two are interfaces of their own that an adapter may have.
structure RuntimeAdapter where
  supports                 : CacheBackend → Bool
  supportsBinding          : Option Binding → Bool
  injectEngineConfig       : PodSpec → Option Binding → CacheBackend → Except GoString PodSpec
  observationSidecar       : CacheBackend → Pod → Except GoString (Option Container)
  reservedArgs             : List GoString
  reservedEnv              : List GoString
  engineContainerName      : GoString
  validateMPEnginePod      : Option (Pod → CacheBackend → Except GoString Unit)
  kernelCheckInitContainer : Option (CacheBackend → Pod → Except GoString (Option Container))

abbrev Registry := List RuntimeAdapter

def Registry.select (registry : Registry) (cache : CacheBackend) : Option RuntimeAdapter :=
  registry.find? (·.supports cache)

def Runtime.id : Runtime → GoString
  | .vllm   => utf8 "vllm"
  | .sglang => utf8 "sglang"

namespace Engine

def runtime : Engine → Runtime
  | vllm     => .vllm
  | sglang _ => .sglang

def supports (e : Engine) (cache : CacheBackend) : Bool :=
  let d := cache.spec.rest
  d.runtime = e.runtime ∧ d.effectiveCacheType = .lmCache ∧
    (d.isEventsOnly ∨ d.lmCache.any fun lm => lm.topology = .podLocal ∨ lm.topology = .nodeLocal)

-- What an adapter adds next to the engine: the subscriber, and the check of the kernels.
structure Sidecars where
  observationSidecar       : Engine → CacheBackend → Pod → Except GoString (Option Container)
  kernelCheckInitContainer : CacheBackend → Pod → Except GoString (Option Container)

def adapter (lib : Library) (sidecars : Sidecars) (e : Engine) : RuntimeAdapter where
  supports := e.supports
  supportsBinding := supportsBinding
  injectEngineConfig := e.injectEngineConfig lib
  observationSidecar := sidecars.observationSidecar e
  reservedArgs := e.reservedArgs
  reservedEnv := e.reservedEnv
  engineContainerName := e.containerName
  validateMPEnginePod := some fun pod cache => e.validateMPEnginePod lib pod.spec cache
  kernelCheckInitContainer :=
    match e with
    | vllm     => some sidecars.kernelCheckInitContainer
    | sglang _ => none

end Engine

-- The registry of the controller. The adapter for HiCache comes last.
def builtin (lib : Library) (sidecars : Engine.Sidecars) (subscriberImage : GoString)
    (hiCache : RuntimeAdapter) : Registry :=
  [Engine.vllm.adapter lib sidecars, (Engine.sglang subscriberImage).adapter lib sidecars, hiCache]

end InferenceCache.Adapters
