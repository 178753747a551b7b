import InferenceCache.Adapters.Registry
import InferenceCache.Webhook.Overrides

-- What the webhook does to an engine: the adapter is asked to inject, and the overrides are merged in.
namespace InferenceCache.Webhook

open Kube Api Adapters

-- What the container of the engine had before is remembered, if there is one to be changed.
def injectWithOverrides (adapter : RuntimeAdapter) (pod : PodSpec) (binding : Option Binding)
    (cache : Api.CacheBackend) : Except GoString PodSpec := do
  let injected ← adapter.injectEngineConfig pod binding cache
  match overrideTargetIndex pod.containers adapter.engineContainerName with
  | none   => return injected
  | some i =>
    let merged := applyEngineInjectionOverrides (PodSpec.args pod i) (PodSpec.args injected i)
      (PodSpec.env pod i) (PodSpec.env injected i) (engineOverridesFor cache)
    return PodSpec.modifyEngine injected i fun c => { c with args := merged.1, env := merged.2 }

end InferenceCache.Webhook
