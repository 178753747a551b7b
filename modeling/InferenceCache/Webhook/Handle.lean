import InferenceCache.Api.Metadata
import InferenceCache.Controller.KernelCheck
import InferenceCache.Webhook.Injection
import InferenceCache.Webhook.PodInjector

-- The webhook that Pods go through when they are created.
namespace InferenceCache.Webhook

open Kube Api Adapters EngineBinding

-- Why a Pod is admitted as it is, where the source writes a text.
inductive Reason
  | skipped
  | lookupFailed (err : GoString)
  | noMatchingBackend
  | noRegistry
  | noAdapter
  | noTypedTopology
  | incompatible (err : GoString)
  | unsupportedProvider (err : GoString)
  | unsupportedProtocol
  | noEndpoint
  | rejected (err : GoString)
  | noSubscriber

-- A patch is given by the Pod that it leads to.
inductive Response
  | allowed (reason : Reason)
  | denied (err : SelectError)
  | patched (pod : Kube.Pod)

def Response.admitted (pod : Kube.Pod) : Response → Option Kube.Pod
  | allowed _    => some pod
  | denied _     => none
  | patched pod' => some pod'

section Marks

def annotationAt (pod : Kube.Pod) (k : GoString) : GoString :=
  (pod.annotations.lookup k).getD []

-- What says that the configuration of a backend was injected.
def injectionMarks : List GoString :=
  annotationInjectedBy :: annotationInjectedByUID :: annotationInjectedGeneration :: []

def unmark (annotations : GoMap GoString GoString) : GoMap GoString GoString :=
  injectionMarks.foldl (fun m k => m.erase k) annotations

def parseBool (s : GoString) : Option Bool :=
  if s ∈ [utf8 "1", utf8 "t", utf8 "T", utf8 "true", utf8 "TRUE", utf8 "True"] then some true
  else if s ∈ [utf8 "0", utf8 "f", utf8 "F", utf8 "false", utf8 "FALSE", utf8 "False"] then some false
  else none

def skipAnnotationOptsOut (lib : Adapters.Library) (value : GoString) : Bool :=
  if value = [] then false
  else
    match parseBool value with
    | some parsed => parsed
    | none        => lib.toLower value ∉ [utf8 "no", utf8 "off", utf8 "disable", utf8 "disabled"]

def backendRef (cache : Api.CacheBackend) : GoString :=
  cache.key.inNamespace ++ 0x2f :: cache.key.name

def stamp (cache : Api.CacheBackend) (pod : Kube.Pod) : Kube.Pod :=
  { pod with
    annotations := (((pod.annotations.erase annotationInjectSkipped).insert annotationInjectedBy
      (backendRef cache)).insert annotationInjectedByUID cache.spec.rest.uid).insert
      annotationInjectedGeneration (.formatInt cache.spec.rest.generation)
    labels      := if cache.spec.rest.lmCache.any (·.topology = .podLocal) then
      pod.labels.insert labelLMCacheMPMetrics labelLMCacheMPMetricsEnabled else pod.labels }

def failOpen (pod : Kube.Pod) (reason : Reason) : Response :=
  if ∀ k ∈ annotationInjectSkipped :: injectionMarks, annotationAt pod k = [] then .allowed reason
  else .patched { pod with annotations := (unmark pod.annotations).erase annotationInjectSkipped }

def skipInjection (pod : Kube.Pod) : Response :=
  if annotationAt pod annotationInjectSkipped = injectSkippedReasonSkipAnnotation ∧
      ∀ k ∈ injectionMarks, annotationAt pod k = [] then .allowed .skipped
  else .patched { pod with
    annotations := (unmark pod.annotations).insert annotationInjectSkipped injectSkippedReasonSkipAnnotation }

end Marks

section Wire

variable (adapter : RuntimeAdapter) (cache : Api.CacheBackend) (pod : Kube.Pod)

-- The webhook has the say about the check of the kernels, whoever has put it there.
def withKernelCheck : PodSpec :=
  let removed := pod.spec.initContainers.eraseP (·.name = Controller.lmCacheKernelCheckContainerName)
  match adapter.kernelCheckInitContainer with
  | none        => pod.spec
  | some render =>
    if cache.spec.rest.isEventsOnly then { pod.spec with initContainers := removed }
    else
      match render cache pod with
      | .error _     => pod.spec
      | .ok none     => { pod.spec with initContainers := removed }
      | .ok (some c) => { pod.spec with initContainers := Keyed.upsert Container.name c pod.spec.initContainers }

-- A subscriber is added unless there is a container of its name.
def withSidecar : Option PodSpec :=
  match adapter.observationSidecar cache pod with
  | .ok (some c) =>
    if pod.spec.containers.any (·.name = c.name) then none
    else some { pod.spec with containers := pod.spec.containers ++ [c] }
  | _ => none

def checkTopology : Except Reason Unit :=
  if cache.spec.rest.lmCache.all (·.topology = .unset) then .ok ()
  else adapter.validateMPEnginePod.elim (.error .noTypedTopology) fun validate =>
    (validate pod cache).mapError .incompatible

-- Without a connector, there is nothing to be wired but the subscriber.
def wire (lib : Adapters.Library) : Except Reason PodSpec := do
  let d := cache.spec.rest
  checkTopology adapter cache pod
  let protocol ← (protocolFor lib d.remoteStorage).mapError .unsupportedProvider
  let binding := bindingFor d.remoteStorage protocol (effectiveEndpoint lib cache)
  if ¬adapter.supportsBinding binding then .error .unsupportedProtocol
  else if binding.any (·.endpoint = []) ∧ ¬d.isEventsOnly then .error .noEndpoint
  else
    let spec ← if d.isEventsOnly then .ok pod.spec
      else Except.mapError .rejected (injectWithOverrides adapter pod.spec binding cache)
    let spec := withKernelCheck adapter cache { pod with spec := spec }
    match withSidecar adapter cache { pod with spec := spec } with
    | some spec => .ok spec
    | none      => if d.isEventsOnly then .error .noSubscriber else .ok spec

end Wire

structure EngineInjector where
  library  : Adapters.Library
  read     : Reader Details
  registry : Option Registry

namespace EngineInjector

variable (h : EngineInjector) (pod : Kube.Pod)

def optsOut : Bool :=
  skipAnnotationOptsOut h.library (annotationAt pod annotationSkip)

def wired (cache : Api.CacheBackend) : Except Reason PodSpec :=
  h.registry.elim (.error .noRegistry) fun registry =>
    (registry.select cache).elim (.error .noAdapter) fun adapter => wire adapter cache pod h.library

-- The Pod is as it was decoded, with the namespace of the request if it has none.
def handle : Response :=
  if h.optsOut pod then skipInjection pod
  else
    match selectCacheBackend h.read ⟨pod.inNamespace, pod.labels⟩ with
    | .error (.listing message) => failOpen pod (.lookupFailed message)
    | .error err                => .denied err
    | .ok none                  => failOpen pod .noMatchingBackend
    | .ok (some cache)          =>
      match h.wired pod cache with
      | .error reason => failOpen pod reason
      | .ok spec      => .patched (stamp cache { pod with spec := spec })

end EngineInjector

end InferenceCache.Webhook
