import InferenceCache.Lib.Bytes

-- The labels and annotations by which engine pods, servers and cleanups are bound to a backend.
namespace InferenceCache.EngineBinding

def labelLMCacheMPMetrics : GoString :=
  utf8 "inferencecache.io/lmcache-mp-metrics"

def labelLMCacheMPMetricsEnabled : GoString :=
  utf8 "true"

def labelLMCacheNodeLocalServer : GoString :=
  utf8 "inferencecache.io/lmcache-node-server"

def labelLMCacheNodeLocalCleanup : GoString :=
  utf8 "inferencecache.io/lmcache-node-shm-cleanup"

def labelCacheBackendUID : GoString :=
  utf8 "inferencecache.io/cache-backend-uid"

def annotationNodeLocalOwner : GoString :=
  utf8 "inferencecache.io/node-local-owner"

def annotationNodeLocalOwnerUID : GoString :=
  utf8 "inferencecache.io/node-local-owner-uid"

def annotationNodeLocalGeneration : GoString :=
  utf8 "inferencecache.io/node-local-generation"

def annotationNodeLocalTargetNode : GoString :=
  utf8 "inferencecache.io/node-local-target-node"

def annotationNodeLocalIdleSince : GoString :=
  utf8 "inferencecache.io/node-local-idle-since"

def annotationSkip : GoString :=
  utf8 "inferencecache.io/skip-inject"

def annotationInjectedBy : GoString :=
  utf8 "inferencecache.io/injected-by"

def annotationInjectedByUID : GoString :=
  utf8 "inferencecache.io/injected-by-uid"

def annotationInjectedGeneration : GoString :=
  utf8 "inferencecache.io/injected-generation"

def annotationInjectSkipped : GoString :=
  utf8 "inferencecache.io/inject-skipped"

def injectSkippedReasonSkipAnnotation : GoString :=
  utf8 "skip-inject-annotation"

end InferenceCache.EngineBinding
