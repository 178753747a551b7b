import InferenceCache.Kube.Core
import InferenceCache.Webhook.Types

-- The type `CacheBackend` of the API, apart from its name and its selector. The schema of the API admits
-- the listed values of an enumeration only. A value that is not set is the empty string in Go.
namespace InferenceCache.Api

open Kube

inductive Runtime
  | vllm
  | sglang
  deriving DecidableEq

inductive CacheType
  | unset
  | lmCache
  | sglangHiCache
  deriving DecidableEq

inductive Provider
  | unset
  | redis
  deriving DecidableEq

inductive Ownership
  | unset
  | managed
  | external
  deriving DecidableEq

inductive Topology
  | unset
  | podLocal
  | nodeLocal
  deriving DecidableEq

inductive Role
  | unset
  | readOnly
  | writeOnly
  | readWrite
  deriving DecidableEq

inductive Mode
  | unset
  | offload
  | eventsOnly
  deriving DecidableEq

def Provider.text : Provider → GoString
  | unset => []
  | redis => utf8 "Redis"

def Topology.text : Topology → GoString
  | unset     => []
  | podLocal  => utf8 "PodLocal"
  | nodeLocal => utf8 "NodeLocal"

section LMCache

structure PodLocalServer where
  image      : GoString
  port       : Int
  l1Capacity : Quantity
  maxWorkers : Int
  resources  : ResourceRequirements

structure NodeLocalServer where
  image         : GoString
  port          : Int
  httpPort      : Int
  l1Capacity    : Quantity
  maxGPUWorkers : Int
  maxCPUWorkers : Int
  resources     : ResourceRequirements

-- Where the source has a pointer to a `podLocal` block, which in turn points to its server, there is only
-- the server here. It is absent if one of the two is.
structure LMCacheEngine where
  topology        : Topology
  podLocal        : Option PodLocalServer
  nodeLocal       : Option NodeLocalServer
  chunkSizeTokens : Option Int

end LMCache

section RemoteStorage

structure RedisAuthentication where
  username : Option KeySelector
  password : KeySelector
  deriving DecidableEq

structure TLS where
  caCertificate : KeySelector
  serverName    : GoString
  deriving DecidableEq

structure Redis where
  image          : GoString
  resources      : Option ResourceRequirements
  authentication : Option RedisAuthentication
  tls            : Option TLS
  database       : Option Int

structure RemoteStorage where
  provider  : Provider
  ownership : Ownership
  endpoint  : GoString
  workload  : Option Json
  redis     : Option Redis

end RemoteStorage

-- The cache of SGLang in the memory of the host. What is not set is left to the engine.
structure HiCacheSpec where
  sizeGB       : Option Int32
  ratio        : GoString
  writePolicy  : GoString
  ioBackend    : GoString
  memoryLayout : GoString
  deriving DecidableEq

structure EngineInjectionOverrides where
  args         : List GoString
  suppressArgs : List GoString
  env          : List EnvVar
  suppressEnv  : List GoString

structure Integration where
  mode            : Mode
  role            : Role
  failOpen        : Option Bool
  engineOverrides : Option EngineInjectionOverrides

-- What there is of an object next to its name and its selector. Of the status only the endpoint of the
-- remote storage is read, and of the observation only the model.
structure Details where
  uid                   : GoString
  generation            : Int
  runtime               : Runtime
  type                  : CacheType
  lmCache               : Option LMCacheEngine
  remoteStorage         : Option RemoteStorage
  observation           : Option GoString
  integration           : Option Integration
  allowCrossNamespace   : Bool
  remoteStorageEndpoint : Option GoString
  hiCache               : Option HiCacheSpec := none

abbrev CacheBackend := Webhook.CacheBackend Details

namespace Details

def effectiveCacheType (d : Details) : CacheType :=
  if d.type = .unset then .lmCache else d.type

def effectiveObservationModelID (d : Details) : GoString :=
  d.observation.getD []

def integrationFailOpen (d : Details) : Bool :=
  match d.integration with
  | none   => true
  | some i => i.failOpen.getD true

def integrationMode (d : Details) : Mode :=
  match d.integration with
  | none   => .offload
  | some i => if i.mode = .unset then .offload else i.mode

def isEventsOnly (d : Details) : Bool :=
  d.integrationMode = .eventsOnly

end Details

end InferenceCache.Api
