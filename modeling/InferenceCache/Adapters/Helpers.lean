import InferenceCache.Adapters.Backend
import InferenceCache.Lib.Upsert

-- The helpers of the package `runtime` that all adapters share.
namespace InferenceCache.Adapters

open Kube Api

def engineContainerName : GoString :=
  utf8 "vllm"

def envInferenceCacheFailOpen : GoString :=
  utf8 "INFERENCECACHE_FAIL_OPEN"

def envPythonHashSeed : GoString :=
  utf8 "PYTHONHASHSEED"

def defaultPythonHashSeed : GoString :=
  utf8 "0"

def defaultEngineKVTransferConfigArg : GoString :=
  utf8 "--kv-transfer-config"

section Args

def upsertFlag (flag : GoString) (args : List GoString) : List GoString :=
  if flag ∈ args then args else args ++ [flag]

-- The argument after the flag is taken for its value, and overwritten. A flag with `=` is split in two.
def upsertArgPair (flag value : GoString) : List GoString → List GoString
  | []          => [flag, value]
  | arg :: args =>
    if arg = flag then arg :: value :: args.drop 1
    else if arg.hasPrefix (flag ++ utf8 "=") then flag :: value :: args
    else arg :: upsertArgPair flag value args

def hasArg (args : List GoString) (flag : GoString) : Bool :=
  args.any fun arg => arg = flag ∨ arg.hasPrefix (flag ++ utf8 "=")

-- The values of a flag, and whether one of its occurrences has none.
def argValues (flag : GoString) : List GoString → List GoString × Bool
  | []          => ([], false)
  | arg :: args =>
    if arg = flag then
      match args with
      | []           => ([], true)
      | next :: rest =>
        if next.hasPrefix (utf8 "--") then ((argValues flag (next :: rest)).1, true)
        else (next :: (argValues flag rest).1, (argValues flag rest).2)
    else if arg.hasPrefix (flag ++ utf8 "=") then
      let value := arg.trimPrefix (flag ++ utf8 "=")
      if value = [] then ((argValues flag args).1, true)
      else (value :: (argValues flag args).1, (argValues flag args).2)
    else argValues flag args

end Args

section Env

def upsertEnv (want : EnvVar) (env : List EnvVar) : List EnvVar :=
  Keyed.upsert EnvVar.name want env

def removeEnv (name : GoString) (env : List EnvVar) : List EnvVar :=
  env.filter (·.name ≠ name)

end Env

section Inputs

def validateInjectPodCacheInputs (pod : PodSpec) (role : GoString) : Except GoString Unit :=
  if pod.containers.length = 0 then
    .error (utf8 "inject " ++ role ++ utf8 " config: pod has no containers")
  else .ok ()

-- The container with this name, or else the only one.
def engineContainerIndexNamed (lib : Library) (pod : PodSpec) (name : GoString) : Except GoString Nat :=
  match pod.containers.findIdx? (·.name = name) with
  | some i => .ok i
  | none   =>
    if pod.containers.length = 1 then .ok 0 else
      .error (utf8 "inject engine config: pod has " ++ GoString.formatInt pod.containers.length ++
        utf8 " containers [" ++ (utf8 " ").intercalate (pod.containers.map (·.name)) ++
        utf8 "] but none is named " ++ lib.quote name ++
        utf8 "; injecting engine flags into unrelated sidecars would crash them — name the engine " ++
        utf8 "container " ++ lib.quote name)

def failOpenString (cache : CacheBackend) : GoString :=
  if cache.spec.rest.integrationFailOpen then utf8 "true" else utf8 "false"

def integrationRole (cache : CacheBackend) : Role :=
  match cache.spec.rest.integration with
  | none   => .readWrite
  | some i => if i.role = .unset then .readWrite else i.role

def effectiveLMCacheChunkSize (lm : LMCacheEngine) : Int :=
  lm.chunkSizeTokens.getD 256

end Inputs

section Volumes

def mountAtPath (path : GoString) (mounts : List VolumeMount) : Option VolumeMount :=
  Keyed.first VolumeMount.mountPath path mounts

def upsertMountByName (want : VolumeMount) (mounts : List VolumeMount) : List VolumeMount :=
  Keyed.upsert VolumeMount.name want mounts

-- Something with a reserved name is replaced if an adapter has rendered it, and is in the way if not.
def adopt (name : α → GoString) (inTheWay : GoString) (want : α) (owned : Bool) (l : List α) :
    Except GoString (List α) :=
  if (Keyed.first name (name want) l).isSome ∧ ¬owned then .error inTheWay
  else .ok (Keyed.upsert name want l)

def adoptContainer (lib : Library) (want : Container) (owned : Bool) (containers : List Container) :
    Except GoString (List Container) :=
  adopt Container.name (utf8 "inject engine config: pod already has a container named " ++
    lib.quote want.name ++ utf8 " that this adapter did not render; that name is reserved for the " ++
    utf8 "LMCache MP native sidecar — rename your container") want owned containers

def adoptVolume (lib : Library) (want : Volume) (owned : Bool) (volumes : List Volume) :
    Except GoString (List Volume) :=
  adopt Volume.name (utf8 "inject engine config: pod already has a volume named " ++
    lib.quote want.name ++ utf8 " that this adapter did not render; that name is reserved for the " ++
    utf8 "LMCache MP wire — rename your volume") want owned volumes

def findContainerByName (containers : List Container) (name : GoString) : Option Container :=
  Keyed.first Container.name name containers

-- What an adapter has rendered is recognised by a container with an environment variable.
def isOurs (pod : PodSpec) (container env value : GoString) : Bool :=
  match findContainerByName pod.initContainers container with
  | none   => false
  | some c => c.env.any fun e => e.name = env ∧ e.value = value

end Volumes

def lmCacheMPServerSecurityContext (engine : Option SecurityContext) : SecurityContext where
  allowPrivilegeEscalation := some false
  dropCapabilities := [utf8 "ALL"]
  seccompProfile := some (utf8 "RuntimeDefault")
  runAsNonRoot := engine.bind (·.runAsNonRoot)
  runAsUser := engine.bind (·.runAsUser)
  runAsGroup := engine.bind (·.runAsGroup)

-- The host, the port, and whether there is a port.
def splitLMCacheHostPort (s : GoString) : GoString × GoString × Bool :=
  let failed : GoString × GoString × Bool := ([], [], false)
  if s = [] then failed
  else if s.hasPrefix (utf8 "[") then
    match s.cut 0x5d with
    | none               => failed
    | some (inner, tail) =>
      if inner.length ≤ 1 then failed
      else if tail = [] then (inner.drop 1, [], false)
      else if ¬tail.hasPrefix (utf8 ":") ∨ 0x3a ∈ tail.drop 1 then failed
      else (inner.drop 1, tail.drop 1, true)
  else if s.count 0x3a > 1 then failed
  else
    match s.cutLast 0x3a with
    | some (host, port) => (host, port, true)
    | none              => (s, [], false)

end InferenceCache.Adapters
