import InferenceCache.Webhook.Storage

-- Rules of the validator for the LMCache server, and for what a server can make of its remote storage.
namespace InferenceCache.Webhook

open Kube Api Adapters

-- An object as it is submitted. A block for a topology may be there without its server.
structure Declaration extends Details where
  podLocalBlock        : Bool
  nodeLocalBlock       : Bool
  idleRetentionSeconds : Int
  podLocal_block       : (lmCache.bind (·.podLocal)).isSome → podLocalBlock = true
  nodeLocal_block      : (lmCache.bind (·.nodeLocal)).isSome → nodeLocalBlock = true

abbrev Submission := CacheBackend Declaration

-- What the adapters see of it.
def Submission.backend (cb : Submission) : Api.CacheBackend :=
  ⟨cb.key, ⟨cb.spec.engineSelector, cb.spec.rest.toDetails⟩⟩

def isSubdomainChar (c : UInt8) : Bool :=
  c ∈ utf8 "abcdefghijklmnopqrstuvwxyz0123456789-."

def isConfigMapKeyChar (c : UInt8) : Bool :=
  c ∈ utf8 "abcdefghijklmnopqrstuvwxyzABCDEFGHIJKLMNOPQRSTUVWXYZ0123456789-_."

-- Functions of `k8s.io/apimachinery`: the problems with a name, and how a quantity is read. Of the names
-- that are accepted it only matters here what characters they are made of.
structure Apimachinery where
  isQualifiedName    : GoString → List GoString
  isDNS1123Subdomain : GoString → List GoString
  isConfigMapKey     : GoString → List GoString
  parseQuantity      : GoString → Option Quantity
  asInt64            : Quantity → Option Int64
  subdomain_chars    : ∀ s, isDNS1123Subdomain s = [] → ∀ c ∈ s, isSubdomainChar c = true
  configMapKey_chars : ∀ s, isConfigMapKey s = [] → ∀ c ∈ s, isConfigMapKeyChar c = true

-- All that a check needs of other packages, and the order in which it visits the entries of a map.
structure Environment where
  lib   : Adapters.Library
  api   : Apimachinery
  order : RangeOrder GoString

def keyPath (path key : GoString) : GoString :=
  path ++ utf8 "[" ++ key ++ utf8 "]"

section Resources

def resourceCPU : GoString :=
  utf8 "cpu"

def resourceMemory : GoString :=
  utf8 "memory"

def resourceEphemeralStorage : GoString :=
  utf8 "ephemeral-storage"

def hugePagesPrefix : GoString :=
  utf8 "hugepages-"

def isOvercommittableResource (name : GoString) : Bool :=
  name = resourceCPU ∨ name = resourceMemory ∨ name = resourceEphemeralStorage

variable (env : Environment)

-- The reason why a name is not accepted, if it is not.
def validateContainerResourceName (name : GoString) : Option GoString :=
  let bad := env.lib.quote name ++ utf8 " is not a valid container resource name: "
  if isOvercommittableResource name then none
  else if name.hasPrefix hugePagesPrefix then
    match env.api.parseQuantity (name.trimPrefix hugePagesPrefix) with
    | some size => if size.amount ≤ 0 then some (bad ++ needsPageSize) else none
    | none      => some (bad ++ needsPageSize)
  else if ¬name.contains (utf8 "/") then
    some (bad ++ utf8 "must be one of " ++ env.lib.quote resourceCPU ++ utf8 "/" ++
      env.lib.quote resourceMemory ++ utf8 "/" ++ env.lib.quote resourceEphemeralStorage ++
      utf8 ", a hugepages-<size> variant (e.g. \"hugepages-2Mi\"), or a vendor-prefixed extended resource " ++
      utf8 "(e.g. \"nvidia.com/gpu\")")
  else if name.hasPrefix (utf8 "kubernetes.io/") ∨ name.hasPrefix (utf8 "requests.kubernetes.io/") then
    some (bad ++ env.lib.quote (utf8 "kubernetes.io/") ++ utf8 " and " ++
      env.lib.quote (utf8 "requests.kubernetes.io/") ++ utf8 " are K8s-reserved prefixes — extended " ++
      utf8 "resources must use a third-party vendor domain (e.g. \"nvidia.com/gpu\")")
  else
    match env.api.isQualifiedName name with
    | []       => none
    | msg :: _ => some (bad ++ msg)
where
  needsPageSize := env.lib.quote hugePagesPrefix ++
    utf8 " must be followed by a positive page-size quantity (e.g. \"hugepages-2Mi\")"

def checkResource (path name : GoString) (quantity : Quantity) : List FieldError :=
  let text := env.lib.formatQuantity quantity
  match validateContainerResourceName env name with
  | some msg => [.invalid path name msg]
  | none     =>
    (if quantity.amount < 0 then [.invalid path text (utf8 "must be a non-negative quantity")] else []) ++
    (if ¬isOvercommittableResource name ∧ ¬name.hasPrefix hugePagesPrefix ∧ env.api.asInt64 quantity = none then
      [.invalid path text (env.lib.quote name ++
        utf8 " is an extended resource and must be an integer quantity")]
    else []) ++
    (if name.hasPrefix hugePagesPrefix ∧ 0 < quantity.amount then
      match env.api.parseQuantity (name.trimPrefix hugePagesPrefix) with
      | some size =>
        if 0 < size.amount ∧ quantity.value % size.value ≠ 0 then
          [.invalid path text (utf8 "must be a multiple of the page size " ++ env.lib.formatQuantity size)]
        else []
      | none => []
    else [])

def checkList (list : GoMap GoString Quantity) (path : GoString) : List FieldError :=
  (env.order.range list).flatMap fun x => checkResource env (keyPath path x.1) x.1 x.2

def checkLimit (resources : ResourceRequirements) (path name : GoString) (request : Quantity) : List FieldError :=
  let text := env.lib.formatQuantity request
  match resources.limits.lookup name with
  | none =>
    if isOvercommittableResource name then [] else
      [.invalid (keyPath (path ++ utf8 ".requests") name) text (env.lib.quote name ++
        utf8 " is non-overcommittable and must also have an equal limit")]
  | some limit =>
    let limitPath := keyPath (path ++ utf8 ".limits") name
    (if isOvercommittableResource name ∧ limit.amount < request.amount then
      [.invalid limitPath (env.lib.formatQuantity limit)
        (utf8 "must be greater than or equal to request " ++ text)]
    else []) ++
    (if ¬isOvercommittableResource name ∧ limit.amount ≠ request.amount then
      [.invalid limitPath (env.lib.formatQuantity limit) (utf8 "must equal request " ++ text ++
        utf8 " for non-overcommittable resource " ++ env.lib.quote name)]
    else [])

def validateMPServerResourceRequirements (resources : ResourceRequirements) (path : GoString) : List FieldError :=
  (if resources.claims.length > 0 then
    [.forbidden (path ++ utf8 ".claims") (utf8 "MP server resource claims are not supported because the " ++
      utf8 "injector does not own pod.spec.resourceClaims")]
  else []) ++
  checkList env resources.requests (path ++ utf8 ".requests") ++
  checkList env resources.limits (path ++ utf8 ".limits") ++
  (env.order.range resources.requests).flatMap fun x => checkLimit env resources path x.1 x.2

end Resources

section Server

variable (env : Environment)

-- A name without white space, and the digest of an image.
def isDigestPinned (image : GoString) : Bool :=
  match image.cut 0x40 with
  | none                => false
  | some (name, digest) =>
    name ≠ [] ∧ (∀ c ∈ name, c ∉ utf8 "\t\n\x0b\x0c\r ") ∧ digest.hasPrefix (utf8 "sha256:") ∧
      (digest.drop 7).length = 64 ∧ ∀ c ∈ digest.drop 7, c ∈ utf8 "abcdef0123456789"

def validateDigestPinnedImage (image path requiredMessage : GoString) : List FieldError :=
  if image.trimSpace = [] then [.required path requiredMessage]
  else if ¬isDigestPinned image.trimSpace then
    [.invalid path image
      (utf8 "must be pinned by sha256 digest (for example registry.example/image@sha256:<64-hex-digest>)")]
  else []

-- The least memory that a server needs for its first level, if this is not empty.
def memoryBudget (l1Capacity : Quantity) : Option Quantity :=
  if 0 < l1Capacity.amount then some (l1Capacity.add (.gib 1)) else none

def belowBudget (l1Capacity q : Quantity) (path why : GoString) : List FieldError :=
  match memoryBudget l1Capacity with
  | none        => []
  | some budget =>
    if q.amount < budget.amount then
      [.invalid path (env.lib.formatQuantity q) (utf8 "must be at least " ++ env.lib.formatQuantity budget ++
        utf8 " (l1Capacity " ++ env.lib.formatQuantity l1Capacity ++ utf8 " + 1Gi headroom) " ++ why)]
    else []

def checkMemory (l1Capacity : Quantity) (resources : ResourceRequirements) (path : GoString) : List FieldError :=
  let requestPath := keyPath (path ++ utf8 ".resources.requests") resourceMemory
  let limitPath := keyPath (path ++ utf8 ".resources.limits") resourceMemory
  let request := resources.requests.lookup resourceMemory
  (match request.filter (0 < ·.amount) with
  | none   => [.required requestPath (utf8 "a positive memory request is required for the MP server")]
  | some q => belowBudget env l1Capacity q requestPath
    (utf8 "so scheduling accounts for the eagerly allocated pinned L1 and server overhead")) ++
  match (resources.limits.lookup resourceMemory).filter (0 < ·.amount) with
  | none   => [.required limitPath (utf8 "a positive memory limit is required for the MP server")]
  | some q =>
    (match request with
    | none         => []
    | some request =>
      if q.amount < request.amount then
        [.invalid limitPath (env.lib.formatQuantity q)
          (utf8 "must be greater than or equal to the memory request " ++ env.lib.formatQuantity request)]
      else []) ++
    belowBudget env l1Capacity q limitPath (utf8 "to cover the eagerly allocated pinned L1 and server overhead")

def checkPort (port : Int) (path : GoString) (reservedPorts : List (Int × GoString)) : List FieldError :=
  if port < 1 ∨ 65535 < port then [.invalid path (GoString.formatInt port) (utf8 "must be between 1 and 65535")]
  else
    match reservedPorts.lookup port with
    | none       => []
    | some owner => [.invalid path (GoString.formatInt port)
      (utf8 "collides with the " ++ owner ++ utf8 " port " ++ GoString.formatInt port)]

def validateMPServer (image : GoString) (port : Int) (l1Capacity : Quantity) (resources : ResourceRequirements)
    (path : GoString) (reservedPorts : List (Int × GoString)) : List FieldError :=
  validateDigestPinnedImage image (path ++ utf8 ".image")
    (utf8 "a CacheBackend-owned LMCache MP server image is required") ++
  checkPort port (path ++ utf8 ".port") reservedPorts ++
  (if l1Capacity.amount ≤ 0 then
    [.invalid (path ++ utf8 ".l1Capacity") (env.lib.formatQuantity l1Capacity) (utf8 "must be greater than zero")]
  else []) ++
  validateMPServerResourceRequirements env resources (path ++ utf8 ".resources") ++
  (if ((resources.requests.lookup resourceCPU).filter (0 < ·.amount)).isNone then
    [.required (keyPath (path ++ utf8 ".resources.requests") resourceCPU)
      (utf8 "a positive CPU request is required for the MP server")]
  else []) ++
  checkMemory env l1Capacity resources path

def atLeastOne (n : Int) (path : GoString) : List FieldError :=
  if n < 1 then [.invalid path (GoString.formatInt n) (utf8 "must be at least 1")] else []

def lmcacheKVEventPort : Int :=
  5557

def lmcacheMPHTTPPort : Int :=
  8080

def validatePodLocalServer (server : PodLocalServer) (path : GoString) : List FieldError :=
  validateMPServer env server.image server.port server.l1Capacity server.resources path
    [(lmcacheKVEventPort, utf8 "engine KV-event publisher"),
      (lmcacheMPHTTPPort, utf8 "LMCache MP HTTP health/control")] ++
  atLeastOne server.maxWorkers (path ++ utf8 ".maxWorkers")

-- The loop over the ports, each with its name. Those that were seen are kept.
def distinctPorts (path : GoString) : List (Int × GoString) → List (GoString × Int) → List FieldError
  | _,    []                  => []
  | seen, (name, port) :: rest =>
    if port < 1 ∨ 65535 < port then
      .invalid (path ++ utf8 "." ++ name) (GoString.formatInt port) (utf8 "must be between 1 and 65535") ::
        distinctPorts path seen rest
    else
      match seen.lookup port with
      | some prior =>
        .invalid (path ++ utf8 "." ++ name) (GoString.formatInt port) (utf8 "must be distinct from " ++ prior ++
          utf8 " because both listeners bind the node network namespace") :: distinctPorts path seen rest
      | none => distinctPorts path ((port, name) :: seen) rest

def gpuResource : GoString :=
  utf8 "nvidia.com/gpu"

def rejectGPU (list : GoMap GoString Quantity) (path : GoString) : List FieldError :=
  if (list.lookup gpuResource).isSome then
    [.forbidden (keyPath path gpuResource) (utf8 "NodeLocal MP servers use NVIDIA_VISIBLE_DEVICES=all for CUDA " ++
      utf8 "IPC and must not reserve engine allocatable GPUs")]
  else []

def validateNodeLocalServer (server : NodeLocalServer) (path : GoString) : List FieldError :=
  validateMPServer env server.image server.port server.l1Capacity server.resources path [] ++
  atLeastOne server.maxGPUWorkers (path ++ utf8 ".maxGPUWorkers") ++
  atLeastOne server.maxCPUWorkers (path ++ utf8 ".maxCPUWorkers") ++
  distinctPorts path [] [(utf8 "port", server.port), (utf8 "httpPort", server.httpPort)] ++
  rejectGPU server.resources.requests (path ++ utf8 ".resources.requests") ++
  rejectGPU server.resources.limits (path ++ utf8 ".resources.limits")

end Server

section Topology

variable (env : Environment)

def lmPath : GoString :=
  utf8 "spec.lmCache"

def requireServerBlock (block : Bool) (server : Option S) (name topology : GoString)
    (validate : S → GoString → List FieldError) : List FieldError :=
  let path := lmPath ++ utf8 "." ++ name
  let message := utf8 "required when topology=" ++ topology
  if ¬block then [.required path message] else
    match server with
    | none        => [.required (path ++ utf8 ".server") message]
    | some server => validate server (path ++ utf8 ".server")

def forbidBlock (block : Bool) (name topology : GoString) : List FieldError :=
  if block then
    [.forbidden (lmPath ++ utf8 "." ++ name) (utf8 "must be omitted when topology=" ++ topology)]
  else []

def checkIdleRetention (seconds : Int) : List FieldError :=
  if seconds < 0 ∨ 86400 < seconds then
    [.invalid (lmPath ++ utf8 ".nodeLocal.idleRetentionSeconds") (GoString.formatInt seconds)
      (utf8 "must be between 0 and 86400 seconds")]
  else []

def validateTopology (cb : Submission) (lm : LMCacheEngine) : List FieldError :=
  let d := cb.spec.rest
  match lm.topology with
  | .unset    => [.required (lmPath ++ utf8 ".topology") (utf8 "required when podLocal or nodeLocal is configured")]
  | .podLocal =>
    requireServerBlock d.podLocalBlock lm.podLocal (utf8 "podLocal") (utf8 "PodLocal") (validatePodLocalServer env) ++
    forbidBlock d.nodeLocalBlock (utf8 "nodeLocal") (utf8 "PodLocal")
  | .nodeLocal =>
    requireServerBlock d.nodeLocalBlock lm.nodeLocal (utf8 "nodeLocal") (utf8 "NodeLocal")
      (fun server path => validateNodeLocalServer env server path ++ checkIdleRetention d.idleRetentionSeconds) ++
    forbidBlock d.podLocalBlock (utf8 "podLocal") (utf8 "NodeLocal") ++
    (if cb.spec.matchLabels.len = 0 then
      [.required matchLabelsPath (utf8 "NodeLocal requires a non-empty engine selector to define its trust domain")]
    else [])

def validateLMCacheTopology (cb : Submission) : List FieldError :=
  let d := cb.spec.rest
  if d.effectiveCacheType ≠ .lmCache then []
  else if d.isEventsOnly then
    if d.lmCache.isSome then
      [.forbidden lmPath (utf8 "LMCache topology is invalid with integration.mode=EventsOnly because that mode " ++
        utf8 "injects no KV connector or MP server")]
    else []
  else
    match d.lmCache with
    | none    => [.required lmPath (utf8 "required for the LMCache multiprocess data plane")]
    | some lm => validateTopology env cb lm

end Topology

section Redis

variable (env : Environment)

-- Names and keys are checked without the white space around them.
def validateRedisSecretKeySelector (selector : KeySelector) (path : GoString) : List FieldError :=
  check selector.name (path ++ utf8 ".name") (utf8 "a namespace-local Secret name is required")
    env.api.isDNS1123Subdomain ++
  check selector.key (path ++ utf8 ".key") (utf8 "a Secret data key is required") env.api.isConfigMapKey ++
  (if selector.optional = some true then
    [.forbidden (path ++ utf8 ".optional") (utf8 "authentication Secret keys are required; optional credentials " ++
      utf8 "could start the cache plane unauthenticated or unusable")]
  else [])
where
  check (value path message : GoString) (problems : GoString → List GoString) : List FieldError :=
    if value.trimSpace = [] then [.required path message] else
      match problems value.trimSpace with
      | []       => []
      | messages => [.invalid path value ((utf8 "; ").intercalate messages)]

def isTypedMP (d : Details) : Bool :=
  d.lmCache.any (fun lm => lm.topology = .podLocal ∨ lm.topology = .nodeLocal) ∧ d.effectiveCacheType = .lmCache

def redisPath : GoString :=
  storagePath ++ utf8 ".redis"

def checkAuthentication (d : Details) (s : RemoteStorage) (auth : RedisAuthentication) : List FieldError :=
  let path := redisPath ++ utf8 ".authentication"
  if ¬isTypedMP d then
    [.forbidden path (utf8 "Redis authentication is currently rendered only by a typed LMCache MP adapter")]
  else
    (match auth.username with
    | none          => []
    | some selector => validateRedisSecretKeySelector env selector (path ++ utf8 ".username")) ++
    validateRedisSecretKeySelector env auth.password (path ++ utf8 ".password") ++
    (if s.ownership = .managed ∧ auth.username.isSome then
      [.forbidden (path ++ utf8 ".username") (utf8 "managed Redis provisions the default user and currently " ++
        utf8 "supports password authentication only")]
    else [])

def rejectUnimplementedRedisBindingFeatures (cb : Submission) : List FieldError :=
  let d := cb.spec.rest
  match d.remoteStorage with
  | none   => []
  | some s =>
    match s.redis with
    | none       => []
    | some redis =>
      (match redis.authentication with
      | none      => []
      | some auth => checkAuthentication env d.toDetails s auth) ++
      (if redis.tls.isSome then
        [.forbidden (redisPath ++ utf8 ".tls") (utf8 "the pinned LMCache 0.5.3 resp adapter does not support TLS; " ++
          utf8 "refusing inert TLS configuration")]
      else []) ++
      (if redis.database.isSome then
        [.forbidden (redisPath ++ utf8 ".database") (utf8 "the pinned LMCache 0.5.3 resp adapter does not support " ++
          utf8 "database selection; refusing inert adapter configuration")]
      else [])

end Redis

end InferenceCache.Webhook
