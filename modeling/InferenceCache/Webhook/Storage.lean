import InferenceCache.Adapters.Backend
import InferenceCache.Webhook.Validator

-- Rules of the validator for the remote storage.
namespace InferenceCache.Webhook

open Api Adapters

def storagePath : GoString :=
  utf8 "spec.remoteStorage"

def endpointPath : GoString :=
  storagePath ++ utf8 ".endpoint"

section Hierarchy

def validateEndpoint (lib : Adapters.Library) (s : RemoteStorage) : List FieldError :=
  match s.ownership with
  | .unset   => []
  | .managed =>
    if s.endpoint.trimSpace ≠ [] then
      [.forbidden endpointPath
        (utf8 "managed providers publish their observed endpoint in status.remoteStorage.endpoint")]
    else []
  | .external =>
    (if s.endpoint.trimSpace = [] then
      [.required endpointPath (utf8 "required when remoteStorage.ownership=External")]
    else
      match validateExternalEndpoint lib s.provider s.endpoint with
      | .ok ()     => []
      | .error err => [.invalid endpointPath s.endpoint err]) ++
    (if s.workload.isSome then
      [.forbidden (storagePath ++ utf8 ".workload") (utf8 "valid only with Managed ownership")]
    else [])

def validateRedisConfig (s : RemoteStorage) : List FieldError :=
  let path := storagePath ++ utf8 ".redis"
  match s.redis with
  | none   => []
  | some r =>
    (if s.provider ≠ .redis then
      [.forbidden path (utf8 "configuration belongs to provider Redis, but remoteStorage.provider=" ++
        s.provider.text)]
    else []) ++
    (if s.ownership = .external then
      (if r.image.trimSpace ≠ [] then
        [.forbidden (path ++ utf8 ".image") (utf8 "valid only with Managed ownership")]
      else []) ++
      (if r.resources.isSome then
        [.forbidden (path ++ utf8 ".resources") (utf8 "valid only with Managed ownership")]
      else [])
    else [])

def validateCacheHierarchy (lib : Adapters.Library) (cb : Api.CacheBackend) : List FieldError :=
  let d := cb.spec.rest
  (if d.lmCache.isSome ∧ d.effectiveCacheType ≠ .lmCache then
    [.forbidden (utf8 "spec.lmCache") (utf8 "spec.lmCache is valid only when spec.type=LMCache")]
  else []) ++
  match d.remoteStorage with
  | none   => []
  | some s =>
    (if s.provider = .unset then
      [.required (storagePath ++ utf8 ".provider") (utf8 "select a remote-storage provider")]
    else []) ++
    (if s.ownership = .unset then
      [.required (storagePath ++ utf8 ".ownership") (utf8 "select Managed or External ownership")]
    else []) ++
    validateEndpoint lib s ++ validateRedisConfig s

end Hierarchy

section CrossNamespace

def k8sClusterDomain : GoString :=
  utf8 "cluster.local"

-- The domain of the cluster and the dot of an absolute name are optional.
def stripClusterDomain (host : GoString) : GoString :=
  (host.trimSuffix (utf8 ".")).trimSuffix (utf8 "." ++ k8sClusterDomain)

-- The namespace in a name that ends in `.svc`.
def serviceNamespace (host : GoString) : Option GoString :=
  if host.hasSuffix (utf8 ".svc") then
    let parts := (host.trimSuffix (utf8 ".svc")).splitOn 0x2e
    if parts.length < 2 then none else
      match parts.getLast?.getD [] with
      | [] => none
      | ns => some ns
  else none

def serviceDNSNamespace (lib : Adapters.Library) (endpoint : GoString) : Option GoString :=
  let host := endpoint.trimSpace
  if host = [] then none else
    let host := lib.toLower host
    let host := (host.afterFirst (utf8 "://")).getD host
    let host : GoString := host.takeWhile (· ∉ utf8 "/?")
    let host :=
      match host.cutLast 0x3a with
      | none           => host
      | some (h, port) => if 0x2e ∈ port then host else h
    serviceNamespace (stripClusterDomain host)

def rejectCrossNamespaceEndpointWithoutOptIn (lib : Adapters.Library) (cb : Api.CacheBackend) :
    List FieldError :=
  match cb.spec.rest.remoteStorage with
  | none   => []
  | some s =>
    match serviceDNSNamespace lib s.endpoint with
    | none    => []
    | some ns =>
      if ns = cb.key.inNamespace ∨ cb.spec.rest.allowCrossNamespace then [] else
        [.forbidden endpointPath (endpointPath ++ utf8 " references namespace " ++ lib.quote ns ++
          utf8 " but CacheBackend is in namespace " ++ lib.quote cb.key.inNamespace ++
          utf8 "; set spec.allowCrossNamespace=true to opt in to the cross-namespace reference")]

end CrossNamespace

end InferenceCache.Webhook
