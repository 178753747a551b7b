import InferenceCache.Api.Types

-- The package `backend`: how an engine reaches its remote storage.
namespace InferenceCache.Adapters

open Kube Api

-- Functions of the libraries: `%q` for a string and for its first character, how JSON writes a string, how
-- a quantity is printed, a number of bytes in GiB as a float that is printed in full, and
-- `strings.ToLower`, of which only the behaviour on ASCII is used.
structure Library where
  quote          : GoString → GoString
  quoteRune      : GoString → GoString
  jsonString     : GoString → GoString
  formatQuantity : Quantity → GoString
  formatGiB      : Int → GoString
  toLower        : GoString → GoString
  toLower_ascii  : ∀ s, (∀ c ∈ s, c < 0x80) → toLower s = s.asciiLower

-- A library to evaluate the model with.
def Library.plain : Library where
  quote := id
  quoteRune := id
  jsonString s   := utf8 "\"" ++ s ++ utf8 "\""
  formatQuantity := fun q => GoString.formatInt q.value
  formatGiB := fun n => GoString.formatInt n
  toLower := GoString.asciiLower
  toLower_ascii := fun _ _ => rfl

inductive Protocol
  | unset
  | resp
  deriving DecidableEq

def Protocol.text : Protocol → GoString
  | unset => []
  | resp  => utf8 "resp"

structure RedisBinding where
  authentication : Option RedisAuthentication
  tls            : Option TLS
  database       : Option Int
  deriving DecidableEq

structure Binding where
  protocol : Protocol
  endpoint : GoString
  redis    : Option RedisBinding
  deriving DecidableEq

def validateExternalEndpoint (lib : Library) (provider : Provider) (endpoint : GoString) :
    Except GoString Unit :=
  if provider ≠ .redis then
    .error (utf8 "remote-storage provider " ++ lib.quote provider.text ++ utf8 " has no endpoint protocol")
  else
    let value := endpoint.trimSpace
    if value = [] then .error (utf8 "endpoint is empty")
    else if value.contains (utf8 "://") then
      .error (utf8 "endpoint schemes are not supported for remoteStorage.provider=" ++ provider.text ++
        utf8 "; use bare host:port")
    else if value.containsSpaceOrControl then
      .error (utf8 "endpoint must not contain whitespace or control characters")
    else
      match value.splitHostPort with
      | none              => .error notHostPort
      | some (host, port) =>
        if host = [] ∨ port = [] then .error notHostPort
        else if (port.parseUint 16).getD 0 = 0 then
          .error (utf8 "endpoint port " ++ lib.quote port ++ utf8 " must be an integer in 1-65535")
        else .ok ()
where
  notHostPort := utf8 "endpoint must be a non-empty host and port (for example redis.example.com:6379)"

def protocolFor (lib : Library) (storage : Option RemoteStorage) : Except GoString Protocol :=
  match storage with
  | none   => .ok .unset
  | some s =>
    match s.provider with
    | .redis => .ok .resp
    | .unset => .error (utf8 "no remote-storage provider supports the declaration: unknown provider=" ++
      lib.quote s.provider.text)

def bindingFor (storage : Option RemoteStorage) (protocol : Protocol) (resolvedEndpoint : GoString) :
    Option Binding :=
  storage.map fun s => {
    protocol := protocol
    endpoint := resolvedEndpoint
    redis    := if s.provider = .redis then s.redis.map fun r => ⟨r.authentication, r.tls, r.database⟩
                else none
  }

-- Of the package `pod`. An address of one's own has to be well formed, one of the reconciler need not.
def effectiveEndpoint (lib : Library) (cache : CacheBackend) : GoString :=
  let d := cache.spec.rest
  match d.remoteStorage with
  | some s =>
    if s.ownership = .external then
      match validateExternalEndpoint lib s.provider s.endpoint with
      | .ok ()   => s.endpoint.trimSpace
      | .error _ => []
    else managed d
  | none => managed d
where
  managed (d : Details) : GoString :=
    match d.lmCache, d.remoteStorageEndpoint with
    | some lm, some endpoint => if lm.topology ≠ .unset then endpoint.trimSpace else []
    | _, _                   => []

end InferenceCache.Adapters
