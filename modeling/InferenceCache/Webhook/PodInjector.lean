import InferenceCache.Webhook.Validator

namespace InferenceCache.Webhook

variable {S : Type}

structure Pod where
  inNamespace : GoString
  labels      : GoMap GoString GoString

-- `labels.SelectorFromSet(matchLabels).Matches(podLabels)`. The labels have to be there with these values.
def selectorMatches (matchLabels podLabels : GoMap GoString GoString) : Bool :=
  ∀ k ∈ matchLabels.keys, podLabels.lookup k = matchLabels.lookup k

-- A selector without labels does not claim any pod.
def CacheBackend.claims (cb : CacheBackend S) (podLabels : GoMap GoString GoString) : Bool :=
  cb.spec.matchLabels.len ≠ 0 ∧ selectorMatches cb.spec.matchLabels podLabels

inductive SelectError
  | listing (message : GoString)
  | ambiguous (inNamespace : GoString) (names : List GoString)

def SelectError.error (lib : Library) : SelectError → GoString
  | .listing message             => message
  | .ambiguous inNamespace names =>
    utf8 "Pod labels match multiple CacheBackends in namespace " ++ lib.quote inNamespace ++ utf8 " (" ++
      (utf8 ", ").intercalate names ++
      utf8 "); engine admission requires exactly one CacheBackend owner"

def selectCacheBackend (read : Reader S) (pod : Pod) : Except SelectError (Option (CacheBackend S)) :=
  match read pod.inNamespace with
  | .error err => .error (.listing (utf8 "list CacheBackends in " ++ pod.inNamespace ++ utf8 ": " ++ err))
  | .ok items  =>
    match (sortSlice lessByName items).filter (·.claims pod.labels) with
    | []   => .ok none
    | [cb] => .ok (some cb)
    | cbs  => .error (.ambiguous pod.inNamespace (cbs.map (·.key.name)))

end InferenceCache.Webhook
