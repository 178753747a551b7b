import InferenceCache.Adapters.Registry
import InferenceCache.Webhook.Overrides
import InferenceCache.Webhook.Validator

-- The check of the validator for overrides.
namespace InferenceCache.Webhook

open Kube Api Adapters

def overridesPath : GoString :=
  utf8 "spec.integration.engineOverrides"

def indexPath (path : GoString) (i : Nat) : GoString :=
  path ++ utf8 "[" ++ GoString.formatInt i ++ utf8 "]"

section EnvShape

def envVarSourceCount (src : EnvVarSource) : Nat :=
  src.fieldRef.isSome.toNat + src.resourceFieldRef.isSome.toNat + src.configMapKeyRef.isSome.toNat +
    src.secretKeyRef.isSome.toNat + src.fileKeyRef.isSome.toNat

def checkEnvVarSource (src : EnvVarSource) (path : GoString) : List FieldError :=
  let n := envVarSourceCount src
  if n = 0 then
    [.required path (utf8 "valueFrom must select exactly one source (e.g. fieldRef, resourceFieldRef, " ++
      utf8 "configMapKeyRef, or secretKeyRef)")]
  else if n > 1 then
    [.invalid path (GoString.formatInt n) (utf8 "valueFrom must select exactly one source — multiple set")]
  else []

-- What the API server would reject in a pod. `isEnvVarName` gives the problems with a name.
def checkEngineOverrideEnvShape (isEnvVarName : GoString → List GoString) (env : List EnvVar)
    (path : GoString) : List FieldError :=
  (env.mapIdx fun i entry =>
    let entryPath := indexPath path i
    let namePath := entryPath ++ utf8 ".name"
    (if entry.name = [] then
      [FieldError.required namePath (utf8 "engineOverrides env entries must declare a Name")]
    else (isEnvVarName entry.name).map fun msg =>
      FieldError.invalid namePath entry.name (utf8 "invalid env var name: " ++ msg)) ++
    (if entry.value ≠ [] ∧ entry.valueFrom.isSome then
      [FieldError.invalid entryPath entry.name (utf8 "env entry may set value OR valueFrom, not both — " ++
        utf8 "engine pods carrying this entry would fail Kubernetes Pod validation")]
    else []) ++
    match entry.valueFrom with
    | none     => []
    | some src => checkEnvVarSource src (entryPath ++ utf8 ".valueFrom")).flatten

end EnvShape

section Reserved

def reservedMessage (lib : Adapters.Library) (kind what name runtimeID : GoString) : GoString :=
  kind ++ utf8 " " ++ lib.quote name ++ utf8 " is reserved by the " ++ lib.quote runtimeID ++
    utf8 " runtime adapter and cannot be overridden or suppressed via spec.integration.engineOverrides; " ++
    utf8 "the adapter strictly requires this " ++ what ++ utf8 " for the integration to function"

def reservedArgMessage (lib : Adapters.Library) : GoString → GoString → GoString :=
  reservedMessage lib (utf8 "arg") (utf8 "flag")

def reservedEnvMessage (lib : Adapters.Library) : GoString → GoString → GoString :=
  reservedMessage lib (utf8 "env") (utf8 "env")

def checkReserved (reserved : List GoString) (name : α → GoString) (path : Nat → GoString)
    (message : GoString → GoString) (entries : List α) : List FieldError :=
  (entries.mapIdx fun i entry =>
    if name entry ∈ reserved then [FieldError.forbidden (path i) (message (name entry))] else []).flatten

-- An argument that is not a flag has the empty token, and is not checked.
def checkEngineOverrides (lib : Adapters.Library) (isEnvVarName : GoString → List GoString)
    (registry : Option Registry) (cb : Api.CacheBackend) : List FieldError :=
  match engineOverridesFor cb with
  | none           => []
  | some overrides =>
    let errs := checkEngineOverrideEnvShape isEnvVarName overrides.env (overridesPath ++ utf8 ".env")
    if cb.spec.rest.type = .unset then errs else
      match registry with
      | none => errs ++ [⟨.internal, overridesPath, [], utf8 "runtime adapter registry is not configured"⟩]
      | some registry =>
        match registry.select cb with
        | none         => errs
        | some adapter =>
          let runtimeID := Runtime.id cb.spec.rest.runtime
          let arg := (reservedArgMessage lib · runtimeID)
          let env := (reservedEnvMessage lib · runtimeID)
          errs ++
          checkReserved (adapter.reservedArgs.filter (· ≠ [])) argFlagToken
            (indexPath (overridesPath ++ utf8 ".args")) arg overrides.args ++
          checkReserved adapter.reservedArgs id
            (indexPath (overridesPath ++ utf8 ".suppressArgs")) arg overrides.suppressArgs ++
          checkReserved adapter.reservedEnv EnvVar.name
            (fun i => indexPath (overridesPath ++ utf8 ".env") i ++ utf8 ".name") env overrides.env ++
          checkReserved adapter.reservedEnv id
            (indexPath (overridesPath ++ utf8 ".suppressEnv")) env overrides.suppressEnv

end Reserved

end InferenceCache.Webhook
