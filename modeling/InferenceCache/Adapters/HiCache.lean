import InferenceCache.Adapters.Registry
import InferenceCache.Lib.Scalars

-- The adapter for the cache that SGLang has of its own.
namespace InferenceCache.Adapters

open Kube Api

section Args

def sglangEnableHiCacheArg : GoString :=
  utf8 "--enable-hierarchical-cache"

def sglangHiCacheSizeArg : GoString :=
  utf8 "--hicache-size"

def sglangHiCacheRatioArg : GoString :=
  utf8 "--hicache-ratio"

def sglangHiCacheWritePolicyArg : GoString :=
  utf8 "--hicache-write-policy"

def sglangHiCacheIOBackendArg : GoString :=
  utf8 "--hicache-io-backend"

def sglangHiCacheMemoryLayoutArg : GoString :=
  utf8 "--hicache-mem-layout"

end Args

-- `ParseFloat(s, 64)`. Of numbers it matters that one that is finite equals itself, and that a minus sign does
-- not begin a positive one.
structure FloatParser (D : Type) [FloatFormat D] where
  parse       : GoString → Option D
  eq_self     : ∀ x : D, FloatFormat.isFinite x = true → FloatFormat.eq x x = true
  le_of_minus : ∀ s x, parse (0x2d :: s) = some x → FloatFormat.le x 0 = true

namespace HiCache

variable {D : Type} [FloatFormat D] (lib : Library) (floats : FloatParser D)

section Config

def reservedArgs : List GoString :=
  [sglangEnableHiCacheArg, sglangHiCacheSizeArg, sglangHiCacheRatioArg, sglangHiCacheWritePolicyArg,
    sglangHiCacheIOBackendArg, sglangHiCacheMemoryLayoutArg, sglangEnableMetricsArg]

def leadingFlagToken (arg : GoString) : GoString :=
  if ¬arg.hasPrefix (utf8 "-") then [] else
    match arg.cut 0x3d with
    | some (flag, _) => flag
    | none           => arg

def writePolicies : List GoString :=
  [[], utf8 "write_back", utf8 "write_through", utf8 "write_through_selective"]

def ioBackends : List GoString :=
  [[], utf8 "direct", utf8 "kernel", utf8 "kernel_ascend"]

def memoryLayouts : List GoString :=
  [[], utf8 "layer_first", utf8 "page_first", utf8 "page_first_direct", utf8 "page_first_kv_split", utf8 "page_head"]

def failed (text : GoString) : Except GoString A :=
  .error (utf8 "resolve SGLang HiCache config: " ++ text)

def checkReserved (overrides : EngineInjectionOverrides) : Except GoString Unit :=
  match overrides.args.find? (leadingFlagToken · ∈ reservedArgs) with
  | some arg => failed (utf8 "engine override for reserved argument " ++ lib.quote (leadingFlagToken arg) ++
    utf8 " is unsupported")
  | none     =>
    match overrides.suppressArgs.find? (· ∈ reservedArgs) with
    | some flag => failed (utf8 "suppression of reserved argument " ++ lib.quote flag ++ utf8 " is unsupported")
    | none      => .ok ()

def validRatio (ratio : GoString) : Bool :=
  match floats.parse ratio with
  | none   => false
  | some x => ¬FloatFormat.le x 0 ∧ FloatFormat.isFinite x

def checkIntegration : Option Integration → Except GoString Unit
  | none   => .ok ()
  | some i =>
    if i.role ≠ .unset ∧ i.role ≠ .readWrite then failed (utf8 "integration.role must be ReadWrite")
    else if i.failOpen = some false then failed (utf8 "integration.failOpen must be true")
    else .ok ()

def checkOverrides (i : Option Integration) : Except GoString Unit :=
  match i.bind (·.engineOverrides) with
  | none           => .ok ()
  | some overrides => checkReserved lib overrides

def checkSpec (spec : HiCacheSpec) : Except GoString Unit :=
  if spec.sizeGB.isNone ↔ spec.ratio = [] then
    failed (utf8 "exactly one of spec.hiCache.sizeGB and ratio must be set")
  else if spec.sizeGB.any (· < 1) then failed (utf8 "sizeGB must be at least 1")
  else if spec.ratio ≠ [] ∧ ¬validRatio floats spec.ratio then
    failed (utf8 "ratio must be a finite number greater than zero")
  else if spec.writePolicy ∉ writePolicies then
    failed (utf8 "unsupported writePolicy " ++ lib.quote spec.writePolicy)
  else if spec.ioBackend ∉ ioBackends then
    failed (utf8 "unsupported ioBackend " ++ lib.quote spec.ioBackend)
  else if spec.memoryLayout ∉ memoryLayouts then
    failed (utf8 "unsupported memoryLayout " ++ lib.quote spec.memoryLayout)
  else .ok ()

def checkBackend (cache : CacheBackend) : Except GoString Unit :=
  let d := cache.spec.rest
  if d.type ≠ .sglangHiCache then
    failed (utf8 "backend type must be " ++ lib.quote (utf8 "SGLangHiCache"))
  else if d.runtime ≠ .sglang then failed (utf8 "spec.runtime must be SGLang")
  else if d.integrationMode ≠ .offload then failed (utf8 "integration.mode must be Offload")
  else .ok ()

def checkSelector (cache : CacheBackend) : Except GoString Unit :=
  if cache.spec.matchLabels.len = 0 then failed (utf8 "spec.engineSelector.matchLabels is required") else .ok ()

def resolveHiCacheConfig (cache : CacheBackend) : Except GoString HiCacheSpec := do
  checkBackend lib cache
  checkIntegration cache.spec.rest.integration
  checkSelector cache
  checkOverrides lib cache.spec.rest.integration
  match cache.spec.rest.hiCache with
  | none      => failed (utf8 "spec.hiCache is required")
  | some spec =>
    checkSpec lib floats spec
    return spec

end Config

section Inject

def rejected (text : GoString) : Except GoString A :=
  .error (utf8 "inject SGLang HiCache config: " ++ text)

def validateEnableArg (args : List GoString) : Except GoString Unit :=
  if args.any (·.hasPrefix (sglangEnableHiCacheArg ++ utf8 "=")) then
    rejected (sglangEnableHiCacheArg ++ utf8 " is a boolean flag and must not carry a value")
  else if args.count sglangEnableHiCacheArg > 1 then rejected (sglangEnableHiCacheArg ++ utf8 " is duplicated")
  else .ok ()

def rejectPresentArg (args : List GoString) (flag reason : GoString) : Except GoString Unit :=
  let (values, malformed) := argValues flag args
  if malformed then rejected (flag ++ utf8 " is malformed")
  else if values.length > 0 then rejected (utf8 "existing " ++ flag ++ utf8 " " ++ reason)
  else .ok ()

def rejectRepeatedArg (args : List GoString) (flag : GoString) : Except GoString Unit :=
  let (values, malformed) := argValues flag args
  if malformed ∨ values.length > 1 then rejected (flag ++ utf8 " is duplicated or malformed") else .ok ()

def equivalentExact (actual desired : GoString) : Bool :=
  actual = desired

def equivalentInteger (actual desired : GoString) : Bool :=
  match actual.parseInt 64, desired.parseInt 64 with
  | some a, some d => a = d
  | _, _           => false

def equivalentNumber (actual desired : GoString) : Bool :=
  match floats.parse actual, floats.parse desired with
  | some a, some d => FloatFormat.isFinite a ∧ FloatFormat.isFinite d ∧ FloatFormat.eq a d
  | _, _           => false

structure DesiredArg where
  flag       : GoString
  value      : GoString
  equivalent : GoString → GoString → Bool

-- The size or the ratio, of which the other one must not be there.
def desiredPool (cfg : HiCacheSpec) (args : List GoString) : Except GoString DesiredArg :=
  match cfg.sizeGB with
  | some n => do
    rejectPresentArg args sglangHiCacheRatioArg (utf8 "conflicts with spec.hiCache.sizeGB")
    return ⟨sglangHiCacheSizeArg, GoString.formatInt n.toInt, equivalentInteger⟩
  | none => do
    rejectPresentArg args sglangHiCacheSizeArg (utf8 "conflicts with spec.hiCache.ratio")
    return ⟨sglangHiCacheRatioArg, cfg.ratio, equivalentNumber floats⟩

def desiredChoices (cfg : HiCacheSpec) : List DesiredArg :=
  [⟨sglangHiCacheWritePolicyArg, cfg.writePolicy, equivalentExact⟩,
    ⟨sglangHiCacheIOBackendArg, cfg.ioBackend, equivalentExact⟩,
    ⟨sglangHiCacheMemoryLayoutArg, cfg.memoryLayout, equivalentExact⟩].filter (·.value ≠ [])

def isPresent (args : List GoString) (want : DesiredArg) : Except GoString Bool := do
  rejectRepeatedArg args want.flag
  match (argValues want.flag args).1 with
  | []         => return false
  | value :: _ =>
    if want.equivalent value want.value then return true
    else rejected (utf8 "existing " ++ want.flag ++ utf8 "=" ++ lib.quote value ++
      utf8 " conflicts with desired value " ++ lib.quote want.value)

def missingArgs (args : List GoString) : List DesiredArg → Except GoString (List GoString)
  | []           => .ok []
  | want :: rest => do
    let present ← isPresent lib args want
    let missing ← missingArgs args rest
    return (if present then [] else [want.flag, want.value]) ++ missing

def updateArgs (cfg : HiCacheSpec) (args : List GoString) : Except GoString (List GoString) := do
  if hasArg args sglangEnableLMCacheArg ∨ hasArg args sglangConfigFileArg then
    rejected (utf8 "native HiCache conflicts with SGLang LMCache arguments")
  else do
    validateEnableArg args
    rejectRepeatedArg args sglangHiCacheWritePolicyArg
    rejectRepeatedArg args sglangHiCacheIOBackendArg
    rejectRepeatedArg args sglangHiCacheMemoryLayoutArg
    let pool ← desiredPool floats cfg args
    let missing ← missingArgs lib args (pool :: desiredChoices cfg)
    return upsertFlag sglangEnableMetricsArg (upsertFlag sglangEnableHiCacheArg args ++ missing)

def newArgs (pod : PodSpec) (binding : Option Binding) (cache : CacheBackend) :
    Except GoString (Nat × List GoString) :=
  match binding with
  | some b => .error (utf8 "SGLang HiCache adapter does not support remote binding protocol " ++
    lib.quote b.protocol.text)
  | none   => do
    let cfg ← resolveHiCacheConfig lib floats cache
    if pod.containers.length = 0 then rejected (utf8 "pod has no containers")
    else do
      let engineIndex ← engineContainerIndexNamed lib pod sglangEngineContainerName
      let updated ← updateArgs lib floats cfg (PodSpec.args pod engineIndex)
      return (engineIndex, updated)

-- The pod is written at the end, and only if nothing failed.
def injectEngineConfig (pod : PodSpec) (binding : Option Binding) (cache : CacheBackend) :
    Except GoString Unit × PodSpec :=
  match newArgs lib floats pod binding cache with
  | .error err              => (.error err, pod)
  | .ok (engineIndex, args) => (.ok (), PodSpec.modifyEngine pod engineIndex fun c => { c with args := args })

end Inject

def supports (cache : CacheBackend) : Bool :=
  cache.spec.rest.runtime = .sglang ∧ cache.spec.rest.type = .sglangHiCache

def adapter (sidecar : CacheBackend → Pod → Except GoString (Option Container)) : RuntimeAdapter where
  supports := supports
  supportsBinding := Option.isNone
  injectEngineConfig := fun pod binding cache =>
    let (result, pod) := injectEngineConfig lib floats pod binding cache
    result.map fun _ => pod
  observationSidecar := sidecar
  reservedArgs := reservedArgs
  reservedEnv := []
  engineContainerName := sglangEngineContainerName
  validateMPEnginePod := none
  kernelCheckInitContainer := none

end HiCache

end InferenceCache.Adapters
