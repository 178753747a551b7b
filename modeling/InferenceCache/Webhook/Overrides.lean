import InferenceCache.Api.Types
import InferenceCache.Lib.Flags

-- How the overrides of a backend are merged into what an adapter has injected into an engine.
namespace InferenceCache.Webhook

open Kube Api

section Owners

-- Who owns a flag or a variable: the adapter, if it has added or changed it, or else the template of the
-- pod, if it was there before.
structure Owners where
  adapter : GoString → Bool
  user    : GoString → Bool

def classify [DecidableEq V] (pre post : GoMap GoString V) : Owners where
  adapter k := changed k
  user k    := (pre.lookup k).isSome ∧ ¬changed k
where
  changed (k : GoString) : Bool :=
    match post.lookup k with
    | none   => false
    | some v => pre.lookup k ≠ some v

-- What the adapter owns is replaced, or added if it is suppressed. What the template owns is kept.
def override (key : α → GoString) (owners : Owners) (l : List α) (ovr : α) : List α :=
  if owners.adapter (key ovr) then Keyed.upsert key ovr l
  else if owners.user (key ovr) then l
  else l ++ [ovr]

end Owners

section Args

def argFlagToken (arg : GoString) : GoString :=
  if ¬arg.hasPrefix (utf8 "-") then [] else
    match arg.cut 0x3d with
    | some (flag, _) => flag
    | none           => arg

def takesNext (arg : GoString) (next : Option GoString) : Bool :=
  0x3d ∉ arg ∧ next.any (¬·.hasPrefix (utf8 "-"))

-- In these loops, `skip` says that the argument has been read with the one before it.
def argsByFlag (skip : Bool) (out : GoMap GoString GoString) : List GoString → GoMap GoString GoString
  | []          => out
  | arg :: args =>
    let token := argFlagToken arg
    if skip then argsByFlag false out args
    else if token = [] then argsByFlag false out args
    else if 0x3d ∈ arg then argsByFlag false (out.insert token (arg.drop (token.length + 1))) args
    else if takesNext arg args.head? then argsByFlag true (out.insert token (args.headD [])) args
    else argsByFlag false (out.insert token []) args

def classifyArgFlags (pre post : List GoString) : Owners :=
  classify (argsByFlag false ∅ pre) (argsByFlag false ∅ post)

def suppressArgs (skip : Bool) (drop : GoString → Bool) : List GoString → List GoString
  | []          => []
  | arg :: args =>
    if skip then suppressArgs false drop args
    else if argFlagToken arg ≠ [] ∧ drop (argFlagToken arg) then
      suppressArgs (takesNext arg args.head?) drop args
    else arg :: suppressArgs false drop args

-- The first entry of a flag is replaced, with the next argument if that is its value.
def replaceArgFlag (flag : GoString) (replacement : List GoString) : List GoString → List GoString
  | []          => replacement
  | arg :: args =>
    if argFlagToken arg ≠ flag then arg :: replaceArgFlag flag replacement args
    else replacement ++ if takesNext arg args.head? then args.drop 1 else args

def overrideArg (owners : Owners) (args : List GoString) (token : GoString) (replacement : List GoString) :
    List GoString :=
  if token = [] then args ++ replacement
  else if owners.adapter token then replaceArgFlag token replacement args
  else if owners.user token then args
  else args ++ replacement

def overrideArgs (skip : Bool) (owners : Owners) (args : List GoString) : List GoString → List GoString
  | []                 => args
  | entry :: overrides =>
    let token := argFlagToken entry
    if skip then overrideArgs false owners args overrides
    else if token ≠ [] ∧ takesNext entry overrides.head? then
      overrideArgs true owners (overrideArg owners args token [entry, overrides.headD []]) overrides
    else overrideArgs false owners (overrideArg owners args token [entry]) overrides

end Args

section Env

def envByName (env : List EnvVar) : GoMap GoString EnvVar :=
  env.foldl (fun out e => out.insert e.name e) ∅

def classifyEnvNames (pre post : List EnvVar) : Owners :=
  classify (envByName pre) (envByName post)

def suppressEnv (drop : GoString → Bool) (env : List EnvVar) : List EnvVar :=
  env.filter fun e => ¬drop e.name

def overrideEnv (owners : Owners) (env overrides : List EnvVar) : List EnvVar :=
  overrides.foldl (override EnvVar.name owners) env

end Env

-- Only what the adapter owns is suppressed.
def Owners.drop (owners : Owners) (suppress : List GoString) (k : GoString) : Bool :=
  k ∈ suppress ∧ owners.adapter k

def mergeArgs (pre post : List GoString) (overrides : EngineInjectionOverrides) : List GoString :=
  let owners := classifyArgFlags pre post
  overrideArgs false owners (suppressArgs false (owners.drop overrides.suppressArgs) post) overrides.args

def mergeEnv (pre post : List EnvVar) (overrides : EngineInjectionOverrides) : List EnvVar :=
  let owners := classifyEnvNames pre post
  overrideEnv owners (suppressEnv (owners.drop overrides.suppressEnv) post) overrides.env

def applyEngineInjectionOverrides (preArgs postArgs : List GoString) (preEnv postEnv : List EnvVar)
    (overrides : Option EngineInjectionOverrides) : List GoString × List EnvVar :=
  match overrides with
  | none   => (postArgs, postEnv)
  | some o => (mergeArgs preArgs postArgs o, mergeEnv preEnv postEnv o)

def engineOverridesFor (cache : Api.CacheBackend) : Option EngineInjectionOverrides :=
  cache.spec.rest.integration.bind (·.engineOverrides)

-- An adapter without a container of its own has the empty name.
def overrideTargetIndex (containers : List Container) (engineContainerName : GoString) : Option Nat :=
  if engineContainerName = [] then none else
    match containers.findIdx? (·.name = engineContainerName) with
    | some i => some i
    | none   => if containers.length = 1 then some 0 else none

end InferenceCache.Webhook
