import InferenceCache.Lib.Selection
import InferenceCache.Webhook.Types

namespace InferenceCache.Webhook

section Errors

inductive ErrorType
  | notFound
  | required
  | duplicate
  | invalid
  | notSupported
  | forbidden
  | tooLong
  | tooMany
  | internal
  | typeInvalid
  deriving DecidableEq

-- A violation of a rule, with the bad value as it is printed.
structure FieldError where
  type     : ErrorType
  field    : GoString
  badValue : GoString
  detail   : GoString
  deriving DecidableEq

namespace FieldError

def required (field detail : GoString) : FieldError :=
  ⟨.required, field, [], detail⟩

def invalid (field value detail : GoString) : FieldError :=
  ⟨.invalid, field, value, detail⟩

def forbidden (field detail : GoString) : FieldError :=
  ⟨.forbidden, field, [], detail⟩

end FieldError

-- Only violations that were not there before. Two of them are the same if they agree in all fields.
def filterIntroducedErrors (oldErrs newErrs : List FieldError) : List FieldError :=
  newErrs.filter (· ∉ oldErrs)

inductive Rejection
  | listing (message : GoString)
  | invalid (name : GoString) (errs : List FieldError)
  deriving DecidableEq

end Errors

variable {S : Type}

abbrev ValidationRule (S : Type) := CacheBackend S → List FieldError

-- Functions of Kubernetes and of the standard library: the problems with a label value, and `%q`.
structure Library where
  isValidLabelValue : GoString → List GoString
  quote             : GoString → GoString

-- If there are no `rules`, then the default ones apply, of which `otherRules` are all but the first.
-- The checks of the runtime adapter and of the overrides depend on the registry.
structure Validator (S : Type) where
  library              : Library
  rules                : List (ValidationRule S)
  otherRules           : List (ValidationRule S)
  checkRuntimeAdapter  : ValidationRule S
  checkEngineOverrides : ValidationRule S
  reader               : Option (Reader S)

section Domain

def matchLabelsPath : GoString :=
  utf8 "spec.engineSelector.matchLabels"

def domainPath : GoString :=
  matchLabelsPath ++ utf8 "[" ++ cacheBackendDomainLabel ++ utf8 "]"

-- Either there is no selector, or it is for one value of the domain label and nothing else.
def validateEngineSelectorDomain (lib : Library) (cb : CacheBackend S) : List FieldError :=
  let labels := cb.spec.matchLabels
  let missing := FieldError.required domainPath
    (utf8 "every non-empty engineSelector must declare one cache compatibility domain")
  if labels.len = 0 then [] else
    match labels.lookup cacheBackendDomainLabel with
    | none        => [missing]
    | some domain =>
      if domain = [] then [missing] else
        match lib.isValidLabelValue domain with
        | problem :: _ => [.invalid domainPath domain problem]
        | [] =>
          if labels.len ≠ 1 then
            [.forbidden matchLabelsPath (utf8 "must contain only " ++ lib.quote cacheBackendDomainLabel ++
              utf8 "; engine Pods may carry other labels, but they do not define CacheBackend ownership")]
          else []

-- The loop over the other objects of the namespace, which stops at the first that has the same domain.
def firstOverlap (lib : Library) (cb : CacheBackend S) : List (CacheBackend S) → List FieldError
  | []                => []
  | other :: siblings =>
    if other.key.name = cb.key.name ∨ other.spec.matchLabels.len = 0 then firstOverlap lib cb siblings
    else if cb.spec.domain ≠ [] ∧ cb.spec.domain = other.spec.domain then
      [.forbidden domainPath (utf8 "cache domain " ++ lib.quote cb.spec.domain ++
        utf8 " is already owned by CacheBackend " ++ lib.quote other.key.name ++
        utf8 " in namespace " ++ lib.quote cb.key.inNamespace)]
    else firstOverlap lib cb siblings

end Domain

def lessByName (a b : CacheBackend S) : Bool :=
  a.key.name < b.key.name

namespace Validator

variable (v : Validator S)

def defaultValidationRules : List (ValidationRule S) :=
  validateEngineSelectorDomain v.library :: v.otherRules

def collectErrors (cb : CacheBackend S) : List FieldError :=
  let rules := if v.rules.length = 0 then v.defaultValidationRules else v.rules
  rules.flatMap (· cb) ++ v.checkRuntimeAdapter cb ++ v.checkEngineOverrides cb

def checkOverlappingEngineSelectors (cb : CacheBackend S) : Except GoString (List FieldError) :=
  if cb.spec.matchLabels.len = 0 then .ok [] else
    match v.reader with
    | none      => .ok []
    | some read =>
      match read cb.key.inNamespace with
      | .error err   => .error (utf8 "listing CacheBackends in namespace " ++
        v.library.quote cb.key.inNamespace ++ utf8 " for engineSelector overlap: " ++ err)
      | .ok siblings => .ok (firstOverlap v.library cb (sortSlice lessByName siblings))

def invalidCacheBackend (cb : CacheBackend S) (errs : List FieldError) : Except Rejection Unit :=
  if errs.length = 0 then .ok () else .error (.invalid cb.key.name errs)

def validateCreate (cb : CacheBackend S) : Except Rejection Unit :=
  let errs := v.collectErrors cb
  match v.checkOverlappingEngineSelectors cb with
  | .error err       => .error (.listing err)
  | .ok selectorErrs => invalidCacheBackend cb (errs ++ selectorErrs)

-- Violations that the old object had already are tolerated, except for those that concern the ownership
-- of engines.
def validateUpdate (oldCB newCB : CacheBackend S) : Except Rejection Unit :=
  let newErrs := v.collectErrors newCB
  match v.checkOverlappingEngineSelectors newCB with
  | .error err          => .error (.listing err)
  | .ok newSelectorErrs =>
    if newErrs.length = 0 ∧ newSelectorErrs.length = 0 then .ok () else
      let oldErrs := v.collectErrors oldCB
      let introduced := filterIntroducedErrors oldErrs newErrs
      let introduced := introduced ++
        filterIntroducedErrors introduced (validateEngineSelectorDomain v.library newCB)
      let introduced := introduced ++ newSelectorErrs
      if introduced.length = 0 then .ok () else .error (.invalid newCB.key.name introduced)

def validateDelete (_ : CacheBackend S) : Except Rejection Unit :=
  .ok ()

-- The validator as it is set up for a manager: with the default rules, and the API server to read from.
def setup (read : Reader S) : Validator S :=
  { v with rules := [], reader := some read }

end Validator

section Requests

inductive Change (S : Type)
  | create (cb : CacheBackend S)
  | update (cb : CacheBackend S)
  | delete (key : ObjectKey)

-- What the API server stores. The webhook sees all objects that are stored at this moment.
inductive Admits (v : Validator S) (store : Store S) : Change S → Store S → Prop
  | create {cb : CacheBackend S} (order : RangeOrder ObjectKey) (hn : store.lookup cb.key = none)
    (ha : (v.setup fun ns => .ok (store.list order ns)).validateCreate cb = .ok ()) :
    Admits v store (.create cb) (store.insert cb.key cb.spec)
  | update {cb : CacheBackend S} {old : Spec S} (order : RangeOrder ObjectKey)
    (ho : store.lookup cb.key = some old)
    (ha : (v.setup fun ns => .ok (store.list order ns)).validateUpdate ⟨cb.key, old⟩ cb = .ok ()) :
    Admits v store (.update cb) (store.insert cb.key cb.spec)
  | delete {key : ObjectKey} {old : Spec S} (ho : store.lookup key = some old)
    (ha : Validator.validateDelete (CacheBackend.mk key old) = .ok ()) :
    Admits v store (.delete key) (store.erase key)

end Requests

end InferenceCache.Webhook
