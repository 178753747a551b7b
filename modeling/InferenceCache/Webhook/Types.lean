import InferenceCache.Lib.Bytes
import InferenceCache.Lib.Range

namespace InferenceCache.Webhook

structure ObjectKey where
  inNamespace : GoString
  name        : GoString
  deriving DecidableEq

namespace ObjectKey

def toLexTuple (k : ObjectKey) : GoString ×ₗ GoString :=
  toLex (k.inNamespace, k.name)

theorem toLexTuple_injective : Function.Injective toLexTuple := by
  intro k k' h
  cases k
  cases k'
  simp only [toLexTuple, toLex_inj, Prod.mk.injEq] at h
  simp [h]

instance : LinearOrder ObjectKey :=
  LinearOrder.lift' toLexTuple toLexTuple_injective

end ObjectKey

structure EngineSelector where
  matchLabels : GoMap GoString GoString

-- What an object is made of apart from its name. `S` is all of it that only concerns rules other than
-- those for selectors.
structure Spec (S : Type) where
  engineSelector : Option EngineSelector
  rest           : S

structure CacheBackend (S : Type) where
  key  : ObjectKey
  spec : Spec S

-- The one label that a selector may be about, which names a cache domain.
def cacheBackendDomainLabel : GoString :=
  utf8 "inferencecache.io/cache-domain"

variable {S : Type}

-- A selector that is absent counts as one without labels.
def Spec.matchLabels (s : Spec S) : GoMap GoString GoString :=
  match s.engineSelector with
  | none     => ∅
  | some sel => sel.matchLabels

-- The domain that a selector names, empty if there is none.
def Spec.domain (s : Spec S) : GoString :=
  (s.matchLabels.lookup cacheBackendDomainLabel).getD []

-- The objects of a cluster. No two of them have the same name in the same namespace.
abbrev Store (S : Type) := GoMap ObjectKey (Spec S)

-- The objects of a namespace, in the order in which the API server returns them.
def Store.list (store : Store S) (order : RangeOrder ObjectKey) (inNamespace : GoString) :
    List (CacheBackend S) :=
  ((order.range store).filter (·.1.inNamespace = inNamespace)).map fun x => ⟨x.1, x.2⟩

-- What the webhooks call to list a namespace. A call may fail.
abbrev Reader (S : Type) := GoString → Except GoString (List (CacheBackend S))

end InferenceCache.Webhook
