import InferenceCache.Lib.Range
import InferenceCache.Lib.Tally
import InferenceCache.Lib.Selection
import InferenceCache.Lib.Bytes
import InferenceCache.Lib.Scalars

namespace InferenceCache

-- The key an entry is stored under. The content hash covers token ids alone, so the adapter is part
-- of the key.
@[ext]
structure PrefixKey where
  tenant     : GoString
  model      : GoString
  hashScheme : GoString
  adapter    : GoString
  prefixHash : GoString
  deriving DecidableEq

structure StatsKey where
  tenant    : GoString
  model     : GoString
  replicaID : GoString
  deriving DecidableEq

structure ModelKey where
  tenant : GoString
  model  : GoString
  deriving DecidableEq

-- An engine domain. The adapter is left out on purpose: which replicas serve a domain is a question
-- about replicas, not about cache content.
structure ScopeKey where
  tenant     : GoString
  model      : GoString
  hashScheme : GoString
  deriving DecidableEq

namespace PrefixKey

def modelKey (key : PrefixKey) : ModelKey :=
  ⟨key.tenant, key.model⟩

def scopeKey (key : PrefixKey) : ScopeKey :=
  ⟨key.tenant, key.model, key.hashScheme⟩

def toLexTuple (key : PrefixKey) : GoString ×ₗ GoString ×ₗ GoString ×ₗ GoString ×ₗ GoString :=
  toLex (key.tenant, toLex (key.model, toLex (key.hashScheme, toLex (key.adapter, key.prefixHash))))

theorem toLexTuple_injective : Function.Injective toLexTuple := by
  intro k₁ k₂ h
  simp only [toLexTuple, EmbeddingLike.apply_eq_iff_eq, Prod.mk.injEq] at h
  exact PrefixKey.ext h.1 h.2.1 h.2.2.1 h.2.2.2.1 h.2.2.2.2

-- Keys compare field by field, in the order of the fields.
instance : LinearOrder PrefixKey :=
  LinearOrder.lift' toLexTuple toLexTuple_injective

end PrefixKey

namespace StatsKey

def modelKey (sk : StatsKey) : ModelKey :=
  ⟨sk.tenant, sk.model⟩

def toLexTuple (sk : StatsKey) : GoString ×ₗ GoString ×ₗ GoString :=
  toLex (sk.tenant, toLex (sk.model, sk.replicaID))

theorem toLexTuple_injective : Function.Injective toLexTuple := by
  intro ⟨_, _, _⟩ ⟨_, _, _⟩ h
  simp only [toLexTuple, EmbeddingLike.apply_eq_iff_eq, Prod.mk.injEq] at h
  simp [h]

instance : LinearOrder StatsKey :=
  LinearOrder.lift' toLexTuple toLexTuple_injective

end StatsKey

-- The tier a replica holds a prefix in. The wire enum is open, so values beyond the known ones occur.
abbrev CacheTier := Int32

namespace CacheTier

def unspecified : CacheTier := 0
def t1 : CacheTier := 1
def t2 : CacheTier := 2
def t3 : CacheTier := 3

end CacheTier

-- The counter starts at zero and grows by one for each block that is delivered, so that its 64 bits do not
-- run out.
structure ReplicaEntry where
  tokenCount  : Int32
  lastSeen    : Time
  tier        : CacheTier
  accessCount : Int
  deriving DecidableEq

variable (F : Type)

structure ReplicaStats where
  replicaID        : GoString
  cacheMemoryBytes : Int
  hitRate          : F
  pressure         : F
  t2HitTokens      : Int
  t2QueryTokens    : Int
  deriving DecidableEq

-- `lastSeen` is refreshed by every sign of life, `statsReported` only by a report of the values.
structure StatEntry where
  stats         : ReplicaStats F
  lastSeen      : Time
  statsReported : Time
  deriving DecidableEq

structure PrefixRef where
  prefixHash       : Bytes
  tokenCount       : Int32
  blockHashes      : List Bytes
  blockTokenCounts : List Int32
  tier             : CacheTier
  adapter          : GoString

structure Update where
  replicaID  : GoString
  model      : GoString
  tenant     : GoString
  hashScheme : GoString
  adapter    : GoString
  timestamp  : Time
  prefixes   : List PrefixRef
  stats      : Option (ReplicaStats F)

inductive EventType
  | prefixAdded
  | prefixEvicted
  | replicaUpdated
  | allCleared
  deriving DecidableEq

structure Event where
  type       : EventType
  replicaID  : GoString
  model      : GoString
  tenant     : GoString
  prefixHash : Bytes
  adapter    : GoString
  timestamp  : Time

inductive EvictionAlgo
  | lru
  | lfu
  deriving DecidableEq

structure RankerConfig where
  pressureWeight      : F
  sloTightTTFTMs      : Int32
  sloTightBias        : F
  tenantHotMinHitRate : F
  tenantHotMaxAge     : Duration

-- What is fixed when an index is built. A TTL that is not positive is replaced then, see `new`.
structure Config where
  ttl             : Duration
  maxEntries      : Int
  ranker          : RankerConfig F
  reservedTenants : Finset GoString
  ttl_pos         : 0 < ttl

-- The orders in which one `range` statement of a call visits its map, by the map it ranges over.
structure MapOrders where
  prefixes : RangeOrder PrefixKey
  replicas : PrefixKey → RangeOrder GoString
  stats    : RangeOrder StatsKey
  ids      : RangeOrder GoString

-- What one call reads from outside the index: the clock (by number of the reading), the answers the
-- resolvers give during the call, and the iteration orders (by number of the `range` statement).
structure Env where
  now              : Nat → Time
  ttlResolver      : Option (GoString → Duration)
  quotaResolver    : Option (GoString → Option Int)
  evictionResolver : Option (GoString → GoString)
  order            : Nat → MapOrders

variable {F}

def RankerConfig.default [FloatFormat F] : RankerConfig F where
  pressureWeight := 1
  sloTightTTFTMs := 200
  sloTightBias := 1
  -- The constant 0.1, which a correctly rounded division yields as well.
  tenantHotMinHitRate := FloatFormat.ofInt 1 / FloatFormat.ofInt 10
  tenantHotMaxAge := 5 * 60 * 10 ^ 9

namespace Config

def defaultTTL : Duration := 30 * 60 * 10 ^ 9

-- The part of `New` that concerns the configuration, with the empty tenant id never reserved.
def new (ttl : Duration) (maxEntries : Int) (ranker : RankerConfig F) (reserved : List GoString) :
    Config F where
  ttl := if ttl ≤ 0 then defaultTTL else ttl
  maxEntries := maxEntries
  ranker := ranker
  reservedTenants := (reserved.filter (· ≠ [])).toFinset
  ttl_pos := by
    split
    case isTrue    => decide
    case isFalse h => exact not_le.mp h

def isReservedTenant (cfg : Config F) (tenant : GoString) : Bool :=
  tenant ∈ cfg.reservedTenants

def ttlFor (cfg : Config F) (env : Env) (tenant : GoString) : Duration :=
  match env.ttlResolver with
  | some ttl => if 0 < ttl tenant then ttl tenant else cfg.ttl
  | none     => cfg.ttl

theorem ttlFor_pos {cfg : Config F} {env : Env} {tenant : GoString} : 0 < cfg.ttlFor env tenant := by
  unfold ttlFor
  split
  case h_2 => exact cfg.ttl_pos
  case h_1 =>
    split
    case isTrue h => exact h
    case isFalse => exact cfg.ttl_pos

end Config

namespace Env

-- Surroundings with a clock that stands still, no resolver, and maps visited in ascending order.
def still (now : Time) : Env where
  now _            := now
  ttlResolver      := none
  quotaResolver    := none
  evictionResolver := none
  order _          := ⟨.ascending, fun _ => .ascending, .ascending, .ascending⟩

def lfuName : GoString := [0x6c, 0x66, 0x75]

-- No letter outside ASCII has one of the letters of `lfuName` as its lower case.
def toLower (s : GoString) : GoString :=
  s.map fun c => if 0x41 ≤ c ∧ c ≤ 0x5a then c + 0x20 else c

def evictionFor (env : Env) (tenant : GoString) : EvictionAlgo :=
  match env.evictionResolver with
  | some eviction => if toLower (eviction tenant) = lfuName then .lfu else .lru
  | none          => .lru

def tenantQuotaFor (env : Env) (tenant : GoString) : Option Int :=
  match env.quotaResolver with
  | some quota => quota tenant
  | none       => none

end Env

end InferenceCache
