import InferenceCache.Index.Types

-- The messages of the gRPC contract that the modelled code exchanges. An absent field reads as its
-- zero value, and a tier or an event type may have any value at all.
namespace InferenceCache.Wire

structure PrefixEntry where
  prefixHash       : Bytes
  tokenCount       : Int32
  blockHashes      : List Bytes
  blockTokenCounts : List Int32
  tier             : Int32
  adapterID        : GoString
  deriving DecidableEq

namespace CacheTier

def unspecified : Int32 := 0
def t1 : Int32 := 1
def t2 : Int32 := 2
def t3 : Int32 := 3

end CacheTier

structure ReplicaStats (F : Type) where
  replicaID        : GoString
  cacheMemoryBytes : Int
  hitRate          : F
  pressure         : F
  t2HitTokens      : Int
  t2QueryTokens    : Int

structure CacheStateUpdate (F : Type) where
  replicaID   : GoString
  modelID     : GoString
  tenantID    : GoString
  hashScheme  : GoString
  adapterID   : GoString
  timestampUs : Int
  prefixes    : List PrefixEntry
  stats       : Option (ReplicaStats F)

structure CacheEvent where
  type        : Int32
  replicaID   : GoString
  modelID     : GoString
  tenantID    : GoString
  prefixHash  : Bytes
  adapterID   : GoString
  timestampUs : Int

namespace CacheEvent

def typePrefixAdded : Int32 := 1
def typePrefixEvicted : Int32 := 2
def typeReplicaUpdated : Int32 := 3
def typeAllCleared : Int32 := 4

end CacheEvent

structure SLO where
  ttftMs : Int32
  tbtMs  : Int32

structure LookupRouteRequest where
  modelID          : GoString
  tenantID         : GoString
  hashScheme       : GoString
  adapterID        : GoString := []
  prefixHash       : Bytes := []
  prefixTokenCount : Int32 := 0
  blockHashes      : List Bytes := []
  blockTokenCounts : List Int32 := []
  tokenIDs         : List UInt32 := []
  promptText       : GoString := []
  slo              : Option SLO := none

-- Why a lookup is answered the way it is. Only the first three come with replicas.
inductive ReasonCode
  | prefixMatch
  | tenantHot
  | affinityHint
  | noHint
  | timeout
  | policyRequiresChain
  | unknownTenant
  | unknownModel
  | unknownHashScheme
  deriving DecidableEq

structure ReplicaScore (F : Type) where
  replicaID             : GoString
  score                 : F
  matchedTokens         : Int32
  estimatedCacheHitProb : F
  tier                  : Int32
  deriving DecidableEq

structure LookupRouteResponse (F : Type) where
  reasonCode      : ReasonCode
  replicaScores   : List (ReplicaScore F) := []
  tokenIDs        : List UInt32 := []
  adapterID       : GoString := []
  lookupLatencyUs : Int := 0

-- The two calls by which a replica's state reaches the server. A report is a stream, but each stream
-- carries one message.
inductive Rpc (F : Type)
  | reportCacheState (u : CacheStateUpdate F)
  | publishEvent (ev : CacheEvent)

end InferenceCache.Wire
