import InferenceCache.Index.Types

namespace InferenceCache

variable (F : Type)

-- One ranked hint. The tier is the one the replica can serve the whole matched prefix from.
structure ReplicaScore where
  replicaID             : GoString
  score                 : F
  matchedTokens         : Int32
  estimatedCacheHitProb : F
  tier                  : CacheTier
  deriving DecidableEq

variable {F}

open FloatFormat GoFloat

-- The colder of two tiers. An unknown tier makes the result unknown.
def worstTier (a b : CacheTier) : CacheTier :=
  if a = CacheTier.unspecified ∨ b = CacheTier.unspecified then CacheTier.unspecified
  else if b < a then a
  else b

namespace ReplicaScore

variable [GoFloat F]

def scale (f : F) (s : ReplicaScore F) : ReplicaScore F :=
  { s with score := s.score * f }

-- The order of the results: higher scores first, ties by replica.
def before (a b : ReplicaScore F) : Bool :=
  if !eq a.score b.score then lt b.score a.score else a.replicaID < b.replicaID

def deeper (a b : ReplicaScore F) : Bool :=
  if a.matchedTokens ≠ b.matchedTokens then b.matchedTokens < a.matchedTokens
  else a.replicaID < b.replicaID

end ReplicaScore

section

variable [GoFloat F]

def sortScoresDescByScoreThenID (scores : List (ReplicaScore F)) : List (ReplicaScore F) :=
  sortSlice ReplicaScore.before scores

-- Linear decay from 1 (just seen) to 0 (as old as the TTL or older).
def freshnessAt (now lastSeen : Time) (ttl : Duration) : F :=
  let age := Time.sub now lastSeen
  if ttl ≤ 0 then 0
  else if age ≤ 0 then 1
  else if ttl ≤ age then 0
  else narrow (1 - ofInt age / ofInt ttl)

def pressureFactorAt (pressure weight : F) : F :=
  let f := 1 - weight * pressure
  if lt f 0 then 0 else if lt 1 f then 1 else f

-- The share of the replicas that do not hold a match. It is 1 where there is nothing to tell apart.
def distinguishingPower (F : Type) [GoFloat F] (matching total : Int) : Double F :=
  if total ≤ 1 ∨ matching < 0 then 1
  else if total ≤ matching then 0
  else 1 - ofInt matching / ofInt total

def sloTightBiasCoefficient (cfg : Config F) (ttftMs : Int32) : F :=
  if cfg.ranker.sloTightTTFTMs ≤ 0 ∨ le cfg.ranker.sloTightBias 0 then 0
  else if ttftMs ≤ 0 ∨ cfg.ranker.sloTightTTFTMs ≤ ttftMs then 0
  else cfg.ranker.sloTightBias

-- Each group is followed only by shallower ones, so `left` plus its length is the number of replicas
-- that got as deep.
def scaleGroups (totalReplicas : Int) : Nat → List (List (ReplicaScore F)) → List (ReplicaScore F)
  | _,    []          => []
  | left, group :: gs =>
    let right := left + group.length
    let dp    := distinguishingPower F right totalReplicas
    (if !eq dp 1 then group.map (·.scale (narrow dp)) else group) ++ scaleGroups totalReplicas right gs

def applyChainDistinguishingPower (scores : List (ReplicaScore F)) (totalReplicas : Int) :
    List (ReplicaScore F) :=
  if totalReplicas ≤ 1 ∨ scores.length = 0 then scores else
    scaleGroups totalReplicas 0 <|
      (sortSlice ReplicaScore.deeper scores).splitBy fun a b => a.matchedTokens == b.matchedTokens

end

end InferenceCache
