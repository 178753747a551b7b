import InferenceCache.Fingerprint.Basic
import InferenceCache.Index.Ingest
import InferenceCache.Index.Lookup
import InferenceCache.Server.Policy
import InferenceCache.Wire

namespace InferenceCache.Server

variable {F : Type}

section Conversion

-- A zero timestamp stands for the time of arrival.
def microsToTime (us : Int) : Time :=
  if us = 0 then 0 else Time.unixMicro us

def tierInvalidCold : CacheTier :=
  Int32.maxValue

-- Tiers to come are kept as they are, while a negative value counts as colder than all of them.
def cacheTierFromProto (t : Int32) : CacheTier :=
  if t = 0 then CacheTier.unspecified
  else if t = 1 then CacheTier.t1
  else if t = 2 then CacheTier.t2
  else if t = 3 then CacheTier.t3
  else if t < 0 then tierInvalidCold
  else t

def prefixRefFromProto (p : Wire.PrefixEntry) : PrefixRef where
  prefixHash := p.prefixHash
  tokenCount := p.tokenCount
  blockHashes := p.blockHashes
  blockTokenCounts := p.blockTokenCounts
  tier := cacheTierFromProto p.tier
  adapter := p.adapterID

-- The replica id of the update is the one to be trusted, not the one in its stats.
def updateFromProto (u : Wire.CacheStateUpdate F) : Update F where
  replicaID := u.replicaID
  model := u.modelID
  tenant := u.tenantID
  hashScheme := u.hashScheme
  adapter := u.adapterID
  timestamp := microsToTime u.timestampUs
  prefixes := u.prefixes.map prefixRefFromProto
  stats := u.stats.map fun st => {
    replicaID := u.replicaID
    cacheMemoryBytes := st.cacheMemoryBytes
    hitRate := st.hitRate
    pressure := st.pressure
    t2HitTokens := st.t2HitTokens
    t2QueryTokens := st.t2QueryTokens }

def eventTypeFromProto (t : Int32) : Option EventType :=
  if t = Wire.CacheEvent.typePrefixAdded then some .prefixAdded
  else if t = Wire.CacheEvent.typePrefixEvicted then some .prefixEvicted
  else if t = Wire.CacheEvent.typeReplicaUpdated then some .replicaUpdated
  else if t = Wire.CacheEvent.typeAllCleared then some .allCleared
  else none

def eventFromProto (type : EventType) (ev : Wire.CacheEvent) : Event where
  type := type
  replicaID := ev.replicaID
  model := ev.modelID
  tenant := ev.tenantID
  prefixHash := ev.prefixHash
  adapter := ev.adapterID
  timestamp := microsToTime ev.timestampUs

end Conversion

section Reports

variable [GoFloat F] (cfg : Config F) (i : Index F) (env : Env)

def reportCacheState (u : Wire.CacheStateUpdate F) : Index F :=
  if u.tenantID = probeTenantID then i else i.ingest cfg env (updateFromProto u)

omit [GoFloat F] in
def publishEvent (ev : Wire.CacheEvent) : Index F :=
  if ev.tenantID = probeTenantID then i else
    match eventTypeFromProto ev.type with
    | some type => i.applyEvent cfg env (eventFromProto type ev)
    | none      => i

def serve : Wire.Rpc F → Index F
  | .reportCacheState u => reportCacheState cfg i env u
  | .publishEvent ev    => publishEvent cfg i env ev

end Reports

section Resolution

def maxLookupTokens : Nat := 2 ^ 20

def maxPromptTextBytes : Nat := 2 ^ 20

-- The settings and the parts of the service that a lookup depends on. A tokenizer yields the tokens
-- of a prompt for a model, or fails.
structure Service where
  blockSize     : Int
  encode        : GoString → GoString → Option (List UInt32)
  blockSize_pos : 0 < blockSize

structure LookupInputs where
  blockHashes      : List Bytes := []
  blockTokenCounts : List Int32 := []
  exactPrefixHash  : Bytes := []
  exactTokenCount  : Int32 := 0
  echoTokens       : List UInt32 := []
  failOpen         : Bool := false

variable (s : Service) (hashSeed : Bytes → UInt64 → UInt64)

def sumBlockTokenCounts (counts : List Int32) : Int32 :=
  counts.foldl (· + ·) 0

-- The inputs for a list of tokens, unless it is shorter than a block.
def inputsOfTokens (toks : List UInt32) (chainMatchingEnabled : Bool) : Option LookupInputs :=
  let ch := Fingerprint.chain hashSeed toks s.blockSize
  if ch.1.length = 0 then none else
    some {
      blockHashes      := if chainMatchingEnabled then ch.1 else []
      blockTokenCounts := if chainMatchingEnabled then ch.2 else []
      exactPrefixHash  := ch.1.getLastD []
      exactTokenCount  := sumBlockTokenCounts ch.2 }

-- Hashes that are given win over tokens, and tokens over a prompt. `slotFree` tells whether the
-- tokenizer has room for one more call.
def resolveLookupChain (slotFree : Bool) (req : Wire.LookupRouteRequest) (chainMatchingEnabled : Bool) :
    LookupInputs :=
  let exact : LookupInputs :=
    { exactPrefixHash := req.prefixHash, exactTokenCount := req.prefixTokenCount }
  if !chainMatchingEnabled ∧ 0 < req.prefixHash.length then exact else
    let ignoredChain : Bool :=
      !chainMatchingEnabled ∧ (0 < req.blockHashes.length ∨ 0 < req.blockTokenCounts.length)
    let bh  := if ignoredChain then [] else req.blockHashes
    let btc := if ignoredChain then [] else req.blockTokenCounts
    if 0 < bh.length ∨ 0 < btc.length ∨ 0 < req.prefixHash.length then
      if bh.length ≠ btc.length then { failOpen := true }
      else { exact with blockHashes := bh, blockTokenCounts := btc }
    else if 0 < req.tokenIDs.length then
      if maxLookupTokens < req.tokenIDs.length then { failOpen := true }
      else (inputsOfTokens s hashSeed req.tokenIDs chainMatchingEnabled).getD { failOpen := true }
    else if 0 < req.promptText.length then
      if maxPromptTextBytes < req.promptText.length then { failOpen := true }
      else if !slotFree then { failOpen := true }
      else
        match s.encode req.modelID req.promptText with
        | none      => { failOpen := true }
        | some toks =>
          if toks.length = 0 ∨ maxLookupTokens < toks.length then { failOpen := true }
          -- A caller without a tokenizer needs the tokens even if they are too few for a hint.
          else { (inputsOfTokens s hashSeed toks chainMatchingEnabled).getD { failOpen := true } with
            echoTokens := toks }
    else if ignoredChain then { failOpen := true }
    else exact

def lookupRequest (req : Wire.LookupRouteRequest) (inputs : LookupInputs)
    (chainMatchingEnabled : Bool) : LookupRequest where
  model := req.modelID
  tenant := req.tenantID
  hashScheme := req.hashScheme
  adapter := req.adapterID
  prefixHash := inputs.exactPrefixHash
  blockHashes := if chainMatchingEnabled then inputs.blockHashes else []
  blockTokenCounts := if chainMatchingEnabled then inputs.blockTokenCounts else []
  ttftBudgetMs := (req.slo.map Wire.SLO.ttftMs).getD 0

-- What the index yields for a request, which is nothing where the service fails open before.
def lookup [GoFloat F] (cfg : Config F) (i : Index F) (env : Env) (slotFree : Bool)
    (req : Wire.LookupRouteRequest) (chainMatchingEnabled : Bool) : List (ReplicaScore F) :=
  let inputs := resolveLookupChain s hashSeed slotFree req chainMatchingEnabled
  if inputs.failOpen then [] else i.lookup cfg env (lookupRequest req inputs chainMatchingEnabled)

end Resolution

end InferenceCache.Server
