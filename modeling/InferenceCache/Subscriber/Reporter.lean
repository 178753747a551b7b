import InferenceCache.Lib.Runs
import InferenceCache.Subscriber.Positional

namespace InferenceCache.Subscriber

-- The identity that is stamped onto every report of a replica. The engine's adapter ids only have a
-- meaning on the replica itself, so they are mapped to names.
structure Config where
  replicaID    : GoString
  modelID      : GoString
  tenantID     : GoString
  hashScheme   : GoString
  adapterNames : GoMap Int GoString

variable {F : Type}

-- Seconds as the engine reports them, to microseconds. What is not positive stands for the time of
-- arrival.
def microsFromSeconds [GoFloat F] (s : GoFloat.Double F) : Int :=
  if FloatFormat.le s 0 then 0 else GoFloat.truncate (s * FloatFormat.ofInt (10 ^ 6))

namespace Config

variable (c : Config)

-- An id without a name is refused, while no id stands for the base model.
def adapterID : Option Int → Option GoString
  | none    => some []
  | some id =>
    match c.adapterNames.lookup id with
    | some name => if name ≠ [] then some name else none
    | none      => none

def validate : Except String Unit :=
  if c.replicaID = [] then .error "engine config: ReplicaID is required"
  else if c.modelID = [] then .error "engine config: ModelID is required"
  else if c.hashScheme = [] then
    .error "engine config: HashScheme is required (an empty scheme is dropped server-side)"
  else .ok ()

-- Adapters are stamped onto the single entries, since one update may have entries of several.
def update (tsUs : Int) (prefixes : List Wire.PrefixEntry) : Option (Wire.CacheStateUpdate F) :=
  if prefixes.length = 0 then none else
    some {
      replicaID := c.replicaID
      modelID := c.modelID
      tenantID := c.tenantID
      hashScheme := c.hashScheme
      adapterID := []
      timestampUs := tsUs
      prefixes := prefixes
      stats := none }

variable [GoFloat F]

def clearedEvent (tsSeconds : GoFloat.Double F) : Wire.CacheEvent where
  type        := Wire.CacheEvent.typeAllCleared
  replicaID   := c.replicaID
  modelID     := c.modelID
  tenantID    := c.tenantID
  prefixHash  := []
  adapterID   := []
  timestampUs := microsFromSeconds tsSeconds

def evictedEvent (prefixHash : Bytes) (adapterID : GoString) (tsSeconds : GoFloat.Double F) :
    Wire.CacheEvent where
  type        := Wire.CacheEvent.typePrefixEvicted
  replicaID   := c.replicaID
  modelID     := c.modelID
  tenantID    := c.tenantID
  prefixHash  := prefixHash
  adapterID   := adapterID
  timestampUs := microsFromSeconds tsSeconds

end Config

structure EventBatch (F : Type) [GoFloat F] where
  timestampSeconds : GoFloat.Double F
  events           : List Event

-- What the loop waits for: the next batch of events, or the end of the flush window.
inductive Input (F : Type) [GoFloat F]
  | batch (b : EventBatch F)
  | tick

structure Reporter where
  cfg           : Config
  maxPend       : Int
  l2TierPresent : Bool

namespace Reporter

-- The variables of the loop, and the index that it owns.
structure State where
  pos     : PositionalIndex
  pending : List Wire.PrefixEntry
  pendTs  : Int

def State.init : State :=
  ⟨.new, [], 0⟩

variable (r : Reporter)

-- All callers have prefixes to send.
def sendAdds (prefixes : List Wire.PrefixEntry) (tsUs : Int) : List (Wire.Rpc F) :=
  (r.cfg.update tsUs prefixes).toList.map .reportCacheState

def flush (s : State) : List (Wire.Rpc F) × State :=
  if s.pending.length = 0 then ([], s) else
    (r.sendAdds s.pending s.pendTs, { s with pending := [], pendTs := 0 })

-- A block that has left the engine's own cache but is still held further down.
def downgrade (ep : EvictedPrefix) : Wire.PrefixEntry :=
  ⟨ep.prefixHash, ep.tokenCount, [], [], Wire.CacheTier.t2, ep.adapterID⟩

section Run

variable (hashSeed : Bytes → UInt64 → UInt64)

def onStored (tsUs : Int) (s : State) (ev : BlockStored) : List (Wire.Rpc F) × State :=
  match r.cfg.adapterID ev.loraID with
  | none           => ([], s)
  | some adapterID =>
    let st := s.pos.stored hashSeed ev adapterID
    let s : State := {
      pos     := st.2
      pending := s.pending ++ st.1
      pendTs  := if 0 < tsUs then tsUs else s.pendTs }
    if r.maxPend ≤ s.pending.length then r.flush s else ([], s)

variable [GoFloat F]

-- Adds that are still buffered are sent first, since they must not arrive after the removal.
def onRemoved (tsSeconds : GoFloat.Double F) (s : State) (ev : BlockRemoved) :
    List (Wire.Rpc F) × State :=
  let rm := s.pos.removed ev
  let evicted := rm.1
  let s := { s with pos := rm.2 }
  if r.l2TierPresent then
    if evicted.length = 0 then ([], s) else
      let fl := r.flush s
      (fl.1 ++ r.sendAdds (evicted.map downgrade) (microsFromSeconds tsSeconds), fl.2)
  else
    let fl := r.flush s
    (fl.1 ++ evicted.map fun ep =>
      .publishEvent (r.cfg.evictedEvent ep.prefixHash ep.adapterID tsSeconds), fl.2)

-- A clear supersedes the adds that are still buffered.
def onCleared (tsSeconds : GoFloat.Double F) (s : State) : List (Wire.Rpc F) × State :=
  ([.publishEvent (r.cfg.clearedEvent tsSeconds)], ⟨s.pos.cleared, [], 0⟩)

def onEvent (tsSeconds : GoFloat.Double F) (s : State) : Event → List (Wire.Rpc F) × State
  | .blockStored ev   => r.onStored hashSeed (microsFromSeconds tsSeconds) s ev
  | .blockRemoved ev  => r.onRemoved tsSeconds s ev
  | .allBlocksCleared => r.onCleared tsSeconds s

def onInput (s : State) : Input F → List (Wire.Rpc F) × State
  | .batch b => emitAll (r.onEvent hashSeed b.timestampSeconds) s b.events
  | .tick    => r.flush s

-- The calls of a whole run, which ends by a last flush.
def run (inputs : List (Input F)) : List (Wire.Rpc F) :=
  let s := emitAll (r.onInput hashSeed) .init inputs
  s.1 ++ (r.flush s.2).1

end Run

end Reporter

end InferenceCache.Subscriber
