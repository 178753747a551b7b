import InferenceCache.Fingerprint.Basic
import InferenceCache.Wire

namespace InferenceCache.Subscriber

-- Blocks that have become resident in the engine. The engine's hashes serve as names of blocks only.
structure BlockStored where
  blockHashes     : List Bytes
  parentBlockHash : Option Bytes
  tokenIDs        : List UInt32
  blockSize       : Int32
  loraID          : Option Int
  deriving DecidableEq

structure BlockRemoved where
  blockHashes : List Bytes
  deriving DecidableEq

inductive Event
  | blockStored (ev : BlockStored)
  | blockRemoved (ev : BlockRemoved)
  | allBlocksCleared

structure PosEntry where
  prefixHash : UInt64
  tokenCount : Int32
  adapter    : GoString

structure EvictedPrefix where
  prefixHash : Bytes
  adapterID  : GoString
  tokenCount : Int32

-- The blocks of a replica, by the engine's hash.
structure PositionalIndex where
  blocks : GoMap Bytes PosEntry

namespace PositionalIndex

def new : PositionalIndex :=
  ⟨∅⟩

section Stored

-- The loop over the blocks of an event, each given by the engine's hash and the one derived for it.
def storeBlocks (blockSize : Int32) (adapterID : GoString) :
    Int32 → List (Bytes × UInt64) → PositionalIndex → List Wire.PrefixEntry × PositionalIndex
  | _,      [],              p => ([], p)
  | tokens, (h, ph) :: rest, p =>
    let tokens := tokens + blockSize
    let s := storeBlocks blockSize adapterID tokens rest ⟨p.blocks.insert h ⟨ph, tokens, adapterID⟩⟩
    (⟨Fingerprint.bytes ph, tokens, [], [], Wire.CacheTier.t1, adapterID⟩ :: s.1, s.2)

-- What is known of the block that an event goes on from.
def parent (p : PositionalIndex) (ev : BlockStored) : Option PosEntry :=
  ev.parentBlockHash.bind p.blocks.lookup

structure Start where
  parentPrefix : UInt64
  parentTokens : Int32
  hasParent    : Bool

-- The hash and the number of tokens to go on from. An unknown parent counts as none, since the
-- engine's root has a hash of its own that is never stored.
def chainFrom : Option PosEntry → Start
  | some pe => ⟨pe.prefixHash, pe.tokenCount, true⟩
  | none    => ⟨0, 0, false⟩

-- An event whose tokens do not make up its blocks is dropped as a whole.
def stored (hashSeed : Bytes → UInt64 → UInt64) (p : PositionalIndex) (ev : BlockStored)
    (adapterID : GoString) : List Wire.PrefixEntry × PositionalIndex :=
  let bs := ev.blockSize.toInt
  if bs ≤ 0 ∨ ev.blockHashes.length = 0 then ([], p) else
    let start := chainFrom (p.parent ev)
    let phs := Fingerprint.prefixHashesFrom hashSeed ev.tokenIDs bs start.parentPrefix start.hasParent
    if phs.length ≠ ev.blockHashes.length then ([], p) else
      storeBlocks ev.blockSize adapterID start.parentTokens (ev.blockHashes.zip phs) p

end Stored

def removeBlocks : List Bytes → PositionalIndex → List EvictedPrefix × PositionalIndex
  | [],        p => ([], p)
  | h :: rest, p =>
    match p.blocks.lookup h with
    | some pe =>
      let s := removeBlocks rest ⟨p.blocks.erase h⟩
      (⟨Fingerprint.bytes pe.prefixHash, pe.adapter, pe.tokenCount⟩ :: s.1, s.2)
    | none => removeBlocks rest p

def removed (p : PositionalIndex) (ev : BlockRemoved) : List EvictedPrefix × PositionalIndex :=
  removeBlocks ev.blockHashes p

def cleared (_ : PositionalIndex) : PositionalIndex :=
  new

-- The calls that change the index, in the order of the engine's events. A stored event comes with the
-- adapter that was resolved for it.
inductive Call
  | stored (ev : BlockStored) (adapterID : GoString)
  | removed (ev : BlockRemoved)
  | cleared

def step (hashSeed : Bytes → UInt64 → UInt64) (p : PositionalIndex) : Call → PositionalIndex
  | .stored ev adapterID => (p.stored hashSeed ev adapterID).2
  | .removed ev          => (p.removed ev).2
  | .cleared             => p.cleared

end PositionalIndex

end InferenceCache.Subscriber
