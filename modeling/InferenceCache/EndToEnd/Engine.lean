import InferenceCache.Lib.Chunks
import InferenceCache.Lib.Runs
import InferenceCache.Subscriber.Positional

-- The engine that a replica runs, as far as its events tell of its cache. It is not part of the
-- modelled code, but says what that code is meant to follow.
namespace InferenceCache.EndToEnd

open Subscriber (BlockStored BlockRemoved)

-- The hashes an engine uses for blocks. Each stands for the tokens up to and including its block, and
-- no two of them stand for the same tokens.
structure Naming where
  names    : Set Bytes
  prefixOf : Bytes → List UInt32
  injOn    : Set.InjOn prefixOf names

structure Engine where
  resident  : Finset Bytes
  announced : Finset Bytes
  deriving DecidableEq

namespace Engine

def init : Engine :=
  ⟨∅, ∅⟩

-- The tokens that the blocks of an event come after. A parent that has not been announced is a root.
def base (nm : Naming) (s : Engine) (ev : BlockStored) : List UInt32 :=
  match ev.parentBlockHash with
  | some h => if h ∈ s.announced then nm.prefixOf h else []
  | none   => []

-- The blocks of the base model that an engine with blocks of `bs` tokens may announce.
structure Stores (bs : Int32) (nm : Naming) (s : Engine) (ev : BlockStored) : Prop where
  size      : ev.blockSize = bs
  baseModel : ev.loraID = none
  length    : ev.tokenIDs.length = ev.blockHashes.length * bs.toInt.toNat
  parent    : ∀ h, ev.parentBlockHash = some h → h ∈ s.announced → h ∈ s.resident
  named     : ∀ h ∈ ev.blockHashes, h ∈ nm.names
  prefixes  : ev.blockHashes.map nm.prefixOf = extensions bs.toInt.toNat (s.base nm ev) ev.tokenIDs

inductive Step (bs : Int32) (nm : Naming) : Engine → Subscriber.Event → Engine → Prop
  | stored {s : Engine} {ev : BlockStored} : Stores bs nm s ev →
    Step bs nm s (.blockStored ev)
      ⟨s.resident ∪ ev.blockHashes.toFinset, s.announced ∪ ev.blockHashes.toFinset⟩
  | removed (s : Engine) (ev : BlockRemoved) :
    Step bs nm s (.blockRemoved ev) ⟨s.resident \ ev.blockHashes.toFinset, s.announced⟩
  | cleared (s : Engine) : Step bs nm s .allBlocksCleared ⟨∅, s.announced⟩

end Engine

end InferenceCache.EndToEnd
