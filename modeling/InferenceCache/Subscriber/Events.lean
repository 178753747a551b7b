import InferenceCache.Lib.Msgpack
import InferenceCache.Lib.Strings
import InferenceCache.Subscriber.Reporter

-- The decoder of the engines' event batches.
namespace InferenceCache.Subscriber

open Msgpack

def wrap (text : GoString) (x : Except GoString A) : Except GoString A :=
  x.mapError (text ++ ·)

section Fields

variable {D : Type} (lib : Library D)

def uint64BE (u : UInt64) : Bytes :=
  beBytes 8 u.toNat

-- An integer is taken modulo 2^64, whether it is signed or not.
def hashToBytes : Value D → Except GoString Bytes
  | .nil   => .error (utf8 "block hash is nil")
  | .bin b => .ok b
  | .str s => .ok s
  | .int i => .ok (uint64BE (UInt64.ofInt i.value))
  | v      => .error (utf8 "unsupported block-hash type " ++ lib.typeName v)

def decodeHashes (raw : Raw D) : Except GoString (List Bytes) := do
  let elems ← lib.rawSlice raw
  elems.mapM fun e => do
    let v ← lib.any e
    hashToBytes lib v

def decodeParent (raw : Raw D) : Except GoString (Option Bytes) :=
  if raw.isNone then .ok none
  else do
    match ← lib.any raw with
    | .nil => .ok none
    | v    => some <$> hashToBytes lib v

def decodeLoRAID (raw : Raw D) : Except GoString (Option Int) :=
  if raw.isNone then .ok none
  else do
    match ← lib.any raw with
    | .nil   => .ok none
    | .int i =>
      if i.value < 2 ^ 63 then .ok (some i.value)
      else .error (utf8 "lora id " ++ GoString.formatInt i.value ++ utf8 " out of int64 range")
    | v      => .error (utf8 "unsupported lora_id type " ++ lib.typeName v)

def tokenID (t : Int) : Except GoString UInt32 :=
  if t < 0 ∨ 2 ^ 32 ≤ t then .error (utf8 "token id " ++ GoString.formatInt t ++ utf8 " out of uint32 range")
  else .ok (UInt32.ofInt t)

def decodeTokenIDs (raw : Raw D) : Except GoString (List UInt32) :=
  if raw.isNone then .ok []
  else do
    let ids ← lib.int64s raw
    ids.mapM tokenID

-- The check is the same for both forms of an event.
def decodeBlockSize (raw : Raw D) : Except GoString Int32 := do
  let bs ← wrap (utf8 "BlockStored.block_size: ") (lib.int32 raw)
  if bs ≤ 0 then
    .error (utf8 "BlockStored.block_size must be positive, got " ++ GoString.formatInt bs.toInt)
  else .ok bs

end Fields

section Events

variable {D : Type} (lib : Library D)

def tagBlockStored : GoString := utf8 "BlockStored"

def tagBlockRemoved : GoString := utf8 "BlockRemoved"

def tagAllBlocksCleared : GoString := utf8 "AllBlocksCleared"

-- A field that is absent is like one that is nil.
def optional (raw : Option (Raw D)) (decode : Raw D → Except GoString (Option A)) : Except GoString (Option A) :=
  match raw with
  | some raw => decode raw
  | none     => .ok none

def decodeTupleStored (fields : List (Raw D)) : Except GoString Event :=
  match fields with
  | _ :: hashesRaw :: parentRaw :: tokensRaw :: sizeRaw :: rest => do
    let hashes ← wrap (utf8 "BlockStored.block_hashes: ") (decodeHashes lib hashesRaw)
    let parent ← wrap (utf8 "BlockStored.parent_block_hash: ") (decodeParent lib parentRaw)
    let tokenIDs ← wrap (utf8 "BlockStored.token_ids: ") (decodeTokenIDs lib tokensRaw)
    let bs ← decodeBlockSize lib sizeRaw
    let loraID ← wrap (utf8 "BlockStored.lora_id: ") (optional rest.head? (decodeLoRAID lib))
    .ok (.blockStored ⟨hashes, parent, tokenIDs, bs, loraID⟩)
  | _ => .error (utf8 "BlockStored: want >=5 fields, got " ++ GoString.formatInt fields.length)

def decodeTupleRemoved (fields : List (Raw D)) : Except GoString Event :=
  match fields with
  | _ :: hashesRaw :: _ => do
    let hashes ← wrap (utf8 "BlockRemoved.block_hashes: ") (decodeHashes lib hashesRaw)
    .ok (.blockRemoved ⟨hashes⟩)
  | _ => .error (utf8 "BlockRemoved: want >=2 fields, got " ++ GoString.formatInt fields.length)

def required (raw : Option (Raw D)) (name : GoString) : Except GoString (Raw D) :=
  match raw with
  | some raw => .ok raw
  | none     => .error (name ++ utf8 " is required")

def decodeMapStored (fields : GoMap GoString (Raw D)) : Except GoString Event := do
  let hashesRaw ← required (fields.lookup (utf8 "block_hashes")) (utf8 "BlockStored.block_hashes")
  let hashes ← wrap (utf8 "BlockStored.block_hashes: ") (decodeHashes lib hashesRaw)
  let parent ← wrap (utf8 "BlockStored.parent_block_hash: ")
    (optional (fields.lookup (utf8 "parent_block_hash")) (decodeParent lib))
  let tokensRaw ← required (fields.lookup (utf8 "token_ids")) (utf8 "BlockStored.token_ids")
  let tokenIDs ← wrap (utf8 "BlockStored.token_ids: ") (decodeTokenIDs lib tokensRaw)
  let sizeRaw ← required (fields.lookup (utf8 "block_size")) (utf8 "BlockStored.block_size")
  let blockSize ← decodeBlockSize lib sizeRaw
  let loraID ← wrap (utf8 "BlockStored.lora_id: ") (optional (fields.lookup (utf8 "lora_id")) (decodeLoRAID lib))
  .ok (.blockStored ⟨hashes, parent, tokenIDs, blockSize, loraID⟩)

def decodeMapRemoved (fields : GoMap GoString (Raw D)) : Except GoString Event := do
  let hashesRaw ← required (fields.lookup (utf8 "block_hashes")) (utf8 "BlockRemoved.block_hashes")
  let hashes ← wrap (utf8 "BlockRemoved.block_hashes: ") (decodeHashes lib hashesRaw)
  .ok (.blockRemoved ⟨hashes⟩)

-- The switch over the tags, the same for both forms. An event with an unknown tag yields nothing.
def byTag (tag : GoString) (stored removed : Except GoString Event) : Except GoString (Option Event) :=
  if tag = tagBlockStored then some <$> stored
  else if tag = tagBlockRemoved then some <$> removed
  else if tag = tagAllBlocksCleared then .ok (some .allBlocksCleared)
  else .ok none

def decodeMapEvent (fields : GoMap GoString (Raw D)) : Except GoString (Option Event) :=
  match fields.lookup (utf8 "type") with
  | none        => .error (utf8 "event map has no type tag")
  | some tagRaw => do
    let tag ← wrap (utf8 "decode event type: ") (lib.string tagRaw)
    byTag tag (decodeMapStored lib fields) (decodeMapRemoved lib fields)

def decodeTupleEvent (fields : List (Raw D)) : Except GoString (Option Event) :=
  match fields with
  | []          => .error (utf8 "event tuple is empty")
  | tagRaw :: _ => do
    let tag ← wrap (utf8 "decode event tag: ") (lib.string tagRaw)
    byTag tag (decodeTupleStored lib fields) (decodeTupleRemoved lib fields)

-- Current engines send a tagged map, others a tuple.
def decodeEvent (raw : Raw D) : Except GoString (Option Event) :=
  match lib.rawMap raw with
  | .ok keyed => decodeMapEvent lib keyed
  | .error _  => do
    let fields ← wrap (utf8 "decode event: want tagged map or tuple: ") (lib.rawSlice raw)
    decodeTupleEvent lib fields

end Events

section Batch

variable {F : Type} [GoFloat F] (lib : Library (GoFloat.Double F))

-- The loop over the events, which ends with the first error.
def decodeEvents : List (Raw (GoFloat.Double F)) → Except GoString (List Event)
  | []         => .ok []
  | re :: rest => do
    let ev ← decodeEvent lib re
    let evs ← decodeEvents rest
    .ok (ev.toList ++ evs)

-- `payload` is the value that the bytes of the payload encode.
def decodeEventBatch (payload : Value (GoFloat.Double F)) : Except GoString (EventBatch F) := do
  match ← wrap (utf8 "decode batch envelope: ") (lib.rawSlice (some payload)) with
  | tsRaw :: eventsRaw :: _ =>
    let ts ← wrap (utf8 "decode batch ts: ") (lib.float64 tsRaw)
    let rawEvents ← wrap (utf8 "decode batch events: ") (lib.rawSlice eventsRaw)
    let events ← decodeEvents lib rawEvents
    .ok ⟨ts, events⟩
  | top => .error (utf8 "event batch: want [ts, events], got " ++ GoString.formatInt top.length ++ utf8 " elements")

end Batch

end InferenceCache.Subscriber
