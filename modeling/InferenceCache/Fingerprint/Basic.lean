import InferenceCache.Lib.Bytes

namespace InferenceCache.Fingerprint

-- The seed that all producers and consumers of these hashes share.
def seed : UInt64 := 1337

section

-- XXH3-64, as a function of the data and the seed.
variable (hashSeed : Bytes → UInt64 → UInt64)

def encode (blockTokens : List UInt32) : Bytes :=
  blockTokens.flatMap fun t => leBytes 4 t.toNat

def contentHash (blockTokens : List UInt32) : UInt64 :=
  hashSeed (encode blockTokens) seed

def nextSeqHash (prev content : UInt64) : UInt64 :=
  hashSeed (leBytes 8 prev.toNat ++ leBytes 8 content.toNat) seed

-- The loop over the `n` full blocks from the `i`-th on. The flag tells whether there is a hash to
-- chain from.
def prefixHashesLoop (tokens : List UInt32) (blockSize : Nat) :
    (n i : Nat) → (prev : UInt64) → (hasPrev : Bool) → List UInt64
  | 0,     _, _,    _       => []
  | n + 1, i, prev, hasPrev =>
    let ch := contentHash hashSeed ((tokens.drop (i * blockSize)).take blockSize)
    let ph := if hasPrev then nextSeqHash hashSeed prev ch else ch
    ph :: prefixHashesLoop tokens blockSize n (i + 1) ph true

def prefixHashesFrom (tokens : List UInt32) (blockSize : Int) (parentPrefix : UInt64)
    (hasParent : Bool) : List UInt64 :=
  if blockSize ≤ 0 then [] else
    prefixHashesLoop hashSeed tokens blockSize.toNat (tokens.length / blockSize.toNat) 0 parentPrefix
      hasParent

def prefixHashes (tokens : List UInt32) (blockSize : Int) : List UInt64 :=
  prefixHashesFrom hashSeed tokens blockSize 0 false

-- The form in which a hash is used as a key.
def bytes (h : UInt64) : Bytes :=
  beBytes 8 h.toNat

-- What a lookup carries for longest-prefix matching: the hash and the number of tokens of each block.
def chain (tokens : List UInt32) (blockSize : Int) : List Bytes × List Int32 :=
  let phs := prefixHashes hashSeed tokens blockSize
  (phs.map bytes, phs.map fun _ => Int32.ofInt blockSize)

end

end InferenceCache.Fingerprint
