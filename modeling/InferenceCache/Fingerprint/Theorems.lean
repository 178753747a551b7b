import InferenceCache.Fingerprint.Basic
import InferenceCache.Lib.Chunks
import InferenceCache.Lib.HashChain

namespace InferenceCache.Fingerprint

variable {hashSeed : Bytes → UInt64 → UInt64} {tokens s t : List UInt32} {h h' : UInt64}

section Encoding

theorem encode_length : (encode tokens).length = 4 * tokens.length := by
  induction tokens
  case nil => rfl
  case cons t tokens hi =>
    rw [encode, List.flatMap_cons, List.length_append, ← encode, hi, leBytes_length, List.length_cons]
    ring

theorem encode_append : encode (s ++ t) = encode s ++ encode t :=
  List.flatMap_append

theorem encode_injective : Function.Injective encode := by
  intro s t h
  induction s generalizing t
  case nil =>
    have hl := congrArg List.length h
    rw [encode_length, encode_length, List.length_nil] at hl
    exact (List.length_eq_zero_iff.mp (by omega)).symm
  case cons x s hi =>
    cases t
    case nil =>
      have hl := congrArg List.length h
      simp [encode_length] at hl
    case cons y t =>
      have ⟨hx, hs⟩ := List.append_inj h (by simp)
      have hxy : x.toNat = y.toNat := leBytes_injective x.toNat_lt y.toNat_lt hx
      rw [UInt32.toNat_inj.mp hxy, hi hs]

theorem link_injective : Function.Injective2 fun p q : UInt64 =>
    leBytes 8 p.toNat ++ leBytes 8 q.toNat := by
  intro p p' q q' h
  have ⟨hp, hq⟩ := List.append_inj h (by simp)
  exact ⟨UInt64.toNat_inj.mp (leBytes_injective p.toNat_lt p'.toNat_lt hp),
    UInt64.toNat_inj.mp (leBytes_injective q.toNat_lt q'.toNat_lt hq)⟩

theorem bytes_injective : Function.Injective bytes := fun h h' hb =>
  UInt64.toNat_inj.mp (beBytes_injective h.toNat_lt h'.toNat_lt hb)

end Encoding

-- The construction as a hash chain over blocks of tokens.
def positional (hashSeed : Bytes → UInt64 → UInt64) : HashChain (List UInt32) Bytes UInt64 where
  digest    := (hashSeed · seed)
  block     := encode
  link p q  := leBytes 8 p.toNat ++ leBytes 8 q.toNat

theorem prefixHashesLoop_eq {bs n i : Nat} {hasPrev : Bool} :
    prefixHashesLoop hashSeed tokens bs n i h hasPrev =
      (positional hashSeed).links (if hasPrev then some h else none)
        ((List.range' i n).map fun i => (tokens.drop (i * bs)).take bs) := by
  induction n generalizing i h hasPrev
  case zero => rfl
  case succ n hi =>
    rw [prefixHashesLoop, hi, List.range'_succ]
    cases hasPrev <;> rfl

theorem prefixHashesFrom_eq {bs : Int} (hb : 0 < bs) {hasParent : Bool} :
    prefixHashesFrom hashSeed tokens bs h hasParent =
      (positional hashSeed).links (if hasParent then some h else none) (chunks bs.toNat tokens) := by
  rw [prefixHashesFrom, if_neg (not_le.mpr hb), prefixHashesLoop_eq, chunks, List.range_eq_range']

theorem prefixHashes_eq {bs : Int} (hb : 0 < bs) :
    prefixHashes hashSeed tokens bs = (positional hashSeed).links none (chunks bs.toNat tokens) :=
  prefixHashesFrom_eq hb

theorem prefixHashes_getElem? {bs : Int} (hb : 0 < bs) {i : Nat} (h : (i + 1) * bs.toNat ≤ tokens.length) :
    (prefixHashes hashSeed tokens bs)[i]? =
      (positional hashSeed).final none (chunks bs.toNat (tokens.take ((i + 1) * bs.toNat))) := by
  have hn : 0 < bs.toNat := by omega
  have hi : i < (chunks bs.toNat tokens).length := by
    rw [chunks_length]
    exact (Nat.le_div_iff_mul_le hn).mpr h
  rw [prefixHashes_eq hb, HashChain.links_getElem? hi, chunks_take hn h]

section Prefixes

variable {n : Nat} {base : List UInt32}

def prefixHash (hashSeed : Bytes → UInt64 → UInt64) (n : Nat) (t : List UInt32) : UInt64 :=
  ((positional hashSeed).final none (chunks n t)).getD 0

theorem final_eq_prefixHash (hn : 0 < n) (h : n ≤ t.length) :
    (positional hashSeed).final none (chunks n t) = some (prefixHash hashSeed n t) := by
  have hc : (positional hashSeed).final none (chunks n t) ≠ none := by
    rw [chunks_of_le hn h]
    exact mt HashChain.final_none_eq_none_iff.mp (List.cons_ne_nil _ _)
  have ⟨h, hh⟩ := Option.ne_none_iff_exists'.mp hc
  rw [prefixHash, hh, Option.getD_some]

-- Hashes that go on from those of `base` are the hashes of its extensions.
theorem links_eq_map_prefixHash (hn : 0 < n) (hd : n ∣ base.length) :
    (positional hashSeed).links ((positional hashSeed).final none (chunks n base)) (chunks n t) =
      (extensions n base t).map (prefixHash hashSeed n) := by
  refine List.ext_getElem? fun i => ?_
  by_cases hi : i < t.length / n
  case neg =>
    have hl := not_lt.mp hi
    rw [List.getElem?_eq_none (by simpa using hl), List.getElem?_eq_none (by simpa using hl)]
  case pos =>
    have hle : (i + 1) * n ≤ t.length := Nat.mul_le_of_le_div _ _ _ hi
    have hlen : n ≤ (base ++ t.take ((i + 1) * n)).length := by
      rw [List.length_append, List.length_take_of_le hle, Nat.succ_mul]
      omega
    rw [List.getElem?_map, extensions_getElem? hi, Option.map_some, ← final_eq_prefixHash hn hlen,
      chunks_append hn (Nat.div_mul_cancel hd).symm, HashChain.final_append, chunks_take hn hle,
      HashChain.links_getElem? (by simpa using hi)]

theorem chain_eq {bs : Int} (hb : 0 < bs) : chain hashSeed tokens bs =
    ((extensions bs.toNat [] tokens).map fun t => bytes (prefixHash hashSeed bs.toNat t),
      (extensions bs.toNat [] tokens).map fun _ => Int32.ofInt bs) := by
  have hn : 0 < bs.toNat := by omega
  have hp : prefixHashes hashSeed tokens bs =
      (extensions bs.toNat [] tokens).map (prefixHash hashSeed bs.toNat) := by
    rw [prefixHashes_eq hb, ← links_eq_map_prefixHash hn (Nat.dvd_zero _), chunks_nil]
    rfl
  rw [chain, hp, List.map_map, List.map_map]
  rfl

end Prefixes

section Identity

-- Everything that is hashed on the way to the prefix hashes of a list of tokens.
def hashed (hashSeed : Bytes → UInt64 → UInt64) (tokens : List UInt32) (blockSize : Int) : Set Bytes :=
  (positional hashSeed).inputs (chunks blockSize.toNat tokens)

theorem lt_length_of_getElem? {bs : Int} (hb : 0 < bs) {i : Nat}
    (h : (prefixHashes hashSeed tokens bs)[i]? = some h') : (i + 1) * bs.toNat ≤ tokens.length := by
  have ⟨hi, _⟩ := List.getElem?_eq_some_iff.mp h
  rw [prefixHashes_eq hb, HashChain.links_length, chunks_length] at hi
  exact (Nat.le_div_iff_mul_le (by omega)).mp hi

-- A block has as many bytes as a link only if it has four tokens.
theorem encode_ne_link {bs : Nat} (hb : bs ≠ 4) {b : List UInt32} (h : b.length = bs) (p q : UInt64) :
    encode b ≠ leBytes 8 p.toNat ++ leBytes 8 q.toNat := by
  intro he
  have hl := congrArg List.length he
  rw [encode_length, List.length_append, leBytes_length, leBytes_length, h] at hl
  omega

theorem take_eq_of_prefixHash_eq {bs : Int} (hb : 0 < bs) (h4 : bs ≠ 4) {i j : Nat}
    (hd : Set.InjOn (hashSeed · seed) (hashed hashSeed s bs ∪ hashed hashSeed t bs))
    (hs : (prefixHashes hashSeed s bs)[i]? = some h) (ht : (prefixHashes hashSeed t bs)[j]? = some h) :
    s.take ((i + 1) * bs.toNat) = t.take ((j + 1) * bs.toNat) := by
  have hn : 0 < bs.toNat := by omega
  have hsl := lt_length_of_getElem? hb hs
  have htl := lt_length_of_getElem? hb ht
  have hsub : ∀ {l : List UInt32} {k : Nat}, k * bs.toNat ≤ l.length →
      (positional hashSeed).inputs (chunks bs.toNat (l.take (k * bs.toNat))) ⊆ hashed hashSeed l bs :=
    fun hl => HashChain.inputs_mono <| chunks_take hn hl ▸ List.take_prefix _ _
  have hne : ∀ {l : List UInt32} {k : Nat}, (k + 1) * bs.toNat ≤ l.length →
      chunks bs.toNat (l.take ((k + 1) * bs.toNat)) ≠ [] := by
    intro l k hl hc
    have hl' := congrArg List.length hc
    rw [chunks_length, List.length_take_of_le hl, Nat.mul_div_cancel _ hn] at hl'
    cases hl'
  rw [prefixHashes_getElem? hb hsl] at hs
  rw [prefixHashes_getElem? hb htl] at ht
  have hc := HashChain.eq_of_final_eq encode_injective link_injective
    (fun b hm => encode_ne_link (by omega) (length_of_mem_chunks hm))
    (fun b hm => encode_ne_link (by omega) (length_of_mem_chunks hm))
    (hd.mono <| Set.union_subset_union (hsub hsl) (hsub htl)) (hne hsl) (hne htl) (hs.trans ht.symm)
  rw [← flatten_chunks hn (List.length_take_of_le hsl), hc,
    flatten_chunks hn (List.length_take_of_le htl)]

def words (h : UInt64) : List UInt32 :=
  [UInt32.ofNat h.toNat, UInt32.ofNat (h.toNat / 256 ^ 4)]

theorem encode_words : encode (words h) = leBytes 8 h.toNat := by
  have hw : ∀ x, leBytes 4 (UInt32.ofNat x).toNat = leBytes 4 x := fun x => by
    rw [UInt32.toNat_ofNat']
    exact leBytes_mod
  rw [words, encode, List.flatMap_cons, List.flatMap_cons, List.flatMap_nil, hw, hw, List.append_nil]
  exact leBytes_add.symm

-- Four tokens that are encoded the way two blocks of four tokens are linked.
def forged (hashSeed : Bytes → UInt64 → UInt64) (t : List UInt32) : List UInt32 :=
  words (contentHash hashSeed (t.take 4)) ++ words (contentHash hashSeed (t.drop 4))

theorem chunks_four (ht : t.length = 8) : chunks 4 t = [t.take 4, t.drop 4] := by
  have hd : (t.drop 4).length = 4 := by rw [List.length_drop, ht]
  rw [chunks_of_le (by decide) (by omega), chunks_of_le (by decide) hd.ge, chunks_of_lt (by simp [ht]),
    List.take_of_length_le hd.le]

theorem hashed_four (ht : t.length = 8) : hashed hashSeed t 4 = {encode (t.take 4), encode (t.drop 4),
    leBytes 8 (contentHash hashSeed (t.take 4)).toNat ++
      leBytes 8 (contentHash hashSeed (t.drop 4)).toNat} := by
  show (positional hashSeed).inputs (chunks 4 t) = _
  rw [chunks_four ht, HashChain.inputs_pair]
  rfl

theorem forged_collides (hashSeed : Bytes → UInt64 → UInt64) (ht : t.length = 8) :
    hashed hashSeed (forged hashSeed t) 4 ⊆ hashed hashSeed t 4 ∧
      (prefixHashes hashSeed (forged hashSeed t) 4)[0]? = (prefixHashes hashSeed t 4)[1]? ∧
      ((prefixHashes hashSeed t 4)[1]?).isSome := by
  have hf : chunks 4 (forged hashSeed t) = [forged hashSeed t] := by
    rw [chunks_of_le (by decide) (by simp [forged, words]), chunks_of_lt (by simp [forged, words]),
      List.take_of_length_le (by simp [forged, words])]
  have he : encode (forged hashSeed t) = leBytes 8 (contentHash hashSeed (t.take 4)).toNat ++
      leBytes 8 (contentHash hashSeed (t.drop 4)).toNat := by
    rw [forged, encode_append, encode_words, encode_words]
  have hl : prefixHashes hashSeed t 4 =
      (positional hashSeed).links none [t.take 4, t.drop 4] := by
    rw [prefixHashes_eq (by decide), ← chunks_four ht]
    rfl
  refine ⟨?_, ?_, ?_⟩
  case refine_1 =>
    show (positional hashSeed).inputs (chunks 4 _) ⊆ _
    rw [hf, HashChain.inputs_singleton, hashed_four ht, Set.singleton_subset_iff]
    exact .inr <| .inr he
  case refine_2 =>
    rw [prefixHashes_eq (by decide), hl]
    show ((positional hashSeed).links none (chunks 4 _))[0]? = _
    rw [hf]
    exact congrArg (fun b => some (hashSeed b seed)) he
  case refine_3 =>
    rw [hl]
    rfl

theorem prefixHash_identifies_iff (hashSeed : Bytes → UInt64 → UInt64) (blockSize : Int)
    (hb : 0 < blockSize)
    (hx : ∃ t : List UInt32, t.length = 8 ∧ Set.InjOn (hashSeed · seed) (hashed hashSeed t 4)) :
    (∀ (s t : List UInt32) (i j : Nat) (h : UInt64),
      Set.InjOn (hashSeed · seed) (hashed hashSeed s blockSize ∪ hashed hashSeed t blockSize) →
      (prefixHashes hashSeed s blockSize)[i]? = some h →
      (prefixHashes hashSeed t blockSize)[j]? = some h →
      i = j ∧ s.take ((i + 1) * blockSize.toNat) = t.take ((i + 1) * blockSize.toNat)) ↔
    blockSize ≠ 4 := by
  constructor
  case mp =>
    rintro hp rfl
    have ⟨t, ht, hd⟩ := hx
    have ⟨hsub, he, hsome⟩ := forged_collides hashSeed ht
    have ⟨h, hh⟩ := Option.isSome_iff_exists.mp hsome
    rw [← Set.union_eq_right.mpr hsub] at hd
    cases (hp _ t 0 1 h hd (he.trans hh) hh).1
  case mpr =>
    intro h4 s t i j h hd hs ht
    have he := take_eq_of_prefixHash_eq hb h4 hd hs ht
    have hl := congrArg List.length he
    rw [List.length_take_of_le (lt_length_of_getElem? hb hs),
      List.length_take_of_le (lt_length_of_getElem? hb ht)] at hl
    have hij : i = j := Nat.succ_injective <| Nat.eq_of_mul_eq_mul_right (by omega) hl
    subst hij
    exact ⟨rfl, he⟩

-- A hash without collisions on what is hashed below.
def polynomial (b : Bytes) (seed : UInt64) : UInt64 :=
  b.foldl (fun a x => 31 * a + x.toUInt64) seed

def twoBlocks : List UInt32 :=
  [0, 0, 0, 0, 1, 0, 0, 0]

theorem polynomial_injOn : Set.InjOn (polynomial · seed) (hashed polynomial twoBlocks 4) := by
  rw [hashed_four rfl]
  rintro _ (rfl | rfl | rfl) _ (rfl | rfl | rfl) <;> decide

theorem prefixHash_collides :
    Set.InjOn (polynomial · seed)
      (hashed polynomial (forged polynomial twoBlocks) 4 ∪ hashed polynomial twoBlocks 4) ∧
    (prefixHashes polynomial (forged polynomial twoBlocks) 4)[0]? =
      (prefixHashes polynomial twoBlocks 4)[1]? ∧
    ((prefixHashes polynomial twoBlocks 4)[1]?).isSome := by
  have ⟨hsub, h⟩ := forged_collides (t := twoBlocks) polynomial rfl
  rw [Set.union_eq_right.mpr hsub]
  exact ⟨polynomial_injOn, h⟩

theorem prefixHash_identifies_iff_sixteen :
    Set.InjOn (polynomial · seed) (hashed polynomial twoBlocks 4) ∧
    ∀ (s t : List UInt32) (i j : Nat) (h : UInt64),
      Set.InjOn (polynomial · seed) (hashed polynomial s 16 ∪ hashed polynomial t 16) →
      (prefixHashes polynomial s 16)[i]? = some h → (prefixHashes polynomial t 16)[j]? = some h →
      i = j ∧ s.take ((i + 1) * 16) = t.take ((i + 1) * 16) :=
  have h := prefixHash_identifies_iff polynomial 16 (by decide) ⟨twoBlocks, rfl, polynomial_injOn⟩
  ⟨polynomial_injOn, h.mpr (by decide)⟩

end Identity

end InferenceCache.Fingerprint
