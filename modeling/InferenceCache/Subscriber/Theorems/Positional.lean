import InferenceCache.Fingerprint.Theorems
import InferenceCache.Lib.Table
import InferenceCache.Subscriber.Positional

namespace InferenceCache.Subscriber

open Fingerprint

variable {hashSeed : Bytes → UInt64 → UInt64} {n : Nat} {bs : Int32} {a adapterID : GoString}
variable {base t tokens : List UInt32} {h : Bytes} {hs : List Bytes}

-- What is remembered for a block, and what is reported for it, by the tokens it stands for.
def posEntryOf (hashSeed : Bytes → UInt64 → UInt64) (n : Nat) (a : GoString) (t : List UInt32) :
    PosEntry :=
  ⟨prefixHash hashSeed n t, Int32.ofNat t.length, a⟩

def prefixEntryOf (hashSeed : Bytes → UInt64 → UInt64) (n : Nat) (a : GoString) (t : List UInt32) :
    Wire.PrefixEntry :=
  ⟨bytes (prefixHash hashSeed n t), Int32.ofNat t.length, [], [], Wire.CacheTier.t1, a⟩

namespace PositionalIndex

variable {p : PositionalIndex} {ev : BlockStored}

def insertAll (p : PositionalIndex) (l : List (Bytes × PosEntry)) : PositionalIndex :=
  ⟨l.foldl (fun m x => m.insert x.1 x.2) p.blocks⟩

theorem lookup_insertAll_concat {l : List (Bytes × PosEntry)} {x : Bytes × PosEntry} :
    (p.insertAll (l ++ [x])).blocks.lookup x.1 = some x.2 := by
  simp [insertAll]

theorem lookup_insertAll_map {f : Bytes → PosEntry} :
    (p.insertAll (hs.map fun h => (h, f h))).blocks.lookup h =
      if h ∈ hs then some (f h) else p.blocks.lookup h := by
  induction hs using List.reverseRecOn
  case nil => rfl
  case append_singleton hs h' hi =>
    simp only [insertAll, List.map_append, List.foldl_append, List.map_cons, List.map_nil,
      List.foldl_cons, List.foldl_nil, Finmap.lookup_insert_ite, List.mem_append, List.mem_singleton]
      at hi ⊢
    rw [hi]
    split
    case isTrue hh => simp [hh]
    case isFalse hh => simp [hh]

section Stored

-- The tokens that the blocks of an event come after, as far as the index knows.
inductive GoesOn (hashSeed : Bytes → UInt64 → UInt64) (n : Nat) (p : PositionalIndex)
    (ev : BlockStored) : List UInt32 → Prop
  | root : p.parent ev = none → GoesOn hashSeed n p ev []
  | block (a : GoString) (t : List UInt32) :
      p.parent ev = some (posEntryOf hashSeed n a t) → n ≤ t.length → n ∣ t.length →
    GoesOn hashSeed n p ev t

theorem GoesOn.dvd_length (hg : GoesOn hashSeed n p ev base) : n ∣ base.length := by
  cases hg
  case root => exact Nat.dvd_zero _
  case block _ _ _ hd => exact hd

theorem GoesOn.chainFrom_eq (hn : 0 < n) (hg : GoesOn hashSeed n p ev base) :
    (if (chainFrom (p.parent ev)).hasParent then some (chainFrom (p.parent ev)).parentPrefix else none) =
      (positional hashSeed).final none (chunks n base) ∧
    (chainFrom (p.parent ev)).parentTokens = Int32.ofNat base.length := by
  cases hg
  case root hp => simp [hp, chainFrom, HashChain.final]
  case block a hp hl hd => simp [hp, chainFrom, posEntryOf, final_eq_prefixHash hn hl]

theorem storeBlocks_eq (hb : 0 < bs.toInt) (hl : tokens.length = hs.length * bs.toInt.toNat) :
    storeBlocks bs a (Int32.ofNat base.length)
      (hs.zip ((extensions bs.toInt.toNat base tokens).map (prefixHash hashSeed bs.toInt.toNat))) p =
    ((extensions bs.toInt.toNat base tokens).map (prefixEntryOf hashSeed bs.toInt.toNat a),
      p.insertAll (hs.zip
        ((extensions bs.toInt.toNat base tokens).map (posEntryOf hashSeed bs.toInt.toNat a)))) := by
  have hn : 0 < bs.toInt.toNat := by omega
  induction hs generalizing base tokens p
  case nil =>
    rw [List.length_nil, Nat.zero_mul, List.length_eq_zero_iff] at hl
    simp [hl, extensions, storeBlocks, insertAll]
  case cons h hs hi =>
    rw [List.length_cons, Nat.succ_mul] at hl
    have hd : (tokens.drop bs.toInt.toNat).length = hs.length * bs.toInt.toNat := by
      rw [List.length_drop]
      omega
    have hle : bs.toInt.toNat ≤ tokens.length := by omega
    have hc : Int32.ofNat base.length + bs =
        Int32.ofNat (base ++ tokens.take bs.toInt.toNat).length := by
      rw [List.length_append, List.length_take_of_le hle, Int32.ofNat_add, ← Int32.ofInt_eq_ofNat,
        ← Int32.ofInt_eq_ofNat, Int.toNat_of_nonneg hb.le, Int32.ofInt_toInt]
    rw [extensions_of_le hn hle, List.map_cons, List.map_cons, List.map_cons, List.zip_cons_cons,
      List.zip_cons_cons, storeBlocks, hc, hi hd]
    rfl

-- A well-formed event is reported by the tokens its blocks stand for.
theorem stored_eq (hb : 0 < ev.blockSize.toInt)
    (hl : ev.tokenIDs.length = ev.blockHashes.length * ev.blockSize.toInt.toNat)
    (hg : GoesOn hashSeed ev.blockSize.toInt.toNat p ev base) :
    p.stored hashSeed ev a =
      ((extensions ev.blockSize.toInt.toNat base ev.tokenIDs).map
          (prefixEntryOf hashSeed ev.blockSize.toInt.toNat a),
        p.insertAll (ev.blockHashes.zip ((extensions ev.blockSize.toInt.toNat base ev.tokenIDs).map
          (posEntryOf hashSeed ev.blockSize.toInt.toNat a)))) := by
  have hn : 0 < ev.blockSize.toInt.toNat := by omega
  have ⟨hp, hc⟩ := hg.chainFrom_eq hn
  dsimp only [stored]
  split
  case isTrue h =>
    have he : ev.blockHashes = [] := List.length_eq_zero_iff.mp (h.resolve_left (by omega))
    have ht : ev.tokenIDs = [] := List.length_eq_zero_iff.mp (by rw [hl, he]; simp)
    simp [he, ht, extensions, insertAll]
  case isFalse =>
    have he : ((extensions ev.blockSize.toInt.toNat base ev.tokenIDs).map
        (prefixHash hashSeed ev.blockSize.toInt.toNat)).length = ev.blockHashes.length := by
      rw [List.length_map, extensions_length, hl, Nat.mul_div_cancel _ hn]
    rw [prefixHashesFrom_eq hb, hp, links_eq_map_prefixHash hn hg.dvd_length, if_neg (not_not.mpr he),
      hc, storeBlocks_eq hb hl]

end Stored

section Frame

theorem lookup_storeBlocks {l : List (Bytes × UInt64)} {c : Int32} (hh : h ∉ l.map Prod.fst) :
    (storeBlocks bs a c l p).2.blocks.lookup h = p.blocks.lookup h := by
  induction l generalizing c p
  case nil => rfl
  case cons x l hi =>
    rw [List.map_cons, List.mem_cons, not_or] at hh
    rw [storeBlocks, hi hh.2, Finmap.lookup_insert_ite, if_neg hh.1]

theorem lookup_stored (hh : h ∉ ev.blockHashes) :
    (p.stored hashSeed ev a).2.blocks.lookup h = p.blocks.lookup h := by
  dsimp only [stored]
  split
  case isTrue => rfl
  case isFalse =>
    split
    case isTrue => rfl
    case isFalse =>
      exact lookup_storeBlocks fun hm => hh <| by
        have ⟨x, hx, he⟩ := List.mem_map.mp hm
        exact he ▸ (List.of_mem_zip hx).1

theorem lookup_removeBlocks : (removeBlocks hs p).2.blocks.lookup h =
    if h ∈ hs then none else p.blocks.lookup h := by
  induction hs generalizing p
  case nil => rfl
  case cons h' hs hi =>
    rw [removeBlocks]
    cases hp : p.blocks.lookup h'
    case none =>
      dsimp only
      rw [hi]
      by_cases hh : h = h'
      case pos => subst hh; simp [hp]
      case neg => simp [hh]
    case some pe =>
      dsimp only
      rw [hi, Finmap.lookup_erase_ite]
      by_cases hh : h = h'
      case pos => simp [hh]
      case neg => simp [hh]

theorem mem_removeBlocks {x : EvictedPrefix} : x ∈ (removeBlocks hs p).1 ↔
    ∃ h ∈ hs, ∃ pe, p.blocks.lookup h = some pe ∧
      x = ⟨bytes pe.prefixHash, pe.adapter, pe.tokenCount⟩ := by
  induction hs generalizing p
  case nil => simp [removeBlocks]
  case cons h hs hi =>
    rw [removeBlocks]
    cases hp : p.blocks.lookup h
    case none => simp [hi, hp]
    case some pe =>
      simp only [List.mem_cons, hi, Finmap.lookup_erase_ite]
      constructor
      case mp =>
        rintro (hx | ⟨h', hm, pe', hl, hx⟩)
        case inl => exact ⟨h, .inl rfl, pe, hp, hx⟩
        case inr =>
          split at hl
          case isTrue => cases hl
          case isFalse => exact ⟨h', .inr hm, pe', hl, hx⟩
      case mpr =>
        rintro ⟨h', hm, pe', hl, hx⟩
        by_cases hh : h' = h
        case pos =>
          subst hh
          cases hl.symm.trans hp
          exact .inl hx
        case neg => exact .inr ⟨h', hm.resolve_left hh, pe', by rw [if_neg hh, hl], hx⟩

-- Whether a call may change what is remembered for a block.
def Call.Touches : Call → Bytes → Prop
  | .stored ev _, h => h ∈ ev.blockHashes
  | .removed ev,  h => h ∈ ev.blockHashes
  | .cleared,     _ => True

theorem lookup_step {c : Call} (hc : ¬c.Touches h) :
    (p.step hashSeed c).blocks.lookup h = p.blocks.lookup h := by
  cases c
  case stored ev a => exact lookup_stored hc
  case removed ev => exact lookup_removeBlocks.trans (if_neg hc)
  case cleared => exact absurd trivial hc

theorem lookup_steps {calls : List Call} (hc : ∀ c ∈ calls, ¬c.Touches h) :
    (calls.foldl (step hashSeed) p).blocks.lookup h = p.blocks.lookup h :=
  List.foldlRecOn (motive := fun q : PositionalIndex => q.blocks.lookup h = p.blocks.lookup h)
    calls _ rfl fun _ hq c hm => (lookup_step (hc c hm)).trans hq

end Frame

section Named

-- The hash that is remembered for each of the engine's own.
def named (p : PositionalIndex) : Table Bytes UInt64 :=
  fun h => (p.blocks.lookup h).map PosEntry.prefixHash

theorem named_new : new.named = .empty :=
  rfl

def derived (hashSeed : Bytes → UInt64 → UInt64) (p : PositionalIndex) (ev : BlockStored) :
    List (Bytes × UInt64) :=
  let bs := ev.blockSize.toInt
  if bs ≤ 0 ∨ ev.blockHashes.length = 0 then [] else
    let start := chainFrom (p.parent ev)
    let phs := prefixHashesFrom hashSeed ev.tokenIDs bs start.parentPrefix start.hasParent
    if phs.length ≠ ev.blockHashes.length then [] else ev.blockHashes.zip phs

theorem stored_eq_storeBlocks : p.stored hashSeed ev a =
    storeBlocks ev.blockSize a (chainFrom (p.parent ev)).parentTokens (derived hashSeed p ev) p := by
  dsimp only [stored, derived]
  split
  case isTrue => rfl
  case isFalse => split <;> rfl

variable {l : List (Bytes × UInt64)} {c : Int32}

theorem named_storeBlocks : (storeBlocks bs a c l p).2.named = p.named.putAll l := by
  induction l generalizing c p
  case nil => rfl
  case cons x l hi =>
    rw [storeBlocks, hi, Table.putAll_cons]
    congr 1
    funext h
    simp only [named, Finmap.lookup_insert_ite, Table.put]
    split <;> rfl

theorem adapter_storeBlocks {pe : PosEntry} (hp : ∀ h pe, p.blocks.lookup h = some pe → pe.adapter = a)
    (hl : (storeBlocks bs a c l p).2.blocks.lookup h = some pe) : pe.adapter = a := by
  induction l generalizing c p
  case nil => exact hp h pe hl
  case cons x l hi =>
    refine hi (fun h pe hl => ?_) hl
    rw [Finmap.lookup_insert_ite] at hl
    split at hl
    case isTrue => exact Option.some_injective _ hl ▸ rfl
    case isFalse => exact hp h pe hl

theorem prefixHash_storeBlocks :
    (storeBlocks bs a c l p).1.map Wire.PrefixEntry.prefixHash = l.map fun x => bytes x.2 := by
  induction l generalizing c p
  case nil => rfl
  case cons x l hi => rw [storeBlocks, List.map_cons, hi, List.map_cons]

theorem named_stored : (p.stored hashSeed ev a).2.named = p.named.putAll (derived hashSeed p ev) := by
  rw [stored_eq_storeBlocks, named_storeBlocks]

theorem named_removed {ev : BlockRemoved} :
    (p.removed ev).2.named = p.named.drop fun h => h ∈ ev.blockHashes := by
  funext h
  rw [named, removed, lookup_removeBlocks, Table.drop, named]
  by_cases hh : h ∈ ev.blockHashes <;> simp [hh]

end Named

section Sequence

-- A part of a sequence, as the engine announces it and under the adapter that was resolved for it.
structure Piece where
  ev        : BlockStored
  adapterID : GoString

-- The tokens of an event make up its blocks, of `bs` tokens each.
structure Piece.Covers (bs : Int32) (x : Piece) : Prop where
  size   : x.ev.blockSize = bs
  length : x.ev.tokenIDs.length = x.ev.blockHashes.length * bs.toInt.toNat

-- Pieces that go on from the block `h`. Each of them comes after other calls, which leave alone the
-- block that it goes on from.
inductive Follows (bs : Int32) : Bytes → List (List Call × Piece) → Prop
  | nil (h : Bytes) : Follows bs h []
  | cons {h h' : Bytes} {others : List Call} {x : Piece} {rest : List (List Call × Piece)} :
    (∀ c ∈ others, ¬c.Touches h) → x.Covers bs → x.ev.parentBlockHash = some h →
    x.ev.blockHashes.getLast? = some h' → Follows bs h' rest → Follows bs h ((others, x) :: rest)

-- The pieces of a whole sequence. The first one has no parent that the index knows.
inductive Splits (hashSeed : Bytes → UInt64 → UInt64) (bs : Int32) (p : PositionalIndex) :
    List (List Call × Piece) → Prop
  | nil : Splits hashSeed bs p []
  | cons {h : Bytes} {others : List Call} {x : Piece} {rest : List (List Call × Piece)} :
    x.Covers bs → (others.foldl (step hashSeed) p).parent x.ev = none →
    x.ev.blockHashes.getLast? = some h → Follows bs h rest → Splits hashSeed bs p ((others, x) :: rest)

def tokensOf (rounds : List (List Call × Piece)) : List UInt32 :=
  rounds.flatMap (·.2.ev.tokenIDs)

def emitted (hashSeed : Bytes → UInt64 → UInt64) :
    PositionalIndex → List (List Call × Piece) → List Wire.PrefixEntry
  | _, [] => []
  | p, (others, x) :: rest =>
    let s := (others.foldl (step hashSeed) p).stored hashSeed x.ev x.adapterID
    s.1 ++ emitted hashSeed s.2 rest

variable {x : Piece} {rest rounds : List (List Call × Piece)}

theorem Piece.Covers.dvd_length (hc : x.Covers bs) : bs.toInt.toNat ∣ x.ev.tokenIDs.length :=
  hc.length ▸ Dvd.intro_left _ rfl

theorem tokensOf_cons {others : List Call} :
    tokensOf ((others, x) :: rest) = x.ev.tokenIDs ++ tokensOf rest :=
  List.flatMap_cons

def keyCount (e : Wire.PrefixEntry) : Bytes × Int32 :=
  (e.prefixHash, e.tokenCount)

-- One piece. What is remembered for its last block stands for all tokens up to there.
theorem stored_piece (hb : 0 < bs.toInt) (hc : x.Covers bs) (hh : x.ev.blockHashes.getLast? = some h)
    (hg : GoesOn hashSeed bs.toInt.toNat p x.ev base) :
    (p.stored hashSeed x.ev x.adapterID).1.map keyCount =
      (extensions bs.toInt.toNat base x.ev.tokenIDs).map
        (fun t => keyCount (prefixEntryOf hashSeed bs.toInt.toNat [] t)) ∧
    (p.stored hashSeed x.ev x.adapterID).2.blocks.lookup h =
      some (posEntryOf hashSeed bs.toInt.toNat x.adapterID (base ++ x.ev.tokenIDs)) := by
  obtain ⟨rfl, hl⟩ := hc
  have hn : 0 < x.ev.blockSize.toInt.toNat := by omega
  rw [stored_eq hb hl hg, List.map_map]
  refine ⟨rfl, ?_⟩
  -- The last block is remembered last, whatever the other hashes are.
  have ⟨hs, he⟩ := List.getLast?_eq_some_iff.mp hh
  rw [he, List.length_append, List.length_singleton] at hl
  have ⟨m, hm, hx⟩ := @extensions_concat _ _ _ base _ hn hl
  dsimp only
  rw [hx, he, List.map_append, List.zip_append (by rw [List.length_map, hm])]
  exact lookup_insertAll_concat

theorem Follows.emitted_eq (hb : 0 < bs.toInt) (hf : Follows bs h rest)
    (hp : p.blocks.lookup h = some (posEntryOf hashSeed bs.toInt.toNat a base))
    (hl : bs.toInt.toNat ≤ base.length) (hd : bs.toInt.toNat ∣ base.length) :
    (emitted hashSeed p rest).map keyCount =
      (extensions bs.toInt.toNat base (tokensOf rest)).map
        fun t => keyCount (prefixEntryOf hashSeed bs.toInt.toNat [] t) := by
  induction hf generalizing p a base
  case nil => simp [emitted, tokensOf, extensions]
  case cons h h' others x rest ho hc hx hh hf hi =>
    have hg : GoesOn hashSeed bs.toInt.toNat (others.foldl (step hashSeed) p) x.ev base := by
      refine .block a base ?_ hl hd
      rw [parent, hx, Option.bind_some, lookup_steps ho, hp]
    obtain ⟨he, hp'⟩ := stored_piece hb hc hh hg
    have hx := hc.dvd_length
    have hr := hi hp' (by rw [List.length_append]; omega) (by rw [List.length_append]; exact hd.add hx)
    rw [emitted, List.map_append, he, hr, tokensOf_cons, extensions_append (by omega) hx,
      List.map_append]

theorem Splits.emitted_eq (hb : 0 < bs.toInt) (hs : Splits hashSeed bs p rounds) :
    (emitted hashSeed p rounds).map keyCount =
      (extensions bs.toInt.toNat [] (tokensOf rounds)).map
        fun t => keyCount (prefixEntryOf hashSeed bs.toInt.toNat [] t) := by
  cases hs
  case nil => simp [emitted, tokensOf, extensions]
  case cons h others x rest hc hu hh hf =>
    have hg : GoesOn hashSeed bs.toInt.toNat (others.foldl (step hashSeed) p) x.ev [] := .root hu
    obtain ⟨he, hp⟩ := stored_piece hb hc hh hg
    have hx := hc.dvd_length
    have hl : bs.toInt.toNat ≤ x.ev.tokenIDs.length := by
      obtain ⟨hs, hl⟩ := List.getLast?_eq_some_iff.mp hh
      rw [hc.length, hl, List.length_append, List.length_singleton, Nat.succ_mul]
      omega
    rw [emitted, List.map_append, he, hf.emitted_eq hb hp hl hx, tokensOf_cons,
      extensions_append (by omega) hx, List.map_append]

theorem emitted_agrees_with_chain (hashSeed : Bytes → UInt64 → UInt64) (p : PositionalIndex)
    (bs : Int32) (rounds : List (List Call × Piece)) (hb : 0 < bs.toInt)
    (hs : Splits hashSeed bs p rounds) (hl : (tokensOf rounds).length < 2 ^ 31) :
    (emitted hashSeed p rounds).map Wire.PrefixEntry.prefixHash =
      (chain hashSeed (tokensOf rounds) bs.toInt).1 ∧
    ∀ i e, (emitted hashSeed p rounds)[i]? = some e →
      e.tokenCount.toInt =
        (((chain hashSeed (tokensOf rounds) bs.toInt).2.take (i + 1)).map Int32.toInt).sum := by
  have he := hs.emitted_eq hb
  rw [chain_eq hb]
  constructor
  case left =>
    have hf := congrArg (List.map Prod.fst) he
    rwa [List.map_map, List.map_map] at hf
  case right =>
    intro i e hi
    have hc := congrArg (·[i]?) he
    have hm := congrArg List.length he
    have ⟨hlt, _⟩ := List.getElem?_eq_some_iff.mp hi
    rw [List.length_map, List.length_map, extensions_length] at hm
    rw [hm] at hlt
    have hle : (i + 1) * bs.toInt.toNat ≤ (tokensOf rounds).length := Nat.mul_le_of_le_div _ _ _ hlt
    simp only [List.getElem?_map, hi, extensions_getElem? hlt, Option.map_some, Option.some_inj] at hc
    have ht : e.tokenCount = Int32.ofNat ((i + 1) * bs.toInt.toNat) := by
      rw [← List.length_take_of_le hle]
      exact congrArg Prod.snd hc
    have hcast : (((i + 1) * bs.toInt.toNat : Nat) : Int) = (i + 1) * bs.toInt := by
      rw [Nat.cast_mul, Int.toNat_of_nonneg hb.le, Nat.cast_succ]
    rw [ht, ← Int32.ofInt_eq_ofNat, Int32.toInt_ofInt_of_le (by omega) (by omega), hcast,
      List.map_const', List.take_replicate, List.map_replicate, List.sum_replicate, Int32.ofInt_toInt,
      extensions_length, Nat.min_eq_left hlt, nsmul_eq_mul, Nat.cast_succ]

-- Three blocks in two pieces, with another sequence stored and removed in between.
def twoPieces : List (List Call × Piece) :=
  [([], ⟨⟨[[1], [2]], some [0], [1, 2, 3, 4], 2, none⟩, []⟩),
    ([.stored ⟨[[7]], some [1], [8, 9], 2, none⟩ [], .removed ⟨[[7]]⟩],
      ⟨⟨[[3]], some [2], [5, 6], 2, none⟩, []⟩)]

theorem splits_twoPieces : Splits polynomial 2 new twoPieces := by
  refine .cons ⟨rfl, rfl⟩ rfl rfl (.cons (fun c hc => ?_) ⟨rfl, rfl⟩ rfl rfl (.nil _))
  simp only [List.mem_cons, List.not_mem_nil, or_false] at hc
  cases hc <;> subst c <;> simp [Call.Touches]

theorem emitted_agrees_with_chain_twoPieces :
    (emitted polynomial new twoPieces).map Wire.PrefixEntry.prefixHash =
      (chain polynomial [1, 2, 3, 4, 5, 6] 2).1 ∧
    ∀ i e, (emitted polynomial new twoPieces)[i]? = some e →
      e.tokenCount.toInt =
        (((chain polynomial [1, 2, 3, 4, 5, 6] 2).2.take (i + 1)).map Int32.toInt).sum :=
  emitted_agrees_with_chain polynomial new 2 twoPieces (by decide) splits_twoPieces (by decide)

end Sequence

section AllOrNothing

def WellFormed (ev : BlockStored) : Prop :=
  0 < ev.blockSize.toInt ∧ ev.blockHashes ≠ [] ∧
    (ev.tokenIDs.length : Int) = ev.blockSize.toInt * ev.blockHashes.length

-- The tokens fill the blocks of an event, and there are some more that do not fill another one.
def HasTrailingTokens (ev : BlockStored) : Prop :=
  0 < ev.blockSize.toInt ∧ ev.blockHashes ≠ [] ∧
    ev.blockSize.toInt * ev.blockHashes.length < ev.tokenIDs.length ∧
    (ev.tokenIDs.length : Int) < ev.blockSize.toInt * (ev.blockHashes.length + 1)

-- A block is on record by one of the entries that are sent for its event.
structure AllOrNothing (hashSeed : Bytes → UInt64 → UInt64) (p : PositionalIndex) (ev : BlockStored)
    (a : GoString) : Prop where
  emits   : (p.stored hashSeed ev a).1 ≠ [] ↔ WellFormed ev
  all     : WellFormed ev → (p.stored hashSeed ev a).1.length = ev.blockHashes.length
  records : WellFormed ev → ∀ h ∈ ev.blockHashes, ∃ pe, (p.stored hashSeed ev a).2.blocks.lookup h = some pe ∧
              ⟨bytes pe.prefixHash, pe.tokenCount, [], [], Wire.CacheTier.t1, pe.adapter⟩ ∈
                (p.stored hashSeed ev a).1
  nothing : ¬WellFormed ev → p.stored hashSeed ev a = ([], p)

theorem length_storeBlocks {l : List (Bytes × UInt64)} {c : Int32} :
    (storeBlocks bs a c l p).1.length = l.length := by
  induction l generalizing c p
  case nil => rfl
  case cons x l hi => simp [storeBlocks, hi]

theorem recorded_storeBlocks {l : List (Bytes × UInt64)} {c : Int32} (hh : h ∈ l.map Prod.fst) :
    ∃ pe, (storeBlocks bs a c l p).2.blocks.lookup h = some pe ∧
      ⟨bytes pe.prefixHash, pe.tokenCount, [], [], Wire.CacheTier.t1, pe.adapter⟩ ∈
        (storeBlocks bs a c l p).1 := by
  induction l generalizing c p
  case nil => cases hh
  case cons x l hi =>
    by_cases hl : h ∈ l.map Prod.fst
    case pos =>
      have ⟨pe, hp, he⟩ := hi hl (c := c + bs) (p := ⟨p.blocks.insert x.1 ⟨x.2, c + bs, a⟩⟩)
      exact ⟨pe, hp, .tail _ he⟩
    case neg =>
      -- The last block of that name is the one that stays.
      have hx : h = x.1 := by simpa [hl] using hh
      refine ⟨⟨x.2, c + bs, a⟩, ?_, .head _⟩
      rw [storeBlocks, lookup_storeBlocks hl, hx]
      exact Finmap.lookup_insert _

-- The test that the code makes, by way of the hashes that it derives.
def Accepted (ev : BlockStored) : Prop :=
  0 < ev.blockSize.toInt ∧ ev.blockHashes ≠ [] ∧
    ev.tokenIDs.length / ev.blockSize.toInt.toNat = ev.blockHashes.length

theorem length_prefixHashesFrom (hb : 0 < ev.blockSize.toInt) (prev : UInt64) (hasParent : Bool) :
    (prefixHashesFrom hashSeed ev.tokenIDs ev.blockSize.toInt prev hasParent).length =
      ev.tokenIDs.length / ev.blockSize.toInt.toNat := by
  rw [prefixHashesFrom_eq hb, HashChain.links_length, chunks_length]

theorem derived_of_accepted (hc : Accepted ev) : (derived hashSeed p ev).map Prod.fst = ev.blockHashes := by
  have ⟨hb, hn, hd⟩ := hc
  have hl : (prefixHashesFrom hashSeed ev.tokenIDs ev.blockSize.toInt (chainFrom (p.parent ev)).parentPrefix
      (chainFrom (p.parent ev)).hasParent).length = ev.blockHashes.length :=
    (length_prefixHashesFrom hb _ _).trans hd
  rw [derived, if_neg (by simp [hb, hn]), if_neg (not_not.mpr hl)]
  exact List.map_fst_zip hl.ge

theorem derived_of_not_accepted (hc : ¬Accepted ev) : derived hashSeed p ev = [] := by
  rw [derived]
  split
  case isTrue => rfl
  case isFalse h =>
    have ⟨hb, hn⟩ := not_or.mp h
    refine if_pos fun hl => hc ⟨not_le.mp hb, fun he => hn (by simp [he]), ?_⟩
    rw [← hl, length_prefixHashesFrom (not_le.mp hb) _ _]

theorem div_eq_iff_or {k n m : Nat} (hk : 0 < k) :
    m / k = n ↔ (m : Int) = k * n ∨ (k * n : Int) < m ∧ (m : Int) < k * (n + 1) := by
  have hs : ((n * k : Nat) : Int) = k * n := by
    push_cast
    ring
  rw [Nat.div_eq_iff hk, Int.mul_add, ← hs]
  omega

theorem accepted_iff : Accepted ev ↔ WellFormed ev ∨ HasTrailingTokens ev := by
  simp only [Accepted, WellFormed, HasTrailingTokens, ← and_or_left]
  refine and_congr_right fun hb => and_congr_right fun _ => ?_
  have hk : ((ev.blockSize.toInt.toNat : Nat) : Int) = ev.blockSize.toInt := Int.toNat_of_nonneg hb.le
  rw [div_eq_iff_or (by omega), hk]

theorem allOrNothing_of_accepted (hc : Accepted ev) :
    (p.stored hashSeed ev a).1.length = ev.blockHashes.length ∧
      ∀ h ∈ ev.blockHashes, ∃ pe, (p.stored hashSeed ev a).2.blocks.lookup h = some pe ∧
        ⟨bytes pe.prefixHash, pe.tokenCount, [], [], Wire.CacheTier.t1, pe.adapter⟩ ∈
          (p.stored hashSeed ev a).1 := by
  have hd : (derived hashSeed p ev).map Prod.fst = ev.blockHashes := derived_of_accepted hc
  rw [stored_eq_storeBlocks]
  constructor
  case left => rw [length_storeBlocks, ← hd, List.length_map]
  case right =>
    intro h hh
    exact recorded_storeBlocks (hd ▸ hh)

theorem stored_of_not_accepted (hc : ¬Accepted ev) : p.stored hashSeed ev a = ([], p) := by
  rw [stored_eq_storeBlocks, derived_of_not_accepted hc, storeBlocks]

theorem stored_ne_nil_iff : (p.stored hashSeed ev a).1 ≠ [] ↔ Accepted ev := by
  constructor
  case mp =>
    intro hn
    by_contra hc
    exact hn (by rw [stored_of_not_accepted hc])
  case mpr =>
    intro hc hn
    have hl : (p.stored hashSeed ev a).1.length = ev.blockHashes.length := (allOrNothing_of_accepted hc).1
    rw [hn] at hl
    exact hc.2.1 (List.length_eq_zero_iff.mp hl.symm)

theorem stored_allOrNothing_iff (hashSeed : Bytes → UInt64 → UInt64) (p : PositionalIndex)
    (ev : BlockStored) (a : GoString) : AllOrNothing hashSeed p ev a ↔ ¬HasTrailingTokens ev := by
  constructor
  case mp =>
    intro h ht
    have hw : WellFormed ev := h.emits.mp (stored_ne_nil_iff.mpr (accepted_iff.mpr (.inr ht)))
    exact absurd hw.2.2 ht.2.2.1.ne'
  case mpr =>
    intro ht
    have hi : Accepted ev ↔ WellFormed ev := by simp [accepted_iff, ht]
    exact {
      emits   := stored_ne_nil_iff.trans hi
      all     := fun hw => (allOrNothing_of_accepted (hi.mpr hw)).1
      records := fun hw => (allOrNothing_of_accepted (hi.mpr hw)).2
      nothing := fun hw => stored_of_not_accepted (mt hi.mp hw) }

-- One block of two tokens, and a third token.
theorem stored_ignores_trailing_token :
    ¬WellFormed ⟨[[1]], none, [7, 8, 9], 2, none⟩ ∧
      (new.stored polynomial ⟨[[1]], none, [7, 8, 9], 2, none⟩ []).1.length = 1 ∧
      ((new.stored polynomial ⟨[[1]], none, [7, 8, 9], 2, none⟩ []).2.blocks.lookup [1]).isSome := by
  refine ⟨fun h => absurd h.2.2 (by decide), by decide +kernel, by decide +kernel⟩

end AllOrNothing

end PositionalIndex

end InferenceCache.Subscriber
