import InferenceCache.Index.Theorems.LongestPrefix
import InferenceCache.Index.Theorems.Isolation

namespace InferenceCache

variable {F : Type}

section Requests

variable (u : Update F) (p : PrefixRef)

-- The request for one hash of a reported chain, and the one for its first blocks up to number `j`.
def Update.exactRequest (h : Bytes) (ttftBudgetMs : Int32) : LookupRequest where
  model := u.model
  tenant := u.tenant
  hashScheme := u.hashScheme
  adapter := if p.adapter = [] then u.adapter else p.adapter
  prefixHash := h
  blockHashes := []
  blockTokenCounts := []
  ttftBudgetMs := ttftBudgetMs

def Update.chainRequest (j : Nat) (h : Bytes) (ttftBudgetMs : Int32) : LookupRequest :=
  { u.exactRequest p h ttftBudgetMs with
    blockHashes      := p.blockHashes.take (j + 1)
    blockTokenCounts := p.blockTokenCounts.take (j + 1) }

end Requests

def PrefixRef.tokensUpTo (p : PrefixRef) (j : Nat) : Int32 :=
  Index.tokensFrom 0 ((p.blockHashes.zip p.blockTokenCounts).take (j + 1))

-- A chain that is well formed, names no block twice, and covers a number of tokens that fits.
structure PrefixRef.IsChain (p : PrefixRef) : Prop where
  length   : p.blockHashes.length = p.blockTokenCounts.length
  distinct : p.blockHashes.Nodup
  positive : ∀ n ∈ p.blockTokenCounts, 0 < n
  fits     : (p.blockTokenCounts.map Int32.toInt).sum < 2 ^ 31

-- Each block keeps the count it is stored with, since no later block of the chain has the same key.
theorem find_chainUpserts {keyOf : Bytes → PrefixKey} (hk : Function.Injective keyOf) {tier : CacheTier}
    {n : Int32} {l : List (Bytes × Int32)} (hl : (l.map Prod.fst).Nodup) {j : Nat} {b : Bytes × Int32}
    (hj : l[j]? = some b) :
    (chainUpserts keyOf tier n l).reverse.find? (·.key = keyOf b.1) =
      some ⟨keyOf b.1, Index.tokensFrom n (l.take (j + 1)), tier⟩ := by
  induction l generalizing n j
  case nil => simp at hj
  case cons x l hi =>
    have ⟨hx, hl⟩ := List.nodup_cons.mp hl
    rw [chainUpserts, List.reverse_cons, List.find?_append]
    cases j
    case zero =>
      have hb : x = b := Option.some.inj hj
      have hn : (chainUpserts keyOf tier (n + x.2) l).reverse.find? (·.key = keyOf b.1) = none := by
        refine List.find?_eq_none.mpr fun q hq he => hx ?_
        have ⟨c, hc, hq⟩ := chainUpserts_key (List.mem_reverse.mp hq)
        rw [hq, decide_eq_true_iff] at he
        exact hb ▸ hk he ▸ List.mem_map_of_mem hc
      rw [hn, Option.none_or, List.find?_singleton, hb, if_pos (by simp)]
      rfl
    case succ j =>
      rw [hi hl hj, Option.some_or]
      rfl

namespace PrefixRef

variable {p : PrefixRef} {j : Nat} {h : Bytes}

theorem IsChain.getElem?_zip (hp : p.IsChain) (hj : p.blockHashes[j]? = some h) :
    ∃ n, (p.blockHashes.zip p.blockTokenCounts)[j]? = some (h, n) := by
  have hlt : j < p.blockTokenCounts.length := hp.length ▸ (List.getElem?_eq_some_iff.mp hj).1
  exact ⟨p.blockTokenCounts[j], List.getElem?_zip_eq_some.mpr ⟨hj, List.getElem?_eq_getElem hlt⟩⟩

theorem IsChain.tokensUpTo_pos (hp : p.IsChain) (hj : p.blockHashes[j]? = some h) : 0 < p.tokensUpTo j := by
  have hm : ((p.blockHashes.zip p.blockTokenCounts).take (j + 1)).map Prod.snd =
      p.blockTokenCounts.take (j + 1) := by
    rw [List.map_take, List.map_snd_zip hp.length.ge]
  have hle : ∀ n ∈ p.blockTokenCounts, 0 ≤ n := fun n hn => Int32.le_of_lt (hp.positive n hn)
  have hs : (p.blockTokenCounts.map Int32.toInt).sum =
      ((p.blockTokenCounts.take (j + 1)).map Int32.toInt).sum +
        ((p.blockTokenCounts.drop (j + 1)).map Int32.toInt).sum := by
    rw [← List.sum_append, ← List.map_append, List.take_append_drop]
  have hd : 0 ≤ ((p.blockTokenCounts.drop (j + 1)).map Int32.toInt).sum :=
    Int32.sum_toInt_nonneg fun n hn => hle n (List.mem_of_mem_drop hn)
  have hb : (0 : Int32).toInt + ((p.blockTokenCounts.take (j + 1)).map Int32.toInt).sum < 2 ^ 31 := by
    have ht := hp.fits
    rw [Int32.toInt_zero]
    omega
  have hf := Int32.toInt_foldl_add (fun n hn => hle n (List.mem_of_mem_take hn)) (by decide) hb
  have hpos : 0 < ((p.blockTokenCounts.take (j + 1)).map Int32.toInt).sum := by
    refine List.sum_pos _ ?pos ?ne
    case pos =>
      intro x hx
      have ⟨n, hn, he⟩ := List.mem_map.mp hx
      exact he ▸ Int32.lt_iff_toInt_lt.mp (hp.positive n (List.mem_of_mem_take hn))
    case ne =>
      have hlt : j < p.blockTokenCounts.length := hp.length ▸ (List.getElem?_eq_some_iff.mp hj).1
      refine List.ne_nil_of_length_pos ?_
      rw [List.length_map, List.length_take]
      omega
  rw [Int32.lt_iff_toInt_lt, tokensUpTo, Index.tokensFrom, ← List.foldl_map, hm, hf]
  simpa using hpos

end PrefixRef

namespace Index

variable {cfg : Config F} {i : Index F} {env env' : Env} {u : Update F} {p : PrefixRef} {j : Nat} {h : Bytes}

-- What the entry of a block is stored with. A single hash that comes with the chain is stored last.
def storedTokens (p : PrefixRef) (h : Bytes) (j : Nat) : Int32 :=
  if p.prefixHash ≠ [] ∧ p.prefixHash = h then p.tokenCount else p.tokensUpTo j

theorem upserts_of_chain (hu : u.prefixes = [p]) (hs : u.hashScheme ≠ []) (hp : p.IsChain)
    (hn : p.blockHashes ≠ []) :
    u.upserts =
      chainUpserts (u.keyOf p) (normalizeIngestTier p.tier) 0 (p.blockHashes.zip p.blockTokenCounts) ++
      if p.prefixHash ≠ [] then [⟨u.keyOf p p.prefixHash, p.tokenCount, normalizeIngestTier p.tier⟩] else [] := by
  simp only [Update.upserts, if_neg hs, hu, List.flatMap_singleton, Update.upsertsOf, List.length_pos_iff,
    if_pos (Or.inl hn), if_neg (not_not.mpr hp.length)]

theorem latest_of_chain (hu : u.prefixes = [p]) (hs : u.hashScheme ≠ []) (hp : p.IsChain)
    (hj : p.blockHashes[j]? = some h) :
    u.latest (u.keyOf p h) = some ⟨u.keyOf p h, storedTokens p h j, normalizeIngestTier p.tier⟩ := by
  have ⟨n, hz⟩ := hp.getElem?_zip hj
  have hne : p.blockHashes ≠ [] := List.ne_nil_of_mem (List.mem_of_getElem? hj)
  have hn : ((p.blockHashes.zip p.blockTokenCounts).map Prod.fst).Nodup := by
    rw [List.map_fst_zip hp.length.le]
    exact hp.distinct
  have hk : Function.Injective (u.keyOf p) := fun _ _ he => congrArg PrefixKey.prefixHash he
  rw [Update.latest, upserts_of_chain hu hs hp hne, List.reverse_append, List.find?_append,
    find_chainUpserts hk hn hz, storedTokens]
  by_cases hl : p.prefixHash ≠ [] ∧ p.prefixHash = h
  case pos => simp [hl.2 ▸ hl.1, hl.2]
  case neg =>
    rw [if_neg hl]
    split
    case isFalse => rfl
    case isTrue hne =>
      have hd : u.keyOf p p.prefixHash ≠ u.keyOf p h := fun he => hl ⟨hne, hk he⟩
      simp [hd, PrefixRef.tokensUpTo]

section Fresh

variable [GoFloat F]

theorem freshEntry_of_chain (req : LookupRequest) (hu : u.prefixes = [p]) (hs : u.hashScheme ≠ []) (hp : p.IsChain)
    (he : (i.ingest cfg env u).entries = (i.recordUpdate cfg env u).entries) (hk : req.keyOf = u.keyOf p)
    (hf : stale cfg env' req (u.seenAt env) = false) (hj : p.blockHashes[j]? = some h) :
    ∃ e, (i.ingest cfg env u).freshEntry cfg env' req u.replicaID h = some e ∧
      e.tokenCount = storedTokens p h j := by
  refine ⟨refreshed (i.entryAt (u.keyOf p h) u.replicaID) (storedTokens p h j) (normalizeIngestTier p.tier)
    (u.seenAt env), ?_, rfl⟩
  have hx : (i.ingest cfg env u).entryAt (u.keyOf p h) u.replicaID =
      (i.recordUpdate cfg env u).entryAt (u.keyOf p h) u.replicaID := by
    have hl := congrArg (Finmap.lookup (u.keyOf p h, u.replicaID)) he
    rwa [lookup_entries, lookup_entries] at hl
  rw [freshEntry, hk, hx, entryAt_recordUpdate, if_pos rfl, latest_of_chain hu hs hp hj, Option.map_some,
    Option.some_or, Option.filter_some, if_pos]
  simp only [refreshed, hf, Bool.not_false]

theorem heldBlocks_of_chain {x : Bytes} {ttft : Int32} (hu : u.prefixes = [p]) (hs : u.hashScheme ≠ [])
    (hp : p.IsChain) (he : (i.ingest cfg env u).entries = (i.recordUpdate cfg env u).entries)
    (hf : stale cfg env' (u.chainRequest p j x ttft) (u.seenAt env) = false) :
    (i.ingest cfg env u).heldBlocks cfg env' (u.chainRequest p j x ttft) u.replicaID =
      (p.blockHashes.zip p.blockTokenCounts).take (j + 1) := by
  have hb : blocks (u.chainRequest p j x ttft) = (p.blockHashes.zip p.blockTokenCounts).take (j + 1) :=
    List.take_zipWith.symm
  rw [heldBlocks, hb, List.takeWhile_eq_self_iff]
  intro b hb
  have ⟨k, hk⟩ := List.mem_iff_getElem?.mp (List.mem_of_mem_take hb)
  have ⟨hh, _⟩ := List.getElem?_zip_eq_some.mp hk
  have ⟨e, hfe, _⟩ := freshEntry_of_chain (u.chainRequest p j x ttft) hu hs hp he rfl hf hh
  rw [holdsBlock, hfe]
  rfl

end Fresh

-- The two ways to ask for the blocks of a chain up to number `j` agree, unless the report also carried
-- the hash of that block on its own, with another number of tokens.
theorem exact_agrees_with_chain_iff [GoFloat F] (cfg : Config F) (i : Index F) (env : Env) (u : Update F)
    (p : PrefixRef) (hu : u.prefixes = [p]) (hs : u.hashScheme ≠ []) (hp : p.IsChain)
    (he : (i.ingest cfg env u).entries = (i.recordUpdate cfg env u).entries) (env' : Env) (j : Nat)
    (h : Bytes) (hj : p.blockHashes[j]? = some h) (x : Bytes) (ttft ttft' : Int32)
    (hf : stale cfg env' (u.exactRequest p h ttft) (u.seenAt env) = false) :
    ∃ a ∈ (i.ingest cfg env u).lookup cfg env' (u.exactRequest p h ttft),
    ∃ c ∈ (i.ingest cfg env u).lookup cfg env' (u.chainRequest p j x ttft'),
      a.replicaID = u.replicaID ∧ c.replicaID = u.replicaID ∧ c.matchedTokens = p.tokensUpTo j ∧
      (a.matchedTokens = c.matchedTokens ↔
        (p.prefixHash ≠ [] → p.prefixHash = h → p.tokenCount = p.tokensUpTo j)) := by
  have hlt : j < p.blockHashes.length := (List.getElem?_eq_some_iff.mp hj).1
  have hx : ∃ a ∈ (i.ingest cfg env u).lookup cfg env' (u.exactRequest p h ttft),
      a.replicaID = u.replicaID ∧ a.matchedTokens = storedTokens p h j := by
    rw [lookup_of_no_chain hs rfl rfl]
    have ⟨e, hfe, ht⟩ := freshEntry_of_chain (u.exactRequest p h ttft) hu hs hp he rfl hf hj
    have hm : (u.replicaID, e.tokenCount, e.tier) ∈ ((i.ingest cfg env u).lookupExact cfg env'
        (u.exactRequest p h ttft)).1.map ReplicaScore.found := mem_found_lookupExact.mpr ⟨e, hfe, rfl⟩
    have ⟨a, ha, hfa⟩ := List.mem_map.mp hm
    exact ⟨a, ha, congrArg Prod.fst hfa, (congrArg (·.2.1) hfa).trans ht⟩
  have hc : ∃ c ∈ (i.ingest cfg env u).lookup cfg env' (u.chainRequest p j x ttft'),
      c.replicaID = u.replicaID ∧ c.matchedTokens = p.tokensUpTo j := by
    have hpos : 0 < (p.blockHashes.take (j + 1)).length := by rw [List.length_take]; omega
    have hlen : (p.blockHashes.take (j + 1)).length = (p.blockTokenCounts.take (j + 1)).length := by
      rw [List.length_take, List.length_take, hp.length]
    have hh : (i.ingest cfg env u).heldBlocks cfg env' (u.chainRequest p j x ttft') u.replicaID =
        (p.blockHashes.zip p.blockTokenCounts).take (j + 1) := heldBlocks_of_chain hu hs hp he hf
    rw [lookup_of_chain hs hpos hlen, matched_lookupChain_iff, hh]
    refine ⟨?_, rfl, hp.tokensUpTo_pos hj⟩
    have ⟨n, hz⟩ := hp.getElem?_zip hj
    exact List.ne_nil_of_mem (List.mem_of_getElem? (i := j) (by rw [List.getElem?_take_of_succ, hz]))
  have ⟨a, ha, hai, ham⟩ := hx
  have ⟨c, hc, hci, hcm⟩ := hc
  refine ⟨a, ha, c, hc, hai, hci, hcm, ?_⟩
  rw [ham, hcm, storedTokens]
  split
  case isTrue hl  => exact ⟨fun ht _ _ => ht, fun ht => ht hl.1 hl.2⟩
  case isFalse hl => exact iff_of_true rfl fun h₁ h₂ => absurd ⟨h₁, h₂⟩ hl

section

-- Two blocks, with the hash of the first one once more on its own, for all the tokens.
def twoBlocks : PrefixRef :=
  ⟨[1], 32, [[1], [2]], [16, 16], CacheTier.unspecified, []⟩

def reportTwoBlocks : Update ℚ :=
  { Update.single [0x74] [0x61] [] 0 with prefixes := [twoBlocks] }

theorem isChain_twoBlocks : twoBlocks.IsChain where
  length := rfl
  distinct := by decide
  positive := by simp [twoBlocks]
  fits := by decide

theorem exact_agrees_with_chain_iff_second_block :
    ∃ a ∈ (new.ingest probed (.still 9) reportTwoBlocks).lookup probed (.still 10)
        (reportTwoBlocks.exactRequest twoBlocks [2] 0),
    ∃ c ∈ (new.ingest probed (.still 9) reportTwoBlocks).lookup probed (.still 10)
        (reportTwoBlocks.chainRequest twoBlocks 1 [] 0), a.matchedTokens = c.matchedTokens := by
  have ⟨a, ha, c, hc, _, _, _, h⟩ := exact_agrees_with_chain_iff probed new (.still 9) reportTwoBlocks twoBlocks
    rfl (by decide) isChain_twoBlocks rfl (.still 10) 1 [2] rfl [] 0 0 (by decide +kernel)
  exact ⟨a, ha, c, hc, h.mpr fun _ he => absurd he (by decide)⟩

theorem single_hash_overrides_block :
    twoBlocks.IsChain ∧
    ((new.ingest probed (.still 9) reportTwoBlocks).lookup probed (.still 10)
      (reportTwoBlocks.exactRequest twoBlocks [1] 0)).map ReplicaScore.found = [([0x61], 32, CacheTier.t1)] ∧
    ((new.ingest probed (.still 9) reportTwoBlocks).lookup probed (.still 10)
      (reportTwoBlocks.chainRequest twoBlocks 0 [] 0)).map ReplicaScore.found = [([0x61], 16, CacheTier.t1)] :=
  ⟨isChain_twoBlocks, by decide +kernel, by decide +kernel⟩

end

end Index

end InferenceCache
