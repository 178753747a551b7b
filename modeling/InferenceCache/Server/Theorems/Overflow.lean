import InferenceCache.Index.Theorems.LongestPrefix
import InferenceCache.Server.Handler

-- Counts of tokens are summed up in 32 bits.
namespace InferenceCache.Server

variable {F : Type} [GoFloat F] {cfg : Config F} {i : Index F} {env : Env}

section Sums

def exactSum (counts : List Int32) : Int :=
  (counts.map Int32.toInt).sum

theorem exactSum_nonneg {counts : List Int32} (h : ∀ n ∈ counts, 0 ≤ n) : 0 ≤ exactSum counts :=
  Int32.sum_toInt_nonneg h

@[simp]
theorem exactSum_append {a b : List Int32} : exactSum (a ++ b) = exactSum a + exactSum b := by
  simp [exactSum]

theorem toInt_sum {counts : List Int32} (h : ∀ n ∈ counts, 0 ≤ n) (hs : exactSum counts < 2 ^ 31) :
    (counts.foldl (· + ·) 0).toInt = exactSum counts := by
  have hf := Int32.toInt_foldl_add (n := 0) h (by decide) (by simpa [exactSum] using hs)
  simpa [exactSum] using hf

end Sums

section Chain

variable {req : LookupRequest} {id id' : GoString}

theorem exactSum_heldBlocks_le (h : ∀ n ∈ req.blockTokenCounts, 0 ≤ n)
    (hl : req.blockHashes.length = req.blockTokenCounts.length) {l : List (Bytes × Int32)}
    (hp : l <+: Index.blocks req) :
    (∀ n ∈ l.map Prod.snd, 0 ≤ n) ∧ exactSum (l.map Prod.snd) ≤ exactSum req.blockTokenCounts := by
  have hb : (Index.blocks req).map Prod.snd = req.blockTokenCounts := List.map_snd_zip hl.ge
  have ⟨l', hl'⟩ := hp
  rw [← hl', List.map_append] at hb
  rw [← hb] at h ⊢
  have ⟨ha, hb⟩ := List.forall_mem_append.mp h
  have hr := exactSum_nonneg hb
  exact ⟨ha, by rw [exactSum_append]; omega⟩

theorem toInt_tokensFrom (h : ∀ n ∈ req.blockTokenCounts, 0 ≤ n)
    (hl : req.blockHashes.length = req.blockTokenCounts.length)
    (hs : exactSum req.blockTokenCounts < 2 ^ 31) {l : List (Bytes × Int32)} (hp : l <+: Index.blocks req) :
    (Index.tokensFrom 0 l).toInt = exactSum (l.map Prod.snd) := by
  have ⟨ha, hle⟩ := exactSum_heldBlocks_le h hl hp
  have ht : Index.tokensFrom 0 l = (l.map Prod.snd).foldl (· + ·) 0 := by rw [Index.tokensFrom, List.foldl_map]
  rw [ht, toInt_sum ha (hle.trans_lt hs)]

-- A replica that got at least as far is not dropped, and has matched at least as many tokens.
theorem matched_of_extends (h : ∀ n ∈ req.blockTokenCounts, 0 ≤ n)
    (hl : req.blockHashes.length = req.blockTokenCounts.length)
    (hs : exactSum req.blockTokenCounts < 2 ^ 31)
    (hp : i.heldBlocks cfg env req id <+: i.heldBlocks cfg env req id') {sc : ReplicaScore F}
    (hm : sc ∈ (i.lookupChain cfg env req).1) (hi : sc.replicaID = id) :
    ∃ sc' ∈ (i.lookupChain cfg env req).1, sc'.replicaID = id' ∧ sc.matchedTokens ≤ sc'.matchedTokens := by
  have ⟨hne, hn, hpos⟩ := Index.matched_lookupChain_iff.mp ⟨sc, hm, hi, rfl⟩
  have hb (id) : i.heldBlocks cfg env req id <+: Index.blocks req := List.takeWhile_prefix _
  have hsum := toInt_tokensFrom h hl hs (hb id)
  have hsum' := toInt_tokensFrom h hl hs (hb id')
  have hle : (Index.tokensFrom 0 (i.heldBlocks cfg env req id)).toInt ≤
      (Index.tokensFrom 0 (i.heldBlocks cfg env req id')).toInt := by
    have ⟨ha, _⟩ := exactSum_heldBlocks_le h hl (hb id')
    have ⟨l, hl⟩ := hp
    rw [hsum, hsum', ← hl, List.map_append, exactSum_append]
    rw [← hl, List.map_append] at ha
    have hr := exactSum_nonneg (List.forall_mem_append.mp ha).right
    omega
  rw [← Int32.le_iff_toInt_le, ← hn] at hle
  have hne' : i.heldBlocks cfg env req id' ≠ [] := fun he => hne (List.prefix_nil.mp (he ▸ hp))
  have ⟨sc', hm', hi', ht⟩ := Index.matched_lookupChain_iff.mpr ⟨hne', rfl, Int32.lt_of_lt_of_le hpos hle⟩
  exact ⟨sc', hm', hi', ht ▸ hle⟩

end Chain

section Request

variable {s : Service} {hashSeed : Bytes → UInt64 → UInt64} {req : Wire.LookupRouteRequest}

-- What the sums of a request are used for: the results of the index, and the gate for short prefixes.
structure NeverWraps (cfg : Config F) (s : Service) (hashSeed : Bytes → UInt64 → UInt64)
    (req : Wire.LookupRouteRequest) : Prop where
  deeper : ∀ (i : Index F) (env : Env) (slotFree : Bool) (id id' : GoString),
    let lookup := lookupRequest req (resolveLookupChain s hashSeed slotFree req true) true
    i.heldBlocks cfg env lookup id <+: i.heldBlocks cfg env lookup id' →
    ∀ sc ∈ (i.lookupChain cfg env lookup).1, sc.replicaID = id →
      ∃ sc' ∈ (i.lookupChain cfg env lookup).1, sc'.replicaID = id' ∧ sc.matchedTokens ≤ sc'.matchedTokens
  gate   : ∀ slotFree, (resolveLookupChain s hashSeed slotFree req true).effectiveTokens.toInt =
    exactSum req.blockTokenCounts

theorem resolveLookupChain_of_chain (h : requestCarriesValidBlockHashChain req = true) :
    resolveLookupChain s hashSeed slotFree req true =
      { exactPrefixHash := req.prefixHash, exactTokenCount := req.prefixTokenCount,
        blockHashes := req.blockHashes, blockTokenCounts := req.blockTokenCounts } := by
  have ⟨hp, hl⟩ : 0 < req.blockHashes.length ∧ req.blockHashes.length = req.blockTokenCounts.length := by
    simpa [requestCarriesValidBlockHashChain] using h
  simp only [resolveLookupChain, Bool.not_true, Bool.false_eq_true, false_and, if_false, decide_false]
  rw [if_pos (.inl hp), if_neg (not_not.mpr hl)]

end Request

theorem sums_are_exact (cfg : Config F) (s : Service) (hashSeed : Bytes → UInt64 → UInt64)
    (req : Wire.LookupRouteRequest) (hv : requestCarriesValidBlockHashChain req = true)
    (hn : ∀ n ∈ req.blockTokenCounts, 0 ≤ n) :
    NeverWraps cfg s hashSeed req ↔ exactSum req.blockTokenCounts < 2 ^ 31 := by
  have ⟨hp, hl⟩ : 0 < req.blockHashes.length ∧ req.blockHashes.length = req.blockTokenCounts.length := by
    simpa [requestCarriesValidBlockHashChain] using hv
  constructor
  case mp =>
    intro h
    rw [← h.gate true]
    exact Int32.toInt_lt _
  case mpr =>
    intro hs
    refine ⟨fun i env slotFree id id' => ?_, fun slotFree => ?_⟩
    case refine_1 =>
      rw [resolveLookupChain_of_chain hv]
      exact fun hp sc hm hi => matched_of_extends hn hl hs hp hm hi
    case refine_2 =>
      rw [resolveLookupChain_of_chain hv]
      rw [LookupInputs.effectiveTokens, effectivePrefixTokens, if_pos (hl ▸ hp), toInt_sum hn hs]

section

def plainService : Service :=
  ⟨16, fun _ _ => none, by decide⟩

def chainRequest (counts : List Int32) : Wire.LookupRouteRequest where
  modelID := utf8 "m"
  tenantID := utf8 "t"
  hashScheme := utf8 "s"
  blockHashes := [[1], [2]]
  blockTokenCounts := counts

def plainConfig : Config ℚ :=
  .new 0 100 .default []

theorem sums_are_exact_two_blocks :
    NeverWraps plainConfig plainService (fun _ _ => 0) (chainRequest [16, 16]) ↔
      exactSum (chainRequest [16, 16]).blockTokenCounts < 2 ^ 31 :=
  sums_are_exact plainConfig plainService (fun _ _ => 0) (chainRequest [16, 16]) (by decide +kernel)
    (List.forall_mem_cons.mpr ⟨by decide, List.forall_mem_singleton.mpr (by decide)⟩)

def chainLookup (counts : List Int32) : LookupRequest :=
  lookupRequest (chainRequest counts) (resolveLookupChain plainService (fun _ _ => 0) true (chainRequest counts) true)
    true

-- Both replicas hold the first block, and one of them also the second one.
def oneDeeper : Index ℚ where
  __       := (Index.new : Index ℚ)
  prefixes :=
    ((∅ : GoMap PrefixKey (GoMap GoString ReplicaEntry)).insert ((chainLookup []).keyOf [1])
      (((∅ : GoMap GoString ReplicaEntry).insert (utf8 "a") ⟨16, 0, .t1, 0⟩).insert (utf8 "b") ⟨16, 0, .t1, 0⟩)).insert
        ((chainLookup []).keyOf [2]) ((∅ : GoMap GoString ReplicaEntry).insert (utf8 "b") ⟨32, 0, .t1, 0⟩)

-- The deeper match has a negative count and is dropped, and the prefix counts as too short.
theorem deeper_match_is_dropped :
    let counts : List Int32 := [2147483647, 1]
    oneDeeper.heldBlocks plainConfig (.still 0) (chainLookup counts) (utf8 "a") <+:
      oneDeeper.heldBlocks plainConfig (.still 0) (chainLookup counts) (utf8 "b") ∧
    (oneDeeper.lookupChain plainConfig (.still 0) (chainLookup counts)).1.map ReplicaScore.replicaID =
      [utf8 "a"] ∧
    (resolveLookupChain plainService (fun _ _ => 0) true (chainRequest counts) true).effectiveTokens.toInt =
      -2 ^ 31 ∧
    exactSum counts = 2 ^ 31 := by
  decide +kernel

end

end InferenceCache.Server
