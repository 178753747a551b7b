import InferenceCache.Server.Theorems.Served

-- Which uses a call counts.
namespace InferenceCache

variable {F : Type} [GoFloat F]

namespace Index

variable {cfg : Config F} {i : Index F} {env : Env} {req : LookupRequest} {key : PrefixKey} {r : GoString}

-- Whether an entry of a replica is among what a lookup has matched: an entry of its run through the
-- chain, or else the one of the single hash, if it has tokens.
def Matched (cfg : Config F) (i : Index F) (env : Env) (req : LookupRequest) (key : PrefixKey)
    (r : GoString) : Prop :=
  if req.chainBearing then ∃ b ∈ i.heldBlocks cfg env req r, key = req.keyOf b.1
  else key = req.keyOf req.prefixHash ∧ ∃ e, i.freshEntry cfg env req r req.prefixHash = some e ∧ 0 < e.tokenCount

theorem mem_matchedKeys_iff : key ∈ i.matchedKeys cfg env req r ↔
    i.Matched cfg env req key r ∧
      (req.chainBearing → 0 < tokensFrom 0 (i.heldBlocks cfg env req r)) := by
  unfold matchedKeys Matched
  cases req.chainBearing
  case false =>
    cases i.freshEntry cfg env req r req.prefixHash
    case none => simp
    case some e => by_cases hp : 0 < e.tokenCount <;> simp [hp]
  case true =>
    by_cases hp : 0 < tokensFrom 0 (i.heldBlocks cfg env req r) <;> simp [hp, eq_comm]

-- A replica is listed for a chain if it has matched some of its tokens.
theorem mem_ids_iff_of_chain (hd : dropped req = false) (hc : req.chainBearing) :
    r ∈ (i.lookupWithHits cfg env req).1.map ReplicaScore.replicaID ↔
      0 < tokensFrom 0 (i.heldBlocks cfg env req r) := by
  simp only [dropped, decide_eq_false_iff_not, not_or, not_and, not_not] at hd
  rw [lookupWithHits, if_neg hd.2.2.1, if_pos hc, if_neg (not_not.mpr <| hd.2.2.2 hc), List.mem_map]
  constructor
  case mp =>
    rintro ⟨sc, hsc, hr⟩
    obtain ⟨_, he, hp⟩ := matched_lookupChain_iff.mp ⟨sc, hsc, hr, rfl⟩
    exact he ▸ hp
  case mpr =>
    intro hp
    have hn : i.heldBlocks cfg env req r ≠ [] := fun hn => by simp [hn, tokensFrom] at hp
    obtain ⟨sc, hsc, hr, _⟩ := matched_lookupChain_iff.mpr ⟨hn, rfl, hp⟩
    exact ⟨sc, hsc, hr⟩

theorem tokens_of_mem (hd : dropped req = false) (hc : req.chainBearing) {sc : ReplicaScore F}
    (h : sc ∈ (i.lookupWithHits cfg env req).1) (hr : sc.replicaID = r) :
    sc.matchedTokens = tokensFrom 0 (i.heldBlocks cfg env req r) := by
  simp only [dropped, decide_eq_false_iff_not, not_or, not_and, not_not] at hd
  rw [lookupWithHits, if_neg hd.2.2.1, if_pos hc, if_neg (not_not.mpr <| hd.2.2.2 hc)] at h
  exact (matched_lookupChain_iff.mp ⟨sc, h, hr, rfl⟩).2.1

theorem entryAt_of_matched (h : i.Matched cfg env req key r) : ∃ e, i.entryAt key r = some e := by
  have hf : ∀ {b e}, i.freshEntry cfg env req r b = some e → i.entryAt (req.keyOf b) r = some e :=
    fun he => (Option.filter_eq_some_iff.mp he).1
  unfold Matched at h
  split at h
  case isFalse =>
    have ⟨hk, e, he, _⟩ := h
    exact ⟨e, hk ▸ hf he⟩
  case isTrue =>
    have ⟨b, hb, hk⟩ := h
    have hs : i.holdsBlock cfg env req r b := List.mem_takeWhile_imp hb
    have ⟨e, he⟩ := Option.isSome_iff_exists.mp hs
    exact ⟨e, hk ▸ hf he⟩

theorem keyOf_injective : Function.Injective req.keyOf := by
  intro a b h
  cases h
  rfl

-- An entry can only come up twice if its block does.
theorem nodup_matchedKeys_iff : (i.matchedKeys cfg env req r).Nodup ↔
    ¬(req.chainBearing ∧ 0 < tokensFrom 0 (i.heldBlocks cfg env req r) ∧
      ¬((i.heldBlocks cfg env req r).map Prod.fst).Nodup) := by
  have hm : (i.heldBlocks cfg env req r).map (req.keyOf ·.1) =
      ((i.heldBlocks cfg env req r).map Prod.fst).map req.keyOf := by
    rw [List.map_map]
    rfl
  unfold matchedKeys
  cases req.chainBearing
  case false =>
    cases i.freshEntry cfg env req r req.prefixHash
    case none => simp
    case some e => by_cases hp : 0 < e.tokenCount <;> simp [hp]
  case true =>
    rw [hm, if_pos rfl]
    by_cases hp : 0 < tokensFrom 0 (i.heldBlocks cfg env req r)
    case neg => simp [hp]
    case pos =>
      rw [if_pos hp, List.nodup_map_iff keyOf_injective]
      simp [hp]

end Index

namespace Server.Handler

variable {s : Handler F} {hashSeed : Bytes → UInt64 → UInt64} {sha256 : Bytes → Bytes} {i i' : Index F}
variable {env env' : Env} {tm : Timing} {req : Wire.LookupRouteRequest} {resp : Wire.LookupRouteResponse F}
variable {key : PrefixKey} {r : GoString} {result : LookupResult F} {floor : Int32}

section Uses

def usesOf (s : Handler F) (hashSeed : Bytes → UInt64 → UInt64) (i : Index F) (env : Env) (tm : Timing)
    (req : Wire.LookupRouteRequest) (resp : Wire.LookupRouteResponse F) (key : PrefixKey) (r : GoString) :
    Nat :=
  if Index.lfu env (s.indexRequest hashSeed tm req) ∧ resp.reasonCode = .prefixMatch ∧
      r ∈ resp.replicaScores.map Wire.ReplicaScore.replicaID then
    (i.matchedKeys s.cfg env (s.indexRequest hashSeed tm req) r).count key
  else 0

theorem usesOf_of_ne (h : resp.reasonCode ≠ .prefixMatch) :
    s.usesOf hashSeed i env tm req resp key r = 0 :=
  if_neg fun hn => h hn.2.1

omit [GoFloat F] in
theorem hits_above : ((result.above floor).hitsByReplica.lookup r).getD [] =
    if r ∈ (result.above floor).scores.map ReplicaScore.replicaID then (result.hitsByReplica.lookup r).getD []
    else [] := by
  have hf : (result.above floor).hitsByReplica.lookup r = (result.hitsByReplica.lookup r).filter
      fun _ => r ∈ (result.above floor).scores.map ReplicaScore.replicaID := Finmap.lookup_filter
  rw [hf]
  split
  case isTrue h => simp only [h, decide_true]; cases result.hitsByReplica.lookup r <;> rfl
  case isFalse h => simp only [h, decide_false]; cases result.hitsByReplica.lookup r <;> rfl

theorem count_hits_passes (hl : i.lookupRoute s.cfg env (s.indexRequest hashSeed tm req) = result)
    (hs : result.strategy = .prefixMatch) :
    (((result.above floor).hitsByReplica.lookup r).getD []).count key =
      s.usesOf hashSeed i env tm req
        (responseOf tm req (s.inputs hashSeed tm req) (result.above floor)) key r := by
  have ⟨hd, hh⟩ := Index.hits_of_prefixMatch (hl ▸ hs)
  have hr : (responseOf tm req (s.inputs hashSeed tm req) (result.above floor)).reasonCode = .prefixMatch :=
    reasonForStrategy_eq_prefixMatch.mpr hs
  have hi : (responseOf tm req (s.inputs hashSeed tm req) (result.above floor)).replicaScores.map
      Wire.ReplicaScore.replicaID = (result.above floor).scores.map ReplicaScore.replicaID :=
    List.map_map
  rw [hits_above, ← hl, hh, Index.hits_lookupWithHits hd, hl, usesOf, hr, hi]
  split
  case isTrue h => split <;> simp_all
  case isFalse h => simp_all

theorem count_hits_outcome : (((s.outcome hashSeed i env tm req).hitsByReplica.lookup r).getD []).count key =
    s.usesOf hashSeed i env tm req
      (responseOf tm req (s.inputs hashSeed tm req) (s.outcome hashSeed i env tm req)) key r := by
  by_cases h : (s.outcome hashSeed i env tm req).strategy = .prefixMatch
  case pos =>
    have ⟨hp, ho⟩ := outcome_of_prefixMatch h
    rw [ho]
    exact count_hits_passes rfl hp.strategy
  case neg =>
    rw [hits_outcome_of_ne h, usesOf_of_ne (reasonForStrategy_eq_prefixMatch.not.mpr h)]
    rfl

theorem entryAt_lookupRoute (s : Handler F) (hashSeed : Bytes → UInt64 → UInt64) (sha256 : Bytes → Bytes)
    (i : Index F) (env env' : Env) (tm : Timing) (req : Wire.LookupRouteRequest) (key : PrefixKey)
    (r : GoString) :
    (s.lookupRoute hashSeed sha256 i env env' tm req).2.entryAt key r =
      (i.entryAt key r).map (·.used (s.usesOf hashSeed i env tm req
        (s.lookupRoute hashSeed sha256 i env env' tm req).1 key r)) := by
  have ha := s.answer hashSeed sha256 i env env' tm req
  generalize s.lookupRoute hashSeed sha256 i env env' tm req = res at ha
  cases ha
  case failsOpen resp _ hf _ =>
    rw [usesOf_of_ne (by rcases hf.reason with h | h | h <;> simp [h])]
    simp [ReplicaEntry.used_zero]
  case affinity resp _ _ ha =>
    rw [usesOf_of_ne (by simp [reason_tryAffinityResponse ha])]
    simp [ReplicaEntry.used_zero]
  case delivers => rw [Index.entryAt_creditHits, count_hits_outcome]

theorem entryAt_lookupRoute_some {e : ReplicaEntry} (he : i.entryAt key r = some e) :
    (s.lookupRoute hashSeed sha256 i env env' tm req).2.entryAt key r =
      some (e.used <| s.usesOf hashSeed i env tm req
        (s.lookupRoute hashSeed sha256 i env env' tm req).1 key r) := by
  rw [entryAt_lookupRoute, he, Option.map_some]

end Uses

section Delivered

-- That an entry is among what is delivered to the caller.
structure Delivers (s : Handler F) (hashSeed : Bytes → UInt64 → UInt64) (i : Index F) (env : Env)
    (tm : Timing) (req : Wire.LookupRouteRequest) (resp : Wire.LookupRouteResponse F) (key : PrefixKey)
    (r : GoString) : Prop where
  lfu     : env.evictionFor req.tenantID = .lfu
  reason  : resp.reasonCode = .prefixMatch
  listed  : r ∈ resp.replicaScores.map Wire.ReplicaScore.replicaID
  matched : i.Matched s.cfg env (s.indexRequest hashSeed tm req) key r

-- What a call may do to the index it returns.
structure Credited (s : Handler F) (hashSeed : Bytes → UInt64 → UInt64) (i : Index F) (env : Env)
    (tm : Timing) (req : Wire.LookupRouteRequest) (res : Wire.LookupRouteResponse F × Index F) : Prop where
  rises_iff : ∀ key r e, i.entryAt key r = some e → ∃ e', res.2.entryAt key r = some e' ∧
    (e.accessCount < e'.accessCount ↔ s.Delivers hashSeed i env tm req res.1 key r)
  unchanged : ∀ key r, ¬s.Delivers hashSeed i env tm req res.1 key r → res.2.entryAt key r = i.entryAt key r
  idle      : res.1.reasonCode ≠ .prefixMatch → res.2 = i

omit [GoFloat F] in
theorem ids_above_subset (h : r ∈ (result.above floor).scores.map ReplicaScore.replicaID) :
    r ∈ result.scores.map ReplicaScore.replicaID :=
  (LookupResult.above_sublist.map _).subset h

theorem mem_ids_of_prefixMatch
    (h : (s.lookupRoute hashSeed sha256 i env env' tm req).1.reasonCode = .prefixMatch)
    (hr : r ∈ (s.lookupRoute hashSeed sha256 i env env' tm req).1.replicaScores.map
      Wire.ReplicaScore.replicaID) :
    r ∈ (i.lookupWithHits s.cfg env (s.indexRequest hashSeed tm req)).1.map ReplicaScore.replicaID := by
  have ⟨_, hp, he⟩ := of_prefixMatch h
  rw [he, responseOf, List.map_map] at hr
  rw [← Index.scores_of_prefixMatch hp.strategy]
  exact ids_above_subset hr

theorem dropped_of_prefixMatch
    (h : (s.lookupRoute hashSeed sha256 i env env' tm req).1.reasonCode = .prefixMatch) :
    Index.dropped (s.indexRequest hashSeed tm req) = false :=
  (Index.hits_of_prefixMatch (of_prefixMatch h).2.1.strategy).1

theorem usesOf_pos_iff : 0 < s.usesOf hashSeed i env tm req
      (s.lookupRoute hashSeed sha256 i env env' tm req).1 key r ↔
    s.Delivers hashSeed i env tm req (s.lookupRoute hashSeed sha256 i env env' tm req).1 key r := by
  rw [usesOf]
  split
  case isFalse hn =>
    refine iff_of_false (lt_irrefl 0) fun hd => hn ⟨decide_eq_true hd.lfu, hd.reason, hd.listed⟩
  case isTrue h =>
    rw [List.count_pos_iff, Index.mem_matchedKeys_iff]
    constructor
    case mp => exact fun hm => ⟨of_decide_eq_true h.1, h.2.1, h.2.2, hm.1⟩
    case mpr => exact fun hd =>
      ⟨hd.matched, fun hc => (Index.mem_ids_iff_of_chain (dropped_of_prefixMatch h.2.1) hc).mp
        (mem_ids_of_prefixMatch h.2.1 h.2.2)⟩

theorem lookupRoute_credits (s : Handler F) (hashSeed : Bytes → UInt64 → UInt64) (sha256 : Bytes → Bytes)
    (i : Index F) (env env' : Env) (tm : Timing) (req : Wire.LookupRouteRequest) :
    s.Credited hashSeed i env tm req (s.lookupRoute hashSeed sha256 i env env' tm req) where
  rises_iff := by
    intro key r e he
    refine ⟨_, entryAt_lookupRoute_some he, ?_⟩
    rw [← usesOf_pos_iff]
    dsimp only [ReplicaEntry.used]
    omega
  unchanged := by
    intro key r hn
    have hz := Nat.eq_zero_of_not_pos (usesOf_pos_iff.not.mpr hn)
    rw [entryAt_lookupRoute, hz]
    simp [ReplicaEntry.used_zero]
  idle := by
    intro hn
    have ha := s.answer hashSeed sha256 i env env' tm req
    generalize s.lookupRoute hashSeed sha256 i env env' tm req = res at ha hn
    cases ha
    case failsOpen => rfl
    case affinity  => rfl
    case delivers  =>
      exact hits_outcome_of_ne (reasonForStrategy_eq_prefixMatch.not.mp hn) ▸ Index.creditHits_empty

end Delivered

section Repeated

-- A chain with a block that comes up again within a run that the tenant's policy lets through.
structure Recounts (s : Handler F) (hashSeed : Bytes → UInt64 → UInt64) (i : Index F) (env : Env)
    (req : Wire.LookupRouteRequest) : Prop where
  served   : s.Served hashSeed req
  lfu      : env.evictionFor req.tenantID = .lfu
  chain    : (s.indexRequest hashSeed .unhurried req).chainBearing
  repeated : ∃ r,
    0 < Index.tokensFrom 0 (i.heldBlocks s.cfg env (s.indexRequest hashSeed .unhurried req) r) ∧
    s.Suffices req.tenantID
      (Index.tokensFrom 0 (i.heldBlocks s.cfg env (s.indexRequest hashSeed .unhurried req) r)) ∧
    ¬((i.heldBlocks s.cfg env (s.indexRequest hashSeed .unhurried req) r).map Prod.fst).Nodup

theorem recounts_of_usesOf
    (h : 1 < s.usesOf hashSeed i env tm req (s.lookupRoute hashSeed sha256 i env env' tm req).1 key r) :
    s.Recounts hashSeed i env req := by
  rw [usesOf] at h
  split at h
  case isFalse => cases h
  case isTrue hd =>
    have ⟨hcon, hp, hr⟩ := of_prefixMatch hd.2.1
    have hn : ¬(i.matchedKeys s.cfg env (s.indexRequest hashSeed tm req) r).Nodup :=
      fun hn => h.not_ge <| List.nodup_iff_count_le_one.mp hn key
    rw [Index.nodup_matchedKeys_iff, not_not] at hn
    have hs := served_of_passes hcon hp
    have hl := hd.2.2
    rw [hr, responseOf, List.map_map] at hl
    have ⟨sc, hsc, he⟩ := List.mem_map.mp hl
    have ⟨hm, hf⟩ := mem_above_iff.mp hsc
    rw [Index.scores_of_prefixMatch hp.strategy] at hm
    rw [indexRequest_of_consults hcon] at hn hm
    exact {
      served   := hs
      lfu      := of_decide_eq_true hd.1
      chain    := hn.1
      repeated := ⟨r, hn.2.1, Index.tokens_of_mem hs.asked hn.1 hm he ▸ hf, hn.2.2⟩ }

theorem Recounts.of_withFloor {floor : F} (h : (s.withFloor req.tenantID floor).Recounts hashSeed i env req) :
    s.Recounts hashSeed i env req := by
  obtain ⟨hs, hl, hc, r, hp, hm, hn⟩ := h
  simp only [indexRequest_withFloor, Suffices, policyMinimumMatchedTokens_withFloor] at hc hp hm hn
  exact ⟨hs.of_withFloor, hl, hc, r, hp, hm, hn⟩

theorem Recounts.exists_usesOf [IeeeFloat F] (h : s.Recounts hashSeed i env req) (sha256 : Bytes → Bytes)
    (env' : Env) :
    ∃ key r e, i.entryAt key r = some e ∧
      1 < (s.withFloor req.tenantID 0).usesOf hashSeed i env .unhurried req
        ((s.withFloor req.tenantID 0).lookupRoute hashSeed sha256 i env env' .unhurried req).1 key r := by
  obtain ⟨r, hp, hf, hn⟩ := h.repeated
  have hm := (Index.mem_ids_iff_of_chain h.served.asked h.chain).mpr hp
  have hs : (i.lookupRoute s.cfg env (s.indexRequest hashSeed .unhurried req)).strategy = .prefixMatch := by
    apply Index.strategy_eq_prefixMatch_iff.mpr
    exact ⟨Bool.eq_false_iff.mp h.served.asked, by simpa using List.length_pos_of_mem hm⟩
  obtain ⟨sc, hsc, he⟩ := List.mem_map.mp hm
  rw [← Index.tokens_of_mem h.served.asked h.chain hsc he] at hf
  rw [← Index.scores_of_prefixMatch hs] at hsc
  have hd := Index.nodup_matchedKeys_iff.not.mpr (not_not.mpr ⟨h.chain, hp, hn⟩)
  rw [List.nodup_iff_count_le_one] at hd
  push Not at hd
  obtain ⟨key, hk⟩ := hd
  have hmem := Index.mem_matchedKeys_iff.mp <| List.count_pos_iff.mp (zero_lt_one.trans hk)
  obtain ⟨e, hke⟩ := Index.entryAt_of_matched hmem.1
  refine ⟨key, r, e, hke, ?_⟩
  rw [usesOf, h.served.lookupRoute_eq rfl ⟨sc, hsc, hf⟩ hs, indexRequest_withFloor, if_pos]
  case hc =>
    refine ⟨decide_eq_true h.lfu, reasonForStrategy_eq_prefixMatch.mpr hs, ?_⟩
    rw [responseOf, List.map_map]
    exact List.mem_map.mpr ⟨sc, mem_above_iff.mpr ⟨hsc, hf⟩, he⟩
  exact hk

-- As for evidence, only the routing floor is left open.
theorem countedOnce_iff [IeeeFloat F] (s : Handler F) (hashSeed : Bytes → UInt64 → UInt64)
    (sha256 : Bytes → Bytes) (i : Index F) (env : Env) (req : Wire.LookupRouteRequest) :
    (∀ floor env' tm key r e e', i.entryAt key r = some e →
      ((s.withFloor req.tenantID floor).lookupRoute hashSeed sha256 i env env' tm req).2.entryAt key r =
        some e' → e'.accessCount ≤ e.accessCount + 1) ↔
      ¬s.Recounts hashSeed i env req := by
  constructor
  case mp =>
    intro h hr
    have ⟨key, r, e, he, hu⟩ := hr.exists_usesOf sha256 env
    have hl := h 0 env .unhurried key r e _ he (entryAt_lookupRoute_some he)
    dsimp only [ReplicaEntry.used] at hl
    omega
  case mpr =>
    intro h floor env' tm key r e e' he he'
    cases (entryAt_lookupRoute_some he).symm.trans he'
    have hu : (s.withFloor req.tenantID floor).usesOf hashSeed i env tm req
        ((s.withFloor req.tenantID floor).lookupRoute hashSeed sha256 i env env' tm req).1 key r ≤ 1 :=
      not_lt.mp fun hu => h (recounts_of_usesOf hu).of_withFloor
    dsimp only [ReplicaEntry.used]
    omega

-- One block, twice.
def lfuStore : PolicyStore ℚ :=
  .replaceSnapshot [{ forNamespace := [0x74], eviction := Env.lfuName }] []

def sameBlockTwice : Wire.LookupRouteRequest :=
  { tenantID := [0x74], modelID := [0x6d], hashScheme := [0x73], blockHashes := [[1], [1]],
    blockTokenCounts := [16, 16] }

theorem sameBlockTwice_counts_twice :
    (Index.run Index.tight Index.reports).entryAt ⟨[0x74], [0x6d], [0x73], [], [1]⟩ [0x62] =
        some ⟨16, 2, 1, 0⟩ ∧
      (((ungated anyService Index.tight rfl).under lfuStore).lookupRoute (fun _ _ => 0) (fun b => b)
        (Index.run Index.tight Index.reports) (lfuStore.environment <| .still 9)
        (lfuStore.environment <| .still 9) .unhurried sameBlockTwice).2.entryAt
          ⟨[0x74], [0x6d], [0x73], [], [1]⟩ [0x62] = some ⟨16, 2, 1, 2⟩ := by
  decide +kernel

end Repeated

end Server.Handler

end InferenceCache
