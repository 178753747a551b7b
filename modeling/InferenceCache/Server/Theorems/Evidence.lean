import InferenceCache.Server.Theorems.Served

-- What a match is based on.
namespace InferenceCache

variable {F : Type} [GoFloat F]

namespace Index

variable {cfg : Config F} {i : Index F} {env : Env} {req : LookupRequest} {id : GoString} {n : Int32}

theorem matched_lookupExact_iff :
    (∃ s ∈ (i.lookupExact cfg env req).1, s.replicaID = id ∧ s.matchedTokens = n) ↔
      ∃ e, i.freshEntry cfg env req id req.prefixHash = some e ∧ n = e.tokenCount := by
  constructor
  case mp =>
    intro ⟨s, hs, hi, hn⟩
    have ⟨e, he, ht⟩ := mem_found_lookupExact.mp (List.mem_map_of_mem hs)
    exact ⟨e, hi ▸ he, hn ▸ congrArg Prod.fst ht⟩
  case mpr =>
    intro ⟨e, he, hn⟩
    have hm : (id, e.tokenCount, e.tier) ∈ (i.lookupExact cfg env req).1.map ReplicaScore.found :=
      mem_found_lookupExact.mpr ⟨e, he, rfl⟩
    have ⟨s, hs, hf⟩ := List.mem_map.mp hm
    simp only [ReplicaScore.found, Prod.mk.injEq] at hf
    exact ⟨s, hs, hf.1, hf.2.1.trans hn.symm⟩

-- Only a match of the single hash can be one without tokens.
theorem tokens_of_chain (hc : req.chainBearing) {s : ReplicaScore F}
    (h : s ∈ (i.lookupWithHits cfg env req).1) : 0 < s.matchedTokens := by
  unfold lookupWithHits at h
  split_ifs at h
  case pos => cases h
  case pos => cases h
  case neg => exact (matched_lookupChain_iff.mp ⟨s, h, rfl, rfl⟩).2.2

theorem lookupWithHits_of_exact (hd : dropped req = false) (hc : req.chainBearing = false) :
    i.lookupWithHits cfg env req = i.lookupExact cfg env req := by
  simp only [dropped, decide_eq_false_iff_not, not_or] at hd
  rw [lookupWithHits, if_neg hd.2.2.1, hc]
  rfl

end Index

namespace Server.Handler

variable {s : Handler F} {hashSeed : Bytes → UInt64 → UInt64} {sha256 : Bytes → Bytes} {i : Index F}
variable {env env' : Env} {tm : Timing} {req : Wire.LookupRouteRequest} {resp : Wire.LookupRouteResponse F}

-- Whether a request carries anything by which a prefix can be recognised.
def Evidence (req : Wire.LookupRouteRequest) : Prop :=
  req.prefixHash ≠ [] ∨ req.blockHashes ≠ [] ∨ req.tokenIDs ≠ [] ∨ req.promptText ≠ []

def Backed (req : Wire.LookupRouteRequest) (resp : Wire.LookupRouteResponse F) : Prop :=
  resp.reasonCode = .prefixMatch → Evidence req ∧ ∀ sc ∈ resp.replicaScores, 0 < sc.matchedTokens

-- An entry under the single hash that the tenant's policy lets through, although it has no tokens or the
-- request no evidence. Without evidence it is the entry of the empty hash.
structure Unbacked (s : Handler F) (hashSeed : Bytes → UInt64 → UInt64) (i : Index F) (env : Env)
    (req : Wire.LookupRouteRequest) : Prop where
  served : s.Served hashSeed req
  exact  : (s.indexRequest hashSeed .unhurried req).chainBearing = false
  held   : ∃ r e, i.freshEntry s.cfg env (s.indexRequest hashSeed .unhurried req) r
    (s.indexRequest hashSeed .unhurried req).prefixHash = some e ∧
      s.Suffices req.tenantID e.tokenCount ∧ (¬Evidence req ∨ e.tokenCount ≤ 0)

theorem evidence_of_chainBearing (h : (s.indexRequest hashSeed tm req).chainBearing) : Evidence req := by
  by_contra hn
  simp only [Evidence, not_or, not_not] at hn
  have hb : (s.inputs hashSeed tm req).blockHashes = [] ∧ (s.inputs hashSeed tm req).blockTokenCounts = [] := by
    unfold Handler.inputs resolveLookupChain
    simp only [hn, List.length_nil, lt_self_iff_false, and_false, if_false, false_or, or_false, ite_self]
    split_ifs
    all_goals simp_all
  simp [indexRequest, lookupRequest, LookupRequest.chainBearing, hb] at h

theorem backed_of_mem (hs : s.Served hashSeed req) (h : ¬s.Unbacked hashSeed i env req) {sc : ReplicaScore F}
    (hsc : sc ∈ (i.lookupWithHits s.cfg env (s.indexRequest hashSeed .unhurried req)).1)
    (hm : s.Suffices req.tenantID sc.matchedTokens) : Evidence req ∧ 0 < sc.matchedTokens := by
  cases hc : (s.indexRequest hashSeed .unhurried req).chainBearing
  case true => exact ⟨evidence_of_chainBearing hc, Index.tokens_of_chain hc hsc⟩
  case false =>
    rw [Index.lookupWithHits_of_exact hs.asked hc] at hsc
    have ⟨e, he, ht⟩ := Index.matched_lookupExact_iff.mp ⟨sc, hsc, rfl, rfl⟩
    by_contra hn
    rw [not_and_or, ht, Int32.not_lt] at hn
    exact h ⟨hs, hc, sc.replicaID, e, he, ht ▸ hm, hn⟩

theorem backed_of_not_unbacked (h : ¬s.Unbacked hashSeed i env req) :
    Backed req (s.lookupRoute hashSeed sha256 i env env' tm req).1 := by
  intro hr
  have ⟨hcon, hp, he⟩ := of_prefixMatch hr
  have hb : ∀ sc ∈ ((i.lookupRoute s.cfg env (s.indexRequest hashSeed tm req)).above
      (s.policyMinimumMatchedTokens req.tenantID)).scores, Evidence req ∧ 0 < sc.matchedTokens := by
    intro sc hsc
    have ⟨hm, hf⟩ := mem_above_iff.mp hsc
    rw [Index.scores_of_prefixMatch hp.strategy, indexRequest_of_consults hcon] at hm
    exact backed_of_mem (served_of_passes hcon hp) h hm hf
  have ⟨sc, hsc⟩ := List.exists_mem_of_ne_nil _ hp.kept
  refine ⟨(hb sc hsc).1, fun sc' hsc' => ?_⟩
  rw [he] at hsc'
  have ⟨sc, hsc, he⟩ := List.mem_map.mp hsc'
  exact he ▸ (hb sc hsc).2

theorem Unbacked.of_withFloor {floor : F}
    (h : (s.withFloor req.tenantID floor).Unbacked hashSeed i env req) : s.Unbacked hashSeed i env req := by
  obtain ⟨hs, hc, r, e, he, hm, hn⟩ := h
  simp only [indexRequest_withFloor, Suffices, policyMinimumMatchedTokens_withFloor] at hc he hm
  exact ⟨hs.of_withFloor, hc, r, e, he, hm, hn⟩

theorem Unbacked.not_backed [IeeeFloat F] (h : s.Unbacked hashSeed i env req) :
    ¬Backed req ((s.withFloor req.tenantID 0).lookupRoute hashSeed sha256 i env env' .unhurried req).1 := by
  obtain ⟨r, e, he, hf, hn⟩ := h.held
  obtain ⟨sc, hsc, hr, hm⟩ := Index.matched_lookupExact_iff.mpr ⟨e, he, rfl⟩
  rw [← Index.lookupWithHits_of_exact h.served.asked h.exact] at hsc
  have hs : (i.lookupRoute s.cfg env (s.indexRequest hashSeed .unhurried req)).strategy = .prefixMatch := by
    apply Index.strategy_eq_prefixMatch_iff.mpr
    exact ⟨Bool.eq_false_iff.mp h.served.asked, List.length_pos_of_mem hsc⟩
  rw [← Index.scores_of_prefixMatch hs] at hsc
  rw [h.served.lookupRoute_eq rfl ⟨sc, hsc, hm ▸ hf⟩ hs]
  intro hb
  obtain ⟨hev, hp⟩ := hb (reasonForStrategy_eq_prefixMatch.mpr hs)
  have hk : sc ∈ ((i.lookupRoute s.cfg env (s.indexRequest hashSeed .unhurried req)).above
      (s.policyMinimumMatchedTokens req.tenantID)).scores :=
    mem_above_iff.mpr ⟨hsc, hm ▸ hf⟩
  have hl := hp (scoreToProto sc) (List.mem_map_of_mem hk)
  cases hn
  case inl hn => exact hn hev
  case inr hn => exact Int32.not_lt.mpr hn (hm ▸ hl)

-- Only the routing floor is left open, since it depends on scores.
theorem backed_iff [IeeeFloat F] (s : Handler F) (hashSeed : Bytes → UInt64 → UInt64)
    (sha256 : Bytes → Bytes) (i : Index F) (env : Env) (req : Wire.LookupRouteRequest) :
    (∀ floor env' tm, Backed req
        ((s.withFloor req.tenantID floor).lookupRoute hashSeed sha256 i env env' tm req).1) ↔
      ¬s.Unbacked hashSeed i env req := by
  constructor
  case mp  => exact fun h hu => hu.not_backed (h 0 env .unhurried)
  case mpr => exact fun h _ _ _ => backed_of_not_unbacked fun hu => h hu.of_withFloor

section Failures

-- A policy under which every match is delivered.
def permissive (tenant : GoString) : PolicyStore ℚ :=
  .replaceSnapshot [{ forNamespace := tenant, routingFloorScore := some 0 }] []

def reportOf (hash : Bytes) (tokenCount : Int32) : Wire.CacheStateUpdate ℚ :=
  ⟨[0x61], [0x6d], [0x74], [0x73], [], 1, [⟨hash, tokenCount, [], [], 1, []⟩], none⟩

def requestOf (hash : Bytes) : Wire.LookupRouteRequest :=
  { tenantID := [0x74], modelID := [0x6d], hashScheme := [0x73], prefixHash := hash }

def answerAfter (policies : PolicyStore ℚ) (hash : Bytes) (tokenCount : Int32) :
    Wire.LookupRouteResponse ℚ :=
  (((ungated anyService Index.tight rfl).under policies).lookupRoute (fun _ _ => 0) (fun b => b)
    (reportCacheState Index.tight .new (policies.environment <| .still 9) (reportOf hash tokenCount))
    (policies.environment <| .still 9) (policies.environment <| .still 9) .unhurried (requestOf hash)).1

-- The empty hash is matched under the default policy, and no tokens at all under a permissive one.
theorem unbacked_matches :
    ((answerAfter .new [] 100).reasonCode = .prefixMatch ∧ ¬Evidence (requestOf [])) ∧
      (answerAfter (permissive [0x74]) [1] 0).reasonCode = .prefixMatch ∧
      (answerAfter (permissive [0x74]) [1] 0).replicaScores.map Wire.ReplicaScore.matchedTokens = [0] := by
  refine ⟨⟨by decide +kernel, ?_⟩, by decide +kernel, by decide +kernel⟩
  simp [Evidence, requestOf]

end Failures

end Server.Handler

end InferenceCache
