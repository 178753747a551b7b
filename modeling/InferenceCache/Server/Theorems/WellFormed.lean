import InferenceCache.Index.Theorems.Scores
import InferenceCache.Server.Theorems.Served

namespace InferenceCache.Server.Handler

open FloatFormat IeeeFormat

variable {F : Type} [GoFloat F] {s : Handler F} {hashSeed : Bytes → UInt64 → UInt64}
variable {sha256 : Bytes → Bytes} {i : Index F} {env env' : Env} {tm : Timing}
variable {req : Wire.LookupRouteRequest} {resp : Wire.LookupRouteResponse F} {id : GoString}

def Serves (i : Index F) (scope : ScopeKey) (id : GoString) : Prop :=
  ∃ key : PrefixKey, key.scopeKey = scope ∧ (i.entryAt key id).isSome

structure WellFormed (s : Handler F) (hashSeed : Bytes → UInt64 → UInt64) (i : Index F) (env : Env)
    (tm : Timing) (req : Wire.LookupRouteRequest) (resp : Wire.LookupRouteResponse F) : Prop where
  scores_iff : resp.replicaScores ≠ [] ↔ resp.reasonCode = .prefixMatch ∨ resp.reasonCode = .tenantHot ∨
    resp.reasonCode = .affinityHint
  nodup      : resp.reasonCode = .prefixMatch →
    (resp.replicaScores.map Wire.ReplicaScore.replicaID).Nodup
  sorted     : resp.reasonCode = .prefixMatch → resp.replicaScores.Pairwise fun a b =>
    lt b.score a.score ∨ eq a.score b.score ∧ a.replicaID < b.replicaID
  matched    : resp.reasonCode = .prefixMatch → 0 < s.policyMinimumMatchedTokens req.tenantID →
    ∀ sc ∈ resp.replicaScores, s.policyMinimumMatchedTokens req.tenantID ≤ sc.matchedTokens
  floor      : resp.reasonCode = .prefixMatch → lt 0 (s.policyRoutingFloorScore req.tenantID) →
    ∀ sc ∈ resp.replicaScores.head?, le (s.policyRoutingFloorScore req.tenantID) sc.score
  hot        : resp.reasonCode = .tenantHot →
    (∀ sc ∈ resp.replicaScores, sc.matchedTokens = 0) ∧ s.policyTenantHotEnabled req.tenantID
  affinity   : resp.reasonCode = .affinityHint → ∃ sc, resp.replicaScores = [sc] ∧
    Serves i (scopeOf req) sc.replicaID ∧ s.affinityRoutingEnabled req.tenantID
  short      : 0 < s.policyMinimumPrefixTokens req.tenantID →
    (s.inputs hashSeed tm req).effectiveTokens < s.policyMinimumPrefixTokens req.tenantID →
    resp.reasonCode ≠ .prefixMatch ∧ resp.reasonCode ≠ .tenantHot
  unknown    : s.beforeLookup hashSeed tm req = none → ∀ strategy,
    strategy = .unknownTenant ∨ strategy = .unknownModel ∨ strategy = .unknownHashScheme →
    (i.lookupRoute s.cfg env (s.indexRequest hashSeed tm req)).strategy = strategy →
    resp.reasonCode = .timeout ∨ resp.reasonCode = reasonForStrategy strategy

section Empty

-- Without scores there is only the reason to be right.
theorem WellFormed.of_noScores (hs : resp.replicaScores = [])
    (hr : ¬(resp.reasonCode = .prefixMatch ∨ resp.reasonCode = .tenantHot ∨ resp.reasonCode = .affinityHint))
    (hu : s.beforeLookup hashSeed tm req = none → ∀ strategy,
      strategy = .unknownTenant ∨ strategy = .unknownModel ∨ strategy = .unknownHashScheme →
      (i.lookupRoute s.cfg env (s.indexRequest hashSeed tm req)).strategy = strategy →
      resp.reasonCode = .timeout ∨ resp.reasonCode = reasonForStrategy strategy) :
    s.WellFormed hashSeed i env tm req resp where
  scores_iff := by simp only [hs, ne_eq, not_true, hr]
  nodup h := absurd (.inl h) hr
  sorted h := absurd (.inl h) hr
  matched h := absurd (.inl h) hr
  floor h := absurd (.inl h) hr
  hot h := absurd (.inr <| .inl h) hr
  affinity h := absurd (.inr <| .inr h) hr
  short _ _ := ⟨fun h => hr (.inl h), fun h => hr (.inr <| .inl h)⟩
  unknown := hu

theorem FailsOpen.wellFormed (h : FailsOpen resp)
    (ht : s.beforeLookup hashSeed tm req = none → resp.reasonCode = .timeout) :
    s.WellFormed hashSeed i env tm req resp := by
  apply WellFormed.of_noScores h.noScores
  case hu => exact fun hb _ _ _ => .inl (ht hb)
  case hr =>
    have hr := h.reason
    intro hn
    rcases hr with hr | hr | hr <;> simp [hr] at hn

end Empty

section Affinity

omit [GoFloat F] in
theorem serves_of_affinityHint {cfg : Config F} (h : Index.Consistent cfg i) {scope : ScopeKey} {seed : Bytes}
    (ha : i.affinityHint env sha256 scope seed = some id) : Serves i scope id :=
  h.serving_isSome_iff.mp <| Index.mem_replicasForRouting (Index.mem_of_affinityHint ha)

-- A hint by affinity takes the place of nothing else than no hint.
theorem wellFormed_affinity (h : Index.Consistent s.cfg i)
    (hn : (s.outcome hashSeed i env tm req).strategy = .none)
    (ha : s.tryAffinityResponse sha256 i env' tm req (s.inputs hashSeed tm req) = some resp) :
    s.WellFormed hashSeed i env tm req resp := by
  unfold tryAffinityResponse at ha
  split_ifs at ha with he
  simp only [Option.bind_eq_bind, Option.bind_eq_some_iff, Option.pure_def, Option.some.injEq] at ha
  obtain ⟨seed, _, id, hi, rfl⟩ := ha
  rw [Bool.not_eq_true', Bool.not_eq_false] at he
  exact {
    scores_iff := by simp
    nodup := by simp
    sorted := by simp
    matched := by simp
    floor := by simp
    hot := by simp
    affinity := fun _ => ⟨_, rfl, serves_of_affinityHint h hi, he⟩
    short := by simp
    unknown := by
      intro _ strategy hs hl
      rw [outcome, gated_of_ne, hl] at hn
      all_goals rcases hs with rfl | rfl | rfl <;> simp_all }

end Affinity

section Delivered

theorem not_short {inputs : LookupInputs} {tenant : GoString} (h : s.tooShort tenant inputs = false)
    (h₀ : 0 < s.policyMinimumPrefixTokens tenant) :
    ¬inputs.effectiveTokens < s.policyMinimumPrefixTokens tenant :=
  fun hl => of_decide_eq_false h ⟨h₀, hl⟩

variable {result : LookupResult F} {tenant : GoString} {floor : Int32}

omit [GoFloat F] in
theorem ids_map_scoreToProto {l : List (ReplicaScore F)} :
    (l.map scoreToProto).map Wire.ReplicaScore.replicaID = l.map ReplicaScore.replicaID := by
  rw [List.map_map]
  rfl

theorem pairwise_map_scoreToProto {l : List (ReplicaScore F)} (h : l.Pairwise fun a b => a.before b) :
    (l.map scoreToProto).Pairwise fun a b =>
      lt b.score a.score ∨ eq a.score b.score ∧ a.replicaID < b.replicaID := by
  apply List.pairwise_map.mpr
  apply h.imp
  intro a b hb
  unfold ReplicaScore.before at hb
  split at hb
  case isTrue => exact .inl hb
  case isFalse he =>
    rw [Bool.not_eq_true', Bool.not_eq_false] at he
    exact .inr ⟨he, of_decide_eq_true hb⟩

theorem le_of_reachesFloor [IeeeFloat F] {l : List (ReplicaScore F)} (h : s.reachesFloor tenant l)
    (hm : ∀ sc ∈ l, Index.Moderate sc) (h₀ : lt 0 (s.policyRoutingFloorScore tenant)) :
    ∀ sc ∈ (l.map scoreToProto).head?, le (s.policyRoutingFloorScore tenant) sc.score := by
  cases l
  case nil => simp
  case cons sc l =>
    have ⟨a, ha, _⟩ := hm sc (by simp)
    have hl : ¬lt sc.score (s.policyRoutingFloorScore tenant) := by
      simpa [reachesFloor, h₀] using h
    simpa [scoreToProto] using le_of_lt_of_not_lt ha h₀ hl

variable [IeeeFloat F]

theorem wellFormed_passes (h : Index.FiniteStats i)
    (ht : i.totalReplicas (s.indexRequest hashSeed tm req) ≤ 2 ^ 64)
    (hl : i.lookupRoute s.cfg env (s.indexRequest hashSeed tm req) = result)
    (hp : s.Passes req.tenantID (s.inputs hashSeed tm req) result) :
    s.WellFormed hashSeed i env tm req (responseOf tm req (s.inputs hashSeed tm req)
      (result.above (s.policyMinimumMatchedTokens req.tenantID))) := by
  have hv : result.Valid := hl ▸ Index.lookupRoute_valid
  have hs : result.scores = (i.lookupWithHits s.cfg env (s.indexRequest hashSeed tm req)).1 :=
    hl ▸ Index.scores_of_prefixMatch (hl ▸ hp.strategy)
  have hw : result.scores.Pairwise fun a b => a.before b :=
    hs ▸ Index.pairwise_lookupWithHits s.ranker_default h ht
  have hm : ∀ sc ∈ result.scores, Index.Moderate sc :=
    hs ▸ Index.moderate_lookupWithHits s.ranker_default h ht
  have hb : (result.above (s.policyMinimumMatchedTokens req.tenantID)).scores.Sublist result.scores :=
    LookupResult.above_sublist
  have hr : (responseOf tm req (s.inputs hashSeed tm req)
      (result.above (s.policyMinimumMatchedTokens req.tenantID))).reasonCode = .prefixMatch :=
    congrArg reasonForStrategy hp.strategy
  exact {
    scores_iff := iff_of_true (List.map_eq_nil_iff.not.mpr hp.kept) (.inl hr)
    nodup _ := ids_map_scoreToProto ▸ hv.nodup.sublist (hb.map _)
    sorted _ := pairwise_map_scoreToProto (hw.sublist hb)
    matched := by
      intro _ h₀ sc hsc
      have ⟨sc', hsc', he⟩ := List.mem_map.mp hsc
      exact he ▸ LookupResult.le_matchedTokens_of_mem_above hsc' h₀
    floor _ := le_of_reachesFloor hp.floor fun sc hsc => hm sc (hb.subset hsc)
    hot := by simp [hr]
    affinity := by simp [hr]
    short h₀ h := absurd h (not_short hp.tokens h₀)
    unknown := by
      intro _ strategy hu he
      rw [hl, hp.strategy] at he
      simp [← he] at hu }

omit [IeeeFloat F] in
theorem wellFormed_hot (hl : i.lookupRoute s.cfg env (s.indexRequest hashSeed tm req) = result)
    (hs : result.strategy = .tenantHot) (he : s.policyTenantHotEnabled req.tenantID)
    (ht : s.tooShort req.tenantID (s.inputs hashSeed tm req) = false) :
    s.WellFormed hashSeed i env tm req (responseOf tm req (s.inputs hashSeed tm req) result) := by
  have hv : result.Valid := hl ▸ Index.lookupRoute_valid
  have hr : (responseOf tm req (s.inputs hashSeed tm req) result).reasonCode = .tenantHot :=
    congrArg reasonForStrategy hs
  exact {
    scores_iff := iff_of_true (List.map_eq_nil_iff.not.mpr <| hv.some_iff.mpr (.inr hs)) (.inr <| .inl hr)
    nodup := by simp [hr]
    sorted := by simp [hr]
    matched := by simp [hr]
    floor := by simp [hr]
    hot := by
      refine fun _ => ⟨fun sc hsc => ?_, he⟩
      have ⟨sc', hsc', hc⟩ := List.mem_map.mp hsc
      exact hc ▸ hv.hot hs sc' hsc'
    affinity := by simp [hr]
    short h₀ h := absurd h (not_short ht h₀)
    unknown := by
      intro _ strategy hu he
      rw [hl, hs] at he
      simp [← he] at hu }

omit [IeeeFloat F] in
theorem wellFormed_missed (hl : i.lookupRoute s.cfg env (s.indexRequest hashSeed tm req) = result)
    (h₁ : result.strategy ≠ .prefixMatch) (h₂ : result.strategy ≠ .tenantHot) :
    s.WellFormed hashSeed i env tm req (responseOf tm req (s.inputs hashSeed tm req) result) := by
  have hv : result.Valid := hl ▸ Index.lookupRoute_valid
  have hn : result.scores = [] := by
    by_contra hn
    exact (hv.some_iff.mp hn).elim h₁ h₂
  apply WellFormed.of_noScores
  case hs => simp [responseOf, hn]
  case hr => cases hs : result.strategy <;> simp_all [responseOf, reasonForStrategy]
  case hu => exact fun _ _ _ he => .inr <| congrArg reasonForStrategy (hl ▸ he)

omit [IeeeFloat F] in
theorem wellFormed_withheld (hs : (i.lookupRoute s.cfg env (s.indexRequest hashSeed tm req)).strategy =
      .prefixMatch ∨ (i.lookupRoute s.cfg env (s.indexRequest hashSeed tm req)).strategy = .tenantHot) :
    s.WellFormed hashSeed i env tm req (responseOf tm req (s.inputs hashSeed tm req) .nothing) := by
  apply WellFormed.of_noScores
  case hs => rfl
  case hr => simp [responseOf, LookupResult.nothing, reasonForStrategy]
  case hu =>
    intro _ strategy hu he
    rw [he] at hs
    rcases hu with rfl | rfl | rfl <;> simp at hs

end Delivered

-- That the number of replicas fits into an `int` is no restriction, since `len` of a map does.
theorem lookupRoute_wellFormed [IeeeFloat F] (s : Handler F) (hashSeed : Bytes → UInt64 → UInt64)
    (sha256 : Bytes → Bytes) (i : Index F) (h : Index.Reachable s.cfg i)
    (env env' : Env) (tm : Timing) (req : Wire.LookupRouteRequest)
    (hi : (i.servingByScope.inner (scopeOf req)).len < 2 ^ 63) :
    s.WellFormed hashSeed i env tm req (s.lookupRoute hashSeed sha256 i env env' tm req).1 := by
  have ha := s.answer hashSeed sha256 i env env' tm req
  generalize s.lookupRoute hashSeed sha256 i env env' tm req = res at ha
  cases ha
  case failsOpen hf ht  => exact hf.wellFormed ht
  case affinity _ hn ha => exact wellFormed_affinity h.consistent hn ha
  case delivers hc =>
    have hg : Gated s req.tenantID (s.inputs hashSeed tm req) _ (s.outcome hashSeed i env tm req) :=
      gated_spec Index.lookupRoute_valid
    generalize s.outcome hashSeed i env tm req = g at hg
    cases hg
    case withheld hs  => exact wellFormed_withheld hs
    case hot hs he ht => exact wellFormed_hot rfl hs he ht
    case missed h₁ h₂ => exact wellFormed_missed rfl h₁ h₂
    case passes hp    =>
      have hn : i.totalReplicas (s.indexRequest hashSeed tm req) < 2 ^ 63 := Int.ofNat_lt.mpr hi
      exact wellFormed_passes h.finiteStats (by omega) rfl hp

-- A match of one prefix, which only one replica holds.
def onePrefix : Wire.LookupRouteRequest :=
  { tenantID := [0x74], modelID := [0x6d], hashScheme := [0x73], prefixHash := [1], prefixTokenCount := 16 }

theorem lookupRoute_wellFormed_onePrefix :
    ((ungated anyService Index.tight rfl).lookupRoute (fun _ _ => 0) (fun b => b)
        (Index.run Index.tight Index.reports) (.still 9) (.still 9) .unhurried onePrefix).1.reasonCode = .prefixMatch ∧
      (ungated anyService Index.tight rfl).WellFormed (fun _ _ => 0)
        (Index.run Index.tight Index.reports) (.still 9) .unhurried onePrefix
        ((ungated anyService Index.tight rfl).lookupRoute (fun _ _ => 0) (fun b => b)
          (Index.run Index.tight Index.reports) (.still 9) (.still 9) .unhurried onePrefix).1 :=
  ⟨by decide +kernel, lookupRoute_wellFormed _ _ _ _ ⟨Index.reports, rfl⟩ _ _ _ _ (by decide +kernel)⟩

end InferenceCache.Server.Handler
