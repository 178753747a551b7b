import InferenceCache.Index.Theorems.Results
import InferenceCache.Server.Handler

-- What becomes of a lookup's result on its way to the answer.
namespace InferenceCache

variable {F : Type}

namespace LookupResult

-- The replicas with enough matched tokens, and what there is to credit for them.
def above (floor : Int32) (result : LookupResult F) : LookupResult F where
  scores        := result.scores.filter fun sc => floor ≤ 0 ∨ floor ≤ sc.matchedTokens
  strategy      := result.strategy
  hitsByReplica := result.hitsByReplica.filter fun id _ =>
    id ∈ (result.scores.filter fun sc => floor ≤ 0 ∨ floor ≤ sc.matchedTokens).map ReplicaScore.replicaID

variable {result : LookupResult F} {floor : Int32}

theorem above_eq_self (h : result.Valid) (hf : ∀ sc ∈ result.scores, floor ≤ 0 ∨ floor ≤ sc.matchedTokens) :
    result.above floor = result := by
  have hs : result.scores.filter (fun sc => floor ≤ 0 ∨ floor ≤ sc.matchedTokens) = result.scores :=
    List.filter_eq_self.mpr fun sc hsc => decide_eq_true (hf sc hsc)
  have hh : (result.above floor).hitsByReplica = result.hitsByReplica := by
    apply Finmap.filter_eq_self
    intro id _ hid
    rw [decide_eq_true_iff, hs]
    exact h.hits id (Finmap.mem_keys_of_lookup hid)
  cases result
  simp_all [above]

theorem above_sublist : (result.above floor).scores.Sublist result.scores :=
  List.filter_sublist

theorem le_matchedTokens_of_mem_above {sc : ReplicaScore F} (h : sc ∈ (result.above floor).scores)
    (hf : 0 < floor) : floor ≤ sc.matchedTokens :=
  (of_decide_eq_true (List.mem_filter.mp h).2).resolve_left (Int32.not_le.mpr hf)

end LookupResult

namespace Server.Handler

open FloatFormat

variable {result : LookupResult F}

theorem reasonForStrategy_eq_prefixMatch {strategy : Strategy} :
    reasonForStrategy strategy = .prefixMatch ↔ strategy = .prefixMatch := by
  cases strategy <;> simp [reasonForStrategy]

theorem keep_iff (h : result.Valid) {floor : Int32} {sc : ReplicaScore F} (hsc : sc ∈ result.scores) :
    ((result.scores.filter fun sc => floor ≤ sc.matchedTokens).any fun sc' => sc'.replicaID = sc.replicaID) =
      decide (floor ≤ sc.matchedTokens) := by
  rw [Bool.eq_iff_iff, List.any_eq_true, decide_eq_true_iff]
  constructor
  case mp =>
    intro ⟨sc', hsc', he⟩
    rw [List.mem_filter, decide_eq_true_iff] at hsc'
    have heq : sc' = sc := List.inj_on_of_nodup_map h.nodup hsc'.1 hsc (of_decide_eq_true he)
    exact heq ▸ hsc'.2
  case mpr =>
    intro hf
    exact ⟨sc, List.mem_filter.mpr ⟨hsc, decide_eq_true hf⟩, decide_eq_true rfl⟩

theorem retainReplicas_eq_above (h : result.Valid) (hs : result.scores ≠ []) {floor : Int32} (hf : 0 < floor) :
    (result.retainReplicas fun id =>
      (result.scores.filter fun sc => floor ≤ sc.matchedTokens).any fun sc => sc.replicaID = id) =
      result.above floor := by
  have hn : ∀ sc : ReplicaScore F, (floor ≤ 0 ∨ floor ≤ sc.matchedTokens) ↔ floor ≤ sc.matchedTokens :=
    fun sc => or_iff_right (Int32.not_le.mpr hf)
  have hl : ¬result.scores.length = 0 := by simpa using hs
  rw [LookupResult.retainReplicas, if_neg hl, LookupResult.above]
  simp only [hn]
  congr 1
  case e_scores => exact List.filter_congr fun sc hsc => keep_iff h hsc
  case e_hitsByReplica =>
    apply Finmap.filter_congr
    intro id _ _
    rw [Bool.eq_iff_iff, List.any_eq_true, decide_eq_true_iff, List.mem_map]
    simp only [decide_eq_true_iff]

variable [GoFloat F] {s : Handler F} {tenant : GoString} {inputs : LookupInputs}

theorem applyMatchedTokensFloor_eq (h : result.Valid) (hs : result.scores ≠ []) :
    s.applyMatchedTokensFloor tenant result =
      if (result.above (s.policyMinimumMatchedTokens tenant)).scores = [] then .nothing
      else result.above (s.policyMinimumMatchedTokens tenant) := by
  generalize hf : s.policyMinimumMatchedTokens tenant = floor
  have hl : ¬result.scores.length = 0 := by simpa using hs
  simp only [applyMatchedTokensFloor, hf, hl, or_false]
  by_cases h₀ : floor ≤ 0
  case pos =>
    rw [if_pos h₀, LookupResult.above_eq_self h fun _ _ => .inl h₀, if_neg hs]
  case neg =>
    have hn : ∀ sc : ReplicaScore F, (floor ≤ 0 ∨ floor ≤ sc.matchedTokens) ↔ floor ≤ sc.matchedTokens :=
      fun sc => or_iff_right h₀
    have ha : (result.above floor).scores = result.scores.filter fun sc => floor ≤ sc.matchedTokens := by
      simp only [LookupResult.above, hn]
    rw [if_neg h₀, ← ha]
    split
    case isTrue he =>
      have hall : ∀ sc ∈ result.scores, floor ≤ 0 ∨ floor ≤ sc.matchedTokens := by
        have heq := List.length_filter_eq_length_iff.mp (ha ▸ he)
        exact fun sc hsc => .inr <| of_decide_eq_true (heq sc hsc)
      rw [LookupResult.above_eq_self h hall, if_neg hs]
    case isFalse =>
      apply if_congr List.length_eq_zero_iff rfl
      rw [ha]
      exact retainReplicas_eq_above h hs (Int32.not_le.mp h₀)

def reachesFloor (s : Handler F) (tenant : GoString) : List (ReplicaScore F) → Bool
  | []      => true
  | sc :: _ => !(lt 0 (s.policyRoutingFloorScore tenant) ∧ lt sc.score (s.policyRoutingFloorScore tenant))

theorem applyRoutingFloorScore_eq : s.applyRoutingFloorScore tenant result =
    if s.reachesFloor tenant result.scores then result else .nothing := by
  unfold applyRoutingFloorScore
  cases result.scores
  case nil => rfl
  case cons sc _ =>
    dsimp only
    by_cases h : lt 0 (s.policyRoutingFloorScore tenant) ∧ lt sc.score (s.policyRoutingFloorScore tenant)
    case pos => rw [if_pos h, reachesFloor, decide_eq_true h]; rfl
    case neg => rw [if_neg h, reachesFloor, decide_eq_false h]; rfl

section Gated

theorem gated_of_prefixMatch (h : result.Valid) (hs : result.strategy = .prefixMatch) :
    s.gated tenant result inputs =
      if s.tooShort tenant inputs ∨
          (result.above (s.policyMinimumMatchedTokens tenant)).scores = [] ∨
          !s.reachesFloor tenant (result.above (s.policyMinimumMatchedTokens tenant)).scores then
        .nothing
      else result.above (s.policyMinimumMatchedTokens tenant) := by
  have hne : result.scores ≠ [] := h.some_iff.mpr (.inl hs)
  have hg : s.applyLookupStrategyGates tenant result = result := by
    simp [applyLookupStrategyGates, hs]
  simp only [gated, hg, applyMinimumPrefixTokens, hs, true_or, and_true]
  cases s.tooShort tenant inputs
  case true => simp [LookupResult.nothing]
  case false =>
    simp only [Bool.false_eq_true, if_false, false_or, hs, if_true, applyMatchedTokensFloor_eq h hne]
    by_cases ha : (result.above (s.policyMinimumMatchedTokens tenant)).scores = []
    case pos => simp [ha, LookupResult.nothing]
    case neg =>
      have hs' : (result.above (s.policyMinimumMatchedTokens tenant)).strategy = .prefixMatch := hs
      rw [if_neg ha, if_pos hs', applyRoutingFloorScore_eq]
      cases hr : s.reachesFloor tenant (result.above (s.policyMinimumMatchedTokens tenant)).scores
      all_goals simp [ha]

theorem gated_of_tenantHot (hs : result.strategy = .tenantHot) : s.gated tenant result inputs =
    if !s.policyTenantHotEnabled tenant ∨ s.tooShort tenant inputs then .nothing else result := by
  unfold gated applyLookupStrategyGates applyMinimumPrefixTokens
  cases s.policyTenantHotEnabled tenant <;> cases s.tooShort tenant inputs
  all_goals simp [hs, LookupResult.nothing]

theorem gated_of_ne (h₁ : result.strategy ≠ .prefixMatch) (h₂ : result.strategy ≠ .tenantHot) :
    s.gated tenant result inputs = result := by
  simp [gated, applyLookupStrategyGates, applyMinimumPrefixTokens, h₁, h₂]

structure Passes (s : Handler F) (tenant : GoString) (inputs : LookupInputs) (result : LookupResult F) :
    Prop where
  strategy : result.strategy = .prefixMatch
  tokens   : s.tooShort tenant inputs = false
  kept     : (result.above (s.policyMinimumMatchedTokens tenant)).scores ≠ []
  floor    : s.reachesFloor tenant (result.above (s.policyMinimumMatchedTokens tenant)).scores = true

-- All that the gates can make of a result.
inductive Gated (s : Handler F) (tenant : GoString) (inputs : LookupInputs) (result : LookupResult F) :
    LookupResult F → Prop
  | passes (hp : s.Passes tenant inputs result) :
      Gated s tenant inputs result (result.above (s.policyMinimumMatchedTokens tenant))
  | withheld (hs : result.strategy = .prefixMatch ∨ result.strategy = .tenantHot) :
      Gated s tenant inputs result .nothing
  | hot (hs : result.strategy = .tenantHot) (he : s.policyTenantHotEnabled tenant = true)
      (ht : s.tooShort tenant inputs = false) : Gated s tenant inputs result result
  | missed (h₁ : result.strategy ≠ .prefixMatch) (h₂ : result.strategy ≠ .tenantHot) :
      Gated s tenant inputs result result

theorem gated_spec (h : result.Valid) :
    Gated s tenant inputs result (s.gated tenant result inputs) := by
  by_cases h₁ : result.strategy = .prefixMatch
  case pos =>
    rw [gated_of_prefixMatch h h₁]
    split
    case isTrue => exact .withheld (.inl h₁)
    case isFalse hn =>
      simp only [not_or, Bool.not_eq_true', Bool.not_eq_true, Bool.not_eq_false] at hn
      exact .passes ⟨h₁, hn.1, hn.2.1, hn.2.2⟩
  case neg =>
    by_cases h₂ : result.strategy = .tenantHot
    case neg =>
      rw [gated_of_ne h₁ h₂]
      exact .missed h₁ h₂
    case pos =>
      rw [gated_of_tenantHot h₂]
      split
      case isTrue => exact .withheld (.inr h₂)
      case isFalse hn =>
        simp only [not_or, Bool.not_eq_true', Bool.not_eq_true, Bool.not_eq_false] at hn
        exact .hot h₂ hn.1 hn.2

theorem Passes.gated_eq (h : result.Valid) (hp : s.Passes tenant inputs result) :
    s.gated tenant result inputs = result.above (s.policyMinimumMatchedTokens tenant) := by
  rw [gated_of_prefixMatch h hp.strategy]
  simp [hp.tokens, hp.kept, hp.floor]

theorem gated_eq_prefixMatch_iff (h : result.Valid) :
    (s.gated tenant result inputs).strategy = .prefixMatch ↔ s.Passes tenant inputs result := by
  constructor
  case mpr =>
    intro hp
    rw [hp.gated_eq h]
    exact hp.strategy
  case mp =>
    intro hs
    have hg : Gated s tenant inputs result (s.gated tenant result inputs) := gated_spec h
    generalize s.gated tenant result inputs = g at hg hs
    cases hg
    case passes hp => exact hp
    case withheld => cases hs
    case hot hh _ _ => cases hh.symm.trans hs
    case missed hn _ => exact absurd hs hn

end Gated

section Call

variable {hashSeed : Bytes → UInt64 → UInt64} {sha256 : Bytes → Bytes} {i : Index F} {env env' : Env}
variable {tm : Timing} {req : Wire.LookupRouteRequest} {resp : Wire.LookupRouteResponse F}

def Consults (s : Handler F) (hashSeed : Bytes → UInt64 → UInt64) (tm : Timing)
    (req : Wire.LookupRouteRequest) : Prop :=
  s.beforeLookup hashSeed tm req = none ∧ s.lookupTimedOut tm req = false

theorem Consults.workload (h : s.Consults hashSeed tm req) : req.tenantID ≠ probeTenantID := by
  intro hn
  simpa [beforeLookup, hn] using h.1

theorem ite_some_eq_none {A : Type} {c : Prop} [Decidable c] {a : A} {b : Option A} :
    (if c then some a else b) = none ↔ ¬c ∧ b = none := by
  split
  case isTrue hc => simp [hc]
  case isFalse hc => simp [hc]

theorem Consults.resolved (h : s.Consults hashSeed tm req) : (s.inputs hashSeed tm req).failOpen = false := by
  have hb := h.1
  simp only [beforeLookup, ite_some_eq_none] at hb
  have ⟨_, _, _, _, _, hf, _⟩ := hb
  exact Bool.eq_false_iff.mpr hf

def outcome (s : Handler F) (hashSeed : Bytes → UInt64 → UInt64) (i : Index F) (env : Env) (tm : Timing)
    (req : Wire.LookupRouteRequest) : LookupResult F :=
  s.gated req.tenantID (i.lookupRoute s.cfg env (s.indexRequest hashSeed tm req)) (s.inputs hashSeed tm req)

structure FailsOpen (resp : Wire.LookupRouteResponse F) : Prop where
  noScores : resp.replicaScores = []
  reason   : resp.reasonCode = .noHint ∨ resp.reasonCode = .timeout ∨
               resp.reasonCode = .policyRequiresChain

inductive Answer (s : Handler F) (hashSeed : Bytes → UInt64 → UInt64) (sha256 : Bytes → Bytes) (i : Index F)
    (env env' : Env) (tm : Timing) (req : Wire.LookupRouteRequest) :
    Wire.LookupRouteResponse F × Index F → Prop
  | failsOpen (resp : Wire.LookupRouteResponse F) (hc : ¬s.Consults hashSeed tm req) (hf : FailsOpen resp)
      (ht : s.beforeLookup hashSeed tm req = none → resp.reasonCode = .timeout) :
      Answer s hashSeed sha256 i env env' tm req (resp, i)
  | affinity (resp : Wire.LookupRouteResponse F) (hc : s.Consults hashSeed tm req)
      (hn : (s.outcome hashSeed i env tm req).strategy = .none)
      (ha : s.tryAffinityResponse sha256 i env' tm req (s.inputs hashSeed tm req) = some resp) :
      Answer s hashSeed sha256 i env env' tm req (resp, i)
  | delivers (hc : s.Consults hashSeed tm req) :
      Answer s hashSeed sha256 i env env' tm req
        (responseOf tm req (s.inputs hashSeed tm req) (s.outcome hashSeed i env tm req),
          i.creditHits (env'.order 1).ids (s.outcome hashSeed i env tm req).hitsByReplica)

omit [GoFloat F] in
theorem FailsOpen.of_ite {c : Prop} [Decidable c] {resp' : Wire.LookupRouteResponse F}
    {later : Option (Wire.LookupRouteResponse F)} (h : (if c then some resp' else later) = some resp)
    (hf : FailsOpen resp') (hl : later = some resp → FailsOpen resp) : FailsOpen resp := by
  split at h
  case isTrue => exact Option.some_injective _ h ▸ hf
  case isFalse => exact hl h

theorem failsOpen_beforeLookup (h : s.beforeLookup hashSeed tm req = some resp) : FailsOpen resp := by
  refine .of_ite h ⟨rfl, .inl rfl⟩ fun h => ?_
  refine .of_ite h ⟨rfl, .inr <| .inl rfl⟩ fun h => ?_
  refine .of_ite h ⟨rfl, .inr <| .inr rfl⟩ fun h => ?_
  refine .of_ite h ⟨rfl, .inr <| .inl rfl⟩ fun h => ?_
  refine .of_ite h ⟨rfl, .inr <| .inl rfl⟩ fun h => ?_
  refine .of_ite h ⟨rfl, .inl rfl⟩ fun h => ?_
  exact .of_ite h ⟨rfl, .inl rfl⟩ fun h => by cases h

theorem reason_tryAffinityResponse {inputs : LookupInputs}
    (h : s.tryAffinityResponse sha256 i env tm req inputs = some resp) :
    resp.reasonCode = .affinityHint := by
  unfold tryAffinityResponse at h
  split_ifs at h
  simp only [Option.bind_eq_bind, Option.bind_eq_some_iff, Option.pure_def, Option.some.injEq] at h
  obtain ⟨_, _, _, _, rfl⟩ := h
  rfl

theorem answer (s : Handler F) (hashSeed : Bytes → UInt64 → UInt64) (sha256 : Bytes → Bytes) (i : Index F)
    (env env' : Env) (tm : Timing) (req : Wire.LookupRouteRequest) :
    Answer s hashSeed sha256 i env env' tm req
      (s.lookupRoute hashSeed sha256 i env env' tm req) := by
  unfold lookupRoute
  cases hb : s.beforeLookup hashSeed tm req
  case some resp =>
    exact .failsOpen resp (fun hc => by simp [hc.1] at hb) (failsOpen_beforeLookup hb) (by simp [hb])
  case none =>
    cases ht : s.lookupTimedOut tm req
    case true => exact .failsOpen _ (fun hc => by simp [hc.2] at ht) ⟨rfl, .inr <| .inl rfl⟩ fun _ => rfl
    case false =>
      have hc : s.Consults hashSeed tm req := ⟨hb, ht⟩
      have ho : s.gated req.tenantID (i.lookupRoute s.cfg env (s.indexRequest hashSeed tm req))
          (s.inputs hashSeed tm req) = s.outcome hashSeed i env tm req := rfl
      simp only [Bool.false_eq_true, if_false, buildLookupResponse, ho]
      split
      case h_2 => exact .delivers hc
      case h_1 resp ha =>
        split at ha
        case isFalse => cases ha
        case isTrue hn => exact .affinity resp hc hn ha

section Resolved

theorem ite_of_resolved {c : Prop} [Decidable c] {a a' b b' : LookupInputs}
    (h : (if c then a else b).failOpen = false) (ha : a.failOpen = false → a = a')
    (hb : b.failOpen = false → b = b') : (if c then a else b) = if c then a' else b' := by
  split at h
  case isTrue hc => rw [if_pos hc, if_pos hc, ha h]
  case isFalse hc => rw [if_neg hc, if_neg hc, hb h]

-- A call of the tokenizer either takes place or ends the call.
omit [GoFloat F] in
theorem resolveLookupChain_slotFree {service : Service} {slotFree chainMatching : Bool}
    (h : (resolveLookupChain service hashSeed slotFree req chainMatching).failOpen = false) :
    resolveLookupChain service hashSeed slotFree req chainMatching =
      resolveLookupChain service hashSeed true req chainMatching := by
  cases slotFree
  case true => rfl
  case false =>
    -- A hash, a chain or tokens come first, and a prompt may be too long.
    refine ite_of_resolved h (fun _ => rfl) fun h => ?_
    refine ite_of_resolved h (fun _ => rfl) fun h => ?_
    refine ite_of_resolved h (fun _ => rfl) fun h => ?_
    refine ite_of_resolved h (fun h => ?_) fun _ => rfl
    refine ite_of_resolved h (fun _ => rfl) fun h => ?_
    cases h

end Resolved

section Match

theorem outcome_of_prefixMatch (h : (s.outcome hashSeed i env tm req).strategy = .prefixMatch) :
    s.Passes req.tenantID (s.inputs hashSeed tm req)
        (i.lookupRoute s.cfg env (s.indexRequest hashSeed tm req)) ∧
      s.outcome hashSeed i env tm req =
        (i.lookupRoute s.cfg env (s.indexRequest hashSeed tm req)).above
          (s.policyMinimumMatchedTokens req.tenantID) :=
  have hp := (gated_eq_prefixMatch_iff Index.lookupRoute_valid).mp h
  ⟨hp, hp.gated_eq Index.lookupRoute_valid⟩

theorem hits_outcome_of_ne (h : (s.outcome hashSeed i env tm req).strategy ≠ .prefixMatch) :
    (s.outcome hashSeed i env tm req).hitsByReplica = ∅ := by
  have hv : (i.lookupRoute s.cfg env (s.indexRequest hashSeed tm req)).Valid := Index.lookupRoute_valid
  have hg : Gated s req.tenantID (s.inputs hashSeed tm req) _ (s.outcome hashSeed i env tm req) :=
    gated_spec hv
  generalize s.outcome hashSeed i env tm req = g at hg h
  cases hg
  case passes hp => exact absurd hp.strategy h
  case withheld => rfl
  case hot => exact hv.noHits h
  case missed => exact hv.noHits h

theorem of_prefixMatch (h : (s.lookupRoute hashSeed sha256 i env env' tm req).1.reasonCode = .prefixMatch) :
    s.Consults hashSeed tm req ∧
      s.Passes req.tenantID (s.inputs hashSeed tm req)
        (i.lookupRoute s.cfg env (s.indexRequest hashSeed tm req)) ∧
      (s.lookupRoute hashSeed sha256 i env env' tm req).1 = responseOf tm req (s.inputs hashSeed tm req)
        ((i.lookupRoute s.cfg env (s.indexRequest hashSeed tm req)).above
          (s.policyMinimumMatchedTokens req.tenantID)) := by
  have ha := s.answer hashSeed sha256 i env env' tm req
  generalize s.lookupRoute hashSeed sha256 i env env' tm req = res at ha h
  cases ha
  case failsOpen _ hf _ => rcases hf.reason with hr | hr | hr <;> simp [hr] at h
  case affinity _ _ ha => simp [reason_tryAffinityResponse ha] at h
  case delivers hc =>
    have ⟨hp, ho⟩ := outcome_of_prefixMatch (reasonForStrategy_eq_prefixMatch.mp h)
    exact ⟨hc, hp, ho ▸ rfl⟩

end Match

end Call

end Server.Handler

end InferenceCache
