import InferenceCache.Index.Theorems.Results
import InferenceCache.Lib.Ieee

-- No score of a prefix match is NaN or infinite, and so they are sorted.
namespace InferenceCache

open FloatFormat GoFloat IeeeFormat

variable {F : Type} [GoFloat F] [IeeeFloat F]

section Factors

theorem within_freshnessAt {now lastSeen : Time} {ttl : Duration} :
    Within 0 1 (freshnessAt now lastSeen ttl : F) := by
  simp only [freshnessAt]
  split_ifs
  case pos => exact within_zero
  case pos => exact within_one
  case pos => exact within_zero
  case neg h₀ h₁ h₂ =>
    have hm : Time.sub now lastSeen ≤ 2 ^ 64 :=
      max_le (by decide) <| (min_le_left _ _).trans (by decide)
    have hq : Within 0 1 (ofInt (Time.sub now lastSeen) / ofInt ttl : Double F) :=
      within_ofInt_div_ofInt (not_le.mp h₁).le hm (not_le.mp h₀) (not_le.mp h₂).le
    have ⟨a, ha, hl, hh⟩ := hq.one_sub
    exact .of_round (IeeeFloat.val_narrow ha) representable_zero representable_one hl hh

-- The pressure may be any finite number at all.
theorem within_pressureFactorAt {pressure : F} {a : ℚ} (h : val pressure = some ↑a) :
    Within 0 1 (pressureFactorAt pressure 1) := by
  have h₁ : val (1 * pressure) = some ↑a := by
    rw [val_mul val_one h, one_mul, round_val h]
  have h₂ : val (1 - 1 * pressure) = some (round (F := F) (1 - a)) := val_sub val_one h₁
  simp only [pressureFactorAt]
  split_ifs with hn hp
  case pos => exact within_zero
  case pos => exact within_one
  case neg =>
    rw [lt_iff h₂ val_zero, not_lt] at hn
    rw [lt_iff val_one h₂, not_lt] at hp
    have ⟨b, hb, hl, hh⟩ := exists_coe_of_between hn hp
    exact ⟨b, by rw [h₂, hb], hl, hh⟩

theorem within_distinguishingPower {matching total : Int} (h : total ≤ 2 ^ 64) :
    Within 0 1 (narrow (distinguishingPower F matching total)) := by
  have hd : Within 0 1 (distinguishingPower F matching total) := by
    unfold distinguishingPower
    split_ifs with h₁ h₂
    case pos => exact within_one
    case pos => exact within_zero
    case neg =>
      rw [not_or, not_le, not_lt] at h₁
      rw [not_le] at h₂
      exact (within_ofInt_div_ofInt h₁.2 (h₂.le.trans h) (by omega) h₂.le).one_sub
  have ⟨a, ha, hl, hh⟩ := hd
  exact .of_round (IeeeFloat.val_narrow ha) representable_zero representable_one hl hh

theorem within_sloBias {cfg : Config F} (hr : cfg.ranker = .default) {fresh : F} (h : Within 0 1 fresh)
    {ttftMs : Int32} : Within 0 (2 ^ 1) (1 + fresh * sloTightBiasCoefficient cfg ttftMs) := by
  have hc : Within 0 1 (sloTightBiasCoefficient cfg ttftMs) := by
    unfold sloTightBiasCoefficient
    rw [hr]
    split_ifs
    case pos => exact within_zero
    case pos => exact within_zero
    case neg => exact within_one
  have ⟨a, ha, ha₀, ha₁⟩ := h
  have ⟨b, hb, hb₀, hb₁⟩ := hc
  have ⟨c, hc, hc₀, hc₁⟩ : Within 0 1 (fresh * sloTightBiasCoefficient cfg ttftMs) :=
    .of_round (val_mul ha hb) representable_zero representable_one (mul_nonneg ha₀ hb₀)
      (mul_le_one₀ ha₁ hb₀ hb₁)
  apply Within.of_round (val_add val_one hc) representable_zero (representable_pow (by decide))
  case h₁ => exact add_nonneg zero_le_one hc₀
  case h₂ => linarith

end Factors

namespace Index

variable {cfg : Config F} {i : Index F} {env : Env} {req : LookupRequest} {id : GoString}

-- What is kept of the stats a replica reports is finite.
def FiniteStats (i : Index F) : Prop :=
  ∀ sk e, i.stats.lookup sk = some e → ∃ a : ℚ, val e.stats.pressure = some ↑a

theorem exists_val_sanitizeRate (x : F) : ∃ a : ℚ, val (sanitizeRate x) = some ↑a := by
  unfold sanitizeRate
  split
  case isTrue h => exact isFinite_iff.mp h
  case isFalse => exact ⟨0, val_zero⟩

theorem FiniteStats.ingest {u : Update F} (h : FiniteStats i) : FiniteStats (i.ingest cfg env u) := by
  intro sk e he
  rw [stats_ingest, lookup_stats_recordUpdate] at he
  split at he
  case isFalse => exact h sk e he
  case isTrue =>
    rw [statsOf] at he
    cases hs : u.stats
    case none => rw [hs] at he; exact h sk e he
    case some st =>
      rw [hs] at he
      cases he
      exact exists_val_sanitizeRate st.pressure

theorem FiniteStats.applyEvent {ev : Event} (h : FiniteStats i) :
    FiniteStats (i.applyEvent cfg env ev) := by
  intro sk e he
  rw [lookup_stats_applyEvent] at he
  split at he
  case isFalse => exact h sk e he
  case isTrue =>
    have ⟨e', he', ht⟩ := Option.bind_eq_some_iff.mp he
    have hp := h sk e' he'
    unfold touched at ht
    split at ht <;> cases ht
    case h_1 => exact hp
    case h_3 => exact hp
    case h_4 => exact hp

theorem FiniteStats.step {c : Call F × Env} (h : FiniteStats i) : FiniteStats (step cfg i c) := by
  obtain ⟨c, env⟩ := c
  cases c
  case ingest => exact h.ingest
  case applyEvent => exact h.applyEvent
  case creditHit => intro sk e he; exact h sk e (stats_creditHit ▸ he)
  case evictExpired =>
    intro sk e he
    have hs : (i.evictExpired cfg env).stats.lookup sk = some e := he
    rw [stats_evictExpired] at hs
    exact h sk e (Finmap.lookup_filter_eq_some_iff.mp hs).1

theorem Reachable.finiteStats (h : Reachable cfg i) : FiniteStats i :=
  h.induction (fun _ _ he => by cases he) fun _ _ => FiniteStats.step

section Bounds

-- The scores of a prefix match are at most twice the number of tokens.
def Moderate (s : ReplicaScore F) : Prop :=
  Within (-2 ^ 32) (2 ^ 32) s.score

theorem exists_val_pressureOf (h : FiniteStats i) (cfg : Config F) (env : Env) (req : LookupRequest)
    (id : GoString) : ∃ a : ℚ, val (i.pressureOf cfg env req id) = some ↑a := by
  unfold pressureOf
  split
  case h_2 => exact ⟨0, val_zero⟩
  case h_1 e he =>
    split
    case isTrue => exact h _ e he
    case isFalse => exact ⟨0, val_zero⟩

theorem moderate_scoreOf (hr : cfg.ranker = .default) (h : FiniteStats i) {tokens : Int32}
    {lastSeen : Time} {tier : CacheTier} : Moderate (i.scoreOf cfg env req id tokens lastSeen tier) := by
  have ⟨a, ha⟩ := exists_val_pressureOf h cfg env req id
  have ht : Within (-2 ^ 31) (2 ^ 31) (ofInt tokens.toInt : F) :=
    within_ofInt (by decide) tokens.le_toInt (tokens.toInt_lt.le)
  have hf : Within 0 1 (freshnessAt (env.now 0) lastSeen (cfg.ttlFor env req.tenant) : F) :=
    within_freshnessAt
  have hp := within_pressureFactorAt ha
  have hw : cfg.ranker.pressureWeight = 1 := by rw [hr]; rfl
  unfold Moderate scoreOf
  rw [hw]
  exact ((ht.mul_unit hf (by decide)).mul_unit hp (by decide)).mul (within_sloBias hr hf) (by decide)

theorem Moderate.scale {s : ReplicaScore F} (h : Moderate s) {f : F} (hf : Within 0 1 f) :
    Moderate (s.scale f) :=
  Within.mul_unit h hf (by decide)

theorem moderate_scale {l : List (ReplicaScore F)} (h : ∀ s ∈ l, Moderate s) {b : Bool} {f : F}
    (hf : Within 0 1 f) : ∀ s ∈ (if b then l.map (·.scale f) else l), Moderate s := by
  cases b
  case false => exact h
  case true =>
    intro s hs
    have ⟨s', hs', he⟩ := List.mem_map.mp hs
    exact he ▸ (h s' hs').scale hf

theorem moderate_scaleGroups {n : Int} (hn : n ≤ 2 ^ 64) {k : Nat} {gs : List (List (ReplicaScore F))}
    (h : ∀ s ∈ gs.flatten, Moderate s) : ∀ s ∈ scaleGroups n k gs, Moderate s := by
  induction gs generalizing k
  case nil => exact h
  case cons g gs hi =>
    intro s hs
    rw [List.flatten_cons] at h
    cases List.mem_append.mp hs
    case inl hs => exact moderate_scale (fun s hs => h s (by simp [hs])) (within_distinguishingPower hn) s hs
    case inr hs => exact hi (fun s hs => h s (by simp [hs])) s hs

theorem moderate_applyChainDistinguishingPower {n : Int} (hn : n ≤ 2 ^ 64) {l : List (ReplicaScore F)}
    (h : ∀ s ∈ l, Moderate s) : ∀ s ∈ applyChainDistinguishingPower l n, Moderate s := by
  unfold applyChainDistinguishingPower
  split
  case isTrue => exact h
  case isFalse =>
    apply moderate_scaleGroups hn
    rw [List.flatten_splitBy]
    exact fun s hs => h s <| sortSlice_perm.mem_iff.mp hs

variable (hr : cfg.ranker = .default) (h : FiniteStats i) (ht : i.totalReplicas req ≤ 2 ^ 64)

include hr h ht

theorem moderate_lookupExact : ∀ s ∈ (i.lookupExact cfg env req).1, Moderate s := by
  intro s hs
  apply moderate_scale ?_ (within_distinguishingPower ht) s (sortSlice_perm.mem_iff.mp hs)
  intro s hs
  have ⟨_, _, hx⟩ := List.mem_filterMap.mp hs
  split at hx <;> cases hx
  exact moderate_scoreOf hr h

theorem moderate_lookupChain : ∀ s ∈ (i.lookupChain cfg env req).1, Moderate s := by
  rw [lookupChain_eq]
  intro s hs
  apply moderate_applyChainDistinguishingPower ht ?_ s (sortSlice_perm.mem_iff.mp hs)
  intro s hs
  have ⟨x, _, hx⟩ := List.mem_filterMap.mp hs
  unfold runScore at hx
  split at hx <;> cases hx
  exact moderate_scoreOf hr h

theorem moderate_lookupWithHits : ∀ s ∈ (i.lookupWithHits cfg env req).1, Moderate s := by
  unfold lookupWithHits
  split_ifs
  case pos => simp
  case pos => simp
  case neg => exact moderate_lookupChain hr h ht
  case neg => exact moderate_lookupExact hr h ht

end Bounds

section Sorted

theorem comparable_of_moderate {l : List (ReplicaScore F)} (h : ∀ s ∈ l, Moderate s) :
    Comparable (l.map ReplicaScore.score) := by
  have hv : ∀ x ∈ l.map ReplicaScore.score, ∃ a : ℚ, val x = some ↑a := by
    intro x hx
    have ⟨s, hs, he⟩ := List.mem_map.mp hx
    have ⟨a, ha, _⟩ := h s hs
    exact ⟨a, he ▸ ha⟩
  refine ⟨toRat, fun x hx y hy => ?_⟩
  have ⟨_, hx⟩ := hv x hx
  have ⟨_, hy⟩ := hv y hy
  exact ⟨lt_iff_toRat hx hy, eq_iff_toRat hx hy⟩

theorem pairwise_sort_of_moderate {l : List (ReplicaScore F)}
    (h : ∀ s ∈ sortScoresDescByScoreThenID l, Moderate s)
    (hn : ((sortScoresDescByScoreThenID l).map ReplicaScore.replicaID).Nodup) :
    (sortScoresDescByScoreThenID l).Pairwise fun a b => a.before b := by
  apply pairwise_sortScores
  case hc => exact (comparable_of_moderate h).mono (sortSlice_perm.map _).symm.subset
  case hn => exact (sortSlice_perm.map _).nodup_iff.mp hn

omit [IeeeFloat F] in
theorem exists_sort_eq_lookupWithHits (cfg : Config F) (i : Index F) (env : Env) (req : LookupRequest) :
    ∃ l, (i.lookupWithHits cfg env req).1 = sortScoresDescByScoreThenID l := by
  unfold lookupWithHits
  split_ifs
  case pos => exact ⟨[], rfl⟩
  case pos => exact ⟨[], rfl⟩
  case neg => exact ⟨_, rfl⟩
  case neg => exact ⟨_, rfl⟩

theorem pairwise_lookupWithHits (hr : cfg.ranker = .default) (h : FiniteStats i)
    (ht : i.totalReplicas req ≤ 2 ^ 64) :
    (i.lookupWithHits cfg env req).1.Pairwise fun a b => a.before b := by
  have hm : ∀ s ∈ (i.lookupWithHits cfg env req).1, Moderate s := moderate_lookupWithHits hr h ht
  have hn : ((i.lookupWithHits cfg env req).1.map ReplicaScore.replicaID).Nodup := nodup_lookupWithHits
  have ⟨l, hl⟩ := i.exists_sort_eq_lookupWithHits cfg env req
  rw [hl] at hm hn ⊢
  exact pairwise_sort_of_moderate hm hn

end Sorted

end Index

end InferenceCache
