import InferenceCache.Index.Theorems.Credit

-- What a lookup guarantees of its result.
namespace InferenceCache

variable {F : Type}

structure LookupResult.Valid (result : LookupResult F) : Prop where
  nodup    : (result.scores.map ReplicaScore.replicaID).Nodup
  hits     : ∀ id ∈ result.hitsByReplica.keys, id ∈ result.scores.map ReplicaScore.replicaID
  some_iff : result.scores ≠ [] ↔ result.strategy = .prefixMatch ∨ result.strategy = .tenantHot
  noHits   : result.strategy ≠ .prefixMatch → result.hitsByReplica = ∅
  hot      : result.strategy = .tenantHot → ∀ sc ∈ result.scores, sc.matchedTokens = 0

theorem LookupResult.valid_nothing : (LookupResult.nothing : LookupResult F).Valid where
  nodup := List.nodup_nil
  hits := by simp [LookupResult.nothing]
  some_iff := by simp [LookupResult.nothing]
  noHits _ := rfl
  hot := by simp [LookupResult.nothing]

namespace Index

variable {cfg : Config F} {i : Index F} {env : Env} {req : LookupRequest} {id : GoString}

theorem classifyMiss_ne_tenantHot : i.classifyMiss req ≠ .tenantHot := by
  unfold classifyMiss
  split_ifs <;> exact Strategy.noConfusion

theorem mem_ids_iff_found {l : List (ReplicaScore F)} :
    id ∈ l.map ReplicaScore.replicaID ↔ ∃ x, (id, x) ∈ l.map ReplicaScore.found := by
  simp only [List.mem_map, ReplicaScore.found, Prod.mk.injEq]
  constructor
  case mp =>
    rintro ⟨s, hs, hi⟩
    exact ⟨_, s, hs, hi, rfl⟩
  case mpr =>
    rintro ⟨_, s, hs, hi, _⟩
    exact ⟨s, hs, hi⟩

variable [GoFloat F]

theorem nodup_sortScores {l : List (ReplicaScore F)} (h : (l.map ReplicaScore.replicaID).Nodup) :
    ((sortScoresDescByScoreThenID l).map ReplicaScore.replicaID).Nodup :=
  (sortSlice_perm.map _).nodup_iff.mpr h

theorem nodup_lookupExact : ((i.lookupExact cfg env req).1.map ReplicaScore.replicaID).Nodup := by
  apply nodup_sortScores
  have hn : ∀ (l : List (ReplicaScore F)) (b : Bool) (f : F), (l.map ReplicaScore.replicaID).Nodup →
      ((if b then l.map (·.scale f) else l).map ReplicaScore.replicaID).Nodup := by
    intro l b f h
    cases b
    case false => exact h
    case true => rwa [if_pos rfl, List.map_map]
  apply hn
  apply nodup_filterMap_range
  intro y s hs
  split at hs <;> cases hs
  rfl

theorem nodup_lookupChain : ((i.lookupChain cfg env req).1.map ReplicaScore.replicaID).Nodup := by
  rw [lookupChain_eq]
  apply nodup_sortScores
  rw [applyChainDistinguishingPower_ids.nodup_iff]
  exact nodup_filterMap_range fun _ _ => replicaID_of_runScore

theorem nodup_lookupWithHits :
    ((i.lookupWithHits cfg env req).1.map ReplicaScore.replicaID).Nodup := by
  unfold lookupWithHits
  split_ifs
  case pos => exact List.nodup_nil
  case pos => exact List.nodup_nil
  case neg => exact nodup_lookupChain
  case neg => exact nodup_lookupExact

theorem mem_ids_lookupExact (h : id ∈ (i.lookupExact cfg env req).2.keys) :
    id ∈ (i.lookupExact cfg env req).1.map ReplicaScore.replicaID := by
  rw [Finmap.mem_keys_iff, lookup_hits_lookupExact] at h
  cases hf : i.freshEntry cfg env req id req.prefixHash
  case none => simp [hf] at h
  case some e => exact mem_ids_iff_found.mpr ⟨_, mem_found_lookupExact.mpr ⟨e, hf, rfl⟩⟩

theorem mem_ids_lookupChain (h : id ∈ (i.lookupChain cfg env req).2.keys) :
    id ∈ (i.lookupChain cfg env req).1.map ReplicaScore.replicaID := by
  rw [Finmap.mem_keys_iff, lookup_hits_lookupChain] at h
  cases hr : i.runOf cfg env req id (blocks req)
  case none => simp [hr] at h
  case some st =>
    rw [hr, Option.bind_some, runHits] at h
    split at h
    case isTrue => cases h
    case isFalse hn =>
      rw [not_or, Int32.not_le, Bool.not_eq_true] at hn
      exact mem_ids_iff_found.mpr ⟨_, mem_found_lookupChain.mpr ⟨st, hr, hn, rfl⟩⟩

theorem mem_ids_lookupWithHits (h : id ∈ (i.lookupWithHits cfg env req).2.keys) :
    id ∈ (i.lookupWithHits cfg env req).1.map ReplicaScore.replicaID := by
  unfold lookupWithHits at h ⊢
  split_ifs at h ⊢
  case pos => simp at h
  case pos => simp at h
  case neg => exact mem_ids_lookupChain h
  case neg => exact mem_ids_lookupExact h

theorem nodup_tenantHotCandidates :
    ((i.tenantHotCandidates cfg env req).map ReplicaScore.replicaID).Nodup := by
  rw [tenantHotCandidates_eq]
  split
  case isTrue => exact List.nodup_nil
  case isFalse =>
    apply nodup_sortScores
    apply nodup_filterMap_range
    intro y s hs
    split at hs <;> cases hs
    rfl

theorem matchedTokens_of_mem_tenantHot {sc : ReplicaScore F}
    (h : sc ∈ i.tenantHotCandidates cfg env req) : sc.matchedTokens = 0 := by
  rw [tenantHotCandidates_eq] at h
  split at h
  case isTrue => cases h
  case isFalse =>
    obtain ⟨x, _, hx⟩ := List.mem_filterMap.mp <| sortSlice_perm.mem_iff.mp h
    split at hx <;> cases hx
    rfl

theorem hits_of_prefixMatch (h : (i.lookupRoute cfg env req).strategy = .prefixMatch) :
    dropped req = false ∧ (i.lookupRoute cfg env req).hitsByReplica = (i.lookupWithHits cfg env req).2 := by
  have ⟨hd, hl⟩ := strategy_eq_prefixMatch_iff.mp h
  rw [lookupRoute_eq, if_neg hd, if_pos hl]
  exact ⟨Bool.eq_false_iff.mpr hd, rfl⟩

theorem lookupRoute_valid : (i.lookupRoute cfg env req).Valid := by
  rw [lookupRoute_eq]
  split_ifs
  case pos => exact LookupResult.valid_nothing
  case pos h => exact {
    nodup := nodup_lookupWithHits
    hits := fun _ => mem_ids_lookupWithHits
    some_iff := by simp [List.length_pos_iff.mp h]
    noHits := fun hn => absurd rfl hn
    hot := fun hn => by cases hn }
  case pos h =>
    have hc : ¬req.chainBearing = true := fun hc => by simp [fallback, hc] at h
    rw [fallback, if_neg hc] at h ⊢
    exact {
      nodup := nodup_tenantHotCandidates
      hits := by simp
      some_iff := by simp [List.length_pos_iff.mp h]
      noHits := fun _ => rfl
      hot := fun _ _ => matchedTokens_of_mem_tenantHot }
  case neg => exact {
    nodup := List.nodup_nil
    hits := by simp
    some_iff := by simp [classifyMiss_ne, classifyMiss_ne_tenantHot]
    noHits := fun _ => rfl
    hot := by simp }

end Index

end InferenceCache
