import InferenceCache.Server.Theorems.WellFormed

namespace InferenceCache.Server.Handler

variable {F : Type} {i j : Index F} {env env' : Env} {scope : ScopeKey}

-- The candidates of a hint are the replicas that serve the engine domain, in an order that depends on
-- their ids alone.
theorem perm_of_serves {cfg cfg' : Config F} (hi : Index.Consistent cfg i) (hj : Index.Consistent cfg' j)
    (h : ∀ id, Serves i scope id ↔ Serves j scope id) (o o' : RangeOrder GoString) :
    ((o.range (i.servingByScope.inner scope)).map Prod.fst).Perm
      ((o'.range (j.servingByScope.inner scope)).map Prod.fst) := by
  rw [RangeOrder.range_keys, RangeOrder.range_keys]
  refine (List.perm_ext_iff_of_nodup (o.nodup _) (o'.nodup _)).mpr fun id => ?_
  rw [o.mem_list, o'.mem_list, Finmap.mem_keys_iff, Finmap.mem_keys_iff, Finmap.lookup_inner,
    Finmap.lookup_inner, hi.serving_isSome_iff, hj.serving_isSome_iff]
  exact h id

theorem replicasForRouting_of_serves {cfg cfg' : Config F} (hi : Index.Consistent cfg i)
    (hj : Index.Consistent cfg' j) (h : ∀ id, Serves i scope id ↔ Serves j scope id) :
    i.replicasForRouting env scope = j.replicasForRouting env' scope := by
  have hc : ComparesBy (fun a b : GoString => decide (a < b)) id := fun _ _ => decide_eq_true_iff
  unfold Index.replicasForRouting
  split
  case isTrue => rfl
  case isFalse =>
    refine hc.sortSlice_eq_of_perm ?_ (perm_of_serves hi hj h _ _)
    rw [List.map_id]
    exact RangeOrder.range_keys_nodup

theorem replicasForRouting_ne_nil {cfg : Config F} (hi : Index.Consistent cfg i) {id : GoString}
    (hs : scope.hashScheme ≠ []) (h : Serves i scope id) : i.replicasForRouting env scope ≠ [] := by
  rw [Index.replicasForRouting, if_neg hs]
  refine List.ne_nil_of_mem (sortSlice_perm.mem_iff.mpr ?_) (a := id)
  rw [RangeOrder.range_keys, RangeOrder.mem_list, Finmap.mem_keys_iff, Finmap.lookup_inner,
    hi.serving_isSome_iff]
  exact h

theorem affinityHint_isSome {sha256 : Bytes → Bytes} {seed : Bytes} (hs : seed ≠ [])
    (h : i.replicasForRouting env scope ≠ []) : (i.affinityHint env sha256 scope seed).isSome := by
  have hl : 0 < (i.replicasForRouting env scope).length := List.length_pos_iff.mpr h
  have hn : seed.length ≠ 0 := List.length_eq_zero_iff.not.mpr hs
  simp only [Index.affinityHint, hn, hl.ne', if_false]
  rw [List.getElem?_eq_getElem (Nat.mod_lt _ hl)]
  rfl

theorem canonicalAffinitySeed_of_blockHashes {inputs : LookupInputs} (h : inputs.blockHashes ≠ []) :
    canonicalAffinitySeed inputs =
      some (inputs.blockHashes.flatMap fun b => beBytes 4 b.length ++ b) :=
  if_pos (List.length_pos_iff.mpr h)

theorem affinity_stable [GoFloat F] (cfg cfg' : Config F) (i j : Index F) (hi : Index.Reachable cfg i)
    (hj : Index.Reachable cfg' j) (scope : ScopeKey) (sha256 : Bytes → Bytes) :
    (∀ a b : LookupInputs, a.blockHashes ≠ [] → b.blockHashes ≠ [] →
      (∀ h ∈ a.blockHashes, h.length < 2 ^ 32) → (∀ h ∈ b.blockHashes, h.length < 2 ^ 32) →
      a.blockHashes ≠ b.blockHashes → canonicalAffinitySeed a ≠ canonicalAffinitySeed b) ∧
    ((∀ id, Serves i scope id ↔ Serves j scope id) → ∀ env env' seed,
      i.affinityHint env sha256 scope seed = j.affinityHint env' sha256 scope seed ∧
      (∀ id, i.affinityHint env sha256 scope seed = some id → Serves i scope id) ∧
      (seed ≠ [] → scope.hashScheme ≠ [] → (∃ id, Serves i scope id) →
        (i.affinityHint env sha256 scope seed).isSome)) := by
  constructor
  case left =>
    intro a b ha hb hla hlb hne he
    rw [canonicalAffinitySeed_of_blockHashes ha, canonicalAffinitySeed_of_blockHashes hb] at he
    exact hne (flatMap_length_append_injective (by decide) hla hlb (Option.some.inj he))
  case right =>
    intro h env env' seed
    have hr : i.replicasForRouting env scope = j.replicasForRouting env' scope :=
      replicasForRouting_of_serves hi.consistent hj.consistent h
    refine ⟨?same, fun id ha => serves_of_affinityHint hi.consistent ha, ?found⟩
    case same  => rw [Index.affinityHint, Index.affinityHint, hr]
    case found =>
      rintro hs hn ⟨id, hid⟩
      exact affinityHint_isSome hs (replicasForRouting_ne_nil hi.consistent hn hid)

theorem affinity_stable_probe :
    (Index.run Index.probed [Index.workload]).affinityHint (.still 9) id Index.sample.scopeKey [1] =
      (Index.run Index.probed [Index.probe, Index.workload]).affinityHint (.still 10) id
        Index.sample.scopeKey [1] := by
  have hi : Index.Reachable Index.probed (.run Index.probed [Index.workload]) := ⟨_, rfl⟩
  have hj : Index.Reachable Index.probed (.run Index.probed [Index.probe, Index.workload]) := ⟨_, rfl⟩
  have hs : (Index.run Index.probed [Index.workload]).servingByScope.inner Index.sample.scopeKey =
      (Index.run Index.probed [Index.probe, Index.workload]).servingByScope.inner Index.sample.scopeKey := by
    decide +kernel
  refine ((affinity_stable _ _ _ _ hi hj _ _).2 (fun id => ?_) _ _ _).1
  rw [Serves, Serves, ← hi.consistent.serving_isSome_iff, ← hj.consistent.serving_isSome_iff,
    ← Finmap.lookup_inner, ← Finmap.lookup_inner, hs]

end InferenceCache.Server.Handler
