import InferenceCache.Index.Theorems.Order

namespace InferenceCache

open FloatFormat GoFloat

section Groups

variable {F : Type} [GoFloat F] {scores : List (ReplicaScore F)} {n : Int}

-- Matches are deeper the lower their rank.
def ReplicaScore.depthRank (s : ReplicaScore F) : Int :=
  -s.matchedTokens.toInt

def asDeep (scores : List (ReplicaScore F)) (s : ReplicaScore F) : Nat :=
  scores.countP (s.matchedTokens ≤ ·.matchedTokens)

def scaleBy (n : Int) (k : Nat) (s : ReplicaScore F) : ReplicaScore F :=
  if !eq (distinguishingPower F k n) 1 then s.scale (narrow (distinguishingPower F k n)) else s

omit [GoFloat F] in
theorem asDeep_eq {s : ReplicaScore F} :
    asDeep scores s = scores.countP (ReplicaScore.depthRank · ≤ s.depthRank) := by
  simp only [asDeep, ReplicaScore.depthRank, neg_le_neg_iff, Int32.le_iff_toInt_le]

omit [GoFloat F] in
theorem asDeep_perm {scores' : List (ReplicaScore F)} (h : scores.Perm scores') :
    asDeep scores = asDeep scores' :=
  funext fun _ => h.countP_eq _

-- The running count reaches the number of replicas that are as deep at the end of each group.
theorem scaleGroups_eq {k : Nat} {gs : List (List (ReplicaScore F))}
    (h : Grouped ReplicaScore.depthRank gs) :
    scaleGroups n k gs = gs.flatten.map fun s =>
      scaleBy n (k + gs.flatten.countP (ReplicaScore.depthRank · ≤ s.depthRank)) s := by
  induction gs generalizing k
  case nil => rfl
  case cons g gs hi =>
    have hh : ∀ s ∈ g, scaleBy n (k + (g :: gs).flatten.countP (ReplicaScore.depthRank · ≤ s.depthRank)) s =
        scaleBy n (k + g.length) s := by
      intro s hs
      rw [h.countP_of_mem hs]
    have ht : ∀ s ∈ gs.flatten,
        scaleBy n (k + (g :: gs).flatten.countP (ReplicaScore.depthRank · ≤ s.depthRank)) s =
          scaleBy n (k + g.length + gs.flatten.countP (ReplicaScore.depthRank · ≤ s.depthRank)) s := by
      intro s hs
      rw [h.countP_of_mem_tail hs, Nat.add_assoc]
    rw [scaleGroups, hi h.tail, List.flatten_cons, List.map_append, ← List.flatten_cons, List.map_congr_left hh,
      List.map_congr_left ht]
    congr 1
    unfold scaleBy
    split
    case isTrue => rfl
    case isFalse => exact (List.map_id _).symm

theorem applyChainDistinguishingPower_eq (h : ¬(n ≤ 1 ∨ scores.length = 0)) :
    (applyChainDistinguishingPower scores n).Perm
      (scores.map fun s => scaleBy n (asDeep scores s) s) := by
  have hs : (sortSlice ReplicaScore.deeper scores).Pairwise
      fun a b => a.depthRank ≤ b.depthRank := by
    refine comparesBy_deeper.pairwise_sortSlice.imp fun {a b} hab => ?_
    rcases Prod.Lex.toLex_le_toLex.mp hab with hlt | ⟨heq, _⟩
    case inl => exact hlt.le
    case inr => exact heq.le
  have hg : Grouped ReplicaScore.depthRank ((sortSlice ReplicaScore.deeper scores).splitBy
      fun a b => a.matchedTokens == b.matchedTokens) := by
    have he : (fun a b : ReplicaScore F => a.matchedTokens == b.matchedTokens) =
        fun a b => a.depthRank == b.depthRank := by
      funext a b
      rw [Bool.eq_iff_iff, beq_iff_eq, beq_iff_eq, ReplicaScore.depthRank, ReplicaScore.depthRank, neg_inj,
        Int32.toInt_inj]
    rw [he]
    exact grouped_splitBy hs
  rw [applyChainDistinguishingPower, if_neg h, scaleGroups_eq hg, List.flatten_splitBy]
  simp only [Nat.zero_add, ← asDeep_eq, asDeep_perm sortSlice_perm]
  exact sortSlice_perm.map _

end Groups

section Exact

variable {scores : List (ReplicaScore ℚ)} {n : Int}

-- The factor by which `k` of `n` replicas that match as much are told apart.
def factor (k : Nat) (n : Int) : ℚ :=
  narrow (distinguishingPower ℚ k n)

theorem factor_eq {k : Nat} : factor k n =
    if n ≤ 1 then 1 else if n ≤ k then 0 else 1 - (k : ℚ) / (n : ℚ) := by
  have hk : ¬(k : Int) < 0 := by omega
  simp only [factor, distinguishingPower, hk, or_false]
  rfl

theorem scaleBy_eq {k : Nat} {s : ReplicaScore ℚ} : scaleBy n k s = s.scale (factor k n) := by
  unfold scaleBy
  split
  case isTrue => rfl
  case isFalse h =>
    have hd : eq (distinguishingPower ℚ k n) 1 = true := by simpa using h
    have he : factor k n = 1 := of_decide_eq_true hd
    rw [he, ReplicaScore.scale, mul_one]

theorem factor_antitone {k k' : Nat} (h : k ≤ k') : factor k' n ≤ factor k n := by
  rw [factor_eq, factor_eq]
  split
  case isTrue => exact le_rfl
  case isFalse hn =>
    have hp : (0 : ℚ) < n := by exact_mod_cast lt_trans Int.one_pos (not_le.mp hn)
    have hd : (k : ℚ) / n ≤ (k' : ℚ) / n := by gcongr
    split
    case isFalse hk' =>
      have hk : ¬n ≤ k := fun hk => hk' (hk.trans (by exact_mod_cast h))
      rw [if_neg hk]
      linarith
    case isTrue =>
      split
      case isTrue => exact le_rfl
      case isFalse hk =>
        have hl : (k : ℚ) / n ≤ 1 := (div_le_one hp).mpr (by exact_mod_cast (not_le.mp hk).le)
        linarith

theorem asDeep_mono {a b : ReplicaScore ℚ} (h : b.matchedTokens < a.matchedTokens) :
    asDeep scores a ≤ asDeep scores b := by
  apply List.countP_mono_left
  intro s _ hs
  rw [decide_eq_true_iff, Int32.le_iff_toInt_le] at hs ⊢
  exact (Int32.lt_iff_toInt_lt.mp h).le.trans hs

theorem chain_scaled_by_depth (scores : List (ReplicaScore ℚ)) (n : Int) :
    (applyChainDistinguishingPower scores n).Perm
      (scores.map fun s => s.scale (factor (asDeep scores s) n)) ∧
    (∀ scores', scores.Perm scores' →
      (applyChainDistinguishingPower scores' n).Perm (applyChainDistinguishingPower scores n)) ∧
    ∀ a b : ReplicaScore ℚ, b.matchedTokens < a.matchedTokens →
      factor (asDeep scores b) n ≤ factor (asDeep scores a) n := by
  have hp (l : List (ReplicaScore ℚ)) : (applyChainDistinguishingPower l n).Perm
      (l.map fun s => s.scale (factor (asDeep l s) n)) := by
    simp only [← scaleBy_eq]
    by_cases h : n ≤ 1 ∨ l.length = 0
    case neg => exact applyChainDistinguishingPower_eq h
    case pos =>
      rw [applyChainDistinguishingPower, if_pos h]
      rcases h with hn | hl
      case inl =>
        have hs (s : ReplicaScore ℚ) : scaleBy n (asDeep l s) s = s := by
          rw [scaleBy_eq, factor_eq, if_pos hn, ReplicaScore.scale, mul_one]
        rw [List.map_congr_left fun s _ => hs s, List.map_id']
      case inr => rw [List.eq_nil_of_length_eq_zero hl, List.map_nil]
  refine ⟨hp scores, fun scores' h => ?_, fun a b h => factor_antitone (asDeep_mono h)⟩
  refine (hp scores').trans (.trans ?_ (hp scores).symm)
  rw [asDeep_perm h]
  exact h.symm.map _

end Exact

end InferenceCache
