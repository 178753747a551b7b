import InferenceCache.Index.Theorems.Agreement
import InferenceCache.Index.Theorems.Matching

-- What a lookup returns, however it visits the maps on its way.
namespace InferenceCache

variable {F : Type}

-- The same inputs, read in other iteration orders.
def Env.withOrder (env : Env) (order : Nat → MapOrders) : Env :=
  { env with order }

theorem Env.SameInputs.eq {env env' : Env} (h : env.SameInputs env') :
    env' = env.withOrder env'.order := by
  cases env
  cases env'
  cases h
  simp_all [withOrder]

section Ranking

open FloatFormat GoFloat

variable [GoFloat F] {l l' : List (ReplicaScore F)} {n : Int}

-- Values with no NaN among them, so that comparing them is comparing numbers.
def Comparable (l : List F) : Prop :=
  ∃ rank : F → ℚ, ∀ a ∈ l, ∀ b ∈ l, (lt a b ↔ rank a < rank b) ∧ (eq a b ↔ rank a = rank b)

-- Two rankings of the same replicas. Only a NaN can make them differ.
structure SameRanking (l l' : List (ReplicaScore F)) : Prop where
  perm : l.Perm l'
  eq   : Comparable (l.map ReplicaScore.score) → l = l'

theorem SameRanking.refl : SameRanking l l :=
  ⟨.refl _, fun _ => rfl⟩

def ReplicaScore.rankBy (rank : F → ℚ) (s : ReplicaScore F) : ℚ ×ₗ GoString :=
  toLex (-rank s.score, s.replicaID)

omit [GoFloat F] in
theorem nodup_rankBy {R : Type} {rank : ReplicaScore F → R} (hn : (l.map ReplicaScore.replicaID).Nodup)
    (hr : ∀ a b, rank a = rank b → a.replicaID = b.replicaID) : (l.map rank).Nodup := by
  rw [List.nodup_map_iff_inj_on hn.of_map]
  exact fun a ha b hb h => List.inj_on_of_nodup_map hn ha hb (hr a b h)

omit [GoFloat F] in
theorem comparesBy_rankBy {rank : F → ℚ} :
    ComparesBy (fun a b : ReplicaScore F => decide (a.rankBy rank < b.rankBy rank))
      (ReplicaScore.rankBy rank) :=
  fun _ _ => decide_eq_true_iff

omit [GoFloat F] in
theorem nodup_map_rankBy {rank : F → ℚ} (hn : (l.map ReplicaScore.replicaID).Nodup) :
    (l.map (ReplicaScore.rankBy rank)).Nodup :=
  nodup_rankBy hn fun _ _ h => (Prod.ext_iff.mp h).2

-- On numbers, the comparator of the code is that of a linear order.
theorem Comparable.before_eq (hc : Comparable (l.map ReplicaScore.score)) :
    ∃ rank : F → ℚ, ∀ a ∈ l, ∀ b ∈ l, a.before b = decide (a.rankBy rank < b.rankBy rank) := by
  have ⟨rank, hr⟩ := hc
  refine ⟨rank, fun a ha b hb => ?_⟩
  have he := (hr _ (List.mem_map_of_mem ha) _ (List.mem_map_of_mem hb)).2
  have hl := (hr _ (List.mem_map_of_mem hb) _ (List.mem_map_of_mem ha)).1
  rw [Bool.eq_iff_iff, decide_eq_true_eq, ReplicaScore.rankBy, ReplicaScore.rankBy,
    toLex_lt_toLex_iff_ite, ReplicaScore.before]
  cases h : FloatFormat.eq a.score b.score <;> simp_all

theorem Comparable.mono {xs ys : List F} (h : Comparable xs) (hs : ys ⊆ xs) : Comparable ys :=
  have ⟨rank, hr⟩ := h
  ⟨rank, fun a ha b hb => hr a (hs ha) b (hs hb)⟩

theorem SameRanking.sort (hp : l.Perm l') (hn : (l.map ReplicaScore.replicaID).Nodup) :
    SameRanking (sortScoresDescByScoreThenID l) (sortScoresDescByScoreThenID l') where
  perm := sortSlice_perm.trans <| hp.trans sortSlice_perm.symm
  eq hc := by
    have ⟨rank, hb⟩ := Comparable.before_eq <| hc.mono (sortSlice_perm.map _).symm.subset
    have hb' : ∀ a ∈ l', ∀ b ∈ l', a.before b = decide (a.rankBy rank < b.rankBy rank) :=
      fun a ha b hb' => hb a (hp.mem_iff.mpr ha) b (hp.mem_iff.mpr hb')
    rw [sortScoresDescByScoreThenID, sortScoresDescByScoreThenID, sortSlice_congr hb, sortSlice_congr hb']
    exact comparesBy_rankBy.sortSlice_eq_of_perm (nodup_map_rankBy hn) hp

theorem pairwise_sortScores (hc : Comparable (l.map ReplicaScore.score))
    (hn : (l.map ReplicaScore.replicaID).Nodup) :
    (sortScoresDescByScoreThenID l).Pairwise fun a b => a.before b := by
  have ⟨rank, hb⟩ := hc.before_eq
  have hs : (sortScoresDescByScoreThenID l).Pairwise (ReplicaScore.rankBy rank · < ReplicaScore.rankBy rank ·) := by
    rw [sortScoresDescByScoreThenID, sortSlice_congr hb]
    exact comparesBy_rankBy.pairwise_lt_sortSlice (nodup_map_rankBy hn)
  apply hs.imp_of_mem
  intro a b ha hb' h
  rw [hb a (sortSlice_perm.mem_iff.mp ha) b (sortSlice_perm.mem_iff.mp hb')]
  exact decide_eq_true h

-- The same, of scores that are first scaled by how many there are.
theorem SameRanking.sort_scaled {b : Nat → Bool} {f : Nat → F} (hp : l.Perm l')
    (hn : (l.map ReplicaScore.replicaID).Nodup) :
    SameRanking (sortScoresDescByScoreThenID (if b l.length then l.map (·.scale (f l.length)) else l))
      (sortScoresDescByScoreThenID (if b l'.length then l'.map (·.scale (f l'.length)) else l')) := by
  rw [hp.length_eq]
  cases b l'.length
  case false => exact .sort hp hn
  case true =>
    rw [if_pos rfl, if_pos rfl]
    exact .sort (hp.map _) (by rwa [List.map_map])

theorem applyChainDistinguishingPower_ids :
    ((applyChainDistinguishingPower l n).map ReplicaScore.replicaID).Perm
      (l.map ReplicaScore.replicaID) := by
  have hf : ((applyChainDistinguishingPower l n).map ReplicaScore.found).Perm _ :=
    applyChainDistinguishingPower_found
  simpa [Function.comp_def, ReplicaScore.found] using hf.map Prod.fst

-- The depth of a match, the deepest first, and the order that matches of any depth are brought into.
omit [GoFloat F] in
theorem comparesBy_deeper : ComparesBy ReplicaScore.deeper fun s : ReplicaScore F =>
    toLex (-s.matchedTokens.toInt, s.replicaID) := by
  intro a b
  rw [toLex_lt_toLex_iff_ite, ReplicaScore.deeper]
  simp only [ne_eq, neg_inj, Int32.toInt_inj, neg_lt_neg_iff, Int32.lt_iff_toInt_lt]
  split <;> simp

-- Unless there is nothing to scale, the replicas are brought into an order of their own first.
theorem applyChainDistinguishingPower_perm (hp : l.Perm l') (hn : (l.map ReplicaScore.replicaID).Nodup) :
    (applyChainDistinguishingPower l n).Perm (applyChainDistinguishingPower l' n) := by
  have hs := comparesBy_deeper.sortSlice_eq_of_perm (nodup_rankBy hn fun _ _ h => (Prod.ext_iff.mp h).2) hp
  rw [applyChainDistinguishingPower, applyChainDistinguishingPower, hp.length_eq, hs]
  split
  case isTrue => exact hp
  case isFalse => exact .refl _

omit [GoFloat F] in
theorem nodup_filterMap_range {V : Type} {o : RangeOrder GoString} {m : GoMap GoString V}
    {f : GoString × V → Option (ReplicaScore F)} (hf : ∀ y, ∀ s ∈ f y, s.replicaID = y.1) :
    (((o.range m).filterMap f).map ReplicaScore.replicaID).Nodup := by
  rw [List.Nodup, List.pairwise_map]
  refine (List.pairwise_map.mp RangeOrder.range_keys_nodup).filterMap f fun y z h s hs t ht => ?_
  rwa [hf y s hs, hf z t ht]

end Ranking

namespace Index

open FloatFormat GoFloat

variable [GoFloat F] {cfg : Config F} {i : Index F} {env env' : Env} {req : LookupRequest}
variable {o : Nat → MapOrders}

section Inputs

theorem freshEntry_withOrder : i.freshEntry cfg (env.withOrder o) req = i.freshEntry cfg env req :=
  rfl

theorem runFrom_withOrder {id : GoString} {st : Running} {l : List (Bytes × Int32)} :
    i.runFrom cfg (env.withOrder o) req id st l = i.runFrom cfg env req id st l := by
  induction l generalizing st
  case nil => rfl
  case cons x l hi =>
    simp only [runFrom, freshEntry_withOrder]
    cases i.freshEntry cfg env req id x.1
    case none => rfl
    case some => exact hi

theorem runOf_withOrder {id : GoString} {l : List (Bytes × Int32)} :
    i.runOf cfg (env.withOrder o) req id l = i.runOf cfg env req id l := by
  cases l
  case nil => rfl
  case cons => simp only [runOf, freshEntry_withOrder, runFrom_withOrder]; rfl

end Inputs

section Exact

-- Every replica comes up once, so that its credit is never added to an earlier one.
theorem exactHits_eq {l : List (GoString × ReplicaEntry)} {key : PrefixKey} {hits : Hits}
    (hn : (l.map Prod.fst).Nodup) (hl : ∀ x ∈ l, hits.lookup x.1 = none) :
    l.foldl (fun hits x =>
      if stale cfg env req x.2.lastSeen then hits
      else if lfu env req ∧ 0 < x.2.tokenCount then
        hits.insert x.1 ((hits.lookup x.1).getD [] ++ [key])
      else hits) hits =
    l.foldl (fun hits x => (if stale cfg env req x.2.lastSeen then none
      else if lfu env req ∧ 0 < x.2.tokenCount then some [key] else none).elim hits (hits.insert x.1))
      hits := by
  induction l generalizing hits
  case nil => rfl
  case cons x l hi =>
    rw [List.map_cons, List.nodup_cons] at hn
    have hx : hits.lookup x.1 = none := hl x (by simp)
    rw [List.foldl_cons, List.foldl_cons]
    refine (hi hn.2 ?_).trans ?_
    case refine_1 =>
      intro y hy
      have hne : y.1 ≠ x.1 := fun he => hn.1 <| he ▸ List.mem_map_of_mem hy
      have hy' : hits.lookup y.1 = none := hl y (by simp [hy])
      split
      case isTrue => exact hy'
      case isFalse =>
        split
        case isTrue => rwa [Finmap.lookup_insert_of_ne _ hne]
        case isFalse => exact hy'
    case refine_2 =>
      congr 1
      split
      case isTrue => rfl
      case isFalse => split <;> simp [hx]

theorem lookupExact_order :
    SameRanking (i.lookupExact cfg env req).1 (i.lookupExact cfg (env.withOrder o) req).1 ∧
      (i.lookupExact cfg env req).2 = (i.lookupExact cfg (env.withOrder o) req).2 := by
  constructor
  case left =>
    refine .sort_scaled (b := fun n => !FloatFormat.eq (distinguishingPower F n (i.totalReplicas req)) 1)
      (f := fun n => narrow (distinguishingPower F n (i.totalReplicas req)))
      (RangeOrder.range_perm.filterMap _) (nodup_filterMap_range fun y s hs => ?_)
    split at hs <;> cases hs
    rfl
  case right =>
    simp only [lookupExact, exactHits_eq RangeOrder.range_keys_nodup fun _ _ => Finmap.lookup_empty _]
    refine Finmap.ext_lookup fun id => ?_
    let f (_ : GoString) (e : ReplicaEntry) : Option (List PrefixKey) :=
      if stale cfg env req e.lastSeen then none
      else if lfu env req ∧ 0 < e.tokenCount then some [req.keyOf req.prefixHash] else none
    exact (RangeOrder.lookup_collect (f := f)).trans (RangeOrder.lookup_collect (f := f)).symm

end Exact

section Chain

def chainRuns (cfg : Config F) (i : Index F) (env : Env) (req : LookupRequest) :
    GoMap GoString Running :=
  ((env.order (blocks req).length).ids.range (i.chainWalk cfg env req (blocks req)).1).foldl
    (fun m x => m.insert x.1 x.2) (i.chainWalk cfg env req (blocks req)).2

theorem chainRuns_withOrder : i.chainRuns cfg (env.withOrder o) req = i.chainRuns cfg env req := by
  refine Finmap.ext_lookup fun id => ?_
  rw [chainRuns, chainRuns, lookup_foldl_insert, lookup_foldl_insert, lookup_chainWalk, lookup_chainWalk,
    runOf_withOrder]

-- What a finished run contributes to the scores, and what to the hits.
def runScore (cfg : Config F) (i : Index F) (env : Env) (req : LookupRequest) (x : GoString × Running) :
    Option (ReplicaScore F) :=
  if x.2.matchedTokens ≤ 0 ∨ stale cfg env req x.2.oldestLastSeen then none
  else some (i.scoreOf cfg env req x.1 x.2.matchedTokens x.2.oldestLastSeen x.2.runTier)

def runHits (cfg : Config F) (env : Env) (req : LookupRequest) (_ : GoString) (st : Running) :
    Option (List PrefixKey) :=
  if st.matchedTokens ≤ 0 ∨ stale cfg env req st.oldestLastSeen then none
  else if lfu env req ∧ 0 < st.entries.length then some st.entries
  else none

theorem lookupChain_eq :
    let order := (env.order ((blocks req).length + 1)).ids
    i.lookupChain cfg env req =
      (sortScoresDescByScoreThenID <| applyChainDistinguishingPower
        ((order.range (i.chainRuns cfg env req)).filterMap (i.runScore cfg env req)) (i.totalReplicas req),
      order.collect (runHits cfg env req) (i.chainRuns cfg env req) ∅) := by
  refine Prod.ext rfl ?_
  refine congrFun (congrFun (congrArg List.foldl ?_) _) _
  funext hits x
  unfold runHits
  split
  case isTrue => rfl
  case isFalse => split <;> rfl

theorem replicaID_of_runScore {x : GoString × Running} {s : ReplicaScore F}
    (h : s ∈ i.runScore cfg env req x) : s.replicaID = x.1 := by
  unfold runScore at h
  split at h <;> cases h
  rfl

theorem lookupChain_order :
    SameRanking (i.lookupChain cfg env req).1 (i.lookupChain cfg (env.withOrder o) req).1 ∧
      (i.lookupChain cfg env req).2 = (i.lookupChain cfg (env.withOrder o) req).2 := by
  rw [lookupChain_eq, lookupChain_eq, chainRuns_withOrder]
  constructor
  case right =>
    refine Finmap.ext_lookup fun id => ?_
    exact RangeOrder.lookup_collect.trans <| Eq.symm <|
      RangeOrder.lookup_collect (f := runHits cfg env req)
  case left =>
    have hn : (((env.order ((blocks req).length + 1)).ids.range (i.chainRuns cfg env req)).filterMap
        (i.runScore cfg env req)).map ReplicaScore.replicaID |>.Nodup :=
      nodup_filterMap_range fun _ _ => replicaID_of_runScore
    refine .sort (applyChainDistinguishingPower_perm (RangeOrder.range_perm.filterMap _) hn) ?_
    exact applyChainDistinguishingPower_ids.nodup_iff.mpr hn

end Chain

theorem lookupWithHits_order (cfg : Config F) (i : Index F) (env : Env) (req : LookupRequest)
    (o : Nat → MapOrders) :
    SameRanking (i.lookupWithHits cfg env req).1 (i.lookupWithHits cfg (env.withOrder o) req).1 ∧
      (i.lookupWithHits cfg env req).2 = (i.lookupWithHits cfg (env.withOrder o) req).2 := by
  unfold lookupWithHits
  split
  case isTrue => exact ⟨.refl, rfl⟩
  case isFalse =>
    split
    case isFalse => exact lookupExact_order
    case isTrue =>
      split
      case isTrue => exact ⟨.refl, rfl⟩
      case isFalse => exact lookupChain_order

section TenantHot

variable {known : GoMap GoString Unit}

def warmOf (cfg : Config F) (i : Index F) (env : Env) (req : LookupRequest) (id : GoString) :
    Option (WarmReplica F) :=
  (i.stats.lookup (req.statsKeyOf id)).bind fun s =>
    if cfg.ranker.tenantHotMaxAge ≤ Time.sub (env.now 1) s.statsReported then none
    else if lt s.stats.hitRate cfg.ranker.tenantHotMinHitRate then none
    else some ⟨s.stats.hitRate, s.stats.pressure, s.statsReported⟩

theorem warmReplicas_eq : i.warmReplicas cfg env req known =
    (env.order 1).ids.collect (fun id _ => i.warmOf cfg env req id) known ∅ := by
  refine congrFun (congrFun (congrArg List.foldl ?_) _) _
  funext warm x
  show _ = (i.warmOf cfg env req x.1).elim warm (warm.insert x.1)
  unfold warmOf
  cases i.stats.lookup (req.statsKeyOf x.1)
  case none => rfl
  case some s =>
    dsimp only [Option.bind_some]
    split
    case isTrue => rfl
    case isFalse => split <;> rfl

theorem warmReplicas_withOrder :
    i.warmReplicas cfg (env.withOrder o) req known = i.warmReplicas cfg env req known := by
  rw [warmReplicas_eq, warmReplicas_eq]
  refine Finmap.ext_lookup fun id => ?_
  exact RangeOrder.lookup_collect.trans <| Eq.symm <|
    RangeOrder.lookup_collect (f := fun id _ => i.warmOf cfg env req id)

theorem tenantHotCandidates_eq : i.tenantHotCandidates cfg env req =
    if cfg.ranker.tenantHotMaxAge ≤ 0 ∨ req.hashScheme = [] ∨
        (i.replicasByModel.inner req.modelKey).len = 0 ∨
        (i.warmReplicas cfg env req (i.replicasByModel.inner req.modelKey)).len = 0 ∨
        (i.servingByScope.inner req.scopeKey).len = 0 then []
    else sortSlice ReplicaScore.before <|
      ((env.order 2).ids.range
        (i.warmReplicas cfg env req (i.replicasByModel.inner req.modelKey))).filterMap fun x =>
          if (i.servingByScope.inner req.scopeKey).count x.1 = 0 then none
          else some (hotScore cfg env req x.1 x.2) := by
  simp only [tenantHotCandidates, ite_or]

theorem tenantHotCandidates_order :
    SameRanking (i.tenantHotCandidates cfg env req) (i.tenantHotCandidates cfg (env.withOrder o) req) := by
  rw [tenantHotCandidates_eq, tenantHotCandidates_eq, warmReplicas_withOrder]
  split
  case isTrue => exact .refl
  case isFalse =>
    refine .sort (RangeOrder.range_perm.filterMap _) (nodup_filterMap_range fun y s hs => ?_)
    split at hs <;> cases hs
    rfl

end TenantHot

section Route

-- The requests that are turned away before anything is looked up.
def dropped (req : LookupRequest) : Bool :=
  req.tenant = [] ∨ req.model = [] ∨ req.hashScheme = [] ∨
    (req.chainBearing ∧ req.blockHashes.length ≠ req.blockTokenCounts.length)

def fallback (cfg : Config F) (i : Index F) (env : Env) (req : LookupRequest) : List (ReplicaScore F) :=
  if req.chainBearing then [] else i.tenantHotCandidates cfg env req

theorem lookupRoute_eq : i.lookupRoute cfg env req =
    if dropped req then ⟨[], .none, ∅⟩
    else if 0 < (i.lookupWithHits cfg env req).1.length then
      ⟨(i.lookupWithHits cfg env req).1, .prefixMatch, (i.lookupWithHits cfg env req).2⟩
    else if 0 < (i.fallback cfg env req).length then ⟨i.fallback cfg env req, .tenantHot, ∅⟩
    else ⟨[], i.classifyMiss req, ∅⟩ := by
  unfold lookupRoute dropped fallback
  cases hc : req.chainBearing
  case false => simp
  case true =>
    by_cases hl : req.blockHashes.length = req.blockTokenCounts.length <;> simp [hl]

theorem lookupRoute_order (cfg : Config F) (i : Index F) (req : LookupRequest)
    (h : env.SameInputs env') :
    SameRanking (i.lookupRoute cfg env req).scores (i.lookupRoute cfg env' req).scores ∧
      (i.lookupRoute cfg env req).hitsByReplica = (i.lookupRoute cfg env' req).hitsByReplica ∧
      (i.lookupRoute cfg env req).strategy = (i.lookupRoute cfg env' req).strategy := by
  rw [h.eq]
  have ⟨hs, hh⟩ := i.lookupWithHits_order cfg env req env'.order
  have hf : SameRanking (i.fallback cfg env req) (i.fallback cfg (env.withOrder env'.order) req) := by
    unfold fallback
    split
    case isTrue => exact .refl
    case isFalse => exact tenantHotCandidates_order
  rw [lookupRoute_eq, lookupRoute_eq, ← hs.perm.length_eq, ← hf.perm.length_eq]
  split
  case isTrue => exact ⟨.refl, rfl, rfl⟩
  case isFalse =>
    split
    case isTrue => exact ⟨hs, hh, rfl⟩
    case isFalse =>
      split
      case isTrue => exact ⟨hf, rfl, rfl⟩
      case isFalse => exact ⟨.refl, rfl, rfl⟩

end Route

end Index

end InferenceCache
