import InferenceCache.Index.Theorems.Matching

namespace InferenceCache.Index

variable {F : Type} [GoFloat F] {cfg : Config F} {i : Index F} {env : Env} {req : LookupRequest}
variable {id : GoString} {l : List (Bytes × Int32)} {n : Int32} {st : Running}

theorem lookup_of_chain (hs : req.hashScheme ≠ []) (hp : 0 < req.blockHashes.length)
    (hl : req.blockHashes.length = req.blockTokenCounts.length) :
    i.lookup cfg env req = (i.lookupChain cfg env req).1 := by
  have hc : req.chainBearing = true := by simp [LookupRequest.chainBearing, hp]
  rw [lookup, lookupWithHits, if_neg hs, if_pos hc, if_neg (not_not.mpr hl)]

theorem lookup_of_no_chain (hs : req.hashScheme ≠ []) (hb : req.blockHashes = [])
    (hc : req.blockTokenCounts = []) : i.lookup cfg env req = (i.lookupExact cfg env req).1 := by
  have hn : ¬req.chainBearing = true := by simp [LookupRequest.chainBearing, hb, hc]
  rw [lookup, lookupWithHits, if_neg hs, if_neg hn]

def holdsBlock (cfg : Config F) (i : Index F) (env : Env) (req : LookupRequest) (id : GoString)
    (b : Bytes × Int32) : Bool :=
  (i.freshEntry cfg env req id b.1).isSome

-- The blocks a replica holds without a gap, from the first one on.
def heldBlocks (cfg : Config F) (i : Index F) (env : Env) (req : LookupRequest) (id : GoString) :
    List (Bytes × Int32) :=
  (blocks req).takeWhile (i.holdsBlock cfg env req id)

def tokensFrom (n : Int32) (l : List (Bytes × Int32)) : Int32 :=
  l.foldl (fun n b => n + b.2) n

theorem not_stale_of_freshEntry {h : Bytes} {e : ReplicaEntry}
    (hf : i.freshEntry cfg env req id h = some e) : stale cfg env req e.lastSeen = false := by
  simpa using (Option.filter_eq_some_iff.mp hf).2

theorem not_stale_extendRun {key : PrefixKey} {e : ReplicaEntry}
    (hs : stale cfg env req st.oldestLastSeen = false) (he : stale cfg env req e.lastSeen = false) :
    stale cfg env req (extendRun env req key n st e).oldestLastSeen = false := by
  dsimp only [extendRun]
  split
  case isTrue => exact he
  case isFalse => exact hs

-- A run extends over the blocks that are held, and it is as fresh as the oldest of them.
theorem runFrom_spec (hs : stale cfg env req st.oldestLastSeen = false) :
    (i.runFrom cfg env req id st l).matchedTokens =
      tokensFrom st.matchedTokens (l.takeWhile (i.holdsBlock cfg env req id)) ∧
    stale cfg env req (i.runFrom cfg env req id st l).oldestLastSeen = false := by
  induction l generalizing st
  case nil => exact ⟨rfl, hs⟩
  case cons b l hi =>
    cases hf : i.freshEntry cfg env req id b.1
    case none =>
      have hb : i.holdsBlock cfg env req id b = false := by rw [holdsBlock, hf]; rfl
      simp only [runFrom, hf, List.takeWhile_cons, hb]
      exact ⟨rfl, hs⟩
    case some e =>
      have hb : i.holdsBlock cfg env req id b = true := by rw [holdsBlock, hf]; rfl
      simp only [runFrom, hf, List.takeWhile_cons, hb]
      exact hi (not_stale_extendRun hs (not_stale_of_freshEntry hf))

theorem runOf_eq_none (h : l.takeWhile (i.holdsBlock cfg env req id) = []) :
    i.runOf cfg env req id l = none := by
  cases l
  case nil => rfl
  case cons b l =>
    cases hf : i.freshEntry cfg env req id b.1
    case none => rw [runOf, hf, Option.map_none]
    case some e =>
      have hb : i.holdsBlock cfg env req id b = true := by rw [holdsBlock, hf]; rfl
      rw [List.takeWhile_cons_of_pos hb] at h
      cases h

theorem runOf_eq_some (h : l.takeWhile (i.holdsBlock cfg env req id) ≠ []) :
    ∃ st, i.runOf cfg env req id l = some st ∧
      st.matchedTokens = tokensFrom 0 (l.takeWhile (i.holdsBlock cfg env req id)) ∧
      stale cfg env req st.oldestLastSeen = false := by
  cases l
  case nil => exact absurd rfl h
  case cons b l =>
    cases hf : i.freshEntry cfg env req id b.1
    case none =>
      have hb : i.holdsBlock cfg env req id b = false := by rw [holdsBlock, hf]; rfl
      simp [hb] at h
    case some e =>
      have hb : i.holdsBlock cfg env req id b = true := by rw [holdsBlock, hf]; rfl
      have hs : stale cfg env req (startRun env req (req.keyOf b.1) b.2 e).oldestLastSeen = false :=
        not_stale_of_freshEntry hf
      have ⟨hm, ho⟩ := @runFrom_spec _ _ _ i _ _ id l _ hs
      refine ⟨_, by rw [runOf, hf, Option.map_some], ?_, ho⟩
      rw [hm, List.takeWhile_cons_of_pos hb, tokensFrom, tokensFrom, List.foldl_cons, Int32.zero_add]
      rfl

-- A chain lookup finds a replica with the tokens of the blocks that it holds without a gap.
theorem matched_lookupChain_iff :
    (∃ s ∈ (i.lookupChain cfg env req).1, s.replicaID = id ∧ s.matchedTokens = n) ↔
      i.heldBlocks cfg env req id ≠ [] ∧ n = tokensFrom 0 (i.heldBlocks cfg env req id) ∧ 0 < n := by
  have hx : (∃ s ∈ (i.lookupChain cfg env req).1, s.replicaID = id ∧ s.matchedTokens = n) ↔
      ∃ t, (id, n, t) ∈ (i.lookupChain cfg env req).1.map ReplicaScore.found := by
    simp only [List.mem_map, ReplicaScore.found, Prod.mk.injEq]
    constructor
    case mp =>
      rintro ⟨s, hs, hi, hn⟩
      exact ⟨s.tier, s, hs, hi, hn, rfl⟩
    case mpr =>
      rintro ⟨_, s, hs, hi, hn, _⟩
      exact ⟨s, hs, hi, hn⟩
  simp only [hx, mem_found_lookupChain, Prod.mk.injEq]
  constructor
  case mp =>
    rintro ⟨t, st, hr, ⟨hp, hs⟩, hn, ht⟩
    by_cases hh : i.heldBlocks cfg env req id = []
    case pos => cases hr.symm.trans (runOf_eq_none hh)
    case neg =>
      obtain ⟨st', hr', hm, _⟩ := runOf_eq_some hh
      cases hr.symm.trans hr'
      exact ⟨hh, hn.trans hm, hn ▸ hp⟩
  case mpr =>
    rintro ⟨hh, hn, hp⟩
    obtain ⟨st, hr, hm, hs⟩ := runOf_eq_some hh
    exact ⟨st.runTier, st, hr, ⟨hm ▸ hn ▸ hp, hs⟩, hn.trans hm.symm, rfl⟩

end InferenceCache.Index
