import InferenceCache.Index.Credit
import InferenceCache.Index.Theorems.Isolation
import InferenceCache.Index.Theorems.LongestPrefix

-- Which entries a lookup may credit, and what crediting them does.
namespace InferenceCache

variable {F : Type}

def ReplicaEntry.used (e : ReplicaEntry) (n : Nat) : ReplicaEntry :=
  { e with accessCount := e.accessCount + n }

theorem ReplicaEntry.used_zero {e : ReplicaEntry} : e.used 0 = e := by
  simp [used]

namespace Index

variable {i : Index F} {key : PrefixKey} {r : GoString} {o : RangeOrder GoString} {hits : Hits}

section Counting

def uses (o : RangeOrder GoString) (hits : Hits) : List (PrefixKey × GoString) :=
  (o.range hits).flatMap fun x => x.2.map (·, x.1)

theorem creditHits_eq_foldl :
    i.creditHits o hits = (uses o hits).foldl (fun i x => i.creditHit x.1 x.2) i := by
  rw [creditHits, uses, List.foldl_flatMap]
  simp only [List.foldl_map]

theorem entryAt_foldl_creditHit {l : List (PrefixKey × GoString)} :
    (l.foldl (fun i x => i.creditHit x.1 x.2) i).entryAt key r =
      (i.entryAt key r).map (·.used (l.count (key, r))) := by
  induction l generalizing i
  case nil => simp [ReplicaEntry.used_zero]
  case cons x l hi =>
    rw [List.foldl_cons, hi, entryAt_creditHit]
    by_cases hx : key = x.1 ∧ r = x.2
    case neg =>
      have hc : (x :: l).count (key, r) = l.count (key, r) :=
        List.count_cons_of_ne fun h => hx <| by simp [h]
      rw [if_neg hx, hc]
    case pos =>
      have hc : (x :: l).count (key, r) = l.count (key, r) + 1 := by
        rw [hx.1, hx.2]
        exact List.count_cons_self
      rw [if_pos hx, hc, ← hx.1, ← hx.2, Option.map_map]
      congr 1
      funext e
      simp [ReplicaEntry.used]
      ring

theorem count_flatMap_of_notMem {l : List (GoString × List PrefixKey)} (h : r ∉ l.map Prod.fst) :
    (l.flatMap fun x => x.2.map (·, x.1)).count (key, r) = 0 := by
  apply List.count_eq_zero_of_not_mem
  intro hm
  have ⟨x, hx, hk⟩ := List.mem_flatMap.mp hm
  have ⟨_, _, he⟩ := List.mem_map.mp hk
  exact h <| List.mem_map.mpr ⟨x, hx, congrArg Prod.snd he⟩

theorem count_flatMap_of_mem {l : List (GoString × List PrefixKey)} {keys : List PrefixKey}
    (hn : (l.map Prod.fst).Nodup) (h : (r, keys) ∈ l) :
    (l.flatMap fun x => x.2.map (·, x.1)).count (key, r) = keys.count key := by
  induction l
  case nil => cases h
  case cons x l hi =>
    rw [List.map_cons, List.nodup_cons] at hn
    rw [List.flatMap_cons, List.count_append]
    cases List.mem_cons.mp h
    case inl h =>
      subst h
      rw [count_flatMap_of_notMem hn.1, Nat.add_zero]
      exact List.count_map_of_injective _ _ (Prod.mk_left_injective r) _
    case inr h =>
      have hr : r ≠ x.1 := fun he => hn.1 <| he ▸ List.mem_map_of_mem h
      have hz : (x.2.map (·, x.1)).count (key, r) = 0 := by
        apply List.count_eq_zero_of_not_mem
        simp [Ne.symm hr]
      rw [hz, Nat.zero_add, hi hn.2 h]

-- A replica comes up once, with all its hits.
theorem count_uses : (uses o hits).count (key, r) = ((hits.lookup r).getD []).count key := by
  cases h : hits.lookup r
  case some keys => exact count_flatMap_of_mem RangeOrder.range_keys_nodup (RangeOrder.mem_range.mpr h)
  case none =>
    apply count_flatMap_of_notMem
    rw [RangeOrder.range_keys]
    intro hm
    have hk := Finmap.mem_keys_iff.mp <| (o.mem_list _ _).mp hm
    rw [h] at hk
    cases hk

theorem entryAt_creditHits : (i.creditHits o hits).entryAt key r =
    (i.entryAt key r).map (·.used (((hits.lookup r).getD []).count key)) := by
  rw [creditHits_eq_foldl, entryAt_foldl_creditHit, count_uses]

theorem creditHits_empty : i.creditHits o ∅ = i := by
  have h : o.range (∅ : Hits) = [] := by
    apply List.eq_nil_iff_forall_not_mem.mpr
    intro x hx
    cases RangeOrder.mem_range.mp hx
  rw [creditHits, h]
  rfl

end Counting

section Hits

variable [GoFloat F] {cfg : Config F} {env : Env} {req : LookupRequest} {l : List (Bytes × Int32)}
variable {id : GoString} {st : Running}

theorem lookup_hits_lookupExact : (i.lookupExact cfg env req).2.lookup id =
    (i.freshEntry cfg env req id req.prefixHash).bind fun e =>
      if lfu env req ∧ 0 < e.tokenCount then some [req.keyOf req.prefixHash] else none := by
  simp only [lookupExact, exactHits_eq RangeOrder.range_keys_nodup fun _ _ => Finmap.lookup_empty _]
  let f (_ : GoString) (e : ReplicaEntry) : Option (List PrefixKey) :=
    if stale cfg env req e.lastSeen then none
    else if lfu env req ∧ 0 < e.tokenCount then some [req.keyOf req.prefixHash] else none
  refine (RangeOrder.lookup_collect (f := f)).trans ?_
  rw [← lookup_inner_filter, Finmap.lookup_empty, Option.or_none]
  cases (i.prefixes.inner (req.keyOf req.prefixHash)).lookup id
  case none => rfl
  case some e => cases hs : stale cfg env req e.lastSeen <;> simp [f, hs, Option.filter]

theorem lookup_hits_lookupChain : (i.lookupChain cfg env req).2.lookup id =
    (i.runOf cfg env req id (blocks req)).bind (runHits cfg env req id) := by
  rw [lookupChain_eq]
  refine RangeOrder.lookup_collect.trans ?_
  rw [chainRuns, lookup_foldl_insert, lookup_chainWalk, Finmap.lookup_empty, Option.or_none]

def keysOfBlocks (env : Env) (req : LookupRequest) (l : List (Bytes × Int32)) : List PrefixKey :=
  if lfu env req then l.map (req.keyOf ·.1) else []

theorem entries_runFrom : (i.runFrom cfg env req id st l).entries =
    st.entries ++ keysOfBlocks env req (l.takeWhile (i.holdsBlock cfg env req id)) := by
  induction l generalizing st
  case nil => simp [runFrom, keysOfBlocks]
  case cons b l hi =>
    cases hf : i.freshEntry cfg env req id b.1
    case none => simp [runFrom, hf, holdsBlock, keysOfBlocks]
    case some e =>
      have hb : i.holdsBlock cfg env req id b = true := by rw [holdsBlock, hf]; rfl
      simp only [runFrom, hf, hi, List.takeWhile_cons, hb, extendRun, keysOfBlocks]
      split <;> simp

theorem entries_runOf (h : i.runOf cfg env req id l = some st) :
    st.entries = keysOfBlocks env req (l.takeWhile (i.holdsBlock cfg env req id)) := by
  cases l
  case nil => cases h
  case cons b l =>
    cases hf : i.freshEntry cfg env req id b.1
    case none => simp [runOf, hf] at h
    case some e =>
      have hb : i.holdsBlock cfg env req id b = true := by rw [holdsBlock, hf]; rfl
      rw [runOf, hf, Option.map_some] at h
      cases h
      rw [entries_runFrom, startRun, List.takeWhile_cons, hb]
      simp only [keysOfBlocks]
      split <;> simp

-- The entries of a replica that count as used when a match of it is delivered.
def matchedKeys (cfg : Config F) (i : Index F) (env : Env) (req : LookupRequest) (id : GoString) :
    List PrefixKey :=
  if req.chainBearing then
    if 0 < tokensFrom 0 (i.heldBlocks cfg env req id) then
      (i.heldBlocks cfg env req id).map (req.keyOf ·.1)
    else []
  else
    match i.freshEntry cfg env req id req.prefixHash with
    | some e => if 0 < e.tokenCount then [req.keyOf req.prefixHash] else []
    | none   => []

theorem hits_lookupChain : ((i.lookupChain cfg env req).2.lookup id).getD [] =
    if lfu env req ∧ 0 < tokensFrom 0 (i.heldBlocks cfg env req id) then
      (i.heldBlocks cfg env req id).map (req.keyOf ·.1)
    else [] := by
  rw [lookup_hits_lookupChain]
  by_cases hh : i.heldBlocks cfg env req id = []
  case pos => simp [runOf_eq_none hh, hh]
  case neg =>
    have ⟨st, hr, hm, hs⟩ := runOf_eq_some hh
    have he := entries_runOf hr
    rw [hr, Option.bind_some, runHits, hm, hs, he, keysOfBlocks, ← heldBlocks]
    by_cases hp : 0 < tokensFrom 0 (i.heldBlocks cfg env req id)
    case neg => simp [hp, Int32.not_lt.mp hp]
    case pos =>
      have hl := List.length_pos_iff.mpr hh
      by_cases hf : lfu env req = true <;> simp [hp, hf, hl, Int32.not_le.mpr hp]

theorem hits_lookupWithHits (hd : dropped req = false) :
    ((i.lookupWithHits cfg env req).2.lookup id).getD [] =
      if lfu env req then i.matchedKeys cfg env req id else [] := by
  simp only [dropped, decide_eq_false_iff_not, not_or, not_and, not_not] at hd
  rw [lookupWithHits, if_neg hd.2.2.1, matchedKeys]
  cases hc : req.chainBearing
  case true =>
    rw [if_pos rfl, if_neg (not_not.mpr <| hd.2.2.2 hc), if_pos rfl, hits_lookupChain]
    by_cases hl : lfu env req = true <;> simp [hl]
  case false =>
    simp only [Bool.false_eq_true, if_false, lookup_hits_lookupExact]
    cases i.freshEntry cfg env req id req.prefixHash
    case none => simp
    case some e =>
      by_cases hl : lfu env req = true <;> by_cases hp : 0 < e.tokenCount
      all_goals simp [hl, hp]

end Hits

end Index

end InferenceCache
