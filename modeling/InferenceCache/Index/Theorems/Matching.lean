import InferenceCache.Index.Lookup
import InferenceCache.Index.Theorems.Entries

namespace InferenceCache

variable {F : Type}

-- What a score says about its replica apart from its rank.
def ReplicaScore.found (s : ReplicaScore F) : GoString × Int32 × CacheTier :=
  (s.replicaID, s.matchedTokens, s.tier)

section Ranking

variable [GoFloat F] {scores : List (ReplicaScore F)} {n : Int}

section Kept

-- What does not depend on the score is kept.
variable {B : Type} {g : ReplicaScore F → B} (hg : ∀ f s, g (s.scale f) = g s)

include hg

theorem map_scale {f : F} : (scores.map (·.scale f)).map g = scores.map g := by
  simp [Function.comp_def, hg]

theorem map_scaleGroups {k : Nat} {gs : List (List (ReplicaScore F))} :
    (scaleGroups n k gs).map g = gs.flatten.map g := by
  induction gs generalizing k
  case nil => rfl
  case cons g' gs hi =>
    rw [scaleGroups, List.map_append, hi, List.flatten_cons, List.map_append]
    congr 1
    split
    case isTrue => exact map_scale hg
    case isFalse => rfl

theorem map_applyChainDistinguishingPower :
    ((applyChainDistinguishingPower scores n).map g).Perm (scores.map g) := by
  unfold applyChainDistinguishingPower
  split
  case isTrue => exact .refl _
  case isFalse =>
    rw [map_scaleGroups hg, List.flatten_splitBy]
    exact sortSlice_perm.map _

end Kept

theorem scale_found {f : F} : (scores.map (·.scale f)).map ReplicaScore.found =
    scores.map ReplicaScore.found :=
  map_scale fun _ _ => rfl

theorem applyChainDistinguishingPower_found :
    ((applyChainDistinguishingPower scores n).map ReplicaScore.found).Perm
      (scores.map ReplicaScore.found) :=
  map_applyChainDistinguishingPower fun _ _ => rfl

theorem sortScores_found : ((sortScoresDescByScoreThenID scores).map ReplicaScore.found).Perm
    (scores.map ReplicaScore.found) :=
  sortSlice_perm.map _

end Ranking

namespace Index

variable [GoFloat F] {cfg : Config F} {i : Index F} {env : Env} {req : LookupRequest}
variable {id : GoString} {key : PrefixKey} {n : Int32} {o : RangeOrder GoString}
variable {holders : GoMap GoString ReplicaEntry} {current finalized : GoMap GoString Running}

-- What a replica holds under a hash of the request, unless it is too old to count.
def freshEntry (cfg : Config F) (i : Index F) (env : Env) (req : LookupRequest) (id : GoString)
    (h : Bytes) : Option ReplicaEntry :=
  (i.entryAt (req.keyOf h) id).filter fun e => !stale cfg env req e.lastSeen

def runFrom (cfg : Config F) (i : Index F) (env : Env) (req : LookupRequest) (id : GoString)
    (st : Running) : List (Bytes × Int32) → Running
  | []             => st
  | (h, n) :: rest =>
    match i.freshEntry cfg env req id h with
    | some e => runFrom cfg i env req id (extendRun env req (req.keyOf h) n st e) rest
    | none   => st

def startRun (env : Env) (req : LookupRequest) (key : PrefixKey) (n : Int32) (e : ReplicaEntry) :
    Running :=
  ⟨n, e.lastSeen, e.tier, if lfu env req then [key] else []⟩

def runOf (cfg : Config F) (i : Index F) (env : Env) (req : LookupRequest) (id : GoString) :
    List (Bytes × Int32) → Option Running
  | []             => none
  | (h, n) :: rest => (i.freshEntry cfg env req id h).map fun e =>
    i.runFrom cfg env req id (startRun env req (req.keyOf h) n e) rest

section Chain

theorem lookup_chainStart : (chainStart cfg env req o key n holders).lookup id =
    ((holders.lookup id).filter fun e => !stale cfg env req e.lastSeen).map
      (startRun env req key n) := by
  have hc : chainStart cfg env req o key n holders = o.collect (fun _ e =>
      if stale cfg env req e.lastSeen then none else some (startRun env req key n e)) holders ∅ := by
    unfold chainStart RangeOrder.collect
    congr 1
    funext m x
    cases hs : stale cfg env req x.2.lastSeen <;> simp [hs, startRun]
  rw [hc, RangeOrder.lookup_collect]
  cases holders.lookup id
  case none => rfl
  case some e => cases hs : stale cfg env req e.lastSeen <;> simp [hs, Option.filter]

theorem foldl_prod {A B X : Type} {f : A → X → A} {g : B → X → B} {l : List X} {a : A} {b : B} :
    l.foldl (fun s x => (f s.1 x, g s.2 x)) (a, b) = (l.foldl f a, l.foldl g b) := by
  induction l generalizing a b
  case nil => rfl
  case cons x l hi => exact hi

-- The two results of a block, as loops of their own.
theorem chainNext_eq : chainNext cfg env req o key n holders current finalized =
    (o.collect (fun id st => ((holders.lookup id).filter
        fun e => !stale cfg env req e.lastSeen).map (extendRun env req key n st)) current ∅,
      o.collect (fun id st => if ((holders.lookup id).filter
        fun e => !stale cfg env req e.lastSeen).isSome then none else some st) current finalized) := by
  rw [RangeOrder.collect, RangeOrder.collect, ← foldl_prod, chainNext]
  congr 1
  funext s x
  cases holders.lookup x.1
  case none => rfl
  case some e => cases hs : stale cfg env req e.lastSeen <;> simp [hs, Option.filter]

theorem lookup_inner_filter {h : Bytes} :
    ((i.prefixes.inner (req.keyOf h)).lookup id).filter (fun e => !stale cfg env req e.lastSeen) =
      i.freshEntry cfg env req id h := by
  rw [Finmap.lookup_inner]
  rfl

theorem lookup_chainRest {rest : List (Bytes × Int32)} {blockIdx : Nat} :
    ((i.chainRest cfg env req blockIdx rest current finalized).1.lookup id).or
      ((i.chainRest cfg env req blockIdx rest current finalized).2.lookup id) =
    ((current.lookup id).map (i.runFrom cfg env req id · rest)).or (finalized.lookup id) := by
  induction rest generalizing blockIdx current finalized
  case nil => simp [chainRest, runFrom]
  case cons x rest hi =>
    obtain ⟨h, n⟩ := x
    rw [chainRest, chainNext_eq]
    dsimp only
    split
    case isTrue hl =>
      -- No run goes on, so all of them end here and the rest of the chain is not looked at.
      have hn := congrArg (Finmap.lookup id) (Finmap.len_eq_zero_iff.mp hl)
      rw [RangeOrder.lookup_collect] at hn ⊢
      rw [RangeOrder.lookup_collect]
      simp only [lookup_inner_filter, Finmap.lookup_empty, Option.or_none] at hn ⊢
      rw [hn]
      cases hc : current.lookup id <;> rw [hc] at hn
      case none => rfl
      case some st => cases hf : i.freshEntry cfg env req id h <;> simp_all [runFrom]
    case isFalse =>
      rw [hi, RangeOrder.lookup_collect, RangeOrder.lookup_collect]
      simp only [lookup_inner_filter, Finmap.lookup_empty, Option.or_none]
      cases current.lookup id
      case none => rfl
      case some st => cases hf : i.freshEntry cfg env req id h <;> simp [runFrom, hf]

theorem lookup_chainWalk {blocks : List (Bytes × Int32)} :
    ((i.chainWalk cfg env req blocks).1.lookup id).or ((i.chainWalk cfg env req blocks).2.lookup id) =
      i.runOf cfg env req id blocks := by
  cases blocks
  case nil => rfl
  case cons x rest =>
    obtain ⟨h, n⟩ := x
    rw [chainWalk, runOf]
    split
    case isTrue hl =>
      have hn := congrArg (Finmap.lookup id) (Finmap.len_eq_zero_iff.mp hl)
      rw [lookup_chainStart, lookup_inner_filter] at hn ⊢
      cases hf : i.freshEntry cfg env req id h <;> simp_all
    case isFalse =>
      rw [lookup_chainRest, lookup_chainStart, lookup_inner_filter]
      cases i.freshEntry cfg env req id h <;> simp

theorem lookup_foldl_insert {m m' : GoMap GoString Running} :
    ((o.range m).foldl (fun m x => m.insert x.1 x.2) m').lookup id =
      (m.lookup id).or (m'.lookup id) := by
  have hc : (o.range m).foldl (fun m x => m.insert x.1 x.2) m' = o.collect (fun _ st => some st) m m' :=
    rfl
  rw [hc, RangeOrder.lookup_collect]
  cases m.lookup id <;> rfl

end Chain

section Found

variable {x : GoString × Int32 × CacheTier}

omit [GoFloat F] in
theorem mem_map_filterMap {V B : Type} {m : GoMap GoString V} {skip : GoString × V → Prop}
    [DecidablePred skip] {score : GoString × V → ReplicaScore F} {g : ReplicaScore F → GoString × B}
    {x : GoString × B} (hs : ∀ y, (g (score y)).1 = y.1) :
    x ∈ ((o.range m).filterMap fun y => if skip y then none else some (score y)).map g ↔
    ∃ v, m.lookup x.1 = some v ∧ ¬skip (x.1, v) ∧ x.2 = (g (score (x.1, v))).2 := by
  simp only [List.map_filterMap, List.mem_filterMap, RangeOrder.mem_range]
  constructor
  case mp =>
    intro ⟨y, hy, hx⟩
    split at hx
    case isTrue => cases hx
    case isFalse h =>
      obtain rfl : g (score y) = x := Option.some_injective _ hx
      have hy' : ((g (score y)).1, y.2) = y := Prod.ext (hs y) rfl
      exact ⟨y.2, (congrArg (m.lookup ·) (hs y)).trans hy, by rwa [hy'], by rw [hy']⟩
  case mpr =>
    intro ⟨v, hv, hn, hx⟩
    exact ⟨(x.1, v), hv, by rw [if_neg hn, Option.map_some, Prod.ext (hs (x.1, v)) hx.symm]⟩

theorem mem_found_lookupExact : x ∈ (i.lookupExact cfg env req).1.map ReplicaScore.found ↔
    ∃ e, i.freshEntry cfg env req x.1 req.prefixHash = some e ∧ x.2 = (e.tokenCount, e.tier) := by
  have hs : ∀ (scores : List (ReplicaScore F)) (b : Bool) (f : F),
      (if b then scores.map (·.scale f) else scores).map ReplicaScore.found =
        scores.map ReplicaScore.found := by
    intro scores b f
    cases b
    case true => exact scale_found
    case false => rfl
  rw [lookupExact, sortScores_found.mem_iff, hs, mem_map_filterMap fun _ => rfl]
  simp only [← lookup_inner_filter, Option.filter_eq_some_iff, Bool.not_eq_true', Bool.not_eq_true,
    and_assoc, scoreOf, ReplicaScore.found]

def blocks (req : LookupRequest) : List (Bytes × Int32) :=
  req.blockHashes.zip req.blockTokenCounts

-- What a lookup of a chain says of its replicas, apart from the scores.
theorem mem_map_lookupChain {B : Type} {g : ReplicaScore F → GoString × B} {x : GoString × B}
    (hi : ∀ s, (g s).1 = s.replicaID) (hg : ∀ f s, g (s.scale f) = g s) :
    x ∈ (i.lookupChain cfg env req).1.map g ↔
      ∃ st, i.runOf cfg env req x.1 (blocks req) = some st ∧
        (0 < st.matchedTokens ∧ stale cfg env req st.oldestLastSeen = false) ∧
        x.2 = (g (i.scoreOf cfg env req x.1 st.matchedTokens st.oldestLastSeen st.runTier)).2 := by
  rw [lookupChain, sortScoresDescByScoreThenID, (sortSlice_perm.map g).mem_iff,
    (map_applyChainDistinguishingPower hg).mem_iff]
  rw [mem_map_filterMap fun _ => hi _, lookup_foldl_insert, lookup_chainWalk]
  simp only [not_or, Int32.not_le, Bool.not_eq_true, blocks]

theorem mem_found_lookupChain : x ∈ (i.lookupChain cfg env req).1.map ReplicaScore.found ↔
    ∃ st, i.runOf cfg env req x.1 (blocks req) = some st ∧
      (0 < st.matchedTokens ∧ stale cfg env req st.oldestLastSeen = false) ∧
      x.2 = (st.matchedTokens, st.runTier) :=
  mem_map_lookupChain (fun _ => rfl) fun _ _ => rfl

end Found

end Index

end InferenceCache
