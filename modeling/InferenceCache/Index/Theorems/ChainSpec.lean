import InferenceCache.Index.Theorems.Results
import InferenceCache.Lib.Binary
import InferenceCache.Lib.Single

-- What a lookup of a chain says about each replica by itself.
namespace InferenceCache.Index

open FloatFormat GoFloat IeeeFormat

variable {F : Type} [GoFloat F] {cfg : Config F} {i : Index F} {env : Env} {req : LookupRequest}
variable {id : GoString} {st : Running}

section Runs

-- The blocks from the first one on that are held, with what is held of them.
def leading {E : Type} (held : Bytes → Option E) : List (Bytes × Int32) → List (Int32 × E)
  | []             => []
  | (h, n) :: rest =>
    match held h with
    | some e => (n, e) :: leading held rest
    | none   => []

def runTokens (run : List (Int32 × ReplicaEntry)) : Int32 :=
  run.foldl (fun n x => n + x.1) 0

def runTier : List (Int32 × ReplicaEntry) → Option CacheTier
  | []       => none
  | x :: run => some (run.foldl (fun t y => worstTier t y.2.tier) x.2.tier)

def oldestSeen (run : List (Int32 × ReplicaEntry)) : Option Time :=
  (run.map (·.2.lastSeen)).min?

theorem leading_congr {E : Type} {held held' : Bytes → Option E} {l : List (Bytes × Int32)}
    (h : ∀ b ∈ l, held b.1 = held' b.1) : leading held l = leading held' l := by
  induction l
  case nil => rfl
  case cons b l hi =>
    have ⟨hb, h⟩ := List.forall_mem_cons.mp h
    simp only [leading, hb, hi h]

-- A run goes on as long as the blocks are held.
theorem runFrom_eq {l : List (Bytes × Int32)} : ∃ keys, i.runFrom cfg env req id st l =
    let run := leading (i.freshEntry cfg env req id) l
    ⟨run.foldl (fun n x => n + x.1) st.matchedTokens,
      run.foldl (fun t x => min t x.2.lastSeen) st.oldestLastSeen,
      run.foldl (fun t x => worstTier t x.2.tier) st.runTier, keys⟩ := by
  induction l generalizing st
  case nil => exact ⟨st.entries, rfl⟩
  case cons b l hi =>
    cases hf : i.freshEntry cfg env req id b.1
    case none => exact ⟨st.entries, by simp [runFrom, leading, hf]⟩
    case some e =>
      obtain ⟨keys, hk⟩ := @hi (extendRun env req (req.keyOf b.1) b.2 st e)
      have hm : min st.oldestLastSeen e.lastSeen =
          if e.lastSeen < st.oldestLastSeen then e.lastSeen else st.oldestLastSeen := by
        split
        case isTrue h => exact min_eq_right h.le
        case isFalse h => exact min_eq_left (not_lt.mp h)
      refine ⟨keys, ?_⟩
      simp only [runFrom, leading, hf, List.foldl_cons, hm]
      exact hk

theorem runOf_spec {l : List (Bytes × Int32)} (h : i.runOf cfg env req id l = some st) :
    leading (i.freshEntry cfg env req id) l ≠ [] ∧
    st.matchedTokens = runTokens (leading (i.freshEntry cfg env req id) l) ∧
    runTier (leading (i.freshEntry cfg env req id) l) = some st.runTier ∧
    oldestSeen (leading (i.freshEntry cfg env req id) l) = some st.oldestLastSeen := by
  cases l
  case nil => cases h
  case cons b l =>
    rw [runOf] at h
    obtain ⟨e, hf, h⟩ := Option.map_eq_some_iff.mp h
    obtain ⟨keys, hr⟩ := @runFrom_eq _ _ cfg i env req id (startRun env req (req.keyOf b.1) b.2 e) l
    have ho (x : Int32 × ReplicaEntry) (run) : oldestSeen (x :: run) =
        some (run.foldl (fun t x => min t x.2.lastSeen) x.2.lastSeen) := by
      rw [oldestSeen, List.map_cons, List.min?_cons', List.foldl_map]
    rw [← h, hr]
    simp [leading, hf, runTokens, runTier, ho, startRun]

theorem runOf_isSome {l : List (Bytes × Int32)} :
    (i.runOf cfg env req id l).isSome ↔ leading (i.freshEntry cfg env req id) l ≠ [] := by
  cases l
  case nil => simp [runOf, leading]
  case cons b l => cases hf : i.freshEntry cfg env req id b.1 <;> simp [runOf, leading, hf]

theorem not_stale_runFrom {l : List (Bytes × Int32)} (hs : stale cfg env req st.oldestLastSeen = false) :
    stale cfg env req (i.runFrom cfg env req id st l).oldestLastSeen = false :=
  (runFrom_spec hs).right

theorem not_stale_runOf {l : List (Bytes × Int32)} (h : i.runOf cfg env req id l = some st) :
    stale cfg env req st.oldestLastSeen = false := by
  cases l
  case nil => cases h
  case cons b l =>
    rw [runOf] at h
    obtain ⟨e, hf, h⟩ := Option.map_eq_some_iff.mp h
    rw [← h]
    exact not_stale_runFrom (not_stale_of_freshEntry hf)

end Runs

section Age

def young (cfg : Config F) (env : Env) (req : LookupRequest) (e : ReplicaEntry) : Bool :=
  Time.sub (env.now 0) e.lastSeen < cfg.ttlFor env req.tenant

-- The blocks that a replica holds in entries that are young enough.
def youngRun (cfg : Config F) (i : Index F) (env : Env) (req : LookupRequest) (id : GoString) :
    List (Int32 × ReplicaEntry) :=
  leading (fun h => (i.entryAt (req.keyOf h) id).filter (young cfg env req)) (blocks req)

-- The freshness of what is young is not rounded down to zero.
def Resolved (cfg : Config F) (env : Env) (tenant : GoString) : Prop :=
  ∀ t : Time, Time.sub (env.now 0) t < cfg.ttlFor env tenant →
    le (freshnessAt (env.now 0) t (cfg.ttlFor env tenant) : F) 0 = false

theorem stale_of_not_young {e : ReplicaEntry} (hz : le (0 : F) 0 = true) (h : young cfg env req e = false) :
    stale cfg env req e.lastSeen = true := by
  have hp : 0 < cfg.ttlFor env req.tenant := Config.ttlFor_pos
  have ha : cfg.ttlFor env req.tenant ≤ Time.sub (env.now 0) e.lastSeen := by simpa [young] using h
  rw [stale, freshnessAt, if_neg (not_le.mpr hp), if_neg (not_le.mpr (hp.trans_le ha)), if_pos ha]
  exact hz

theorem freshEntry_eq {h : Bytes} (hz : le (0 : F) 0 = true) (hr : Resolved cfg env req.tenant) :
    i.freshEntry cfg env req id h = (i.entryAt (req.keyOf h) id).filter (young cfg env req) := by
  rw [freshEntry]
  cases i.entryAt (req.keyOf h) id
  case none => rfl
  case some e =>
    cases hy : young cfg env req e
    case true =>
      have hs : stale cfg env req e.lastSeen = false := hr e.lastSeen (by simpa [young] using hy)
      simp [Option.filter, hs, hy]
    case false => simp [Option.filter, stale_of_not_young hz hy, hy]

theorem youngRun_eq (hz : le (0 : F) 0 = true) (hr : Resolved cfg env req.tenant) :
    leading (i.freshEntry cfg env req id) (blocks req) = i.youngRun cfg env req id :=
  leading_congr fun _ _ => freshEntry_eq hz hr

theorem resolved_of_ttl [Ieee754 F] (ht : cfg.ttlFor env tenant ≤ 2 ^ 53) : Resolved cfg env tenant := by
  intro t hy
  have hp : ∃ a : ℚ, val (freshnessAt (env.now 0) t (cfg.ttlFor env tenant) : F) = some ↑a ∧ 0 < a := by
    simp only [freshnessAt]
    split_ifs with h₀ h₁ h₂
    case pos => exact absurd Config.ttlFor_pos (not_lt.mpr h₀)
    case pos => exact ⟨1, val_one, one_pos⟩
    case pos => exact absurd hy (not_lt.mpr h₂)
    case neg => exact Ieee754.pos_one_sub_div (not_le.mp h₁) hy ht
  obtain ⟨a, hv, h₀⟩ := hp
  rw [Bool.eq_false_iff, ne_eq, le_iff hv val_zero, not_le, WithBotTop.coe_lt_coe]
  exact h₀

end Age

-- Each replica is returned for the longest run of blocks that it holds from the first one on.
structure PerReplica (cfg : Config F) (i : Index F) (env : Env) (req : LookupRequest) : Prop where
  returned : ∀ id, id ∈ (i.lookupChain cfg env req).1.map ReplicaScore.replicaID ↔
    i.youngRun cfg env req id ≠ [] ∧ 0 < runTokens (i.youngRun cfg env req id)
  scored   : ∀ s ∈ (i.lookupChain cfg env req).1,
    s.matchedTokens = runTokens (i.youngRun cfg env req s.replicaID) ∧
    some s.tier = runTier (i.youngRun cfg env req s.replicaID) ∧
    ∃ t, oldestSeen (i.youngRun cfg env req s.replicaID) = some t ∧
      s.estimatedCacheHitProb = freshnessAt (env.now 0) t (cfg.ttlFor env req.tenant)
  once     : ((i.lookupChain cfg env req).1.map ReplicaScore.replicaID).Nodup

theorem perReplica_of_resolved (hz : le (0 : F) 0 = true) (hr : Resolved cfg env req.tenant) :
    PerReplica cfg i env req := by
  refine ⟨fun id => ?_, fun s hs => ?_, nodup_lookupChain⟩
  case refine_1 =>
    rw [mem_ids_iff_found]
    simp only [mem_found_lookupChain]
    rw [← youngRun_eq hz hr, ← runOf_isSome]
    constructor
    case mp =>
      rintro ⟨_, st, hst, ⟨hp, _⟩, _⟩
      exact ⟨by simp [hst], (runOf_spec hst).right.left ▸ hp⟩
    case mpr =>
      rintro ⟨hsome, hp⟩
      have ⟨st, hst⟩ := Option.isSome_iff_exists.mp hsome
      rw [← (runOf_spec hst).right.left] at hp
      exact ⟨_, st, hst, ⟨hp, not_stale_runOf hst⟩, rfl⟩
  case refine_2 =>
    have hm : (s.replicaID, s.matchedTokens, s.tier, s.estimatedCacheHitProb) ∈
        (i.lookupChain cfg env req).1.map
          fun s => (s.replicaID, s.matchedTokens, s.tier, s.estimatedCacheHitProb) :=
      List.mem_map_of_mem hs
    have ⟨st, hst, _, he⟩ := (mem_map_lookupChain (fun _ => rfl) fun _ _ => rfl).mp hm
    have ⟨_, ht, hw, ho⟩ := runOf_spec hst
    rw [youngRun_eq hz hr] at ht hw ho
    simp only [Prod.mk.injEq] at he
    exact ⟨he.left.trans ht, he.right.left ▸ hw.symm, _, ho, he.right.right⟩

section

def blockRequest (tenant : GoString) : LookupRequest where
  model := utf8 "m"
  tenant := tenant
  hashScheme := utf8 "s"
  adapter := []
  prefixHash := []
  blockHashes := [[1]]
  blockTokenCounts := [16]
  ttftBudgetMs := 0

def holding (F : Type) (tenant : GoString) (t : Time) : Index F where
  __       := (new : Index F)
  prefixes := (∅ : GoMap PrefixKey (GoMap GoString ReplicaEntry)).insert ((blockRequest tenant).keyOf [1])
    ((∅ : GoMap GoString ReplicaEntry).insert (utf8 "r") ⟨16, t, .t1, 0⟩)

omit [GoFloat F] in
theorem entryAt_holding : (holding F tenant t).entryAt ((blockRequest tenant).keyOf [1]) (utf8 "r") =
    some ⟨16, t, .t1, 0⟩ := by
  simp [entryAt, holding, Finmap.lookup₂]

-- What is rounded to zero is not returned.
theorem not_perReplica (hy : Time.sub (env.now 0) t < cfg.ttlFor env tenant)
    (hs : le (freshnessAt (env.now 0) t (cfg.ttlFor env tenant) : F) 0 = true) :
    ¬PerReplica cfg (holding F tenant t) env (blockRequest tenant) := by
  intro h
  have hrun : (holding F tenant t).youngRun cfg env (blockRequest tenant) (utf8 "r") =
      [(16, ⟨16, t, .t1, 0⟩)] := by
    have hb : blocks (blockRequest tenant) = [([1], 16)] := rfl
    have hyoung : young cfg env (blockRequest tenant) ⟨16, t, .t1, 0⟩ = true := decide_eq_true hy
    simp [youngRun, hb, leading, entryAt_holding, Option.filter, hyoung]
  have hm := (h.returned (utf8 "r")).mpr (hrun ▸ ⟨nofun, (by decide : (0 : Int32) < 0 + 16)⟩)
  rw [mem_ids_iff_found] at hm
  have ⟨_, hm⟩ := hm
  have ⟨st, hst, _, _⟩ := mem_found_lookupChain.mp hm
  have hf : (holding F tenant t).freshEntry cfg env (blockRequest tenant) (utf8 "r") [1] = none := by
    have hstale : stale cfg env (blockRequest tenant) t = true := hs
    simp [freshEntry, entryAt_holding, Option.filter, hstale]
  have hb : blocks (blockRequest tenant) = [([1], 16)] := rfl
  simp [hb, runOf, hf] at hst

end

-- About 104 days are short enough for every format to tell what is young.
theorem lookupChain_meets_spec [Ieee754 F] (cfg : Config F) (i : Index F) (env : Env) (req : LookupRequest)
    (ht : cfg.ttlFor env req.tenant ≤ 2 ^ 53) : PerReplica cfg i env req :=
  perReplica_of_resolved ((le_iff val_zero val_zero).mpr le_rfl) (resolved_of_ttl ht)

-- Entries are kept for an hour.
def hourly : Config Binary.Single :=
  .new (3600 * 10 ^ 9) 100 .default []

def reportBlock (replicaID : GoString) (hash : Bytes) : Call Binary.Single × Env :=
  (.ingest <| .single (utf8 "t") replicaID hash 1, .still 9)

-- One replica has two blocks and another has one, and nobody has the third.
theorem lookupChain_meets_spec_hourly :
    let i := run hourly [reportBlock (utf8 "a") [1], reportBlock (utf8 "a") [2], reportBlock (utf8 "b") [1]]
    let req := { blockRequest (utf8 "t") with blockHashes := [[1], [2], [3]], blockTokenCounts := [16, 16, 16] }
    runTokens (i.youngRun hourly (.still 9) req (utf8 "a")) = 32 ∧
      runTokens (i.youngRun hourly (.still 9) req (utf8 "b")) = 16 ∧ PerReplica hourly i (.still 9) req :=
  ⟨by decide +kernel, by decide +kernel, lookupChain_meets_spec _ _ _ _ (by decide +kernel)⟩

theorem lookupChain_spec (cfg : Config F) (env : Env) (tenant : GoString) (hz : le (0 : F) 0 = true) :
    (∀ (i : Index F) (req : LookupRequest), req.tenant = tenant → PerReplica cfg i env req) ↔
      Resolved cfg env tenant := by
  constructor
  case mp =>
    intro h t hy
    by_contra hs
    exact not_perReplica hy (by simpa using hs) (h (holding F tenant t) (blockRequest tenant) rfl)
  case mpr =>
    intro hr i req ht
    exact perReplica_of_resolved hz (ht ▸ hr)

section

-- Entries are kept for a year.
def yearly : Config Single :=
  .new (8760 * 3600 * 10 ^ 9) 100 .default []

theorem lookupChain_spec_hourly :
    (∀ (i : Index Binary.Single) (req : LookupRequest), req.tenant = utf8 "t" →
        PerReplica hourly i (.still (10 ^ 18)) req) ∧
      ¬∀ (i : Index Single) (req : LookupRequest), req.tenant = utf8 "t" →
        PerReplica yearly i (.still (10 ^ 18 + 8760 * 3600 * 10 ^ 9 - 1)) req := by
  refine ⟨(lookupChain_spec hourly _ _ (by decide +kernel)).mpr (resolved_of_ttl (by decide +kernel)), fun h => ?_⟩
  exact absurd ((lookupChain_spec yearly _ _ (by decide +kernel)).mp h (10 ^ 18)) (by decide +kernel)

-- One nanosecond before the year is over, the share that is left of it is rounded to zero.
theorem young_entry_is_ignored :
    let i := holding Single (utf8 "t") (10 ^ 18)
    let env := Env.still (10 ^ 18 + 8760 * 3600 * 10 ^ 9 - 1)
    i.youngRun yearly env (blockRequest (utf8 "t")) (utf8 "r") ≠ [] ∧
      0 < runTokens (i.youngRun yearly env (blockRequest (utf8 "t")) (utf8 "r")) ∧
      (i.lookupChain yearly env (blockRequest (utf8 "t"))).1.length = 0 := by
  decide +kernel

end

end InferenceCache.Index
