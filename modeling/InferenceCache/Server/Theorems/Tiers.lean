import InferenceCache.Index.Theorems.ChainSpec
import InferenceCache.Server.Theorems.Served

namespace InferenceCache

variable {F : Type}

section Worst

variable {t t' : CacheTier} {l : List CacheTier}

theorem worstTier_of_pos (h : 0 < t) (h' : 0 < t') : worstTier t t' = if t' < t then t else t' := by
  have hn : ¬(t = CacheTier.unspecified ∨ t' = CacheTier.unspecified) := by
    rintro (he | he)
    case inl => exact absurd (he ▸ h) (by decide)
    case inr => exact absurd (he ▸ h') (by decide)
  rw [worstTier, if_neg hn]

-- Among tiers that are all known to be some tier, the worst one is the coldest.
theorem foldl_worstTier (h : 0 < t) (hl : ∀ x ∈ l, 0 < x) :
    l.foldl worstTier t ∈ t :: l ∧ ∀ x ∈ t :: l, x ≤ l.foldl worstTier t := by
  induction l generalizing t
  case nil => exact ⟨.head _, fun x hx => List.mem_singleton.mp hx ▸ Int32.le_refl _⟩
  case cons y l hi =>
    have ⟨hy, hl⟩ := List.forall_mem_cons.mp hl
    rw [List.foldl_cons, worstTier_of_pos h hy]
    split
    case isTrue hlt =>
      have ⟨hm, hb⟩ := hi h hl
      simp only [List.forall_mem_cons] at hb ⊢
      refine ⟨?_, hb.1, Int32.le_trans (Int32.le_of_lt hlt) hb.1, hb.2⟩
      rw [List.mem_cons, List.mem_cons]
      exact (List.mem_cons.mp hm).imp_right .inr
    case isFalse hge =>
      have ⟨hm, hb⟩ := hi hy hl
      refine ⟨.tail _ hm, ?_⟩
      simp only [List.forall_mem_cons] at hb ⊢
      exact ⟨Int32.le_trans (Int32.not_lt.mp hge) hb.1, hb⟩

end Worst

namespace Server

section Stored

def storedTier (t : Int32) : CacheTier :=
  normalizeIngestTier (cacheTierFromProto t)

theorem storedTier_cases (t : Int32) :
    (t = 0 ∨ t = 1) ∧ storedTier t = CacheTier.t1 ∨ t = 2 ∧ storedTier t = CacheTier.t2 ∨
    t = 3 ∧ storedTier t = CacheTier.t3 ∨ (t ≠ 0 ∧ t ≠ 1 ∧ t ≠ 2 ∧ t ≠ 3) ∧ CacheTier.t3 < storedTier t := by
  by_cases h₀ : t = 0
  case pos => exact .inl ⟨.inl h₀, by rw [h₀]; decide⟩
  by_cases h₁ : t = 1
  case pos => exact .inl ⟨.inr h₁, by rw [h₁]; decide⟩
  by_cases h₂ : t = 2
  case pos => exact .inr (.inl ⟨h₂, by rw [h₂]; decide⟩)
  by_cases h₃ : t = 3
  case pos => exact .inr (.inr (.inl ⟨h₃, by rw [h₃]; decide⟩))
  refine .inr (.inr (.inr ⟨⟨h₀, h₁, h₂, h₃⟩, ?_⟩))
  rw [storedTier, cacheTierFromProto, if_neg h₀, if_neg h₁, if_neg h₂, if_neg h₃]
  split
  case isTrue => decide
  case isFalse hn =>
    have hu : t ≠ CacheTier.unspecified := h₀
    rw [normalizeIngestTier, if_neg hu]
    rw [← Int32.toInt_inj] at h₀ h₁ h₂ h₃
    rw [Int32.lt_iff_toInt_lt] at hn ⊢
    have e₀ : (0 : Int32).toInt = 0 := rfl
    have e₁ : (1 : Int32).toInt = 1 := rfl
    have e₂ : (2 : Int32).toInt = 2 := rfl
    have e₃ : (3 : Int32).toInt = 3 := rfl
    have e₃' : CacheTier.t3.toInt = 3 := rfl
    omega

theorem storedTier_pos {t : Int32} : 0 < storedTier t := by
  rcases storedTier_cases t with ⟨_, h⟩ | ⟨_, h⟩ | ⟨_, h⟩ | ⟨_, h⟩
  case inr.inr.inr => exact Int32.lt_trans (by decide) h
  all_goals rw [h]; decide

-- What a tier in a response tells of the reports that the matched entries go back to.
structure Honest (last : PrefixKey → Option Int32) (run : List PrefixKey) (tier : Int32) : Prop where
  t1      : tier = Wire.CacheTier.t1 → ∀ key ∈ run, ∃ t ∈ last key, t = 0 ∨ t = 1
  t2      : tier = Wire.CacheTier.t2 →
              (∀ key ∈ run, ∃ t ∈ last key, t = 0 ∨ t = 1 ∨ t = 2) ∧ ∃ key ∈ run, last key = some 2
  t3      : tier = Wire.CacheTier.t3 →
              (∀ key ∈ run, ∃ t ∈ last key, t = 0 ∨ t = 1 ∨ t = 2 ∨ t = 3) ∧ ∃ key ∈ run, last key = some 3
  unknown : (∃ key ∈ run, ∃ t ∈ last key, t ≠ 0 ∧ t ≠ 1 ∧ t ≠ 2 ∧ t ≠ 3) →
              tier = Wire.CacheTier.unspecified

-- The tier of a run is the coldest of its entries.
structure Coldest (last : PrefixKey → Option Int32) (run : List PrefixKey) (w : CacheTier) : Prop where
  attained : ∃ key ∈ run, ∃ t ∈ last key, w = storedTier t
  bound    : ∀ key ∈ run, ∃ t ∈ last key, storedTier t ≤ w

-- The known tiers have the same numbers on both sides.
theorem cacheTierToProto_eq {w : CacheTier} {t : Int32} (h : cacheTierToProto w = t)
    (ht : t ≠ Wire.CacheTier.unspecified) : w = t := by
  unfold cacheTierToProto at h
  split at h
  case isTrue hw => exact hw.trans h
  case isFalse =>
    split at h
    case isTrue hw => exact hw.trans h
    case isFalse =>
      split at h
      case isTrue hw => exact hw.trans h
      case isFalse => exact absurd h.symm ht

theorem cacheTierToProto_of_cold {w : CacheTier} (h : CacheTier.t3 < w) :
    cacheTierToProto w = Wire.CacheTier.unspecified := by
  have hn (t : CacheTier) (ht : t ≤ CacheTier.t3) : w ≠ t := fun he =>
    Int32.lt_irrefl (Int32.lt_of_lt_of_le (he ▸ h) ht)
  rw [cacheTierToProto, if_neg (hn _ (by decide)), if_neg (hn _ (by decide)), if_neg (hn _ (by decide))]

theorem reported_of_stored_le {t w : Int32} (h : storedTier t ≤ w) :
    (w = 1 → t = 0 ∨ t = 1) ∧ (w = 2 → t = 0 ∨ t = 1 ∨ t = 2) ∧ (w = 3 → t = 0 ∨ t = 1 ∨ t = 2 ∨ t = 3) := by
  rcases storedTier_cases t with ⟨ht, hs⟩ | ⟨ht, hs⟩ | ⟨ht, hs⟩ | ⟨_, hs⟩
  case inl => exact ⟨fun _ => ht, fun _ => ht.imp_right .inl, fun _ => ht.imp_right .inl⟩
  case inr.inl =>
    refine ⟨fun hw => absurd (hs ▸ hw ▸ h) (by decide), fun _ => .inr (.inr ht), fun _ => .inr (.inr (.inl ht))⟩
  case inr.inr.inl =>
    exact ⟨fun hw => absurd (hs ▸ hw ▸ h) (by decide), fun hw => absurd (hs ▸ hw ▸ h) (by decide),
      fun _ => .inr (.inr (.inr ht))⟩
  case inr.inr.inr =>
    have hw : CacheTier.t3 < w := Int32.lt_of_lt_of_le hs h
    exact ⟨fun he => absurd (he ▸ hw) (by decide), fun he => absurd (he ▸ hw) (by decide),
      fun he => absurd (he ▸ hw) (by decide)⟩

theorem reported_of_stored_eq {t : Int32} :
    (storedTier t = 2 → t = 2) ∧ (storedTier t = 3 → t = 3) := by
  rcases storedTier_cases t with ⟨_, hs⟩ | ⟨ht, hs⟩ | ⟨ht, hs⟩ | ⟨_, hs⟩
  case inl =>
    exact ⟨fun he => absurd (hs.symm.trans he) (by decide), fun he => absurd (hs.symm.trans he) (by decide)⟩
  case inr.inl => exact ⟨fun _ => ht, fun he => absurd (hs.symm.trans he) (by decide)⟩
  case inr.inr.inl => exact ⟨fun he => absurd (hs.symm.trans he) (by decide), fun _ => ht⟩
  case inr.inr.inr => exact ⟨fun he => absurd (he ▸ hs) (by decide), fun he => absurd (he ▸ hs) (by decide)⟩

theorem Coldest.honest {last : PrefixKey → Option Int32} {run : List PrefixKey} {w : CacheTier}
    (h : Coldest last run w) : Honest last run (cacheTierToProto w) := by
  have ⟨key, hk, t, ht, hw⟩ := h.attained
  refine ⟨fun he => ?_, fun he => ⟨?_, key, hk, ?_⟩, fun he => ⟨?_, key, hk, ?_⟩, ?_⟩
  case refine_1 =>
    have hw := cacheTierToProto_eq he (by decide)
    exact fun key hk => (h.bound key hk).imp fun t ⟨ht, hle⟩ => ⟨ht, (reported_of_stored_le hle).1 hw⟩
  case refine_2 =>
    have hw := cacheTierToProto_eq he (by decide)
    exact fun key hk => (h.bound key hk).imp fun t ⟨ht, hle⟩ => ⟨ht, (reported_of_stored_le hle).2.1 hw⟩
  case refine_3 =>
    have h₂ : storedTier t = 2 := hw.symm.trans (cacheTierToProto_eq he (by decide))
    exact reported_of_stored_eq.1 h₂ ▸ ht
  case refine_4 =>
    have hw := cacheTierToProto_eq he (by decide)
    exact fun key hk => (h.bound key hk).imp fun t ⟨ht, hle⟩ => ⟨ht, (reported_of_stored_le hle).2.2 hw⟩
  case refine_5 =>
    have h₃ : storedTier t = 3 := hw.symm.trans (cacheTierToProto_eq he (by decide))
    exact reported_of_stored_eq.2 h₃ ▸ ht
  case refine_6 =>
    rintro ⟨key, hk, t, ht, hn⟩
    have ⟨t', ht', hle⟩ := h.bound key hk
    cases ht.symm.trans ht'
    apply cacheTierToProto_of_cold
    rcases storedTier_cases t with ⟨hc, _⟩ | ⟨hc, _⟩ | ⟨hc, _⟩ | ⟨_, hs⟩
    case inl => exact absurd hc (not_or.mpr ⟨hn.1, hn.2.1⟩)
    case inr.inl => exact absurd hc hn.2.2.1
    case inr.inr.inl => exact absurd hc hn.2.2.2
    case inr.inr.inr => exact Int32.lt_of_lt_of_le hs hle

end Stored

section Runs

inductive Op (F : Type)
  | rpc (call : Wire.Rpc F)
  | evictExpired
  | creditHit (key : PrefixKey) (replicaID : GoString)

def Op.step [GoFloat F] (cfg : Config F) (i : Index F) (x : Op F × Env) : Index F :=
  match x.1 with
  | .rpc call => serve cfg i x.2 call
  | .evictExpired => i.evictExpired cfg x.2
  | .creditHit key replicaID => i.creditHit key replicaID

-- Whether an entry of an update names a key, by one of its blocks or by its single hash.
def names (u : Wire.CacheStateUpdate F) (key : PrefixKey) (p : Wire.PrefixEntry) : Bool :=
  ((updateFromProto u).upsertsOf (prefixRefFromProto p)).any (·.key = key)

-- The tier in the last entry of an update that names a key. An update without a scheme names none.
def reportedTier (u : Wire.CacheStateUpdate F) (key : PrefixKey) : Option Int32 :=
  if u.hashScheme = [] then none
  else u.prefixes.reverse.findSome? fun p => if names u key p then some p.tier else none

abbrev Reported := PrefixKey → GoString → Option Int32

def Op.note (last : Reported) (x : Op F × Env) : Reported :=
  match x.1 with
  | .rpc (.reportCacheState u) => fun key r =>
    if u.tenantID ≠ probeTenantID ∧ r = u.replicaID then (reportedTier u key).or (last key r) else last key r
  | .rpc (.publishEvent _) | .evictExpired | .creditHit .. => last

-- The tier that each replica has last reported for a key.
def lastReported (ops : List (Op F × Env)) : Reported :=
  ops.foldl Op.note fun _ _ => none

def runOps [GoFloat F] (cfg : Config F) (ops : List (Op F × Env)) : Index F :=
  ops.foldl (Op.step cfg) .new

theorem tier_of_mem_chainUpserts {keyOf : Bytes → PrefixKey} {tier : CacheTier} {n : Int32}
    {l : List (Bytes × Int32)} {x : Upsert} (h : x ∈ chainUpserts keyOf tier n l) : x.tier = tier := by
  induction l generalizing n
  case nil => cases h
  case cons b l hi =>
    cases List.mem_cons.mp h
    case inl h => exact h ▸ rfl
    case inr h => exact hi h

theorem tier_of_mem_upsertsOf {u : Update F} {p : PrefixRef} {x : Upsert} (h : x ∈ u.upsertsOf p) :
    x.tier = normalizeIngestTier p.tier := by
  unfold Update.upsertsOf at h
  split at h
  case isFalse => exact congrArg Upsert.tier (List.mem_singleton.mp h)
  case isTrue =>
    split at h
    case isTrue => cases h
    case isFalse =>
      cases List.mem_append.mp h
      case inl h => exact tier_of_mem_chainUpserts h
      case inr h =>
        split at h
        case isTrue => exact congrArg Upsert.tier (List.mem_singleton.mp h)
        case isFalse => cases h

-- All that one entry of an update leads to is stored with one tier.
theorem tier_of_find {u : Wire.CacheStateUpdate F} {key : PrefixKey} {p : Wire.PrefixEntry} :
    (((updateFromProto u).upsertsOf (prefixRefFromProto p)).reverse.find? (·.key = key)).map Upsert.tier =
      (if names u key p then some p.tier else none).map storedTier := by
  cases hf : ((updateFromProto u).upsertsOf (prefixRefFromProto p)).reverse.find? (·.key = key)
  case none =>
    have hn : names u key p = false := by
      rw [names, List.any_eq_false]
      exact fun x hx => List.find?_eq_none.mp hf x (List.mem_reverse.mpr hx)
    simp [hn]
  case some x =>
    have hx := List.mem_reverse.mp (List.mem_of_find?_eq_some hf)
    have hk := List.find?_some (p := fun x : Upsert => decide (x.key = key)) hf
    have hn : names u key p = true := List.any_eq_true.mpr ⟨x, hx, hk⟩
    rw [hn, if_pos rfl, Option.map_some, Option.map_some, tier_of_mem_upsertsOf hx]
    rfl

theorem tier_of_latest {u : Wire.CacheStateUpdate F} {key : PrefixKey} :
    ((updateFromProto u).latest key).map Upsert.tier = (reportedTier u key).map storedTier := by
  rw [Update.latest, Update.upserts, reportedTier]
  by_cases hs : u.hashScheme = []
  case pos =>
    have hs' : (updateFromProto u).hashScheme = [] := hs
    simp [hs, hs']
  case neg =>
    have hs' : (updateFromProto u).hashScheme ≠ [] := hs
    rw [if_neg hs, if_neg hs', List.reverse_flatMap, List.find?_flatMap, List.map_findSome?, List.map_findSome?]
    show ((u.prefixes.map prefixRefFromProto).reverse.findSome? _) = _
    rw [← List.map_reverse, List.findSome?_map]
    congr 1
    funext p
    exact tier_of_find

-- Every entry that is held is stored with the tier that it was last reported with.
def Noted (last : Reported) (i : Index F) : Prop :=
  ∀ key r e, i.entryAt key r = some e → ∃ t ∈ last key r, e.tier = storedTier t

namespace Noted

variable {last : Reported} {i j : Index F} {cfg : Config F} {env : Env}

theorem of_filter {p : PrefixKey × GoString → ReplicaEntry → Bool} (h : Noted last i)
    (hj : j.entries = i.entries.filter p) : Noted last j := by
  intro key r e he
  rw [Index.entryAt_of_filter hj, Option.filter_eq_some_iff] at he
  exact h key r e he.1

theorem creditHit {key : PrefixKey} {r : GoString} (h : Noted last i) : Noted last (i.creditHit key r) := by
  intro key' r' e he
  rw [Index.entryAt_creditHit] at he
  split at he
  case isFalse => exact h key' r' e he
  case isTrue hx =>
    have ⟨e', he', ht⟩ := Option.map_eq_some_iff.mp he
    rw [hx.1, hx.2, ← ht]
    exact h key r e' he'

variable [GoFloat F]

theorem ingest {u : Wire.CacheStateUpdate F} (h : Noted last i) :
    Noted (fun key r => if r = u.replicaID then (reportedTier u key).or (last key r) else last key r)
      (i.ingest cfg env (updateFromProto u)) := by
  have hr : Noted (fun key r => if r = u.replicaID then (reportedTier u key).or (last key r) else last key r)
      (i.recordUpdate cfg env (updateFromProto u)) := by
    intro key r e he
    have hl : ((updateFromProto u).latest key).map Upsert.tier = (reportedTier u key).map storedTier :=
      tier_of_latest
    rw [Index.entryAt_recordUpdate] at he
    split at he
    case isFalse hne =>
      have hne : ¬r = u.replicaID := hne
      simpa only [if_neg hne] using h key r e he
    case isTrue heq =>
      have heq : r = u.replicaID := heq
      simp only [if_pos heq]
      cases hx : (updateFromProto u).latest key
      case none =>
        rw [hx, Option.map_none, eq_comm, Option.map_eq_none_iff] at hl
        rw [hx, Option.map_none, Option.none_or] at he
        rw [hl, Option.none_or]
        exact h key r e he
      case some x =>
        rw [hx, Option.map_some, eq_comm, Option.map_eq_some_iff] at hl
        have ⟨t, ht, hst⟩ := hl
        rw [hx, Option.map_some, Option.some_or] at he
        refine ⟨t, by rw [ht]; rfl, ?_⟩
        rw [← Option.some.inj he]
        exact hst.symm
  have ⟨l, hl⟩ := Index.enforceQuota_eq cfg (i.recordUpdate cfg env (updateFromProto u)) env u.tenantID
  have ⟨l', hl'⟩ := Index.enforceCapLocked_eq cfg (i.beforeCap cfg env (updateFromProto u)) env
  have hq : i.beforeCap cfg env (updateFromProto u) =
      (i.recordUpdate cfg env (updateFromProto u)).removeAll cfg l := hl
  rw [Index.ingest, hl', hq]
  exact (hr.of_filter Index.entries_removeAll).of_filter Index.entries_removeAll

theorem step {x : Op F × Env} (h : Noted last i) : Noted (Op.note last x) (Op.step cfg i x) := by
  obtain ⟨op, env⟩ := x
  cases op
  case evictExpired => exact h.of_filter Index.entries_evictExpired
  case creditHit => exact h.creditHit
  case rpc call =>
    cases call
    case publishEvent ev =>
      simp only [Op.step, Op.note, serve, publishEvent]
      split
      case isTrue => exact h
      case isFalse =>
        split
        case h_1 => exact h.of_filter Index.entries_applyEvent
        case h_2 => exact h
    case reportCacheState u =>
      simp only [Op.step, Op.note, serve, reportCacheState]
      split
      case isTrue hp => simpa only [hp, ne_eq, not_true, false_and, if_false] using h
      case isFalse hp => simpa only [hp, ne_eq, not_false_eq_true, true_and] using h.ingest

end Noted

theorem noted_runOps [GoFloat F] {cfg : Config F} (ops : List (Op F × Env)) :
    Noted (lastReported ops) (runOps cfg ops) := by
  induction ops using List.reverseRecOn
  case nil =>
    intro key r e he
    cases he
  case append_singleton ops x hi =>
    rw [lastReported, runOps, List.foldl_append, List.foldl_append]
    exact hi.step

end Runs

section Matched

variable [GoFloat F] {cfg : Config F} {i : Index F} {env : Env} {req : LookupRequest} {id : GoString}
variable {last : Reported}

-- The entries a replica's match is made of: those of its run through the chain, or the single one.
def matchedRun (cfg : Config F) (i : Index F) (env : Env) (req : LookupRequest) (id : GoString) :
    List PrefixKey :=
  if req.chainBearing then (i.heldBlocks cfg env req id).map (req.keyOf ·.1) else [req.keyOf req.prefixHash]

section Blocks

variable {l : List (Bytes × Int32)}

theorem exists_leading_of_mem {b : Bytes × Int32} (hb : b ∈ l.takeWhile (i.holdsBlock cfg env req id)) :
    ∃ x ∈ Index.leading (i.freshEntry cfg env req id) l, i.freshEntry cfg env req id b.1 = some x.2 := by
  induction l
  case nil => cases hb
  case cons c l hi =>
    cases hf : i.freshEntry cfg env req id c.1
    case none =>
      have hc : i.holdsBlock cfg env req id c = false := by rw [Index.holdsBlock, hf]; rfl
      rw [List.takeWhile_cons_of_neg (by simp [hc])] at hb
      cases hb
    case some e =>
      have hc : i.holdsBlock cfg env req id c = true := by rw [Index.holdsBlock, hf]; rfl
      rw [List.takeWhile_cons_of_pos hc] at hb
      simp only [Index.leading, hf]
      cases hb
      case head => exact ⟨(b.2, e), .head _, hf⟩
      case tail hb =>
        obtain ⟨x, hx, he⟩ := hi hb
        exact ⟨x, .tail _ hx, he⟩

theorem exists_block_of_mem {x : Int32 × ReplicaEntry}
    (hx : x ∈ Index.leading (i.freshEntry cfg env req id) l) :
    ∃ b ∈ l.takeWhile (i.holdsBlock cfg env req id), i.freshEntry cfg env req id b.1 = some x.2 := by
  induction l
  case nil => cases hx
  case cons c l hi =>
    cases hf : i.freshEntry cfg env req id c.1
    case none =>
      simp only [Index.leading, hf] at hx
      cases hx
    case some e =>
      have hc : i.holdsBlock cfg env req id c = true := by rw [Index.holdsBlock, hf]; rfl
      rw [List.takeWhile_cons_of_pos hc]
      simp only [Index.leading, hf] at hx
      cases hx
      case head => exact ⟨c, .head _, hf⟩
      case tail hx =>
        obtain ⟨b, hb, he⟩ := hi hx
        exact ⟨b, .tail _ hb, he⟩

end Blocks

theorem Noted.of_freshEntry (h : Noted last i) {hash : Bytes} {e : ReplicaEntry}
    (hf : i.freshEntry cfg env req id hash = some e) :
    ∃ t ∈ last (req.keyOf hash) id, e.tier = storedTier t := by
  rw [Index.freshEntry, Option.filter_eq_some_iff] at hf
  exact h _ _ _ hf.1

-- The tier of a run is folded from those of its entries, none of which is unknown.
theorem runTier_spec {run : List (Int32 × ReplicaEntry)} {w : CacheTier} (hp : ∀ x ∈ run, 0 < x.2.tier)
    (hw : Index.runTier run = some w) : (∃ x ∈ run, w = x.2.tier) ∧ ∀ x ∈ run, x.2.tier ≤ w := by
  cases run
  case nil => cases hw
  case cons x run =>
    have ⟨hx, hr⟩ := List.forall_mem_cons.mp hp
    have hr : ∀ t ∈ run.map (·.2.tier), 0 < t := by
      intro t ht
      have ⟨y, hy, he⟩ := List.mem_map.mp ht
      exact he ▸ hr y hy
    have he : w = (run.map (·.2.tier)).foldl worstTier x.2.tier := by
      rw [List.foldl_map]
      exact (Option.some.inj hw).symm
    have ⟨hm, hb⟩ := foldl_worstTier hx hr
    rw [← he, ← List.map_cons (f := fun x : Int32 × ReplicaEntry => x.2.tier)] at hm hb
    have ⟨y, hy, hyw⟩ := List.mem_map.mp hm
    exact ⟨⟨y, hy, hyw.symm⟩, fun y hy => hb _ (List.mem_map_of_mem hy)⟩

theorem coldest_of_chain (h : Noted last i) {n : Int32} {w : CacheTier}
    (hm : (id, n, w) ∈ (i.lookupChain cfg env req).1.map ReplicaScore.found) :
    Coldest (last · id) ((i.heldBlocks cfg env req id).map (req.keyOf ·.1)) w := by
  have ⟨st, hr, _, he⟩ := Index.mem_found_lookupChain.mp hm
  have hw : w = st.runTier := congrArg Prod.snd he
  have ⟨_, _, ht, _⟩ := Index.runOf_spec hr
  rw [← hw] at ht
  have hp : ∀ x ∈ Index.leading (i.freshEntry cfg env req id) (Index.blocks req), 0 < x.2.tier := by
    intro x hx
    have ⟨_, _, hf⟩ := exists_block_of_mem hx
    have ⟨_, _, hs⟩ := h.of_freshEntry hf
    exact hs ▸ storedTier_pos
  have ⟨⟨x, hx, hxw⟩, hb⟩ := runTier_spec hp ht
  refine ⟨?attained, ?bound⟩
  case attained =>
    have ⟨b, hb, hf⟩ := exists_block_of_mem hx
    have ⟨t, ht, hs⟩ := h.of_freshEntry hf
    exact ⟨_, List.mem_map_of_mem hb, t, ht, hxw.trans hs⟩
  case bound =>
    intro key hk
    have ⟨b, hbm, he⟩ := List.mem_map.mp hk
    have ⟨y, hy, hf⟩ := exists_leading_of_mem hbm
    have ⟨t, ht, hs⟩ := h.of_freshEntry hf
    exact ⟨t, he ▸ ht, hs ▸ hb y hy⟩

theorem honest_of_lookup (h : Noted last i) {sc : ReplicaScore F} (hm : sc ∈ i.lookup cfg env req) :
    Honest (last · sc.replicaID) (matchedRun cfg i env req sc.replicaID) (scoreToProto sc).tier := by
  apply Coldest.honest
  unfold Index.lookup Index.lookupWithHits at hm
  unfold matchedRun
  split at hm
  case isTrue => cases hm
  case isFalse =>
    split at hm
    case isTrue hc =>
      rw [if_pos hc]
      split at hm
      case isTrue => cases hm
      case isFalse => exact coldest_of_chain h (List.mem_map_of_mem hm)
    case isFalse hc =>
      rw [if_neg hc]
      have ⟨e, hf, he⟩ := Index.mem_found_lookupExact.mp (List.mem_map_of_mem hm)
      have ht : sc.tier = e.tier := congrArg Prod.snd he
      have ⟨t, hlast, hs⟩ := h.of_freshEntry hf
      refine ⟨⟨_, .head _, t, hlast, ht.trans hs⟩, fun key hk => ?_⟩
      rw [List.mem_singleton.mp hk]
      exact ⟨t, hlast, (ht.trans hs) ▸ Int32.le_refl _⟩

end Matched

-- Whatever has been reported, and in whatever order. The second half is about the answers of the
-- service, whose matches are those of the index that pass its gates.
theorem tiers_are_honest [GoFloat F] (s : Handler F) (ops : List (Op F × Env)) (env : Env) :
    (∀ req, ∀ sc ∈ (runOps s.cfg ops).lookup s.cfg env req,
      Honest (lastReported ops · sc.replicaID) (matchedRun s.cfg (runOps s.cfg ops) env req sc.replicaID)
        (scoreToProto sc).tier) ∧
    ∀ hashSeed sha256 env' tm req,
      let resp := (s.lookupRoute hashSeed sha256 (runOps s.cfg ops) env env' tm req).1
      resp.reasonCode = .prefixMatch → ∀ sc ∈ resp.replicaScores,
        Honest (lastReported ops · sc.replicaID) (matchedRun s.cfg (runOps s.cfg ops) env
          (s.indexRequest hashSeed tm req) sc.replicaID) sc.tier := by
  refine ⟨fun req sc hm => honest_of_lookup (noted_runOps ops) hm, ?_⟩
  intro hashSeed sha256 env' tm req resp hr sc hm
  have ⟨_, hp, he⟩ := Handler.of_prefixMatch hr
  have hs := Index.scores_of_prefixMatch hp.strategy
  rw [show resp = _ from he] at hm
  have ⟨row, hrow, hsc⟩ := List.mem_map.mp hm
  have hrow := List.mem_of_mem_filter hrow
  rw [hs] at hrow
  rw [← hsc]
  exact honest_of_lookup (noted_runOps ops) hrow

section

-- One block that is kept by the engine, and a second one that it has moved to the next tier.
def offloaded : Wire.CacheStateUpdate ℚ :=
  ⟨[0x61], [0x6d], [0x74], [0x73], [], 1, [⟨[1], 16, [], [], 0, []⟩, ⟨[2], 32, [], [], 2, []⟩], none⟩

def offloadedRequest : LookupRequest :=
  ⟨[0x6d], [0x74], [0x73], [], [], [[1], [2]], [16, 16], 0⟩

def roomy : Handler ℚ :=
  .ungated Handler.anyService (.new 0 100 .default []) rfl

theorem tiers_are_honest_offloaded :
    ∃ key, lastReported [(.rpc (.reportCacheState offloaded), .still 9)] key [0x61] = some 2 := by
  have h := (tiers_are_honest roomy [(.rpc (.reportCacheState offloaded), .still 9)]
    (.still Time.unixEpoch)).1 offloadedRequest
  have hr : ((runOps roomy.cfg [(.rpc (.reportCacheState offloaded), .still 9)]).lookup roomy.cfg
      (.still Time.unixEpoch) offloadedRequest).map (fun sc => (sc.replicaID, (scoreToProto sc).tier)) =
        [([0x61], 2)] := by
    decide +kernel
  have ⟨sc, hm, he⟩ := List.mem_map.mp (hr ▸ List.mem_singleton_self _)
  have ⟨hid, ht⟩ := Prod.mk.inj he
  have ⟨_, key, _, hk⟩ := (h sc hm).t2 ht
  exact ⟨key, hid ▸ hk⟩

end

end Server

end InferenceCache
