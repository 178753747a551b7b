import InferenceCache.Index.Theorems.Quota

namespace InferenceCache

-- What a report says about an entry.
structure Report where
  tokenCount : Int32
  tier       : CacheTier
  lastSeen   : Time
  deriving DecidableEq

def ReplicaEntry.report (e : ReplicaEntry) : Report :=
  ⟨e.tokenCount, e.tier, e.lastSeen⟩

variable {F : Type}

namespace Update

def report (u : Update F) (x : PrefixKey × GoString) : Option Report :=
  if x.2 = u.replicaID then
    (u.latest x.1).map fun p => ⟨p.tokenCount, p.tier, u.timestamp⟩
  else none

def reports (x : PrefixKey × GoString) (u : Update F) : Bool :=
  (u.report x).isSome

end Update

-- The union of all reports, in which the latest report of an entry wins. Nothing is ever evicted
-- from it.
def union (us : List (Update F)) : GoMap (PrefixKey × GoString) Report :=
  us.foldl (fun m u => u.upserts.foldl (fun m p =>
    m.insert (p.key, u.replicaID) ⟨p.tokenCount, p.tier, u.timestamp⟩) m) ∅

def counted (cfg : Config F) (us : List (Update F)) : GoMap (PrefixKey × GoString) Report :=
  (union us).filter fun x _ => !cfg.isReservedTenant x.1.tenant

-- The order by time last seen, then by identity of the entry.
def seenRank (m : GoMap (PrefixKey × GoString) Report) (x : PrefixKey × GoString) :
    Time ×ₗ PrefixKey ×ₗ GoString :=
  toLex (((m.lookup x).map Report.lastSeen).getD 0, toLex x)

-- For every entry, the timestamps of its reports never decrease.
def InOrder (us : List (Update F)) : Prop :=
  ∀ x, ((us.filter (·.reports x)).map Update.timestamp).Pairwise (· ≤ ·)

-- All timestamps are explicit, all tenants use LRU, and no tenant has a quota.
structure Undisturbed (us : List (Update F × Env)) : Prop where
  timestamp : ∀ x ∈ us, x.1.timestamp ≠ 0
  lru       : ∀ x ∈ us, ∀ tenant, x.2.evictionFor tenant = .lru
  noQuota   : ∀ x ∈ us, ∀ tenant, x.2.tenantQuotaFor tenant = none

section Union

variable {cfg : Config F} {us us' : List (Update F)} {u : Update F} {x : PrefixKey × GoString}

theorem lookup_foldl_reports {m : GoMap (PrefixKey × GoString) Report} {l : List Upsert}
    {r : GoString} {ts : Time} :
    (l.foldl (fun m p => m.insert (p.key, r) ⟨p.tokenCount, p.tier, ts⟩) m).lookup x =
    (if x.2 = r then (l.reverse.find? (·.key = x.1)).map fun p => ⟨p.tokenCount, p.tier, ts⟩
      else none).or (m.lookup x) := by
  induction l using List.reverseRecOn
  case nil => simp
  case append_singleton l p hi =>
    rw [List.foldl_concat, List.reverse_concat, List.find?_cons, Finmap.lookup_insert_ite, hi]
    by_cases hr : x.2 = r <;> by_cases hk : x.1 = p.key <;>
      simp [Prod.ext_iff, hr, hk, eq_comm (a := p.key)]

theorem lookup_union_concat :
    (union (us ++ [u])).lookup x = (u.report x).or ((union us).lookup x) := by
  rw [union, List.foldl_concat, ← union]
  exact lookup_foldl_reports

-- An entry's reports all come from one replica.
theorem lookup_union_filter :
    (union (us.filter (·.replicaID = x.2))).lookup x = (union us).lookup x := by
  induction us using List.reverseRecOn
  case nil => rfl
  case append_singleton us u hi =>
    rw [List.filter_append, lookup_union_concat]
    by_cases hr : u.replicaID = x.2
    case pos => simpa [hr, lookup_union_concat] using congrArg (Option.or _) hi
    case neg => simpa [hr, Update.report, Ne.symm hr] using hi

theorem union_congr (h : ∀ r, us.filter (·.replicaID = r) = us'.filter (·.replicaID = r)) :
    union us = union us' :=
  Finmap.ext_lookup fun x => by rw [← lookup_union_filter, h, lookup_union_filter]

theorem filter_reports :
    (us.filter (·.replicaID = x.2)).filter (·.reports x) = us.filter (·.reports x) := by
  rw [List.filter_filter]
  refine List.filter_congr fun u _ => ?_
  by_cases hr : x.2 = u.replicaID <;> simp [hr, Update.reports, Update.report, eq_comm (b := x.2)]

theorem InOrder.congr (ho : InOrder us)
    (h : ∀ r, us.filter (·.replicaID = r) = us'.filter (·.replicaID = r)) : InOrder us' := by
  intro x
  rw [← filter_reports, ← h, filter_reports]
  exact ho x

theorem lookup_union_isSome {e : Report} (h : (union us).lookup x = some e) :
    ∃ u ∈ us, u.report x = some e := by
  induction us using List.reverseRecOn
  case nil => simp [union] at h
  case append_singleton us u hi =>
    rw [lookup_union_concat, Option.or_eq_some_iff] at h
    cases h
    case inl h => exact ⟨u, by simp, h⟩
    case inr h =>
      have ⟨u', hu, he⟩ := hi h.2
      exact ⟨u', by simp [hu], he⟩

theorem Update.lastSeen_report {e : Report} (h : u.report x = some e) : e.lastSeen = u.timestamp := by
  unfold report at h
  split at h
  case isFalse => cases h
  case isTrue =>
    have ⟨_, _, he⟩ := Option.map_eq_some_iff.mp h
    rw [← he]

theorem InOrder.le_timestamp (h : InOrder (us ++ [u])) (hu : u.reports x) {e : Report}
    (he : (union us).lookup x = some e) : e.lastSeen ≤ u.timestamp := by
  have ⟨u', hm, he'⟩ := lookup_union_isSome he
  have hr : u'.reports x := by simp [Update.reports, he']
  have hp := h x
  rw [List.filter_append, List.map_append, List.pairwise_append] at hp
  rw [Update.lastSeen_report he']
  refine hp.2.2 _ (List.mem_map_of_mem ?_) _ ?_
  case refine_1 => simp [hm, hr]
  case refine_2 => simp [hu]

theorem InOrder.init (h : InOrder (us ++ [u])) : InOrder us := by
  intro x
  have hp := h x
  rw [List.filter_append, List.map_append, List.pairwise_append] at hp
  exact hp.1

end Union

namespace Index

-- The index holds the entries of `m` that were seen last, as far as the cap allows.
structure IsTopOf (cfg : Config F) (m : GoMap (PrefixKey × GoString) Report) (i : Index F) : Prop where
  highest : IsHighest (seenRank m) cfg.maxEntries.toNat m.keys (i.free cfg)
  agrees  : ∀ x ∈ i.free cfg, (i.entryAt x.1 x.2).map ReplicaEntry.report = m.lookup x

variable {cfg : Config F} {i j : Index F} {u : Update F} {env : Env} {x : PrefixKey × GoString}
variable {m m' : GoMap (PrefixKey × GoString) Report}

theorem seenRank_eq (h : (i.entryAt x.1 x.2).map ReplicaEntry.report = m.lookup x) :
    seenRank m x = toLex ((i.held x).lastSeen, toLex x) := by
  rw [seenRank, ← h, held]
  cases i.entryAt x.1 x.2 <;> rfl

theorem capRank_eq_of_lru (hl : ∀ tenant, env.evictionFor tenant = .lru)
    (h : (i.entryAt x.1 x.2).map ReplicaEntry.report = m.lookup x) :
    i.capRank env x = toLex (0, seenRank m x) := by
  rw [seenRank_eq h, capRank, effectiveCount, hl]

-- A cap step selects by the same order, if the index agrees with `m` on what counts.
theorem Consistent.isHighest_enforceCapLocked (h : Consistent cfg i) (hm : 0 < cfg.maxEntries)
    (hl : ∀ tenant, env.evictionFor tenant = .lru)
    (ha : ∀ x ∈ i.free cfg, (i.entryAt x.1 x.2).map ReplicaEntry.report = m.lookup x) :
    IsHighest (seenRank m) cfg.maxEntries.toNat (i.free cfg)
      ((i.enforceCapLocked cfg env).1.free cfg) := by
  have hv := (h.enforceCapLocked_spec env hm).1.sdiff
  rw [h.free_enforceCapLocked hm]
  refine hv.of_lt fun x hx y hy => ?_
  rw [capRank_eq_of_lru hl (ha x hx), capRank_eq_of_lru hl (ha y hy), Prod.Lex.toLex_lt_toLex]
  simp

section Step

variable [GoFloat F]

theorem report_recordUpdate (ht : u.timestamp ≠ 0) :
    ((i.recordUpdate cfg env u).entryAt x.1 x.2).map ReplicaEntry.report =
      (u.report x).or ((i.entryAt x.1 x.2).map ReplicaEntry.report) := by
  rw [entryAt_recordUpdate, Update.report, Update.seenAt, if_neg ht]
  split
  case isFalse => rfl
  case isTrue => cases u.latest x.1 <;> rfl

theorem mem_free_recordUpdate : x ∈ (i.recordUpdate cfg env u).free cfg ↔
    x ∈ i.free cfg ∨ (u.reports x ∧ cfg.isReservedTenant x.1.tenant = false) := by
  rw [mem_free, mem_free, mem_pairs, mem_pairs, entryAt_recordUpdate, Update.reports, Update.report]
  split
  case isFalse => simp
  case isTrue => cases u.latest x.1 <;> simp

-- What one report adds to the entries that count.
structure Extends (cfg : Config F) (u : Update F) (m m' : GoMap (PrefixKey × GoString) Report) :
    Prop where
  lookup  : ∀ x, m'.lookup x =
    (if cfg.isReservedTenant x.1.tenant then none else u.report x).or (m.lookup x)
  inOrder : ∀ x e, u.reports x → m.lookup x = some e → e.lastSeen ≤ u.timestamp

omit [GoFloat F] in
theorem Extends.mem_keys (h : Extends cfg u m m') : x ∈ m'.keys ↔
    x ∈ m.keys ∨ (u.reports x ∧ cfg.isReservedTenant x.1.tenant = false) := by
  rw [Finmap.mem_keys_iff, Finmap.mem_keys_iff, h.lookup, Update.reports]
  cases u.report x <;> cases cfg.isReservedTenant x.1.tenant <;> simp

omit [GoFloat F] in
theorem Extends.seenRank_eq (h : Extends cfg u m m')
    (hn : ¬(u.reports x ∧ cfg.isReservedTenant x.1.tenant = false)) :
    seenRank m' x = seenRank m x := by
  have hl : m'.lookup x = m.lookup x := by
    rw [h.lookup]
    cases hr : u.report x <;> simp_all [Update.reports]
  rw [seenRank, seenRank, hl]

omit [GoFloat F] in
theorem Extends.seenRank_le (h : Extends cfg u m m') (hx : x ∈ m.keys) :
    seenRank m x ≤ seenRank m' x := by
  by_cases hr : u.reports x ∧ cfg.isReservedTenant x.1.tenant = false
  case neg => exact (h.seenRank_eq hr).ge
  case pos =>
    have ⟨e, he⟩ := Option.isSome_iff_exists.mp <| Finmap.mem_keys_iff.mp hx
    have ⟨e', he'⟩ := Option.isSome_iff_exists.mp hr.1
    have hl : m'.lookup x = some e' := by simp [h.lookup, hr.2, he']
    rw [seenRank, seenRank, he, hl]
    have hle : e.lastSeen ≤ e'.lastSeen := Update.lastSeen_report he' ▸ h.inOrder x e hr.1 he
    exact Prod.Lex.toLex_mono ⟨hle, le_rfl⟩

theorem IsTopOf.ingest (ht : IsTopOf cfg m i) (h : Consistent cfg i) (hm : 0 < cfg.maxEntries)
    (he : Extends cfg u m m') (hts : u.timestamp ≠ 0)
    (hl : ∀ tenant, env.evictionFor tenant = .lru)
    (hq : ∀ tenant, env.tenantQuotaFor tenant = none) : IsTopOf cfg m' (i.ingest cfg env u) := by
  let j := i.recordUpdate cfg env u
  let k := (j.enforceCapLocked cfg env).1
  have hj : Consistent cfg j := h.recordUpdate
  have hk : i.ingest cfg env u = k := by rw [Index.ingest, beforeCap, enforceQuota_of_none (hq _)]
  have ha : ∀ x ∈ j.free cfg, (j.entryAt x.1 x.2).map ReplicaEntry.report = m'.lookup x := by
    intro x hx
    rw [report_recordUpdate hts, he.lookup, (mem_free.mp hx).2]
    cases hr : u.report x
    case some => rfl
    case none =>
      have hx := (mem_free_recordUpdate.mp hx).resolve_right (by simp [Update.reports, hr])
      simpa using ht.agrees x hx
  -- The members that this report adds or refreshes.
  let d := (j.free cfg).filter (u.reports ·)
  have hd : ∀ x, x ∈ d ↔ u.reports x ∧ cfg.isReservedTenant x.1.tenant = false := by
    intro x
    have hn : x ∈ i.free cfg → cfg.isReservedTenant x.1.tenant = false := fun hx => (mem_free.mp hx).2
    rw [Finset.mem_filter, mem_free_recordUpdate]
    tauto
  have hjd : j.free cfg = i.free cfg ∪ d := by
    ext x
    rw [Finset.mem_union, hd, mem_free_recordUpdate]
  have hmd : m'.keys = m.keys ∪ d := by
    ext x
    rw [Finset.mem_union, hd, he.mem_keys]
  have hh := hj.isHighest_enforceCapLocked hm hl ha
  refine hk ▸ ⟨?_, fun x hx => ?_⟩
  case refine_1 =>
    rw [hmd]
    exact ht.highest.absorb (fun _ => he.seenRank_le)
      (fun x _ hx => he.seenRank_eq <| mt (hd x).mpr hx) (hjd ▸ hh)
  case refine_2 =>
    have hv : x ∉ j.capVictims cfg env := by
      rw [hj.free_enforceCapLocked hm] at hx
      exact (Finset.mem_sdiff.mp hx).2
    rw [entryAt_of_filter_pos (hj.enforceCapLocked_spec _ hm).2 fun _ => decide_eq_true hv]
    exact ha x (hh.subset hx)

end Step

section Run

variable [GoFloat F] {us us' : List (Update F × Env)}

def ingestAll (cfg : Config F) (us : List (Update F × Env)) : Index F :=
  run cfg (us.map fun x => (.ingest x.1, x.2))

theorem ingestAll_concat {x : Update F × Env} :
    ingestAll cfg (us ++ [x]) = (ingestAll cfg us).ingest cfg x.2 x.1 := by
  simp [ingestAll, run, step]

omit [GoFloat F] in
theorem extends_counted {us : List (Update F)} (h : InOrder (us ++ [u])) :
    Extends cfg u (counted cfg us) (counted cfg (us ++ [u])) where
  lookup x := by
    simp only [counted, Finmap.lookup_filter, lookup_union_concat]
    cases u.report x <;> cases (union us).lookup x <;> cases cfg.isReservedTenant x.1.tenant <;>
      simp [Option.filter]
  inOrder x e hr he := h.le_timestamp hr (Finmap.lookup_filter_eq_some_iff.mp he).1

theorem isTopOf_ingestAll (hm : 0 < cfg.maxEntries) (hu : Undisturbed us)
    (ho : InOrder (us.map Prod.fst)) :
    IsTopOf cfg (counted cfg (us.map Prod.fst)) (ingestAll cfg us) := by
  induction us using List.reverseRecOn
  case nil =>
    have hf : (Index.new : Index F).free cfg = ∅ := by simp [free, pairs, entries, Index.new]
    refine ⟨⟨?_, ?_, ?_⟩, ?_⟩ <;> simp [ingestAll, run, hf, counted, union]
  case append_singleton us x hi =>
    rw [List.map_append, List.map_singleton] at ho ⊢
    have hx : x ∈ us ++ [x] := by simp
    have hu' : Undisturbed us :=
      ⟨fun y hy => hu.timestamp y (by simp [hy]), fun y hy => hu.lru y (by simp [hy]),
        fun y hy => hu.noQuota y (by simp [hy])⟩
    rw [ingestAll_concat]
    exact (hi hu' ho.init).ingest (run_consistent cfg _) hm (extends_counted ho) (hu.timestamp x hx)
      (hu.lru x hx) (hu.noQuota x hx)

theorem cap_path_independent (cfg : Config F) (hm : 0 < cfg.maxEntries)
    (us : List (Update F × Env)) (hu : Undisturbed us) (ho : InOrder (us.map Prod.fst)) :
    IsTopOf cfg (counted cfg (us.map Prod.fst)) (ingestAll cfg us) ∧
    ∀ us' : List (Update F × Env), Undisturbed us' →
      (∀ r, (us.map Prod.fst).filter (·.replicaID = r) = (us'.map Prod.fst).filter (·.replicaID = r)) →
      ∀ key r, cfg.isReservedTenant key.tenant = false →
        ((ingestAll cfg us).entryAt key r).map ReplicaEntry.report =
          ((ingestAll cfg us').entryAt key r).map ReplicaEntry.report := by
  have h₁ := isTopOf_ingestAll hm hu ho
  refine ⟨h₁, fun us' hu' hs key r hr => ?_⟩
  have h₂ := isTopOf_ingestAll hm hu' (ho.congr hs)
  rw [counted, ← union_congr hs, ← counted] at h₂
  have hf := h₁.highest.unique h₂.highest
  by_cases hx : (key, r) ∈ (ingestAll cfg us).free cfg
  case pos => exact (h₁.agrees _ hx).trans (h₂.agrees _ <| hf ▸ hx).symm
  case neg =>
    have hn₁ := entryAt_eq_none_of_notMem_free hr hx
    have hn₂ := entryAt_eq_none_of_notMem_free hr (hf ▸ hx)
    exact congrArg (Option.map _) <| hn₁.trans hn₂.symm

end Run

section

-- Two replicas that report the same prefix, in both orders, with room for one of them.
def reportA : Update ℚ × Env := (.single [0x74] [0x61] [1] 1, .still 9)

def reportB : Update ℚ × Env := (.single [0x74] [0x62] [1] 2, .still 9)

theorem cap_path_independent_reports :
    IsTopOf tight (counted tight [reportA.1, reportB.1]) (ingestAll tight [reportA, reportB]) ∧
      ∀ key r, tight.isReservedTenant key.tenant = false →
        ((ingestAll tight [reportA, reportB]).entryAt key r).map ReplicaEntry.report =
          ((ingestAll tight [reportB, reportA]).entryAt key r).map ReplicaEntry.report := by
  have hu : Undisturbed [reportA, reportB] :=
    ⟨by decide, by simp [reportA, reportB, Env.evictionFor, Env.still],
      by simp [reportA, reportB, Env.tenantQuotaFor, Env.still]⟩
  have hu' : Undisturbed [reportB, reportA] :=
    ⟨by decide, by simp [reportA, reportB, Env.evictionFor, Env.still],
      by simp [reportA, reportB, Env.tenantQuotaFor, Env.still]⟩
  have ho : InOrder [reportA.1, reportB.1] := fun x =>
    .sublist (List.filter_sublist.map _) (by decide)
  have h := cap_path_independent tight (by decide) [reportA, reportB] hu ho
  refine ⟨h.1, h.2 _ hu' fun r => ?_⟩
  by_cases ha : r = [0x61]
  case pos => subst ha; rfl
  case neg => simp [reportA, reportB, Update.single, List.filter_cons, Ne.symm ha]

end

end Index

end InferenceCache
