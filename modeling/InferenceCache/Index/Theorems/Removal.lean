import InferenceCache.Index.Theorems.Results

namespace InferenceCache

variable {F : Type}

-- The only calls that can make a replica hold something of a model again.
def Call.reportsFor (sk : StatsKey) : Call F → Prop
  | .ingest u => (⟨u.tenant, u.model, u.replicaID⟩ : StatsKey) = sk
  | .applyEvent _ | .evictExpired | .creditHit .. => False

theorem Update.latest_eq_none_of_modelKey {u : Update F} {key : PrefixKey}
    (h : key.modelKey ≠ ⟨u.tenant, u.model⟩) : u.latest key = none := by
  refine List.find?_eq_none.mpr fun p hp he => h ?_
  have ⟨ref, hash, hk⟩ := upserts_key (List.mem_reverse.mp hp)
  rw [← of_decide_eq_true he, hk]
  rfl

namespace Index

variable {cfg : Config F} {i j : Index F} {env : Env} {ev : Event} {sk : StatsKey}

section Frame

theorem stats_applyEvent (h : ev.type = .prefixEvicted) : (i.applyEvent cfg env ev).stats = i.stats := by
  refine Finmap.ext_lookup fun sk => ?_
  rw [lookup_stats_applyEvent]
  split
  case isTrue => cases hs : i.stats.lookup sk <;> simp [touched, h]
  case isFalse => rfl

theorem stats_applyEvent_allCleared (h : ev.type = .allCleared) :
    (i.applyEvent cfg env ev).stats = i.stats.erase ⟨ev.tenant, ev.model, ev.replicaID⟩ := by
  refine Finmap.ext_lookup fun sk => ?_
  rw [lookup_stats_applyEvent, Finmap.lookup_erase_ite]
  split
  case isTrue => cases hs : i.stats.lookup sk <;> simp [touched, h]
  case isFalse => rfl

theorem entries_applyEvent_of_iff {p : PrefixKey × GoString → Prop} [DecidablePred p]
    (h : ∀ x, removes ev x.1 = true ∧ x.2 = ev.replicaID ↔ p x) :
    (i.applyEvent cfg env ev).entries = i.entries.filter fun x _ => !decide (p x) := by
  rw [entries_applyEvent]
  congr 1
  funext x _
  congr 1
  rw [Bool.eq_iff_iff, Bool.and_eq_true, beq_iff_eq, decide_eq_true_iff]
  exact h x

end Frame

section Absent

-- A replica that holds nothing of a model, under whatever scheme and adapter.
def Absent (sk : StatsKey) (i : Index F) : Prop :=
  ∀ key : PrefixKey, key.modelKey = sk.modelKey → i.entryAt key sk.replicaID = none

theorem Absent.of_filter {p : PrefixKey × GoString → ReplicaEntry → Bool} (h : Absent sk i)
    (hj : j.entries = i.entries.filter p) : Absent sk j := by
  intro key hk
  rw [entryAt_of_filter hj, h key hk, Option.filter_none]

theorem Absent.creditHit {key : PrefixKey} {r : GoString} (h : Absent sk i) :
    Absent sk (i.creditHit key r) := by
  intro key' hk
  rw [entryAt_creditHit]
  split
  case isTrue hx =>
    rw [← hx.1, ← hx.2, h key' hk]
    rfl
  case isFalse => exact h key' hk

variable [GoFloat F]

theorem Absent.ingest {u : Update F} (h : Absent sk i)
    (hu : (⟨u.tenant, u.model, u.replicaID⟩ : StatsKey) ≠ sk) : Absent sk (i.ingest cfg env u) := by
  have hr : Absent sk (i.recordUpdate cfg env u) := by
    intro key hk
    rw [entryAt_recordUpdate, h key hk]
    split
    case isFalse => rfl
    case isTrue hid =>
      have hm : key.modelKey ≠ ⟨u.tenant, u.model⟩ := fun he => hu <| by
        rw [hk] at he
        exact Consistent.modelKey_replicaID_inj.mp ⟨he.symm, hid.symm⟩
      rw [Update.latest_eq_none_of_modelKey hm]
      rfl
  have ⟨l, hl⟩ := enforceQuota_eq cfg (i.recordUpdate cfg env u) env u.tenant
  have ⟨l', hl'⟩ := enforceCapLocked_eq cfg (i.beforeCap cfg env u) env
  rw [Index.ingest, hl', beforeCap, hl]
  exact (hr.of_filter entries_removeAll).of_filter entries_removeAll

theorem Absent.step {c : Call F × Env} (h : Absent sk i) (hc : ¬c.1.reportsFor sk) :
    Absent sk (step cfg i c) := by
  obtain ⟨c, env⟩ := c
  cases c
  case ingest u => exact h.ingest hc
  case applyEvent ev => exact h.of_filter entries_applyEvent
  case evictExpired => exact h.of_filter entries_evictExpired
  case creditHit key r => exact h.creditHit

theorem Absent.foldl {calls : List (Call F × Env)} (h : Absent sk i)
    (hc : ∀ c ∈ calls, ¬c.1.reportsFor sk) : Absent sk (calls.foldl (Index.step cfg) i) := by
  induction calls generalizing i
  case nil => exact h
  case cons c rest hi =>
    have ⟨hh, ht⟩ := List.forall_mem_cons.mp hc
    exact hi (h.step hh) ht

end Absent

section Withdrawn

variable [GoFloat F]

-- A replica that no lookup and no hint of its tenant and model returns.
structure Withdrawn (cfg : Config F) (sk : StatsKey) (i : Index F) : Prop where
  lookup    : ∀ env req, req.modelKey = sk.modelKey →
                sk.replicaID ∉ (i.lookup cfg env req).map ReplicaScore.replicaID
  tenantHot : ∀ env req, req.modelKey = sk.modelKey →
                sk.replicaID ∉ (i.tenantHotCandidates cfg env req).map ReplicaScore.replicaID
  route     : ∀ env req, req.modelKey = sk.modelKey →
                sk.replicaID ∉ (i.lookupRoute cfg env req).scores.map ReplicaScore.replicaID
  affinity  : ∀ env sha256 seed (scope : ScopeKey), scope.tenant = sk.tenant → scope.model = sk.model →
                i.affinityHint env sha256 scope seed ≠ some sk.replicaID

theorem notMem_lookup_of_absent {req : LookupRequest} (h : Absent sk i)
    (hm : req.modelKey = sk.modelKey) :
    sk.replicaID ∉ (i.lookup cfg env req).map ReplicaScore.replicaID := by
  intro hx
  have ⟨x, hf⟩ := mem_ids_iff_found.mp hx
  have ⟨hash, e, he⟩ := exists_freshEntry hf
  rw [freshEntry, h (req.keyOf hash) hm] at he
  cases he

theorem exists_serving_of_mem_tenantHot {req : LookupRequest} {r : GoString}
    (h : r ∈ (i.tenantHotCandidates cfg env req).map ReplicaScore.replicaID) :
    (i.servingByScope.lookup₂ req.scopeKey r).isSome := by
  obtain ⟨s, hs, he⟩ := List.mem_map.mp h
  rw [tenantHotCandidates_eq] at hs
  split at hs
  case isTrue => cases hs
  case isFalse =>
    obtain ⟨x, _, hx⟩ := List.mem_filterMap.mp <| sortSlice_perm.mem_iff.mp hs
    split at hx <;> cases hx
    case isFalse hc =>
      rw [← he, ← Finmap.lookup_inner]
      by_contra hn
      rw [Option.not_isSome_iff_eq_none] at hn
      apply hc
      rw [Finmap.count]
      exact congrArg (Option.getD · 0) hn

omit [GoFloat F] in
theorem Absent.notServing (h : Absent sk i) (hi : Consistent cfg i) {scope : ScopeKey}
    (ht : scope.tenant = sk.tenant) (hm : scope.model = sk.model) :
    ¬(i.servingByScope.lookup₂ scope sk.replicaID).isSome := by
  rw [hi.serving_isSome_iff]
  rintro ⟨key, hk, he⟩
  have hmk : key.modelKey = sk.modelKey := by
    subst hk
    exact congrArg₂ ModelKey.mk ht hm
  rw [h key hmk] at he
  cases he

theorem Absent.withdrawn (h : Absent sk i) (hi : Consistent cfg i) : Withdrawn cfg sk i := by
  have hl env (req : LookupRequest) (hm : req.modelKey = sk.modelKey) :
      sk.replicaID ∉ (i.lookup cfg env req).map ReplicaScore.replicaID :=
    notMem_lookup_of_absent h hm
  have hh env (req : LookupRequest) (hm : req.modelKey = sk.modelKey) :
      sk.replicaID ∉ (i.tenantHotCandidates cfg env req).map ReplicaScore.replicaID := fun hx =>
    h.notServing hi (congrArg ModelKey.tenant hm) (congrArg ModelKey.model hm)
      (exists_serving_of_mem_tenantHot hx)
  refine ⟨hl, hh, ?route, ?affinity⟩
  case affinity =>
    intro env sha256 seed scope ht hm ha
    exact h.notServing hi ht hm (mem_replicasForRouting (mem_of_affinityHint ha))
  case route =>
    intro env req hm hx
    rw [lookupRoute_eq] at hx
    split at hx
    case isTrue => cases hx
    case isFalse =>
      split at hx
      case isTrue => exact hl env req hm hx
      case isFalse =>
        split at hx
        case isFalse => cases hx
        case isTrue =>
          rw [fallback] at hx
          split at hx
          case isTrue => cases hx
          case isFalse => exact hh env req hm hx

end Withdrawn

theorem Reachable.foldl [GoFloat F] {calls : List (Call F × Env)} (h : Reachable cfg i) :
    Reachable cfg (calls.foldl (Index.step cfg) i) := by
  induction calls generalizing i
  case nil => exact h
  case cons _ hi => exact hi h.step

-- What a removal event takes out, what it leaves, and how long a cleared replica stays away.
theorem removal_exact [GoFloat F] (cfg : Config F) (i : Index F) (h : Reachable cfg i) (env : Env)
    (ev : Event) :
    let j := i.applyEvent cfg env ev
    (ev.type = .prefixEvicted →
      j.entries = i.entries.filter (fun x _ => !decide (x.2 = ev.replicaID ∧ x.1.tenant = ev.tenant ∧
        x.1.model = ev.model ∧ x.1.prefixHash = ev.prefixHash ∧
        (ev.adapter = [] ∨ x.1.adapter = ev.adapter))) ∧
      j.stats = i.stats) ∧
    (ev.type = .allCleared →
      j.entries = i.entries.filter (fun x _ => !decide (x.2 = ev.replicaID ∧ x.1.tenant = ev.tenant ∧
        x.1.model = ev.model)) ∧
      j.stats = i.stats.erase ⟨ev.tenant, ev.model, ev.replicaID⟩ ∧
      ∀ calls : List (Call F × Env),
        (∀ c ∈ calls, ¬c.1.reportsFor ⟨ev.tenant, ev.model, ev.replicaID⟩) →
        Withdrawn cfg ⟨ev.tenant, ev.model, ev.replicaID⟩ (calls.foldl (step cfg) j)) ∧
    (∀ scope r, (∀ key, key.scopeKey = scope → j.entryAt key r = i.entryAt key r) →
      j.servingByScope.lookup₂ scope r = i.servingByScope.lookup₂ scope r) := by
  intro j
  have hi : Consistent cfg i := h.consistent
  have hj : Consistent cfg j := hi.applyEvent
  refine ⟨?evicted, ?cleared, fun scope r hs => hj.lookup₂_servingByScope hi hs⟩
  case evicted =>
    intro ht
    refine ⟨entries_applyEvent_of_iff fun x => ?_, stats_applyEvent ht⟩
    simp only [removes, ht, Event.evicts]
    grind
  case cleared =>
    intro ht
    have he : j.entries = i.entries.filter (fun x _ => !decide (x.2 = ev.replicaID ∧
        x.1.tenant = ev.tenant ∧ x.1.model = ev.model)) := by
      refine entries_applyEvent_of_iff fun x => ?_
      simp only [removes, ht, Event.clears]
      grind
    refine ⟨he, stats_applyEvent_allCleared ht, fun calls hc => ?_⟩
    have ha : Absent ⟨ev.tenant, ev.model, ev.replicaID⟩ j := by
      intro key hk
      have hm : key.tenant = ev.tenant ∧ key.model = ev.model := ModelKey.mk.inj hk
      rw [entryAt_of_filter he]
      simp [hm]
    have hr : Reachable cfg j := h.step (c := (.applyEvent ev, env))
    exact (ha.foldl hc).withdrawn hr.foldl.consistent

def cleared : Event :=
  ⟨.allCleared, [0x61], [0x6d], [0x74], [], [], 0⟩

-- The probe reports for the same replica, but for another tenant.
theorem removal_exact_probe :
    [0x61] ∈ ((run probed [workload]).lookup probed (.still 9) sample).map ReplicaScore.replicaID ∧
      [0x61] ∉ (([probe].foldl (step probed)
        ((run probed [workload]).applyEvent probed (.still 9) cleared)).lookup probed (.still 9)
          sample).map ReplicaScore.replicaID := by
  have ⟨_, h, _⟩ := removal_exact probed (run probed [workload]) ⟨_, rfl⟩ (.still 9) cleared
  have hw := (h rfl).2.2 [probe] fun c hc => by
    rw [List.mem_singleton.mp hc]
    exact show (⟨[0x70], [0x6d], [0x61]⟩ : StatsKey) ≠ ⟨[0x74], [0x6d], [0x61]⟩ by decide
  exact ⟨by decide +kernel, hw.lookup (.still 9) sample rfl⟩

end Index

end InferenceCache
