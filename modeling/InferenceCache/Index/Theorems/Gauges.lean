import InferenceCache.Index.Gauges
import InferenceCache.Index.Theorems.Reserved
import InferenceCache.Lib.Group

namespace InferenceCache

namespace Gauges

variable {g : Gauges} {counts : GoMap GoString Int} {model : GoString} {o o' : RangeOrder GoString}

-- The gauge of a model is its count. A model without entries has no gauge or one that is 0.
def Shows (g : Gauges) (counts : GoMap GoString Int) : Prop :=
  ∀ model, g.published.lookup model = counts.lookup model ∨
    counts.lookup model = none ∧ g.published.lookup model = some 0

-- Every gauge that is not 0 will be seen by the loop that sets the gauges of drained models.
def Tracked (g : Gauges) : Prop :=
  ∀ model n, g.published.lookup model = some n → n ≠ 0 → model ∈ g.reportedModels.keys

section Drain

variable {l : List GoString}

theorem published_drain : (l.foldl (drain counts) g).published.lookup model =
    if model ∈ l ∧ counts.lookup model = none then some 0 else g.published.lookup model := by
  induction l generalizing g
  case nil => simp
  case cons m l hi =>
    rw [List.foldl_cons, hi, drain]
    by_cases hm : model = m
    case pos =>
      subst hm
      cases hc : counts.lookup model <;> simp [setIndexEntries]
    case neg =>
      cases counts.lookup m <;> simp [setIndexEntries, hm]

end Drain

theorem published_push :
    ((o'.range counts).foldl push g).published = o'.collect (fun _ n => some n) counts g.published := by
  rw [RangeOrder.collect]
  induction o'.range counts generalizing g
  case nil => rfl
  case cons x l hi => exact hi

theorem reportedModels_push {l : List (GoString × Int)} : (l.foldl push g).reportedModels.keys =
    g.reportedModels.keys ∪ (l.map Prod.fst).toFinset := by
  rw [← Finmap.keys_foldl_insert]
  congr 1
  induction l generalizing g
  case nil => rfl
  case cons x l hi => exact hi

theorem published_report : (g.report counts o o').published.lookup model =
    (counts.lookup model).or
      (if model ∈ g.reportedModels.keys then some 0 else g.published.lookup model) := by
  rw [report, published_push, RangeOrder.lookup_collect, published_drain, RangeOrder.range_keys]
  cases counts.lookup model <;> simp [o.mem_list]

theorem keys_subset_report : counts.keys ⊆ (g.report counts o o').reportedModels.keys := by
  have hk : ((o'.range counts).map Prod.fst).toFinset = counts.keys := by
    rw [RangeOrder.range_keys, RangeOrder.toFinset_list]
  rw [report, reportedModels_push, hk]
  exact Finset.subset_union_right

theorem Tracked.report_shows (h : g.Tracked) : (g.report counts o o').Shows counts := by
  intro model
  rw [published_report]
  cases hc : counts.lookup model
  case some n => exact .inl rfl
  case none =>
    rw [Option.none_or]
    split
    case isTrue => exact .inr ⟨rfl, rfl⟩
    case isFalse hm =>
      cases hp : g.published.lookup model
      case none => exact .inl rfl
      case some n =>
        by_cases hn : n = 0
        case pos => exact .inr ⟨rfl, hn ▸ rfl⟩
        case neg => exact absurd (h model n hp hn) hm

theorem Tracked.report (h : g.Tracked) : (g.report counts o o').Tracked := by
  intro model n hp hn
  have hs : (g.report counts o o').Shows counts := h.report_shows
  cases hs model
  case inl hs => exact keys_subset_report (Finmap.mem_keys_of_lookup (hs ▸ hp))
  case inr hs =>
    rw [hs.2] at hp
    cases hp
    exact absurd rfl hn

end Gauges

namespace Caller

def Holds (c : Caller) : Prop :=
  c = .locked ∨ ∃ counts, c = .counted counts

-- After its change and still before it reads the counts.
def Unread (c : Caller) : Prop :=
  c = .mutated ∨ c = .locked

end Caller

namespace Reporting

variable {F ι : Type} {cfg : Config F} {s s' : Reporting F ι} {id id' : ι}

def Current (cfg : Config F) (s : Reporting F ι) (counts : GoMap GoString Int) : Prop :=
  counts.Tallies (s.index.realKeys cfg) PrefixKey.model

structure Settles (cfg : Config F) (s : Reporting F ι) : Prop where
  excludes : ∀ id, (s.callers id).Holds → s.reportMu = some id
  tracked  : s.gauges.Tracked
  -- Either somebody will still read the counts, or nothing has changed since they were last read. Then they
  -- are published already, or in the hands of the one caller who holds the lock.
  settles  : (∃ id, (s.callers id).Unread) ∨
    (∀ id counts, s.callers id = .counted counts → s.Current cfg counts) ∧
      ((∀ id counts, s.callers id ≠ .counted counts) → ∃ counts, s.Current cfg counts ∧ s.gauges.Shows counts)

theorem keys_creditHit {i : Index F} {key : PrefixKey} {r : GoString} :
    (i.creditHit key r).prefixes.keys = i.prefixes.keys := by
  rw [Index.creditHit]
  split
  case h_1 e he =>
    have ⟨_, hk, _⟩ := Finmap.lookup₂_eq_some_iff.mp he
    rw [Finmap.keys_insert₂, Finset.insert_eq_of_mem (Finmap.mem_keys_of_lookup hk)]
  case h_2 => rfl

namespace Settles

theorem shows_of_returned (h : Settles cfg s) (hr : ∀ id, s.callers id = .returned) :
    ∃ counts, s.Current cfg counts ∧ s.gauges.Shows counts := by
  cases h.settles
  case inl hu =>
    have ⟨id, hu⟩ := hu
    rw [Caller.Unread, hr id] at hu
    cases hu <;> contradiction
  case inr hs =>
    apply hs.2
    intro id counts hc
    rw [hr id] at hc
    cases hc

theorem start : Settles cfg (start : Reporting F ι) where
  excludes := by
    intro id h
    cases h
    case inl h => cases h
    case inr h =>
      have ⟨_, h⟩ := h
      cases h
  tracked := by
    intro model n h
    cases h
  settles := by
    refine .inr ⟨?_, fun _ => ⟨∅, .empty, fun _ => .inl rfl⟩⟩
    intro id counts h
    cases h

theorem excludes_other (h : Settles cfg s) (hm : s.reportMu = none ∨ s.reportMu = some id) (hn : id' ≠ id) :
    ¬(s.callers id').Holds := by
  intro hh
  have he := h.excludes id' hh
  cases hm
  case inl hm => cases hm.symm.trans he
  case inr hm => exact hn (Option.some.inj (he.symm.trans hm))

variable [DecidableEq ι]

theorem counted_of_update {p : Caller} {counts : GoMap GoString Int} (h : Settles cfg s)
    (hm : s.reportMu = none ∨ s.reportMu = some id)
    (hc : Function.update s.callers id p id' = .counted counts) : p = .counted counts := by
  by_cases he : id' = id
  case pos =>
    subst he
    rwa [Function.update_self] at hc
  case neg =>
    rw [Function.update_of_ne he] at hc
    exact absurd (.inr ⟨counts, hc⟩) (h.excludes_other hm he)

variable {c : Call F} {env : Env}

section Mutate

variable [GoFloat F]

theorem realKeys_of_not_reports {i : Index F} (h : c.reports = false) :
    (i.step cfg (c, env)).realKeys cfg = i.realKeys cfg := by
  cases c <;> first | contradiction | skip
  rw [Index.realKeys, Index.realKeys]
  exact congrArg _ keys_creditHit

theorem mutate (h : Settles cfg s) (hc : s.callers id = .returned) : Settles cfg { s with
    index := s.index.step cfg (c, env)
    callers := Function.update s.callers id (if c.reports then .mutated else .returned) } := by
  cases hr : c.reports
  case true =>
    refine ⟨?excludes, h.tracked, .inl ⟨id, .inl (Function.update_self ..)⟩⟩
    intro id' hh
    by_cases he : id' = id
    case pos =>
      subst he
      simp [Caller.Holds] at hh
    case neg =>
      simp only [Function.update_of_ne he] at hh
      exact h.excludes id' hh
  case false =>
    have hu : Function.update s.callers id .returned = s.callers := hc ▸ Function.update_eq_self id _
    rw [if_neg Bool.false_ne_true, hu]
    refine ⟨h.excludes, h.tracked, ?_⟩
    simp only [Current, realKeys_of_not_reports hr]
    exact h.settles

end Mutate

theorem lock (h : Settles cfg s) (hm : s.reportMu = none) : Settles cfg { s with
    reportMu := some id
    callers := Function.update s.callers id .locked } := by
  refine ⟨?excludes, h.tracked, .inl ⟨id, .inr (Function.update_self ..)⟩⟩
  intro id' hh
  by_cases he : id' = id
  case pos => rw [he]
  case neg =>
    simp only [Function.update_of_ne he] at hh
    exact absurd hh (h.excludes_other (.inl hm) he)

theorem count (h : Settles cfg s) (hc : s.callers id = .locked) : Settles cfg { s with
    callers := Function.update s.callers id (.counted (s.index.entryCountsByModel cfg env)) } := by
  have hm : s.reportMu = some id := h.excludes id (.inl hc)
  refine ⟨?excludes, h.tracked, .inr ⟨?current, ?none⟩⟩
  case excludes =>
    intro id' hh
    by_cases he : id' = id
    case pos => rw [hm, he]
    case neg =>
      simp only [Function.update_of_ne he] at hh
      exact h.excludes id' hh
  case current =>
    intro id' counts hc
    cases h.counted_of_update (.inr hm) hc
    exact Index.entryCountsByModel_tallies cfg s.index env
  case none =>
    intro hn
    exact absurd (Function.update_self ..) (hn id _)

theorem publish {counts : GoMap GoString Int} {o o' : RangeOrder GoString} (h : Settles cfg s)
    (hc : s.callers id = .counted counts) : Settles cfg { s with
      gauges := s.gauges.report counts o o'
      reportMu := none
      callers := Function.update s.callers id .returned } := by
  have hm : s.reportMu = some id := h.excludes id (.inr ⟨_, hc⟩)
  refine ⟨?excludes, h.tracked.report, ?settles⟩
  case excludes =>
    intro id' hh
    by_cases he : id' = id
    case pos =>
      subst he
      simp [Caller.Holds] at hh
    case neg =>
      simp only [Function.update_of_ne he] at hh
      exact absurd hh (h.excludes_other (.inr hm) he)
  case settles =>
    cases h.settles
    case inl hu =>
      have ⟨id', hu⟩ := hu
      have hn : id' ≠ id := by
        intro he
        rw [Caller.Unread, he, hc] at hu
        cases hu <;> contradiction
      refine .inl ⟨id', ?_⟩
      simpa only [Function.update_of_ne hn] using hu
    case inr hs =>
      refine .inr ⟨?_, fun _ => ⟨counts, hs.1 id counts hc, h.tracked.report_shows⟩⟩
      intro id' counts' hc'
      cases h.counted_of_update (.inr hm) hc'

variable [GoFloat F]

theorem step {x : ι × Caller.Action F} (h : Settles cfg s) (hs : s.step cfg x = some s') : Settles cfg s' := by
  unfold Reporting.step at hs
  split at hs
  case h_1 hc => exact Option.some.inj hs ▸ h.mutate hc
  case h_2 hc =>
    split at hs
    case h_1 => cases hs
    case h_2 hm => exact Option.some.inj hs ▸ h.lock hm
  case h_3 hc => exact Option.some.inj hs ▸ h.count hc
  case h_4 hc => exact Option.some.inj hs ▸ h.publish hc
  case h_5 => cases hs

theorem run {l : List (ι × Caller.Action F)} (hr : Reporting.run cfg l = some s) : Settles cfg s := by
  induction l using List.reverseRecOn generalizing s
  case nil => exact Option.some.inj hr ▸ start
  case append_singleton l x hi =>
    rw [Reporting.run, List.foldlM_append, Option.bind_eq_bind, Option.bind_eq_some_iff] at hr
    have ⟨m, hm, hs⟩ := hr
    rw [List.foldlM_cons, Option.bind_eq_bind, Option.bind_eq_some_iff] at hs
    have ⟨m', hx, hl⟩ := hs
    cases hl
    exact (hi hm).step hx

end Settles

-- However the callers interleave, the last of them leaves the gauges as the index is.
theorem gauges_converge [GoFloat F] [DecidableEq ι] (cfg : Config F) (l : List (ι × Caller.Action F))
    (s : Reporting F ι) (h : run cfg l = some s) (hr : ∀ id, s.callers id = .returned) (env : Env)
    (model : GoString) :
    (∀ n, s.gauges.published.lookup model = some n → n = (s.index.entryCountsByModel cfg env).count model) ∧
      (model ∈ (s.index.entryCountsByModel cfg env).keys → model ∈ s.gauges.published.keys) := by
  obtain ⟨counts, hc, hs⟩ := (Settles.run h).shows_of_returned hr
  cases hc.unique (Index.entryCountsByModel_tallies cfg s.index env)
  rw [Finmap.mem_keys_iff, Finmap.mem_keys_iff, Finmap.count]
  cases hs model
  case inl hs =>
    rw [hs]
    exact ⟨fun n hn => by rw [hn, Option.getD_some], id⟩
  case inr hs =>
    rw [hs.1, hs.2]
    exact ⟨fun n hn => (Option.some.inj hn).symm, fun h => by cases h⟩

-- The counts of one caller are outdated when it publishes them.
def overtaken : List (Bool × Caller.Action ℚ) :=
  [(false, .mutate Index.workload.1 Index.workload.2), (false, .lock), (false, .count (.still 0)),
    (true, .mutate (.applyEvent ⟨.allCleared, [0x61], [0x6d], [0x74], [], [], 2⟩) (.still 9)),
    (false, .publish .ascending .ascending), (true, .lock),
    (true, .count (.still 0)), (true, .publish .ascending .ascending)]

theorem gauges_converge_overtaken : ∃ s, run Index.probed overtaken = some s ∧
    s.gauges.published.lookup [0x6d] = some 0 ∧
      (s.index.entryCountsByModel Index.probed (.still 0)).count [0x6d] = 0 := by
  have hp : (run Index.probed overtaken).map
      (fun s => (s.gauges.published.lookup [0x6d], s.callers false, s.callers true)) =
        some (some 0, .returned, .returned) := by decide +kernel
  have ⟨s, h, hp⟩ := Option.map_eq_some_iff.mp hp
  simp only [Prod.mk.injEq] at hp
  have hr : ∀ id, s.callers id = .returned := Bool.forall_bool.mpr hp.2
  exact ⟨s, h, hp.1, ((gauges_converge Index.probed overtaken s h hr (.still 0) [0x6d]).1 0 hp.1).symm⟩

end Reporting

end InferenceCache
