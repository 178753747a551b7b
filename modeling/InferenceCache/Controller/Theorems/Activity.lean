import InferenceCache.Controller.Theorems.Participation

namespace InferenceCache.Controller

open Kube Webhook

section View

variable {S F : Type} [GoFloat F] {format : F → GoString} {p : Projection F} {key : ObjectKey} {cb : Participant S}
variable {tainted : Finset GoString} {patch : ObjectKey → Bool} {a : Agg} {agg : ObjectKey → Agg} {m : Metrics F}

structure View where
  last      : Option Int64
  added     : Option Int64
  exercised : Bool

def Projection.view (p : Projection F) (key : ObjectKey) : View :=
  ⟨p.metrics.lastT2QueryTokens.lookup key, p.added.lookup key, key ∈ p.exercised⟩

def delta (last : Option Int64) (current : Int64) : Int64 :=
  match last with
  | none      => 0
  | some last => if current ≤ last then 0 else current - last

def View.see (v : View) (current : Int64) : View :=
  if 0 < current then ⟨some current, some (delta v.last current), true⟩ else v

theorem view_exercise : (p.exercise cb.key a).view key =
    if key = cb.key then (p.view key).see a.t2QueryTokens else p.view key := by
  by_cases hk : key = cb.key
  case pos =>
    subst hk
    by_cases hq : 0 < a.t2QueryTokens
    case pos =>
      cases hl : p.metrics.lastT2QueryTokens.lookup cb.key <;>
        simp [Projection.exercise, Projection.view, View.see, hq, Metrics.exercise, Metrics.t2QueryDelta,
          Metrics.addQueryTokens, delta, hl]
    case neg => simp [Projection.exercise, View.see, hq]
  case neg =>
    by_cases hq : 0 < a.t2QueryTokens
    case pos =>
      simp [Projection.exercise, Projection.view, hq, hk, Metrics.exercise, Metrics.t2QueryDelta,
        Metrics.addQueryTokens, Finmap.lookup_insert_of_ne _ hk]
    case neg => simp [Projection.exercise, hq, hk]

theorem view_publish : (p.publish format tainted patch cb a).view key =
    if key = cb.key ∧ cb.key.inNamespace ∉ tainted then (p.view key).see a.t2QueryTokens else p.view key := by
  rw [Projection.publish_eq]
  by_cases ht : cb.key.inNamespace ∈ tainted
  case pos => simp [ht]
  case neg =>
    have hv : ∀ d, ((p.exercise cb.key a).write cb.key d).view key = (p.exercise cb.key a).view key := fun _ => rfl
    rw [if_neg ht, apply_ite (Projection.view · key), hv, ite_self, view_exercise]
    simp [ht]

theorem view_foldl_of_notMem (agg : ObjectKey → Agg) {l : List (Participant S)} (hm : key ∉ l.map (·.key)) :
    (l.foldl (fun p cb => p.publish format tainted patch cb (agg cb.key)) p).view key = p.view key := by
  induction l generalizing p
  case nil => rfl
  case cons cb l hi =>
    rw [List.map_cons, List.mem_cons, not_or] at hm
    rw [List.foldl_cons, hi hm.2, view_publish, if_neg (by simp [hm.1])]

theorem view_foldl (agg : ObjectKey → Agg) {l : List (Participant S)} (hn : (l.map (·.key)).Nodup)
    (hm : key ∈ l.map (·.key)) :
    (l.foldl (fun p cb => p.publish format tainted patch cb (agg cb.key)) p).view key =
      if key.inNamespace ∉ tainted then (p.view key).see (agg key).t2QueryTokens else p.view key := by
  induction l generalizing p
  case nil => cases hm
  case cons cb l hi =>
    have ⟨hx, hn⟩ := List.nodup_cons.mp hn
    rw [List.foldl_cons]
    by_cases hk : key = cb.key
    case pos =>
      subst hk
      rw [view_foldl_of_notMem agg hx, view_publish]
      simp
    case neg =>
      have hm : key ∈ l.map (·.key) := (List.mem_cons.mp hm).resolve_left hk
      have hp : (p.publish format tainted patch cb (agg cb.key)).view key = p.view key := by
        rw [view_publish, if_neg fun h => hk h.1]
      rw [hi hn hm, hp]

end View

section Ticks

variable {S F : Type}

-- A tick with its surroundings. `counts` are the counters of the engines, which the rows of the snapshot
-- show, one row for each replica of a tenant.
structure Tick (S F : Type) where
  backends : Backends S
  pods     : Pods
  fails    : ObjectKey → Option GoString
  patch    : ObjectKey → Bool
  range    : RangeOrder ObjectKey
  rows     : List (ReplicaSnapshot F)
  distinct : (rows.map podOf).Nodup
  counts   : ObjectKey → Nat

namespace Tick

variable (t : Tick S F) (key : ObjectKey)

def get : ObjectKey → Except ApiError PodObject :=
  t.pods.get t.fails

def shown : List (ReplicaSnapshot F) :=
  t.rows.map fun r => { r with t2QueryTokens := t.counts (podOf r) }

def run [GoFloat F] (format : F → GoString) (m : Metrics F) : Projection F :=
  refreshCacheBackendParticipation format t.backends t.get t.patch t.range m ⟨t.shown, [], 0, 0⟩

def attributed : Finset ObjectKey :=
  ((t.rows.filter fun r => attributedTo t.backends.items t.get r = some key).map podOf).toFinset

def fits : Prop :=
  ∑ k ∈ t.attributed key, t.counts k < 2 ^ 63

def isListed : Bool :=
  key ∈ t.backends.items.map (·.key)

def isReadable : Bool :=
  key.inNamespace ∉ unreadableNamespaces t.get t.rows

def queries : Int64 :=
  Int64.ofInt (∑ k ∈ t.attributed key, t.counts k : Nat)

def observes : Bool :=
  t.isListed key ∧ t.isReadable key ∧ 0 < t.queries key

def next (s : Option (Tick S F)) : Option (Tick S F) :=
  if t.isListed key = false ∨ t.isReadable key = true ∧ t.observes key = false then none
  else if t.observes key then some t else s

end Tick

end Ticks

section Increment

variable {S F : Type} [GoFloat F] {format : F → GoString} {m : Metrics F} {t : Tick S F} {key : ObjectKey}

-- A baseline belongs to a series.
def Metrics.Sound (m : Metrics F) : Prop :=
  ∀ key, (m.lastT2QueryTokens.lookup key).isSome → key ∈ m.t2SeriesTracked

omit [GoFloat F] in
theorem Tick.unreadable_shown : unreadableNamespaces t.get t.shown = unreadableNamespaces t.get t.rows := by
  simp only [unreadableNamespaces, Tick.shown, List.filter_map, List.map_map]
  rfl

omit [GoFloat F] in
theorem Tick.queries_shown : (aggOf t.backends.items t.get t.shown key).t2QueryTokens = t.queries key := by
  have hn : ((t.rows.filter fun r => attributedTo t.backends.items t.get r = some key).map podOf).Nodup :=
    t.distinct.sublist (List.filter_sublist.map podOf)
  have hs : ((t.shown.filter fun r => attributedTo t.backends.items t.get r = some key).map (·.t2QueryTokens)).sum =
      (∑ k ∈ t.attributed key, t.counts k : Nat) := by
    rw [Tick.attributed, List.sum_toFinset _ hn, Tick.shown, List.filter_map, List.map_map, List.map_map,
      Nat.cast_list_sum, List.map_map]
    rfl
  rw [aggOf, foldl_add_eq Agg.t2QueryTokens ReplicaSnapshot.t2QueryTokens fun _ _ => rfl, hs]
  exact Int64.zero_add _

-- What the loop over the backends does, before stale series are removed.
theorem Tick.view_eq : (projectAll format t.backends t.get t.patch m t.shown).view key =
    if t.observes key then
      ⟨some (t.queries key), some (delta (m.lastT2QueryTokens.lookup key) (t.queries key)), true⟩
    else ⟨m.lastT2QueryTokens.lookup key, none, false⟩ := by
  rw [projectAll, t.unreadable_shown]
  by_cases hl : key ∈ t.backends.items.map (·.key)
  case pos =>
    rw [view_foldl (aggOf t.backends.items t.get t.shown) t.backends.nodup hl, Tick.queries_shown]
    by_cases hr : key.inNamespace ∈ unreadableNamespaces t.get t.rows
    case pos => simp [Tick.observes, Tick.isReadable, hr, Projection.view]
    case neg => simp [Tick.observes, Tick.isListed, Tick.isReadable, hl, hr, Projection.view, View.see]
  case neg =>
    rw [view_foldl_of_notMem (aggOf t.backends.items t.get t.shown) hl]
    simp [Tick.observes, Tick.isListed, hl, Projection.view]

theorem Tick.run_eq : t.run format m = (projectAll format t.backends t.get t.patch m t.shown).prune
    (t.backends.items.map (·.key)).toFinset (unreadableNamespaces t.get t.rows) := by
  have hg : ∀ key pod, t.get key = .ok pod → pod.key = key := fun _ _ h => (Pods.key_of_get h).2
  rw [Tick.run, refreshCacheBackendParticipation_eq hg, t.unreadable_shown]

theorem Tick.added_eq : (t.run format m).added.lookup key =
    if t.observes key then some (delta (m.lastT2QueryTokens.lookup key) (t.queries key)) else none := by
  have hv : (projectAll format t.backends t.get t.patch m t.shown).added.lookup key = _ :=
    congrArg View.added t.view_eq
  rw [t.run_eq]
  refine hv.trans ?_
  split <;> rfl

theorem Tick.exercised_iff : key ∈ (projectAll format t.backends t.get t.patch m t.shown).exercised ↔
    t.observes key = true := by
  have hv : decide (key ∈ (projectAll format t.backends t.get t.patch m t.shown).exercised) = _ :=
    congrArg View.exercised t.view_eq
  rw [← decide_eq_true_iff (p := key ∈ _), hv]
  split <;> simp_all

theorem tracked_publish {p : Projection F} {tainted : Finset GoString} {patch : ObjectKey → Bool}
    {cb : Participant S} {a : Agg} :
    (p.publish format tainted patch cb a).metrics.t2SeriesTracked = p.metrics.t2SeriesTracked := by
  have he : (p.exercise cb.key a).metrics.t2SeriesTracked = p.metrics.t2SeriesTracked := by
    simp only [Projection.exercise]
    split <;> rfl
  rw [Projection.publish_eq]
  split
  case isTrue => rfl
  case isFalse => split <;> exact he

theorem Tick.tracked_eq : (projectAll format t.backends t.get t.patch m t.shown).metrics.t2SeriesTracked =
    m.t2SeriesTracked := by
  have h (l : List (Participant S)) (p : Projection F) :
      (l.foldl (fun p cb => p.publish format (unreadableNamespaces t.get t.shown) t.patch cb
        (aggOf t.backends.items t.get t.shown cb.key)) p).metrics.t2SeriesTracked = p.metrics.t2SeriesTracked := by
    induction l generalizing p
    case nil => rfl
    case cons cb l hi => rw [List.foldl_cons, hi, tracked_publish]
  exact h t.backends.items { metrics := m }

theorem Tick.isStale_iff : Metrics.isStale (projectAll format t.backends t.get t.patch m t.shown).exercised
    (t.backends.items.map (·.key)).toFinset (unreadableNamespaces t.get t.rows) key = true ↔
      t.isListed key = false ∨ t.isReadable key = true ∧ t.observes key = false := by
  rw [Metrics.isStale, decide_eq_true_eq, t.exercised_iff]
  simp [Tick.isListed, Tick.isReadable]

theorem Metrics.lookup_reconcile {exercised present : Finset ObjectKey} {tainted : Finset GoString} :
    (m.reconcileBackendT2HitRateSeries exercised present tainted).lastT2QueryTokens.lookup key =
      if key ∈ m.t2SeriesTracked ∪ exercised ∧ isStale exercised present tainted key then none
      else m.lastT2QueryTokens.lookup key := by
  split
  case isTrue h =>
    rw [reconcileBackendT2HitRateSeries, Finmap.lookup_filter, Option.filter_eq_none_iff]
    intro _ _ hs
    exact absurd (Finset.mem_filter.mpr h) (decide_eq_true_eq.mp hs)
  case isFalse h =>
    refine Finmap.lookup_filter_of_pos fun _ => ?_
    exact decide_eq_true fun hs => h (Finset.mem_filter.mp hs)

-- A baseline that is there has a series, so it is gone as soon as the series is stale.
theorem Tick.last_eq (hm : m.Sound) : (t.run format m).metrics.lastT2QueryTokens.lookup key =
    if t.isListed key = false ∨ t.isReadable key = true ∧ t.observes key = false then none
    else if t.observes key then some (t.queries key) else m.lastT2QueryTokens.lookup key := by
  have hv : (projectAll format t.backends t.get t.patch m t.shown).metrics.lastT2QueryTokens.lookup key = _ :=
    congrArg View.last t.view_eq
  rw [t.run_eq, Projection.prune, Metrics.lookup_reconcile]
  simp only [t.isStale_iff, t.tracked_eq, hv, Finset.mem_union, t.exercised_iff]
  by_cases hs : t.isListed key = false ∨ t.isReadable key = true ∧ t.observes key = false
  case neg =>
    rw [if_neg fun h => hs h.2, if_neg hs]
    split <;> rfl
  case pos =>
    have ho : t.observes key = false := by
      cases hs
      case inl h => simp [Tick.observes, h]
      case inr h => exact h.2
    by_cases ht : key ∈ m.t2SeriesTracked
    case pos => rw [if_pos ⟨.inl ht, hs⟩, if_pos hs]
    case neg =>
      have hl : m.lastT2QueryTokens.lookup key = none := Option.not_isSome_iff_eq_none.mp (mt (hm key) ht)
      rw [if_neg (by simp [ht, ho]), if_pos hs, ho]
      exact hl

theorem Tick.sound (hm : m.Sound) : (t.run format m).metrics.Sound := by
  intro key hk
  rw [t.last_eq hm] at hk
  rw [t.run_eq]
  simp only [Projection.prune, Metrics.reconcileBackendT2HitRateSeries, Finset.mem_sdiff, Finset.mem_filter,
    t.isStale_iff, t.tracked_eq, Finset.mem_union, t.exercised_iff]
  split at hk
  case isTrue => cases hk
  case isFalse hs =>
    refine ⟨?_, fun h => hs h.2⟩
    split at hk
    case isTrue ho => exact .inr ho
    case isFalse => exact .inl (hm key hk)

end Increment

section Growth

variable {S F : Type} [GoFloat F] {format : F → GoString} {m : Metrics F} {s t u : Tick S F} {ticks : List (Tick S F)}
variable {key : ObjectKey} {R : Finset ObjectKey} {base : Option (Tick S F)}

def Tick.increment (t : Tick S F) (format : F → GoString) (key : ObjectKey) (m : Metrics F) : Int :=
  (((t.run format m).added.lookup key).map Int64.toInt).getD 0

def metricsAfter (format : F → GoString) (m : Metrics F) (ticks : List (Tick S F)) : Metrics F :=
  ticks.foldl (fun m t => (t.run format m).metrics) m

def totalAdded (format : F → GoString) (key : ObjectKey) : Metrics F → List (Tick S F) → Int
  | _, []         => 0
  | m, t :: ticks => t.increment format key m + totalAdded format key (t.run format m).metrics ticks

def growth (R : Finset ObjectKey) (s t : Tick S F) : Int :=
  ∑ k ∈ R, ((t.counts k : Int) - s.counts k)

def Grows (s t : Tick S F) : Prop :=
  ∀ k, s.counts k ≤ t.counts k

-- The replicas of a tick had counted no more than the sum it is compared with, when that was taken.
def Tick.Covers (t : Tick S F) (key : ObjectKey) (s : Tick S F) : Prop :=
  ∑ k ∈ t.attributed key, s.counts k ≤ ∑ k ∈ s.attributed key, s.counts k

def Covered (key : ObjectKey) : Option (Tick S F) → List (Tick S F) → Prop
  | _, []            => True
  | base, t :: ticks => t.fits key ∧ (t.observes key = true → ∀ s ∈ base, t.Covers key s) ∧
    Covered key (t.next key base) ticks

-- What is remembered is the sum of the last tick that has set it.
def Measures (m : Metrics F) (key : ObjectKey) (base : Option (Tick S F)) : Prop :=
  m.lastT2QueryTokens.lookup key = base.map (·.queries key) ∧ ∀ s ∈ base, s.fits key

theorem Measures.next (h : Measures m key base) (hm : m.Sound) (hf : t.fits key) :
    Measures (t.run format m).metrics key (t.next key base) := by
  rw [Measures, t.last_eq hm, Tick.next]
  split
  case isTrue => simp
  case isFalse =>
    split
    case isTrue => simpa using hf
    case isFalse => exact h

omit [GoFloat F] in
theorem Tick.fits.toInt_queries (h : t.fits key) :
    (t.queries key).toInt = ∑ k ∈ t.attributed key, (t.counts k : Int) := by
  have hn : (0 : Int) ≤ (∑ k ∈ t.attributed key, t.counts k : Nat) := Int.natCast_nonneg _
  have hl : ((∑ k ∈ t.attributed key, t.counts k : Nat) : Int) < 2 ^ 63 := by exact_mod_cast h
  rw [Tick.queries, Int64.toInt_ofInt_of_le (by omega) hl, Nat.cast_sum]

theorem increment_of_unobserved (h : t.observes key = false) : t.increment format key m = 0 := by
  simp [Tick.increment, t.added_eq, h]

theorem increment_of_first (h : m.lastT2QueryTokens.lookup key = none) : t.increment format key m = 0 := by
  rw [Tick.increment, t.added_eq, h]
  split <;> rfl

omit [GoFloat F] in
theorem toInt_delta {last current : Int64} (hl : 0 ≤ last.toInt) (hc : 0 ≤ current.toInt) :
    (delta (some last) current).toInt = max 0 (current.toInt - last.toInt) := by
  have hb := current.toInt_lt
  simp only [delta, Int64.le_iff_toInt_le]
  split
  case isTrue h => rw [Int64.toInt_zero, max_eq_left (by omega)]
  case isFalse h =>
    rw [Int64.toInt_sub, Int.bmod_eq_of_le (by omega) (by omega), max_eq_right (by omega)]

theorem increment_eq (h : Measures m key (some s)) (ho : t.observes key = true) (hf : t.fits key) :
    t.increment format key m =
      max 0 (∑ k ∈ t.attributed key, (t.counts k : Int) - ∑ k ∈ s.attributed key, (s.counts k : Int)) := by
  have hs := (h.2 s rfl).toInt_queries
  have ht := hf.toInt_queries
  have hn (t : Tick S F) : 0 ≤ ∑ k ∈ t.attributed key, (t.counts k : Int) :=
    Finset.sum_nonneg fun _ _ => Int.natCast_nonneg _
  rw [Tick.increment, t.added_eq, if_pos ho, h.1, Option.map_some, Option.map_some, Option.getD_some,
    toInt_delta (hs ▸ hn s) (ht ▸ hn t), hs, ht]

omit [GoFloat F] in
theorem growth_trans : growth R s t + growth R t u = growth R s u := by
  rw [growth, growth, growth, ← Finset.sum_add_distrib]
  exact Finset.sum_congr rfl fun _ _ => by ring

omit [GoFloat F] in
theorem Grows.growth_nonneg (h : Grows s t) : 0 ≤ growth R s t :=
  Finset.sum_nonneg fun k _ => by have := h k; omega

-- The part of the sum that was there before is covered, and the rest is growth.
theorem increment_le (h : Measures m key (some s)) (hf : t.fits key) (hg : Grows s t)
    (hc : t.observes key = true → t.Covers key s) (hR : t.attributed key ⊆ R) :
    t.increment format key m ≤ growth R s t := by
  cases ho : t.observes key
  case false => exact increment_of_unobserved ho ▸ hg.growth_nonneg
  case true =>
    rw [increment_eq h ho hf]
    refine max_le hg.growth_nonneg ?_
    have hc : ∑ k ∈ t.attributed key, (s.counts k : Int) ≤ ∑ k ∈ s.attributed key, (s.counts k : Int) := by
      exact_mod_cast hc ho
    calc ∑ k ∈ t.attributed key, (t.counts k : Int) - ∑ k ∈ s.attributed key, (s.counts k : Int)
      _ ≤ ∑ k ∈ t.attributed key, (t.counts k : Int) - ∑ k ∈ t.attributed key, (s.counts k : Int) := by omega
      _ = growth (t.attributed key) s t := by rw [growth, Finset.sum_sub_distrib]
      _ ≤ growth R s t := Finset.sum_le_sum_of_subset_of_nonneg hR fun k _ _ => by have := hg k; omega

-- `acc` is what was added so far: no more than the growth until `u`, and until the tick that the next
-- increment is measured from.
theorem totalAdded_le {c : Tick S F} {acc : Int} (hm : m.Sound) (hb : Measures m key base)
    (hacc : acc ≤ growth R c u ∧ ∀ s ∈ base, acc ≤ growth R c s ∧ Grows s u)
    (hg : (u :: ticks).Pairwise Grows) (hc : Covered key base ticks) (hR : ∀ t ∈ ticks, t.attributed key ⊆ R) :
    acc + totalAdded format key m ticks ≤ growth R c ((u :: ticks).getLast (List.cons_ne_nil _ _)) := by
  induction ticks generalizing m base u acc
  case nil => simpa [totalAdded] using hacc.1
  case cons t ticks hi =>
    have ⟨hf, hcov, hc⟩ := hc
    have ⟨hu, hg⟩ := List.pairwise_cons.mp hg
    have ht : Grows u t := hu t (.head _)
    have hut : growth R c u ≤ growth R c t := by
      have := ht.growth_nonneg (R := R)
      have := growth_trans (R := R) (s := c) (t := u) (u := t)
      omega
    have hstep : acc + t.increment format key m ≤ growth R c t := by
      rcases base with _ | s
      case none =>
        have h0 : t.increment format key m = 0 := increment_of_first hb.1
        omega
      case some =>
        have ⟨hs, hsu⟩ := hacc.2 s rfl
        have hst : Grows s t := fun k => (hsu k).trans (ht k)
        have hl : t.increment format key m ≤ growth R s t :=
          increment_le hb hf hst (fun ho => hcov ho s rfl) (hR t (.head _))
        have := growth_trans (R := R) (s := c) (t := s) (u := t)
        omega
    rw [totalAdded, ← add_assoc, List.getLast_cons (List.cons_ne_nil _ _)]
    refine hi (t.sound hm) (hb.next hm hf) ⟨hstep, ?_⟩ hg hc fun t ht => hR t (.tail _ ht)
    intro s hs
    simp only [Tick.next] at hs
    split at hs
    case isTrue => cases hs
    case isFalse =>
      split at hs
      case isTrue =>
        cases hs
        exact ⟨hstep, fun _ => le_rfl⟩
      case isFalse ho =>
        have ⟨hle, hsu⟩ := hacc.2 s hs
        rw [increment_of_unobserved (Bool.eq_false_iff.mpr ho), add_zero]
        exact ⟨hle, fun k => (hsu k).trans (ht k)⟩

theorem Metrics.Sound.start : ({} : Metrics F).Sound :=
  fun _ h => nomatch h

-- As long as there is nothing to see of a backend, nothing is remembered about it.
theorem measures_of_unobserved (hm : m.Sound) (hb : m.lastT2QueryTokens.lookup key = none)
    (h : ∀ t ∈ ticks, t.observes key = false) :
    (metricsAfter format m ticks).lastT2QueryTokens.lookup key = none ∧ (metricsAfter format m ticks).Sound := by
  induction ticks generalizing m
  case nil => exact ⟨hb, hm⟩
  case cons t ticks hi =>
    refine hi (t.sound hm) ?_ fun t ht => h t (.tail _ ht)
    rw [t.last_eq hm, hb, h t (.head _)]
    split <;> rfl

def Tick.withCounts (t : Tick S F) (counts : ObjectKey → Nat) : Tick S F :=
  { t with counts := counts }

omit [GoFloat F] in
theorem Tick.Covers.of_unobserved (hl : t.isListed key = true) (hr : t.isReadable key = true)
    (hf : (t.withCounts s.counts).fits key) (ho : (t.withCounts s.counts).observes key = false) : t.Covers key s := by
  have hq : ¬0 < (t.withCounts s.counts).queries key := by
    intro hq
    rw [Tick.observes, decide_eq_false_iff_not] at ho
    exact ho ⟨hl, hr, hq⟩
  rw [Int64.lt_iff_toInt_lt, hf.toInt_queries, Int64.toInt_zero, not_lt] at hq
  have hz : ∑ k ∈ t.attributed key, (s.counts k : Int) ≤ 0 := hq
  have hz : ∑ k ∈ t.attributed key, s.counts k = 0 := by
    have : ((∑ k ∈ t.attributed key, s.counts k : Nat) : Int) ≤ 0 := by rw [Nat.cast_sum]; exact hz
    omega
  rw [Tick.Covers, hz]
  exact Nat.zero_le _

omit [GoFloat F] in
theorem Tick.next_of_observes (h : t.observes key = true) (base : Option (Tick S F)) : t.next key base = some t := by
  have hl : t.isListed key = true := (decide_eq_true_eq.mp h).1
  simp [Tick.next, hl, h]

theorem totalAdded_first_le (hm : m.Sound) (hl : m.lastT2QueryTokens.lookup key = none)
    (hg : (s :: ticks).Pairwise Grows) (hR : ∀ t ∈ s :: ticks, t.attributed key ⊆ R)
    (hc : Covered key none (s :: ticks)) :
    totalAdded format key m (s :: ticks) ≤ growth R s ((s :: ticks).getLast (List.cons_ne_nil _ _)) := by
  have hg' : (s :: s :: ticks).Pairwise Grows := by
    refine List.pairwise_cons.mpr ⟨fun t ht => ?_, hg⟩
    cases ht
    case head => exact fun _ => le_rfl
    case tail ht => exact (List.pairwise_cons.mp hg).1 t ht
  have h0 : (0 : Int) ≤ growth R s s := Grows.growth_nonneg fun _ => le_rfl
  have hb : Measures m key (none : Option (Tick S F)) := ⟨hl, nofun⟩
  have h : 0 + totalAdded format key m (s :: ticks) ≤ _ := totalAdded_le hm hb ⟨h0, nofun⟩ hg' hc hR
  rwa [zero_add] at h

-- With counters that stand still, everything that is added is made up.
theorem Tick.Covers.of_still (hm : m.Sound) (hl : m.lastT2QueryTokens.lookup key = none) (hs : s.fits key)
    (ho : s.observes key = true) (htl : t.isListed key = true) (htr : t.isReadable key = true)
    (hf : (t.withCounts s.counts).fits key)
    (h : totalAdded format key m [s, t.withCounts s.counts] ≤ growth R s (t.withCounts s.counts)) :
    t.Covers key s := by
  cases hto : (t.withCounts s.counts).observes key
  case false => exact .of_unobserved htl htr hf hto
  case true =>
    have hb : Measures (s.run format m).metrics key (some s) := by
      have hb : Measures m key (none : Option (Tick S F)) := ⟨hl, nofun⟩
      exact s.next_of_observes ho none ▸ hb.next hm hs
    have hz : growth R s (t.withCounts s.counts) = 0 := Finset.sum_eq_zero fun _ _ => sub_self _
    rw [totalAdded, totalAdded, totalAdded, increment_of_first hl, increment_eq hb hto hf, hz, zero_add,
      add_zero, max_le_iff] at h
    have hle : ∑ k ∈ t.attributed key, (s.counts k : Int) ≤ ∑ k ∈ s.attributed key, (s.counts k : Int) :=
      sub_nonpos.mp h.2
    rw [Tick.Covers]
    exact_mod_cast hle

-- Nothing is made up as long as a tick only sees replicas whose queries the sum it is compared with has
-- covered. A tick that is not like this makes something up even if no one has queried anything.
theorem no_phantom_activity (format : F → GoString) (key : ObjectKey) (before : List (Tick S F)) (first : Tick S F)
    (hbefore : ∀ t ∈ before, t.observes key = false) (hfirst : first.observes key = true) :
    (∀ (later : List (Tick S F)) (R : Finset ObjectKey), (first :: later).Pairwise Grows →
      (∀ t ∈ first :: later, t.attributed key ⊆ R) → Covered key none (first :: later) →
      totalAdded format key (metricsAfter format {} before) (first :: later) ≤
        growth R first ((first :: later).getLast (List.cons_ne_nil _ _))) ∧
    ∀ t : Tick S F, first.fits key → t.isListed key = true → t.isReadable key = true →
      (t.withCounts first.counts).fits key →
      ((∀ counts, (∀ k, first.counts k ≤ counts k) → (t.withCounts counts).fits key →
          totalAdded format key (metricsAfter format {} before) [first, t.withCounts counts] ≤
            growth (first.attributed key ∪ t.attributed key) first (t.withCounts counts)) ↔
        t.Covers key first) := by
  have ⟨hl, hm⟩ : (metricsAfter format {} before).lastT2QueryTokens.lookup key = none ∧
      (metricsAfter format {} before).Sound := measures_of_unobserved .start rfl hbefore
  refine ⟨fun later R hg hR hc => totalAdded_first_le hm hl hg hR hc, fun t hf htl htr hft => ?_⟩
  constructor
  case mp  => exact fun h => .of_still hm hl hf hfirst htl htr hft (h first.counts (fun _ => le_rfl) hft)
  case mpr =>
    intro hc counts hg hft
    refine totalAdded_first_le hm hl ?_ ?_ ?_
    case refine_1 =>
      have hgt : Grows first (t.withCounts counts) := hg
      simpa using hgt
    case refine_2 =>
      intro t' ht'
      cases ht'
      case head     => exact Finset.subset_union_left
      case tail ht' =>
        cases List.mem_singleton.mp ht'
        exact Finset.subset_union_right
    case refine_3 =>
      refine ⟨hf, nofun, hft, fun _ s hs => ?_, trivial⟩
      rw [first.next_of_observes hfirst] at hs
      cases hs
      exact hc

def churned : ObjectKey :=
  ⟨utf8 "a", utf8 "x"⟩

-- A backend with two engines, of which some have a row, and the counters of the two.
def churnTick (names : List GoString) (distinct : ((names.map fun name => row (utf8 "a") name 1 0).map podOf).Nodup)
    (p q : Nat) : Tick Unit ℚ where
  backends := ⟨[engineBackend (utf8 "a") (utf8 "x") none], by decide +kernel, by decide +kernel⟩
  pods := ⟨[enginePod (utf8 "a") (utf8 "p") ∅, enginePod (utf8 "a") (utf8 "q") ∅], by decide +kernel⟩
  fails := fun _ => none
  patch := fun _ => true
  range := .ascending
  rows := names.map fun name => row (utf8 "a") name 1 0
  distinct := distinct
  counts := fun key => if key.name = utf8 "p" then p else q

def bothEngines (p q : Nat) : Tick Unit ℚ :=
  churnTick [utf8 "p", utf8 "q"] (by decide +kernel) p q

def singleEngine (p q : Nat) : Tick Unit ℚ :=
  churnTick [utf8 "p"] (by decide +kernel) p q

theorem grows_churnTick {names names' : List GoString} {d d'} {p q p' q' : Nat} (hp : p ≤ p') (hq : q ≤ q') :
    Grows (churnTick names d p q) (churnTick names' d' p' q') := by
  intro k
  simp only [churnTick]
  split
  case isTrue => exact hp
  case isFalse => exact hq

theorem no_phantom_activity_growing :
    (bothEngines 10 5).observes churned = true ∧
      totalAdded (fun _ => []) churned {} [bothEngines 10 5, bothEngines 12 5, singleEngine 12 5] = 2 ∧
      totalAdded (fun _ => []) churned {} [bothEngines 10 5, bothEngines 12 5, singleEngine 12 5] ≤
        growth ((bothEngines 10 5).attributed churned) (bothEngines 10 5) (singleEngine 12 5) := by
  have ho : (bothEngines 10 5).observes churned = true := by decide +kernel
  have ho' : (bothEngines 12 5).observes churned = true := by decide +kernel
  refine ⟨ho, by decide +kernel, ?_⟩
  refine (no_phantom_activity (fun _ => []) churned [] (bothEngines 10 5) nofun ho).1
    [bothEngines 12 5, singleEngine 12 5] _ ?_ (by decide +kernel) ?_
  case refine_1 =>
    have h : Grows (bothEngines 10 5) (bothEngines 12 5) := grows_churnTick (by decide) le_rfl
    have h' : Grows (bothEngines 10 5) (singleEngine 12 5) := grows_churnTick (by decide) le_rfl
    have h'' : Grows (bothEngines 12 5) (singleEngine 12 5) := grows_churnTick le_rfl le_rfl
    simp [h, h', h'']
  case refine_2 =>
    simp only [Covered, Tick.next_of_observes ho, Tick.next_of_observes ho', Option.mem_def, Option.some_inj,
      forall_eq', Tick.fits, Tick.Covers]
    decide +kernel

-- An engine that leaves and comes back is counted anew, although no one has queried anything.
theorem returning_engine_is_phantom :
    [bothEngines 10 5, singleEngine 10 5, bothEngines 10 5].Pairwise Grows ∧
      (∀ R, growth R (bothEngines 10 5) (bothEngines 10 5) = 0) ∧
      totalAdded (fun _ => []) churned {} [bothEngines 10 5, singleEngine 10 5, bothEngines 10 5] = 5 := by
  refine ⟨?_, fun R => Finset.sum_eq_zero fun _ _ => sub_self _, by decide +kernel⟩
  have h : Grows (bothEngines 10 5) (bothEngines 10 5) := grows_churnTick le_rfl le_rfl
  have h' : Grows (bothEngines 10 5) (singleEngine 10 5) := grows_churnTick le_rfl le_rfl
  have h'' : Grows (singleEngine 10 5) (bothEngines 10 5) := grows_churnTick le_rfl le_rfl
  simp [h, h', h'']

end Growth

end InferenceCache.Controller
