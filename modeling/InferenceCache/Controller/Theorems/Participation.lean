import InferenceCache.Controller.Poller

namespace InferenceCache.Controller

open Kube Webhook EngineBinding

section Attribution

variable {S F : Type}

def podOf (r : ReplicaSnapshot F) : ObjectKey :=
  ⟨r.tenant, r.replicaID⟩

def isAddressed (r : ReplicaSnapshot F) : Bool :=
  r.tenant ≠ [] ∧ r.replicaID ≠ []

def podOwner (items : List (Participant S)) (get : ObjectKey → Except ApiError PodObject) (key : ObjectKey) :
    Option ObjectKey :=
  match get key with
  | .ok pod  => attributePod pod (backendsByNS items key.inNamespace) items
  | .error _ => none

def isUnreadable (get : ObjectKey → Except ApiError PodObject) (key : ObjectKey) : Bool :=
  match get key with
  | .ok _ => false
  | .error (.notFound _) => false
  | .error _ => true

variable (items : List (Participant S)) (get : ObjectKey → Except ApiError PodObject)

def attributedTo (r : ReplicaSnapshot F) : Option ObjectKey :=
  if isAddressed r then podOwner items get (podOf r) else none

def unreadableNamespaces (rows : List (ReplicaSnapshot F)) : Finset GoString :=
  ((rows.filter fun r => isAddressed r ∧ isUnreadable get (podOf r)).map (·.tenant)).toFinset

def aggOf (rows : List (ReplicaSnapshot F)) (key : ObjectKey) : Agg :=
  (rows.filter fun r => attributedTo items get r = some key).foldl Agg.add {}

end Attribution

section Owner

variable {S F : Type} {items items' : List (Participant S)} {get : ObjectKey → Except ApiError PodObject}
variable {pod : PodObject} {key : ObjectKey} {r : ReplicaSnapshot F} {ns : GoString}

theorem mem_backendsByNS {cb : Participant S} :
    cb ∈ backendsByNS items ns ↔ cb ∈ items ∧ cb.spec.matchLabels.len ≠ 0 ∧ cb.key.inNamespace = ns := by
  simp [backendsByNS, sortSlice_perm.mem_iff]

theorem attributePod_eq_some (h : attributePod pod (backendsByNS items pod.key.inNamespace) items = some key) :
    key ∈ items.map (·.key) ∧ key.inNamespace = pod.key.inNamespace := by
  have hs : ((backendsByNS items pod.key.inNamespace).find? fun cb =>
        matchLabelsSelects cb.spec.matchLabels pod.labels).map (·.key) = some key →
      key ∈ items.map (·.key) ∧ key.inNamespace = pod.key.inNamespace := by
    intro h
    have ⟨cb, hf, hk⟩ := Option.map_eq_some_iff.mp h
    have ⟨hm, _, hns⟩ := mem_backendsByNS.mp (List.mem_of_find?_eq_some hf)
    exact hk ▸ ⟨List.mem_map_of_mem hm, hns⟩
  simp only [attributePod] at h
  split at h
  case h_1 => exact hs h
  case h_2 =>
    split at h
    case isFalse => exact hs h
    case isTrue hn =>
      split at h
      case isFalse => cases h
      case isTrue hm =>
        cases h
        exact ⟨hm, hn⟩

theorem Pods.key_of_get {pods : Pods} {fails : ObjectKey → Option GoString} (h : pods.get fails key = .ok pod) :
    pod ∈ pods.items ∧ pod.key = key := by
  simp only [Pods.get] at h
  split at h
  case h_1 => cases h
  case h_2 =>
    split at h
    case h_2 => cases h
    case h_1 hf =>
      cases h
      exact ⟨List.mem_of_find?_eq_some hf, by simpa using List.find?_some hf⟩

theorem podOwner_eq_some (hg : ∀ key pod, get key = .ok pod → pod.key = key)
    (h : podOwner items get podKey = some key) : key ∈ items.map (·.key) ∧ key.inNamespace = podKey.inNamespace := by
  simp only [podOwner] at h
  split at h
  case h_2 => cases h
  case h_1 hok =>
    have hk := hg _ _ hok
    rw [← hk] at h ⊢
    exact attributePod_eq_some h

theorem attributedTo_eq_some (hg : ∀ key pod, get key = .ok pod → pod.key = key)
    (h : attributedTo items get r = some key) : key ∈ items.map (·.key) ∧ key.inNamespace = r.tenant := by
  simp only [attributedTo] at h
  split at h
  case isTrue => exact podOwner_eq_some hg h
  case isFalse => cases h

theorem exists_pod_of_attributedTo (h : attributedTo items get r = some key) : ∃ pod, get (podOf r) = .ok pod := by
  simp only [attributedTo, podOwner] at h
  split at h
  case isFalse => cases h
  case isTrue =>
    split at h
    case h_1 pod hok => exact ⟨pod, hok⟩
    case h_2 => cases h

end Owner

section Visit

variable {S F : Type} {items : List (Participant S)} {get : ObjectKey → Except ApiError PodObject}
variable {rows : List (ReplicaSnapshot F)} {r : ReplicaSnapshot F} {t : Attribution} {key : ObjectKey}

-- What the loop over the rows knows after some of them. Nothing is known of the backends in a namespace
-- in which a read has failed.
structure Attributed (items : List (Participant S)) (get : ObjectKey → Except ApiError PodObject)
    (rows : List (ReplicaSnapshot F)) (t : Attribution) : Prop where
  keys    : ∀ key, (t.perBackend.lookup key).isSome ↔ key ∈ items.map (·.key)
  cached  : ∀ key o, t.podAttrs.lookup key = some o → o = podOwner items get key ∧ isUnreadable get key = false
  tainted : t.taintedNamespaces = unreadableNamespaces get rows
  counted : ∀ key ∈ items.map (·.key), key.inNamespace ∉ t.taintedNamespaces →
    t.perBackend.lookup key = some (aggOf items get rows key)

theorem lookup_start : (Attribution.start items).perBackend.lookup key =
    if key ∈ items.map (·.key) then some {} else none := by
  have h (m : GoMap ObjectKey Agg) : (items.foldl (fun m cb => m.insert cb.key ({} : Agg)) m).lookup key =
      if key ∈ items.map (·.key) then some {} else m.lookup key := by
    induction items generalizing m
    case nil => simp
    case cons cb items hi =>
      rw [List.foldl_cons, hi, Finmap.lookup_insert_ite]
      by_cases hk : key = cb.key <;> simp [hk]
  exact h ∅

theorem Attributed.start : Attributed items get ([] : List (ReplicaSnapshot F)) (.start items) where
  keys := fun key => by rw [lookup_start]; split <;> simp_all
  cached := fun key o h => nomatch h
  tainted := rfl
  counted := fun key hm _ => by rw [lookup_start, if_pos hm]; rfl

theorem unreadableNamespaces_concat : unreadableNamespaces get (rows ++ [r]) =
    if isAddressed r ∧ isUnreadable get (podOf r) then insert r.tenant (unreadableNamespaces get rows)
    else unreadableNamespaces get rows := by
  simp only [unreadableNamespaces, List.filter_append, List.map_append, List.toFinset_append]
  by_cases h : isAddressed r = true ∧ isUnreadable get (podOf r) = true
  case pos =>
    rw [if_pos h, List.filter_cons_of_pos (by simpa using h)]
    exact Finset.union_comm _ _
  case neg =>
    rw [if_neg h, List.filter_cons_of_neg (by simpa using h)]
    exact Finset.union_empty _

theorem aggOf_concat : aggOf items get (rows ++ [r]) key =
    if attributedTo items get r = some key then (aggOf items get rows key).add r else aggOf items get rows key := by
  simp only [aggOf, List.filter_append, List.foldl_append]
  by_cases h : attributedTo items get r = some key
  case pos => simp [h]
  case neg => simp [h]

theorem Attributed.skip (h : Attributed items get rows t)
    (hu : isAddressed r = true → isUnreadable get (podOf r) = true → r.tenant ∈ t.taintedNamespaces)
    (ho : ∀ key, attributedTo items get r = some key → key.inNamespace ∈ t.taintedNamespaces) :
    Attributed items get (rows ++ [r]) t where
  keys := h.keys
  cached := h.cached
  tainted := by
    rw [unreadableNamespaces_concat]
    split
    case isTrue hr => rw [← h.tainted, Finset.insert_eq_of_mem (hu hr.1 hr.2)]
    case isFalse => exact h.tainted
  counted := fun key hm hn => by
    rw [aggOf_concat, if_neg fun he => hn (ho key he), h.counted key hm hn]

theorem Attributed.credit (h : Attributed items get rows t) (hg : ∀ key pod, get key = .ok pod → pod.key = key)
    (hu : isUnreadable get (podOf r) = false) (ha : isAddressed r = true) :
    Attributed items get (rows ++ [r]) (t.credit (podOwner items get (podOf r)) r) := by
  have hat : attributedTo items get r = podOwner items get (podOf r) := if_pos ha
  cases ho : podOwner items get (podOf r)
  case none => exact h.skip (by simp [hu]) (by simp [hat, ho])
  case some o =>
    have hm := (podOwner_eq_some hg ho).1
    exact {
      keys := fun key => by
        by_cases hk : key = o
        case pos =>
          subst hk
          simpa [Attribution.credit] using List.mem_map.mp hm
        case neg => rw [← h.keys key, Attribution.credit, Finmap.lookup_insert_of_ne _ hk]
      cached := h.cached
      tainted := by rw [unreadableNamespaces_concat, if_neg (by simp [hu])]; exact h.tainted
      counted := fun key hm hn => by
        rw [aggOf_concat, hat, ho]
        by_cases hk : key = o
        case pos =>
          subst hk
          simp [Attribution.credit, h.counted key hm hn]
        case neg =>
          rw [if_neg (by simpa using Ne.symm hk), Attribution.credit, Finmap.lookup_insert_of_ne _ hk]
          exact h.counted key hm hn }

theorem Attributed.cache (h : Attributed items get rows t) (hu : isUnreadable get key = false) :
    Attributed items get rows { t with podAttrs := t.podAttrs.insert key (podOwner items get key) } where
  keys := h.keys
  tainted := h.tainted
  counted := h.counted
  cached := fun key' o ho => by
    by_cases hk : key' = key
    case pos =>
      subst hk
      rw [Finmap.lookup_insert] at ho
      exact ⟨(Option.some.inj ho).symm, hu⟩
    case neg =>
      rw [Finmap.lookup_insert_of_ne _ hk] at ho
      exact h.cached key' o ho

theorem Attributed.taint (h : Attributed items get rows t) (ha : isAddressed r = true)
    (hu : isUnreadable get (podOf r) = true) : Attributed items get (rows ++ [r])
      { t with taintedNamespaces := insert r.tenant t.taintedNamespaces } where
  keys := h.keys
  cached := h.cached
  tainted := by rw [unreadableNamespaces_concat, if_pos ⟨ha, hu⟩, h.tainted]
  counted := fun key hm hn => by
    have hat : attributedTo items get r = none := by
      rw [attributedTo, if_pos ha, podOwner]
      simp only [isUnreadable] at hu
      split at hu <;> simp_all
    rw [aggOf_concat, hat, if_neg (by simp)]
    exact h.counted key hm fun hk => hn (Finset.mem_insert_of_mem hk)

theorem Attributed.visit (h : Attributed items get rows t) (hg : ∀ key pod, get key = .ok pod → pod.key = key) :
    Attributed items get (rows ++ [r]) (t.visit items get r) := by
  simp only [Attribution.visit]
  split
  case isTrue ha =>
    have ha : isAddressed r = false := by simpa [isAddressed, ← or_iff_not_imp_left] using ha
    exact h.skip (by simp [ha]) (by simp [attributedTo, ha])
  case isFalse ha =>
    have ha : isAddressed r = true := by simpa [isAddressed] using ha
    split
    case isTrue ht =>
      exact h.skip (fun _ _ => ht) fun key hk => (attributedTo_eq_some hg hk).2 ▸ ht
    case isFalse ht =>
      split
      case h_1 o hc =>
        have ⟨ho, hu⟩ := h.cached _ o hc
        exact ho ▸ h.credit hg hu ha
      case h_2 hc =>
        split
        case h_1 hget =>
          have hu : isUnreadable get (podOf r) = false := by simp [isUnreadable, podOf, hget]
          have ho : podOwner items get (podOf r) = none := by simp [podOwner, podOf, hget]
          have hcache := h.cache hu
          rw [ho] at hcache
          exact hcache.skip (by simp [hu]) (by simp [attributedTo, ha, ho])
        case h_2 err hne hget =>
          refine h.taint ha ?_
          cases err
          case notFound name => exact absurd rfl (hne name)
          case alreadyExists => simp [isUnreadable, podOf, hget]
          case other => simp [isUnreadable, podOf, hget]
        case h_3 pod hget =>
          have hu : isUnreadable get (podOf r) = false := by simp [isUnreadable, podOf, hget]
          have ho : podOwner items get (podOf r) = attributePod pod (backendsByNS items r.tenant) items := by
            simp [podOwner, podOf, hget]
          exact ho ▸ (h.cache hu).credit hg hu ha

theorem attributed_rows (items : List (Participant S)) (hg : ∀ key pod, get key = .ok pod → pod.key = key)
    (rows : List (ReplicaSnapshot F)) :
    Attributed items get rows (rows.foldl (Attribution.visit items get) (.start items)) := by
  induction rows using List.reverseRecOn
  case nil => exact .start
  case append_singleton rows r hi =>
    rw [List.foldl_concat]
    exact hi.visit hg

end Visit

section Projection

variable {S F : Type} [GoFloat F] {format : F → GoString} {backends backends' : Backends S}
variable {get : ObjectKey → Except ApiError PodObject} {patch : ObjectKey → Bool} {range range' : RangeOrder ObjectKey}
variable {m : Metrics F} {snap snap' : Snapshot F} {p : Projection F} {cb cb' : Participant S} {a a' : Agg}
variable {tainted : Finset GoString} {key key' : ObjectKey}

-- A tick, without the maps it goes through: every backend is projected from the rows that are attributed
-- to it.
def projectAll (format : F → GoString) (backends : Backends S) (get : ObjectKey → Except ApiError PodObject)
    (patch : ObjectKey → Bool) (m : Metrics F) (rows : List (ReplicaSnapshot F)) : Projection F :=
  backends.items.foldl (fun p cb =>
    p.publish format (unreadableNamespaces get rows) patch cb (aggOf backends.items get rows cb.key)) { metrics := m }

theorem fullName_inj (h : 0x2f ∉ key.inNamespace) (h' : 0x2f ∉ key'.inNamespace) (he : fullName key = fullName key') :
    key = key' := by
  simp only [fullName, GoString.utf8_slash, List.append_assoc, List.singleton_append] at he
  have hc : some (key.inNamespace, key.name) = some (key'.inNamespace, key'.name) := by
    rw [← GoString.cut_append h, ← GoString.cut_append h', he]
  rw [Option.some_inj, Prod.mk.injEq] at hc
  have ⟨_, _⟩ := key
  have ⟨_, _⟩ := key'
  exact congrArg₂ _ hc.1 hc.2

section Publish

@[simp]
theorem exercise_written : (p.exercise key a).written = p.written := by
  simp only [Projection.exercise]
  split <;> rfl

theorem Metrics.exercise_delta_of_ne (hk : key' ≠ key) :
    ((m.exercise key a).2.exercise key' a').1 = (m.exercise key' a').1 := by
  simp only [Metrics.exercise, Metrics.t2QueryDelta, Metrics.addQueryTokens, Finmap.lookup_insert_of_ne _ hk]

theorem Metrics.exercise_comm (hk : key ≠ key') (hl : fullName key ≠ fullName key') :
    ((m.exercise key a).2.exercise key' a').2 = ((m.exercise key' a').2.exercise key a).2 := by
  simp only [Metrics.exercise, Metrics.t2QueryDelta, Metrics.addQueryTokens, Finmap.count]
  ext1
  case backendT2HitRate => exact Finmap.insert_insert_of_ne _ hl
  case backendT2QueryTokensTotal =>
    simp only [Finmap.lookup_insert_of_ne _ hl, Finmap.lookup_insert_of_ne _ hl.symm, Finmap.lookup_insert_of_ne _ hk,
      Finmap.lookup_insert_of_ne _ hk.symm]
    exact Finmap.insert_insert_of_ne _ hl
  case lastT2QueryTokens => exact Finmap.insert_insert_of_ne _ hk
  case t2SeriesTracked => rfl

theorem Projection.exercise_comm (hk : key ≠ key') (hl : fullName key ≠ fullName key') :
    (p.exercise key a).exercise key' a' = (p.exercise key' a').exercise key a := by
  simp only [Projection.exercise]
  split <;> split <;> try rfl
  ext1
  case written => rfl
  case metrics => exact Metrics.exercise_comm hk hl
  case exercised => exact Finset.insert_comm _ _ _
  case added =>
    simp only [Metrics.exercise_delta_of_ne hk, Metrics.exercise_delta_of_ne hk.symm]
    exact Finmap.insert_insert_of_ne _ hk

def Projection.write (p : Projection F) (key : ObjectKey) (desired : CacheBackendIndexParticipation) : Projection F :=
  { p with written := p.written.insert key desired }

theorem Projection.exercise_write {d : CacheBackendIndexParticipation} :
    (p.write key d).exercise key' a = (p.exercise key' a).write key d := by
  simp only [Projection.exercise, Projection.write]
  split <;> rfl

theorem Projection.write_comm {d d' : CacheBackendIndexParticipation} (hk : key ≠ key') :
    (p.write key d).write key' d' = (p.write key' d').write key d := by
  simp only [Projection.write, Finmap.insert_insert_of_ne _ hk]

theorem Projection.publish_eq : p.publish format tainted patch cb a =
    if cb.key.inNamespace ∈ tainted then p
    else if isPublished cb (a.desired format) ∧ patch cb.key then
      (p.exercise cb.key a).write cb.key (a.desired format).stored
    else p.exercise cb.key a :=
  rfl

-- Two backends do not get in each other's way.
theorem Projection.publish_comm (hk : cb.key ≠ cb'.key) (hl : fullName cb.key ≠ fullName cb'.key) :
    (p.publish format tainted patch cb a).publish format tainted patch cb' a' =
      (p.publish format tainted patch cb' a').publish format tainted patch cb a := by
  by_cases ht : cb.key.inNamespace ∈ tainted
  case pos => simp only [publish_eq, if_pos ht]
  case neg =>
    by_cases ht' : cb'.key.inNamespace ∈ tainted
    case pos => simp only [publish_eq, if_pos ht']
    case neg =>
      by_cases hw : isPublished cb (a.desired format) = true ∧ patch cb.key = true <;>
      by_cases hw' : isPublished cb' (a'.desired format) = true ∧ patch cb'.key = true <;>
      simp only [publish_eq, if_neg ht, if_neg ht', hw, hw', and_self, if_true, if_false, exercise_write,
        exercise_comm hk hl, write_comm hk]

theorem Backends.publish_comm {x y : Participant S} (hx : x ∈ backends.items) (hy : y ∈ backends.items)
    (agg : Participant S → Agg) :
    (p.publish format tainted patch x (agg x)).publish format tainted patch y (agg y) =
      (p.publish format tainted patch y (agg y)).publish format tainted patch x (agg x) := by
  by_cases hk : x.key = y.key
  case pos => rw [List.inj_on_of_nodup_map backends.nodup hx hy hk]
  case neg =>
    refine Projection.publish_comm hk fun hl => hk ?_
    exact fullName_inj (backends.inNamespace x hx) (backends.inNamespace y hy) hl

end Publish

theorem Backends.find?_key (h : cb ∈ backends.items) : backends.items.find? (·.key = cb.key) = some cb := by
  cases hf : backends.items.find? (·.key = cb.key)
  case none => exact absurd (List.find?_eq_none.mp hf cb h) (by simp)
  case some cb' =>
    have hk : cb'.key = cb.key := by simpa using List.find?_some hf
    rw [List.inj_on_of_nodup_map backends.nodup (List.mem_of_find?_eq_some hf) h hk]

-- The entries of the map are the backends with what has been counted for them.
omit [GoFloat F] in
theorem Attributed.perm_range {t : Attribution} {rows : List (ReplicaSnapshot F)}
    (h : Attributed backends.items get rows t) (range : RangeOrder ObjectKey) :
    (range.range t.perBackend).Perm
      (backends.items.map fun cb => (cb.key, (t.perBackend.lookup cb.key).getD {})) := by
  have hn : (backends.items.map fun cb => (cb.key, (t.perBackend.lookup cb.key).getD {})).Nodup := by
    refine List.Nodup.of_map Prod.fst ?_
    rw [List.map_map]
    exact backends.nodup
  refine (List.perm_ext_iff_of_nodup RangeOrder.range_nodup hn).mpr fun ⟨key, a⟩ => ?_
  rw [RangeOrder.mem_range, List.mem_map]
  constructor
  case mp =>
    intro hl
    have ⟨cb, hm, hk⟩ := List.mem_map.mp <| (h.keys key).mp (Option.isSome_of_eq_some hl)
    subst hk
    exact ⟨cb, hm, Prod.ext rfl (by rw [hl, Option.getD_some])⟩
  case mpr =>
    rintro ⟨cb, hm, he⟩
    cases he
    have ⟨a, ha⟩ := Option.isSome_iff_exists.mp <| (h.keys cb.key).mpr (List.mem_map_of_mem hm)
    simp [ha]

theorem Attributed.publish {t : Attribution} {rows : List (ReplicaSnapshot F)}
    (h : Attributed backends.items get rows t) :
    t.publish format backends patch range m = projectAll format backends get patch m rows := by
  rw [Attribution.publish, ← (h.perm_range range).symm.foldl_eq', List.foldl_map, projectAll]
  case comm =>
    intro x hx y hy p
    have ⟨cb, hm, he⟩ := List.mem_map.mp hx
    have ⟨cb', hm', he'⟩ := List.mem_map.mp hy
    subst he he'
    simp only [Backends.find?_key hm, Backends.find?_key hm']
    exact Backends.publish_comm hm hm' fun cb => (t.perBackend.lookup cb.key).getD {}
  refine List.foldl_ext _ _ _ fun p cb hm => ?_
  rw [Backends.find?_key hm, ← h.tainted]
  by_cases ht : cb.key.inNamespace ∈ t.taintedNamespaces
  case pos => simp only [Projection.publish_eq, if_pos ht]
  case neg => rw [h.counted cb.key (List.mem_map_of_mem hm) ht, Option.getD_some]

def Projection.prune (p : Projection F) (present : Finset ObjectKey) (tainted : Finset GoString) : Projection F :=
  { p with metrics := p.metrics.reconcileBackendT2HitRateSeries p.exercised present tainted }

-- If there is no backend, all series are stale whatever else holds.
theorem refreshCacheBackendParticipation_eq (hg : ∀ key pod, get key = .ok pod → pod.key = key) :
    refreshCacheBackendParticipation format backends get patch range m snap =
      (projectAll format backends get patch m snap.replicas).prune (backends.items.map (·.key)).toFinset
        (unreadableNamespaces get snap.replicas) := by
  have ha := attributed_rows backends.items hg snap.replicas
  simp only [refreshCacheBackendParticipation, Projection.prune]
  split
  case isTrue he => simp [projectAll, he, Metrics.reconcileBackendT2HitRateSeries, Metrics.isStale]
  case isFalse he => rw [ha.publish, ha.tainted]

end Projection

section Order

variable {S F : Type} {backends backends' : Backends S} {pods pods' : Pods} {fails : ObjectKey → Option GoString}
variable {get : ObjectKey → Except ApiError PodObject} {rows rows' : List (ReplicaSnapshot F)} {key : ObjectKey}

theorem Pods.find?_perm (hp : pods.items.Perm pods'.items) :
    pods.items.find? (·.key = key) = pods'.items.find? (·.key = key) := by
  cases hf : pods'.items.find? (·.key = key)
  case none =>
    rw [List.find?_eq_none] at hf ⊢
    exact fun pod hm => hf pod (hp.mem_iff.mp hm)
  case some pod =>
    have hk : pod.key = key := by simpa using List.find?_some hf
    have hm := hp.mem_iff.mpr (List.mem_of_find?_eq_some hf)
    cases hf' : pods.items.find? (·.key = key)
    case none => exact absurd (List.find?_eq_none.mp hf' pod hm) (by simp [hk])
    case some pod' =>
      have hk' : pod'.key = key := by simpa using List.find?_some hf'
      rw [List.inj_on_of_nodup_map pods.nodup (List.mem_of_find?_eq_some hf') hm (hk'.trans hk.symm)]

theorem Pods.get_perm (hp : pods.items.Perm pods'.items) : pods.get fails = pods'.get fails := by
  funext key
  simp only [Pods.get, Pods.find?_perm hp]

theorem Backends.backendsByNS_perm (hp : backends.items.Perm backends'.items) (ns : GoString) :
    backendsByNS backends.items ns = backendsByNS backends'.items ns := by
  have hc : ComparesBy (fun a b : Participant S => a.key.name < b.key.name) fun cb => cb.key.name :=
    fun a b => decide_eq_true_iff
  refine hc.sortSlice_eq_of_perm ?_ (hp.filter _)
  refine (backends.nodup.of_map _ |>.filter _).map_on fun a ha b hb he => ?_
  simp only [List.mem_filter, decide_eq_true_eq] at ha hb
  refine List.inj_on_of_nodup_map backends.nodup ha.1 hb.1 ?_
  have hn : a.key.inNamespace = b.key.inNamespace := ha.2.2.trans hb.2.2.symm
  cases ha : a.key
  cases hb : b.key
  simp_all

theorem Backends.attributedTo_perm (hp : backends.items.Perm backends'.items) :
    (attributedTo backends.items get : ReplicaSnapshot F → _) = attributedTo backends'.items get := by
  funext r
  simp only [attributedTo, podOwner, attributePod, Backends.backendsByNS_perm hp, (hp.map (·.key)).mem_iff]

theorem Agg.add_comm (a : Agg) (r r' : ReplicaSnapshot F) : (a.add r).add r' = (a.add r').add r := by
  have ha (x y z : Int64) : x + y + z = x + z + y := by
    rw [Int64.add_assoc, Int64.add_comm y z, Int64.add_assoc]
  have ht (t u v : Int) : (if (if t < u then u else t) < v then v else if t < u then u else t) =
      if (if t < v then v else t) < u then u else if t < v then v else t := by
    split_ifs <;> omega
  simp only [Agg.add, ha _ (Int64.ofInt r.prefixCount), ha _ (Int64.ofInt r.t2HitTokens),
    ha _ (Int64.ofInt r.t2QueryTokens)]
  congr 1
  exact ht a.lastEventAt r.lastEventAt r'.lastEventAt

theorem aggOf_perm (hp : backends.items.Perm backends'.items) (hr : rows.Perm rows') :
    aggOf backends.items get rows key = aggOf backends'.items get rows' key := by
  simp only [aggOf, Backends.attributedTo_perm hp]
  exact (hr.filter _).foldl_eq' (fun r _ r' _ a => Agg.add_comm a r r') _

theorem unreadableNamespaces_perm (hr : rows.Perm rows') :
    unreadableNamespaces get rows = unreadableNamespaces get rows' :=
  List.toFinset_eq_of_perm _ _ ((hr.filter _).map _)

theorem projectAll_perm [GoFloat F] {format : F → GoString} {patch : ObjectKey → Bool} {m : Metrics F}
    (hp : backends.items.Perm backends'.items) (hr : rows.Perm rows') :
    projectAll format backends get patch m rows = projectAll format backends' get patch m rows' := by
  simp only [projectAll, unreadableNamespaces_perm hr, aggOf_perm hp hr]
  exact hp.foldl_eq' (fun x hx y hy p => Backends.publish_comm hx hy fun cb => aggOf backends'.items get rows' cb.key) _

end Order

section Written

variable {S F : Type} [GoFloat F] {format : F → GoString} {backends : Backends S} {m : Metrics F}
variable {get : ObjectKey → Except ApiError PodObject} {patch : ObjectKey → Bool} {p : Projection F}
variable {rows : List (ReplicaSnapshot F)} {cb : Participant S} {key : ObjectKey} {agg : ObjectKey → Agg}
variable {tainted : Finset GoString} {a : Agg}

def written (format : F → GoString) (tainted : Finset GoString) (patch : ObjectKey → Bool) (cb : Participant S)
    (a : Agg) : Option CacheBackendIndexParticipation :=
  if cb.key.inNamespace ∉ tainted ∧ isPublished cb (a.desired format) ∧ patch cb.key then
    some (a.desired format).stored
  else none

theorem lookup_written_publish : (p.publish format tainted patch cb a).written.lookup key =
    if key = cb.key then (written format tainted patch cb a).or (p.written.lookup key) else p.written.lookup key := by
  simp only [Projection.publish_eq, written]
  by_cases ht : cb.key.inNamespace ∈ tainted
  case pos => simp [ht]
  case neg =>
    by_cases hw : isPublished cb (a.desired format) = true ∧ patch cb.key = true
    case pos => simp [ht, hw, Projection.write, Finmap.lookup_insert_ite]
    case neg => simp [ht, hw]

theorem lookup_written_of_notMem {l : List (Participant S)} (hm : key ∉ l.map (·.key)) :
    (l.foldl (fun p cb => p.publish format tainted patch cb (agg cb.key)) p).written.lookup key =
      p.written.lookup key := by
  induction l generalizing p
  case nil => rfl
  case cons cb l hi =>
    rw [List.map_cons, List.mem_cons, not_or] at hm
    rw [List.foldl_cons, hi hm.2, lookup_written_publish, if_neg hm.1]

theorem lookup_written_foldl (agg : ObjectKey → Agg) {l : List (Participant S)} (hn : (l.map (·.key)).Nodup)
    (hm : cb ∈ l) :
    (l.foldl (fun p cb => p.publish format tainted patch cb (agg cb.key)) p).written.lookup cb.key =
      (written format tainted patch cb (agg cb.key)).or (p.written.lookup cb.key) := by
  induction l generalizing p
  case nil => cases hm
  case cons x l hi =>
    have ⟨hx, hn⟩ := List.nodup_cons.mp hn
    rw [List.foldl_cons]
    cases hm
    case head => rw [lookup_written_of_notMem hx, lookup_written_publish, if_pos rfl]
    case tail hm =>
      have hk : cb.key ≠ x.key := fun he => hx (List.mem_map.mpr ⟨cb, hm, he⟩)
      rw [hi hn hm, lookup_written_publish, if_neg hk]

omit [GoFloat F] in
-- A field of the aggregate to which a number of each row is added.
theorem foldl_add_eq (field : Agg → Int64) (number : ReplicaSnapshot F → Int)
    (h : ∀ a r, field (a.add r) = field a + Int64.ofInt (number r)) {l : List (ReplicaSnapshot F)} :
    field (l.foldl Agg.add a) = field a + Int64.ofInt (l.map number).sum := by
  induction l generalizing a
  case nil => simp
  case cons r l hi => rw [List.foldl_cons, hi, h, List.map_cons, List.sum_cons, Int64.ofInt_add, ← Int64.add_assoc]

omit [GoFloat F] in
theorem prefixCount_aggOf (items : List (Participant S)) : (aggOf items get rows key).prefixCount =
    Int64.ofInt ((rows.filter fun r => attributedTo items get r = some key).map (·.prefixCount)).sum := by
  rw [aggOf, foldl_add_eq Agg.prefixCount ReplicaSnapshot.prefixCount fun _ _ => rfl]
  exact Int64.zero_add _

-- A status that is there after the tick has the projected count, whether it was written or not.
theorem prefixCount_of_after {P : CacheBackendIndexParticipation} (ht : cb.key.inNamespace ∉ tainted)
    (hp : patch cb.key = true) (h : (written format tainted patch cb a).or cb.participation = some P) :
    P.prefixCount = a.prefixCount := by
  simp only [written, ht, hp, not_false_eq_true, and_true, true_and] at h
  split at h
  case isTrue =>
    cases h
    rfl
  case isFalse hw =>
    rw [Option.none_or] at h
    have he : P = a.desired format := by simpa [isPublished, h] using hw
    rw [he]
    rfl

end Written

section Participation

variable {S F : Type} [GoFloat F]

-- Each row is attributed to one backend at most, in the namespace of its Pod. The counts that stand in the
-- status of a backend after a tick are those of its rows, unless a read has failed, which leaves the status
-- alone. None of this depends on the order of the lists.
theorem participation_is_a_function (format : F → GoString) (backends : Backends S) (pods : Pods)
    (fails : ObjectKey → Option GoString) (patch : ObjectKey → Bool) (range : RangeOrder ObjectKey) (m : Metrics F)
    (snap : Snapshot F) :
    let get := pods.get fails
    let p := refreshCacheBackendParticipation format backends get patch range m snap
    let failed (ns : GoString) := ∃ r ∈ snap.replicas, r.tenant = ns ∧ r.tenant ≠ [] ∧ r.replicaID ≠ [] ∧
      (fails ⟨r.tenant, r.replicaID⟩).isSome
    (∀ r ∈ snap.replicas, ∀ key, attributedTo backends.items get r = some key →
      key ∈ backends.items.map (·.key) ∧
      ∃ pod ∈ pods.items, pod.key = ⟨r.tenant, r.replicaID⟩ ∧ key.inNamespace = pod.key.inNamespace) ∧
    (∀ cb ∈ backends.items, ∀ P, p.after cb = some P → ¬failed cb.key.inNamespace → patch cb.key = true →
      P.prefixCount = Int64.ofInt
        ((snap.replicas.filter fun r => attributedTo backends.items get r = some cb.key).map (·.prefixCount)).sum) ∧
    (∀ cb ∈ backends.items, failed cb.key.inNamespace → p.after cb = cb.participation) ∧
    ∀ (backends' : Backends S) (pods' : Pods) (range' : RangeOrder ObjectKey) (snap' : Snapshot F),
      backends.items.Perm backends'.items → pods.items.Perm pods'.items → snap.replicas.Perm snap'.replicas →
      refreshCacheBackendParticipation format backends' (pods'.get fails) patch range' m snap' = p := by
  have hg : ∀ key pod, pods.get fails key = .ok pod → pod.key = key := fun _ _ h => (Pods.key_of_get h).2
  have hu (key : ObjectKey) : isUnreadable (pods.get fails) key = (fails key).isSome := by
    simp only [isUnreadable, Pods.get]
    cases fails key
    case some => rfl
    case none => cases pods.items.find? (·.key = key) <;> rfl
  have hf (ns : GoString) : (∃ r ∈ snap.replicas, r.tenant = ns ∧ r.tenant ≠ [] ∧ r.replicaID ≠ [] ∧
      (fails ⟨r.tenant, r.replicaID⟩).isSome) ↔ ns ∈ unreadableNamespaces (pods.get fails) snap.replicas := by
    simp only [unreadableNamespaces, List.mem_toFinset, List.mem_map, List.mem_filter, hu, isAddressed, podOf,
      decide_eq_true_eq]
    exact exists_congr fun r => by tauto
  have hw (cb : Participant S) (hm : cb ∈ backends.items) :
      (refreshCacheBackendParticipation format backends (pods.get fails) patch range m snap).after cb =
        (written format (unreadableNamespaces (pods.get fails) snap.replicas) patch cb
          (aggOf backends.items (pods.get fails) snap.replicas cb.key)).or cb.participation := by
    rw [refreshCacheBackendParticipation_eq hg, Projection.after]
    simp only [Projection.prune, projectAll]
    rw [lookup_written_foldl (aggOf backends.items (pods.get fails) snap.replicas) backends.nodup hm]
    simp
  refine ⟨fun r hr key h => ?_, fun cb hm P h hn hp => ?_, fun cb hm hn => ?_,
    fun backends' pods' range' snap' hb hp hr => ?_⟩
  case refine_1 =>
    have ⟨hk, hns⟩ := attributedTo_eq_some hg h
    have ⟨pod, hpod⟩ := exists_pod_of_attributedTo h
    have ⟨hmem, hkey⟩ := Pods.key_of_get hpod
    exact ⟨hk, pod, hmem, hkey, by rw [hns, hkey]; rfl⟩
  case refine_2 =>
    rw [hw cb hm] at h
    rw [prefixCount_of_after (mt (hf _).mpr hn) hp h, prefixCount_aggOf]
  case refine_3 =>
    rw [hw cb hm, written, if_neg fun h => h.1 ((hf _).mp hn), Option.none_or]
  case refine_4 =>
    rw [← Pods.get_perm hp, refreshCacheBackendParticipation_eq hg, refreshCacheBackendParticipation_eq hg,
      projectAll_perm hb hr, unreadableNamespaces_perm hr,
      List.toFinset_eq_of_perm _ _ (hb.map (·.key))]

def enginePod (ns name : GoString) (annotations : GoMap GoString GoString) : PodObject where
  key := ⟨ns, name⟩
  labels := (∅ : GoMap GoString GoString).insert (utf8 "app") (utf8 "engine")
  annotations := annotations
  controller := none
  deleting := false
  nodeName := utf8 "node"
  affinity := none
  restartPolicy := []
  schedulingGates := []
  spec := ⟨[], [], []⟩
  ephemeralContainers := []
  phase := .running
  containerStatuses := []

def row (ns name : GoString) (prefixCount t2QueryTokens : Int) : ReplicaSnapshot ℚ :=
  ⟨name, ns, 0, 0, 0, 0, prefixCount, 0, true, 0, t2QueryTokens⟩

def engineBackend (ns name : GoString) (participation : Option CacheBackendIndexParticipation) : Participant Unit where
  key := ⟨ns, name⟩
  spec := ⟨some ⟨(∅ : GoMap GoString GoString).insert (utf8 "app") (utf8 "engine")⟩, ()⟩
  participation := participation

def teams : Backends Unit where
  items       := [engineBackend (utf8 "a") (utf8 "x") none,
    engineBackend (utf8 "b") (utf8 "y") (some ⟨⟨none, none⟩, 3, none⟩)]
  nodup       := by decide +kernel
  inNamespace := by decide +kernel

def teamPods : Pods where
  items := [enginePod (utf8 "a") (utf8 "p") ∅,
    enginePod (utf8 "a") (utf8 "q") ((∅ : GoMap GoString GoString).insert annotationInjectedBy (utf8 "a/x"))]
  nodup := by decide +kernel

def unreachable (key : ObjectKey) : Option GoString :=
  if key.inNamespace = utf8 "b" then some (utf8 "timeout") else none

def teamRows : List (ReplicaSnapshot ℚ) :=
  [row (utf8 "a") (utf8 "p") 5 0, row (utf8 "b") (utf8 "r") 9 0, row (utf8 "a") (utf8 "q") 7 0]

def teamTick (rows : List (ReplicaSnapshot ℚ)) : Projection ℚ :=
  refreshCacheBackendParticipation (fun _ => []) teams (teamPods.get unreachable) (fun _ => true) .ascending {}
    ⟨rows, [], 0, 0⟩

-- One Pod by its labels, one by its annotation, and a namespace that cannot be read.
theorem participation_is_a_function_teams :
    (teamTick teamRows).after (engineBackend (utf8 "a") (utf8 "x") none) = some ⟨⟨none, none⟩, 12, none⟩ ∧
      (teamTick teamRows).after (engineBackend (utf8 "b") (utf8 "y") (some ⟨⟨none, none⟩, 3, none⟩)) =
        some ⟨⟨none, none⟩, 3, none⟩ ∧
      teamTick teamRows.reverse = teamTick teamRows := by
  have ⟨_, _, hf, hp⟩ := participation_is_a_function (fun _ => []) teams teamPods unreachable (fun _ => true)
    .ascending {} ⟨teamRows, [], 0, 0⟩
  refine ⟨by decide +kernel, ?_, ?_⟩
  case refine_1 => exact hf _ (.tail _ (.head _)) ⟨row (utf8 "b") (utf8 "r") 9 0, .tail _ (.head _), by decide +kernel⟩
  case refine_2 =>
    exact hp teams teamPods .ascending ⟨teamRows.reverse, [], 0, 0⟩ (.refl _) (.refl _) teamRows.reverse_perm.symm

end Participation

end InferenceCache.Controller
