import InferenceCache.Webhook.Handle

namespace InferenceCache.Webhook

open Kube Api Adapters EngineBinding

section Definitions

variable (h : EngineInjector) (pod : Kube.Pod)

-- The annotations that only the webhook has a say about.
def ownAnnotations : List GoString :=
  annotationInjectSkipped :: injectionMarks

-- The configuration of this backend is injected, and this is what the Pod is made to run.
structure EngineInjector.Injects (cache : Api.CacheBackend) (spec : PodSpec) : Prop where
  asked  : h.optsOut pod = false
  chosen : selectCacheBackend h.read ⟨pod.inNamespace, pod.labels⟩ = .ok (some cache)
  wired  : h.wired pod cache = .ok spec

inductive Fate : Kube.Pod → Prop
  | left {m : GoMap GoString GoString} (others : ∀ k ∉ ownAnnotations, m.lookup k = pod.annotations.lookup k)
    (unmarked : ∀ k ∈ injectionMarks, (m.lookup k).getD [] = [])
    (skipped : (m.lookup annotationInjectSkipped).getD [] ≠ [] ↔ h.optsOut pod = true) :
    Fate { pod with annotations := m }
  | injected {cache : Api.CacheBackend} {spec : PodSpec} (injects : h.Injects pod cache spec) :
    Fate (stamp cache { pod with spec := spec })

end Definitions

variable {h : EngineInjector} {pod pod' : Kube.Pod} {m : GoMap GoString GoString} {k : GoString} {reason : Reason}
variable {cache : Api.CacheBackend}

theorem lookup_unmark : (unmark m).lookup k = if k ∈ injectionMarks then none else m.lookup k := by
  simp only [unmark, injectionMarks, List.foldl_cons, List.foldl_nil, Finmap.lookup_erase_ite, List.mem_cons,
    List.not_mem_nil, or_false]
  grind

theorem skipped_notMem : annotationInjectSkipped ∉ injectionMarks := by
  decide +kernel

theorem annotationAt_stamp : annotationAt (stamp cache pod) annotationInjectedBy = backendRef cache ∧
    annotationAt (stamp cache pod) annotationInjectSkipped = [] := by
  have h₁ : annotationInjectedBy ≠ annotationInjectedByUID ∧ annotationInjectedBy ≠ annotationInjectedGeneration := by
    decide +kernel
  have h₂ := skipped_notMem
  simp only [injectionMarks, List.mem_cons, List.not_mem_nil, or_false, not_or] at h₂
  simp [annotationAt, stamp, h₁, h₂]

theorem backendRef_ne_nil : backendRef cache ≠ [] := by
  simp [backendRef]

theorem Fate.failOpen (hs : h.optsOut pod = false) (ha : (failOpen pod reason).admitted pod = some pod') :
    Fate h pod pod' := by
  unfold Webhook.failOpen at ha
  split at ha <;> cases ha
  case isTrue hn =>
    refine .left (m := pod.annotations) (fun _ _ => rfl) (fun k hk => hn k (.tail _ hk)) ?_
    rw [show (pod.annotations.lookup annotationInjectSkipped).getD [] = [] from hn _ (.head _), hs]
    simp
  case isFalse =>
    refine .left (fun k hk => ?_) (fun k hk => ?_) (by simp [hs])
    case refine_1 =>
      obtain ⟨hn, hm⟩ := not_or.mp (List.mem_cons.not.mp hk)
      simp [lookup_unmark, hn, hm]
    case refine_2 => simp [Finmap.lookup_erase_ite, lookup_unmark, hk]

theorem Fate.skipInjection (hs : h.optsOut pod = true) (ha : (skipInjection pod).admitted pod = some pod') :
    Fate h pod pod' := by
  have hr : injectSkippedReasonSkipAnnotation ≠ [] := by decide +kernel
  unfold Webhook.skipInjection at ha
  split at ha <;> cases ha
  case isTrue hn =>
    refine .left (m := pod.annotations) (fun _ _ => rfl) hn.2 ?_
    rw [show (pod.annotations.lookup annotationInjectSkipped).getD [] = _ from hn.1]
    simp [hs, hr]
  case isFalse =>
    refine .left (fun k hk => ?_) (fun k hk => ?_) (by simp [hs, hr])
    case refine_1 =>
      obtain ⟨hn, hm⟩ := not_or.mp (List.mem_cons.not.mp hk)
      simp [lookup_unmark, hn, hm]
    case refine_2 =>
      have hn : k ≠ annotationInjectSkipped := fun he => skipped_notMem (he ▸ hk)
      simp [lookup_unmark, hn, hk]

theorem Fate.handle (ha : (h.handle pod).admitted pod = some pod') : Fate h pod pod' := by
  unfold EngineInjector.handle at ha
  split at ha
  case isTrue hs => exact Fate.skipInjection hs ha
  case isFalse hs =>
    rw [Bool.not_eq_true] at hs
    split at ha
    case h_1 => exact Fate.failOpen hs ha
    case h_2 => cases ha
    case h_3 => exact Fate.failOpen hs ha
    case h_4 hc =>
      split at ha
      case h_1 => exact Fate.failOpen hs ha
      case h_2 hw =>
        cases ha
        exact .injected ⟨hs, hc, hw⟩

theorem lookup_stamp (hk : k ∉ ownAnnotations) :
    (stamp cache pod).annotations.lookup k = pod.annotations.lookup k := by
  simp only [ownAnnotations, injectionMarks, List.mem_cons, List.not_mem_nil, or_false, not_or] at hk
  simp [stamp, hk]

theorem marks_are_truthful (h : EngineInjector) (pod pod' : Kube.Pod)
    (ha : (h.handle pod).admitted pod = some pod') :
    ((∃ k ∈ injectionMarks, annotationAt pod' k ≠ []) ↔
      ∃ cache spec, h.Injects pod cache spec ∧ pod' = stamp cache { pod with spec := spec }) ∧
    ((∀ k ∈ injectionMarks, annotationAt pod' k = []) → pod' = { pod with annotations := pod'.annotations }) ∧
    (annotationAt pod' annotationInjectSkipped ≠ [] ↔ h.optsOut pod = true) ∧
    ∀ k ∉ ownAnnotations, pod'.annotations.lookup k = pod.annotations.lookup k := by
  cases Fate.handle ha
  case left m ho hu hs =>
    refine ⟨⟨?_, ?_⟩, fun _ => rfl, hs, ho⟩
    case refine_1 =>
      rintro ⟨k, hk, hm⟩
      exact absurd (hu k hk) hm
    case refine_2 =>
      rintro ⟨cache, spec, _, he⟩
      have hb := congrArg (annotationAt · annotationInjectedBy) he
      exact absurd (annotationAt_stamp.1.symm.trans (hb.symm.trans (hu _ (.head _)))) backendRef_ne_nil
  case injected cache spec hi =>
    have hb : annotationAt (stamp cache { pod with spec := spec }) annotationInjectedBy ≠ [] :=
      annotationAt_stamp.1 ▸ backendRef_ne_nil
    refine ⟨⟨fun _ => ⟨cache, spec, hi, rfl⟩, fun _ => ⟨_, .head _, hb⟩⟩, fun hn => absurd (hn _ (.head _)) hb, ?_,
      fun _ => lookup_stamp⟩
    simp [annotationAt_stamp.2, hi.asked]

theorem marks_are_truthful_forged : ∃ (h : EngineInjector) (pod pod' : Kube.Pod),
    annotationAt pod annotationInjectedBy ≠ [] ∧ (h.handle pod).admitted pod = some pod' ∧
      ¬∃ k ∈ injectionMarks, annotationAt pod' k ≠ [] := by
  let h : EngineInjector := ⟨.plain, fun _ => .ok [], none⟩
  let forged := (∅ : GoMap GoString GoString).insert annotationInjectedBy (utf8 "team/cache")
  let pod : Kube.Pod := ⟨utf8 "team", ∅, forged, [], ⟨[], [], []⟩, []⟩
  obtain ⟨pod', ha⟩ := Option.isSome_iff_exists.mp (by decide +kernel : ((h.handle pod).admitted pod).isSome = true)
  refine ⟨h, pod, pod', by decide +kernel, ha, (marks_are_truthful h pod pod' ha).1.not.mpr ?_⟩
  rintro ⟨_, _, hi, _⟩
  cases hi.chosen

end InferenceCache.Webhook
