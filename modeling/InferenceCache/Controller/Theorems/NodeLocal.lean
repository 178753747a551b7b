import InferenceCache.Controller.NodeLocalSystem

namespace InferenceCache.Controller.NodeLocal

open Kube Kube.Cluster Kube.Api Program Adapters EngineBinding

variable {s : Setup} {o : Owner} {id : Identity} {c : Cluster} {e : Cluster → Prop} {p : PodObject}

section Identity

theorem Owner.Is.owns_iff {label : GoString} (h : o.Is id) :
    id.Owns label p ↔ o.lists label p = true ∧ p.isControlledBy o.uid = true := by
  have hn : o.inNamespace = id.key.inNamespace := congrArg Webhook.ObjectKey.inNamespace h.1
  simp only [Identity.Owns, Owner.lists, PodObject.isControlledBy, hn, h.2, decide_eq_true_eq]
  exact And.comm

theorem Owner.Is.server_iff (h : o.Is id) :
    id.Server p ↔ o.listsServer p = true ∧ p.isControlledBy o.uid = true :=
  h.owns_iff

theorem Owner.Is.cleanup_iff (h : o.Is id) :
    id.Cleanup p ↔ o.listsCleanup p = true ∧ p.isControlledBy o.uid = true :=
  h.owns_iff

theorem cleanup_of_isCleanup {n : GoString} (h : o.Is id) (hv : isCleanup s o p n = true) :
    id.Cleanup p ∧ targetNode p = n := by
  simp only [isCleanup, isLMCacheNodeLocalCleanupPod, decide_eq_true_eq] at hv
  have ⟨_, _, _, hn, hc, _, hl, hu, _, ht, _⟩ := hv
  refine ⟨h.cleanup_iff.mpr ⟨?_, hc⟩, ht⟩
  simp only [Owner.listsCleanup, Owner.lists, decide_eq_true_eq]
  exact ⟨hn, hl, hu⟩

end Identity

section Ensure

def Renders (s : Setup) (o : Owner) (n : GoString) (pod : PodObject) : Prop :=
  ∃ d, renderLMCacheNodeLocalCleanupPod s.lib s.sha256 o.object n s.cleanupImage = .ok d ∧
    pod = { d with controller := some o.uid }

variable {n : GoString} {q : Unit → Cluster → Prop}

theorem wp_ensureForNode (ho : o.Is id) (hn : (c.pods.map PodObject.key).Nodup)
    (hk : ∀ p c', p ∈ c.pods → id.Cleanup p → targetNode p = n → isCleanup s o p n = true →
      lmCacheNodeLocalCleanupIsGated p = true → Idle c c' → q () c')
    (hc : ∀ pod c', (∀ p ∈ c.pods, id.Cleanup p → targetNode p ≠ n) → Renders s o n pod →
      c.find pod.key = none → Wrote c (.create pod) (c.pods ++ [pod]) c' → q () c')
    (hd : ∀ p pods c', p ∈ c.pods → id.Cleanup p → targetNode p = n →
      ¬(isCleanup s o p n = true ∧ lmCacheNodeLocalCleanupIsGated p = true) → Deleted p.key c.pods pods →
      Wrote c (.delete p) pods c' → e c')
    (hi : ∀ c', Idle c c' → e c')
    (hl : ∀ pod c', ¬c.Reliable → (∀ p ∈ c.pods, id.Cleanup p → targetNode p ≠ n) → Renders s o n pod →
      c.find pod.key = none → Wrote c (.create pod) (c.pods ++ [pod]) c' → e c') :
    wp (ensureLMCacheNodeLocalCleanupForNode s o n) q e c := by
  unfold ensureLMCacheNodeLocalCleanupForNode
  rw [wp_bind]
  refine wp_list ?_ fun c' _ => hi c'
  intro c₁ h₁
  split
  case h_1 p hf =>
    have hm := List.mem_filter.mp (List.mem_of_find?_eq_some hf)
    have hp := List.find?_some hf
    simp only [decide_eq_true_eq] at hp
    have hcl : id.Cleanup p := ho.cleanup_iff.mpr ⟨hm.2, hp.1⟩
    split
    case isTrue hv => exact hk p c₁ hm.1 hcl hp.2 hv.1 hv.2 h₁
    case isFalse hv =>
      rw [wp_bind]
      have hlive : c₁.find p.key = some p := find_of_mem (h₁.pods ▸ hn) (h₁.pods ▸ hm.1)
      apply wp_delete
      case hn => exact fun c₂ _ h₂ => hi c₂ (h₁.trans h₂)
      case hd =>
        intro p' pods c₂ hf' hdel h₂
        cases hlive.symm.trans hf'
        exact hd p pods c₂ hm.1 hcl hp.2 hv (h₁.pods ▸ hdel) (h₁.wrote h₂)
      case he => exact fun c₂ _ h₂ => hi c₂ (h₁.trans h₂)
      case hl =>
        intro p' pods c₂ _ hf' hdel h₂
        cases hlive.symm.trans hf'
        exact hd p pods c₂ hm.1 hcl hp.2 hv (h₁.pods ▸ hdel) (h₁.wrote h₂)
  case h_2 hf =>
    have hnone : ∀ p ∈ c.pods, id.Cleanup p → targetNode p ≠ n := by
      intro p hp hcl ht
      have ⟨hl, hcon⟩ := ho.cleanup_iff.mp hcl
      have hx := List.find?_eq_none.mp hf p (List.mem_filter.mpr ⟨hp, hl⟩)
      exact hx (decide_eq_true ⟨hcon, ht⟩)
    rw [wp_bind]
    refine wp_of ?_ fun _ _ => hi c₁ h₁
    intro d hd'
    have hren : Renders s o n { d with controller := some o.uid } := ⟨d, hd', rfl⟩
    rw [wp_bind]
    apply wp_create
    case hc =>
      intro c₂ hfr h₂
      rw [h₁.pods] at h₂
      exact hc _ c₂ hnone hren (h₁.find ▸ hfr) (h₁.wrote h₂)
    case hf =>
      intro x _ c₂ _ h₂
      rw [wp_bind]
      refine wp_get ?_ fun c₃ _ h₃ => hi c₃ ((h₁.trans h₂).trans h₃)
      intro y c₃ hy h₃
      split
      case isTrue hv =>
        -- Such a Pod would have been found in the list.
        have ⟨hcl, ht⟩ := cleanup_of_isCleanup ho hv.1
        have hmem : y ∈ c.pods := h₁.pods ▸ h₂.pods ▸ (find_eq_some hy).1
        exact absurd ht (hnone y hmem hcl)
      case isFalse => exact hi c₃ ((h₁.trans h₂).trans h₃)
    case he => exact fun _ c₂ _ h₂ => hi c₂ (h₁.trans h₂)
    case hl =>
      intro _ c₂ hr hfr h₂
      rw [h₁.pods] at h₂
      exact hl _ c₂ (fun h => hr (h₁.reliable h)) hnone hren (h₁.find ▸ hfr) (h₁.wrote h₂)

end Ensure

section Delete

inductive Removed (x : PodObject) (c d : Cluster) : Prop
  | marked (deleting : x.deleting = true) (idle : Idle c d)
  | deleted {after : List PodObject} (deleting : x.deleting = false) (del : Deleted x.key c.pods after)
    (wrote : Wrote c (.delete x) after d)

theorem wp_deleteUnlessMarked {what : GoString} (hn : (c.pods.map PodObject.key).Nodup) (hp : p ∈ c.pods) :
    wp (deleteUnlessMarked what p) (fun _ d => Removed p c d)
      (fun d => ¬c.Reliable ∧ (Idle c d ∨ Removed p c d)) c := by
  have hlive : c.find p.key = some p := find_of_mem hn hp
  unfold deleteUnlessMarked
  split
  case isTrue h => exact .marked h .refl
  case isFalse h =>
    have hf : p.deleting = false := Bool.eq_false_iff.mpr h
    apply wp_delete
    case hn => exact fun _ hx _ => nomatch hlive.symm.trans hx
    case hd =>
      intro p' pods d hf' hdel hw
      cases hlive.symm.trans hf'
      exact .deleted hf hdel hw
    case he => exact fun _ hr hi => ⟨hr, .inl hi⟩
    case hl =>
      intro p' pods d hr hf' hdel hw
      cases hlive.symm.trans hf'
      exact ⟨hr, .inr (.deleted hf hdel hw)⟩

end Delete

section Consumers

theorem wp_consumers {n : GoString} {q : List GoString → Cluster → Prop}
    (h : ∀ path names c', nodeLocalServerShmHostPath s.lib o.object = .ok path → Idle c c' →
      (names = [] ↔ ∀ x ∈ c.pods, consumesShm o path n x = false) → q names c')
    (he : ∀ c', ¬c.Reliable ∨ (∃ err, nodeLocalServerShmHostPath s.lib o.object = .error err) → Idle c c' → e c') :
    wp (nodeLocalShmConsumers s o n) q e c := by
  unfold nodeLocalShmConsumers
  rw [wp_bind]
  refine wp_of ?_ fun err hr => he c (.inr ⟨err, hr⟩) .refl
  intro path hp
  rw [wp_bind]
  refine wp_list ?_ fun c' hr => he c' (.inl hr)
  intro c' h'
  apply h path _ c' hp h'
  rw [List.map_eq_nil_iff, List.filter_eq_nil_iff]
  simp only [List.mem_filter, and_true, Bool.not_eq_true]

end Consumers

end InferenceCache.Controller.NodeLocal
