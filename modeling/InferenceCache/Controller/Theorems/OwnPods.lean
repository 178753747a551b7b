import InferenceCache.Controller.Theorems.Overlap

namespace InferenceCache.Controller.NodeLocal

open Kube Kube.Cluster Kube.Api Program Adapters EngineBinding

section Definitions

-- What a pass may write. A server gets or loses the mark of being idle, and a cleanup loses its gate.
def Identity.Writes (id : Identity) : Kube.Event → Prop
  | .create p   => id.Server p ∨ id.Cleanup p
  | .delete p   => id.Server p ∨ id.Cleanup p
  | .patch p p' => id.Server p ∧ Annotates p p' ∨ id.Cleanup p ∧ p' = release p
  | .outside    => True

structure Lawful (s : Setup) (id : Identity) (c : Cluster) : Prop where
  sane    : Sane s id c.pods
  history : ∀ m ∈ c.history, id.Writes m.event ∧ Sane s id m.pods

end Definitions

variable {s : Setup} {o : Owner} {id : Identity} {n : GoString} {c d : Cluster} {N : GoString → Prop}
variable {demand : GoMap GoString PodObject} {cancelOnDemand : Bool} {l : List PodObject} {key : Webhook.ObjectKey}

section Requests

theorem Lawful.idle (h : Lawful s id c) (hi : Idle c d) : Lawful s id d :=
  ⟨hi.pods ▸ h.sane, hi.history ▸ h.history⟩

theorem Lawful.wrote {event : Kube.Event} {after : List PodObject} (h : Lawful s id c) (hw : Wrote c event after d)
    (hs : Sane s id d.pods) (he : id.Writes event) : Lawful s id d := by
  refine ⟨hs, ?_⟩
  rw [hw.history]
  intro m hm
  cases hm
  case head => exact ⟨he, hw.pods ▸ hs⟩
  case tail hm => exact h.history m hm

theorem Act.lawful (ho : o.Is id) (ha : Act s o id N key c d) (h : Lawful s id c) : Lawful s id d := by
  have hs := ha.sane ho h.sane
  cases ha
  case idle hi => exact h.idle hi
  case ensure hr _ hw => exact h.wrote hw hs (.inr (hr.cleanup ho).1)
  case clear hc _ _ _ hw => exact h.wrote hw hs (.inr hc)
  case drop hsx _ _ hw => exact h.wrote hw hs (.inl hsx)
  case note hsx _ hsame hw => exact h.wrote hw hs (.inl ⟨hsx, hsame _⟩)

theorem Works.lawful (ho : o.Is id) (hw : Works s o id N c d) (h : Lawful s id c) : Lawful s id d :=
  hw.invariant h fun _ _ _ h ha => ha.lawful ho h

theorem Sweeps.lawful (ho : o.Is id) (hw : Sweeps s o id demand cancelOnDemand l c d) (h : Lawful s id c) :
    Lawful s id d := by
  refine hw.invariant h fun c d h hw => ?_
  have hs := hw.sane ho h.sane
  cases hw
  case idle hi => exact h.idle hi
  case remove hc _ _ hw => exact h.wrote hw hs (.inr hc)
  case retry hc _ _ hr _ hw => exact h.wrote hw hs (.inr (hr.cleanup ho hc))
  case release hc _ _ _ _ _ _ hw => exact h.wrote hw hs (.inr ⟨hc, rfl⟩)

theorem Founded.lawful (ho : o.Is id) (hf : Founded s o n c d) (h : Lawful s id c) : Lawful s id d := by
  cases hf
  case idle hi => exact h.idle hi
  case created hsv hfr hw =>
    have hn : ¬id.Cleanup _ := fun hc => (hsv.fits ho).apart hc.sweeper
    have hs := h.sane.created hfr ⟨fun _ => hsv.fits ho, fun hc => absurd hc hn⟩
    exact h.wrote hw (hw.pods ▸ hs) (.inl (hsv.server ho))

end Requests

section Passes

theorem wp_sweeps_lawful (ho : o.Is id) (h : Lawful s id c) :
    wp (reconcileLMCacheNodeLocalCleanupPods s o demand cancelOnDemand) (fun _ => Lawful s id) (Lawful s id) c :=
  (wp_sweeps ho h.sane.nodup).mono (fun _ _ hw => hw.lawful ho h) fun _ hw => hw.lawful ho h

theorem wp_reconcileNodeLocal_lawful {binding : Option Binding} {now : PodObject → Time} (ho : o.Is id)
    (h : Lawful s id c) : wp (reconcileNodeLocal s o binding now) (fun _ => Lawful s id) (Lawful s id) c := by
  apply wp_reconcileNodeLocal
  case hi => exact fun d hi => h.idle hi
  case h =>
    intro path c₁ _ h₁
    rw [wp_bind]
    have hc₁ := h.idle h₁
    refine (wp_sweeps ho hc₁.sane.nodup).mono ?_ fun d hw => hw.lawful ho hc₁
    intro blocked d hw
    have hd : Lawful s id d := hw.lawful ho hc₁
    rw [wp_bind]
    refine (wp_reconcileServers (I := fun _ _ => Lawful s id) ho hd.sane
      (h.sane.nodup.sublist (List.filter_sublist.map _)) (fun x hx => (List.mem_filter.mp hx).2) ?_ hd
      (fun _ _ _ _ h => h) ?_ ?_).mono ?_ fun _ h => h
    case refine_1 =>
      intro x hx hsx
      have hxc := List.mem_of_mem_filter hx
      exact (hw.mem_iff ho hc₁.sane.nodup (h.sane.not_cleanup hxc hsx)).mpr (h₁.pods ▸ hxc)
    case refine_2 => exact fun x _ hsx _ _ _ _ _ _ hxc hI ht => (ht.acts hxc hsx).works.lawful ho hI
    case refine_3 => exact fun x _ hsx _ _ _ _ _ hxc hI hb => (hb.acts hxc hsx).works.lawful ho hI
    case refine_4 => exact fun _ _ hd => wp_createServers hd.2 fun _ _ _ _ _ h hf => hf.lawful ho h

theorem wp_cleanupServers_lawful (ho : o.Is id) (h : Lawful s id c) :
    wp (cleanupLMCacheNodeLocalServerPods s o) (fun _ => Lawful s id) (Lawful s id) c := by
  apply wp_cleanupServers ho h.sane
  case hu => exact fun _ => h
  case he => exact fun d hw => hw.lawful ho h
  case hl => exact fun d hw _ _ => wp_sweeps_lawful ho (hw.lawful ho h)

theorem wp_ensureForConsumers_lawful (ho : o.Is id) (h : Lawful s id c) :
    wp (do
      ensureLMCacheNodeLocalCleanupForConsumers s o
      cleanupLMCacheNodeLocalServerPods s o) (fun _ => Lawful s id) (Lawful s id) c := by
  rw [wp_bind]
  exact (wp_ensureForConsumers ho h.sane).mono (fun _ _ hw => wp_cleanupServers_lawful ho (hw.lawful ho h))
    fun _ hw => hw.lawful ho h

theorem wp_pass_lawful {p : Pass} (ho : p.owner.Is id) (h : Lawful s id c) :
    wp (p.program s) (fun _ => Lawful s id) (Lawful s id) c := by
  cases p
  case reconcile o binding now =>
    show wp (reconcileLMCacheNodeLocalServerPods s o binding now) _ _ _
    unfold reconcileLMCacheNodeLocalServerPods
    split
    case isTrue => exact wp_reconcileNodeLocal_lawful ho h
    case isFalse =>
      dsimp only
      split
      case isTrue => exact wp_ensureForConsumers_lawful ho h
      case isFalse => exact wp_cleanupServers_lawful ho h
  case cleanup o => exact wp_cleanupServers_lawful ho h
  case finalize o el =>
    show wp (do let _ ← finalizeLMCacheNodeLocal s o el) _ _ _
    rw [wp_bind]
    refine (wp_finalize (fun _ _ h => h.idle) h ?_).mono (fun _ _ h => h) fun _ h => h
    rw [wp_bind]
    refine (wp_ensureForConsumers ho h.sane).mono ?_ fun _ hw => hw.lawful ho h
    intro _ d hw
    rw [wp_bind]
    exact (wp_cleanupServers_lawful ho (hw.lawful ho h)).mono (fun _ _ h => wp_sweeps_lawful ho h) fun _ h => h

theorem Step.lawful {x : Label} (hst : Step s id c x d) (h : Lawful s id c) : Lawful s id d := by
  cases hst
  case pass p fate ho =>
    have hf : Lawful s id { c with fate := fate } := ⟨h.sane, h.history⟩
    exact (wp_pass_lawful ho hf).state
  case outside pods he =>
    have hs := h.sane.evolves he
    refine ⟨hs, fun m hm => ?_⟩
    cases hm
    case head => exact ⟨trivial, hs⟩
    case tail hm => exact h.history m hm

theorem Fresh.lawful (h : Fresh id c) : Lawful s id c :=
  ⟨h.sane, by simp [h.history]⟩

end Passes

theorem passes_keep_to_own_pods (s : Setup) (id : Identity) (c : Cluster) (h : Reached s id (fun _ _ => True) c) :
    ∀ m ∈ c.history, id.Writes m.event ∧ ∀ x ∈ m.pods, ∀ y ∈ m.pods, id.Server x → id.Server y →
      nodeLocalServerTargetNode x = nodeLocalServerTargetNode y → x = y := by
  intro m hm
  have hc : Lawful s id c := h.induction (fun _ hf => hf.lawful) fun h hst _ => hst.lawful h
  obtain ⟨hw, hs⟩ := hc.history m hm
  refine ⟨hw, fun x hx y hy hsx hsy ht => eq_of_key hs.nodup hx hy (hs.key_eq hx hy hsx hsy ?_)⟩
  rw [← (hs.servers x hx hsx).target, ← (hs.servers y hy hsy).target, ht]

theorem passes_keep_to_own_pods_pending : ∃ c, Reached .plain cacheIdentity (fun _ _ => True) c ∧
    (∃ m ∈ c.history, ∃ x ∈ m.pods, cacheIdentity.Server x) ∧ ∀ m ∈ c.history, cacheIdentity.Writes m.event := by
  have h : Reached .plain cacheIdentity (fun _ _ => True) pendingServer :=
    reached_pendingServer trivial fun _ _ => trivial
  exact ⟨_, h, by decide +kernel, fun m hm => (passes_keep_to_own_pods .plain cacheIdentity _ h m hm).1⟩

end InferenceCache.Controller.NodeLocal
