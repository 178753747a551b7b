import InferenceCache.Controller.Theorems.Servers

namespace InferenceCache.Controller.NodeLocal

open Kube Kube.Cluster Kube.Api Program Adapters EngineBinding

section Definitions

def Released (x : PodObject) : Prop :=
  x.schedulingGates = [] ∧ x.isTerminal = false

instance {x : PodObject} : Decidable (Released x) :=
  inferInstanceAs (Decidable (_ ∧ _))

def NoOverlap (id : Identity) (pods : List PodObject) : Prop :=
  ∀ x ∈ pods, id.Cleanup x → Released x →
    ∀ y ∈ pods, id.Server y → y.deleting = false → nodeLocalServerTargetNode y ≠ targetNode x

-- While a server is there, something else keeps the cleanup of its node from being released.
def HeldBack (s : Setup) (o : Owner) (id : Identity) (pods : List PodObject) : Prop :=
  ∀ x ∈ pods, id.Cleanup x → Live x → x.schedulingGates ≠ [] →
    ∀ y ∈ pods, id.Server y → y.deleting = false → nodeLocalServerTargetNode y = targetNode x →
      ((demandIn o pods).lookup (targetNode x)).isSome = true ∨
        ∀ path, nodeLocalServerShmHostPath s.lib o.object = .ok path →
          ∃ z ∈ pods, consumesShm o path (targetNode x) z = true

-- The condition is only about the passes of a backend in the NodeLocal topology.
def StepsHeldBack (s : Setup) (id : Identity) (c : Cluster) : Label → Prop
  | .pass (.reconcile o _ _) _ => o.isTypedLMCacheNodeLocal = true → HeldBack s o id c.pods
  | _ => True

end Definitions

variable {s : Setup} {o : Owner} {id : Identity} {n : GoString} {c c₁ d : Cluster} {x y : PodObject}
variable {pods pods' : List PodObject} {key : Webhook.ObjectKey} {N : GoString → Prop} {e : Cluster → Prop}
variable {demand : GoMap GoString PodObject} {cancelOnDemand : Bool} {succeeded : Finset GoString} {l : List PodObject}

section Invariant

structure Separate (s : Setup) (id : Identity) (c : Cluster) : Prop where
  sane    : Sane s id c.pods
  apart   : NoOverlap id c.pods
  history : ∀ m ∈ c.history, NoOverlap id m.pods

theorem Separate.next (h : Separate s id c) (hs : Sane s id d.pods) (ha : NoOverlap id d.pods)
    (hh : d.history = c.history ∨ ∃ event, d.history = ⟨event, d.pods⟩ :: c.history) : Separate s id d := by
  refine ⟨hs, ha, ?_⟩
  cases hh
  case inl hh => exact hh ▸ h.history
  case inr hh =>
    have ⟨event, hh⟩ := hh
    rw [hh]
    intro m hm
    cases hm
    case head => exact ha
    case tail hm => exact h.history m hm

theorem Separate.idle (h : Separate s id c) (hi : Idle c d) : Separate s id d :=
  h.next (hi.pods ▸ h.sane) (hi.pods ▸ h.apart) (.inl hi.history)

theorem Stays.released (h : Stays x y) (hy : Released y) : Released x := by
  rw [h.same] at hy
  exact hy

theorem Continues.released (h : Continues x y) (hy : Released y) : Released x := by
  have hg : y.schedulingGates = x.schedulingGates := by rw [h.same]
  refine ⟨hg ▸ hy.1, ?_⟩
  cases ht : x.isTerminal
  case false => rfl
  case true =>
    rw [h.terminal ht] at hy
    exact ht.symm.trans hy.2

-- Both Pods were there before, or the one that is new is neither.
theorem NoOverlap.of_origin (h : NoOverlap id pods) (hs : Sane s id pods) (hs' : Sane s id pods')
    (hc : ∀ x ∈ pods', id.Cleanup x → Released x → ∃ x₀ ∈ pods, SameRole s id x₀ x ∧ Released x₀)
    (hv : ∀ y ∈ pods', id.Server y → y.deleting = false → ∃ y₀ ∈ pods, SameRole s id y₀ y ∧ y₀.deleting = false) :
    NoOverlap id pods' := by
  intro x hx hcx hr y hy hsy hd ht
  have ⟨x₀, hx₀, hrx, hr₀⟩ := hc x hx hcx hr
  have ⟨y₀, hy₀, hry, hd₀⟩ := hv y hy hsy hd
  refine h x₀ hx₀ (hrx.owns hcx) hr₀ y₀ hy₀ (hry.owns hsy) hd₀ ?_
  rw [(hs'.servers y hy hsy).target, hry.target, hrx.target] at ht
  rw [(hs.servers y₀ hy₀ (hry.owns hsy)).target]
  exact ht

end Invariant

section Requests

theorem Act.released (h : Act s o id N key c d) (hy : y ∈ d.pods) (hr : Released y) : ∃ x ∈ c.pods, Stays x y := by
  cases h.origin hy
  case inl h => exact h
  case inr h =>
    have ⟨_, _, hren, _⟩ := h
    have hg := hren.nth.1.gated
    rw [lmCacheNodeLocalCleanupIsGated, hr.1] at hg
    cases hg

theorem Act.separate (ho : o.Is id) (ha : Act s o id N key c d) (h : Separate s id c) : Separate s id d := by
  have hs := ha.sane ho h.sane
  refine h.next hs (h.apart.of_origin h.sane hs ?_ ?_) ha.history
  case refine_1 =>
    intro x hx _ hr
    have ⟨x₀, hx₀, hst⟩ := ha.released hx hr
    exact ⟨x₀, hx₀, hst.sameRole, hst.released hr⟩
  case refine_2 =>
    intro y hy hsy hd
    have ⟨y₀, hy₀, hst⟩ := ha.server hy hsy
    exact ⟨y₀, hy₀, hst.sameRole, hst.deleting hd⟩

theorem Works.separate (ho : o.Is id) (hw : Works s o id N c d) (h : Separate s id c) : Separate s id d :=
  hw.invariant h fun _ _ _ h ha => ha.separate ho h

-- A request of the loops over the cleanups does no harm, if a release does not.
theorem Sweep.separate (ho : o.Is id) (hw : Sweep s o id demand cancelOnDemand l c d) (h : Separate s id c)
    (hr : ∀ x ∈ c.pods, x ∈ l → id.Cleanup x → Live x → x.schedulingGates ≠ [] → ¬GivesWay demand cancelOnDemand x →
      (∃ path, nodeLocalServerShmHostPath s.lib o.object = .ok path ∧
        ∀ z ∈ c.pods, consumesShm o path (targetNode x) z = false) →
      ∀ y ∈ c.pods, id.Server y → y.deleting = false → nodeLocalServerTargetNode y ≠ targetNode x) :
    Separate s id d := by
  have hs := hw.sane ho h.sane
  refine h.next hs ?_ hw.history
  intro x hx hcx hrx y hy hsy hd
  have hyc : y ∈ c.pods := (hw.mem_iff ho h.sane.nodup (hs.not_cleanup hy hsy)).mp hy
  cases hw.swept h.sane.nodup hx
  case same hx => exact h.apart x hx hcx hrx y hyc hsy hd
  case marked x₀ _ hx₀ hc₀ he _ =>
    subst he
    exact h.apart x₀ hx₀ hc₀ hrx y hyc hsy hd
  case released x₀ path hl hx₀ hc₀ he ht hk hg hu hp hq =>
    subst he
    exact hr x₀ hx₀ hl hc₀ ⟨ht, hu⟩ hg hk ⟨path, hp, hq⟩ y hyc hsy hd
  case retried hr =>
    have hg := hrx.1
    rw [hr.eq] at hg
    cases hg

theorem not_cleanup_of_consumesShm {path : GoString} (ho : o.Is id) (h : consumesShm o path n x = true) :
    ¬id.Cleanup x := by
  intro hc
  simp only [consumesShm, decide_eq_true_eq] at h
  have ⟨hl, hcon⟩ := ho.cleanup_iff.mp hc
  simp only [Owner.listsCleanup, Owner.lists, decide_eq_true_eq] at hl
  exact h.2.2.2.1 ⟨hl.1, hl.2.1, hcon⟩

theorem Sweeps.separate_of_heldBack (ho : o.Is id) (hw : Sweeps s o id (demandIn o c.pods) true (listed o c) c₁ d)
    (hi : Idle c c₁) (h : Separate s id c) (hb : HeldBack s o id c.pods) : Separate s id d := by
  refine (hw.invariant (I := fun d => Separate s id d ∧ ∀ y, ¬id.Cleanup y → (y ∈ d.pods ↔ y ∈ c.pods))
    ⟨h.idle hi, fun y _ => hi.pods ▸ Iff.rfl⟩ ?_).1
  rintro c₂ d ⟨h₂, hm⟩ hw
  refine ⟨hw.separate ho h₂ ?_, fun y hy => (hw.mem_iff ho h₂.sane.nodup hy).trans (hm y hy)⟩
  intro x _ hxl hcx hlx hg hk ⟨path, hp, hq⟩ y hy hsy hd ht
  have hyc := (hm y (h₂.sane.not_cleanup hy hsy)).mp hy
  cases hb x (List.mem_of_mem_filter hxl) hcx hlx hg y hyc hsy hd ht
  case inl hdem => exact hk ⟨hlx.1, hg, rfl, hdem⟩
  case inr hcon =>
    have ⟨z, hz, hzc⟩ := hcon path hp
    have hz₂ := (hm z (not_cleanup_of_consumesShm ho hzc)).mpr hz
    cases (hq z hz₂).symm.trans hzc

theorem Sweeps.separate_of_marked (ho : o.Is id) (hw : Sweeps s o id demand cancelOnDemand l c d)
    (h : Separate s id c) (hm : ∀ y ∈ c.pods, id.Server y → y.deleting = true) : Separate s id d := by
  refine (hw.invariant (I := fun d => Separate s id d ∧ ∀ y ∈ d.pods, id.Server y → y.deleting = true) ⟨h, hm⟩ ?_).1
  rintro c₂ d ⟨h₂, hm⟩ hw
  refine ⟨hw.separate ho h₂ ?_, fun y hy hsy => hm y ?_ hsy⟩
  case refine_1 =>
    intro _ _ _ _ _ _ _ _ y hy hsy hd
    cases hd.symm.trans (hm y hy hsy)
  case refine_2 => exact (hw.mem_iff ho h₂.sane.nodup ((hw.sane ho h₂.sane).not_cleanup hy hsy)).mp hy

end Requests

section Blocked

def Covers (id : Identity) (blocked : Finset GoString) (pods : List PodObject) : Prop :=
  ∀ x ∈ pods, id.Cleanup x → Released x → targetNode x ∈ blocked

theorem Covers.acts {blocked : Finset GoString} (h : Covers id blocked c.pods) (ha : Acts s o id N key c d) :
    Covers id blocked d.pods := by
  refine ha.invariant (I := fun c => Covers id blocked c.pods) h fun c d h ha => ?_
  intro x hx hc hr
  have ⟨y, hy, hst⟩ := ha.released hx hr
  have hxy : SameRole s id y x := hst.sameRole
  rw [hxy.target]
  exact h y hy (hxy.owns hc) (hst.released hr)

theorem Released.not_spent (h : Released x) : ¬Spent x := by
  rintro ⟨_, hd | hg⟩
  case inl => cases h.2.symm.trans hd.terminal
  case inr => exact hg.2 h.1

theorem wp_covers (ho : o.Is id) (hs : Sane s id c.pods) :
    wp (reconcileLMCacheNodeLocalCleanupPods s o demand cancelOnDemand) (fun b d => Covers id b d.pods)
      (fun _ => True) c :=
  (wp_spent ho hs).mono (fun _ _ h y hy hc hr => (h y hy hc).resolve_right hr.not_spent) fun _ h => h

end Blocked

section Passes

theorem Founded.separate {blocked : Finset GoString} (ho : o.Is id) (hf : Founded s o n c d) (h : Separate s id c)
    (hb : Covers id blocked c.pods) (hn : n ∉ blocked) : Separate s id d ∧ Covers id blocked d.pods := by
  cases hf
  case idle hi => exact ⟨h.idle hi, hi.pods ▸ hb⟩
  case created pod hs hfr hw =>
    have hnc : ¬id.Cleanup pod := fun hc => (hs.fits ho).apart hc.sweeper
    have hb' : Covers id blocked d.pods := by
      intro x hx hc hr
      rw [hw.pods] at hx
      cases List.mem_append.mp hx
      case inl hx => exact hb x hx hc hr
      case inr hx => exact absurd (List.mem_singleton.mp hx ▸ hc) hnc
    have hsane : Sane s id d.pods :=
      hw.pods ▸ h.sane.created hfr ⟨fun _ => hs.fits ho, fun hc => absurd hc hnc⟩
    refine ⟨h.next hsane ?_ (.inr ⟨_, hw.pods ▸ hw.history⟩), hb'⟩
    intro x hx hc hr y hy hsy hd ht
    have hxb := hb' x hx hc hr
    rw [hw.pods] at hx hy
    have hx := (List.mem_append.mp hx).resolve_right fun hx => hnc (List.mem_singleton.mp hx ▸ hc)
    cases List.mem_append.mp hy
    case inl hy => exact h.apart x hx hc hr y hy hsy hd ht
    case inr hy =>
      cases List.mem_singleton.mp hy
      rw [(hs.fits ho).target, hs.target] at ht
      exact hn (ht ▸ hxb)

theorem wp_reconcileNodeLocal_separate {binding : Option Binding} {now : PodObject → Time} (ho : o.Is id)
    (h : Separate s id c) (hb : HeldBack s o id c.pods) :
    wp (reconcileNodeLocal s o binding now) (fun _ => Separate s id) (Separate s id) c := by
  apply wp_reconcileNodeLocal
  case hi => exact fun d hi => h.idle hi
  case h =>
    intro path c₁ _ h₁
    rw [wp_bind]
    have hs₁ : Sane s id c₁.pods := (h.idle h₁).sane
    have hlist : listed o c₁ = listed o c := congrArg (List.filter o.listsCleanup) h₁.pods
    refine ((wp_sweeps ho hs₁.nodup).and (wp_covers ho hs₁)).mono ?_ ?_
    case refine_2 =>
      rintro d ⟨hw, _⟩
      exact (hlist ▸ hw).separate_of_heldBack ho h₁ h hb
    case refine_1 =>
      rintro blocked d ⟨hw, hc⟩
      have hd : Separate s id d := (hlist ▸ hw).separate_of_heldBack ho h₁ h hb
      rw [wp_bind]
      refine (wp_reconcileServers (I := fun _ seen d => Separate s id d ∧ Covers id seen.blocked d.pods) ho hd.sane
        (h.sane.nodup.sublist (List.filter_sublist.map _)) (fun x hx => (List.mem_filter.mp hx).2) ?_ ⟨hd, hc⟩
        (fun _ _ _ _ h => h) ?_ ?_).mono ?_ fun _ h => h
      case refine_1 =>
        intro x hx hsx
        have hxc := List.mem_of_mem_filter hx
        exact (hw.mem_iff ho hs₁.nodup (h.sane.not_cleanup hxc hsx)).mpr (h₁.pods ▸ hxc)
      case refine_2 =>
        intro x _ hsx _ seen c seen' d _ hxc hI ht
        have ha := ht.acts hxc hsx
        refine ⟨ha.works.separate ho hI.1, fun y hy hcy hry => ?_⟩
        exact ht.grows (hI.2.acts ha y hy hcy hry)
      case refine_3 => exact fun x _ hsx _ seen c d _ hxc hI hbr => (hbr.acts hxc hsx).works.separate ho hI.1
      case refine_4 =>
        rintro seen d ⟨_, hd, hc⟩
        refine (wp_createServers (I := fun d => Separate s id d ∧ Covers id seen.blocked d.pods) ⟨hd, hc⟩ ?_).mono
          (fun _ _ h => h.1) fun _ h => h.1
        exact fun n c d hn _ hI hf => hf.separate ho hI.1 hI.2 hn

theorem wp_cleanupServers_separate (ho : o.Is id) (h : Separate s id c) :
    wp (cleanupLMCacheNodeLocalServerPods s o)
      (fun _ d => Separate s id d ∧ (o.uid = [] ∨ ∀ y ∈ d.pods, id.Server y → y.deleting = true))
      (Separate s id) c := by
  apply wp_cleanupServers ho h.sane
  case hu => exact fun hu => ⟨h, .inl hu⟩
  case he => exact fun d hw => hw.separate ho h
  case hl =>
    intro d hw hs hm
    refine (wp_sweeps ho hs.nodup).mono ?_ fun d' hw' => hw'.separate_of_marked ho (hw.separate ho h) hm
    intro _ d' hw'
    have hd' := hw'.separate_of_marked ho (hw.separate ho h) hm
    refine ⟨hd', .inr fun y hy hsy => hm y ?_ hsy⟩
    exact (hw'.mem_iff ho hs.nodup (hd'.sane.not_cleanup hy hsy)).mp hy

theorem wp_ensureForConsumers_separate (ho : o.Is id) (h : Separate s id c) :
    wp (ensureLMCacheNodeLocalCleanupForConsumers s o) (fun _ => Separate s id) (Separate s id) c :=
  (wp_ensureForConsumers ho h.sane).mono (fun _ _ hw => hw.separate ho h) fun _ hw => hw.separate ho h

theorem wp_finalize_separate {el : Elsewhere} (ho : o.Is id) (h : Separate s id c) :
    wp (finalizeLMCacheNodeLocal s o el) (fun _ => Separate s id) (Separate s id) c := by
  refine wp_finalize (fun _ _ h => h.idle) h ?_
  rw [wp_bind]
  refine (wp_ensureForConsumers_separate ho h).mono ?_ fun _ h => h
  intro _ c₁ h₁
  rw [wp_bind]
  refine (wp_cleanupServers_separate ho h₁).mono ?_ fun _ h => h
  rintro _ c₂ ⟨h₂, hu | hm⟩
  case inl =>
    rw [reconcileLMCacheNodeLocalCleanupPods, if_pos hu]
    exact h₂
  case inr =>
    exact (wp_sweeps ho h₂.sane.nodup).mono (fun _ _ hw => hw.separate_of_marked ho h₂ hm)
      fun _ hw => hw.separate_of_marked ho h₂ hm

theorem wp_pass_separate {p : Pass} {fate : Nat → Outcome} (ho : p.owner.Is id) (h : Separate s id c)
    (hb : StepsHeldBack s id c (.pass p fate)) : wp (p.program s) (fun _ => Separate s id) (Separate s id) c := by
  cases p
  case reconcile o binding now =>
    show wp (reconcileLMCacheNodeLocalServerPods s o binding now) _ _ _
    unfold reconcileLMCacheNodeLocalServerPods
    split
    case isTrue ht => exact wp_reconcileNodeLocal_separate ho h (hb ht)
    case isFalse =>
      have hc {d : Cluster} (h : Separate s id d) :
          wp (cleanupLMCacheNodeLocalServerPods s o) (fun _ => Separate s id) (Separate s id) d :=
        (wp_cleanupServers_separate ho h).mono (fun _ _ h => h.1) fun _ h => h
      dsimp only
      split
      case isTrue =>
        rw [wp_bind]
        exact (wp_ensureForConsumers_separate ho h).mono (fun _ _ h => hc h) fun _ h => h
      case isFalse => exact hc h
  case cleanup o => exact (wp_cleanupServers_separate ho h).mono (fun _ _ h => h.1) fun _ h => h
  case finalize o el =>
    show wp (do let _ ← finalizeLMCacheNodeLocal s o el) _ _ _
    rw [wp_bind]
    exact (wp_finalize_separate ho h).mono (fun _ _ h => h) fun _ h => h

theorem Separate.evolves (h : Separate s id c) (he : Evolves id c.pods pods') :
    Separate s id (c.record .outside pods') := by
  have hs := h.sane.evolves he
  refine h.next hs (h.apart.of_origin h.sane hs ?_ ?_) (.inr ⟨.outside, rfl⟩)
  case refine_1 =>
    intro x hx hc hr
    have ⟨x₀, hx₀, hcont⟩ := he.from_ x hx hc.1
    exact ⟨x₀, hx₀, hcont.sameRole, hcont.released hr⟩
  case refine_2 =>
    intro y hy hsy hd
    have ⟨y₀, hy₀, hcont⟩ := he.from_ y hy hsy.1
    refine ⟨y₀, hy₀, hcont.sameRole, ?_⟩
    rw [hcont.same] at hd
    exact hd

theorem Step.separate {x : Label} (hst : Step s id c x d) (h : Separate s id c) (hb : StepsHeldBack s id c x) :
    Separate s id d := by
  cases hst
  case pass p fate ho =>
    have hf : Separate s id { c with fate := fate } := ⟨h.sane, h.apart, h.history⟩
    have hw : wp (p.program s) (fun _ => Separate s id) (Separate s id) { c with fate := fate } :=
      wp_pass_separate ho hf hb
    exact hw.state
  case outside pods he => exact h.evolves he

theorem Fresh.separate (h : Fresh id c) : Separate s id c where
  sane := h.sane
  apart x hx hc := absurd hc.1 (h.foreign x hx)
  history := by
    rw [h.history]
    exact fun _ hm => nomatch hm

end Passes

theorem cleanup_and_server_never_overlap (s : Setup) (id : Identity) (c : Cluster)
    (h : Reached s id (StepsHeldBack s id) c) :
    NoOverlap id c.pods ∧ ∀ m ∈ c.history, NoOverlap id m.pods := by
  have hs : Separate s id c := h.induction (fun _ hf => hf.separate) fun h hst hb => hst.separate h hb
  exact ⟨hs.apart, hs.history⟩

def cacheIdentity : Identity :=
  ⟨⟨utf8 "team", utf8 "cache"⟩, utf8 "1"⟩

def enginePod : PodObject where
  key := ⟨utf8 "team", utf8 "llm-0"⟩
  labels := stringMap [(utf8 "app", utf8 "llm")]
  annotations := stringMap [⟨annotationInjectedBy, utf8 "team/cache"⟩, ⟨annotationInjectedByUID, utf8 "1"⟩]
  controller := none
  deleting := false
  nodeName := utf8 "n1"
  affinity := none
  restartPolicy := utf8 "Always"
  schedulingGates := []
  spec := ⟨[], [], [nodeShmVolume (utf8 "/dev/shm/inference-cache/1")]⟩
  ephemeralContainers := []
  phase := .running
  containerStatuses := []

def reconcilePass : Pass :=
  .reconcile nodeLocalOwner none fun _ => 0

def passed (c : Cluster) (fate : Nat → Outcome) : Cluster :=
  (reconcilePass.program .plain { c with fate := fate }).2

def engineGone (c : Cluster) : Cluster :=
  c.record .outside (c.pods.filter fun p => p.controller = some cacheIdentity.uid)

-- An engine comes and goes before its server has been scheduled.
def pendingServer : Cluster :=
  engineGone (passed ⟨[enginePod], [], fun _ => {}⟩ fun _ => {})

section Sample

variable {ok : Cluster → Label → Prop} {fate : Nat → Outcome}

theorem reached_passed (h : Reached .plain cacheIdentity ok c) (hp : ok c (.pass reconcilePass fate)) :
    Reached .plain cacheIdentity ok (passed c fate) :=
  h.step (.pass (p := reconcilePass) ⟨rfl, rfl⟩) hp

theorem reached_pendingServer
    (h₁ : ok ⟨[enginePod], [], fun _ => {}⟩ (.pass reconcilePass fun _ => {}))
    (h₂ : ∀ c pods, ok c (.outside pods)) : Reached .plain cacheIdentity ok pendingServer := by
  have hf : Fresh cacheIdentity ⟨[enginePod], [], fun _ => {}⟩ := by
    refine ⟨by simp, ?_, rfl⟩
    intro p hp
    rw [List.mem_singleton.mp hp]
    exact fun he => nomatch he
  have hn : ((passed ⟨[enginePod], [], fun _ => {}⟩ fun _ => {}).pods.map PodObject.key).Nodup := by decide +kernel
  exact (reached_passed hf.reached h₁).step (.outside (evolves_filter hn)) (h₂ _ _)

end Sample

theorem cleanup_and_server_never_overlap_released :
    ∃ c, Reached .plain cacheIdentity (StepsHeldBack .plain cacheIdentity) c ∧
    (∃ x ∈ c.pods, cacheIdentity.Cleanup x ∧ Released x) ∧ NoOverlap cacheIdentity c.pods := by
  let c := passed (passed pendingServer fun _ => {}) fun _ => {}
  have hnone {c : Cluster} (h : (∀ x ∈ c.pods, ¬cacheIdentity.Cleanup x) ∨ ∀ y ∈ c.pods, ¬cacheIdentity.Server y) :
      HeldBack .plain nodeLocalOwner cacheIdentity c.pods := by
    intro x hx hc _ _ y hy hs
    exact h.elim (fun h => absurd hc (h x hx)) fun h => absurd hs (h y hy)
  have h₁ : Reached .plain cacheIdentity (StepsHeldBack .plain cacheIdentity) pendingServer :=
    reached_pendingServer (fun _ => hnone (.inl (by decide +kernel))) fun _ _ => trivial
  have h₂ : Reached .plain cacheIdentity (StepsHeldBack .plain cacheIdentity) (passed pendingServer fun _ => {}) :=
    reached_passed h₁ fun _ => hnone (.inl (by decide +kernel))
  have h₃ : Reached .plain cacheIdentity (StepsHeldBack .plain cacheIdentity) c :=
    reached_passed h₂ fun _ => hnone (.inr (by decide +kernel))
  exact ⟨c, h₃, by decide +kernel, (cleanup_and_server_never_overlap .plain cacheIdentity c h₃).1⟩

-- All passes are of a backend in the NodeLocal topology, and at most one request of each is answered by an error.
def FailsOnce : Label → Prop
  | .pass (.reconcile o _ _) fate => o.isTypedLMCacheNodeLocal = true ∧ ∃ k, ∀ i, i ≠ k → (fate i).err = none
  | .pass _ _ => False
  | .outside _ => True

-- The server is still pending when its node is left, and then it cannot be deleted. Next time nothing is on the node.
theorem cleanup_and_server_overlap : ∃ c, Reached .plain cacheIdentity (fun _ x => FailsOnce x) c ∧
    ¬∀ m ∈ c.history, NoOverlap cacheIdentity m.pods := by
  let timeout (k : Nat) : Outcome := if k = 5 then { err := some (utf8 "timeout") } else {}
  let c := passed (passed pendingServer timeout) fun _ => {}
  have hno : FailsOnce (.pass reconcilePass fun _ => {}) := ⟨by decide +kernel, 0, fun _ _ => rfl⟩
  have htimeout : FailsOnce (.pass reconcilePass timeout) := ⟨by decide +kernel, 5, fun i hi => by simp [timeout, hi]⟩
  have h₁ : Reached .plain cacheIdentity (fun _ x => FailsOnce x) pendingServer :=
    reached_pendingServer hno fun _ _ => trivial
  have h₂ : Reached .plain cacheIdentity (fun _ x => FailsOnce x) (passed pendingServer timeout) :=
    reached_passed h₁ htimeout
  have h₃ : Reached .plain cacheIdentity (fun _ x => FailsOnce x) c := reached_passed h₂ hno
  refine ⟨c, h₃, fun h => ?_⟩
  have hover : ∃ m ∈ c.history, ∃ x ∈ m.pods, cacheIdentity.Cleanup x ∧ Released x ∧ ∃ y ∈ m.pods,
      cacheIdentity.Server y ∧ y.deleting = false ∧ nodeLocalServerTargetNode y = targetNode x := by decide +kernel
  have ⟨m, hm, x, hx, hc, hr, y, hy, hs, hd, ht⟩ := hover
  exact h m hm x hx hc hr y hy hs hd ht

end InferenceCache.Controller.NodeLocal
