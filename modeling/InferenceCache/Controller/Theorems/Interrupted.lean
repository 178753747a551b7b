import InferenceCache.Controller.Theorems.Overlap

namespace InferenceCache.Controller.NodeLocal

open Kube Kube.Cluster Kube.Api Program Adapters EngineBinding

section Definitions

-- A cleanup without its gate is only deleted once it has come to its end.
def SparesRunning (s : Setup) (id : Identity) (m : Moment) : Prop :=
  ∀ p, m.event = .delete p → ∀ o n, o.Is id → isCleanup s o p n = true → p.schedulingGates = [] → p.isTerminal = true

def Calm (id : Identity) (N : GoString → Prop) (pods : List PodObject) : Prop :=
  ∀ x ∈ pods, id.Cleanup x → N (targetNode x) → ¬Released x

-- The nodes of the servers that a pass gives up for a cleanup.
def Retiring (s : Setup) (o : Owner) (id : Identity) (now : PodObject → Time) (path : GoString) (pods : List PodObject)
    (n : GoString) : Prop :=
  ∃ y ∈ pods, id.Server y ∧ Retires s o path (demandIn o pods) now y ∧ nodeLocalServerTargetNode y = n

-- Whatever is under way on such a node stays behind its gate for the whole pass.
def StaysGated (s : Setup) (o : Owner) (id : Identity) (now : PodObject → Time) (pods : List PodObject) : Prop :=
  ∀ path, nodeLocalServerShmHostPath s.lib o.object = .ok path →
    ∀ x ∈ pods, id.Cleanup x → Retiring s o id now path pods (targetNode x) → x.isTerminal = false →
      x.schedulingGates ≠ [] ∧ (x.deleting = true ∨ ((demandIn o pods).lookup (targetNode x)).isSome = true ∨
        ∃ z ∈ pods, consumesShm o path (targetNode x) z = true)

def StepsSpare (s : Setup) (id : Identity) (c : Cluster) : Label → Prop
  | .pass (.reconcile o _ now) _ =>
    if o.isTypedLMCacheNodeLocal then StaysGated s o id now c.pods
    else Calm id (Dismisses s o id c.pods) c.pods ∧ (o.hasFinalizer = true → Calm id (Traces s o c.pods) c.pods)
  | .pass (.cleanup o) _ => Calm id (Dismisses s o id c.pods) c.pods
  | .pass (.finalize o _) _ => Calm id (Dismisses s o id c.pods) c.pods ∧ Calm id (Traces s o c.pods) c.pods
  | .outside _ => True

end Definitions

variable {s : Setup} {o : Owner} {id : Identity} {n : GoString} {c c₁ d : Cluster} {x y : PodObject}
variable {pods pods' : List PodObject} {key : Webhook.ObjectKey} {N N' : GoString → Prop} {e : Cluster → Prop}
variable {demand : GoMap GoString PodObject} {cancelOnDemand : Bool} {l : List PodObject}

section Requests

structure Unharmed (s : Setup) (id : Identity) (c : Cluster) : Prop where
  sane    : Sane s id c.pods
  history : ∀ m ∈ c.history, SparesRunning s id m

theorem Unharmed.idle (h : Unharmed s id c) (hi : Idle c d) : Unharmed s id d :=
  ⟨hi.pods ▸ h.sane, hi.history ▸ h.history⟩

theorem Unharmed.wrote {event : Kube.Event} {after : List PodObject} (h : Unharmed s id c) (hw : Wrote c event after d)
    (hs : Sane s id d.pods) (hd : SparesRunning s id ⟨event, after⟩) : Unharmed s id d := by
  refine ⟨hs, ?_⟩
  rw [hw.history]
  intro m hm
  cases hm
  case head => exact hd
  case tail hm => exact h.history m hm

theorem spares_delete (h : id.Cleanup x → ¬Released x) : SparesRunning s id ⟨.delete x, pods⟩ := by
  intro p hp o n ho hv hg
  cases hp
  have hc := (cleanup_of_isCleanup ho hv).1
  cases ht : x.isTerminal
  case true => rfl
  case false => exact absurd ⟨hg, ht⟩ (h hc)

theorem Act.calm (h : Act s o id N key c d) (hc : Calm id N' c.pods) : Calm id N' d.pods := by
  intro x hx hcx hN hr
  have ⟨y, hy, hst⟩ := h.released hx hr
  have hrole : SameRole s id y x := hst.sameRole
  exact hc y hy (hrole.owns hcx) (hrole.target ▸ hN) (hst.released hr)

theorem Act.unharmed (ho : o.Is id) (ha : Act s o id N key c d) (h : Unharmed s id c) (hc : Calm id N c.pods) :
    Unharmed s id d := by
  have hs := ha.sane ho h.sane
  cases ha
  case idle hi => exact h.idle hi
  case ensure hw => exact h.wrote hw hs fun _ he => nomatch he
  case clear x after hn hx _ ht _ _ hw => exact h.wrote hw hs (spares_delete fun hcx => hc x hx hcx (ht ▸ hn))
  case drop x after hx hsx _ _ hw =>
    exact h.wrote hw hs (spares_delete fun hcx => absurd hcx (h.sane.not_cleanup hx hsx))
  case note hw => exact h.wrote hw hs fun _ he => nomatch he

theorem Works.unharmed (ho : o.Is id) (hw : Works s o id N c d) (h : Unharmed s id c) (hc : Calm id N c.pods) :
    Unharmed s id d :=
  (hw.invariant (I := fun c => Unharmed s id c ∧ Calm id N c.pods) ⟨h, hc⟩
    fun _ _ _ hI ha => ⟨ha.unharmed ho hI.1 hI.2, ha.calm hI.2⟩).1

theorem Works.calm (hw : Works s o id N c d) (hc : Calm id N' c.pods) : Calm id N' d.pods :=
  hw.invariant (I := fun c => Calm id N' c.pods) hc fun _ _ _ hc ha => ha.calm hc

-- The loops over the cleanups only delete what has come to its end, is behind its gate or is not valid.
theorem Sweep.unharmed (ho : o.Is id) (hw : Sweep s o id demand cancelOnDemand l c d) (h : Unharmed s id c) :
    Unharmed s id d := by
  have hs := hw.sane ho h.sane
  cases hw
  case idle hi => exact h.idle hi
  case remove x after _ hx _ hwhy _ hw =>
    refine h.wrote hw hs (spares_delete fun hcx hr => ?_)
    rcases hwhy with ht | hg | hv
    case inl => cases hr.2.symm.trans ht
    case inr.inl => exact hg.2.1 hr.1
    case inr.inr => cases hv.symm.trans (h.sane.cleanups x hx hcx o ho)
  case retry hw => exact h.wrote hw hs fun _ he => nomatch he
  case release hw => exact h.wrote hw hs fun _ he => nomatch he

theorem Sweeps.unharmed (ho : o.Is id) (hw : Sweeps s o id demand cancelOnDemand l c d) (h : Unharmed s id c) :
    Unharmed s id d :=
  hw.invariant h fun _ _ h hw => hw.unharmed ho h

theorem Sweeps.calm {now : PodObject → Time} {path : GoString} (ho : o.Is id)
    (hw : Sweeps s o id (demandIn o c.pods) true (listed o c) c₁ d) (hi : Idle c c₁) (hs : Sane s id c.pods)
    (hp : nodeLocalServerShmHostPath s.lib o.object = .ok path) (hg : StaysGated s o id now c.pods) :
    Calm id (Retiring s o id now path c.pods) d.pods := by
  refine (hw.invariant (I := fun d => Sane s id d.pods ∧ Calm id (Retiring s o id now path c.pods) d.pods ∧
    ∀ y, ¬id.Cleanup y → (y ∈ d.pods ↔ y ∈ c.pods)) ⟨hi.pods ▸ hs, ?_, fun y _ => hi.pods ▸ Iff.rfl⟩ ?_).2.1
  case refine_1 =>
    rw [hi.pods]
    exact fun x hx hcx hN hr => (hg path hp x hx hcx hN hr.2).1 hr.1
  case refine_2 =>
    rintro c₂ d ⟨hs₂, hc₂, hm⟩ hw
    refine ⟨hw.sane ho hs₂, ?_, fun y hy => (hw.mem_iff ho hs₂.nodup hy).trans (hm y hy)⟩
    intro x hx hcx hN hr
    cases hw.swept hs₂.nodup hx
    case same hx => exact hc₂ x hx hcx hN hr
    case marked x₀ _ hx₀ hc₀ he _ =>
      subst he
      exact hc₂ x₀ hx₀ hc₀ hN hr
    case released x₀ path' hl _ hc₀ he ht hk hgate hu hp' hq =>
      subst he
      cases hp.symm.trans hp'
      rcases (hg path hp x₀ (List.mem_of_mem_filter hl) hc₀ hN ht).2 with hd | hd | ⟨z, hz, hzc⟩
      case inl => cases hu.symm.trans hd
      case inr.inl => exact hk ⟨ht, hgate, rfl, hd⟩
      case inr.inr =>
        have hz₂ := (hm z (not_cleanup_of_consumesShm ho hzc)).mpr hz
        cases (hq z hz₂).symm.trans hzc
    case retried hq =>
      have hgate := hr.1
      rw [hq.eq] at hgate
      cases hgate

end Requests

section Passes

theorem Founded.unharmed (ho : o.Is id) (hf : Founded s o n c d) (h : Unharmed s id c) : Unharmed s id d := by
  cases hf
  case idle hi => exact h.idle hi
  case created pod hs hfr hw =>
    refine h.wrote hw ?_ fun _ he => nomatch he
    exact hw.pods ▸ h.sane.created hfr ⟨fun _ => hs.fits ho, fun hc => absurd hc.sweeper (hs.fits ho).apart⟩

theorem wp_reconcileNodeLocal_unharmed {binding : Option Binding} {now : PodObject → Time} (ho : o.Is id)
    (h : Unharmed s id c) (hg : StaysGated s o id now c.pods) :
    wp (reconcileNodeLocal s o binding now) (fun _ => Unharmed s id) (Unharmed s id) c := by
  apply wp_reconcileNodeLocal
  case hi => exact fun d hi => h.idle hi
  case h =>
    intro path c₁ hp h₁
    rw [wp_bind]
    have hu₁ : Unharmed s id c₁ := h.idle h₁
    have hlist : listed o c₁ = listed o c := congrArg (List.filter o.listsCleanup) h₁.pods
    refine (wp_sweeps ho hu₁.sane.nodup).mono ?_ fun d hw => hw.unharmed ho hu₁
    intro blocked d hw
    have hd : Unharmed s id d := hw.unharmed ho hu₁
    have hcalm : Calm id (Retiring s o id now path c.pods) d.pods := (hlist ▸ hw).calm ho h₁ h.sane hp hg
    rw [wp_bind]
    have hN {x : PodObject} (hx : x ∈ c.pods.filter o.listsServer) (hsx : id.Server x) (n : GoString)
        (hn : n = nodeLocalServerTargetNode x ∧ Retires s o path (demandIn o c.pods) now x) :
        Retiring s o id now path c.pods n := ⟨x, List.mem_of_mem_filter hx, hsx, hn.2, hn.1.symm⟩
    refine (wp_reconcileServers
      (I := fun _ _ d => Unharmed s id d ∧ Calm id (Retiring s o id now path c.pods) d.pods) ho
      hd.sane (h.sane.nodup.sublist (List.filter_sublist.map _)) (fun x hx => (List.mem_filter.mp hx).2) ?_ ⟨hd, hcalm⟩
      (fun _ _ _ _ h => h) ?_ ?_).mono ?_ fun _ h => h
    case refine_1 =>
      intro x hx hsx
      have hxc := List.mem_of_mem_filter hx
      exact (hw.mem_iff ho hu₁.sane.nodup (h.sane.not_cleanup hxc hsx)).mpr (h₁.pods ▸ hxc)
    case refine_2 =>
      intro x hx hsx _ seen c seen' d _ hxc hI ht
      have ha := ((ht.acts hxc hsx).mono (hN hx hsx)).works
      exact ⟨ha.unharmed ho hI.1 hI.2, ha.calm hI.2⟩
    case refine_3 =>
      intro x hx hsx _ seen c d _ hxc hI hb
      exact ((hb.acts hxc hsx).mono (hN hx hsx)).works.unharmed ho hI.1 hI.2
    case refine_4 =>
      rintro seen d ⟨_, hd, _⟩
      exact wp_createServers hd fun n c d _ _ h hf => hf.unharmed ho h

theorem Works.dismisses (hw : Works s o id N c d) (h : Dismisses s o id d.pods n) : Dismisses s o id c.pods n := by
  have ⟨path, hp, x, hx, hs, hd, hu, ht⟩ := h
  have ⟨y, hy, hst⟩ := hw.server hx hs
  have hrole : SameRole s id y x := hst.sameRole
  refine ⟨path, hp, y, hy, hrole.owns hs, hst.deleting hd, ?_, ?_⟩
  case refine_1 =>
    rw [hst.same] at hu
    exact hu
  case refine_2 =>
    have hnode : x.nodeName = y.nodeName := by rw [hst.same]
    rw [nodeLocalServerTargetNode, hrole.target, hnode] at ht
    exact ht

theorem wp_cleanupServers_unharmed (ho : o.Is id) (h : Unharmed s id c)
    (hc : Calm id (Dismisses s o id c.pods) c.pods) :
    wp (cleanupLMCacheNodeLocalServerPods s o) (fun _ => Unharmed s id) (Unharmed s id) c := by
  apply wp_cleanupServers ho h.sane
  case hu => exact fun _ => h
  case he => exact fun d hw => hw.unharmed ho h hc
  case hl =>
    intro d hw hs _
    have hd := hw.unharmed ho h hc
    exact (wp_sweeps ho hs.nodup).mono (fun _ _ hw => hw.unharmed ho hd) fun _ hw => hw.unharmed ho hd

-- What a Pod that was injected for the backend calls for comes first.
theorem wp_ensureForConsumers_unharmed (ho : o.Is id) (h : Unharmed s id c) (hc : Calm id (Traces s o c.pods) c.pods)
    (hd : Calm id (Dismisses s o id c.pods) c.pods) :
    wp (ensureLMCacheNodeLocalCleanupForConsumers s o)
      (fun _ d => Unharmed s id d ∧ Calm id (Dismisses s o id d.pods) d.pods) (Unharmed s id) c := by
  refine (wp_ensureForConsumers ho h.sane).mono ?_ fun _ hw => hw.unharmed ho h hc
  intro _ d hw
  refine ⟨hw.unharmed ho h hc, fun x hx hcx hN => ?_⟩
  exact hw.calm hd x hx hcx (hw.dismisses hN)

theorem wp_pass_unharmed {p : Pass} {fate : Nat → Outcome} (ho : p.owner.Is id) (h : Unharmed s id c)
    (hb : StepsSpare s id c (.pass p fate)) : wp (p.program s) (fun _ => Unharmed s id) (Unharmed s id) c := by
  cases p
  case reconcile o binding now =>
    show wp (reconcileLMCacheNodeLocalServerPods s o binding now) _ _ _
    simp only [StepsSpare] at hb
    unfold reconcileLMCacheNodeLocalServerPods
    split
    case isTrue ht =>
      rw [if_pos ht] at hb
      exact wp_reconcileNodeLocal_unharmed ho h hb
    case isFalse ht =>
      rw [if_neg ht] at hb
      dsimp only
      split
      case isTrue hf =>
        rw [wp_bind]
        refine (wp_ensureForConsumers_unharmed ho h (hb.2 hf) hb.1).mono ?_ fun _ h => h
        exact fun _ d hd => wp_cleanupServers_unharmed ho hd.1 hd.2
      case isFalse => exact wp_cleanupServers_unharmed ho h hb.1
  case cleanup o => exact wp_cleanupServers_unharmed ho h hb
  case finalize o el =>
    show wp (do let _ ← finalizeLMCacheNodeLocal s o el) _ _ _
    rw [wp_bind]
    refine (wp_finalize (fun _ _ h => h.idle) h ?_).mono (fun _ _ h => h) fun _ h => h
    rw [wp_bind]
    refine (wp_ensureForConsumers_unharmed ho h hb.2 hb.1).mono ?_ fun _ h => h
    intro _ d hd
    rw [wp_bind]
    refine (wp_cleanupServers_unharmed ho hd.1 hd.2).mono ?_ fun _ h => h
    intro _ d hd
    exact (wp_sweeps ho hd.sane.nodup).mono (fun _ _ hw => hw.unharmed ho hd) fun _ hw => hw.unharmed ho hd

theorem Step.unharmed {x : Label} (hst : Step s id c x d) (h : Unharmed s id c) (hb : StepsSpare s id c x) :
    Unharmed s id d := by
  cases hst
  case pass p fate ho =>
    have hf : Unharmed s id { c with fate := fate } := ⟨h.sane, h.history⟩
    have hw : wp (p.program s) (fun _ => Unharmed s id) (Unharmed s id) { c with fate := fate } :=
      wp_pass_unharmed ho hf hb
    exact hw.state
  case outside pods he =>
    refine ⟨h.sane.evolves he, fun m hm => ?_⟩
    cases hm
    case head => exact fun _ he => nomatch he
    case tail hm => exact h.history m hm

theorem Fresh.unharmed (h : Fresh id c) : Unharmed s id c where
  sane := h.sane
  history := by
    rw [h.history]
    exact fun _ hm => nomatch hm

end Passes

theorem running_cleanup_never_deleted (s : Setup) (id : Identity) (c : Cluster)
    (h : Reached s id (StepsSpare s id) c) : ∀ m ∈ c.history, SparesRunning s id m := by
  have hu : Unharmed s id c := h.induction (fun _ hf => hf.unharmed) fun h hst hb => hst.unharmed h hb
  exact hu.history

def cleanupFailed (c : Cluster) : Cluster :=
  c.record .outside (c.pods.map fun p => { p with phase := .failed })

theorem evolves_failed (hn : (pods.map PodObject.key).Nodup) (hr : ∀ p ∈ pods, Released p) :
    Evolves id pods (pods.map fun p => { p with phase := .failed }) := by
  have hc {p : PodObject} (hp : p ∈ pods) : Continues p { p with phase := .failed } :=
    ⟨rfl, .inl rfl, fun hg => absurd (hr p hp).1 hg, fun ht => nomatch (hr p hp).2.symm.trans ht⟩
  refine ⟨?_, ?_, ?_⟩
  case refine_1 =>
    rw [List.map_map]
    exact hn
  case refine_2 =>
    intro p' hp' _
    have ⟨p, hp, he⟩ := List.mem_map.mp hp'
    exact ⟨p, hp, he ▸ hc hp⟩
  case refine_3 => exact fun p hp _ _ => ⟨_, List.mem_map_of_mem hp, hc hp⟩

theorem running_cleanup_never_deleted_failed : ∃ c, Reached .plain cacheIdentity (StepsSpare .plain cacheIdentity) c ∧
    (∀ m ∈ c.history, SparesRunning .plain cacheIdentity m) ∧
    ∃ m ∈ c.history, ∃ p, m.event = .delete p ∧ cacheIdentity.Cleanup p ∧ p.schedulingGates = [] := by
  let released := passed (passed pendingServer fun _ => {}) fun _ => {}
  let c := passed (cleanupFailed released) fun _ => {}
  have hok {c : Cluster} (h : (∀ x ∈ c.pods, ¬cacheIdentity.Cleanup x) ∨ ∀ y ∈ c.pods, ¬cacheIdentity.Server y) :
      StepsSpare .plain cacheIdentity c (.pass reconcilePass fun _ => {}) := by
    have hg : StaysGated .plain nodeLocalOwner cacheIdentity (fun _ => 0) c.pods := by
      rintro _ _ x hx hc ⟨y, hy, hs, _⟩
      exact h.elim (fun h => absurd hc (h x hx)) fun h => absurd hs (h y hy)
    exact hg
  have h₁ : Reached .plain cacheIdentity (StepsSpare .plain cacheIdentity) pendingServer :=
    reached_pendingServer (hok (.inl (by decide +kernel))) fun _ _ => trivial
  have h₂ : Reached .plain cacheIdentity (StepsSpare .plain cacheIdentity) (passed pendingServer fun _ => {}) :=
    reached_passed h₁ (hok (.inl (by decide +kernel)))
  have h₃ : Reached .plain cacheIdentity (StepsSpare .plain cacheIdentity) released :=
    reached_passed h₂ (hok (.inr (by decide +kernel)))
  have h₄ : Reached .plain cacheIdentity (StepsSpare .plain cacheIdentity) (cleanupFailed released) :=
    h₃.step (.outside (evolves_failed (by decide +kernel) (by decide +kernel))) trivial
  have h₅ : Reached .plain cacheIdentity (StepsSpare .plain cacheIdentity) c :=
    reached_passed h₄ (hok (.inr (by decide +kernel)))
  have hd : ∃ m ∈ c.history, (match m.event with
      | .delete p => decide (cacheIdentity.Cleanup p ∧ p.schedulingGates = [])
      | _         => false) = true := by decide +kernel
  refine ⟨c, h₅, running_cleanup_never_deleted .plain cacheIdentity c h₅, ?_⟩
  have ⟨m, hm, hd⟩ := hd
  split at hd
  case h_1 p he => exact ⟨m, hm, p, he, of_decide_eq_true hd⟩
  case h_2 => cases hd

def Answered : Label → Prop
  | .pass _ fate => ∀ i, (fate i).err = none
  | .outside _   => True

def finalizePass : Pass :=
  .finalize nodeLocalOwner ⟨none, none⟩

-- The engine has come to its end, but its Pod is still there. The first finalization creates a cleanup and releases
-- it, the second takes it for an invalid one.
theorem running_cleanup_deleted : ∃ c, Reached .plain cacheIdentity (fun _ x => Answered x) c ∧
    ¬∀ m ∈ c.history, SparesRunning .plain cacheIdentity m := by
  let c₀ : Cluster := ⟨[{ enginePod with phase := .succeeded }], [], fun _ => {}⟩
  let c₁ := (finalizePass.program .plain c₀).2
  let c₂ := (finalizePass.program .plain { c₁ with fate := fun _ => {} }).2
  have hf : Fresh cacheIdentity c₀ := by
    refine ⟨by simp [c₀], ?_, rfl⟩
    intro p hp
    rw [List.mem_singleton.mp hp]
    exact fun he => nomatch he
  have h₁ : Reached .plain cacheIdentity (fun _ x => Answered x) c₁ :=
    hf.reached.step (.pass (p := finalizePass) ⟨rfl, rfl⟩) fun _ => rfl
  have h₂ : Reached .plain cacheIdentity (fun _ x => Answered x) c₂ :=
    h₁.step (.pass (p := finalizePass) ⟨rfl, rfl⟩) fun _ => rfl
  have hd : ∃ m ∈ c₂.history, (match m.event with
      | .delete p => decide (isCleanup .plain nodeLocalOwner p (utf8 "n1") = true ∧ Released p)
      | _         => false) = true := by decide +kernel
  refine ⟨c₂, h₂, fun h => ?_⟩
  have ⟨m, hm, hd⟩ := hd
  split at hd
  case h_2 => cases hd
  case h_1 p he =>
    have ⟨hv, hr⟩ := of_decide_eq_true hd
    cases (h m hm p he nodeLocalOwner (utf8 "n1") ⟨rfl, rfl⟩ hv hr.1).symm.trans hr.2

end InferenceCache.Controller.NodeLocal
