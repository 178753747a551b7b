import InferenceCache.Controller.Theorems.Intents

namespace InferenceCache.Controller.NodeLocal

open Kube Kube.Cluster Kube.Api Program Adapters EngineBinding

variable {s : Setup} {o : Owner} {id : Identity} {n : GoString} {c c₁ c' d : Cluster} {x y p : PodObject}
variable {pods : List PodObject} {key : Webhook.ObjectKey} {N : GoString → Prop}

section Proper

-- A cleanup that every reconcile of the backend takes for one.
def Proper (s : Setup) (id : Identity) (p : PodObject) : Prop :=
  ∀ o : Owner, o.Is id → isCleanup s o p (targetNode p) = true

theorem shmHostPath_congr {o' : Owner} (hu : o.uid = o'.uid) :
    nodeLocalServerShmHostPath s.lib o.object = nodeLocalServerShmHostPath s.lib o'.object := by
  have hu : o.object.spec.rest.uid = o'.object.spec.rest.uid := hu
  simp only [nodeLocalServerShmHostPath, nodeLocalBackendUID, hu]

theorem isCleanup_congr {o' : Owner} (ho : o.Is id) (ho' : o'.Is id) (h : isCleanup s o p n = true) :
    isCleanup s o' p n = true := by
  have hk : o.inNamespace = o'.inNamespace := congrArg Webhook.ObjectKey.inNamespace (ho.1.trans ho'.1.symm)
  have hu : o.uid = o'.uid := ho.2.trans ho'.2.symm
  have hv := isCleanup_iff.mp h
  have hr := hv.runs
  simp only [isLMCacheNodeLocalCleanupPod.runsCleanup, isLMCacheNodeLocalCleanupPod.isShmOf, shmHostPath_congr hu] at hr
  exact isCleanup_iff.mpr { hv with
    uid := hu ▸ hv.uid
    inNamespace := hk ▸ hv.inNamespace
    own := hu ▸ hv.own
    name := hu ▸ hv.name
    backend := hu ▸ hv.backend
    ownerUID := hu ▸ hv.ownerUID
    runs := hr }

theorem proper_of_isCleanup (ho : o.Is id) (h : isCleanup s o p n = true) : Proper s id p := by
  intro o' ho'
  rw [targetNode_of_isCleanup h]
  exact isCleanup_congr ho ho' h

theorem Proper.marked (h : Proper s id p) : Proper s id p.marked :=
  h

theorem Proper.release (h : Proper s id p) : Proper s id (release p) :=
  fun o ho => isCleanup_release (h o ho)

theorem Proper.retry {k : Int} (h : Proper s id x) (ho : o.Is id) (hr : RetryOf s o x k y) : Proper s id y :=
  proper_of_isCleanup ho (isCleanup_retry (h o ho) hr)

-- A cleanup is only scheduled to its own node.
theorem Proper.continues (h : Proper s id x) (hc : Continues x y) : Proper s id y := by
  intro o ho
  have ht : targetNode y = targetNode x := by rw [hc.same]; rfl
  have hv := isCleanup_iff.mp (h o ho)
  rw [ht]
  apply isCleanup_iff.mpr
  rw [hc.same]
  refine { hv with node := ?_ }
  cases hc.node
  case inl hn =>
    rw [hn]
    exact hv.node
  case inr hn =>
    have ha := hv.affinity
    rw [hn.2.2] at ha
    exact .inr (of_decide_eq_true ha)

theorem Proper.gates (h : Proper s id p) (ho : o.Is id) (hg : p.schedulingGates ≠ []) :
    lmCacheNodeLocalCleanupIsGated p = true :=
  (isCleanup_iff.mp (h o ho)).gates.resolve_left fun he => hg (List.length_eq_zero_iff.mp he)

end Proper

section Sane

structure Fits (s : Setup) (id : Identity) (p : PodObject) : Prop where
  apart : ¬id.Sweeper p
  aimed : targetNode p ≠ []
  named : p.key.name = nodeLocalServerPodName s.sha256 id.key.name (targetNode p)

-- What is true of the Pods between any two requests.
structure Sane (s : Setup) (id : Identity) (pods : List PodObject) : Prop where
  nodup    : (pods.map PodObject.key).Nodup
  servers  : ∀ p ∈ pods, id.Server p → Fits s id p
  cleanups : ∀ p ∈ pods, id.Cleanup p → Proper s id p

theorem Sane.not_cleanup (h : Sane s id pods) (hx : x ∈ pods) (hs : id.Server x) : ¬id.Cleanup x :=
  fun hc => (h.servers x hx hs).apart hc.sweeper

theorem Fits.target (h : Fits s id x) : nodeLocalServerTargetNode x = targetNode x := by
  rw [nodeLocalServerTargetNode, if_pos h.aimed]

theorem Sane.key_eq (h : Sane s id pods) (hx : x ∈ pods) (hy : y ∈ pods) (hsx : id.Server x) (hsy : id.Server y)
    (ht : targetNode x = targetNode y) : x.key = y.key := by
  have hn : x.key.name = y.key.name := by rw [(h.servers x hx hsx).named, (h.servers y hy hsy).named, ht]
  have hs : x.key.inNamespace = y.key.inNamespace := hsx.2.1.trans hsy.2.1.symm
  cases hkx : x.key
  cases hky : y.key
  simp_all

-- Whether a Pod is a server or a cleanup, and of which node, depends on what never changes about it.
structure SameRole (s : Setup) (id : Identity) (p p' : PodObject) : Prop where
  key        : p'.key = p.key
  labels     : p'.labels = p.labels
  controller : p'.controller = p.controller
  target     : targetNode p' = targetNode p
  proper     : Proper s id p → Proper s id p'

theorem SameRole.refl : SameRole s id x x :=
  ⟨rfl, rfl, rfl, rfl, fun h => h⟩

theorem SameRole.owns_iff {label : GoString} (h : SameRole s id x y) : id.Owns label y ↔ id.Owns label x := by
  simp only [Identity.Owns, PodObject.label, h.key, h.labels, h.controller]

theorem SameRole.owns {label : GoString} (h : SameRole s id x y) (ho : id.Owns label y) : id.Owns label x :=
  h.owns_iff.mp ho

theorem SameRole.sweeper (h : SameRole s id x y) (hs : id.Sweeper y) : id.Sweeper x := by
  simp only [Identity.Sweeper, PodObject.label, h.key, h.labels, h.controller] at hs ⊢
  exact hs

theorem SameRole.fits (h : SameRole s id x y) (hf : Fits s id x) : Fits s id y where
  apart hs := hf.apart (h.sweeper hs)
  aimed := h.target ▸ hf.aimed
  named := by rw [h.target, h.key, hf.named]

theorem sameRole_marked : SameRole s id x x.marked :=
  ⟨rfl, rfl, rfl, rfl, Proper.marked⟩

theorem sameRole_release : SameRole s id x (release x) :=
  ⟨rfl, rfl, rfl, rfl, Proper.release⟩

theorem Continues.sameRole (h : Continues x y) : SameRole s id x y := by
  have hp (hx : Proper s id x) : Proper s id y := hx.continues h
  rw [h.same] at hp ⊢
  exact ⟨rfl, rfl, rfl, rfl, hp⟩

theorem Sane.of_origin {pods' : List PodObject} (h : Sane s id pods) (hn : (pods'.map PodObject.key).Nodup)
    (hm : ∀ y ∈ pods', (∃ x ∈ pods, SameRole s id x y) ∨
      (id.Server y → Fits s id y) ∧ (id.Cleanup y → Proper s id y)) : Sane s id pods' where
  nodup := hn
  servers y hy hs := by
    cases hm y hy
    case inl hm =>
      have ⟨x, hx, hr⟩ := hm
      exact hr.fits (h.servers x hx (hr.owns hs))
    case inr hm => exact hm.1 hs
  cleanups y hy hs := by
    cases hm y hy
    case inl hm =>
      have ⟨x, hx, hr⟩ := hm
      exact hr.proper (h.cleanups x hx (hr.owns hs))
    case inr hm => exact hm.2 hs

theorem sameRole_of_deleted {after : List PodObject} (hd : Deleted key pods after) (hy : y ∈ after) :
    ∃ x ∈ pods, SameRole s id x y := by
  cases hd.mem hy
  case inl h => exact ⟨y, h.1, .refl⟩
  case inr h =>
    have ⟨x, hx, _, he⟩ := h
    exact ⟨x, hx, he ▸ sameRole_marked⟩

theorem Sane.deleted {after : List PodObject} (h : Sane s id pods) (hd : Deleted key pods after) : Sane s id after :=
  h.of_origin (hd.nodup h.nodup) fun _ hy => .inl (sameRole_of_deleted hd hy)

theorem Sane.created (h : Sane s id c.pods) (hf : c.find p.key = none)
    (hp : (id.Server p → Fits s id p) ∧ (id.Cleanup p → Proper s id p)) : Sane s id (c.pods ++ [p]) := by
  refine h.of_origin (nodup_append_singleton h.nodup (find_eq_none hf)) fun y hy => ?_
  cases List.mem_append.mp hy
  case inl hy => exact .inl ⟨y, hy, .refl⟩
  case inr hy =>
    rw [List.mem_singleton.mp hy]
    exact .inr hp

theorem Sane.changed {change : PodObject → PodObject} (h : Sane s id pods) (hc : ∀ p, SameRole s id p (change p)) :
    Sane s id (changed key change pods) := by
  refine h.of_origin ?_ fun y hy => .inl ?_
  case refine_1 =>
    rw [changed_keys fun p => (hc p).key]
    exact h.nodup
  case refine_2 =>
    cases mem_changed.mp hy
    case inl hy => exact ⟨y, hy.1, .refl⟩
    case inr hy =>
      have ⟨x, hx, _, he⟩ := hy
      exact ⟨x, hx, he ▸ hc x⟩

theorem Sane.evolves {pods' : List PodObject} (h : Sane s id pods) (he : Evolves id pods pods') : Sane s id pods' := by
  refine h.of_origin he.nodup fun y hy => ?_
  by_cases hc : y.controller = some id.uid
  case neg => exact .inr ⟨fun hs => absurd hs.1 hc, fun hs => absurd hs.1 hc⟩
  case pos =>
    have ⟨x, hx, hxy⟩ := he.from_ y hy hc
    exact .inl ⟨x, hx, hxy.sameRole⟩

theorem Fresh.sane (h : Fresh id c) : Sane s id c.pods :=
  ⟨h.nodup, fun p hp hs => absurd hs.1 (h.foreign p hp), fun p hp hs => absurd hs.1 (h.foreign p hp)⟩

end Sane

section Rendered

theorem Renders.labels (h : Renders s o n p) : p.label labelLMCacheNodeLocalServer ≠ utf8 "true" := by
  have ⟨_, _, _, _, _, hp⟩ := h.eq
  have h₁ : labelLMCacheNodeLocalServer ≠ utf8 "app.kubernetes.io/name" := by decide +kernel
  have h₂ : labelLMCacheNodeLocalServer ≠ utf8 "app.kubernetes.io/managed-by" := by decide +kernel
  have h₃ : labelLMCacheNodeLocalServer ≠ labelLMCacheNodeLocalCleanup := by decide +kernel
  have h₄ : labelLMCacheNodeLocalServer ≠ labelCacheBackendUID := by decide +kernel
  rw [hp]
  simp only [PodObject.label, stringMap, List.foldl_cons, List.foldl_nil, Finmap.lookup_insert_ite, h₁, h₂, h₃, h₄,
    if_false, Finmap.lookup_empty, Option.getD_none]
  decide +kernel

theorem Renders.not_server (h : Renders s o n p) : ¬id.Server p :=
  fun hp => h.labels hp.2.2.1

theorem Renders.proper (ho : o.Is id) (h : Renders s o n p) : Proper s id p :=
  proper_of_isCleanup ho (isCleanup_iff.mpr h.validCleanup)

theorem Renders.cleanup (ho : o.Is id) (h : Renders s o n p) :
    id.Cleanup p ∧ targetNode p = n ∧ lmCacheNodeLocalCleanupIsGated p = true := by
  have ⟨hc, ht⟩ := cleanup_of_isCleanup ho (isCleanup_iff.mpr h.validCleanup)
  exact ⟨hc, ht, h.nth.1.gated⟩

def RendersServer (s : Setup) (o : Owner) (n : GoString) (p : PodObject) : Prop :=
  ∃ binding source d, renderLMCacheNodeLocalServerPod s.lib s.sha256 o.object binding n source = .ok d ∧
    p = { d with controller := some o.uid }

structure IsServer (s : Setup) (o : Owner) (n : GoString) (p : PodObject) : Prop where
  key        : p.key = ⟨o.inNamespace, nodeLocalServerPodName s.sha256 o.object.key.name n⟩
  controller : p.controller = some o.uid
  role       : p.label labelLMCacheNodeLocalServer = utf8 "true"
  backend    : p.label labelCacheBackendUID = o.uid
  cleanup    : p.label labelLMCacheNodeLocalCleanup ≠ utf8 "true"
  target     : targetNode p = n
  node       : n ≠ []
  unmarked   : p.deleting = false

theorem RendersServer.isServer (h : RendersServer s o n p) : IsServer s o n p := by
  have ⟨binding, source, d, hd, hp⟩ := h
  unfold renderLMCacheNodeLocalServerPod at hd
  split at hd
  case h_2 => cases hd
  case h_1 =>
    split at hd
    case isTrue => cases hd
    split at hd
    case isTrue => cases hd
    split at hd
    case isTrue => cases hd
    case isFalse hn =>
      have ⟨_, _, hd⟩ := Except.bind_eq_ok.mp hd
      have ⟨_, _, hd⟩ := Except.bind_eq_ok.mp hd
      have ⟨_, _, hd⟩ := Except.bind_eq_ok.mp hd
      have ⟨_, _, hd⟩ := Except.bind_eq_ok.mp hd
      cases hd
      subst hp
      have h₁ : labelLMCacheNodeLocalServer ≠ labelLMCacheMPMetrics := by decide +kernel
      have h₂ : labelLMCacheNodeLocalServer ≠ labelCacheBackendUID := by decide +kernel
      have h₃ : labelCacheBackendUID ≠ labelLMCacheMPMetrics := by decide +kernel
      have h₄ : labelLMCacheNodeLocalCleanup ≠ labelLMCacheMPMetrics := by decide +kernel
      have h₅ : labelLMCacheNodeLocalCleanup ≠ labelCacheBackendUID := by decide +kernel
      have h₆ : labelLMCacheNodeLocalCleanup ≠ labelLMCacheNodeLocalServer := by decide +kernel
      have h₇ : labelLMCacheNodeLocalCleanup ≠ utf8 "app.kubernetes.io/managed-by" := by decide +kernel
      have h₈ : labelLMCacheNodeLocalCleanup ≠ utf8 "app.kubernetes.io/name" := by decide +kernel
      exact {
        key := rfl
        controller := rfl
        role := by simp [PodObject.label, stringMap, h₁, h₂]
        backend := by simp [PodObject.label, stringMap, h₃]; rfl
        cleanup := by
          simp only [PodObject.label, stringMap, List.foldl_cons, List.foldl_nil, Finmap.lookup_insert_ite, h₄, h₅, h₆,
            h₇, h₈, if_false, Finmap.lookup_empty, Option.getD_none]
          decide +kernel
        target := by simp [targetNode, PodObject.annotation, stringMap]
        node := fun he => hn (.inl (by rw [he]; rfl))
        unmarked := rfl
      }

theorem IsServer.server (h : IsServer s o n p) (ho : o.Is id) : id.Server p := by
  refine ho.server_iff.mpr ⟨?_, decide_eq_true h.controller⟩
  simp only [Owner.listsServer, Owner.lists, decide_eq_true_eq]
  exact ⟨by rw [h.key], h.role, h.backend⟩

theorem IsServer.fits (h : IsServer s o n p) (ho : o.Is id) : Fits s id p where
  apart hp := h.cleanup hp.2.2
  aimed := h.target ▸ h.node
  named := by rw [h.key, h.target, ← ho.1]

end Rendered

section Sweeps

variable {demand : GoMap GoString PodObject} {cancelOnDemand : Bool} {succeeded : Finset GoString}
variable {l : List PodObject} {g g' : Progress} {k : Int}

-- One request of the loops over the cleanups that were listed.
inductive Sweep (s : Setup) (o : Owner) (id : Identity) (demand : GoMap GoString PodObject) (cancelOnDemand : Bool)
    (l : List PodObject) : Cluster → Cluster → Prop
  | idle {c d : Cluster} (idle : Idle c d) : Sweep s o id demand cancelOnDemand l c d
  | remove {c d : Cluster} {x : PodObject} {after : List PodObject} (listed : x ∈ l) (mem : x ∈ c.pods)
    (cleanup : id.Cleanup x)
    (why : x.isTerminal = true ∨ GivesWay demand cancelOnDemand x ∨ isCleanup s o x (targetNode x) = false)
    (del : Deleted x.key c.pods after) (wrote : Wrote c (.delete x) after d) : Sweep s o id demand cancelOnDemand l c d
  | retry {c d : Cluster} {x r : PodObject} {k : Int} (listed : x ∈ l) (mem : x ∈ c.pods) (cleanup : id.Cleanup x)
    (failed : Failed x) (alone : ∀ y ∈ c.pods, id.Cleanup y → targetNode y = targetNode x → ¬Live y ∧ ¬Succeeded y)
    (retry : RetryOf s o x k r) (free : c.find r.key = none) (wrote : Wrote c (.create r) (c.pods ++ [r]) d) :
    Sweep s o id demand cancelOnDemand l c d
  | release {c d : Cluster} {x : PodObject} {path : GoString} (listed : x ∈ l) (mem : x ∈ c.pods)
    (cleanup : id.Cleanup x) (running : x.isTerminal = false) (keeps : ¬GivesWay demand cancelOnDemand x)
    (gated : x.schedulingGates ≠ []) (unmarked : x.deleting = false)
    (found : nodeLocalServerShmHostPath s.lib o.object = .ok path)
    (quiet : ∀ y ∈ c.pods, consumesShm o path (targetNode x) y = false)
    (wrote : Wrote c (.patch x (release x)) (changed x.key release c.pods) d) : Sweep s o id demand cancelOnDemand l c d

def Sweeps (s : Setup) (o : Owner) (id : Identity) (demand : GoMap GoString PodObject) (cancelOnDemand : Bool)
    (l : List PodObject) : Cluster → Cluster → Prop :=
  Relation.ReflTransGen (Sweep s o id demand cancelOnDemand l)

theorem Sweeps.invariant {I : Cluster → Prop} (h : Sweeps s o id demand cancelOnDemand l c d) (hI : I c)
    (hs : ∀ c d, I c → Sweep s o id demand cancelOnDemand l c d → I d) : I d := by
  induction h
  case refl => exact hI
  case tail ha hi => exact hs _ _ hi ha

theorem Removed.sweeps (h : Removed x c d) (hl : x ∈ l) (hx : x ∈ c.pods) (hc : id.Cleanup x)
    (hw : x.isTerminal = true ∨ GivesWay demand cancelOnDemand x ∨ isCleanup s o x (targetNode x) = false) :
    Sweeps s o id demand cancelOnDemand l c d := by
  cases h
  case marked hi => exact .single (.idle hi)
  case deleted hd hwr => exact .single (.remove hl hx hc hw hd hwr)

-- The sets of nodes are those of the Pods that are there.
structure Tracks (id : Identity) (succeeded : Finset GoString) (g : Progress) (c : Cluster) : Prop where
  active : ∀ y ∈ c.pods, id.Cleanup y → Live y → targetNode y ∈ g.active
  done   : ∀ y ∈ c.pods, id.Cleanup y → Succeeded y → targetNode y ∈ succeeded

theorem Tracks.alone (h : Tracks id succeeded g c) (ha : n ∉ g.active) (hs : n ∉ succeeded) :
    ∀ y ∈ c.pods, id.Cleanup y → targetNode y = n → ¬Live y ∧ ¬Succeeded y := by
  intro y hy hc ht
  exact ⟨fun hl => ha (ht ▸ h.active y hy hc hl), fun hd => hs (ht ▸ h.done y hy hc hd)⟩

theorem Turn.tracks (ht : Turn s o demand cancelOnDemand succeeded x g c g' d) (h : Tracks id succeeded g c)
    (hn : (c.pods.map PodObject.key).Nodup) (hx : x ∈ c.pods) (hc : id.Cleanup x) : Tracks id succeeded g' d where
  active y hy hcy hl := by
    rcases ht.origin hx hn hy with hy | rfl | ⟨rfl, hr, _, hu, _⟩ | ⟨k, _, _, _, _, hq, _, ha⟩
    case inl => exact ht.active_subset (h.active y hy hcy hl)
    case inr.inl => cases hl.2
    case inr.inr.inl => exact ht.active_subset (h.active x hx hc ⟨hr, hu⟩)
    case inr.inr.inr =>
      rw [hq.targetNode]
      exact ha
  done y hy hcy hd := by
    rcases ht.origin hx hn hy with hy | rfl | ⟨rfl, hr, _, _, _⟩ | ⟨k, _, _, _, _, hq, _, _⟩
    case inl => exact h.done y hy hcy hd
    case inr.inl => exact h.done x hx hc hd
    case inr.inr.inl => cases hr.symm.trans hd.terminal
    case inr.inr.inr =>
      have hp := hd.terminal
      rw [hq.eq] at hp
      cases hp

theorem Turn.sweeps (h : Turn s o demand cancelOnDemand succeeded x g c g' d) (hl : x ∈ l) (hx : x ∈ c.pods)
    (hc : id.Cleanup x) (ht : Tracks id succeeded g c) : Sweeps s o id demand cancelOnDemand l c d := by
  cases h
  case done hd hr => exact hr.sweeps hl hx hc (.inl hd.terminal)
  case superseded hf _ hr => exact hr.sweeps hl hx hc (.inl hf.1)
  case exhausted => exact .refl
  case retried hf hs ha _ hq hp hr =>
    have hr : Sweeps s o id demand cancelOnDemand l _ d := hr.sweeps hl (hp.mem hx) hc (.inl hf.1)
    cases hp
    case created hfr hw => exact .head (.retry hl hx hc hf (ht.alone ha hs) hq hfr hw) hr
    case found hi => exact .head (.idle hi) hr
  case cancelled hg hr => exact hr.sweeps hl hx hc (.inr (.inl hg))
  case waiting hi => exact .single (.idle hi)
  case released ht hk hg hu hp hq hw => exact .single (.release hl hx hc ht hk hg hu hp hq hw)

theorem Broke.sweeps (h : Broke s o demand cancelOnDemand succeeded x g c d) (hl : x ∈ l) (hx : x ∈ c.pods)
    (hc : id.Cleanup x) (ht : Tracks id succeeded g c) : Sweeps s o id demand cancelOnDemand l c d := by
  cases h
  case idle hi => exact .single (.idle hi)
  case halfway hf hs ha _ hq hfr hw => exact .single (.retry hl hx hc hf (ht.alone ha hs) hq hfr hw)
  case unanswered h => exact h.sweeps hl hx hc ht

theorem Classified.tracks {f : Found} (ho : o.Is id) (h : Classified s o (listed o c) f) (hi : Idle c d) :
    Tracks id f.succeeded ⟨∅, f.active⟩ d := by
  have hl {y : PodObject} (hy : y ∈ d.pods) (hc : id.Cleanup y) : y ∈ listed o c ∧ y.isControlledBy o.uid = true := by
    have ⟨hl, ho⟩ := ho.cleanup_iff.mp hc
    exact ⟨List.mem_filter.mpr ⟨hi.pods ▸ hy, hl⟩, ho⟩
  exact {
    active := fun y hy hc hlive => (h.active _).mpr ⟨y, (hl hy hc).1, (hl hy hc).2, rfl, hlive⟩
    done := fun y hy hc hd => (h.succeeded _).mpr ⟨y, (hl hy hc).1, (hl hy hc).2, rfl, hd⟩
  }

theorem wp_sweeps (ho : o.Is id) (hn : (c.pods.map PodObject.key).Nodup) :
    wp (reconcileLMCacheNodeLocalCleanupPods s o demand cancelOnDemand)
      (fun _ => Sweeps s o id demand cancelOnDemand (listed o c) c)
      (Sweeps s o id demand cancelOnDemand (listed o c) c) c := by
  have hcl {x : PodObject} (hx : x ∈ listed o c) (hox : x.isControlledBy o.uid = true) : id.Cleanup x :=
    ho.cleanup_iff.mpr ⟨(List.mem_filter.mp hx).2, hox⟩
  apply wp_cleanups hn
  case hu => exact fun _ => .refl
  case hf => exact fun d _ hi => .single (.idle hi)
  case hv =>
    intro x hx hox hv c₁ d h₁ hd
    have hxc : x ∈ c₁.pods := h₁.pods ▸ List.mem_of_mem_filter hx
    refine .head (.idle h₁) ?_
    cases hd
    case inl hd => exact .single (.idle hd)
    case inr hd => exact hd.sweeps hx hxc (hcl hx hox) (.inr (.inr hv))
  case hl =>
    intro f c₁ hf hu h₁
    refine (wp_advance_loop (I := fun l g d => l ⊆ listed o c ∧ Tracks id f.succeeded g d ∧
      Sweeps s o id demand cancelOnDemand (listed o c) c d) hu
      ⟨List.Subset.refl _, hf.tracks ho h₁, .single (.idle h₁)⟩ ?_ ?_ ?_).mono (fun _ _ h => h.2.2.2) fun _ h => h
    case refine_1 => exact fun x l p d _ _ h => ⟨(List.cons_subset.mp h.1).2, h.2⟩
    case refine_2 =>
      rintro x l p d p' d' hox hu ⟨hl, htr, hw⟩ ht
      have ⟨hx, hl⟩ := List.cons_subset.mp hl
      have hxd := hu.mem x (.head _)
      exact ⟨hl, ht.tracks htr hu.nodup hxd (hcl hx hox), hw.trans (ht.sweeps hx hxd (hcl hx hox) htr)⟩
    case refine_3 =>
      rintro x l p d d' hox hu ⟨hl, htr, hw⟩ hb
      have ⟨hx, hl⟩ := List.cons_subset.mp hl
      exact hw.trans (hb.sweeps hx (hu.mem x (.head _)) (hcl hx hox) htr)

inductive Swept (s : Setup) (o : Owner) (id : Identity) (demand : GoMap GoString PodObject) (cancelOnDemand : Bool)
    (l : List PodObject) (c : Cluster) (y : PodObject) : Prop
  | same (mem : y ∈ c.pods)
  | marked {x : PodObject} (listed : x ∈ l) (mem : x ∈ c.pods) (cleanup : id.Cleanup x) (eq : y = x.marked)
    (why : x.isTerminal = true ∨ GivesWay demand cancelOnDemand x ∨ isCleanup s o x (targetNode x) = false)
  | released {x : PodObject} {path : GoString} (listed : x ∈ l) (mem : x ∈ c.pods) (cleanup : id.Cleanup x)
    (eq : y = release x) (running : x.isTerminal = false) (keeps : ¬GivesWay demand cancelOnDemand x)
    (gated : x.schedulingGates ≠ []) (unmarked : x.deleting = false)
    (found : nodeLocalServerShmHostPath s.lib o.object = .ok path)
    (quiet : ∀ y ∈ c.pods, consumesShm o path (targetNode x) y = false)
  | retried {x : PodObject} {k : Int} (listed : x ∈ l) (mem : x ∈ c.pods) (cleanup : id.Cleanup x) (failed : Failed x)
    (alone : ∀ y ∈ c.pods, id.Cleanup y → targetNode y = targetNode x → ¬Live y ∧ ¬Succeeded y)
    (retry : RetryOf s o x k y)

theorem Sweep.swept (h : Sweep s o id demand cancelOnDemand l c d) (hn : (c.pods.map PodObject.key).Nodup)
    (hy : y ∈ d.pods) : Swept s o id demand cancelOnDemand l c y := by
  cases h
  case idle hi => exact .same (hi.pods ▸ hy)
  case remove hl hx hc hwhy hd hw =>
    cases hd.mem (hw.pods ▸ hy)
    case inl h => exact .same h.1
    case inr h =>
      have ⟨z, hz, hk, he⟩ := h
      exact .marked hl hx hc (eq_of_key hn hz hx hk ▸ he) hwhy
  case retry hl hx hc hf ha hq _ hw =>
    rw [hw.pods] at hy
    cases List.mem_append.mp hy
    case inl hy => exact .same hy
    case inr hy =>
      cases List.mem_singleton.mp hy
      exact .retried hl hx hc hf ha hq
  case release hl hx hc ht hg hgate hu hp hq hw =>
    rw [hw.pods] at hy
    cases mem_changed.mp hy
    case inl h => exact .same h.1
    case inr h =>
      have ⟨z, hz, hk, he⟩ := h
      exact .released hl hx hc (eq_of_key hn hz hx hk ▸ he) ht hg hgate hu hp hq

theorem Sweep.nodup (h : Sweep s o id demand cancelOnDemand l c d) (hn : (c.pods.map PodObject.key).Nodup) :
    (d.pods.map PodObject.key).Nodup := by
  cases h
  case idle hi => exact hi.pods ▸ hn
  case remove hd hw => exact hw.pods ▸ hd.nodup hn
  case retry hf hw =>
    rw [hw.pods]
    exact nodup_append_singleton hn (find_eq_none hf)
  case release hw =>
    have hk (y : PodObject) : (NodeLocal.release y).key = y.key := rfl
    rw [hw.pods, changed_keys hk]
    exact hn

theorem RetryOf.owns {label : GoString} (h : RetryOf s o x k y) (hc : id.Cleanup x) (ho : id.Owns label y) :
    id.Owns label x := by
  have hl : y.label label = x.label label := by rw [h.eq]; rfl
  have hb : y.label labelCacheBackendUID = x.label labelCacheBackendUID := by rw [h.eq]; rfl
  exact ⟨hc.1, hc.2.1, hl ▸ ho.2.2.1, hb ▸ ho.2.2.2⟩

theorem RetryOf.cleanup (ho : o.Is id) (h : RetryOf s o x k y) (hc : id.Cleanup x) : id.Cleanup y := by
  have hn : o.inNamespace = id.key.inNamespace := congrArg Webhook.ObjectKey.inNamespace ho.1
  rw [h.eq]
  exact ⟨congrArg some ho.2, hn, hc.2.2.1, hc.2.2.2⟩

theorem Sweep.sane (ho : o.Is id) (h : Sweep s o id demand cancelOnDemand l c d) (hs : Sane s id c.pods) :
    Sane s id d.pods := by
  refine hs.of_origin (h.nodup hs.nodup) fun y hy => ?_
  cases h.swept hs.nodup hy
  case same hm => exact .inl ⟨y, hm, .refl⟩
  case marked x _ hm _ he _ => exact .inl ⟨x, hm, he ▸ sameRole_marked⟩
  case released x _ _ hm _ he _ _ _ _ _ _ => exact .inl ⟨x, hm, he ▸ sameRole_release⟩
  case retried x k _ hm hc hf _ hr =>
    refine .inr ⟨fun hsv => absurd hc (hs.not_cleanup hm (hr.owns hc hsv)), fun _ => ?_⟩
    exact (hs.cleanups x hm hc).retry ho hr

theorem Sweeps.sane (ho : o.Is id) (h : Sweeps s o id demand cancelOnDemand l c d) (hs : Sane s id c.pods) :
    Sane s id d.pods :=
  h.invariant hs fun _ _ hs h => h.sane ho hs

-- Whatever is not a cleanup stays, and nothing else is added.
theorem Sweep.mem_iff (ho : o.Is id) (h : Sweep s o id demand cancelOnDemand l c d)
    (hn : (c.pods.map PodObject.key).Nodup) (hy : ¬id.Cleanup y) : y ∈ d.pods ↔ y ∈ c.pods := by
  constructor
  case mp =>
    intro hm
    cases h.swept hn hm
    case same hm => exact hm
    case marked hc he _ => exact absurd (he ▸ hc) hy
    case released hc he _ _ _ _ _ _ => exact absurd (he ▸ hc) hy
    case retried hc _ _ hr => exact absurd (hr.cleanup ho hc) hy
  case mpr =>
    intro hm
    have hk {x : PodObject} (hx : x ∈ c.pods) (hc : id.Cleanup x) : y.key ≠ x.key :=
      fun he => hy (eq_of_key hn hm hx he ▸ hc)
    cases h
    case idle hi => exact hi.pods ▸ hm
    case remove hx hc _ hd hw => exact hw.pods ▸ hd.of_ne hm (hk hx hc)
    case retry hw =>
      rw [hw.pods]
      exact List.mem_append_left _ hm
    case release hx hc _ _ _ _ _ _ hw =>
      rw [hw.pods]
      exact mem_changed.mpr (.inl ⟨hm, hk hx hc⟩)

theorem Sweeps.mem_iff (ho : o.Is id) (h : Sweeps s o id demand cancelOnDemand l c d)
    (hn : (c.pods.map PodObject.key).Nodup) (hy : ¬id.Cleanup y) : y ∈ d.pods ↔ y ∈ c.pods :=
  (h.invariant (I := fun d => (d.pods.map PodObject.key).Nodup ∧ (y ∈ d.pods ↔ y ∈ c.pods)) ⟨hn, Iff.rfl⟩
    fun _ _ hI hs => ⟨hs.nodup hI.1, (hs.mem_iff ho hI.1 hy).trans hI.2⟩).2

theorem Sweep.history (h : Sweep s o id demand cancelOnDemand l c d) :
    d.history = c.history ∨ ∃ event, d.history = ⟨event, d.pods⟩ :: c.history := by
  cases h
  case idle hi => exact .inl hi.history
  case remove hw => exact .inr ⟨_, hw.pods ▸ hw.history⟩
  case retry hw => exact .inr ⟨_, hw.pods ▸ hw.history⟩
  case release hw => exact .inr ⟨_, hw.pods ▸ hw.history⟩

-- It is about to go, and it has succeeded or is still behind its gate.
def Spent (y : PodObject) : Prop :=
  y.deleting = true ∧ (Succeeded y ∨ y.isTerminal = false ∧ y.schedulingGates ≠ [])

-- The Pod of a turn blocks its node, unless it is spent.
theorem Turn.spent (ht : Turn s o demand cancelOnDemand succeeded x g c g' d) (hn : (c.pods.map PodObject.key).Nodup)
    (hx : x ∈ c.pods) (h : ∀ y ∈ c.pods, id.Cleanup y → y ∈ x :: l ∨ targetNode y ∈ g.blocked ∨ Spent y) :
    ∀ y ∈ d.pods, id.Cleanup y → y ∈ l ∨ targetNode y ∈ g'.blocked ∨ Spent y := by
  intro y hy hc
  have hown (hk : y.key = x.key) (ht' : targetNode y = targetNode x)
      (hs : Succeeded x → Succeeded y) (hg : GivesWay demand cancelOnDemand x → GivesWay demand cancelOnDemand y) :
      targetNode y ∈ g'.blocked ∨ Spent y := by
    cases ht.blocked_or_removed
    case inl hb => exact .inl (ht' ▸ hb)
    case inr hr =>
      have hd := hr.2.deleting hn hx hy hk
      refine .inr ⟨hd, hr.1.imp hs fun hw => ?_⟩
      exact ⟨(hg hw).1, (hg hw).2.1⟩
  rcases ht.origin hx hn hy with hyc | rfl | ⟨rfl, hr, _, _, hg⟩ | ⟨k, hf, _, _, _, hq, _, _⟩
  case inl =>
    cases h y hyc hc
    case inl hm =>
      cases hm
      case head => exact .inr (hown rfl rfl (fun h => h) fun h => h)
      case tail hm => exact .inl hm
    case inr hb => exact .inr (hb.imp_left fun hb => ht.blocked_subset hb)
  case inr.inl => exact .inr (hown rfl rfl (fun h => h) fun h => h)
  case inr.inr.inl => exact .inr (.inl (ht.blocks hr hg))
  case inr.inr.inr =>
    cases ht.blocked_or_removed
    case inl hb =>
      rw [hq.targetNode]
      exact .inr (.inl hb)
    case inr hw =>
      cases hw.1
      case inl hd => exact absurd hd hf.2
      case inr hg => cases hg.1.symm.trans hf.1

theorem wp_spent (ho : o.Is id) (hs : Sane s id c.pods) :
    wp (reconcileLMCacheNodeLocalCleanupPods s o demand cancelOnDemand)
      (fun b d => ∀ y ∈ d.pods, id.Cleanup y → targetNode y ∈ b ∨ Spent y) (fun _ => True) c := by
  apply wp_cleanups hs.nodup
  case hu => exact fun hu y hy hc => absurd hu (isCleanup_iff.mp (hs.cleanups y hy hc o ho)).uid
  case hf => exact fun _ _ _ => trivial
  case hv => exact fun _ _ _ _ _ _ _ _ => trivial
  case hl =>
    intro f c₁ _ hu h₁
    refine (wp_advance_loop (I := fun l g d => ∀ y ∈ d.pods, id.Cleanup y →
      y ∈ l ∨ targetNode y ∈ g.blocked ∨ Spent y) hu ?_ ?_ ?_ ?_).mono ?_ fun _ h => h
    case refine_1 =>
      intro y hy hc
      rw [h₁.pods] at hy
      exact .inl (List.mem_filter.mpr ⟨hy, (ho.cleanup_iff.mp hc).1⟩)
    case refine_2 =>
      intro x l p d hox _ h y hy hc
      refine (h y hy hc).imp_left fun hm => ?_
      cases hm
      case tail hm => exact hm
      case head => cases hox.symm.trans (ho.cleanup_iff.mp hc).2
    case refine_3 => exact fun x l p d p' d' _ hu h ht => ht.spent hu.nodup (hu.mem x (.head _)) h
    case refine_4 => exact fun _ _ _ _ _ _ _ _ _ => trivial
    case refine_5 =>
      intro p d h y hy hc
      exact (h.2 y hy hc).resolve_left fun hm => nomatch hm

end Sweeps

end InferenceCache.Controller.NodeLocal
