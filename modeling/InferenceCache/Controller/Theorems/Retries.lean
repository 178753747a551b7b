import InferenceCache.Controller.Theorems.Cleanups
import InferenceCache.Lib.Results

namespace InferenceCache.Controller.NodeLocal

open Kube Kube.Cluster Kube.Api Program Adapters EngineBinding

variable {s : Setup} {o : Owner} {n : GoString} {p x r : PodObject} {c c' : Cluster}

section Names

variable {sha256 : Bytes → Bytes} {uid failed failed' : GoString}

theorem isNodeLocalCleanupPodName_self :
    isNodeLocalCleanupPodName sha256 uid n (nodeLocalCleanupPodName sha256 uid n) = true := by
  simp [isNodeLocalCleanupPodName]

theorem isNodeLocalCleanupPodName_retry (h : ∀ b, (sha256 b).length = 32) :
    isNodeLocalCleanupPodName sha256 uid n (nodeLocalCleanupRetryPodName sha256 uid n failed) = true := by
  have hl : (GoString.hex ((sha256 failed).take 6)).length = 12 := by simp [GoString.length_hex, h]
  simp only [isNodeLocalCleanupPodName, nodeLocalCleanupRetryPodName, GoString.trimPrefix_append, decide_eq_true_eq]
  refine .inr ⟨fun he => ?_, hl, ?_⟩
  case refine_1 =>
    have he := congrArg List.length he
    simp only [List.length_append] at he
    have hr : (utf8 "-retry-").length = 7 := by decide +kernel
    omega
  case refine_2 => exact List.all_eq_true.mpr fun _ => GoString.isLowerHex_of_mem_hex

theorem retryPodName_ne_podName :
    nodeLocalCleanupRetryPodName sha256 uid n failed ≠ nodeLocalCleanupPodName sha256 uid n := by
  intro he
  have he := congrArg List.length he
  have hr : (utf8 "-retry-").length = 7 := by decide +kernel
  simp only [nodeLocalCleanupRetryPodName, List.length_append] at he
  omega

theorem digest_of_retryPodName
    (h : nodeLocalCleanupRetryPodName sha256 uid n failed = nodeLocalCleanupRetryPodName sha256 uid n failed') :
    (sha256 failed).take 6 = (sha256 failed').take 6 :=
  GoString.hex_injective (List.append_cancel_left h)

-- Nothing in such a name is white space.
theorem trimSpace_of_isNodeLocalCleanupPodName {name : GoString}
    (h : isNodeLocalCleanupPodName sha256 uid n name = true) : name.trimSpace = name ∧ name ≠ [] := by
  have hs : ∀ sp ∈ GoString.spaces, ∃ c ∈ sp, ¬(0x20 < c ∧ c < 0x80) := by decide +kernel
  have hd : ∀ c : UInt8, GoString.isLowerHex c = true → 0x20 < c ∧ c < 0x80 := by decide +kernel
  have hb : ∀ c ∈ nodeLocalCleanupPodName sha256 uid n, 0x20 < c ∧ c < 0x80 := by
    intro c hc
    cases List.mem_append.mp hc
    case inl hc =>
      have hp : ∀ c ∈ utf8 "lmcache-shm-cleanup-", (0x20 : UInt8) < c ∧ c < 0x80 := by decide +kernel
      exact hp c hc
    case inr hc => exact hd c (GoString.isLowerHex_of_mem_hex hc)
  have hn : nodeLocalCleanupPodName sha256 uid n ≠ [] := List.append_ne_nil_of_left_ne_nil (by decide +kernel) _
  simp only [isNodeLocalCleanupPodName, decide_eq_true_eq] at h
  cases h
  case inl h =>
    rw [h]
    exact ⟨GoString.trimSpace_of_chars hs hb, hn⟩
  case inr h =>
    have ⟨hne, _, hx⟩ := h
    unfold GoString.trimPrefix at hne hx
    split at hne
    case isFalse => exact absurd rfl hne
    case isTrue hp =>
      have ⟨rest, he⟩ := GoString.hasPrefix_iff.mp hp
      rw [if_pos hp, ← he, List.drop_left] at hx
      have hr : ∀ c ∈ utf8 "-retry-", (0x20 : UInt8) < c ∧ c < 0x80 := by decide +kernel
      have hc : ∀ c ∈ name, 0x20 < c ∧ c < 0x80 := by
        intro c hc
        rw [← he, List.mem_append, List.mem_append] at hc
        rcases hc with (hc | hc) | hc
        case inl.inl => exact hb c hc
        case inl.inr => exact hr c hc
        case inr => exact hd c (List.all_eq_true.mp hx c hc)
      refine ⟨GoString.trimSpace_of_chars hs hc, ?_⟩
      rw [← he]
      exact List.append_ne_nil_of_left_ne_nil (List.append_ne_nil_of_left_ne_nil hn _) _

end Names

section Validity

structure ValidCleanup (s : Setup) (o : Owner) (n : GoString) (p : PodObject) : Prop where
  uid         : o.uid ≠ []
  target      : n.trimSpace ≠ []
  image       : s.cleanupImage.trimSpace ≠ []
  inNamespace : p.key.inNamespace = o.inNamespace
  own         : p.isControlledBy o.uid = true
  name        : isNodeLocalCleanupPodName s.sha256 o.uid n p.key.name = true
  role        : p.label labelLMCacheNodeLocalCleanup = utf8 "true"
  backend     : p.label labelCacheBackendUID = o.uid
  ownerUID    : p.annotation annotationNodeLocalOwnerUID = o.uid
  targetNode  : targetNode p = n
  node        : p.nodeName = [] ∨ p.nodeName = n
  affinity    : isExactNodeAffinity n p.affinity = true
  restart     : p.restartPolicy = restartPolicyNever
  init        : p.spec.initContainers.length = 0
  ephemeral   : p.ephemeralContainers.length = 0
  gates       : p.schedulingGates.length = 0 ∨ lmCacheNodeLocalCleanupIsGated p = true
  runs        : isLMCacheNodeLocalCleanupPod.runsCleanup s.lib o.object s.cleanupImage p.spec = true

theorem isCleanup_iff : isCleanup s o p n = true ↔ ValidCleanup s o n p := by
  simp only [isCleanup, isLMCacheNodeLocalCleanupPod, decide_eq_true_eq]
  constructor
  case mp =>
    rintro ⟨h₁, h₂, h₃, h₄, h₅, h₆, h₇, h₈, h₉, h₁₀, h₁₁, h₁₂, h₁₃, h₁₄, h₁₅, h₁₆, h₁₇⟩
    exact ⟨h₁, h₂, h₃, h₄, h₅, h₆, h₇, h₈, h₉, h₁₀, h₁₁, h₁₂, h₁₃, h₁₄, h₁₅, h₁₆, h₁₇⟩
  case mpr =>
    rintro ⟨h₁, h₂, h₃, h₄, h₅, h₆, h₇, h₈, h₉, h₁₀, h₁₁, h₁₂, h₁₃, h₁₄, h₁₅, h₁₆, h₁₇⟩
    exact ⟨h₁, h₂, h₃, h₄, h₅, h₆, h₇, h₈, h₉, h₁₀, h₁₁, h₁₂, h₁₃, h₁₄, h₁₅, h₁₆, h₁₇⟩

theorem Renders.eq (h : Renders s o n p) : ∃ path, nodeLocalServerShmHostPath s.lib o.object = .ok path ∧
    o.uid ≠ [] ∧ s.cleanupImage.trimSpace ≠ [] ∧ n.trimSpace ≠ [] ∧
    p = {
      key := ⟨o.inNamespace, nodeLocalCleanupPodName s.sha256 o.uid n⟩
      labels := stringMap [
        (utf8 "app.kubernetes.io/name", utf8 "lmcache-shm-cleanup"),
        (utf8 "app.kubernetes.io/managed-by", utf8 "inference-cache-controller"),
        (labelLMCacheNodeLocalCleanup, utf8 "true"),
        (labelCacheBackendUID, o.uid)]
      annotations := stringMap [
        (annotationNodeLocalOwner, ownerName o.object),
        (annotationNodeLocalOwnerUID, o.uid),
        (annotationNodeLocalTargetNode, n)]
      controller := some o.uid
      deleting := false
      nodeName := []
      affinity := some (.exactNode n)
      restartPolicy := restartPolicyNever
      schedulingGates := [lmCacheNodeLocalShmCleanupGate]
      spec := ⟨[cleanupContainer s.cleanupImage.trimSpace], [], [nodeShmVolume path]⟩
      ephemeralContainers := []
      phase := .pending
      containerStatuses := [] } := by
  have ⟨d, hd, hp⟩ := h
  unfold renderLMCacheNodeLocalCleanupPod at hd
  split at hd
  case isTrue => cases hd
  case isFalse hn =>
    have ⟨path, hs, hd⟩ := Except.bind_eq_ok.mp hd
    have ⟨hu, hi, ht⟩ := (not_or.mp hn).imp_right not_or.mp
    cases hd
    exact ⟨path, hs, hu, hi, ht, hp⟩

theorem Renders.validCleanup (h : Renders s o n p) : ValidCleanup s o n p := by
  have ⟨path, hs, hu, hi, ht, hp⟩ := h.eq
  have hl : labelLMCacheNodeLocalCleanup ≠ labelCacheBackendUID := by decide +kernel
  have ha : annotationNodeLocalOwnerUID ≠ annotationNodeLocalTargetNode := by decide +kernel
  subst hp
  exact {
    uid := hu
    target := ht
    image := hi
    inNamespace := rfl
    own := by simp [PodObject.isControlledBy]
    name := isNodeLocalCleanupPodName_self
    role := by simp [PodObject.label, stringMap, hl]
    backend := by simp [PodObject.label, stringMap]
    ownerUID := by simp [PodObject.annotation, stringMap, ha]
    targetNode := by simp [NodeLocal.targetNode, PodObject.annotation, stringMap]
    node := .inl rfl
    affinity := by simp [isExactNodeAffinity]
    restart := rfl
    init := rfl
    ephemeral := rfl
    gates := .inr (by simp [lmCacheNodeLocalCleanupIsGated])
    runs := by
      simp [isLMCacheNodeLocalCleanupPod.runsCleanup, isLMCacheNodeLocalCleanupPod.isShmOf, hs, nodeShmVolume,
        cleanupContainer, isLMCacheNodeLocalCleanupPod.mountsOnly]
  }

-- What may become of a Pod without anyone editing it.
def Ages (p p' : PodObject) : Prop :=
  p' = { p with
    deleting := p'.deleting
    nodeName := p'.nodeName
    schedulingGates := p'.schedulingGates
    phase := p'.phase
    containerStatuses := p'.containerStatuses }

theorem Ages.refl : Ages p p :=
  rfl

theorem Ages.trans (h : Ages p x) (h' : Ages x r) : Ages p r := by
  rw [Ages, h] at h'
  exact h'

theorem Ages.isControlledBy {uid : GoString} (h : Ages p x) : x.isControlledBy uid = p.isControlledBy uid := by
  rw [h]
  rfl

theorem exists_retryOf {k : Int} (hu : o.uid ≠ []) (ht : (targetNode x).trimSpace ≠ [])
    (hn : isNodeLocalCleanupPodName s.sha256 o.uid n x.key.name = true) : ∃ r, RetryOf s o x k r := by
  have ⟨hs, hn⟩ := trimSpace_of_isNodeLocalCleanupPodName hn
  have ⟨d, hd⟩ : ∃ d, renderLMCacheNodeLocalCleanupRetryPod s.sha256 o.object x = .ok d := by
    have hg : ¬(o.object.spec.rest.uid = [] ∨ x.key.name.trimSpace = []) :=
      not_or.mpr ⟨hu, fun he => hn (hs.symm.trans he)⟩
    have ht : (x.annotation annotationNodeLocalTargetNode).trimSpace ≠ [] := ht
    unfold renderLMCacheNodeLocalCleanupRetryPod
    dsimp only
    rw [if_neg hg, if_neg ht]
    exact ⟨_, rfl⟩
  exact ⟨_, d, hd, rfl⟩

theorem RetryOf.eq {k : Int} (h : RetryOf s o x k r) : r = { x with
    key := ⟨o.inNamespace, nodeLocalCleanupRetryPodName s.sha256 o.uid (targetNode x) x.key.name⟩
    annotations := x.annotations.insert nodeLocalShmCleanupRetryAnnotation (GoString.formatInt (k + 1))
    controller := some o.uid
    deleting := false
    nodeName := []
    schedulingGates := [lmCacheNodeLocalShmCleanupGate]
    phase := .pending
    containerStatuses := [] } := by
  have ⟨d, hd, hr⟩ := h
  unfold renderLMCacheNodeLocalCleanupRetryPod at hd
  dsimp only at hd
  split at hd
  case isTrue => cases hd
  case isFalse =>
    split at hd
    case isTrue => cases hd
    case isFalse =>
      cases hd
      exact hr

theorem RetryOf.annotation {k : Int} {name : GoString} (h : RetryOf s o x k r)
    (hn : name ≠ nodeLocalShmCleanupRetryAnnotation) : r.annotation name = x.annotation name := by
  rw [h.eq]
  simp [PodObject.annotation, hn]

theorem RetryOf.count {k : Int} (h : RetryOf s o x k r) :
    r.annotation nodeLocalShmCleanupRetryAnnotation = GoString.formatInt (k + 1) := by
  rw [h.eq]
  simp [PodObject.annotation]

theorem RetryOf.targetNode {k : Int} (h : RetryOf s o x k r) : targetNode r = targetNode x :=
  h.annotation (by decide +kernel)

theorem RetryOf.validCleanup {k : Int} (h : RetryOf s o x k r) (hp : ValidCleanup s o n p) (ha : Ages p x) :
    ValidCleanup s o n r := by
  have ht : NodeLocal.targetNode x = n := by
    rw [ha]
    exact hp.targetNode
  have hu : r.annotation annotationNodeLocalOwnerUID = o.uid := by
    rw [h.annotation (by decide +kernel), ha]
    exact hp.ownerUID
  have hr := h.targetNode.trans ht
  have hn : r.key.name = nodeLocalCleanupRetryPodName s.sha256 o.uid n x.key.name := by rw [h.eq, ← ht]
  have hl : r.labels = p.labels := by rw [h.eq, ha]
  exact {
    uid := hp.uid
    target := hp.target
    image := hp.image
    inNamespace := by rw [h.eq]
    own := by simp [h.eq, PodObject.isControlledBy]
    name := hn ▸ isNodeLocalCleanupPodName_retry s.sha256_length
    role := by rw [PodObject.label, hl]; exact hp.role
    backend := by rw [PodObject.label, hl]; exact hp.backend
    ownerUID := hu
    targetNode := hr
    node := .inl (by rw [h.eq])
    affinity := by rw [h.eq, ha]; exact hp.affinity
    restart := by rw [h.eq, ha]; exact hp.restart
    init := by rw [h.eq, ha]; exact hp.init
    ephemeral := by rw [h.eq, ha]; exact hp.ephemeral
    gates := .inr (by simp [h.eq, lmCacheNodeLocalCleanupIsGated])
    runs := by rw [h.eq, ha]; exact hp.runs
  }

end Validity

section Lineages

variable {demand : GoMap GoString PodObject} {cancelOnDemand : Bool} {succeeded : Finset GoString}
variable {g g' : Progress}

def Creates {A : Type} (m : Api A) (c : Cluster) (r : PodObject) : Prop :=
  ∃ new, (m c).2.history = new ++ c.history ∧ ∃ t ∈ new, t.event = .create r

-- What is new in the history, if Pods are only created as retries of `x`.
def OnlyRetries (s : Setup) (o : Owner) (x : PodObject) (c c' : Cluster) : Prop :=
  ∃ new, c'.history = new ++ c.history ∧
    ∀ t ∈ new, ∀ r, t.event = .create r → ∃ k, retryCount x = some k ∧ RetryOf s o x k r

theorem OnlyRetries.of_eq (h : c'.history = c.history) : OnlyRetries s o x c c' :=
  ⟨[], h, by simp⟩

theorem OnlyRetries.trans (h : OnlyRetries s o x c c₁) (h' : OnlyRetries s o x c₁ c') : OnlyRetries s o x c c' := by
  have ⟨new, hn, ha⟩ := h
  have ⟨new', hn', ha'⟩ := h'
  refine ⟨new' ++ new, by rw [hn', hn, List.append_assoc], fun t ht => ?_⟩
  exact (List.mem_append.mp ht).elim (ha' t) (ha t)

theorem OnlyRetries.of_wrote {event : Kube.Event} {after : List PodObject} (h : Wrote c event after c')
    (ha : ∀ r, event = .create r → ∃ k, retryCount x = some k ∧ RetryOf s o x k r) : OnlyRetries s o x c c' := by
  refine ⟨[⟨event, after⟩], h.history, fun t ht => ?_⟩
  rw [List.mem_singleton.mp ht]
  exact ha

theorem OnlyRetries.of_removed (h : Removed x c c') : OnlyRetries s o x c c' := by
  cases h
  case marked hi => exact .of_eq hi.history
  case deleted hw => exact .of_wrote hw nofun

theorem OnlyRetries.of_replaced {k : Int} (hc : retryCount x = some k) (hr : RetryOf s o x k r)
    (h : Replaced o r c c') : OnlyRetries s o x c c' := by
  cases h
  case created hw =>
    refine .of_wrote hw fun r' he => ?_
    cases he
    exact ⟨k, hc, hr⟩
  case found hi => exact .of_eq hi.history

theorem Turn.onlyRetries (h : Turn s o demand cancelOnDemand succeeded x g c g' c') : OnlyRetries s o x c c' := by
  cases h
  case done hr => exact .of_removed hr
  case superseded hr => exact .of_removed hr
  case exhausted => exact .of_eq rfl
  case retried hc hr hp hd => exact (OnlyRetries.of_replaced hc hr hp).trans (.of_removed hd)
  case cancelled hr => exact .of_removed hr
  case waiting hi => exact .of_eq hi.history
  case released hw => exact .of_wrote hw nofun

theorem Broke.onlyRetries (h : Broke s o demand cancelOnDemand succeeded x g c c') : OnlyRetries s o x c c' := by
  cases h
  case idle hi => exact .of_eq hi.history
  case halfway hc hr hf hw => exact .of_replaced hc hr (.created hf hw)
  case unanswered ht => exact ht.onlyRetries

-- A Pod that the controller creates when it comes to a cleanup is the retry of that one.
theorem retryOf_of_creates (hn : (c.pods.map PodObject.key).Nodup) (hx : x ∈ c.pods)
    (ho : x.isControlledBy o.uid = true) (h : Creates (advance s o demand cancelOnDemand succeeded g x) c r) :
    ∃ k, retryCount x = some k ∧ RetryOf s o x k r := by
  have hw : wp (advance s o demand cancelOnDemand succeeded g x) (fun _ => OnlyRetries s o x c)
      (OnlyRetries s o x c) c :=
    (wp_advance hn hx ho).mono (fun _ _ => Turn.onlyRetries) fun _ => Broke.onlyRetries
  have ⟨new, he, t, ht, hr⟩ := h
  have ⟨new', he', ha⟩ := hw.state
  have heq : new = new' := List.append_cancel_right (he.symm.trans he')
  exact ha t (heq ▸ ht) r hr

theorem history_removed (h : Removed x c c') : ∃ new, c'.history = new ++ c.history := by
  cases h
  case marked hi => exact ⟨[], hi.history⟩
  case deleted hw => exact ⟨[_], hw.history⟩

theorem Turn.creates_of_failed {k : Int} (hf : Failed x) (hs : targetNode x ∉ succeeded)
    (ha : targetNode x ∉ g.active) (hc : retryCount x = some k) (hy : RetryOf s o x k r) (hk : c.find r.key = none)
    (h : Turn s o demand cancelOnDemand succeeded x g c g' c') :
    ∃ new, c'.history = new ++ c.history ∧ ∃ t ∈ new, t.event = .create r := by
  cases h
  case done hd _ => exact absurd hd hf.2
  case superseded hw _ => exact (hw.elim hs fun h => ha h.1).elim
  case exhausted hl => cases hc.symm.trans hl
  case retried hc' hy' hp hd =>
    cases hc.symm.trans hc'
    rw [hy'.eq, ← hy.eq] at hp
    cases hp
    case created hw =>
      have ⟨new, hn⟩ := history_removed hd
      refine ⟨new ++ [⟨.create r, c.pods ++ [r]⟩], ?_, _, List.mem_append_right _ (List.mem_singleton_self _), rfl⟩
      rw [hn, hw.history, List.append_assoc, List.singleton_append]
    case found ht _ _ => cases hk.symm.trans ht
  case cancelled hg _ => cases hf.1.symm.trans hg.1
  case waiting ht _ _ => cases hf.1.symm.trans ht
  case released ht _ _ _ _ _ _ => cases hf.1.symm.trans ht

-- A cleanup that has failed is tried again, as long as there is no other one for its node.
theorem creates_retry {k : Int} (hr : c.Reliable) (hn : (c.pods.map PodObject.key).Nodup) (hx : x ∈ c.pods)
    (ho : x.isControlledBy o.uid = true) (hf : Failed x) (hs : targetNode x ∉ succeeded) (ha : targetNode x ∉ g.active)
    (hc : retryCount x = some k) (hy : RetryOf s o x k r) (hk : c.find r.key = none) :
    Creates (advance s o demand cancelOnDemand succeeded g x) c r := by
  have hw : wp (advance s o demand cancelOnDemand succeeded g x)
      (fun _ d => ∃ new, d.history = new ++ c.history ∧ ∃ t ∈ new, t.event = .create r)
      (fun d => ∃ new, d.history = new ++ c.history ∧ ∃ t ∈ new, t.event = .create r) c := by
    refine (wp_advance hn hx ho).mono (fun _ _ => Turn.creates_of_failed hf hs ha hc hy hk) fun d hb => ?_
    cases hb
    case idle hw _ =>
      cases hw
      case inl hw => exact absurd hr hw
      case inr hw =>
        cases hw
        case occupied hc' hz =>
          cases hc.symm.trans hc'
          have ⟨y, hf, _⟩ := hz r hy
          cases hk.symm.trans hf
        case unknown ht _ => cases hf.1.symm.trans ht
    case halfway hw _ _ _ _ _ _ _ => exact absurd hr hw
    case unanswered hw _ => exact absurd hr hw
  exact hw.state

-- The cleanups of a node since one was rendered. Says whether the controller has come to a failed one that
-- was still there when its retry was over and gone, which ones were created, from the latest on, and which
-- ones are still there. Pods come to an end and are marked by anyone, and go at some time after that.
inductive Lineage (s : Setup) (o : Owner) (n : GoString) : Bool → List PodObject → List PodObject → Prop
  | first {p : PodObject} (renders : Renders s o n p) : Lineage s o n false [p] [p]
  | ages {lingered : Bool} {made pods pods' : List PodObject} (h : Lineage s o n lingered made pods)
    (ages : List.Forall₂ Ages pods pods') : Lineage s o n lingered made pods'
  | ends {lingered : Bool} {made pods pods' : List PodObject} (h : Lineage s o n lingered made pods)
    (rest : pods'.Sublist pods) (marked : ∀ p ∈ pods, p ∉ pods' → p.deleting = true) :
    Lineage s o n lingered made pods'
  | retry {lingered : Bool} {made pods : List PodObject} {x r : PodObject} {c : Cluster}
    {demand : GoMap GoString PodObject} {cancelOnDemand : Bool} {succeeded : Finset GoString} {g : Progress}
    (h : Lineage s o n lingered made pods) (mem : x ∈ pods) (failed : Failed x)
    (nodup : (c.pods.map PodObject.key).Nodup) (listed : ∀ p ∈ pods, p ∈ c.pods)
    (creates : Creates (advance s o demand cancelOnDemand succeeded g x) c r) :
    Lineage s o n (lingered || decide (r.key ∈ made.map PodObject.key)) (r :: made) (r :: pods)

structure Nth (s : Setup) (o : Owner) (n : GoString) (i : Nat) (p : PodObject) : Prop where
  valid : ValidCleanup s o n p
  gated : lmCacheNodeLocalCleanupIsGated p = true
  node  : p.nodeName = []
  count : retryCount p = if i < nodeLocalShmCleanupMaxRetryAttempts then some (i : Int) else none
  bound : i ≤ nodeLocalShmCleanupMaxRetryAttempts

theorem retryCount_congr (h : p.annotations = x.annotations) : retryCount p = retryCount x := by
  unfold retryCount PodObject.annotation
  rw [h]

theorem filter_count {i : Nat} :
    (some (i : Int)).filter (fun k : Int => 0 ≤ k ∧ k < nodeLocalShmCleanupMaxRetryAttempts) =
    if i < nodeLocalShmCleanupMaxRetryAttempts then some (i : Int) else none := by
  simp [Option.filter_some]

theorem retryCount_of_unset (h : p.annotation nodeLocalShmCleanupRetryAnnotation = []) :
    retryCount p = some 0 := by
  unfold retryCount
  rw [if_pos h]
  rfl

theorem retryCount_of_formatInt {i : Nat} (hi : i ≤ nodeLocalShmCleanupMaxRetryAttempts)
    (h : p.annotation nodeLocalShmCleanupRetryAnnotation = GoString.formatInt i) :
    retryCount p = if i < nodeLocalShmCleanupMaxRetryAttempts then some (i : Int) else none := by
  have hb : (i : Int) ≤ 3 := by exact_mod_cast hi
  have hp : GoString.parseInt 64 (GoString.formatInt i) = some (i : Int) :=
    GoString.parseInt_formatInt (by omega) (by omega)
  have hn : GoString.formatInt i ≠ [] := by
    intro he
    rw [he] at hp
    cases hp
  unfold retryCount
  rw [h, if_neg hn, hp]
  exact filter_count

theorem Renders.nth (h : Renders s o n p) :
    Nth s o n 0 p ∧ p.key.name = nodeLocalCleanupPodName s.sha256 o.uid n := by
  have hv := h.validCleanup
  have ⟨path, _, _, _, _, hp⟩ := h.eq
  have h₁ : nodeLocalShmCleanupRetryAnnotation ≠ annotationNodeLocalOwner := by decide +kernel
  have h₂ : nodeLocalShmCleanupRetryAnnotation ≠ annotationNodeLocalOwnerUID := by decide +kernel
  have h₃ : nodeLocalShmCleanupRetryAnnotation ≠ annotationNodeLocalTargetNode := by decide +kernel
  subst hp
  refine ⟨⟨hv, by simp [lmCacheNodeLocalCleanupIsGated], rfl, ?_, by decide⟩, rfl⟩
  exact retryCount_of_unset (by simp [PodObject.annotation, stringMap, h₁, h₂, h₃])

theorem Nth.retry {i : Nat} {k : Int} (h : Nth s o n i p) (ha : Ages p x) (hc : retryCount x = some k)
    (hr : RetryOf s o x k r) : Nth s o n (i + 1) r ∧
      r.key.name = nodeLocalCleanupRetryPodName s.sha256 o.uid n p.key.name := by
  have hx : retryCount x = retryCount p := retryCount_congr (by rw [ha])
  have ⟨hi, hk⟩ : i < nodeLocalShmCleanupMaxRetryAttempts ∧ (i : Int) = k := by
    have hc := hx.symm.trans hc
    rw [h.count] at hc
    split at hc
    case isTrue hi => exact ⟨hi, Option.some.inj hc⟩
    case isFalse => cases hc
  have ht : targetNode x = n := by
    rw [ha]
    exact h.valid.targetNode
  refine ⟨⟨hr.validCleanup h.valid ha, ?_, ?_, ?_, hi⟩, ?_⟩
  case refine_1 => simp [hr.eq, lmCacheNodeLocalCleanupIsGated]
  case refine_2 => rw [hr.eq]
  case refine_3 => exact retryCount_of_formatInt hi (by rw [hr.count, ← hk]; rfl)
  case refine_4 => rw [hr.eq, ht, ha]

-- The names of a chain, each of which is computed from the one before.
def podNames (sha256 : Bytes → Bytes) (uid n : GoString) : Nat → GoString
  | 0     => nodeLocalCleanupPodName sha256 uid n
  | i + 1 => nodeLocalCleanupRetryPodName sha256 uid n (podNames sha256 uid n i)

theorem podNames_injective (sha256 : Bytes → Bytes) (uid : GoString) {m : Nat}
    (hc : ∀ i < m, ∀ j < m, (sha256 (podNames sha256 uid n i)).take 6 = (sha256 (podNames sha256 uid n j)).take 6 →
      podNames sha256 uid n i = podNames sha256 uid n j) :
    ∀ i < m, ∀ j < m, podNames sha256 uid n i = podNames sha256 uid n j → i = j := by
  intro i
  induction i
  case zero =>
    intro _ j _ h
    cases j
    case zero => rfl
    case succ => exact absurd h.symm retryPodName_ne_podName
  case succ i hi =>
    intro him j hjm h
    cases j
    case zero => exact absurd h retryPodName_ne_podName
    case succ j =>
      have hj := hc i (by omega) j (by omega) (digest_of_retryPodName h)
      rw [hi (by omega) j (by omega) hj]

namespace Lineage

variable {lingered : Bool} {made pods : List PodObject}

theorem exists_ages (h : Lineage s o n lingered made pods) : ∀ p ∈ pods, ∃ q ∈ made, Ages q p := by
  induction h
  case first p _ => simpa using Ages.refl
  case ages pods pods' _ ha hi =>
    intro p hp
    have ⟨i, hl, he⟩ := List.mem_iff_getElem.mp hp
    have ⟨q, hq, hx⟩ := hi _ (List.getElem_mem (ha.length_eq ▸ hl))
    exact ⟨q, hq, hx.trans (he ▸ ha.get _ hl)⟩
  case ends hr _ hi => exact fun p hp => hi p (hr.subset hp)
  case retry hi =>
    intro p hp
    cases hp
    case head => exact ⟨_, .head _, .refl⟩
    case tail hp =>
      have ⟨q, hq, hx⟩ := hi p hp
      exact ⟨q, .tail _ hq, hx⟩

-- The place of a cleanup in the line, counted from the first one. As long as none is created again, the
-- places are taken one after the other.
structure Placed (s : Setup) (o : Owner) (n : GoString) (lingered : Bool) (made : List PodObject) : Prop where
  place : ∀ p ∈ made, ∃ i, Nth s o n i p ∧ p.key.name = podNames s.sha256 o.uid n i ∧
    (lingered = false → i < made.length)
  names : lingered = false →
    made.map (·.key.name) = (List.range made.length).reverse.map (podNames s.sha256 o.uid n)

theorem Placed.retry (h : Placed s o n lingered made) (hp : p ∈ made) (ha : Ages p x) {k : Int}
    (hc : retryCount x = some k) (hr : RetryOf s o x k r) :
    Placed s o n (lingered || decide (r.key ∈ made.map PodObject.key)) (r :: made) := by
  have ⟨i, hn, hk, hi⟩ := h.place p hp
  have ⟨hn', hk'⟩ := hn.retry ha hc hr
  have hname : r.key.name = podNames s.sha256 o.uid n (i + 1) := by rw [hk', hk]; rfl
  -- A name that is not taken is the next one.
  have hnext (hl : (lingered || decide (r.key ∈ made.map PodObject.key)) = false) :
      lingered = false ∧ i + 1 = made.length := by
    obtain ⟨hl, hf⟩ := Bool.or_eq_false_iff.mp hl
    refine ⟨hl, Nat.le_antisymm (hi hl) (not_lt.mp fun hlt => of_decide_eq_false hf ?_)⟩
    have hm : podNames s.sha256 o.uid n (i + 1) ∈ made.map (·.key.name) := by
      rw [h.names hl]
      exact List.mem_map_of_mem (List.mem_reverse.mpr (List.mem_range.mpr hlt))
    obtain ⟨q, hq, he⟩ := List.mem_map.mp hm
    have ⟨_, hq', _⟩ := h.place q hq
    refine List.mem_map.mpr ⟨q, hq, ?_⟩
    rw [← hname] at he
    have hs : q.key.inNamespace = r.key.inNamespace := by
      rw [hq'.valid.inNamespace, hn'.valid.inNamespace]
    rcases hqk : q.key with ⟨_, _⟩
    rcases hrk : r.key with ⟨_, _⟩
    simp_all
  refine ⟨fun q hq => ?_, fun hl => ?_⟩
  case refine_1 =>
    cases hq
    case head =>
      refine ⟨i + 1, hn', hname, fun hl => ?_⟩
      rw [(hnext hl).2]
      exact Nat.lt_succ_self _
    case tail hq =>
      have ⟨j, hj, hjk, hlt⟩ := h.place q hq
      exact ⟨j, hj, hjk, fun hl => Nat.lt_succ_of_lt (hlt (hnext hl).1)⟩
  case refine_2 =>
    have ⟨hl, he⟩ := hnext hl
    rw [List.map_cons, hname, he, h.names hl, List.length_cons, List.range_succ, List.reverse_append]
    rfl

theorem placed (h : Lineage s o n lingered made pods) : Placed s o n lingered made := by
  induction h
  case first p hr =>
    have ⟨hn, hk⟩ := hr.nth
    refine ⟨fun q hq => ?_, fun _ => by simp [podNames, hk, List.range_succ]⟩
    cases List.mem_singleton.mp hq
    exact ⟨0, hn, hk, fun _ => Nat.one_pos⟩
  case ages hi => exact hi
  case ends hi => exact hi
  case retry h hx _ hn hl hc hi =>
    have ⟨q, hq, ha⟩ := h.exists_ages _ hx
    have ⟨_, hq', _⟩ := hi.place q hq
    have ⟨k, hc, hr⟩ := retryOf_of_creates hn (hl _ hx) (ha.isControlledBy.trans hq'.valid.own) hc
    exact hi.retry hq ha hc hr

-- A cleanup that is created again has the name that it had before.
theorem not_nodup (h : Lineage s o n true made pods) : ¬(made.map (·.key.name)).Nodup := by
  generalize hl : true = lingered at h
  induction h
  case first => cases hl
  case ages hi => exact hi hl
  case ends hi => exact hi hl
  case retry hi =>
    intro hn
    have ⟨hm, hn⟩ := List.nodup_cons.mp hn
    cases (Bool.or_eq_true ..).mp hl.symm
    case inl hl => exact hi hl.symm hn
    case inr hr =>
      have ⟨q, hq, he⟩ := List.mem_map.mp (of_decide_eq_true hr)
      exact hm (List.mem_map.mpr ⟨q, hq, by rw [he]⟩)

end Lineage

-- A setup to evaluate the model with. Its digest is the end of what is digested.
def Setup.plain : Setup where
  lib := .plain
  sha256 b := (b.reverse ++ List.replicate 32 0).take 32
  cleanupImage := utf8 "cleaner:1"
  parseTime _ := none
  formatTime _ := []
  sha256_length b := by simp

def nodeLocalEngine : Api.LMCacheEngine where
  topology := .nodeLocal
  podLocal := none
  nodeLocal := some ⟨utf8 "lmcache:1", 5555, 8080, .gib 2, 1, 1, ⟨∅, ∅, []⟩⟩
  chunkSizeTokens := none

def nodeLocalOwner : Owner where
  object := {
    key := ⟨utf8 "team", utf8 "cache"⟩
    spec := {
      engineSelector := some ⟨(∅ : GoMap GoString GoString).insert (utf8 "app") (utf8 "llm")⟩
      rest := {
        uid := utf8 "1"
        generation := 1
        runtime := .vllm
        type := .lmCache
        lmCache := some nodeLocalEngine
        remoteStorage := none
        observation := none
        integration := none
        allowCrossNamespace := false
        remoteStorageEndpoint := none
      }
    }
  }
  annotations := ∅
  firstEventTimeout := none
  idleRetentionSeconds := 0
  hasFinalizer := true

theorem exists_renders {path : GoString} (hu : o.uid ≠ []) (hi : s.cleanupImage.trimSpace ≠ [])
    (ht : n.trimSpace ≠ []) (hp : nodeLocalServerShmHostPath s.lib o.object = .ok path) : ∃ p, Renders s o n p := by
  have hg : ¬(o.object.spec.rest.uid = [] ∨ s.cleanupImage.trimSpace = [] ∨ n.trimSpace = []) :=
    not_or.mpr ⟨hu, not_or.mpr ⟨hi, ht⟩⟩
  have ⟨d, hd⟩ : ∃ d, renderLMCacheNodeLocalCleanupPod s.lib s.sha256 o.object n s.cleanupImage = .ok d := by
    unfold renderLMCacheNodeLocalCleanupPod
    rw [if_neg hg, hp]
    exact ⟨_, rfl⟩
  exact ⟨_, d, hd, rfl⟩

-- What remains of a Pod that has failed and is marked.
def ended (p : PodObject) : PodObject :=
  { p with phase := .failed, deleting := true }

theorem failed_ended : Failed (ended p) :=
  ⟨by simp [ended, PodObject.isTerminal], by simp [ended, Succeeded, lmCacheNodeLocalCleanupSucceeded]⟩

-- While a failed cleanup stays, its retry is created, comes to an end and goes.
theorem Lineage.again {lingered : Bool} {made : List PodObject} {k : Int}
    (h : Lineage s o n lingered made [x]) (hf : Failed x) (ho : x.isControlledBy o.uid = true)
    (hc : retryCount x = some k) (hr : RetryOf s o x k r) (hk : x.key ≠ r.key) :
    Lineage s o n (lingered || decide (r.key ∈ made.map PodObject.key)) (r :: made) [x] := by
  let c : Cluster := ⟨[x], [], fun _ => {}⟩
  have hcr : Creates (advance s o ∅ true ∅ ⟨∅, ∅⟩ x) c r :=
    creates_retry (fun _ => rfl) (by simp [c]) (by simp [c]) ho hf (by simp) (by simp) hc hr
      (by simp [c, Cluster.find, hk])
  have hm := h.retry (.head _) hf (c := c) (by simp [c]) (by simp [c]) hcr
  have he : Lineage s o n _ (r :: made) [ended r, x] := hm.ages (.cons rfl (.cons .refl .nil))
  refine he.ends (List.sublist_cons_self ..) fun p hp hn => ?_
  cases hp
  case head => rfl
  case tail hp => exact absurd hp hn

theorem exists_first : ∃ p r, Renders .plain nodeLocalOwner (utf8 "n1") p ∧
    Lineage .plain nodeLocalOwner (utf8 "n1") false [p] [ended p] ∧
    RetryOf .plain nodeLocalOwner (ended p) 0 r ∧ retryCount (ended p) = some 0 ∧
    (ended p).isControlledBy nodeLocalOwner.uid = true ∧ (ended p).key ≠ r.key ∧
    r.key.name = nodeLocalCleanupRetryPodName Setup.plain.sha256 nodeLocalOwner.uid (utf8 "n1") p.key.name := by
  obtain ⟨path, hs⟩ := Except.exists_of_isOk
    (show (nodeLocalServerShmHostPath Setup.plain.lib nodeLocalOwner.object).isOk from by decide +kernel)
  obtain ⟨p, hp⟩ : ∃ p, Renders .plain nodeLocalOwner (utf8 "n1") p :=
    exists_renders (by decide +kernel) (by decide +kernel) (by decide +kernel) hs
  have hv := hp.validCleanup
  obtain ⟨hn, hp₀⟩ := hp.nth
  have ht : targetNode (ended p) = utf8 "n1" := hv.targetNode
  obtain ⟨r, hr⟩ : ∃ r, RetryOf .plain nodeLocalOwner (ended p) 0 r :=
    exists_retryOf (by decide +kernel) (by rw [ht]; decide +kernel) hv.name
  have hr₀ : r.key.name = nodeLocalCleanupRetryPodName Setup.plain.sha256 nodeLocalOwner.uid (utf8 "n1")
      p.key.name := by
    rw [hr.eq, ht]
    rfl
  have hne : (ended p).key ≠ r.key := by
    intro he
    have he : p.key.name = r.key.name := congrArg Webhook.ObjectKey.name he
    rw [hr₀, hp₀] at he
    exact retryPodName_ne_podName he.symm
  have hl : Lineage .plain nodeLocalOwner (utf8 "n1") false [p] [ended p] :=
    (Lineage.first hp).ages (.cons rfl .nil)
  exact ⟨p, r, hp, hl, hr, hn.count, hv.own, hne, hr₀⟩

-- A cleanup that stays although it has failed and is marked is retried any number of times.
theorem exists_longer (m : Nat) :
    ∃ made pods, Lineage .plain nodeLocalOwner (utf8 "n1") true made pods ∧ m < made.length := by
  obtain ⟨p, r, _, hl, hr, hk, ho, hne, _⟩ := exists_first
  suffices h : ∃ made, Lineage .plain nodeLocalOwner (utf8 "n1") true (r :: made) [ended p] ∧ m < made.length by
    obtain ⟨made, hl, hm⟩ := h
    exact ⟨r :: made, _, hl, Nat.lt_succ_of_lt hm⟩
  induction m
  case zero =>
    have h₁ := (hl.again failed_ended ho hk hr hne).again failed_ended ho hk hr hne
    exact ⟨[r, p], by simpa using h₁, Nat.zero_lt_succ _⟩
  case succ m hi =>
    obtain ⟨made, hl, hm⟩ := hi
    exact ⟨r :: made, by simpa using hl.again failed_ended ho hk hr hne, Nat.succ_lt_succ hm⟩

end Lineages

end InferenceCache.Controller.NodeLocal
