import InferenceCache.Controller.Theorems.Retries

namespace InferenceCache.Controller.NodeLocal

open Kube Kube.Cluster Kube.Api Program Adapters EngineBinding

section Definitions

variable (s : Setup) (o : Owner)

def Intent (n : GoString) (x : PodObject) : Prop :=
  isCleanup s o x n = true ∧ x.deleting = false

def Retryable (x : PodObject) : Prop :=
  Failed x ∧ (retryCount x).isSome = true

-- Nothing is going to be created for it.
def Settles (x : PodObject) : Prop :=
  Live x ∨ Failed x ∧ retryCount x = none

def retryKey (x : PodObject) : Webhook.ObjectKey :=
  ⟨o.inNamespace, nodeLocalCleanupRetryPodName s.sha256 o.uid (targetNode x) x.key.name⟩

-- Something of the backend has the name of the retry, or will have it once another node's cleanup is retried.
inductive Taken (pods : List PodObject) (x : PodObject) : Prop
  | already {y : PodObject} (mem : y ∈ pods) (own : y.isControlledBy o.uid = true) (key : y.key = retryKey s o x)
  | soon {z : PodObject} (mem : z ∈ pods) (valid : isCleanup s o z (targetNode z) = true)
    (node : targetNode z ≠ targetNode x) (retryable : Retryable z) (key : retryKey s o z = retryKey s o x)
    (free : ∀ y ∈ pods, y.key ≠ retryKey s o x)
    (next : ∀ y ∈ pods, isCleanup s o y (targetNode z) = true → ¬Live y ∧ ¬Succeeded y)

def Keeps (pods : List PodObject) (n : GoString) : Prop :=
  (∃ x ∈ pods, Intent s o n x ∧ Settles x) ∨
    ∀ x ∈ pods, isCleanup s o x n = true → Retryable x → ¬Taken s o pods x

end Definitions

variable {s : Setup} {o : Owner} {n : GoString} {c c' : Cluster} {x y r : PodObject} {pods : List PodObject}
variable {demand : GoMap GoString PodObject} {cancelOnDemand : Bool} {succeeded : Finset GoString}
variable {p p' : Progress} {l : List PodObject}

section Basics

theorem Taken.congr {pods' : List PodObject} (h : ∀ x, x ∈ pods ↔ x ∈ pods') (ht : Taken s o pods x) :
    Taken s o pods' x := by
  cases ht
  case already hm ho hk => exact .already ((h _).mp hm) ho hk
  case soon hm hv hn hr hk hf hx =>
    exact .soon ((h _).mp hm) hv hn hr hk (fun y hy => hf y ((h y).mpr hy)) fun y hy => hx y ((h y).mpr hy)

theorem Keeps.congr {pods' : List PodObject} (h : ∀ x, x ∈ pods ↔ x ∈ pods') (hk : Keeps s o pods n) :
    Keeps s o pods' n := by
  cases hk
  case inl hk =>
    have ⟨x, hx, hk⟩ := hk
    exact .inl ⟨x, (h x).mp hx, hk⟩
  case inr hk => exact .inr fun x hx hv hr ht => hk x ((h x).mpr hx) hv hr (ht.congr fun y => (h y).symm)

theorem targetNode_of_isCleanup (h : isCleanup s o x n = true) : targetNode x = n :=
  (isCleanup_iff.mp h).targetNode

theorem own_of_isCleanup (h : isCleanup s o x n = true) : x.isControlledBy o.uid = true :=
  (isCleanup_iff.mp h).own

theorem lists_of_isCleanup (h : isCleanup s o x n = true) : o.listsCleanup x = true := by
  have hv := isCleanup_iff.mp h
  simp only [Owner.listsCleanup, Owner.lists, decide_eq_true_eq]
  exact ⟨hv.inNamespace, hv.role, hv.backend⟩

theorem path_of_isCleanup (h : isCleanup s o x n = true) :
    ∃ path, nodeLocalServerShmHostPath s.lib o.object = .ok path := by
  have hr := (isCleanup_iff.mp h).runs
  unfold isLMCacheNodeLocalCleanupPod.runsCleanup at hr
  split at hr
  case h_2 => cases hr
  case h_1 =>
    have hs := (of_decide_eq_true hr).2.1
    unfold isLMCacheNodeLocalCleanupPod.isShmOf at hs
    split at hs
    case h_1 path hp => exact ⟨path, hp⟩
    case h_2 => cases hs

theorem isCleanup_release (h : isCleanup s o x n = true) : isCleanup s o (release x) n = true := by
  have hv := isCleanup_iff.mp h
  apply isCleanup_iff.mpr
  exact { hv with gates := .inl rfl }

theorem isCleanup_retry {k : Int} (h : isCleanup s o x n = true) (hr : RetryOf s o x k r) :
    isCleanup s o r n = true :=
  isCleanup_iff.mpr (hr.validCleanup (isCleanup_iff.mp h) rfl)

theorem RetryOf.key {k : Int} (hr : RetryOf s o x k r) : r.key = retryKey s o x := by
  rw [hr.eq]
  rfl

theorem RetryOf.deleting {k : Int} (hr : RetryOf s o x k r) : r.deleting = false := by
  rw [hr.eq]

theorem RetryOf.own {k : Int} (hr : RetryOf s o x k r) : r.isControlledBy o.uid = true := by
  simp [hr.eq, PodObject.isControlledBy]

theorem not_givesWay : ¬GivesWay ∅ cancelOnDemand x := by
  rintro ⟨_, _, _, h⟩
  simp at h

theorem Intent.live_or_failed (h : ¬Succeeded x) (hi : Intent s o n x) : Live x ∨ Failed x := by
  cases ht : x.isTerminal
  case false => exact .inl ⟨ht, hi.2⟩
  case true => exact .inr ⟨ht, h⟩

end Basics

section Sufficient

-- Either there is an intent that the rest of the pass does not touch, or nothing has happened to the node yet.
inductive Kept (s : Setup) (o : Owner) (n : GoString) (pods l : List PodObject) (p : Progress) (c : Cluster) : Prop
  | safe {y : PodObject} (mem : y ∈ c.pods) (intent : Intent s o n y)
    (why : Settles y ∨ ∀ x ∈ l, x.key ≠ y.key)
  | whole (untaken : ∀ x ∈ pods, isCleanup s o x n = true → Retryable x → ¬Taken s o pods x)
    (inactive : n ∉ p.active) (here : ∀ x ∈ pods, isCleanup s o x n = true → x ∈ c.pods)
    (foreign : ∀ y ∈ pods, y.isControlledBy o.uid = false → y ∈ c.pods)
    (free : ∀ x ∈ pods, isCleanup s o x n = true → Retryable x →
      ∀ y ∈ c.pods, y.isControlledBy o.uid = true → y.key ≠ retryKey s o x)

theorem Kept.intent (h : Kept s o n pods l p c) (hx : x ∈ pods) (hi : Intent s o n x) :
    ∃ y ∈ c.pods, Intent s o n y := by
  cases h
  case safe hy hi _ => exact ⟨_, hy, hi⟩
  case whole hm _ _ => exact ⟨x, hm x hx hi.1, hi⟩

theorem Kept.idle (h : Kept s o n pods l p c) (hi : Idle c c') : Kept s o n pods l p c' := by
  cases h
  case safe hy hw hl => exact .safe (hi.pods ▸ hy) hw hl
  case whole hk ha hm hf hr => exact .whole hk ha (hi.pods ▸ hm) (hi.pods ▸ hf) (hi.pods ▸ hr)

theorem Kept.tail (h : Kept s o n pods (x :: l) p c) : Kept s o n pods l p c := by
  cases h
  case safe hy hi hw => exact .safe hy hi (hw.imp_right fun h z hz => h z (.tail _ hz))
  case whole hk ha hm hf hr => exact .whole hk ha hm hf hr

-- An intent that settles is still there after its own turn.
theorem Settles.turn (h : Settles x) (hi : Intent s o n x) (hs : n ∉ succeeded) (hx : x ∈ c.pods)
    (hg : GivesWay demand cancelOnDemand x → x.deleting = true)
    (ht : Turn s o demand cancelOnDemand succeeded x p c p' c') :
    ∃ y ∈ c'.pods, Intent s o n y ∧ Settles y ∧ y.key = x.key := by
  have hn := targetNode_of_isCleanup hi.1
  have hf (hf : Failed x) : retryCount x = none := by
    cases h
    case inl h => cases h.1.symm.trans hf.1
    case inr h => exact h.2
  have hd (hd : Succeeded x) : False := by
    cases h
    case inl h => exact h.not_succeeded hd
    case inr h => exact h.1.2 hd
  cases ht
  case done hd' _ => exact (hd hd').elim
  case superseded hf' hw _ =>
    rw [hn, hf hf'] at hw
    cases hw
    case inl hw => exact absurd hw hs
    case inr hw => cases hw.2
  case exhausted => exact ⟨x, hx, hi, h, rfl⟩
  case retried hf' _ _ hc _ _ _ => cases (hf hf').symm.trans hc
  case cancelled hw _ => cases hi.2.symm.trans (hg hw)
  case waiting hw => exact ⟨x, hw.pods ▸ hx, hi, h, rfl⟩
  case released ht _ _ hu _ _ hw =>
    refine ⟨release x, ?_, ⟨isCleanup_release hi.1, hi.2⟩, .inl ⟨ht, hu⟩, rfl⟩
    rw [hw.pods]
    exact mem_changed.mpr (.inr ⟨x, hx, rfl, rfl⟩)

theorem Kept.turn_own (h : Kept s o n pods (x :: l) p c) (hx : x ∈ pods) (hv : isCleanup s o x n = true)
    (hd : ¬Succeeded x) (hs : n ∉ succeeded) (hu : Underway (x :: l) c)
    (hg : GivesWay demand cancelOnDemand x → x.deleting = true)
    (ht : Turn s o demand cancelOnDemand succeeded x p c p' c') : Kept s o n pods l p' c' := by
  have hxc := hu.mem x (.head _)
  have hn := targetNode_of_isCleanup hv
  cases h
  case safe y hy hi hw =>
    by_cases he : y.key = x.key
    case neg => exact .safe (ht.mem_of_ne hy he) hi (hw.imp_right fun h z hz => h z (.tail _ hz))
    case pos =>
      cases eq_of_key hu.nodup hy hxc he
      have hw := hw.resolve_right fun h => h x (.head _) rfl
      have ⟨z, hz, hiz, hsz, _⟩ := hw.turn hi hs hxc hg ht
      exact .safe hz hiz (.inl hsz)
  case whole hk ha hm hf hr =>
    cases ht
    case done h _ => exact absurd h hd
    case superseded hw _ =>
      rw [hn] at hw
      exact (hw.elim hs fun h => ha h.1).elim
    case exhausted => exact .whole hk ha hm hf hr
    case retried k q c₁ hf' _ _ hc hq hp hrem =>
      have hret : Retryable x := ⟨hf', by rw [hc]; rfl⟩
      cases hp
      case found hy ho _ =>
        have ⟨hy, hk⟩ := find_eq_some hy
        exact absurd (hk.trans hq.key) (hr x hx hv hret _ hy ho)
      case created hfr hw =>
        have hne : q.key ≠ x.key := fun he => find_eq_none hfr x hxc he.symm
        have hq₁ : q ∈ c₁.pods := by
          rw [hw.pods]
          exact List.mem_append_right _ (List.mem_singleton_self q)
        refine .safe (hrem.mem_of_ne hq₁ hne) ⟨isCleanup_retry hv hq, hq.deleting⟩ (.inr fun z hz => ?_)
        exact find_eq_none hfr z (hu.mem z (.tail _ hz))
    case cancelled hw hrem =>
      cases hrem
      case marked hi => exact .whole hk ha (hi.pods ▸ hm) (hi.pods ▸ hf) (hi.pods ▸ hr)
      case deleted hu _ _ => cases hu.symm.trans (hg hw)
    case waiting hi => exact .whole hk ha (hi.pods ▸ hm) (hi.pods ▸ hf) (hi.pods ▸ hr)
    case released ht _ _ hdel _ _ hw =>
      refine .safe (y := release x) ?_ ⟨isCleanup_release hv, hdel⟩ (.inl (.inl ⟨ht, hdel⟩))
      rw [hw.pods]
      exact mem_changed.mpr (.inr ⟨x, hxc, rfl, rfl⟩)

theorem Kept.turn_other (h : Kept s o n pods (x :: l) p c) (hx : x ∈ pods)
    (hv : isCleanup s o x (targetNode x) = true) (hn : targetNode x ≠ n) (hp : (pods.map PodObject.key).Nodup)
    (hu : Underway (x :: l) c)
    (hnext : targetNode x ∉ succeeded → targetNode x ∉ p.active →
      ∀ y ∈ pods, isCleanup s o y (targetNode x) = true → ¬Live y ∧ ¬Succeeded y)
    (ht : Turn s o demand cancelOnDemand succeeded x p c p' c') : Kept s o n pods l p' c' := by
  have hxc := hu.mem x (.head _)
  have hne {y : PodObject} (hy : y ∈ pods) (he : y ≠ x) : y.key ≠ x.key := fun hk => he (eq_of_key hp hy hx hk)
  cases h
  case safe y hy hi hw =>
    have he : y.key ≠ x.key := by
      intro he
      cases eq_of_key hu.nodup hy hxc he
      exact hn (targetNode_of_isCleanup hi.1)
    exact .safe (ht.mem_of_ne hy he) hi (hw.imp_right fun h z hz => h z (.tail _ hz))
  case whole hk ha hm hf hr =>
    refine .whole hk ?_ ?_ ?_ ?_
    case refine_1 =>
      cases ht.active
      case inl h => rwa [h]
      case inr h =>
        rw [h, Finset.mem_insert]
        exact fun h => h.elim (fun he => hn he.symm) ha
    case refine_2 =>
      intro z hz hvz
      refine ht.mem_of_ne (hm z hz hvz) (hne hz fun he => hn ?_)
      exact he ▸ targetNode_of_isCleanup hvz
    case refine_3 =>
      intro z hz hoz
      refine ht.mem_of_ne (hf z hz hoz) (hne hz fun he => ?_)
      rw [he, own_of_isCleanup hv] at hoz
      cases hoz
    case refine_4 =>
      intro z hz hvz hrz y hy ho he
      have hxo := own_of_isCleanup hv
      rcases ht.origin hxc hu.nodup hy with hy | rfl | ⟨rfl, _⟩ | ⟨k, hfx, hsx, hax, hc, hq, hfr, _⟩
      case inl => exact hr z hz hvz hrz y hy ho he
      case inr.inl => exact hr z hz hvz hrz x hxc hxo he
      case inr.inr.inl => exact hr z hz hvz hrz x hxc hxo he
      case inr.inr.inr =>
        -- The retry of `x` has taken the name. It was free at the start then.
        have hkey : retryKey s o x = retryKey s o z := hq.key.symm.trans he
        refine hk z hz hvz hrz (.soon hx hv ?_ ⟨hfx, by rw [hc]; rfl⟩ hkey ?_ (hnext hsx hax))
        case refine_1 => rwa [targetNode_of_isCleanup hvz]
        case refine_2 =>
          intro w hw hwk
          cases hwo : w.isControlledBy o.uid
          case false => exact find_eq_none hfr w (hf w hw hwo) (hwk.trans he.symm)
          case true => exact hk z hz hvz hrz (.already hw hwo hwk)

variable {f : Found}

theorem mem_listed (h : isCleanup s o x n = true) (hx : x ∈ c.pods) : x ∈ listed o c :=
  List.mem_filter.mpr ⟨hx, lists_of_isCleanup h⟩

theorem Classified.none (hc : Classified s o (listed o c) f) (ha : n ∉ f.active) (hs : n ∉ f.succeeded) :
    ∀ y ∈ c.pods, isCleanup s o y n = true → ¬Live y ∧ ¬Succeeded y := by
  intro y hy hv
  have hl := mem_listed hv hy
  have ho := own_of_isCleanup hv
  have ht := targetNode_of_isCleanup hv
  exact ⟨fun h => ha ((hc.active n).mpr ⟨y, hl, ho, ht, h⟩), fun h => hs ((hc.succeeded n).mpr ⟨y, hl, ho, ht, h⟩)⟩

section Pass

variable (hv : ∀ x ∈ listed o c, x.isControlledBy o.uid = true → isCleanup s o x (targetNode x) = true)
variable (hs : ∀ x ∈ c.pods, isCleanup s o x n = true → ¬Succeeded x)

include hv

theorem Keeps.start (hc : Classified s o (listed o c) f) (hk : Keeps s o c.pods n) (hi : Idle c c') :
    Kept s o n c.pods (listed o c) ⟨∅, f.active⟩ c' := by
  have hp := hi.pods
  cases hk
  case inl hk =>
    have ⟨x, hx, hi, hw⟩ := hk
    exact .safe (hp ▸ hx) hi (.inl hw)
  case inr hk =>
    by_cases ha : n ∈ f.active
    case pos =>
      have ⟨x, hx, ho, ht, hl⟩ := (hc.active n).mp ha
      have hvx : isCleanup s o x n = true := ht ▸ hv x hx ho
      exact .safe (hp ▸ List.mem_of_mem_filter hx) ⟨hvx, hl.2⟩ (.inl (.inl hl))
    case neg =>
      refine .whole hk ha (fun x hx _ => hp ▸ hx) (fun x hx _ => hp ▸ hx) fun x hx hvx hrx y hy ho he => ?_
      exact hk x hx hvx hrx (.already (hp ▸ hy) ho he)

include hs

theorem notMem_succeeded (hc : Classified s o (listed o c) f) : n ∉ f.succeeded := by
  intro hm
  have ⟨z, hz, ho, ht, hd⟩ := (hc.succeeded n).mp hm
  exact hs z (List.mem_of_mem_filter hz) (ht ▸ hv z hz ho) hd

theorem wp_keeps (hn : (c.pods.map PodObject.key).Nodup) (hr : c.Reliable) (hx : x ∈ c.pods) (hi : Intent s o n x)
    (hk : Keeps s o c.pods n)
    (hg : ∀ z ∈ c.pods, isCleanup s o z n = true → GivesWay demand cancelOnDemand z → z.deleting = true) :
    wp (reconcileLMCacheNodeLocalCleanupPods s o demand cancelOnDemand) (fun _ d => ∃ y ∈ d.pods, Intent s o n y)
      (fun d => ∃ y ∈ d.pods, Intent s o n y) c := by
  apply wp_cleanups hn
  case hu => exact fun h => absurd h (isCleanup_iff.mp hi.1).uid
  case hf => exact fun _ h _ => absurd hr h
  case hv =>
    intro z hz ho hvz
    rw [hv z hz ho] at hvz
    cases hvz
  case hl =>
    intro f c₁ hc hu hi₁
    have hsn := notMem_succeeded hv hs hc
    refine (wp_advance_loop (I := fun l p d => (∀ z ∈ l, z ∈ listed o c) ∧ f.active ⊆ p.active ∧ d.Reliable ∧
      Kept s o n c.pods l p d) hu ⟨fun _ hz => hz, subset_rfl, hi₁.reliable hr, hk.start hv hc hi₁⟩ ?_ ?_ ?_).mono
        (fun p d h => h.2.2.2.2.intent hx hi) fun _ h => h
    case refine_1 =>
      rintro z l p d _ _ ⟨hm, ha, hr, hk⟩
      exact ⟨fun w hw => hm w (.tail _ hw), ha, hr, hk.tail⟩
    case refine_2 =>
      rintro z l p d p' d' ho hu ⟨hm, ha, hr, hk⟩ ht
      have hz := hm z (.head _)
      have hzc := List.mem_of_mem_filter hz
      have hvz := hv z hz ho
      refine ⟨fun w hw => hm w (.tail _ hw), ?_, ht.reliable hr, ?_⟩
      case refine_1 => exact ha.trans ht.active_subset
      case refine_2 =>
        by_cases he : targetNode z = n
        case pos => exact hk.turn_own hzc (he ▸ hvz) (hs z hzc (he ▸ hvz)) hsn hu (hg z hzc (he ▸ hvz)) ht
        case neg =>
          refine hk.turn_other hzc hvz he hn hu (fun hsz haz => ?_) ht
          exact hc.none (fun h => haz (ha h)) hsz
    case refine_3 =>
      rintro z l p d d' ho hu ⟨hm, ha, hr, hk⟩ hb
      cases hb
      case idle hi' => exact (hk.idle hi').intent hx hi
      case halfway hw _ _ _ _ _ _ _ => exact absurd hr hw
      case unanswered hw _ => exact absurd hr hw

end Pass

end Sufficient

section Necessary

-- What is left of the node is marked, or its turn is still to come.
def Losing (s : Setup) (o : Owner) (n : GoString) (l : List PodObject) (c : Cluster) : Prop :=
  ∀ y ∈ c.pods, isCleanup s o y n = true → y.deleting = true ∨ y ∈ l

theorem Removed.deleting (h : Removed x c c') (hn : (c.pods.map PodObject.key).Nodup) (hx : x ∈ c.pods)
    (hy : y ∈ c'.pods) (hk : y.key = x.key) : y.deleting = true := by
  cases h
  case marked hd hi =>
    rw [eq_of_key hn (hi.pods ▸ hy) hx hk]
    exact hd
  case deleted hd hw =>
    cases hd.mem (hw.pods ▸ hy)
    case inl h => exact absurd hk h.2
    case inr h =>
      have ⟨_, _, _, he⟩ := h
      rw [he]
      rfl

-- It is enough that the Pod itself goes, and that it has no successor on the node.
theorem Losing.turn (h : Losing s o n (x :: l) c) (hu : Underway (x :: l) c)
    (hv : isCleanup s o x (targetNode x) = true) (ht : Turn s o ∅ cancelOnDemand succeeded x p c p' c')
    (hx : isCleanup s o x n = true → x.deleting = true ∨ Retryable x)
    (hg : isCleanup s o x n = true → ∀ y ∈ c'.pods, y.key = x.key → y.deleting = true)
    (hr : isCleanup s o x n = true → ∀ k r, retryCount x = some k → targetNode x ∉ p.active →
      RetryOf s o x k r → c.find r.key = none → False) : Losing s o n l c' := by
  intro y hy hvy
  have hxc := hu.mem x (.head _)
  rcases ht.origin hxc hu.nodup hy with hyc | rfl | ⟨rfl, hter, _, hdel, _⟩ | ⟨k, hf, _, ha, hc, hq, hfr, _⟩
  case inl =>
    cases h y hyc hvy
    case inl h => exact .inl h
    case inr h =>
      cases h
      case head => exact .inl (hg hvy x hy rfl)
      case tail hl => exact .inr hl
  case inr.inl => exact .inl rfl
  case inr.inr.inl =>
    have hvx : isCleanup s o x n = true := by
      have he : targetNode (release x) = n := targetNode_of_isCleanup hvy
      exact he ▸ hv
    cases hx hvx
    case inl h => cases hdel.symm.trans h
    case inr h => cases hter.symm.trans h.1.1
  case inr.inr.inr =>
    have hvx : isCleanup s o x n = true := by
      have he : targetNode x = n := hq.targetNode.symm.trans (targetNode_of_isCleanup hvy)
      exact he ▸ hv
    exact (hr hvx k y hc ha hq hfr).elim

-- Once the node counts as active, all that has failed on it is removed.
theorem Losing.turn_active (h : Losing s o n (x :: l) c) (hu : Underway (x :: l) c)
    (hv : isCleanup s o x (targetNode x) = true) (ht : Turn s o ∅ cancelOnDemand succeeded x p c p' c')
    (hx : isCleanup s o x n = true → x.deleting = true ∨ Retryable x) (ha : n ∈ p.active) :
    Losing s o n l c' ∧ n ∈ p'.active := by
  have hxc := hu.mem x (.head _)
  constructor
  case right =>
    cases ht.active
    case inl h => rwa [h]
    case inr h => exact h ▸ Finset.mem_insert_of_mem ha
  case left =>
    refine h.turn hu hv ht hx (fun hvx y hy hk => ?_) fun hvx k r _ hna _ _ => hna (targetNode_of_isCleanup hvx ▸ ha)
    have hd {d : Cluster} (h : Removed x c d) (hy : y ∈ d.pods) : y.deleting = true := h.deleting hu.nodup hxc hy hk
    have hm (hy : y ∈ c.pods) (hr : ¬Retryable x) : y.deleting = true := by
      rw [eq_of_key hu.nodup hy hxc hk]
      exact (hx hvx).resolve_right hr
    cases ht
    case done h => exact hd h hy
    case superseded h => exact hd h hy
    case exhausted hl => exact hm hy fun hr => by simp [Retryable, hl] at hr
    case retried hna _ _ _ _ => exact absurd (targetNode_of_isCleanup hvx ▸ ha) hna
    case cancelled hg _ => exact absurd hg not_givesWay
    case waiting htr _ hi => exact hm (hi.pods ▸ hy) fun hr => by cases htr.symm.trans hr.1.1
    case released htr _ _ hdel _ _ hw =>
      cases hx hvx
      case inl h => cases hdel.symm.trans h
      case inr h => cases htr.symm.trans h.1.1

-- The name of the retry is taken, so that nothing is created, and yet the Pod goes.
theorem wp_advance_taken (hr : c.Reliable) (hu : Underway (x :: l) c) (hv : isCleanup s o x n = true)
    (hx : Retryable x) (ha : n ∉ p.active) (hs : n ∉ succeeded) (hy : y ∈ c.pods) (ho : y.isControlledBy o.uid = true)
    (hk : y.key = retryKey s o x) (h : Losing s o n (x :: l) c) :
    wp (advance s o ∅ cancelOnDemand succeeded p x)
      (fun p' d => Underway l d ∧ d.Reliable ∧ n ∈ p'.active ∧ Losing s o n l d) (fun _ => False) c := by
  have hxc := hu.mem x (.head _)
  have hn := targetNode_of_isCleanup hv
  have hfind {k : Int} {r : PodObject} (hq : RetryOf s o x k r) : c.find r.key = some y := by
    rw [hq.key, ← hk]
    exact find_of_mem hu.nodup hy
  have hne {k : Int} {r : PodObject} (hq : RetryOf s o x k r) (hfr : c.find r.key = none) : False := by
    cases (hfind hq).symm.trans hfr
  refine (wp_advance hu.nodup hxc (own_of_isCleanup hv)).mono (fun p' d ht => ?_) fun d hb => ?_
  case refine_1 =>
    have hl (ha' : n ∈ p'.active) (hg : ∀ y ∈ d.pods, y.key = x.key → y.deleting = true) :
        Underway l d ∧ d.Reliable ∧ n ∈ p'.active ∧ Losing s o n l d :=
      ⟨ht.underway hu, ht.reliable hr, ha', h.turn hu (hn ▸ hv) ht (fun _ => .inr hx) (fun _ => hg)
        fun _ _ _ _ _ hq hfr => hne hq hfr⟩
    cases ht
    case done hd _ => exact absurd hd hx.1.2
    case superseded hw _ =>
      rw [hn] at hw
      exact (hw.elim hs fun h => ha h.1).elim
    case exhausted hc => simp [Retryable, hc] at hx
    case retried hq hp hrem =>
      cases hp
      case created hfr _ => exact (hne hq hfr).elim
      case found hi =>
        refine hl ?_ fun z hz hkz => hrem.deleting (hi.pods ▸ hu.nodup) (hi.pods ▸ hxc) hz hkz
        rw [← hn]
        exact Finset.mem_insert_self _ _
    case cancelled hg _ => exact absurd hg not_givesWay
    case waiting htr _ _ => cases htr.symm.trans hx.1.1
    case released htr _ _ _ _ _ _ => cases htr.symm.trans hx.1.1
  case refine_2 =>
    cases hb
    case idle hw _ =>
      cases hw
      case inl hw => exact hw hr
      case inr hw =>
        cases hw
        case occupied k _ _ _ _ hz =>
          have hv := isCleanup_iff.mp hv
          have ⟨r, hq⟩ : ∃ r, RetryOf s o x k r := exists_retryOf hv.uid (hn ▸ hv.target) hv.name
          have ⟨z, hz, hoz⟩ := hz r hq
          cases (hfind hq).symm.trans hz
          cases ho.symm.trans hoz
        case unknown htr _ => cases htr.symm.trans hx.1.1
    case halfway hw _ _ _ _ _ _ _ => exact hw hr
    case unanswered hw _ => exact hw hr

-- The retry of a Pod of another node takes the name.
theorem wp_advance_taking {z : PodObject} (hr : c.Reliable) (hu : Underway (z :: l) c)
    (hv : isCleanup s o z (targetNode z) = true) (hz : Retryable z) (ha : targetNode z ∉ p.active)
    (hs : targetNode z ∉ succeeded) (hn : targetNode z ≠ n) (hk : ∀ y ∈ c.pods, y.key ≠ retryKey s o z)
    (h : Losing s o n l c) :
    wp (advance s o ∅ cancelOnDemand succeeded p z)
      (fun p' d => Underway l d ∧ d.Reliable ∧ (n ∉ p.active → n ∉ p'.active) ∧ Losing s o n l d ∧
        ∃ y ∈ d.pods, y.isControlledBy o.uid = true ∧ y.key = retryKey s o z) (fun _ => False) c := by
  have hzc := hu.mem z (.head _)
  have hvz := isCleanup_iff.mp hv
  have hfree {k : Int} {r : PodObject} (hq : RetryOf s o z k r) : c.find r.key = none := by
    cases hf : c.find r.key
    case none => rfl
    case some y =>
      have ⟨hy, hky⟩ := find_eq_some hf
      exact absurd (hky.trans hq.key) (hk y hy)
  refine (wp_advance hu.nodup hzc hvz.own).mono (fun p' d ht => ?_) fun d hb => ?_
  case refine_1 =>
    have hl : Losing s o n l d := by
      have hno (hvn : isCleanup s o z n = true) : False := hn (targetNode_of_isCleanup hvn)
      have h' : Losing s o n (z :: l) c := fun y hy hvy => (h y hy hvy).imp_right (.tail _)
      exact h'.turn hu hv ht (fun hvn => (hno hvn).elim) (fun hvn => (hno hvn).elim) fun hvn => (hno hvn).elim
    have ha' (hna : n ∉ p.active) : n ∉ p'.active := by
      cases ht.active
      case inl h => rwa [h]
      case inr h =>
        rw [h, Finset.mem_insert]
        exact fun h => h.elim (fun he => hn he.symm) hna
    refine ⟨ht.underway hu, ht.reliable hr, ha', hl, ?_⟩
    clear hl ha'
    cases ht
    case done hd _ => exact absurd hd hz.1.2
    case superseded hw _ => exact (hw.elim hs fun h => ha h.1).elim
    case exhausted hc => simp [Retryable, hc] at hz
    case retried k r c₁ _ _ _ _ hq hp hrem =>
      cases hp
      case found hf _ _ => cases (hfree hq).symm.trans hf
      case created hfr hw =>
        have hr₁ : r ∈ c₁.pods := by
          rw [hw.pods]
          exact List.mem_append_right _ (List.mem_singleton_self r)
        have hne : r.key ≠ z.key := fun he => find_eq_none hfr z hzc he.symm
        exact ⟨r, hrem.mem_of_ne hr₁ hne, hq.own, hq.key⟩
    case cancelled hg _ => exact absurd hg not_givesWay
    case waiting htr _ _ => cases htr.symm.trans hz.1.1
    case released htr _ _ _ _ _ _ => cases htr.symm.trans hz.1.1
  case refine_2 =>
    cases hb
    case idle hw _ =>
      cases hw
      case inl hw => exact hw hr
      case inr hw =>
        cases hw
        case occupied k _ _ _ _ hw =>
          have ⟨r, hq⟩ : ∃ r, RetryOf s o z k r := exists_retryOf hvz.uid hvz.target hvz.name
          have ⟨y, hy, _⟩ := hw r hq
          cases (hfree hq).symm.trans hy
        case unknown htr _ => cases htr.symm.trans hz.1.1
    case halfway hw _ _ _ _ _ _ _ => exact hw hr
    case unanswered hw _ => exact hw hr

-- The rest of the pass, where the Pods of the node come before all others. No error can stop it before they are
-- through.
theorem wp_losing_loop (hr : c.Reliable) (hu : Underway l c) (ha : n ∈ p.active) (h : Losing s o n l c)
    (hv : ∀ x ∈ l, x.isControlledBy o.uid = true → isCleanup s o x (targetNode x) = true)
    (hx : ∀ x ∈ l, isCleanup s o x n = true → x.deleting = true ∨ Retryable x)
    (hl : l.Pairwise fun a b => isCleanup s o b n = true → isCleanup s o a n = true) :
    wp (l.foldlM (advance s o ∅ cancelOnDemand succeeded) p) (fun _ => Losing s o n []) (Losing s o n []) c := by
  refine (wp_advance_loop (I := fun l' p d => (∀ x ∈ l', x ∈ l) ∧
    l'.Pairwise (fun a b => isCleanup s o b n = true → isCleanup s o a n = true) ∧ d.Reliable ∧ n ∈ p.active ∧
    Losing s o n l' d) hu ⟨fun _ h => h, hl, hr, ha, h⟩ ?_ ?_ ?_).mono (fun _ _ h => h.2.2.2.2.2) fun _ h => h
  case refine_1 =>
    rintro z l' p d ho _ ⟨hm, hl, hr, ha, h⟩
    refine ⟨fun w hw => hm w (.tail _ hw), hl.tail, hr, ha, fun y hy hvy => (h y hy hvy).imp_right fun hyl => ?_⟩
    cases hyl
    case head => cases ho.symm.trans (own_of_isCleanup hvy)
    case tail hy => exact hy
  case refine_2 =>
    rintro z l' p d p' d' ho hu ⟨hm, hl, hr, ha, h⟩ ht
    have ⟨hlose, ha'⟩ := h.turn_active hu (hv z (hm z (.head _)) ho) ht (hx z (hm z (.head _))) ha
    exact ⟨fun w hw => hm w (.tail _ hw), hl.tail, ht.reliable hr, ha', hlose⟩
  case refine_3 =>
    rintro z l' p d d' ho hu ⟨hm, hl, hr, ha, h⟩ hb
    cases hb
    case halfway hw _ _ _ _ _ _ _ => exact absurd hr hw
    case unanswered hw _ => exact absurd hr hw
    case idle hw hi =>
      have hw := hw.resolve_left fun h => h hr
      have hvz := hv z (hm z (.head _)) ho
      have hzn : isCleanup s o z n ≠ true := by
        intro hvn
        cases hw
        case occupied hna _ _ => exact hna (targetNode_of_isCleanup hvn ▸ ha)
        case unknown hp =>
          have ⟨_, ho⟩ := path_of_isCleanup hvn
          cases ho.symm.trans hp
      intro y hy hvy
      refine (h y (hi.pods ▸ hy) hvy).imp_right fun hyl => ?_
      cases hyl
      case head => exact absurd hvy hzn
      case tail hyl => exact absurd ((List.pairwise_cons.mp hl).1 y hyl hvy) hzn

structure Fronted (s : Setup) (o : Owner) (n : GoString) (l : List PodObject) : Prop where
  valid : ∀ x ∈ l, x.isControlledBy o.uid = true → isCleanup s o x (targetNode x) = true
  gone  : ∀ x ∈ l, isCleanup s o x n = true → x.deleting = true ∨ Retryable x
  front : l.Pairwise fun a b => isCleanup s o b n = true → isCleanup s o a n = true

theorem wp_losing (hl : Fronted s o n l) (hr : c.Reliable) (hu : Underway (x :: l) c) (hv : isCleanup s o x n = true)
    (hx : Retryable x) (ha : n ∉ p.active) (hs : n ∉ succeeded) (hy : y ∈ c.pods) (ho : y.isControlledBy o.uid = true)
    (hk : y.key = retryKey s o x) (h : Losing s o n (x :: l) c) :
    wp ((x :: l).foldlM (advance s o ∅ cancelOnDemand succeeded) p) (fun _ => Losing s o n []) (Losing s o n []) c := by
  rw [List.foldlM_cons, wp_bind]
  refine (wp_advance_taken hr hu hv hx ha hs hy ho hk h).mono ?_ fun _ => False.elim
  rintro p' d ⟨hu', hr', ha', h'⟩
  exact wp_losing_loop hr' hu' ha' h' hl.valid hl.gone hl.front

section Order

theorem perm_cons_filter (hn : (pods.map PodObject.key).Nodup) (hx : x ∈ pods) :
    (x :: pods.filter (·.key ≠ x.key)).Perm pods := by
  induction pods
  case nil => cases hx
  case cons y pods hi =>
    have ⟨hy, hn⟩ := List.nodup_cons.mp hn
    by_cases he : y.key = x.key
    case pos =>
      have hf : pods.filter (·.key ≠ x.key) = pods := by
        refine List.filter_eq_self.mpr fun z hz => decide_eq_true fun hk => hy ?_
        exact he.trans hk.symm ▸ List.mem_map_of_mem hz
      cases hx
      case head => rw [List.filter_cons_of_neg (by simp), hf]
      case tail hx => exact absurd (List.mem_map_of_mem (f := PodObject.key) hx) (he ▸ hy)
    case neg =>
      cases hx
      case head => exact absurd rfl he
      case tail hx =>
        rw [List.filter_cons_of_pos (by simpa using he)]
        exact (List.Perm.swap y x _).trans ((hi hn hx).cons y)

def nodeFirst (s : Setup) (o : Owner) (n : GoString) (pods : List PodObject) : List PodObject :=
  pods.filter (isCleanup s o · n) ++ pods.filter fun x => !isCleanup s o x n

theorem nodeFirst_perm : (nodeFirst s o n pods).Perm pods :=
  List.filter_append_perm _ _

theorem pairwise_nodeFirst :
    (nodeFirst s o n pods).Pairwise fun a b => isCleanup s o b n = true → isCleanup s o a n = true := by
  refine List.pairwise_append.mpr ⟨?_, ?_, fun a ha b _ _ => (List.mem_filter.mp ha).2⟩
  case refine_1 => exact List.pairwise_of_forall_mem_list fun a ha _ _ _ => (List.mem_filter.mp ha).2
  case refine_2 =>
    refine List.pairwise_of_forall_mem_list fun a _ b hb hvb => ?_
    have := (List.mem_filter.mp hb).2
    simp [hvb] at this

end Order

section Lost

theorem losing_listed (hi : Idle c c') : Losing s o n (listed o c) c' := by
  intro y hy hvy
  exact .inr (mem_listed hvy (hi.pods ▸ hy))

theorem losing_pass (hn : (c.pods.map PodObject.key).Nodup) (hr : c.Reliable)
    (hv : ∀ x ∈ listed o c, x.isControlledBy o.uid = true → isCleanup s o x (targetNode x) = true)
    (hx : isCleanup s o x n = true)
    (hl : ∀ f c₁, Classified s o (listed o c) f → Underway (listed o c) c₁ → Idle c c₁ →
      wp ((listed o c).foldlM (advance s o ∅ cancelOnDemand f.succeeded) ⟨∅, f.active⟩) (fun _ => Losing s o n [])
        (Losing s o n []) c₁) :
    Losing s o n [] (reconcileLMCacheNodeLocalCleanupPods s o ∅ cancelOnDemand c).2 := by
  refine wp.state (wp_cleanups hn ?_ ?_ ?_ hl)
  case refine_1 => exact fun h => absurd h (isCleanup_iff.mp hx).uid
  case refine_2 => exact fun _ h _ => absurd hr h
  case refine_3 =>
    intro z hz ho hvz
    rw [hv z hz ho] at hvz
    cases hvz

variable (hs : ∀ x ∈ pods, isCleanup s o x n = true → ¬Succeeded x)
variable (hw : ∀ x ∈ pods, Intent s o n x → ¬Settles x)

include hs hw

theorem gone_of_not_settles : ∀ x ∈ pods, isCleanup s o x n = true → x.deleting = true ∨ Retryable x := by
  intro x hx hvx
  cases hd : x.deleting
  case true => exact .inl rfl
  case false =>
    have hi : Intent s o n x := ⟨hvx, hd⟩
    have hns := hw x hx hi
    cases hi.live_or_failed (hs x hx hvx)
    case inl h => exact absurd (.inl h) hns
    case inr h => exact .inr ⟨h, Option.isSome_iff_ne_none.mpr fun hc => hns (.inr ⟨h, hc⟩)⟩

variable (hv : ∀ x ∈ pods, o.listsCleanup x = true → x.isControlledBy o.uid = true →
  isCleanup s o x (targetNode x) = true)

include hv

theorem fronted (hl : ∀ x ∈ l, x ∈ pods) : Fronted s o n ((nodeFirst s o n l).filter o.listsCleanup) := by
  have hm {x : PodObject} (hx : x ∈ (nodeFirst s o n l).filter o.listsCleanup) :
      x ∈ pods ∧ o.listsCleanup x = true := by
    have ⟨hx, hl'⟩ := List.mem_filter.mp hx
    exact ⟨hl x (nodeFirst_perm.mem_iff.mp hx), hl'⟩
  refine ⟨fun x hx => hv x (hm hx).1 (hm hx).2, fun x hx => gone_of_not_settles hs hw x (hm hx).1, ?_⟩
  exact pairwise_nodeFirst.filter _

theorem exists_order (cancelOnDemand : Bool) (hn : (pods.map PodObject.key).Nodup) (hx : x ∈ pods)
    (hvx : isCleanup s o x n = true) (hr : Retryable x) (ht : Taken s o pods x) :
    ∃ c : Cluster, c.pods.Perm pods ∧ c.Reliable ∧
      Losing s o n [] (reconcileLMCacheNodeLocalCleanupPods s o ∅ cancelOnDemand c).2 := by
  have hpass {c : Cluster} (hp : c.pods.Perm pods) (hr : c.Reliable) (hl : ∀ f c₁, Classified s o (listed o c) f →
      Underway (listed o c) c₁ → Idle c c₁ → n ∉ f.active → n ∉ f.succeeded →
      wp ((listed o c).foldlM (advance s o ∅ cancelOnDemand f.succeeded) ⟨∅, f.active⟩) (fun _ => Losing s o n [])
        (Losing s o n []) c₁) :
      ∃ c : Cluster, c.pods.Perm pods ∧ c.Reliable ∧
        Losing s o n [] (reconcileLMCacheNodeLocalCleanupPods s o ∅ cancelOnDemand c).2 := by
    have hv' : ∀ z ∈ listed o c, z.isControlledBy o.uid = true → isCleanup s o z (targetNode z) = true := by
      intro z hz
      have ⟨hz, hl⟩ := List.mem_filter.mp hz
      exact hv z (hp.mem_iff.mp hz) hl
    refine ⟨c, hp, hr, losing_pass ((hp.map _).nodup_iff.mpr hn) hr hv' hvx fun f c₁ hc hu hi => ?_⟩
    refine hl f c₁ hc hu hi ?_ (notMem_succeeded hv' (fun z hz => hs z (hp.mem_iff.mp hz)) hc)
    intro ha
    have ⟨z, hz, ho, htz, hlz⟩ := (hc.active n).mp ha
    exact hw z (hp.mem_iff.mp (List.mem_of_mem_filter hz)) ⟨htz ▸ hv' z hz ho, hlz.2⟩ (.inl hlz)
  have hlx := lists_of_isCleanup hvx
  cases ht
  case already y hy ho hk =>
    let rest := nodeFirst s o n (pods.filter (·.key ≠ x.key))
    have hp : (x :: rest).Perm pods := (nodeFirst_perm.cons x).trans (perm_cons_filter hn hx)
    refine hpass (c := ⟨x :: rest, [], fun _ => {}⟩) hp (fun _ => rfl) fun f c₁ hc hu hi ha hsn => ?_
    have hl : listed o ⟨x :: rest, [], fun _ => {}⟩ = x :: rest.filter o.listsCleanup := List.filter_cons_of_pos hlx
    have hlose := losing_listed (s := s) (o := o) (n := n) hi
    rw [hl] at hu hlose ⊢
    have hyc : y ∈ c₁.pods := hi.pods ▸ hp.mem_iff.mpr hy
    exact wp_losing (fronted hs hw hv fun z hz => List.mem_of_mem_filter hz) (hi.reliable fun _ => rfl) hu hvx hr ha hsn
      hyc ho hk hlose
  case soon z hz hvz hzn hrz hkz hfree hnext =>
    have htx := targetNode_of_isCleanup hvx
    let others := pods.filter (·.key ≠ z.key)
    let rest := nodeFirst s o n (others.filter (·.key ≠ x.key))
    have hxo : x ∈ others := by
      refine List.mem_filter.mpr ⟨hx, decide_eq_true fun he => hzn ?_⟩
      rw [eq_of_key hn hx hz he]
    have hno : (others.map PodObject.key).Nodup := hn.sublist (List.filter_sublist.map _)
    have hp : (z :: x :: rest).Perm pods :=
      (((nodeFirst_perm.cons x).trans (perm_cons_filter hno hxo)).cons z).trans (perm_cons_filter hn hz)
    refine hpass (c := ⟨z :: x :: rest, [], fun _ => {}⟩) hp (fun _ => rfl) fun f c₁ hc hu hi ha hsn => ?_
    have hl : listed o ⟨z :: x :: rest, [], fun _ => {}⟩ = z :: x :: rest.filter o.listsCleanup := by
      rw [listed, List.filter_cons_of_pos (lists_of_isCleanup hvz), List.filter_cons_of_pos hlx]
    have hlose : Losing s o n (x :: rest.filter o.listsCleanup) c₁ := by
      intro y hy hvy
      have hyl := hl ▸ mem_listed hvy (hi.pods ▸ hy)
      cases hyl
      case head => exact absurd (targetNode_of_isCleanup hvy) (htx ▸ hzn)
      case tail hyl => exact .inr hyl
    have hzc : ∀ y ∈ pods, isCleanup s o y (targetNode z) = true → ¬Live y ∧ ¬Succeeded y := hnext
    have haz : targetNode z ∉ f.active := by
      intro ha
      have ⟨w, hw, ho, htw, hlw⟩ := (hc.active _).mp ha
      have ⟨hw, hlw'⟩ := List.mem_filter.mp hw
      have hwp := hp.mem_iff.mp hw
      exact (hzc w hwp (htw ▸ hv w hwp hlw' ho)).1 hlw
    have hsz : targetNode z ∉ f.succeeded := by
      intro ha
      have ⟨w, hw, ho, htw, hlw⟩ := (hc.succeeded _).mp ha
      have ⟨hw, hlw'⟩ := List.mem_filter.mp hw
      have hwp := hp.mem_iff.mp hw
      exact (hzc w hwp (htw ▸ hv w hwp hlw' ho)).2 hlw
    rw [hl] at hu ⊢
    rw [List.foldlM_cons, wp_bind]
    refine (wp_advance_taking (hi.reliable fun _ => rfl) hu hvz hrz haz hsz (htx ▸ hzn) ?_ hlose).mono ?_
      fun _ => False.elim
    case refine_1 =>
      intro y hy
      rw [hi.pods] at hy
      rw [hkz]
      exact hfree y (hp.mem_iff.mp hy)
    case refine_2 =>
      rintro p' d ⟨hu', hr', ha', hlose', y, hy, ho, hk⟩
      have hm : ∀ w ∈ others.filter (·.key ≠ x.key), w ∈ pods :=
        fun w hw => List.mem_of_mem_filter (List.mem_of_mem_filter hw)
      exact wp_losing (fronted hs hw hv hm) hr' hu' hvx hr (ha' ha) hsn hy ho (hk.trans hkz) hlose'

end Lost

end Necessary

-- An intent is kept in every order exactly if there is one that needs no retry, or no retry finds its name taken.
theorem intents_kept_iff (s : Setup) (o : Owner) (n : GoString) (pods : List PodObject)
    (hn : (pods.map PodObject.key).Nodup)
    (hv : ∀ x ∈ pods, o.listsCleanup x = true → x.isControlledBy o.uid = true →
      isCleanup s o x (targetNode x) = true)
    (hs : ∀ x ∈ pods, isCleanup s o x n = true → ¬Succeeded x) (hi : ∃ x ∈ pods, Intent s o n x) :
    (∀ (c : Cluster) cancelOnDemand, c.pods.Perm pods → c.Reliable →
      ∃ y ∈ (reconcileLMCacheNodeLocalCleanupPods s o ∅ cancelOnDemand c).2.pods, Intent s o n y) ↔
    Keeps s o pods n := by
  constructor
  case mpr =>
    intro hk c cancelOnDemand hp hr
    have ⟨x, hx, hi⟩ := hi
    have hv' : ∀ z ∈ listed o c, z.isControlledBy o.uid = true → isCleanup s o z (targetNode z) = true := by
      intro z hz
      have ⟨hz, hl⟩ := List.mem_filter.mp hz
      exact hv z (hp.mem_iff.mp hz) hl
    exact (wp_keeps hv' (fun z hz => hs z (hp.mem_iff.mp hz)) ((hp.map _).nodup_iff.mpr hn) hr (hp.mem_iff.mpr hx) hi
      (hk.congr fun _ => hp.mem_iff.symm) fun _ _ _ hw =>
      absurd hw not_givesWay).state
  case mp =>
    intro h
    by_contra hk
    have ⟨hw, ht⟩ := not_or.mp hk
    push Not at hw ht
    have ⟨x, hx, hvx, hr, ht⟩ := ht
    have ⟨c, hp, hr, hl⟩ := exists_order hs hw hv true hn hx hvx hr ht
    have ⟨y, hy, hiy⟩ := h c true hp hr
    cases hl y hy hiy.1
    case inl h => cases hiy.2.symm.trans h
    case inr h => cases h

-- A cleanup that has failed, with the given name and retry count.
def failedCleanup (name count : GoString) : PodObject where
  key := ⟨utf8 "team", name⟩
  labels := stringMap [(labelLMCacheNodeLocalCleanup, utf8 "true"), (labelCacheBackendUID, utf8 "1")]
  annotations := stringMap [(annotationNodeLocalOwnerUID, utf8 "1"), (annotationNodeLocalTargetNode, utf8 "n1"),
    Prod.mk nodeLocalShmCleanupRetryAnnotation count]
  controller := some (utf8 "1")
  deleting := false
  nodeName := utf8 "n1"
  affinity := some (.exactNode (utf8 "n1"))
  restartPolicy := restartPolicyNever
  schedulingGates := []
  spec := ⟨[cleanupContainer (utf8 "cleaner:1")], [], [nodeShmVolume (utf8 "/dev/shm/inference-cache/1")]⟩
  ephemeralContainers := []
  phase := .failed
  containerStatuses := []

def firstCleanup : PodObject :=
  failedCleanup (nodeLocalCleanupPodName Setup.plain.sha256 (utf8 "1") (utf8 "n1")) []

def secondCleanup : PodObject :=
  failedCleanup (nodeLocalCleanupRetryPodName Setup.plain.sha256 (utf8 "1") (utf8 "n1") firstCleanup.key.name)
    (utf8 "1")

theorem intents_kept_iff_single :
    ∃ y ∈ (reconcileLMCacheNodeLocalCleanupPods .plain nodeLocalOwner ∅ true ⟨[firstCleanup], [], fun _ => {}⟩).2.pods,
      Intent .plain nodeLocalOwner (utf8 "n1") y := by
  have hv : isCleanup .plain nodeLocalOwner firstCleanup (utf8 "n1") = true := by decide +kernel
  have ht : targetNode firstCleanup = utf8 "n1" := by decide +kernel
  have hs : ¬Succeeded firstCleanup := by unfold Succeeded; decide +kernel
  have hk : firstCleanup.key ≠ retryKey .plain nodeLocalOwner firstCleanup := by decide +kernel
  refine (intents_kept_iff .plain nodeLocalOwner (utf8 "n1") [firstCleanup] (by simp) ?_ ?_ ?_).mpr ?_ _ true
    (.refl _) fun _ => rfl
  case refine_1 =>
    intro x hx _ _
    rw [List.mem_singleton.mp hx, ht]
    exact hv
  case refine_2 =>
    intro x hx _
    rw [List.mem_singleton.mp hx]
    exact hs
  case refine_3 => exact ⟨firstCleanup, List.mem_singleton_self _, hv, rfl⟩
  case refine_4 =>
    refine .inr fun x hx _ _ htaken => ?_
    cases List.mem_singleton.mp hx
    cases htaken
    case already hy _ he =>
      rw [List.mem_singleton.mp hy] at he
      exact hk he
    case soon hz _ hne _ _ _ _ =>
      rw [List.mem_singleton.mp hz] at hne
      exact hne rfl

-- Both have failed, and the first one could not be deleted when the second was created. Now the first finds that
-- the name of its retry exists, and the second that the node is active.
theorem intents_lost : ∃ c : Cluster, c.Reliable ∧
    (∀ x ∈ c.pods, Intent .plain nodeLocalOwner (utf8 "n1") x ∧ ¬Succeeded x) ∧ c.pods ≠ [] ∧
    ¬∃ y ∈ (reconcileLMCacheNodeLocalCleanupPods .plain nodeLocalOwner ∅ true c).2.pods,
      Intent .plain nodeLocalOwner (utf8 "n1") y := by
  refine ⟨⟨[firstCleanup, secondCleanup], [], fun _ => {}⟩, fun _ => rfl, ?_, by simp, ?_⟩
  case refine_1 =>
    simp only [List.forall_mem_cons, List.not_mem_nil, false_implies, implies_true, and_true, Intent, Succeeded]
    decide +kernel
  case refine_2 =>
    have hl : (reconcileLMCacheNodeLocalCleanupPods .plain nodeLocalOwner ∅ true
        ⟨[firstCleanup, secondCleanup], [], fun _ => {}⟩).2.pods.length = 0 := by decide +kernel
    rw [List.length_eq_zero_iff.mp hl]
    simp

end InferenceCache.Controller.NodeLocal
