import InferenceCache.Controller.Theorems.NodeLocal

namespace InferenceCache.Controller.NodeLocal

open Kube Kube.Cluster Kube.Api Program Adapters EngineBinding

section Pods

def Succeeded (p : PodObject) : Prop :=
  lmCacheNodeLocalCleanupSucceeded p (targetNode p) = true

def Failed (p : PodObject) : Prop :=
  p.isTerminal = true ∧ ¬Succeeded p

def Live (p : PodObject) : Prop :=
  p.isTerminal = false ∧ p.deleting = false

-- Still behind its gate, while there is an engine on its node.
def GivesWay (demand : GoMap GoString PodObject) (cancelOnDemand : Bool) (p : PodObject) : Prop :=
  p.isTerminal = false ∧ p.schedulingGates ≠ [] ∧ cancelOnDemand = true ∧ (demand.lookup (targetNode p)).isSome = true

def Identity.Sweeper (id : Identity) (p : PodObject) : Prop :=
  p.controller = some id.uid ∧ p.key.inNamespace = id.key.inNamespace ∧
    p.label labelLMCacheNodeLocalCleanup = utf8 "true"

variable {id : Identity} {p : PodObject}

theorem Identity.Cleanup.sweeper (h : id.Cleanup p) : id.Sweeper p :=
  ⟨h.1, h.2.1, h.2.2.1⟩

theorem Succeeded.terminal (h : Succeeded p) : p.isTerminal = true := by
  simp only [Succeeded, lmCacheNodeLocalCleanupSucceeded, decide_eq_true_eq] at h
  simp only [PodObject.isTerminal, decide_eq_true_eq]
  exact .inl h.1

theorem Live.not_succeeded (h : Live p) : ¬Succeeded p := by
  intro hs
  exact absurd hs.terminal (Bool.eq_false_iff.mp h.1)

end Pods

variable {s : Setup} {o : Owner} {id : Identity} {c₀ c c' : Cluster} {e : Cluster → Prop} {x : PodObject}
variable {demand : GoMap GoString PodObject} {cancelOnDemand : Bool} {succeeded : Finset GoString}

section Classify

-- What the first loop has found out about some of the Pods.
structure Classified (s : Setup) (o : Owner) (l : List PodObject) (f : Found) : Prop where
  valid     : ∀ p ∈ l, p.isControlledBy o.uid = true → isCleanup s o p (targetNode p) = true
  active    : ∀ n, n ∈ f.active ↔ ∃ p ∈ l, p.isControlledBy o.uid = true ∧ targetNode p = n ∧ Live p
  succeeded : ∀ n, n ∈ f.succeeded ↔ ∃ p ∈ l, p.isControlledBy o.uid = true ∧ targetNode p = n ∧ Succeeded p

theorem Classified.nil : Classified s o [] ⟨∅, ∅⟩ where
  valid := by simp
  active := by simp
  succeeded := by simp

variable {l : List PodObject} {f : Found}

theorem exists_append_singleton {P : PodObject → Prop} : (∃ p ∈ l ++ [x], P p) ↔ (∃ p ∈ l, P p) ∨ P x := by
  simp [or_and_right, exists_or]

theorem Classified.append (h : Classified s o l f) (hv : x.isControlledBy o.uid = true →
      isCleanup s o x (targetNode x) = true) {f' : Found}
    (ha : ∀ n, n ∈ f'.active ↔ n ∈ f.active ∨ x.isControlledBy o.uid = true ∧ targetNode x = n ∧ Live x)
    (hs : ∀ n, n ∈ f'.succeeded ↔ n ∈ f.succeeded ∨ x.isControlledBy o.uid = true ∧ targetNode x = n ∧ Succeeded x) :
    Classified s o (l ++ [x]) f' where
  valid p hp hc := by
    cases List.mem_append.mp hp
    case inl hp => exact h.valid p hp hc
    case inr hp =>
      cases List.mem_singleton.mp hp
      exact hv hc
  active n := by rw [ha, h.active, exists_append_singleton]
  succeeded n := by rw [hs, h.succeeded, exists_append_singleton]

theorem wp_classify (h : Classified s o l f) (hn : (c.pods.map PodObject.key).Nodup) (hx : x ∈ c.pods)
    (he : ∀ d, x.isControlledBy o.uid = true → isCleanup s o x (targetNode x) = false →
      Idle c d ∨ Removed x c d → e d) :
    wp (classify s o f x) (fun f d => d = c ∧ Classified s o (l ++ [x]) f) e c := by
  unfold classify
  dsimp only
  split
  case isTrue hc =>
    have hc : x.isControlledBy o.uid = false := Bool.eq_false_iff.mpr hc
    refine ⟨rfl, h.append ?_ ?_ ?_⟩ <;> simp [hc]
  case isFalse hc =>
    have hc : x.isControlledBy o.uid = true := Decidable.not_not.mp hc
    split
    case isTrue hv =>
      have hv : isCleanup s o x (targetNode x) = false := Bool.eq_false_iff.mpr hv
      rw [wp_bind]
      refine (wp_deleteUnlessMarked hn hx).mono ?_ ?_
      case refine_1 => exact fun _ d hr => he d hc hv (.inr hr)
      case refine_2 => exact fun d hr => he d hc hv hr.2
    case isFalse hv =>
      have hv : isCleanup s o x (targetNode x) = true := Decidable.not_not.mp hv
      split
      case isTrue hs =>
        have hl : ¬Live x := fun hl => hl.not_succeeded hs
        refine ⟨rfl, h.append (fun _ => hv) ?_ ?_⟩
        case refine_1 => simp [hl]
        case refine_2 =>
          have hs : Succeeded x := hs
          simp [hc, hs, eq_comm, or_comm]
      case isFalse hs =>
        have hs : ¬Succeeded x := hs
        split
        case isTrue ht =>
          have hl : ¬Live x := by
            rintro ⟨h₁, h₂⟩
            simp [h₁, h₂] at ht
          refine ⟨rfl, h.append (fun _ => hv) ?_ ?_⟩ <;> simp [hl, hs]
        case isFalse ht =>
          have hl : Live x := by
            simp only [not_or, Bool.not_eq_true] at ht
            exact ht
          refine ⟨rfl, h.append (fun _ => hv) ?_ ?_⟩
          case refine_1 => simp [hc, hl, eq_comm, or_comm]
          case refine_2 => simp [hs]

theorem wp_classify_loop (hn : (c.pods.map PodObject.key).Nodup) (hl : ∀ x ∈ l, x ∈ c.pods)
    (he : ∀ x ∈ l, ∀ d, x.isControlledBy o.uid = true → isCleanup s o x (targetNode x) = false →
      Idle c d ∨ Removed x c d → e d) :
    wp (l.foldlM (classify s o) ⟨∅, ∅⟩) (fun f d => d = c ∧ Classified s o l f) e c := by
  refine wp_foldlM (I := fun l₁ _ f d => d = c ∧ Classified s o l₁ f) ?_ ⟨rfl, .nil⟩
  rintro l₁ x l₂ f _ hl' ⟨rfl, h⟩
  have hx : x ∈ l := hl' ▸ List.mem_append_right _ List.mem_cons_self
  exact wp_classify h hn (hl x hx) (he x hx)

end Classify

section Turn

def Progress.block (p : Progress) (x : PodObject) : Progress :=
  { p with blocked := insert (targetNode x) p.blocked }

def Progress.activate (p : Progress) (x : PodObject) : Progress :=
  { p with active := insert (targetNode x) p.active }

def RetryOf (s : Setup) (o : Owner) (x : PodObject) (count : Int) (r : PodObject) : Prop :=
  ∃ d, renderLMCacheNodeLocalCleanupRetryPod s.sha256 o.object x = .ok d ∧
    r = { d with
      annotations := d.annotations.insert nodeLocalShmCleanupRetryAnnotation (GoString.formatInt (count + 1))
      controller  := some o.uid }

-- A Pod with the name of the retry is there already, or it is there now.
inductive Replaced (o : Owner) (r : PodObject) (c d : Cluster) : Prop
  | created (free : c.find r.key = none) (wrote : Wrote c (.create r) (c.pods ++ [r]) d)
  | found (there : c.find r.key = some y) (own : y.isControlledBy o.uid = true) (idle : Idle c d)

-- Why a turn may come to nothing although all requests succeed.
inductive Obstructed (s : Setup) (o : Owner) (succeeded : Finset GoString) (x : PodObject) (p : Progress)
    (c : Cluster) : Prop
  | occupied {k : Int} (failed : Failed x) (pending : targetNode x ∉ succeeded) (inactive : targetNode x ∉ p.active)
    (count : retryCount x = some k)
    (name : ∀ r, RetryOf s o x k r → ∃ y, c.find r.key = some y ∧ y.isControlledBy o.uid = false)
  | unknown {err : GoString} (running : x.isTerminal = false)
    (path : nodeLocalServerShmHostPath s.lib o.object = .error err)

-- What the second loop does about a Pod of the backend.
inductive Turn (s : Setup) (o : Owner) (demand : GoMap GoString PodObject) (cancelOnDemand : Bool)
    (succeeded : Finset GoString) (x : PodObject) (p : Progress) (c : Cluster) : Progress → Cluster → Prop
  | done {d : Cluster} (done : Succeeded x) (removed : Removed x c d) :
    Turn s o demand cancelOnDemand succeeded x p c p d
  | superseded {d : Cluster} (failed : Failed x)
    (why : targetNode x ∈ succeeded ∨ targetNode x ∈ p.active ∧ (retryCount x).isSome = true)
    (removed : Removed x c d) : Turn s o demand cancelOnDemand succeeded x p c (p.block x) d
  | exhausted (failed : Failed x) (pending : targetNode x ∉ succeeded) (last : retryCount x = none) :
    Turn s o demand cancelOnDemand succeeded x p c (p.block x) c
  | retried {k : Int} {r : PodObject} {c₁ d : Cluster} (failed : Failed x) (pending : targetNode x ∉ succeeded)
    (inactive : targetNode x ∉ p.active)
    (count : retryCount x = some k) (retry : RetryOf s o x k r) (replaced : Replaced o r c c₁)
    (removed : Removed x c₁ d) : Turn s o demand cancelOnDemand succeeded x p c ((p.block x).activate x) d
  | cancelled {d : Cluster} (gives : GivesWay demand cancelOnDemand x) (removed : Removed x c d) :
    Turn s o demand cancelOnDemand succeeded x p c p d
  | waiting {d : Cluster} (running : x.isTerminal = false) (keeps : ¬GivesWay demand cancelOnDemand x)
    (idle : Idle c d) :
    Turn s o demand cancelOnDemand succeeded x p c (p.block x) d
  | released {path : GoString} {d : Cluster} (running : x.isTerminal = false)
    (keeps : ¬GivesWay demand cancelOnDemand x)
    (gated : x.schedulingGates ≠ []) (unmarked : x.deleting = false)
    (found : nodeLocalServerShmHostPath s.lib o.object = .ok path)
    (quiet : ∀ y ∈ c.pods, consumesShm o path (targetNode x) y = false)
    (wrote : Wrote c (.patch x (release x)) (changed x.key release c.pods) d) :
    Turn s o demand cancelOnDemand succeeded x p c (p.block x) d

inductive Broke (s : Setup) (o : Owner) (demand : GoMap GoString PodObject) (cancelOnDemand : Bool)
    (succeeded : Finset GoString) (x : PodObject) (p : Progress) (c d : Cluster) : Prop
  | idle (why : ¬c.Reliable ∨ Obstructed s o succeeded x p c) (idle : Idle c d)
  | halfway {k : Int} {r : PodObject} (why : ¬c.Reliable) (failed : Failed x) (pending : targetNode x ∉ succeeded)
    (inactive : targetNode x ∉ p.active) (count : retryCount x = some k) (retry : RetryOf s o x k r)
    (free : c.find r.key = none) (wrote : Wrote c (.create r) (c.pods ++ [r]) d)
  | unanswered {p' : Progress} (why : ¬c.Reliable) (turn : Turn s o demand cancelOnDemand succeeded x p c p' d)

variable {p : Progress} {count : Int} {r : PodObject}

theorem wp_createRetry (he : ∀ c', ¬c.Reliable ∨ (∀ r, RetryOf s o x count r →
      ∃ y, c.find r.key = some y ∧ y.isControlledBy o.uid = false) → Idle c c' → e c')
    (hl : ∀ r c', ¬c.Reliable → RetryOf s o x count r → c.find r.key = none →
      Wrote c (.create r) (c.pods ++ [r]) c' → e c') :
    wp (createRetry s o x count) (fun _ c' => ∃ r, RetryOf s o x count r ∧ Replaced o r c c') e c := by
  unfold createRetry
  rw [wp_bind]
  cases hd : renderLMCacheNodeLocalCleanupRetryPod s.sha256 o.object x
  case error err =>
    apply he c (.inr ?_) .refl
    rintro r ⟨d, hd', _⟩
    cases hd.symm.trans hd'
  case ok d =>
    have hu {r : PodObject} (h : RetryOf s o x count r) : r = { d with
        annotations := d.annotations.insert nodeLocalShmCleanupRetryAnnotation (GoString.formatInt (count + 1))
        controller := some o.uid } := by
      have ⟨d', hd', hr⟩ := h
      cases hd.symm.trans hd'
      exact hr
    have hr : RetryOf s o x count _ := ⟨d, hd, rfl⟩
    show wp (Api.create _ >>= _) _ _ _
    rw [wp_bind]
    apply wp_create
    case hc => exact fun c' hf hw => ⟨_, hr, .created hf hw⟩
    case hf =>
      intro y _ c₁ hy h₁
      rw [wp_bind]
      apply wp_get
      case h =>
        intro z c₂ hz h₂
        rw [h₁.find] at hz
        split
        case isTrue ho => exact ⟨_, hr, .found hz ho (h₁.trans h₂)⟩
        case isFalse ho =>
          refine he c₂ (.inr fun r h => ⟨z, ?_, Bool.eq_false_iff.mpr ho⟩) (h₁.trans h₂)
          rw [hu h]
          exact hz
      case he =>
        intro c₂ hn h₂
        cases hn
        case inl hn => exact he c₂ (.inl fun h => hn (h₁.reliable h)) (h₁.trans h₂)
        case inr hn => cases hy.symm.trans (h₁.find.symm.trans hn)
    case he => exact fun _ c' hn h => he c' (.inl hn) h
    case hl => exact fun _ c' hn hf hw => hl _ c' hn hr hf hw

theorem Replaced.reliable (h : Replaced o r c c') (hr : c.Reliable) : c'.Reliable := by
  cases h
  case created hw => exact hw.reliable hr
  case found hi => exact hi.reliable hr

theorem Replaced.mem (h : Replaced o r c c') (hx : x ∈ c.pods) : x ∈ c'.pods := by
  cases h
  case created hw =>
    rw [hw.pods]
    exact List.mem_append_left _ hx
  case found hi => exact hi.pods ▸ hx

theorem Replaced.nodup (h : Replaced o r c c') (hn : (c.pods.map PodObject.key).Nodup) :
    (c'.pods.map PodObject.key).Nodup := by
  cases h
  case created hf hw =>
    rw [hw.pods]
    exact nodup_append_singleton hn (find_eq_none hf)
  case found hi => exact hi.pods ▸ hn

theorem wp_advanceFailed (hn : (c.pods.map PodObject.key).Nodup) (hx : x ∈ c.pods) (hf : Failed x) :
    wp (advanceFailed s o succeeded p x) (Turn s o demand cancelOnDemand succeeded x p c)
      (Broke s o demand cancelOnDemand succeeded x p c) c := by
  have hr (why : targetNode x ∈ succeeded ∨ targetNode x ∈ p.active ∧ (retryCount x).isSome = true) :
      wp (deleteUnlessMarked (cleanupText "delete failed" x) x >>= fun _ => pure (p.block x))
        (Turn s o demand cancelOnDemand succeeded x p c) (Broke s o demand cancelOnDemand succeeded x p c) c := by
    rw [wp_bind]
    refine (wp_deleteUnlessMarked hn hx).mono ?_ ?_
    case refine_1 => exact fun _ d hd => .superseded hf why hd
    case refine_2 =>
      rintro d ⟨hr, hd | hd⟩
      case inl => exact .idle (.inl hr) hd
      case inr => exact .unanswered hr (.superseded hf why hd)
  unfold advanceFailed
  dsimp only
  split
  case isTrue hs => exact hr (.inl hs)
  case isFalse hs =>
    split
    case h_1 hc => exact .exhausted hf hs hc
    case h_2 k hc =>
      split
      case isTrue ha => exact hr (.inr ⟨ha, by rw [hc]; rfl⟩)
      case isFalse ha =>
        rw [wp_bind]
        have hw : wp (createRetry s o x k) (fun _ d => ∃ r, RetryOf s o x k r ∧ Replaced o r c d)
            (Broke s o demand cancelOnDemand succeeded x p c) c := by
          apply wp_createRetry
          case he =>
            intro d why hd
            exact .idle (why.imp_right (.occupied hf hs ha hc)) hd
          case hl => exact fun r d why hr hfr hw => .halfway why hf hs ha hc hr hfr hw
        refine hw.mono ?_ fun _ h => h
        rintro _ c₁ ⟨r, hr, hp⟩
        rw [wp_bind]
        refine (wp_deleteUnlessMarked (hp.nodup hn) (hp.mem hx)).mono ?_ ?_
        case refine_1 => exact fun _ d hd => .retried hf hs ha hc hr hp hd
        case refine_2 =>
          rintro d ⟨why, hd⟩
          have why : ¬c.Reliable := fun h => why (hp.reliable h)
          cases hd
          case inr hd => exact .unanswered why (.retried hf hs ha hc hr hp hd)
          case inl hd =>
            cases hp
            case created hfr hw => exact .halfway why hf hs ha hc hr hfr (hw.idle hd)
            case found hi => exact .idle (.inl why) (hi.trans hd)

theorem wp_advance (hn : (c.pods.map PodObject.key).Nodup) (hx : x ∈ c.pods) (ho : x.isControlledBy o.uid = true) :
    wp (advance s o demand cancelOnDemand succeeded p x) (Turn s o demand cancelOnDemand succeeded x p c)
      (Broke s o demand cancelOnDemand succeeded x p c) c := by
  unfold advance
  dsimp only
  rw [if_neg (not_not.mpr ho)]
  split
  case isTrue hs =>
    rw [wp_bind]
    refine (wp_deleteUnlessMarked hn hx).mono ?_ ?_
    case refine_1 => exact fun _ d hd => .done hs hd
    case refine_2 =>
      rintro d ⟨why, hd | hd⟩
      case inl => exact .idle (.inl why) hd
      case inr => exact .unanswered why (.done hs hd)
  case isFalse hs =>
    split
    case isTrue ht => exact wp_advanceFailed hn hx ⟨ht, hs⟩
    case isFalse ht =>
      have ht : x.isTerminal = false := Bool.eq_false_iff.mpr ht
      split
      case isTrue hg =>
        have hg : GivesWay demand cancelOnDemand x := ⟨ht, hg.1, hg.2.1, hg.2.2⟩
        rw [wp_bind]
        refine (wp_deleteUnlessMarked hn hx).mono ?_ ?_
        case refine_1 => exact fun _ d hd => .cancelled hg hd
        case refine_2 =>
          rintro d ⟨why, hd | hd⟩
          case inl => exact .idle (.inl why) hd
          case inr => exact .unanswered why (.cancelled hg hd)
      case isFalse hg =>
        have hg : ¬GivesWay demand cancelOnDemand x := fun h => hg ⟨h.2.1, h.2.2.1, h.2.2.2⟩
        split
        case isTrue => exact .waiting ht hg .refl
        case isFalse hw =>
          have ⟨hgate, hdel⟩ := not_or.mp hw
          rw [wp_bind]
          apply wp_consumers
          case he => exact fun d why hd => .idle (why.imp_right fun ⟨_, hp⟩ => .unknown ht hp) hd
          case h =>
            intro path names c₁ hp h₁ hq
            split
            case isTrue => exact .waiting ht hg h₁
            case isFalse hl =>
              have hq := hq.mp (List.length_eq_zero_iff.mp (not_not.mp hl))
              have hlive : c₁.find x.key = some x := find_of_mem (h₁.pods ▸ hn) (h₁.pods ▸ hx)
              have hturn {d : Cluster} (hw : Wrote c₁ (.patch x (release x)) (changed x.key release c₁.pods) d) :
                  Turn s o demand cancelOnDemand succeeded x p c (p.block x) d :=
                .released ht hg hgate (Bool.eq_false_iff.mpr hdel) hp hq (h₁.wrote (h₁.pods ▸ hw))
              rw [wp_bind]
              apply wp_patch
              case hp =>
                intro y d hy hw
                cases hlive.symm.trans hy
                exact hturn hw
              case he =>
                intro d why hd
                cases why
                case inl why => exact .idle (.inl fun h => why (h₁.reliable h)) (h₁.trans hd)
                case inr why => cases hlive.symm.trans why
              case hl =>
                intro y d why hy hw
                cases hlive.symm.trans hy
                exact .unanswered (fun h => why (h₁.reliable h)) (hturn hw)

end Turn

section Loop

variable {p p' : Progress} {l : List PodObject} {y : PodObject}

-- The Pods that are still to come are there as they were listed.
structure Underway (l : List PodObject) (c : Cluster) : Prop where
  nodup : (c.pods.map PodObject.key).Nodup
  keys  : (l.map PodObject.key).Nodup
  mem   : ∀ x ∈ l, x ∈ c.pods

theorem Removed.mem_of_ne (h : Removed x c c') (hy : y ∈ c.pods) (hk : y.key ≠ x.key) : y ∈ c'.pods := by
  cases h
  case marked hi => exact hi.pods ▸ hy
  case deleted hd hw => exact hw.pods ▸ hd.of_ne hy hk

theorem Removed.nodup (h : Removed x c c') (hn : (c.pods.map PodObject.key).Nodup) :
    (c'.pods.map PodObject.key).Nodup := by
  cases h
  case marked hi => exact hi.pods ▸ hn
  case deleted hd hw => exact hw.pods ▸ hd.nodup hn

theorem Removed.reliable (h : Removed x c c') (hr : c.Reliable) : c'.Reliable := by
  cases h
  case marked hi => exact hi.reliable hr
  case deleted hw => exact hw.reliable hr

namespace Turn

variable (h : Turn s o demand cancelOnDemand succeeded x p c p' c')

include h

theorem mem_of_ne (hy : y ∈ c.pods) (hk : y.key ≠ x.key) : y ∈ c'.pods := by
  cases h
  case done hr => exact hr.mem_of_ne hy hk
  case superseded hr => exact hr.mem_of_ne hy hk
  case exhausted => exact hy
  case retried hp hr => exact hr.mem_of_ne (hp.mem hy) hk
  case cancelled hr => exact hr.mem_of_ne hy hk
  case waiting hi => exact hi.pods ▸ hy
  case released hw =>
    rw [hw.pods]
    exact mem_changed.mpr (.inl ⟨hy, hk⟩)

theorem nodup (hn : (c.pods.map PodObject.key).Nodup) : (c'.pods.map PodObject.key).Nodup := by
  cases h
  case done hr => exact hr.nodup hn
  case superseded hr => exact hr.nodup hn
  case exhausted => exact hn
  case retried hp hr => exact hr.nodup (hp.nodup hn)
  case cancelled hr => exact hr.nodup hn
  case waiting hi => exact hi.pods ▸ hn
  case released hw =>
    have hk (y : PodObject) : (release y).key = y.key := rfl
    rw [hw.pods, changed_keys hk]
    exact hn

theorem reliable (hr : c.Reliable) : c'.Reliable := by
  cases h
  case done h => exact h.reliable hr
  case superseded h => exact h.reliable hr
  case exhausted => exact hr
  case retried hp h => exact h.reliable (hp.reliable hr)
  case cancelled h => exact h.reliable hr
  case waiting hi => exact hi.reliable hr
  case released hw => exact hw.reliable hr

theorem origin (hx : x ∈ c.pods) (hn : (c.pods.map PodObject.key).Nodup) (hy : y ∈ c'.pods) :
    y ∈ c.pods ∨ y = x.marked ∨
    (y = release x ∧ x.isTerminal = false ∧ x.schedulingGates ≠ [] ∧ x.deleting = false ∧
      ¬GivesWay demand cancelOnDemand x) ∨
    ∃ k, Failed x ∧ targetNode x ∉ succeeded ∧ targetNode x ∉ p.active ∧ retryCount x = some k ∧
      RetryOf s o x k y ∧ c.find y.key = none ∧ targetNode x ∈ p'.active := by
  have hr {c c' : Cluster} (h : Removed x c c') (hx : x ∈ c.pods) (hn : (c.pods.map PodObject.key).Nodup)
      (hy : y ∈ c'.pods) : y ∈ c.pods ∨ y = x.marked := by
    cases h
    case marked hi => exact .inl (hi.pods ▸ hy)
    case deleted hd hw =>
      cases hd.mem (hw.pods ▸ hy)
      case inl h => exact .inl h.1
      case inr h =>
        have ⟨z, hz, hk, he⟩ := h
        exact .inr (eq_of_key hn hz hx hk ▸ he)
  cases h
  case done h => exact (hr h hx hn hy).imp_right .inl
  case superseded h => exact (hr h hx hn hy).imp_right .inl
  case exhausted => exact .inl hy
  case retried hf hs ha hc hq hp h =>
    cases hr h (hp.mem hx) (hp.nodup hn) hy
    case inr hy => exact .inr (.inl hy)
    case inl hy =>
      cases hp
      case found hi => exact .inl (hi.pods ▸ hy)
      case created hfr hw =>
        rw [hw.pods] at hy
        cases List.mem_append.mp hy
        case inl hy => exact .inl hy
        case inr hy =>
          cases List.mem_singleton.mp hy
          exact .inr (.inr (.inr ⟨_, hf, hs, ha, hc, hq, hfr, Finset.mem_insert_self _ _⟩))
  case cancelled h => exact (hr h hx hn hy).imp_right .inl
  case waiting hi => exact .inl (hi.pods ▸ hy)
  case released ht hk hg hd _ _ hw =>
    rw [hw.pods] at hy
    cases mem_changed.mp hy
    case inl h => exact .inl h.1
    case inr h =>
      have ⟨z, hz, hkey, he⟩ := h
      exact .inr (.inr (.inl ⟨eq_of_key hn hz hx hkey ▸ he, ht, hg, hd, hk⟩))

-- A node only becomes active when a cleanup of it is tried again.
theorem active : p'.active = p.active ∨ p'.active = insert (targetNode x) p.active := by
  cases h
  case retried => exact .inr rfl
  all_goals exact .inl rfl

theorem active_subset : p.active ⊆ p'.active := by
  cases h.active
  case inl he => exact he ▸ subset_rfl
  case inr he => exact he ▸ Finset.subset_insert _ _

theorem blocks (ht : x.isTerminal = false) (hg : ¬GivesWay demand cancelOnDemand x) : targetNode x ∈ p'.blocked := by
  cases h
  case done hd _ => cases ht.symm.trans hd.terminal
  case superseded hf _ _ => cases ht.symm.trans hf.1
  case exhausted hf _ _ => cases ht.symm.trans hf.1
  case retried hf _ _ _ _ _ _ => cases ht.symm.trans hf.1
  case cancelled h _ => exact absurd h hg
  case waiting => exact Finset.mem_insert_self _ _
  case released => exact Finset.mem_insert_self _ _

theorem blocked_or_removed : targetNode x ∈ p'.blocked ∨
    (Succeeded x ∨ GivesWay demand cancelOnDemand x) ∧ Removed x c c' := by
  cases h
  case done hd hr => exact .inr ⟨.inl hd, hr⟩
  case cancelled hg hr => exact .inr ⟨.inr hg, hr⟩
  all_goals exact .inl (Finset.mem_insert_self _ _)

theorem blocked_subset : p.blocked ⊆ p'.blocked := by
  cases h
  case done => exact subset_rfl
  case cancelled => exact subset_rfl
  all_goals exact Finset.subset_insert _ _

theorem underway (hu : Underway (x :: l) c) : Underway l c' := by
  have ⟨hx, hl⟩ := List.nodup_cons.mp hu.keys
  refine ⟨h.nodup hu.nodup, hl, fun y hy => h.mem_of_ne (hu.mem y (.tail _ hy)) fun he => hx ?_⟩
  exact he ▸ List.mem_map_of_mem hy

end Turn

theorem wp_advance_loop {I : List PodObject → Progress → Cluster → Prop} (hu : Underway l c) (h : I l p c)
    (skip : ∀ x l p c, x.isControlledBy o.uid = false → Underway (x :: l) c → I (x :: l) p c → I l p c)
    (turn : ∀ x l p c p' d, x.isControlledBy o.uid = true → Underway (x :: l) c → I (x :: l) p c →
      Turn s o demand cancelOnDemand succeeded x p c p' d → I l p' d)
    (broke : ∀ x l p c d, x.isControlledBy o.uid = true → Underway (x :: l) c → I (x :: l) p c →
      Broke s o demand cancelOnDemand succeeded x p c d → e d) :
    wp (l.foldlM (advance s o demand cancelOnDemand succeeded) p)
      (fun p d => Underway [] d ∧ I [] p d) e c := by
  refine wp_foldlM (I := fun _ l₂ p d => Underway l₂ d ∧ I l₂ p d) ?_ ⟨hu, h⟩
  rintro _ x l₂ p c _ ⟨hu, h⟩
  by_cases ho : x.isControlledBy o.uid = true
  case pos =>
    refine (wp_advance hu.nodup (hu.mem x (.head _)) ho).mono ?_ ?_
    case refine_1 => exact fun p' d ht => ⟨ht.underway hu, turn x l₂ p c p' d ho hu h ht⟩
    case refine_2 => exact fun d hb => broke x l₂ p c d ho hu h hb
  case neg =>
    have ho : x.isControlledBy o.uid = false := Bool.eq_false_iff.mpr ho
    have hs : advance s o demand cancelOnDemand succeeded p x = pure p := by simp [advance, ho]
    rw [hs]
    exact ⟨⟨hu.nodup, (List.nodup_cons.mp hu.keys).2, fun y hy => hu.mem y (.tail _ hy)⟩, skip x l₂ p c ho hu h⟩

def listed (o : Owner) (c : Cluster) : List PodObject :=
  c.pods.filter o.listsCleanup

theorem underway_listed (hn : (c.pods.map PodObject.key).Nodup) (hi : Idle c c') : Underway (listed o c) c' where
  nodup := hi.pods ▸ hn
  keys := hn.sublist (List.filter_sublist.map _)
  mem := fun _ hx => hi.pods ▸ List.mem_of_mem_filter hx

theorem wp_cleanups {q : Finset GoString → Cluster → Prop} (hn : (c.pods.map PodObject.key).Nodup)
    (hu : o.uid = [] → q ∅ c)
    (hf : ∀ d, ¬c.Reliable → Idle c d → e d)
    (hv : ∀ x ∈ listed o c, x.isControlledBy o.uid = true → isCleanup s o x (targetNode x) = false →
      ∀ c₁ d, Idle c c₁ → Idle c₁ d ∨ Removed x c₁ d → e d)
    (hl : ∀ f c₁, Classified s o (listed o c) f → Underway (listed o c) c₁ → Idle c c₁ →
      wp ((listed o c).foldlM (advance s o demand cancelOnDemand f.succeeded) ⟨∅, f.active⟩)
        (fun p => q p.blocked) e c₁) :
    wp (reconcileLMCacheNodeLocalCleanupPods s o demand cancelOnDemand) q e c := by
  unfold reconcileLMCacheNodeLocalCleanupPods
  split
  case isTrue h => exact hu h
  case isFalse =>
    rw [wp_bind]
    refine wp_list ?_ hf
    intro c₁ h₁
    have hw := underway_listed (o := o) hn h₁
    rw [wp_bind]
    refine (wp_classify_loop (l := listed o c) hw.nodup hw.mem fun x hx d ho hi => hv x hx ho hi c₁ d h₁).mono ?_
      fun _ h => h
    rintro f _ ⟨rfl, hc⟩
    rw [wp_bind]
    exact hl f _ hc hw h₁

end Loop

end InferenceCache.Controller.NodeLocal
