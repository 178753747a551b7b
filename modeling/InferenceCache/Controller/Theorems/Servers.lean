import InferenceCache.Controller.Theorems.Sanity

namespace InferenceCache.Controller.NodeLocal

open Kube Kube.Cluster Kube.Api Program Adapters EngineBinding

variable {s : Setup} {o : Owner} {id : Identity} {n : GoString} {c c₁ c' d : Cluster} {x y p : PodObject}
variable {pods : List PodObject} {key : Webhook.ObjectKey} {N : GoString → Prop}

section Acts

-- A cleanup is there for the node, or it is now.
inductive Ensured (s : Setup) (o : Owner) (id : Identity) (n : GoString) (c d : Cluster) : Prop
  | kept {p : PodObject} (mem : p ∈ c.pods) (cleanup : id.Cleanup p) (node : targetNode p = n)
    (valid : isCleanup s o p n = true) (gated : lmCacheNodeLocalCleanupIsGated p = true) (idle : Idle c d)
  | created {pod : PodObject} (absent : ∀ p ∈ c.pods, id.Cleanup p → targetNode p ≠ n) (renders : Renders s o n pod)
    (free : c.find pod.key = none) (wrote : Wrote c (.create pod) (c.pods ++ [pod]) d)

-- The cleanup was not in order, or some request has failed.
inductive Unensured (s : Setup) (o : Owner) (id : Identity) (n : GoString) (c d : Cluster) : Prop
  | idle (idle : Idle c d)
  | cleared {p : PodObject} {after : List PodObject} (mem : p ∈ c.pods) (cleanup : id.Cleanup p)
    (node : targetNode p = n)
    (invalid : ¬(isCleanup s o p n = true ∧ lmCacheNodeLocalCleanupIsGated p = true))
    (del : Deleted p.key c.pods after) (wrote : Wrote c (.delete p) after d)
  | unanswered (why : ¬c.Reliable) (ensured : Ensured s o id n c d)

theorem wp_ensure (ho : o.Is id) (hn : (c.pods.map PodObject.key).Nodup) :
    wp (ensureLMCacheNodeLocalCleanupForNode s o n) (fun _ => Ensured s o id n c) (Unensured s o id n c) c := by
  apply wp_ensureForNode ho hn
  case hk => exact fun p d hp hc ht hv hg hi => .kept hp hc ht hv hg hi
  case hc => exact fun p d hf hr hfr hw => .created hf hr hfr hw
  case hd => exact fun p after d hp hc ht hv hdel hw => .cleared hp hc ht hv hdel hw
  case hi => exact fun d hi => .idle hi
  case hl => exact fun p d hr hf hren hfr hw => .unanswered hr (.created hf hren hfr hw)

-- Only the mark of an idle server differs.
structure Annotates (p p' : PodObject) : Prop where
  same        : p' = { p with annotations := p'.annotations }
  annotations : ∀ name, name ≠ annotationNodeLocalIdleSince → p'.annotation name = p.annotation name

-- One request of those that are about servers. A cleanup is only ensured for some nodes, and only the server with
-- the given name is touched.
inductive Act (s : Setup) (o : Owner) (id : Identity) (N : GoString → Prop) (key : Webhook.ObjectKey) :
    Cluster → Cluster → Prop
  | idle {c d : Cluster} (idle : Idle c d) : Act s o id N key c d
  | ensure {c d : Cluster} {n : GoString} {pod : PodObject} (node : N n)
    (absent : ∀ p ∈ c.pods, id.Cleanup p → targetNode p ≠ n) (renders : Renders s o n pod)
    (free : c.find pod.key = none) (wrote : Wrote c (.create pod) (c.pods ++ [pod]) d) : Act s o id N key c d
  | clear {c d : Cluster} {n : GoString} {x : PodObject} {after : List PodObject} (node : N n) (mem : x ∈ c.pods)
    (cleanup : id.Cleanup x) (target : targetNode x = n)
    (invalid : ¬(isCleanup s o x n = true ∧ lmCacheNodeLocalCleanupIsGated x = true))
    (del : Deleted x.key c.pods after) (wrote : Wrote c (.delete x) after d) : Act s o id N key c d
  | drop {c d : Cluster} {x : PodObject} {after : List PodObject} (mem : x ∈ c.pods) (server : id.Server x)
    (own : x.key = key) (del : Deleted key c.pods after) (wrote : Wrote c (.delete x) after d) : Act s o id N key c d
  | note {c d : Cluster} {x : PodObject} {change : PodObject → PodObject} (mem : x ∈ c.pods) (server : id.Server x)
    (own : x.key = key)
    (same : ∀ p, Annotates p (change p))
    (wrote : Wrote c (.patch x (change x)) (changed key change c.pods) d) : Act s o id N key c d

def Acts (s : Setup) (o : Owner) (id : Identity) (N : GoString → Prop) (key : Webhook.ObjectKey) :
    Cluster → Cluster → Prop :=
  Relation.ReflTransGen (Act s o id N key)

theorem Act.acts (h : Act s o id N key c d) : Acts s o id N key c d :=
  .single h

theorem Acts.invariant {I : Cluster → Prop} (h : Acts s o id N key c d) (hI : I c)
    (hs : ∀ c d, I c → Act s o id N key c d → I d) : I d := by
  induction h
  case refl => exact hI
  case tail ha hi => exact hs _ _ hi ha

theorem Act.mono {N' : GoString → Prop} (h : Act s o id N key c d) (hN : ∀ n, N n → N' n) : Act s o id N' key c d := by
  cases h
  case idle hi => exact .idle hi
  case ensure hn ha hr hf hw => exact .ensure (hN _ hn) ha hr hf hw
  case clear hn hm hc ht hv hd hw => exact .clear (hN _ hn) hm hc ht hv hd hw
  case drop hm hs ho hd hw => exact .drop hm hs ho hd hw
  case note hm hs ho hsame hw => exact .note hm hs ho hsame hw

theorem Acts.mono {N' : GoString → Prop} (h : Acts s o id N key c d) (hN : ∀ n, N n → N' n) :
    Acts s o id N' key c d :=
  Relation.ReflTransGen.mono (fun _ _ h => h.mono hN) _ _ h

theorem Ensured.acts (h : Ensured s o id n c d) (hn : N n) : Acts s o id N key c d := by
  cases h
  case kept hi => exact (Act.idle hi).acts
  case created ha hr hf hw => exact (Act.ensure hn ha hr hf hw).acts

theorem Unensured.acts (h : Unensured s o id n c d) (hn : N n) : Acts s o id N key c d := by
  cases h
  case idle hi => exact (Act.idle hi).acts
  case cleared hm hc ht hv hd hw => exact (Act.clear hn hm hc ht hv hd hw).acts
  case unanswered he => exact he.acts hn

theorem Annotates.target (h : Annotates x y) : targetNode y = targetNode x :=
  h.annotations _ (by decide +kernel)

theorem Annotates.isCleanup (h : Annotates x y) (hv : isCleanup s o x n = true) : isCleanup s o y n = true := by
  have hv := isCleanup_iff.mp hv
  have hu : y.annotation annotationNodeLocalOwnerUID = o.uid := (h.annotations _ (by decide +kernel)).trans hv.ownerUID
  have ht : targetNode y = n := h.target.trans hv.targetNode
  apply isCleanup_iff.mpr
  rw [h.same] at hu ht ⊢
  exact { hv with ownerUID := hu, targetNode := ht }

theorem Annotates.sameRole (h : Annotates x y) : SameRole s id x y := by
  have hp (hx : Proper s id x) : Proper s id y := fun o ho => h.target ▸ h.isCleanup (hx o ho)
  have ht := h.target
  rw [h.same] at hp ht ⊢
  exact ⟨rfl, rfl, rfl, ht, hp⟩

theorem Act.sane (ho : o.Is id) (h : Act s o id N key c d) (hs : Sane s id c.pods) : Sane s id d.pods := by
  cases h
  case idle hi => exact hi.pods ▸ hs
  case ensure hr hf hw => exact hw.pods ▸ hs.created hf ⟨fun hs => absurd hs hr.not_server, fun _ => hr.proper ho⟩
  case clear hd hw => exact hw.pods ▸ hs.deleted hd
  case drop hd hw => exact hw.pods ▸ hs.deleted hd
  case note hsame hw => exact hw.pods ▸ hs.changed fun p => (hsame p).sameRole

theorem Act.nodup (h : Act s o id N key c d) (hn : (c.pods.map PodObject.key).Nodup) :
    (d.pods.map PodObject.key).Nodup := by
  cases h
  case idle hi => exact hi.pods ▸ hn
  case ensure hf hw =>
    rw [hw.pods]
    exact nodup_append_singleton hn (find_eq_none hf)
  case clear hd hw => exact hw.pods ▸ hd.nodup hn
  case drop hd hw => exact hw.pods ▸ hd.nodup hn
  case note change _ _ _ hsame hw =>
    have hk (p : PodObject) : (change p).key = p.key := by rw [(hsame p).same]
    rw [hw.pods, changed_keys hk]
    exact hn

theorem Acts.sane (ho : o.Is id) (h : Acts s o id N key c d) (hs : Sane s id c.pods) : Sane s id d.pods :=
  h.invariant hs fun _ _ hs ha => ha.sane ho hs

-- Servers with other names stay as they are.
theorem Act.mem (h : Act s o id N key c d) (hs : Sane s id c.pods) (hy : y ∈ c.pods) (hk : y.key ≠ key)
    (hc : ¬id.Cleanup y) : y ∈ d.pods := by
  cases h
  case idle hi => exact hi.pods ▸ hy
  case ensure hw =>
    rw [hw.pods]
    exact List.mem_append_left _ hy
  case clear x _ _ hm hcx _ _ hd hw =>
    refine hw.pods ▸ hd.of_ne hy fun he => hc ?_
    exact eq_of_key hs.nodup hy hm he ▸ hcx
  case drop hd hw => exact hw.pods ▸ hd.of_ne hy hk
  case note hw =>
    rw [hw.pods]
    exact mem_changed.mpr (.inl ⟨hy, hk⟩)

theorem Acts.mem (ho : o.Is id) (h : Acts s o id N key c d) (hs : Sane s id c.pods) (hy : y ∈ c.pods) (hk : y.key ≠ key)
    (hc : ¬id.Cleanup y) : y ∈ d.pods :=
  (h.invariant (I := fun c => Sane s id c.pods ∧ y ∈ c.pods) ⟨hs, hy⟩
    fun _ _ h ha => ⟨ha.sane ho h.1, ha.mem h.1 h.2 hk hc⟩).2

-- Nothing differs but the marks.
structure Stays (p p' : PodObject) : Prop where
  same        : p' = { p with annotations := p'.annotations, deleting := p'.deleting }
  annotations : ∀ name, name ≠ annotationNodeLocalIdleSince → p'.annotation name = p.annotation name
  deleting    : p'.deleting = false → p.deleting = false

theorem Stays.refl : Stays x x :=
  ⟨rfl, fun _ _ => rfl, fun h => h⟩

theorem Stays.trans {z : PodObject} (h : Stays x y) (h' : Stays y z) : Stays x z where
  same := by
    rw [h'.same, h.same]
  annotations name hn := (h'.annotations name hn).trans (h.annotations name hn)
  deleting hd := h.deleting (h'.deleting hd)

theorem Stays.sameRole (h : Stays x y) : SameRole s id x y := by
  have ha : Annotates x { y with deleting := x.deleting } := by
    refine ⟨?_, h.annotations⟩
    rw [h.same]
  have hr : SameRole s id x { y with deleting := x.deleting } := ha.sameRole
  exact ⟨hr.key, hr.labels, hr.controller, hr.target, hr.proper⟩

theorem Act.origin (h : Act s o id N key c d) (hy : y ∈ d.pods) : (∃ x ∈ c.pods, Stays x y) ∨
    ∃ n, N n ∧ Renders s o n y ∧ ∀ p ∈ c.pods, id.Cleanup p → targetNode p ≠ n := by
  have hd {key : Webhook.ObjectKey} {after : List PodObject} (hd : Deleted key c.pods after) (hy : y ∈ after) :
      ∃ x ∈ c.pods, Stays x y := by
    cases hd.mem hy
    case inl h => exact ⟨y, h.1, .refl⟩
    case inr h =>
      have ⟨x, hx, _, he⟩ := h
      exact ⟨x, hx, he ▸ ⟨rfl, fun _ _ => rfl, fun h => nomatch h⟩⟩
  cases h
  case idle hi => exact .inl ⟨y, hi.pods ▸ hy, .refl⟩
  case ensure n pod hn ha hr _ hw =>
    rw [hw.pods] at hy
    cases List.mem_append.mp hy
    case inl hy => exact .inl ⟨y, hy, .refl⟩
    case inr hy =>
      cases List.mem_singleton.mp hy
      exact .inr ⟨n, hn, hr, ha⟩
  case clear hdel hw => exact .inl (hd hdel (hw.pods ▸ hy))
  case drop hdel hw => exact .inl (hd hdel (hw.pods ▸ hy))
  case note hsame hw =>
    rw [hw.pods] at hy
    cases mem_changed.mp hy
    case inl h => exact .inl ⟨y, h.1, .refl⟩
    case inr h =>
      have ⟨x, hx, _, he⟩ := h
      have ha := hsame x
      rw [← he] at ha
      refine .inl ⟨x, hx, ⟨?_, ha.annotations, ?_⟩⟩
      all_goals rw [ha.same]
      exact fun h => h

theorem Act.server (h : Act s o id N key c d) (hy : y ∈ d.pods) (hs : id.Server y) : ∃ x ∈ c.pods, Stays x y := by
  cases h.origin hy
  case inl h => exact h
  case inr h =>
    have ⟨_, _, hr, _⟩ := h
    exact absurd hs hr.not_server

theorem Act.history (h : Act s o id N key c d) :
    d.history = c.history ∨ ∃ event, d.history = ⟨event, d.pods⟩ :: c.history := by
  cases h
  case idle hi => exact .inl hi.history
  case ensure hw => exact .inr ⟨_, hw.pods ▸ hw.history⟩
  case clear hw => exact .inr ⟨_, hw.pods ▸ hw.history⟩
  case drop hw => exact .inr ⟨_, hw.pods ▸ hw.history⟩
  case note hw => exact .inr ⟨_, hw.pods ▸ hw.history⟩

end Acts

section Retire

theorem Ensured.mem (h : Ensured s o id n c d) (hy : y ∈ c.pods) : y ∈ d.pods := by
  cases h
  case kept hi => exact hi.pods ▸ hy
  case created hw =>
    rw [hw.pods]
    exact List.mem_append_left _ hy

theorem Ensured.nodup (h : Ensured s o id n c d) (hn : (c.pods.map PodObject.key).Nodup) :
    (d.pods.map PodObject.key).Nodup := by
  cases h
  case kept hi => exact hi.pods ▸ hn
  case created hf hw =>
    rw [hw.pods]
    exact nodup_append_singleton hn (find_eq_none hf)

theorem Ensured.reliable (h : Ensured s o id n c d) (hr : c.Reliable) : d.Reliable := by
  cases h
  case kept hi => exact hi.reliable hr
  case created hw => exact hw.reliable hr

-- A server is given up, once there is a cleanup for its node.
inductive Retired (s : Setup) (o : Owner) (id : Identity) (x : PodObject) (c d : Cluster) : Prop
  | intro {c₁ : Cluster} {after : List PodObject} (ensured : Ensured s o id (nodeLocalServerTargetNode x) c c₁)
    (del : Deleted x.key c₁.pods after) (wrote : Wrote c₁ (.delete x) after d)

inductive Unretired (s : Setup) (o : Owner) (id : Identity) (x : PodObject) (c d : Cluster) : Prop
  | unensured (unensured : Unensured s o id (nodeLocalServerTargetNode x) c d)
  | undeleted {c₁ : Cluster} (why : ¬c.Reliable) (ensured : Ensured s o id (nodeLocalServerTargetNode x) c c₁)
    (idle : Idle c₁ d)
  | unanswered (why : ¬c.Reliable) (retired : Retired s o id x c d)

theorem Retired.acts (h : Retired s o id x c d) (hx : x ∈ c.pods) (hs : id.Server x)
    (hn : N (nodeLocalServerTargetNode x)) : Acts s o id N x.key c d := by
  have ⟨he, hd, hw⟩ := h
  exact (he.acts hn).tail (.drop (he.mem hx) hs rfl hd hw)

theorem Unretired.acts (h : Unretired s o id x c d) (hx : x ∈ c.pods) (hs : id.Server x)
    (hn : N (nodeLocalServerTargetNode x)) : Acts s o id N x.key c d := by
  cases h
  case unensured h => exact h.acts hn
  case undeleted he hi => exact (he.acts hn).tail (.idle hi)
  case unanswered h => exact h.acts hx hs hn

theorem wp_ensureAndDelete {what : GoString} (ho : o.Is id) (hn : (c.pods.map PodObject.key).Nodup) (hx : x ∈ c.pods)
    (hs : id.Server x) :
    wp (do ensureLMCacheNodeLocalCleanupPod s o x; Api.delete x.key >>= Api.unlessNotFound what)
      (fun _ => Retired s o id x c) (Unretired s o id x c) c := by
  rw [wp_bind, ensureLMCacheNodeLocalCleanupPod, if_pos (ho.server_iff.mp hs).2]
  refine (wp_ensure ho hn).mono ?_ fun d h => .unensured h
  intro _ c₁ he
  have hlive : c₁.find x.key = some x := find_of_mem (he.nodup hn) (he.mem hx)
  have hr (h : ¬c₁.Reliable) : ¬c.Reliable := fun hr => h (he.reliable hr)
  apply wp_delete
  case hn => exact fun _ hf _ => nomatch hlive.symm.trans hf
  case hd =>
    intro y after d hf hd hw
    cases hlive.symm.trans hf
    exact ⟨he, hd, hw⟩
  case he => exact fun d hu hi => .undeleted (hr hu) he hi
  case hl =>
    intro y after d hu hf hd hw
    cases hlive.symm.trans hf
    exact .unanswered (hr hu) ⟨he, hd, hw⟩

theorem wp_retire {what : String} (ho : o.Is id) (hn : (c.pods.map PodObject.key).Nodup) (hx : x ∈ c.pods)
    (hs : id.Server x) (hd : x.deleting = false) :
    wp (retire s o what x) (fun _ => Retired s o id x c) (Unretired s o id x c) c := by
  rw [retire, if_neg (Bool.eq_false_iff.mp hd)]
  exact wp_ensureAndDelete ho hn hx hs

end Retire

section Turns

variable {path : GoString} {demand : GoMap GoString PodObject} {now : PodObject → Time} {seen : Seen}

inductive Retires (s : Setup) (o : Owner) (path : GoString) (demand : GoMap GoString PodObject)
    (now : PodObject → Time) (x : PodObject) : Prop
  | stale (unmarked : x.deleting = false) (old : isCurrent s o path x = false)
    (uses : nodeLocalServerUsesShmHostPath x path = true)
    (why : nodeLocalServerHasRuntimeIdentity x path = false ∨
      demand.lookup (nodeLocalServerTargetNode x) = none)
  | idle (unmarked : x.deleting = false) (current : isCurrent s o path x = true)
    (unwanted : demand.lookup (nodeLocalServerTargetNode x) = none)
    (expired : o.idleRetentionSeconds.toInt * 10 ^ 9 ≤ 0 ∨
      ∃ t, s.parseTime (x.annotation annotationNodeLocalIdleSince) = some t ∧
        o.idleRetentionSeconds.toInt * 10 ^ 9 ≤ Time.sub (now x) t)

-- What the loop over the servers does about one of them. A node is not demanded, or a server that has gone from it
-- blocks it.
inductive ServerTurn (s : Setup) (o : Owner) (id : Identity) (path : GoString) (demand : GoMap GoString PodObject)
    (now : PodObject → Time) (x : PodObject) (seen : Seen) (c : Cluster) : Seen → Cluster → Prop
  | kept {seen' : Seen} {d : Cluster} (same : seen'.blocked = seen.blocked)
    (acts : Acts s o id (fun _ => False) x.key c d) : ServerTurn s o id path demand now x seen c seen' d
  | retired {seen' : Seen} {d : Cluster} (why : Retires s o path demand now x) (retired : Retired s o id x c d)
    (blocks : nodeLocalServerTargetNode x ∈ seen'.blocked ∨ demand.lookup (nodeLocalServerTargetNode x) = none)
    (grows : seen.blocked ⊆ seen'.blocked) : ServerTurn s o id path demand now x seen c seen' d

inductive ServerBroke (s : Setup) (o : Owner) (id : Identity) (path : GoString) (demand : GoMap GoString PodObject)
    (now : PodObject → Time) (x : PodObject) (c d : Cluster) : Prop
  | kept (acts : Acts s o id (fun _ => False) x.key c d)
  | unretired (why : Retires s o path demand now x) (unretired : Unretired s o id x c d)

theorem wp_drop {what : GoString} (hn : (c.pods.map PodObject.key).Nodup) (hx : x ∈ c.pods) (hs : id.Server x) :
    wp (Api.delete x.key >>= Api.unlessNotFound what) (fun _ => Acts s o id (fun _ => False) x.key c)
      (Acts s o id (fun _ => False) x.key c) c := by
  have hlive : c.find x.key = some x := find_of_mem hn hx
  apply wp_delete
  case hn => exact fun _ _ hi => (Act.idle hi).acts
  case hd =>
    intro y after d hf hd hw
    cases hlive.symm.trans hf
    exact (Act.drop hx hs rfl hd hw).acts
  case he => exact fun _ _ hi => (Act.idle hi).acts
  case hl =>
    intro y after d _ hf hd hw
    cases hlive.symm.trans hf
    exact (Act.drop hx hs rfl hd hw).acts

theorem wp_note {what : GoString} {change : PodObject → PodObject} (hn : (c.pods.map PodObject.key).Nodup)
    (hx : x ∈ c.pods) (hs : id.Server x) (hc : ∀ p, Annotates p (change p)) :
    wp (Api.patch x.key change >>= Api.orFail what)
      (fun _ d => Act s o id (fun _ => False) x.key c d ∧ change x ∈ d.pods)
      (Act s o id (fun _ => False) x.key c) c := by
  have hlive : c.find x.key = some x := find_of_mem hn hx
  apply wp_patch
  case hp =>
    intro y d hf hw
    cases hlive.symm.trans hf
    refine ⟨.note hx hs rfl hc hw, ?_⟩
    rw [hw.pods]
    exact mem_changed.mpr (.inr ⟨x, hx, rfl, rfl⟩)
  case he => exact fun _ _ hi => .idle hi
  case hl =>
    intro y d _ hf hw
    cases hlive.symm.trans hf
    exact .note hx hs rfl hc hw

theorem annotates_insert {value : GoString} : Annotates x { x with
    annotations := x.annotations.insert annotationNodeLocalIdleSince value } where
  same := rfl
  annotations name h := by simp [PodObject.annotation, h]

theorem annotates_erase : Annotates x { x with annotations := x.annotations.erase annotationNodeLocalIdleSince } where
  same := rfl
  annotations name h := by simp [PodObject.annotation, Finmap.lookup_erase_ne h]

theorem wp_retireStale (ho : o.Is id) (hn : (c.pods.map PodObject.key).Nodup) (hx : x ∈ c.pods) (hs : id.Server x)
    (hc : isCurrent s o path x = false) :
    wp (retireStale s o path (demand.lookup (nodeLocalServerTargetNode x)).isSome seen x)
      (ServerTurn s o id path demand now x seen c) (ServerBroke s o id path demand now x c) c := by
  unfold retireStale
  dsimp only
  split
  case isTrue => exact .kept rfl .refl
  case isFalse hd =>
    have hd : x.deleting = false := Bool.eq_false_iff.mpr hd
    split
    case isTrue he =>
      have hwhy : Retires s o path demand now x := by
        refine .stale hd hc he.1 (he.2.imp (fun h => Bool.eq_false_iff.mpr h) fun h => ?_)
        simpa using h
      rw [wp_bind]
      refine (wp_retire ho hn hx hs hd).mono ?_ fun _ h => .unretired hwhy h
      intro _ d hr
      exact .retired hwhy hr (.inl (Finset.mem_insert_self _ _)) (Finset.subset_insert _ _)
    case isFalse =>
      rw [wp_bind]
      exact (wp_drop hn hx hs).mono (fun _ _ h => .kept rfl h) fun _ h => .kept h

theorem wp_retireIdle (ho : o.Is id) (hn : (c.pods.map PodObject.key).Nodup) (hx : x ∈ c.pods) (hs : id.Server x)
    (hc : isCurrent s o path x = true) (hd : demand.lookup (nodeLocalServerTargetNode x) = none) :
    wp (do retireIdle s o (now x) x; return seen) (ServerTurn s o id path demand now x seen c)
      (ServerBroke s o id path demand now x c) c := by
  have hr {what : String} (why : o.idleRetentionSeconds.toInt * 10 ^ 9 ≤ 0 ∨
      ∃ t, s.parseTime (x.annotation annotationNodeLocalIdleSince) = some t ∧
        o.idleRetentionSeconds.toInt * 10 ^ 9 ≤ Time.sub (now x) t) :
      wp (retire s o what x) (fun _ => ServerTurn s o id path demand now x seen c seen)
        (ServerBroke s o id path demand now x c) c := by
    cases hdel : x.deleting
    case true =>
      rw [retire, if_pos hdel]
      exact .kept rfl .refl
    case false =>
      have hwhy : Retires s o path demand now x := .idle hdel hc hd why
      exact (wp_retire ho hn hx hs hdel).mono (fun _ d h => .retired hwhy h (.inr hd) subset_rfl)
        fun _ h => .unretired hwhy h
  rw [wp_bind]
  unfold retireIdle
  dsimp only
  split
  case isTrue hp => exact hr (.inl hp)
  case isFalse =>
    split
    case h_1 =>
      exact (wp_note hn hx hs fun _ => annotates_insert).mono (fun _ _ h => .kept rfl h.1.acts) fun _ h => .kept h.acts
    case h_2 t ht =>
      split
      case isTrue hp => exact hr (.inr ⟨t, ht, hp⟩)
      case isFalse => exact .kept rfl .refl

theorem wp_keepServer (hn : (c.pods.map PodObject.key).Nodup) (hx : x ∈ c.pods) (hs : id.Server x) :
    wp (keepServer seen x) (ServerTurn s o id path demand now x seen c) (ServerBroke s o id path demand now x c) c := by
  -- The Pod may have lost its mark of being idle before it is deleted.
  have hnext {c₁ : Cluster} {y : PodObject} (hy : y ∈ c₁.pods) (hr : SameRole s id x y)
      (hn : (c₁.pods.map PodObject.key).Nodup)
      (ha : Acts s o id (fun _ => False) x.key c c₁) :
      wp (if nodeLocalServerTargetNode x ∈ seen.live then do
          deleteUnlessMarked (serverText "delete duplicate" x) x
          return seen
        else return { seen with live := insert (nodeLocalServerTargetNode x) seen.live })
        (ServerTurn s o id path demand now x seen c) (ServerBroke s o id path demand now x c) c₁ := by
    split
    case isFalse => exact .kept rfl ha
    case isTrue =>
      rw [wp_bind, deleteUnlessMarked]
      split
      case isTrue => exact .kept rfl ha
      case isFalse =>
        have hw : wp (Api.delete y.key >>= Api.unlessNotFound (serverText "delete duplicate" x))
            (fun _ => Acts s o id (fun _ => False) y.key c₁) (Acts s o id (fun _ => False) y.key c₁) c₁ :=
          wp_drop hn hy (hr.owns_iff.mpr hs)
        rw [hr.key] at hw
        exact hw.mono (fun _ _ h => .kept rfl (ha.trans h)) fun _ h => .kept (ha.trans h)
  unfold keepServer
  dsimp only
  split
  case isFalse => exact hnext hx .refl hn .refl
  case isTrue =>
    rw [wp_bind]
    refine (wp_note hn hx hs fun _ => annotates_erase).mono ?_ fun _ h => .kept h.acts
    rintro _ c₁ ⟨ha, hy⟩
    exact hnext hy annotates_erase.sameRole (ha.nodup hn) ha.acts

theorem wp_reconcileServer (ho : o.Is id) (hn : (c.pods.map PodObject.key).Nodup) (hx : x ∈ c.pods)
    (hs : id.Server x) : wp (reconcileServer s o path demand now seen x) (ServerTurn s o id path demand now x seen c)
      (ServerBroke s o id path demand now x c) c := by
  unfold reconcileServer
  dsimp only
  rw [if_neg (not_not.mpr (ho.server_iff.mp hs).2)]
  split
  case isTrue hc => exact wp_retireStale ho hn hx hs (Bool.eq_false_iff.mpr hc)
  case isFalse hc =>
    split
    case isTrue hd =>
      refine wp_retireIdle ho hn hx hs (Decidable.not_not.mp hc) ?_
      simpa using hd
    case isFalse => exact wp_keepServer hn hx hs

theorem ServerTurn.acts {seen' : Seen} (h : ServerTurn s o id path demand now x seen c seen' d) (hx : x ∈ c.pods)
    (hs : id.Server x) :
    Acts s o id (fun n => n = nodeLocalServerTargetNode x ∧ Retires s o path demand now x) x.key c d := by
  cases h
  case kept ha => exact ha.mono fun _ h => h.elim
  case retired hw hr _ _ => exact hr.acts hx hs ⟨rfl, hw⟩

theorem ServerTurn.grows {seen' : Seen} (h : ServerTurn s o id path demand now x seen c seen' d) :
    seen.blocked ⊆ seen'.blocked := by
  cases h
  case kept he _ => exact he ▸ subset_rfl
  case retired hg => exact hg

theorem ServerBroke.acts (h : ServerBroke s o id path demand now x c d) (hx : x ∈ c.pods) (hs : id.Server x) :
    Acts s o id (fun n => n = nodeLocalServerTargetNode x ∧ Retires s o path demand now x) x.key c d := by
  cases h
  case kept ha => exact ha.mono fun _ h => h.elim
  case unretired hw hr => exact hr.acts hx hs ⟨rfl, hw⟩

end Turns

section Loops

variable {A : Type} {f : A → PodObject → Api A} {a : A} {l : List PodObject} {e : Cluster → Prop}

-- A loop over servers that were listed at some time, each turn of which is about one of them.
theorem wp_servers {I : List PodObject → A → Cluster → Prop} (ho : o.Is id) (hs : Sane s id c.pods)
    (hk : (l.map PodObject.key).Nodup) (hm : ∀ x ∈ l, id.Server x → x ∈ c.pods) (h : I l a c)
    (skip : ∀ x ∈ l, ¬id.Server x → ∀ l a c, I (x :: l) a c → wp (f a x) (fun a d => d = c ∧ I l a d) e c)
    (step : ∀ x ∈ l, id.Server x → ∀ l a c, Sane s id c.pods → x ∈ c.pods → I (x :: l) a c →
      wp (f a x) (fun a d => Acts s o id N x.key c d ∧ I l a d) e c) :
    wp (l.foldlM f a) (fun a d => Sane s id d.pods ∧ I [] a d) e c := by
  have hstart : Sane s id c.pods ∧ (l.map PodObject.key).Nodup ∧ (∀ x ∈ l, id.Server x → x ∈ c.pods) ∧ I l a c :=
    ⟨hs, hk, hm, h⟩
  refine (wp_foldlM (I := fun _ l a d => Sane s id d.pods ∧ (l.map PodObject.key).Nodup ∧
    (∀ x ∈ l, id.Server x → x ∈ d.pods) ∧ I l a d) ?_ hstart).mono (fun _ _ h => ⟨h.1, h.2.2.2⟩) fun _ h => h
  rintro l₁ x l₂ a c hl ⟨hs, hk, hm, h⟩
  have hx : x ∈ l := hl ▸ List.mem_append_right _ List.mem_cons_self
  have ⟨hk₁, hk₂⟩ := List.nodup_cons.mp hk
  by_cases hsx : id.Server x
  case neg =>
    refine (skip x hx hsx l₂ a c h).mono ?_ fun _ h => h
    rintro a' _ ⟨rfl, h'⟩
    exact ⟨hs, hk₂, fun y hy => hm y (.tail _ hy), h'⟩
  case pos =>
    refine (step x hx hsx l₂ a c hs (hm x (.head _) hsx) h).mono ?_ fun _ h => h
    rintro a' d ⟨ha, h'⟩
    refine ⟨ha.sane ho hs, hk₂, fun y hy hsy => ?_, h'⟩
    have hyc := hm y (.tail _ hy) hsy
    refine ha.mem ho hs hyc (fun he => hk₁ ?_) (hs.not_cleanup hyc hsy)
    exact he ▸ List.mem_map_of_mem hy

end Loops

section Phases

variable {path : GoString} {demand : GoMap GoString PodObject} {now : PodObject → Time} {seen : Seen}
variable {e : Cluster → Prop} {l : List PodObject}

theorem wp_reconcileServers {I : List PodObject → Seen → Cluster → Prop} (ho : o.Is id) (hs : Sane s id c.pods)
    (hk : (l.map PodObject.key).Nodup) (hl : ∀ x ∈ l, o.listsServer x = true)
    (hm : ∀ x ∈ l, id.Server x → x ∈ c.pods) (h : I l seen c)
    (skip : ∀ x l seen c, I (x :: l) seen c → I l seen c)
    (turn : ∀ x ∈ l, id.Server x → ∀ l seen c seen' d, Sane s id c.pods → x ∈ c.pods → I (x :: l) seen c →
      ServerTurn s o id path demand now x seen c seen' d → I l seen' d)
    (broke : ∀ x ∈ l, id.Server x → ∀ l seen c d, Sane s id c.pods → x ∈ c.pods → I (x :: l) seen c →
      ServerBroke s o id path demand now x c d → e d) :
    wp (l.foldlM (reconcileServer s o path demand now) seen) (fun seen d => Sane s id d.pods ∧ I [] seen d) e c := by
  refine wp_servers (N := fun _ => True) ho hs hk hm h ?_ ?_
  case refine_1 =>
    intro x hx hsx l seen c h
    have hc : ¬x.isControlledBy o.uid = true := fun hc => hsx (ho.server_iff.mpr ⟨hl x hx, hc⟩)
    rw [reconcileServer, if_pos hc]
    exact ⟨rfl, skip x l seen c h⟩
  case refine_2 =>
    intro x hx hsx l seen c hs hxc h
    refine (wp_reconcileServer ho hs.nodup hxc hsx).mono ?_ fun d hb => broke x hx hsx l seen c d hs hxc h hb
    intro seen' d ht
    exact ⟨(ht.acts hxc hsx).mono fun _ _ => trivial, turn x hx hsx l seen c seen' d hs hxc h ht⟩

def Works (s : Setup) (o : Owner) (id : Identity) (N : GoString → Prop) : Cluster → Cluster → Prop :=
  Relation.ReflTransGen fun c d => ∃ key, Act s o id N key c d

theorem Acts.works (h : Acts s o id N key c d) : Works s o id N c d :=
  Relation.ReflTransGen.mono (fun _ _ h => ⟨key, h⟩) _ _ h

theorem Works.invariant {I : Cluster → Prop} (h : Works s o id N c d) (hI : I c)
    (hs : ∀ key c d, I c → Act s o id N key c d → I d) : I d := by
  induction h
  case refl => exact hI
  case tail ha hi =>
    have ⟨key, ha⟩ := ha
    exact hs key _ _ hi ha

theorem Works.sane (ho : o.Is id) (h : Works s o id N c d) (hs : Sane s id c.pods) : Sane s id d.pods :=
  h.invariant hs fun _ _ _ hs ha => ha.sane ho hs

theorem Works.server (h : Works s o id N c d) (hy : y ∈ d.pods) (hs : id.Server y) : ∃ x ∈ c.pods, Stays x y := by
  induction h generalizing y
  case refl => exact ⟨y, hy, .refl⟩
  case tail ha hi =>
    have ⟨_, ha⟩ := ha
    have ⟨z, hz, hzy⟩ := ha.server hy hs
    have ⟨x, hx, hxz⟩ := hi hz ((hzy.sameRole (s := s)).owns hs)
    exact ⟨x, hx, hxz.trans hzy⟩

def Traces (s : Setup) (o : Owner) (pods : List PodObject) (n : GoString) : Prop :=
  ∃ path, nodeLocalServerShmHostPath s.lib o.object = .ok path ∧
    ∃ x ∈ pods, x.key.inNamespace = o.inNamespace ∧ leavesTraces o path x = true ∧ x.nodeName = n

theorem wp_ensureForConsumers (ho : o.Is id) (hs : Sane s id c.pods) :
    wp (ensureLMCacheNodeLocalCleanupForConsumers s o) (fun _ => Works s o id (Traces s o c.pods) c)
      (Works s o id (Traces s o c.pods) c) c := by
  unfold ensureLMCacheNodeLocalCleanupForConsumers
  split
  case isTrue => exact .refl
  case isFalse =>
    rw [wp_bind]
    refine wp_of ?_ fun _ _ => .refl
    intro path hp
    rw [wp_bind]
    refine wp_list ?_ fun _ _ hi => .single ⟨o.object.key, .idle hi⟩
    intro c₁ h₁
    have hw : Works s o id (Traces s o c.pods) c c₁ := .single ⟨o.object.key, .idle h₁⟩
    refine wp_foldlM_of_mem (I := fun _ d => Works s o id (Traces s o c.pods) c d) ?_ hw
    intro x hx _ d hd
    split
    case isFalse => exact hd
    case isTrue hl =>
      have ⟨hm, hn⟩ := List.mem_filter.mp hx
      have ht : Traces s o c.pods x.nodeName := ⟨path, hp, x, hm, of_decide_eq_true hn, hl, rfl⟩
      refine (wp_ensure ho (hd.sane ho hs).nodup).mono ?_ ?_
      case refine_1 =>
        intro _ d' h
        have ha : Acts s o id (Traces s o c.pods) x.key d d' := h.acts ht
        exact hd.trans ha.works
      case refine_2 =>
        intro d' h
        have ha : Acts s o id (Traces s o c.pods) x.key d d' := h.acts ht
        exact hd.trans ha.works

def Dismisses (s : Setup) (o : Owner) (id : Identity) (pods : List PodObject) (n : GoString) : Prop :=
  ∃ path, nodeLocalServerShmHostPath s.lib o.object = .ok path ∧
    ∃ x ∈ pods, id.Server x ∧ x.deleting = false ∧ nodeLocalServerUsesShmHostPath x path = true ∧
      nodeLocalServerTargetNode x = n

-- No Pod with the name is there, except for one that is about to go.
def Gone (key : Webhook.ObjectKey) (pods : List PodObject) : Prop :=
  ∀ y ∈ pods, y.key = key → y.deleting = true

theorem Deleted.gone {after : List PodObject} (h : Deleted key pods after) : Gone key after := by
  intro y hy hk
  cases h.mem hy
  case inl h => exact absurd hk h.2
  case inr h =>
    have ⟨x, _, _, he⟩ := h
    rw [he]
    rfl

theorem Retired.gone (h : Retired s o id x c d) : Gone x.key d.pods := by
  have ⟨_, hd, hw⟩ := h
  exact hw.pods ▸ Deleted.gone hd

theorem wp_dismiss {what : GoString} (ho : o.Is id) (hn : (c.pods.map PodObject.key).Nodup) (hx : x ∈ c.pods)
    (hs : id.Server x) (hN : nodeLocalServerUsesShmHostPath x path = true → N (nodeLocalServerTargetNode x)) :
    wp (do
        if nodeLocalServerUsesShmHostPath x path then ensureLMCacheNodeLocalCleanupPod s o x else pure ()
        Api.delete x.key >>= Api.unlessNotFound what)
      (fun _ d => Acts s o id N x.key c d ∧ Gone x.key d.pods) (Acts s o id N x.key c) c := by
  dsimp only
  split
  case isTrue hu =>
    refine (wp_ensureAndDelete ho hn hx hs).mono ?_ fun _ h => h.acts hx hs (hN hu)
    exact fun _ d h => ⟨h.acts hx hs (hN hu), h.gone⟩
  case isFalse =>
    have hlive : c.find x.key = some x := find_of_mem hn hx
    apply wp_delete
    case hn => exact fun _ hf _ => nomatch hlive.symm.trans hf
    case hd =>
      intro y after d hf hd hw
      cases hlive.symm.trans hf
      exact ⟨(Act.drop hx hs rfl hd hw).acts, hw.pods ▸ Deleted.gone hd⟩
    case he => exact fun _ _ hi => (Act.idle hi).acts
    case hl =>
      intro y after d _ hf hd hw
      cases hlive.symm.trans hf
      exact (Act.drop hx hs rfl hd hw).acts

-- The servers that are not marked are still to come.
def Unmarked (id : Identity) (l : List PodObject) (d : Cluster) : Prop :=
  ∀ y ∈ d.pods, id.Server y → y.deleting = true ∨ ∃ x ∈ l, id.Server x ∧ x.key = y.key

theorem Unmarked.skip (h : Unmarked id (x :: l) d) (hx : ¬id.Server x) : Unmarked id l d := by
  intro y hy hs
  refine (h y hy hs).imp_right ?_
  rintro ⟨z, hz, hsz, hk⟩
  cases hz
  case head => exact absurd hsz hx
  case tail hz => exact ⟨z, hz, hsz, hk⟩

theorem Unmarked.works (h : Unmarked id (x :: l) c) (ha : Works s o id N c d) (hg : Gone x.key d.pods) :
    Unmarked id l d := by
  intro y hy hs
  have ⟨z, hz, hzy⟩ := ha.server hy hs
  have hr : SameRole s id z y := hzy.sameRole
  cases h z hz (hr.owns hs)
  case inl hd =>
    cases hyd : y.deleting
    case true => exact .inl rfl
    case false => cases (hzy.deleting hyd).symm.trans hd
  case inr h =>
    have ⟨w, hw, hsw, hk⟩ := h
    cases hw
    case head => exact .inl (hg y hy (hr.key.trans hk.symm))
    case tail hw => exact .inr ⟨w, hw, hsw, hk.trans hr.key.symm⟩

theorem wp_cleanupServers {q : Unit → Cluster → Prop} (ho : o.Is id) (hs : Sane s id c.pods) (hu : o.uid = [] → q () c)
    (he : ∀ d, Works s o id (Dismisses s o id c.pods) c d → e d)
    (hl : ∀ d, Works s o id (Dismisses s o id c.pods) c d → Sane s id d.pods →
      (∀ y ∈ d.pods, id.Server y → y.deleting = true) →
      wp (reconcileLMCacheNodeLocalCleanupPods s o ∅ false) (fun _ => q ()) e d) :
    wp (cleanupLMCacheNodeLocalServerPods s o) q e c := by
  unfold cleanupLMCacheNodeLocalServerPods
  split
  case isTrue h => exact hu h
  case isFalse =>
    rw [wp_bind]
    refine wp_list ?_ fun d _ hi => he d (.single ⟨o.object.key, .idle hi⟩)
    intro c₁ h₁
    have hw₁ : Works s o id (Dismisses s o id c.pods) c c₁ := .single ⟨o.object.key, .idle h₁⟩
    rw [wp_bind]
    refine wp_of ?_ fun _ _ => he c₁ hw₁
    intro path hp
    rw [wp_bind]
    have hlist : ((c.pods.filter o.listsServer).map PodObject.key).Nodup := hs.nodup.sublist (List.filter_sublist.map _)
    refine (wp_servers (N := Dismisses s o id c.pods) (I := fun l _ d => Works s o id (Dismisses s o id c.pods) c d ∧
      Unmarked id l d) ho (h₁.pods ▸ hs) hlist ?_ ⟨hw₁, ?_⟩ ?_ ?_).mono ?_ fun _ h => h
    case refine_1 => exact fun x hx _ => h₁.pods ▸ List.mem_of_mem_filter hx
    case refine_2 =>
      intro y hy hsy
      rw [h₁.pods] at hy
      exact .inr ⟨y, List.mem_filter.mpr ⟨hy, (ho.server_iff.mp hsy).1⟩, hsy, rfl⟩
    case refine_3 =>
      intro x hx hsx l _ d hd
      have hc : ¬x.isControlledBy o.uid = true :=
        fun hc => hsx (ho.server_iff.mpr ⟨(List.mem_filter.mp hx).2, hc⟩)
      rw [if_pos (.inl hc)]
      exact ⟨rfl, hd.1, hd.2.skip hsx⟩
    case refine_4 =>
      intro x hx hsx l _ d hsd hxd hd
      have hxc : x ∈ c.pods := List.mem_of_mem_filter hx
      cases hdel : x.deleting
      case true =>
        rw [if_pos (.inr rfl)]
        have ha : Acts s o id (Dismisses s o id c.pods) x.key d d := .refl
        refine ⟨ha, hd.1, hd.2.works ha.works fun y hy hk => ?_⟩
        exact eq_of_key hsd.nodup hy hxd hk ▸ hdel
      case false =>
        have hN (hu : nodeLocalServerUsesShmHostPath x path = true) :
            Dismisses s o id c.pods (nodeLocalServerTargetNode x) := ⟨path, hp, x, hxc, hsx, hdel, hu, rfl⟩
        rw [if_neg (by simp [(ho.server_iff.mp hsx).2])]
        refine (wp_dismiss ho hsd.nodup hxd hsx hN).mono ?_ fun d' h => he d' (hd.1.trans h.works)
        exact fun _ d' h => ⟨h.1, hd.1.trans h.1.works, hd.2.works h.1.works h.2⟩
    case refine_5 =>
      rintro _ d ⟨hsd, hw, hm⟩
      rw [wp_bind]
      refine hl d hw hsd fun y hy hs => (hm y hy hs).resolve_right ?_
      rintro ⟨_, hx, _⟩
      cases hx

-- A server is created under a name that is free, if at all.
inductive Founded (s : Setup) (o : Owner) (n : GoString) (c d : Cluster) : Prop
  | idle (idle : Idle c d)
  | created {pod : PodObject} (server : IsServer s o n pod) (free : c.find pod.key = none)
    (wrote : Wrote c (.create pod) (c.pods ++ [pod]) d)

theorem wp_createServer {binding : Option Binding} {source : PodObject} :
    wp (createServer s o binding n source) (fun _ => Founded s o n c) (Founded s o n c) c := by
  unfold createServer
  rw [wp_bind]
  refine wp_of ?_ fun _ _ => .idle .refl
  intro pod hp
  have hs : IsServer s o n { pod with controller := some o.uid } :=
    RendersServer.isServer ⟨binding, source, pod, hp, rfl⟩
  rw [wp_bind]
  apply wp_create
  case hc => exact fun d hf hw => .created hs hf hw
  case hf =>
    intro _ _ c₁ _ h₁
    rw [wp_bind]
    apply wp_get
    case h =>
      intro x c₂ _ h₂
      split <;> exact .idle (h₁.trans h₂)
    case he => exact fun c₂ _ h₂ => .idle (h₁.trans h₂)
  case he => exact fun _ _ _ hi => .idle hi
  case hl => exact fun _ d _ hf hw => .created hs hf hw

theorem wp_createServers {binding : Option Binding} {I : Cluster → Prop} (h : I c)
    (step : ∀ n c d, n ∉ seen.blocked → (demand.lookup n).isSome = true → I c → Founded s o n c d → I d) :
    wp (createServers s o binding demand seen) (fun _ => I) I c := by
  refine wp_foldlM_of_mem (I := fun _ => I) ?_ h
  intro x hx _ c hc
  split
  case isTrue => exact hc
  case isFalse hn =>
    have hd : (demand.lookup x.1).isSome = true := by rw [RangeOrder.mem_range.mp hx]; rfl
    exact wp_createServer.mono (fun _ d h => step x.1 c d (not_or.mp hn).2 hd hc h)
      fun d h => step x.1 c d (not_or.mp hn).2 hd hc h

-- The engines that are on a node, by the nodes.
def demandIn (o : Owner) (pods : List PodObject) : GoMap GoString PodObject :=
  if o.object.spec.matchLabels.len = 0 then ∅ else demandOf o (pods.filter (selects o))

theorem wp_demand {q : GoMap GoString PodObject → Cluster → Prop} (h : ∀ d, Idle c d → q (demandIn o c.pods) d)
    (he : ∀ d, ¬c.Reliable → Idle c d → e d) : wp (nodeLocalEngineDemand o) q e c := by
  unfold nodeLocalEngineDemand
  split
  case isTrue hm =>
    have hd := h c .refl
    rw [demandIn, if_pos hm] at hd
    exact hd
  case isFalse hm =>
    rw [wp_bind]
    refine wp_list ?_ he
    intro d hi
    have hd := h d hi
    rw [demandIn, if_neg hm] at hd
    exact hd

-- A pass looks around before it writes.
theorem wp_reconcileNodeLocal {binding : Option Binding} {q : Unit → Cluster → Prop} (hi : ∀ d, Idle c d → e d)
    (h : ∀ path c₁, nodeLocalServerShmHostPath s.lib o.object = .ok path → Idle c c₁ →
      wp (do
        let blocked ← reconcileLMCacheNodeLocalCleanupPods s o (demandIn o c.pods) true
        let seen ← (c.pods.filter o.listsServer).foldlM (reconcileServer s o path (demandIn o c.pods) now) ⟨∅, blocked⟩
        createServers s o binding (demandIn o c.pods) seen) q e c₁) :
    wp (reconcileNodeLocal s o binding now) q e c := by
  unfold reconcileNodeLocal
  rw [wp_bind]
  refine wp_demand ?_ fun d _ => hi d
  intro c₁ h₁
  rw [wp_bind]
  refine wp_of ?_ fun _ _ => hi c₁ h₁
  intro path hp
  rw [wp_bind]
  refine wp_list ?_ fun d _ h₂ => hi d (h₁.trans h₂)
  intro c₂ h₂
  rw [h₁.pods]
  exact h path c₂ hp (h₁.trans h₂)

theorem wp_orElsewhere {err : Option GoString} {I : Cluster → Prop} (h : I c) :
    wp (orElsewhere err) (fun _ => I) I c := by
  cases err
  case none => exact h
  case some => exact h

-- A finalization only reads, once the cleanups have been looked after.
theorem wp_finalize {el : Elsewhere} {I : Cluster → Prop} (hi : ∀ c d, I c → Idle c d → I d) (h : I c)
    (hw : wp (do
      ensureLMCacheNodeLocalCleanupForConsumers s o
      cleanupLMCacheNodeLocalServerPods s o
      reconcileLMCacheNodeLocalCleanupPods s o ∅ false) (fun _ => I) I c) :
    wp (finalizeLMCacheNodeLocal s o el) (fun _ => I) I c := by
  unfold finalizeLMCacheNodeLocal
  rw [wp_bind]
  refine (wp_orElsewhere (I := fun d => d = c) rfl).mono ?_ fun _ hd => hd ▸ h
  rintro _ _ rfl
  rw [wp_bind] at hw ⊢
  refine hw.mono ?_ fun _ h => h
  intro _ c₁ hw
  rw [wp_bind] at hw ⊢
  refine hw.mono ?_ fun _ h => h
  intro _ c₂ hw
  rw [wp_bind]
  refine hw.mono ?_ fun _ h => h
  intro _ c₃ h₃
  rw [wp_bind]
  refine wp_list_orReturn ?_ fun d _ => hi c₃ d h₃
  intro c₄ h₄
  rw [wp_bind]
  refine wp_list_orReturn ?_ fun d _ => hi c₄ d (hi c₃ c₄ h₃ h₄)
  intro c₅ h₅
  have h₅ := hi c₄ c₅ (hi c₃ c₄ h₃ h₄) h₅
  split
  case isTrue => exact h₅
  case isFalse =>
    rw [wp_bind]
    refine wp_consumers ?_ fun d _ => hi c₅ d h₅
    intro _ _ c₆ _ h₆ _
    have h₆ := hi c₅ c₆ h₅ h₆
    split
    case isTrue => exact h₆
    case isFalse =>
      rw [wp_bind]
      exact (wp_orElsewhere h₆).mono (fun _ _ h => h) fun _ h => h

end Phases

end InferenceCache.Controller.NodeLocal
