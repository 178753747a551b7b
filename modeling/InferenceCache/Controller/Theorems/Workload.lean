import InferenceCache.Controller.Workload

namespace InferenceCache.Controller.Workload

open Keyed

variable {R S : Type} {live desired : PodSpec R S} {c w x : Container R} {k : GoString}

section Adopt

theorem Container.adopt_owned (h : c.name = w.name) :
    c.adopt w = { w with restartPolicy := c.restartPolicy, rest := c.rest } := by
  rw [adopt, h]

theorem Container.adopt_adopt : (c.adopt w).adopt w = c.adopt w :=
  rfl

theorem Container.adopt_self : w.adopt w = w :=
  rfl

theorem Container.name_adopt (c w : Container R) : (c.adopt w).name = c.name :=
  rfl

end Adopt

section Containers

theorem isSome_lookup_desiredNames {l : List (Container R)} :
    ((desiredNames l).lookup k).isSome ↔ k ∈ l.map (·.name) := by
  have hf (l : List (Container R × Nat)) (m : GoMap GoString Nat) :
      ((l.foldl (fun m x => m.insert x.1.name x.2) m).lookup k).isSome ↔
        (m.lookup k).isSome ∨ k ∈ l.map (·.1.name) := by
    induction l generalizing m
    case nil => simp
    case cons x l hi =>
      rw [List.foldl_cons, hi, Finmap.lookup_insert_ite, List.map_cons, List.mem_cons]
      by_cases hx : k = x.1.name
      case pos => simp [hx]
      case neg => simp [hx]
  have hm : l.zipIdx.map (·.1.name) = l.map (·.name) := by
    have := congrArg (List.map fun c : Container R => c.name) (List.zipIdx_map_fst 0 l)
    rwa [List.map_map] at this
  rw [desiredNames, hf, hm]
  simp

def kept (live desired : PodSpec R S) : List (Container R) :=
  live.containers.filter (·.name ∈ desired.containers.map (·.name))

theorem containers_reconcile (h : desired.containers ≠ []) :
    (reconcileManagedPodSpec live desired).containers =
      desired.containers.foldl (merge (·.name) Container.adopt) (kept live desired) := by
  have hf : (fun c : Container R => ((desiredNames desired.containers).lookup c.name).isSome) =
      fun c => decide (c.name ∈ desired.containers.map (·.name)) := by
    funext c
    rw [Bool.eq_iff_iff, isSome_lookup_desiredNames, decide_eq_true_eq]
  rw [reconcileManagedPodSpec, reconcileManagedContainer, if_neg (by simpa using h)]
  dsimp only
  rw [filterInPlace_eq, hf, kept]

theorem first_kept (hw : w ∈ desired.containers) :
    first (·.name) w.name (kept live desired) = first (·.name) w.name live.containers := by
  rw [first, kept, List.find?_filter, first]
  congr 1
  funext c
  by_cases hc : c.name = w.name
  case pos => simpa [hc] using ⟨w, hw, rfl⟩
  case neg => simp [hc]

theorem nodup_kept (h : (live.containers.map (·.name)).Nodup) : ((kept live desired).map (·.name)).Nodup :=
  h.sublist (List.filter_sublist.map _)

variable (hd : desired.containers ≠ []) (hl : (live.containers.map (·.name)).Nodup)

include hd

theorem first_reconcile (hn : (desired.containers.map (·.name)).Nodup) (hw : w ∈ desired.containers) :
    first (·.name) w.name (reconcileManagedPodSpec live desired).containers =
      some (merged (·.name) Container.adopt live.containers w) := by
  rw [containers_reconcile hd, first_foldl_merge Container.name_adopt hn hw, merged, first_kept hw, merged]

include hl

theorem nodup_reconcile : ((reconcileManagedPodSpec live desired).containers.map (·.name)).Nodup := by
  rw [containers_reconcile hd]
  exact nodup_foldl_merge Container.name_adopt (nodup_kept hl)

theorem perm_reconcile (hn : (desired.containers.map (·.name)).Nodup) :
    ((reconcileManagedPodSpec live desired).containers.map (·.name)).Perm (desired.containers.map (·.name)) := by
  apply (List.perm_ext_iff_of_nodup (nodup_reconcile hd hl) hn).mpr
  intro k
  rw [containers_reconcile hd, mem_map_key_foldl_merge Container.name_adopt]
  constructor
  case mpr => exact .inr
  case mp =>
    rintro (h | h)
    case inr => exact h
    case inl =>
      have ⟨c, hc, he⟩ := List.mem_map.mp h
      exact he ▸ of_decide_eq_true (List.mem_filter.mp hc).right

-- Everything that the result holds under the name of a desired container.
theorem eq_merged_of_mem (hn : (desired.containers.map (·.name)).Nodup) (hw : w ∈ desired.containers)
    (hc : c ∈ (reconcileManagedPodSpec live desired).containers) (he : c.name = w.name) :
    c = merged (·.name) Container.adopt live.containers w := by
  have hs := first_of_mem (nodup_reconcile hd hl) hc
  rw [he, first_reconcile hd hn hw] at hs
  exact (Option.some_injective _ hs).symm

end Containers

theorem reconcile_eq (live desired : PodSpec R S) : reconcileManagedPodSpec live desired = { desired with
    containers := (reconcileManagedPodSpec live desired).containers
    dnsPolicy := if desired.dnsPolicy = [] then dnsClusterFirst else desired.dnsPolicy
    rest := live.rest } := by
  rw [reconcileManagedPodSpec, reconcileManagedContainer]
  split <;> rfl

theorem merged_owned {l : List (Container R)} :
    ∃ policy rest, merged (·.name) Container.adopt l w = { w with restartPolicy := policy, rest } := by
  cases hf : first (·.name) w.name l
  case none => exact ⟨w.restartPolicy, w.rest, by simp [merged, hf]⟩
  case some x =>
    have hx := key_of_first hf
    exact ⟨x.restartPolicy, x.rest, by simp [merged, hf, Container.adopt_owned hx]⟩

theorem adopt_merged {l : List (Container R)} :
    (merged (·.name) Container.adopt l w).adopt w = merged (·.name) Container.adopt l w := by
  cases hf : first (·.name) w.name l
  case none => simp [merged, hf, Container.adopt_self]
  case some x => simp [merged, hf, Container.adopt_adopt]

-- The containers of a result are not touched again.
theorem containers_reconcile_reconcile (hd : desired.containers ≠ [])
    (hl : (live.containers.map (·.name)).Nodup) (hn : (desired.containers.map (·.name)).Nodup) :
    (reconcileManagedPodSpec (reconcileManagedPodSpec live desired) desired).containers =
      (reconcileManagedPodSpec live desired).containers := by
  have hk : kept (reconcileManagedPodSpec live desired) desired =
      (reconcileManagedPodSpec live desired).containers := by
    apply List.filter_eq_self.mpr
    intro c hc
    exact decide_eq_true ((perm_reconcile hd hl hn).subset (List.mem_map_of_mem hc))
  rw [containers_reconcile hd, hk]
  apply foldl_merge_of_first
  intro w hw
  exact ⟨_, first_reconcile hd hn hw, adopt_merged⟩

-- The result has the desired containers, each with the fields that are owned as desired and the others as they
-- were. So does the template, whose other fields are left alone. Doing it again changes nothing.
theorem reconcile_managed_pod_spec (live desired : PodSpec R S) (hl : (live.containers.map (·.name)).Nodup)
    (hn : (desired.containers.map (·.name)).Nodup) (hd : desired.containers ≠ []) :
    let result := reconcileManagedPodSpec live desired
    (result.containers.map (·.name)).Perm (desired.containers.map (·.name)) ∧
    (∀ c ∈ result.containers, ∀ w ∈ desired.containers, c.name = w.name →
      c = { w with restartPolicy := c.restartPolicy, rest := c.rest }) ∧
    (∀ c ∈ result.containers, ∀ x ∈ live.containers, c.name = x.name →
      c = { c with restartPolicy := x.restartPolicy, rest := x.rest }) ∧
    result = { desired with
      containers := result.containers
      dnsPolicy  := if desired.dnsPolicy = [] then dnsClusterFirst else desired.dnsPolicy
      rest       := live.rest } ∧
    reconcileManagedPodSpec result desired = result := by
  have hp := perm_reconcile hd hl hn
  refine ⟨hp, fun c hc w hw he => ?_, fun c hc x hx he => ?_, reconcile_eq live desired, ?_⟩
  case refine_1 =>
    have ⟨policy, rest, hr⟩ := merged_owned (w := w) (l := live.containers)
    rw [eq_merged_of_mem hd hl hn hw hc he, hr]
  case refine_2 =>
    have ⟨w, hw, hk⟩ := List.mem_map.mp (hp.subset (List.mem_map_of_mem hc))
    have hf : first (·.name) w.name live.containers = some x := (hk.trans he) ▸ first_of_mem hl hx
    have hx : c = x.adopt w := by rw [eq_merged_of_mem hd hl hn hw hc hk.symm, merged, hf, Option.elim_some]
    rw [hx, Container.adopt]
  case refine_3 =>
    rw [reconcile_eq _ desired, containers_reconcile_reconcile hd hl hn, reconcile_eq live desired]

def imageContainer (name image : GoString) (rest : R) : Container R where
  name := name
  image := image
  imagePullPolicy := []
  restartPolicy := none
  command := []
  args := []
  env := []
  resources := ⟨∅, ∅, []⟩
  volumeMounts := []
  ports := []
  startupProbe := none
  readinessProbe := none
  livenessProbe := none
  securityContext := none
  rest := rest

def template (containers : List (Container R)) (rest : S) : PodSpec R S where
  containers := containers
  volumes := []
  nodeSelector := ∅
  affinity := none
  tolerations := []
  topologySpreadConstraints := []
  imagePullSecrets := []
  serviceAccountName := []
  securityContext := none
  priorityClassName := []
  schedulerName := []
  runtimeClassName := none
  terminationGracePeriodSeconds := none
  hostNetwork := false
  dnsPolicy := []
  rest := rest

-- A sidecar is dropped, the server keeps its defaulted fields, and an exporter is added.
theorem reconcile_managed_pod_spec_upgrade :
    let live := template [imageContainer (utf8 "sidecar") [] 1, imageContainer (utf8 "server") (utf8 "v1") 2] ()
    let desired :=
      template [imageContainer (utf8 "exporter") [] 0, imageContainer (utf8 "server") (utf8 "v2") 0] ()
    let result := reconcileManagedPodSpec live desired
    result.containers.map (fun c => (c.name, c.image, c.rest)) =
      [(utf8 "server", utf8 "v2", 2), (utf8 "exporter", [], 0)] ∧
    reconcileManagedPodSpec result desired = result := by
  refine ⟨by decide +kernel, ?_⟩
  exact (reconcile_managed_pod_spec _ _ (by decide +kernel) (by decide +kernel) (by simp [template])).2.2.2.2

end InferenceCache.Controller.Workload
