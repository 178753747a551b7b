import InferenceCache.Adapters.Engine
import InferenceCache.Lib.Results

namespace InferenceCache.Adapters

open Kube Api

section Containers

@[simp]
theorem names_modify {cs : List Container} (h : ∀ c, (f c).name = c.name) :
    (cs.modify i f).map (·.name) = cs.map (·.name) := by
  apply List.ext_getElem?
  intro j
  simp only [List.getElem?_map, List.getElem?_modify]
  cases cs[j]?
  case none => rfl
  case some c => by_cases hj : i = j <;> simp [hj, h]

-- Which container is the engine's depends on the names of the containers only.
theorem engineContainerIndexNamed_congr {pod pod' : PodSpec}
    (h : pod'.containers.map (·.name) = pod.containers.map (·.name)) :
    engineContainerIndexNamed lib pod' name = engineContainerIndexNamed lib pod name := by
  have hl : pod'.containers.length = pod.containers.length := by
    simpa using congrArg List.length h
  have hf : pod'.containers.findIdx? (·.name = name) = pod.containers.findIdx? (·.name = name) := by
    have hm := congrArg (List.findIdx? (decide <| · = name)) h
    simpa [List.findIdx?_map, Function.comp_def] using hm
  simp only [engineContainerIndexNamed, hf, hl, h]

theorem lt_of_engineContainerIndexNamed {pod : PodSpec} (h : engineContainerIndexNamed lib pod name = .ok i) :
    i < pod.containers.length := by
  unfold engineContainerIndexNamed at h
  split at h
  case h_1 j hj =>
    cases h
    exact (List.findIdx?_eq_some_iff_getElem.mp hj).1
  case h_2 =>
    split at h
    case isFalse => cases h
    case isTrue hl =>
      cases h
      omega

theorem validateInjectPodCacheInputs_of_index {pod : PodSpec}
    (h : engineContainerIndexNamed lib pod name = .ok i) : validateInjectPodCacheInputs pod role = .ok () :=
  if_neg (Nat.ne_zero_of_lt (lt_of_engineContainerIndexNamed h))

end Containers

section Parts

variable {lib : Library} {pod : PodSpec}

-- What is rendered of a pod, once its engine is found: its volumes, what the engine mounts, and the
-- containers that start before it.
structure Parts where
  wire           : Wire
  initContainers : List Container

def podLocalParts (lib : Library) (pod : PodSpec) (cfg : LMCacheMPServerConfig) (engineIndex : Nat) :
    Except GoString Parts := do
  validateLMCacheMPServerConfig cfg
  let (l2Adapter, bindingEnv) ← renderLMCacheMPL2Binding lib cfg.binding
  let owned := lmCacheMPWireIsOurs pod
  let w := PodSpec.wire pod engineIndex
  let w ← if cfg.writeClientConfig then addClientConfig lib owned w else pure w
  let (w, shmMount) ← addShm lib owned (lmCacheMPMemoryBudget cfg.l1Capacity) w
  let server ← lmCacheMPServerContainer lib cfg l2Adapter bindingEnv shmMount
  let initContainers ← adoptContainer lib server owned pod.initContainers
  return ⟨w, initContainers⟩

theorem renderLMCachePodLocalServer_eq_ok :
    renderLMCachePodLocalServer lib pod name cfg = .ok (work, path) ↔
      ∃ i p, engineContainerIndexNamed lib pod name = .ok i ∧ podLocalParts lib pod cfg i = .ok p ∧
        work = PodSpec.withWire pod i p.wire p.initContainers ∧
        path = if cfg.writeClientConfig then lmCacheMPConfigFilePath else [] := by
  cases hw : cfg.writeClientConfig
  all_goals
    simp only [renderLMCachePodLocalServer, podLocalParts, hw, Bool.false_eq_true, if_true, if_false,
      Except.bind_eq_ok, Except.pure_eq_ok, Prod.mk.injEq]
    constructor
    case mp =>
      rintro ⟨i, hi, u, hu, l2, hl, w₁, h₁, w₂, h₂, s, hs, c, hc, hw, hp⟩
      exact ⟨i, _, hi, ⟨u, hu, l2, hl, w₁, h₁, w₂, h₂, s, hs, c, hc, rfl⟩, hw.symm, hp.symm⟩
    case mpr =>
      rintro ⟨i, _, hi, ⟨u, hu, l2, hl, w₁, h₁, w₂, h₂, s, hs, c, hc, rfl⟩, hw, hp⟩
      exact ⟨i, hi, u, hu, l2, hl, w₁, h₁, w₂, h₂, s, hs, c, hc, hw.symm, hp.symm⟩

def nodeLocalParts (lib : Library) (pod : PodSpec) (cache : CacheBackend) (lm : LMCacheEngine)
    (server : NodeLocalServer) (writeClientConfig : Bool) (engineIndex : Nat) : Except GoString Parts := do
  validateLMCacheNodeLocalServerConfig server (effectiveLMCacheChunkSize lm)
  let shmHostPath ← nodeLocalServerShmHostPath lib cache
  let owned := lmCacheNodeLocalWireIsOurs pod
  checkNodeIPEnv lib owned (PodSpec.env pod engineIndex)
  let w := PodSpec.wire pod engineIndex
  let w ← addNodeShm lib owned shmHostPath w
  let w ← if writeClientConfig then addNodeConfig lib owned w else pure w
  let configPath := if writeClientConfig then lmCacheNodeLocalConfigFilePath else []
  let gateMounts := if writeClientConfig then [nodeConfigMount] else []
  let gate := lmCacheNodeLocalGateContainer cache lm server configPath gateMounts
  let initContainers ← adoptNodeLocalGate lib gate owned pod.initContainers
  return ⟨w, initContainers⟩

theorem renderLMCacheNodeLocalEngine_eq_ok (hl : cache.spec.rest.lmCache = some lm)
    (hs : lm.nodeLocal = some server) :
    renderLMCacheNodeLocalEngine lib pod name cache write = .ok (work, path) ↔
      cache.spec.rest.uid ≠ [] ∧
      ∃ i p, engineContainerIndexNamed lib pod name = .ok i ∧
        nodeLocalParts lib pod cache lm server write i = .ok p ∧
        work = PodSpec.withWire (PodSpec.withNodeIP pod i) i p.wire p.initContainers ∧
        path = if write then lmCacheNodeLocalConfigFilePath else [] := by
  by_cases hu : cache.spec.rest.uid = []
  case pos => simp [renderLMCacheNodeLocalEngine, hl, hs, hu]
  case neg =>
    cases write
    all_goals
      simp only [renderLMCacheNodeLocalEngine, nodeLocalParts, hl, hs, hu, Option.bind_some,
        Bool.false_eq_true, if_true, if_false, Except.bind_eq_ok, Except.pure_eq_ok, Prod.mk.injEq]
      constructor
      case mp =>
        rintro ⟨i, hi, u, hv, path, hp, u', hn, w₁, h₁, w₂, h₂, c, hc, hw, hpath⟩
        exact ⟨hu, i, _, hi, ⟨u, hv, path, hp, u', hn, w₁, h₁, w₂, h₂, c, hc, rfl⟩, hw.symm, hpath.symm⟩
      case mpr =>
        rintro ⟨_, i, _, hi, ⟨u, hv, path, hp, u', hn, w₁, h₁, w₂, h₂, c, hc, rfl⟩, hw, hpath⟩
        exact ⟨i, hi, u, hv, path, hp, u', hn, w₁, h₁, w₂, h₂, c, hc, hw.symm, hpath.symm⟩

end Parts

namespace Engine

variable {lib : Library} {pod : PodSpec} {e : Engine} {cache : CacheBackend} {binding : Option Binding}

def writesClientConfig : Engine → Bool
  | vllm     => false
  | sglang _ => true

-- Only the adapter for vLLM looks at the protocol of the remote storage before it renders.
def acceptsBinding : Engine → Option Binding → Bool
  | vllm,     binding => supportsBinding binding
  | sglang _, _       => true

inductive Renders (lib : Library) (pod : PodSpec) (binding : Option Binding) (cache : CacheBackend)
    (e : Engine) (i : Nat) (p : Parts) : Prop
  | podLocal
    (config : cache.spec.rest.lmCache = some lm)
    (topology : lm.topology = .podLocal)
    (typed : lm.podLocal = some server)
    (accepts : e.acceptsBinding binding)
    (parts : podLocalParts lib pod (PodLocalServer.config lm server binding e.writesClientConfig) i = .ok p)
  | nodeLocal
    (config : cache.spec.rest.lmCache = some lm)
    (topology : lm.topology = .nodeLocal)
    (typed : lm.nodeLocal = some server)
    (accepts : e.acceptsBinding binding)
    (uid : cache.spec.rest.uid ≠ [])
    (parts : nodeLocalParts lib pod cache lm server e.writesClientConfig i = .ok p)

def wire (cache : CacheBackend) (e : Engine) (p : Parts) (c : Container) : Container :=
  { c with
    args := e.wireArgs cache c.args
    env := e.wireEnv cache c.env
    volumeMounts := p.wire.mounts }

def wired (cache : CacheBackend) (pod : PodSpec) (e : Engine) (i : Nat) (p : Parts) : PodSpec where
  containers     := pod.containers.modify i (e.wire cache p)
  initContainers := p.initContainers
  volumes        := p.wire.volumes

section Renders

theorem Renders.accepts (h : e.Renders lib pod binding cache i p) : e.acceptsBinding binding = true := by
  cases h <;> assumption

theorem Renders.typed (h : e.Renders lib pod binding cache i p) : ∃ lm, cache.spec.rest.lmCache = some lm := by
  cases h
  case podLocal hl _ _ _ _ => exact ⟨_, hl⟩
  case nodeLocal hl _ _ _ _ _ => exact ⟨_, hl⟩

variable (hl : cache.spec.rest.lmCache = some lm)

include hl

theorem renders_podLocal (ht : lm.topology = .podLocal) (hs : lm.podLocal = some server) :
    e.Renders lib pod binding cache i p ↔ e.acceptsBinding binding = true ∧
      podLocalParts lib pod (PodLocalServer.config lm server binding e.writesClientConfig) i = .ok p := by
  constructor
  case mp =>
    intro h
    cases h
    case podLocal lm' _ hl' _ hs' ha hp =>
      cases hl.symm.trans hl'
      cases hs.symm.trans hs'
      exact ⟨ha, hp⟩
    case nodeLocal hl' ht' _ _ _ _ =>
      cases hl.symm.trans hl'
      cases ht.symm.trans ht'
  case mpr => exact fun ⟨ha, hp⟩ => .podLocal hl ht hs ha hp

theorem renders_nodeLocal (ht : lm.topology = .nodeLocal) (hs : lm.nodeLocal = some server) :
    e.Renders lib pod binding cache i p ↔ e.acceptsBinding binding = true ∧ cache.spec.rest.uid ≠ [] ∧
      nodeLocalParts lib pod cache lm server e.writesClientConfig i = .ok p := by
  constructor
  case mp =>
    intro h
    cases h
    case podLocal hl' ht' _ _ _ =>
      cases hl.symm.trans hl'
      cases ht.symm.trans ht'
    case nodeLocal lm' _ hl' _ hs' ha hu hp =>
      cases hl.symm.trans hl'
      cases hs.symm.trans hs'
      exact ⟨ha, hu, hp⟩
  case mpr => exact fun ⟨ha, hu, hp⟩ => .nodeLocal hl ht hs ha hu hp

theorem not_renders (hp : lm.topology = .podLocal → lm.podLocal = none)
    (hn : lm.topology = .nodeLocal → lm.nodeLocal = none) : ¬e.Renders lib pod binding cache i p := by
  intro h
  cases h
  case podLocal hl' ht hs _ _ =>
    cases hl.symm.trans hl'
    simp [hp ht] at hs
  case nodeLocal hl' ht hs _ _ _ =>
    cases hl.symm.trans hl'
    simp [hn ht] at hs

end Renders

def withParts (cache : CacheBackend) (pod : PodSpec) (i : Nat) (p : Parts) : PodSpec :=
  PodSpec.withWire (if usesNodeIP cache then PodSpec.withNodeIP pod i else pod) i p.wire p.initContainers

theorem names_withParts :
    (withParts cache pod i p).containers.map (·.name) = pod.containers.map (·.name) := by
  unfold withParts PodSpec.withWire PodSpec.withNodeIP
  split <;> simp

theorem index_modifyEngine (h : ∀ c, (f c).name = c.name) :
    engineContainerIndexNamed lib (PodSpec.modifyEngine pod i f) name = engineContainerIndexNamed lib pod name :=
  engineContainerIndexNamed_congr (names_modify h)

theorem modifyEngine_modifyEngine : PodSpec.modifyEngine (PodSpec.modifyEngine pod i f) i g =
    PodSpec.modifyEngine pod i (g ∘ f) := by
  simp [PodSpec.modifyEngine, List.modify_modify_eq]

theorem modifyEngine_withParts {f : Container → Container}
    (h : ∀ c, f { c with volumeMounts := p.wire.mounts
                         env := if usesNodeIP cache then upsertEnv nodeIPEnv c.env else c.env } =
      e.wire cache p c) :
    PodSpec.modifyEngine (withParts cache pod i p) i f = e.wired cache pod i p := by
  have hf : f ∘ (fun c => { c with volumeMounts := p.wire.mounts
                                   env := if usesNodeIP cache then upsertEnv nodeIPEnv c.env else c.env }) =
      e.wire cache p := funext h
  unfold PodSpec.modifyEngine withParts wired PodSpec.withWire PodSpec.withNodeIP
  rw [← hf]
  split
  case isTrue => simp [List.modify_modify_eq, Function.comp_def]
  case isFalse => simp [List.modify_modify_eq, Function.comp_def]

theorem index_withParts : engineContainerIndexNamed lib (withParts cache pod i p) name =
    engineContainerIndexNamed lib pod name :=
  engineContainerIndexNamed_congr names_withParts

@[simp]
theorem writeClientConfig_config : (PodLocalServer.config lm server binding write).writeClientConfig = write :=
  rfl

section VLLM

theorem vllm_render_eq_ok (hl : cache.spec.rest.lmCache = some lm) (hb : supportsBinding binding) :
    VLLM.injectEngineConfig.render lib pod binding cache lm = .ok (work, value) ↔
      ∃ i p, engineContainerIndexNamed lib pod engineContainerName = .ok i ∧
        vllm.Renders lib pod binding cache i p ∧ work = withParts cache pod i p ∧
        value = vllm.pairValue cache := by
  have hb : vllm.acceptsBinding binding = true := hb
  obtain ⟨topology, podLocal, nodeLocal, chunks⟩ := lm
  cases topology
  case unset => simp [VLLM.injectEngineConfig.render, not_renders hl]
  case podLocal =>
    cases podLocal
    case none => simp [VLLM.injectEngineConfig.render, not_renders hl]
    case some server =>
      simp [VLLM.injectEngineConfig.render, renders_podLocal hl rfl rfl, hb, Prod.exists,
        renderLMCachePodLocalServer_eq_ok, pairValue, hl, withParts, usesNodeIP, writesClientConfig]
      grind
  case nodeLocal =>
    cases nodeLocal
    case none => simp [VLLM.injectEngineConfig.render, not_renders hl]
    case some server =>
      simp [VLLM.injectEngineConfig.render, renders_nodeLocal hl rfl rfl, hb, Prod.exists,
        renderLMCacheNodeLocalEngine_eq_ok hl rfl, pairValue, hl, withParts, usesNodeIP, writesClientConfig]
      grind

theorem vllm_injectEngineConfig_eq_ok : VLLM.injectEngineConfig lib pod binding cache = .ok pod' ↔
    ∃ i p, engineContainerIndexNamed lib pod engineContainerName = .ok i ∧
      vllm.Renders lib pod binding cache i p ∧ pod' = vllm.wired cache pod i p := by
  have hw (i p) : PodSpec.modifyEngine (withParts cache pod i p) i
      (VLLM.wireEngine (vllm.pairValue cache) cache) = vllm.wired cache pod i p :=
    modifyEngine_withParts fun c => rfl
  simp only [VLLM.injectEngineConfig, Except.bind_eq_ok]
  constructor
  case mp =>
    rintro ⟨_, _, h⟩
    split at h
    case h_1 => cases h
    case h_2 lm hl =>
      split at h
      case isTrue => cases h
      case isFalse hb =>
        simp only [Except.bind_eq_ok, Prod.exists, Except.pure_eq_ok] at h
        obtain ⟨work, value, hr, j, hj, h⟩ := h
        obtain ⟨i, p, hi, hp, hw', hv⟩ := (vllm_render_eq_ok hl (by simpa using hb)).mp hr
        subst hw' hv
        rw [index_withParts, hi] at hj
        cases hj
        exact ⟨_, p, hi, hp, h.symm.trans (hw _ p)⟩
  case mpr =>
    rintro ⟨i, p, hi, hp, h⟩
    obtain ⟨lm, hl⟩ := hp.typed
    have hb : supportsBinding binding = true := hp.accepts
    have hr := (vllm_render_eq_ok hl hb).mpr ⟨i, p, hi, hp, rfl, rfl⟩
    refine ⟨(), validateInjectPodCacheInputs_of_index hi, ?_⟩
    simp [hl, hb, hr, index_withParts, hi, hw, h]

end VLLM

section SGLang

theorem sglang_render_eq_ok (image : GoString) (hl : cache.spec.rest.lmCache = some lm) :
    injectSGLangLMCacheMP.render lib pod binding cache lm = .ok (work, value) ↔
      ∃ i p, engineContainerIndexNamed lib pod sglangEngineContainerName = .ok i ∧
        (sglang image).Renders lib pod binding cache i p ∧ work = withParts cache pod i p ∧
        value = (sglang image).pairValue cache := by
  have hb : (sglang image).acceptsBinding binding = true := rfl
  obtain ⟨topology, podLocal, nodeLocal, chunks⟩ := lm
  cases topology
  case unset => simp [injectSGLangLMCacheMP.render, not_renders hl]
  case podLocal =>
    cases podLocal
    case none => simp [injectSGLangLMCacheMP.render, not_renders hl]
    case some server =>
      simp [injectSGLangLMCacheMP.render, renders_podLocal hl rfl rfl, hb,
        renderLMCachePodLocalServer_eq_ok, pairValue, hl, withParts, usesNodeIP, writesClientConfig]
  case nodeLocal =>
    cases nodeLocal
    case none => simp [injectSGLangLMCacheMP.render, not_renders hl]
    case some server =>
      simp [injectSGLangLMCacheMP.render, renders_nodeLocal hl rfl rfl, hb,
        renderLMCacheNodeLocalEngine_eq_ok hl rfl, pairValue, hl, withParts, usesNodeIP, writesClientConfig]
      grind

theorem injectSGLangLMCacheMP_eq_ok (image : GoString) : injectSGLangLMCacheMP lib pod binding cache = .ok work ↔
    ∃ i p, engineContainerIndexNamed lib pod sglangEngineContainerName = .ok i ∧
      (sglang image).Renders lib pod binding cache i p ∧
      work = PodSpec.modifyEngine (withParts cache pod i p) i
        (SGLang.wireEngine ((sglang image).pairValue cache) cache) := by
  simp only [injectSGLangLMCacheMP, Except.bind_eq_ok]
  constructor
  case mp =>
    rintro ⟨_, _, h⟩
    split at h
    case h_1 => cases h
    case h_2 lm hl =>
      simp only [Except.bind_eq_ok, Prod.exists, Except.pure_eq_ok] at h
      obtain ⟨_, _, hr, j, hj, h⟩ := h
      obtain ⟨i, p, hi, hp, hw, hv⟩ := (sglang_render_eq_ok image hl).mp hr
      subst hw hv
      rw [index_withParts, hi] at hj
      cases hj
      exact ⟨_, p, hi, hp, h.symm⟩
  case mpr =>
    rintro ⟨i, p, hi, hp, h⟩
    obtain ⟨lm, hl⟩ := hp.typed
    have hr := (sglang_render_eq_ok image hl).mpr ⟨i, p, hi, hp, rfl, rfl⟩
    refine ⟨(), validateInjectPodCacheInputs_of_index hi, ?_⟩
    simp [hl, hr, index_withParts, hi, h]

def withMetrics (image : GoString) (cache : CacheBackend) (c : Container) : Container :=
  { c with
    args := if image = [] ∨ cache.spec.rest.effectiveObservationModelID = [] then c.args
      else upsertFlag sglangEnableMetricsArg c.args }

theorem ensureSGLangMetricsForSubscriber_eq
    (h : engineContainerIndexNamed lib pod sglangEngineContainerName = .ok i) :
    ensureSGLangMetricsForSubscriber lib image pod cache =
      .ok (PodSpec.modifyEngine pod i (withMetrics image cache)) := by
  unfold ensureSGLangMetricsForSubscriber withMetrics
  split
  case isTrue =>
    have hm : pod.containers.modify i (fun c => { c with args := c.args }) = pod.containers := List.modify_id ..
    simp [PodSpec.modifyEngine, hm]
  case isFalse => simp [h]

theorem sglang_injectEngineConfig_eq_ok : SGLang.injectEngineConfig lib image pod binding cache = .ok pod' ↔
    ∃ i p, engineContainerIndexNamed lib pod sglangEngineContainerName = .ok i ∧
      (sglang image).Renders lib pod binding cache i p ∧ pod' = (sglang image).wired cache pod i p := by
  have hx (i p) : engineContainerIndexNamed lib (PodSpec.modifyEngine (withParts cache pod i p) i
      (SGLang.wireEngine ((sglang image).pairValue cache) cache)) sglangEngineContainerName =
      engineContainerIndexNamed lib pod sglangEngineContainerName := by
    rw [index_modifyEngine, index_withParts]
    exact fun _ => rfl
  have hw (i p) : PodSpec.modifyEngine (withParts cache pod i p) i (withMetrics image cache ∘
      SGLang.wireEngine ((sglang image).pairValue cache) cache) = (sglang image).wired cache pod i p :=
    modifyEngine_withParts fun _ => rfl
  simp only [SGLang.injectEngineConfig, Except.bind_eq_ok, injectSGLangLMCacheMP_eq_ok image]
  constructor
  case mp =>
    rintro ⟨work, ⟨i, p, hi, hp, hw'⟩, h⟩
    subst hw'
    rw [ensureSGLangMetricsForSubscriber_eq ((hx i p).trans hi), modifyEngine_modifyEngine] at h
    cases h
    exact ⟨i, p, hi, hp, hw i p⟩
  case mpr =>
    rintro ⟨i, p, hi, hp, h⟩
    refine ⟨_, ⟨i, p, hi, hp, rfl⟩, ?_⟩
    rw [ensureSGLangMetricsForSubscriber_eq ((hx i p).trans hi), modifyEngine_modifyEngine, h]
    exact congrArg Except.ok (hw i p)

end SGLang

-- What an injection does: it finds the engine, and wires it to what it renders.
theorem injectEngineConfig_eq_ok : e.injectEngineConfig lib pod binding cache = .ok pod' ↔
    ∃ i p, engineContainerIndexNamed lib pod e.containerName = .ok i ∧
      e.Renders lib pod binding cache i p ∧ pod' = e.wired cache pod i p := by
  cases e
  case vllm => exact vllm_injectEngineConfig_eq_ok
  case sglang => exact sglang_injectEngineConfig_eq_ok

theorem index_wired : engineContainerIndexNamed lib (e.wired cache pod i p) name =
    engineContainerIndexNamed lib pod name := by
  apply engineContainerIndexNamed_congr
  unfold wired
  rw [names_modify]
  exact fun _ => rfl

theorem args_wired (h : i < pod.containers.length) :
    PodSpec.args (e.wired cache pod i p) i = e.wireArgs cache (PodSpec.args pod i) := by
  simp [PodSpec.args, wired, h, wire]

theorem env_wired (h : i < pod.containers.length) :
    PodSpec.env (e.wired cache pod i p) i = e.wireEnv cache (PodSpec.env pod i) := by
  simp [PodSpec.env, wired, h, wire]

end Engine

end InferenceCache.Adapters
