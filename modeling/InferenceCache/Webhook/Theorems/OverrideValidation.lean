import InferenceCache.Adapters.Theorems.Args
import InferenceCache.Kube.Expansion
import InferenceCache.Webhook.OverrideValidation
import InferenceCache.Webhook.Theorems.Overrides

namespace InferenceCache.Webhook

open Kube Api Adapters Flags

section Admission

-- What the overrides of an admitted object do not name.
structure Unreserved (reservedArgs reservedEnv : List GoString) (o : EngineInjectionOverrides) : Prop where
  args         : ∀ arg ∈ o.args, argFlagToken arg ∈ reservedArgs → argFlagToken arg = []
  suppressArgs : ∀ flag ∈ o.suppressArgs, flag ∉ reservedArgs
  env          : ∀ entry ∈ o.env, entry.name ∉ reservedEnv
  suppressEnv  : ∀ name ∈ o.suppressEnv, name ∉ reservedEnv

theorem not_mem_of_checkReserved {entries : List α} (h : checkReserved reserved name path message entries = []) :
    ∀ entry ∈ entries, name entry ∉ reserved := by
  intro entry he hr
  have ⟨i, hi, hx⟩ := List.mem_iff_getElem.mp he
  simp only [checkReserved, List.flatten_eq_nil_iff] at h
  have hn := h _ (List.mem_mapIdx.mpr ⟨i, hi, rfl⟩)
  simp [hx, hr] at hn

theorem unreserved_of_admitted (ht : cb.spec.rest.type ≠ .unset) (hs : registry.select cb = some adapter)
    (ho : engineOverridesFor cb = some o)
    (h : checkEngineOverrides lib isEnvVarName (some registry) cb = []) :
    Unreserved adapter.reservedArgs adapter.reservedEnv o := by
  simp only [checkEngineOverrides, ho, ht, if_false, hs, List.append_eq_nil_iff] at h
  obtain ⟨⟨⟨⟨_, ha⟩, hsa⟩, he⟩, hse⟩ := h
  refine ⟨fun arg hm hr => ?_, not_mem_of_checkReserved hsa, not_mem_of_checkReserved he,
    not_mem_of_checkReserved hse⟩
  have hn := not_mem_of_checkReserved ha arg hm
  simpa [hr] using hn

end Admission

section Args

variable {f : Flag} {v : Value} {owners : Owners}

-- A flag with a value occurs once.
def Holds (f : Flag) (v : Value) (args : List GoString) : Prop :=
  (entries args).filter (·.key = f.text) = [.pair f v]

theorem holds_argsOf (h : es.filter (·.key = f.text) = [.pair f v]) : Holds f v (argsOf es) := by
  rw [Holds, entries_argsOf_eq_fuse, filter_fuse f.text_ne_nil, h]
  intro e he ht hk
  have hm : e ∈ es.filter (·.key = f.text) := List.mem_filter.mpr ⟨he, by simpa using hk⟩
  rw [h, List.mem_singleton] at hm
  simp [hm, Entry.isToggle] at ht

theorem Holds.suppress (h : Holds f v args) (hd : drop f.text = false) :
    Holds f v (suppressArgs false drop args) := by
  rw [suppressArgs_eq]
  exact holds_argsOf ((filter_suppressEntries fun _ => hd).trans h)

theorem filter_override_of_ne {key : α → GoString} (h : key x ≠ k) :
    (override key owners l x).filter (key · = k) = l.filter (key · = k) := by
  unfold override
  split_ifs
  case pos => exact Keyed.filter_upsert_of_ne h
  case pos => rfl
  case neg => simp [h]

theorem Holds.override (h : Holds f v args) (he : e.key ≠ f.text) :
    Holds f v (argsOf (overrideEntry owners (entries args) e)) := by
  apply holds_argsOf
  refine Eq.trans ?_ h
  unfold overrideEntry
  split
  case isTrue => simp [he]
  case isFalse => exact filter_override_of_ne he

theorem Holds.overrideArgs (h : Holds f v args) (ho : ∀ e ∈ entries ovs, e.key ≠ f.text) :
    Holds f v (overrideArgs false owners args ovs) := by
  rw [overrideArgs_eq]
  generalize entries ovs = es at ho
  induction es generalizing args
  case nil => exact h
  case cons e es hi =>
    have ⟨he, ho⟩ := List.forall_mem_cons.mp ho
    exact hi (h.override he) ho

theorem hasArg_of_argFlagToken (h : ∀ arg ∈ args, argFlagToken arg ≠ f.text) : hasArg args f.text = false := by
  simp only [hasArg, List.any_eq_false, decide_eq_true_eq, not_or, Bool.not_eq_true]
  intro arg ha
  have hn := h arg ha
  refine ⟨fun he => hn ?_, ?_⟩
  case refine_1 =>
    rw [he]
    exact argFlagToken_bare
  case refine_2 =>
    by_contra hp
    have hp : GoString.hasPrefix arg (f.text ++ utf8 "=") = true := by simpa using hp
    obtain ⟨w, hw⟩ := GoString.hasPrefix_iff.mp hp
    have hx : arg = (Token.assigned f w).text := by simp [Token.text, ← hw, GoString.utf8_equals]
    rw [hx, argFlagToken_assigned] at hn
    exact hn rfl

theorem Holds.mergeArgs (h : Holds f v post) (hs : f.text ∉ o.suppressArgs)
    (ho : ∀ arg ∈ o.args, argFlagToken arg ≠ f.text) : Holds f v (mergeArgs pre post o) := by
  have hd : (classifyArgFlags pre post).drop o.suppressArgs f.text = false := by simp [Owners.drop, hs]
  exact (h.suppress hd).overrideArgs (key_ne_of_not_hasArg (hasArg_of_argFlagToken ho))

theorem Holds.lookup (h : Holds f v args) : (argsByFlag false ∅ args).lookup f.text = some v.text := by
  rw [lookup_argsByFlag f.text_ne_nil, valueOf, h]
  rfl

end Args

section Env

theorem lookup_foldl_insert {out : GoMap GoString EnvVar} :
    (env.foldl (fun out e => out.insert e.name e) out).lookup k =
      (Keyed.last EnvVar.name k env).or (out.lookup k) := by
  induction env generalizing out
  case nil => rfl
  case cons e env hi =>
    rw [List.foldl_cons, hi, Finmap.lookup_insert_ite, Keyed.last_cons, Option.or_assoc]
    by_cases h : k = e.name
    case pos => simp [h]
    case neg => simp [h, Ne.symm h]

-- What counts is the last definition of a variable.
theorem lookup_envByName : (envByName env).lookup k = Keyed.last EnvVar.name k env := by
  rw [envByName, lookup_foldl_insert, Finmap.lookup_empty, Option.or_none]

-- Of a variable that the adapter owns, the last override counts.
theorem filter_overrideEnv {owners : Owners} {ovs : List EnvVar} (ha : owners.adapter name = true)
    (hl : (env.filter (·.name = name)).length ≤ 1) :
    (overrideEnv owners env ovs).filter (·.name = name) =
      ((Keyed.last EnvVar.name name ovs).map ([·])).getD (env.filter (·.name = name)) := by
  unfold overrideEnv
  induction ovs generalizing env
  case nil => rfl
  case cons e ovs hi =>
    rw [List.foldl_cons, Keyed.last_cons]
    by_cases he : e.name = name
    case neg =>
      have hf : (override EnvVar.name owners env e).filter (·.name = name) = env.filter (·.name = name) :=
        filter_override_of_ne he
      rw [hi (by rwa [hf]), hf, if_neg he, Option.or_none]
    case pos =>
      have ht : (env.filter (·.name = name)).tail = [] := List.length_eq_zero_iff.mp (by simp; omega)
      have hf : (override EnvVar.name owners env e).filter (·.name = name) = [e] := by
        rw [override, he, if_pos ha, ← he, Keyed.filter_upsert, he, ht]
      rw [hi (by simp [hf]), hf, if_pos he]
      cases Keyed.last EnvVar.name name ovs <;> rfl

-- The template defines a variable in the same way in the end, or it defines it at most once and the overrides
-- leave the definition or repeat it.
def Kept (want : EnvVar) (env : List EnvVar) (overrides : Option EngineInjectionOverrides) : Prop :=
  Keyed.last EnvVar.name want.name env = some want ∨
    (env.filter (·.name = want.name)).length ≤ 1 ∧ ∀ o ∈ overrides,
      Keyed.last EnvVar.name want.name o.env = some want ∨
        Keyed.last EnvVar.name want.name o.env = none ∧ want.name ∉ o.suppressEnv

instance : Decidable (Kept want env overrides) :=
  inferInstanceAs (Decidable (_ ∨ _))

theorem adapter_iff (hp : Keyed.last EnvVar.name name post = some want) :
    (classifyEnvNames pre post).adapter name = true ↔ Keyed.last EnvVar.name name pre ≠ some want := by
  simp [classifyEnvNames, classify, classify.changed, lookup_envByName, hp]

-- One definition is replaced, and further ones are left behind it.
theorem last_mergeEnv_iff (hp : post.filter (·.name = want.name) =
      want :: (pre.filter (·.name = want.name)).tail) :
    Keyed.last EnvVar.name want.name (mergeEnv pre post o) = some want ↔ Kept want pre (some o) := by
  have hsome : ∀ {o' : EngineInjectionOverrides} {p : EngineInjectionOverrides → Prop},
      (∀ o ∈ some o', p o) ↔ p o' := by simp
  rw [Kept, hsome]
  by_cases hl : (pre.filter (·.name = want.name)).length ≤ 1
  case neg =>
    -- The last definition is the template's, which then owns the variable.
    have he : Keyed.last EnvVar.name want.name post = Keyed.last EnvVar.name want.name pre := by
      rw [Keyed.last, hp, Keyed.last]
      generalize pre.filter (·.name = want.name) = l at hl
      cases l
      case nil => simp at hl
      case cons x l => cases l <;> simp_all [List.getLast?_cons_cons]
    have hsm : (Keyed.last EnvVar.name want.name pre).isSome := by
      rw [Keyed.last, List.getLast?_isSome]
      rintro hn
      simp [hn] at hl
    have hu : (classifyEnvNames pre post).user want.name = true := by
      obtain ⟨x, hx⟩ := Option.isSome_iff_exists.mp hsm
      simp [classifyEnvNames, classify, classify.changed, lookup_envByName, he, hx]
    rw [Keyed.last, filter_mergeEnv hu, ← Keyed.last, he]
    simp [hl]
  case pos =>
    have ht : (pre.filter (·.name = want.name)).tail = [] := List.length_eq_zero_iff.mp (by simp; omega)
    rw [ht] at hp
    have hw : Keyed.last EnvVar.name want.name post = some want := by rw [Keyed.last, hp]; rfl
    by_cases hpre : Keyed.last EnvVar.name want.name pre = some want
    case pos =>
      have hu : (classifyEnvNames pre post).user want.name = true := by
        simp [classifyEnvNames, classify, classify.changed, lookup_envByName, hpre, hw]
      rw [Keyed.last, filter_mergeEnv hu, ← Keyed.last, hw]
      simp [hpre]
    case neg =>
      have ha : (classifyEnvNames pre post).adapter want.name = true := (adapter_iff hw).mpr hpre
      have hs : (suppressEnv ((classifyEnvNames pre post).drop o.suppressEnv) post).filter
          (·.name = want.name) = if want.name ∈ o.suppressEnv then [] else [want] := by
        split
        case isFalse hn => rw [filter_suppressEnv (by simp [Owners.drop, hn]), hp]
        case isTrue hm =>
          rw [suppressEnv, List.filter_filter, List.filter_eq_nil_iff]
          intro e _
          by_cases he : e.name = want.name <;> simp [he, Owners.drop, hm, ha]
      rw [Keyed.last, mergeEnv, filter_overrideEnv ha (by rw [hs]; split <;> simp), hs]
      cases Keyed.last EnvVar.name want.name o.env
      case some e => simp [hpre, hl]
      case none => by_cases hm : want.name ∈ o.suppressEnv <;> simp [hpre, hl, hm]

end Env

section References

-- The value refers to what the address of the server refers to.
theorem references_kvTransferConfig :
    references (vllmMPKVTransferConfigJSONForHost role host port) =
      references (host ++ (utf8 "\",\"lmcache.mp.port\":\"" ++ (GoString.formatInt port ++
        (utf8 "\",\"lmcache.mp.mp_transfer_mode\":\"" ++ (lmCacheMPTransferModeLMCacheDriven ++
          utf8 "\"\x7d\x7d"))))) := by
  simp only [vllmMPKVTransferConfigJSONForHost, List.append_assoc]
  rw [references_append (by decide +kernel), references_append (by decide +kernel),
    references_append (by decide +kernel), references_append (by cases role <;> decide +kernel),
    references_append (by decide +kernel), references_append (by decide +kernel)]

theorem references_tail :
    references (utf8 "\",\"lmcache.mp.port\":\"" ++ (GoString.formatInt port ++
      (utf8 "\",\"lmcache.mp.mp_transfer_mode\":\"" ++ (lmCacheMPTransferModeLMCacheDriven ++
        utf8 "\"\x7d\x7d")))) = [] := by
  have hp : 0x24 ∉ GoString.formatInt port := fun h => by
    cases GoString.mem_formatInt h
    case inl h => exact absurd h (by decide)
    case inr h => exact absurd h (by decide)
  rw [references_append (by decide +kernel), references_append hp, references_of_not_mem (by decide +kernel)]

-- The value refers to the variables that are replaced in place.
theorem references_pairValue (h : Engine.vllm.Renders lib pod binding cache i p) :
    references (Engine.vllm.pairValue cache) = (Engine.vllm.replacedEnv cache).map EnvVar.name := by
  cases h
  case podLocal lm server hc ht hs _ _ =>
    obtain ⟨topology, podLocal, nodeLocal, chunk⟩ := lm
    cases ht
    cases hs
    simp only [Engine.pairValue, hc, Engine.replacedEnv, Engine.usesNodeIP, vllmMPKVTransferConfigJSON]
    rw [references_kvTransferConfig, references_append (by decide +kernel), references_tail]
    rfl
  case nodeLocal lm server hc ht hs _ _ _ =>
    obtain ⟨topology, podLocal, nodeLocal, chunk⟩ := lm
    cases ht
    cases hs
    have hd : utf8 "tcp://$(" ++ lmCacheNodeIPEnv ++ utf8 ")" =
        utf8 "tcp://" ++ 0x24 :: 0x28 :: (lmCacheNodeIPEnv ++ [0x29]) := by decide +kernel
    simp only [Engine.pairValue, hc, Engine.replacedEnv, Engine.usesNodeIP]
    rw [references_kvTransferConfig, hd]
    simp only [List.append_assoc, List.cons_append, List.nil_append]
    rw [references_append (by decide +kernel), references_reference (by decide +kernel), references_tail]
    rfl

end References

section Injection

variable {pod : PodSpec}

theorem overrideTargetIndex_of_index (hn : name ≠ []) (h : engineContainerIndexNamed lib pod name = .ok i) :
    overrideTargetIndex pod.containers name = some i := by
  unfold engineContainerIndexNamed at h
  unfold overrideTargetIndex
  rw [if_neg hn]
  generalize pod.containers.findIdx? _ = found at h ⊢
  cases found
  case some j => exact congrArg some (Except.ok.inj h)
  case none =>
    dsimp only at h ⊢
    split at h
    case isTrue hl =>
      cases h
      rw [if_pos hl]
    case isFalse => cases h

theorem select_vllm (hr : cache.spec.rest.runtime = .vllm) (ht : cache.spec.rest.type = .lmCache)
    (h : Engine.vllm.Renders lib' pod binding cache i p) :
    Registry.select (builtin lib sidecars image hiCache) cache = some (Engine.vllm.adapter lib sidecars) := by
  have hs : Engine.vllm.supports cache = true := by
    cases h
    case podLocal hl hp _ _ _ =>
      simp [Engine.supports, hr, ht, Engine.runtime, Details.effectiveCacheType, hl, hp]
    case nodeLocal hl hp _ _ _ _ =>
      simp [Engine.supports, hr, ht, Engine.runtime, Details.effectiveCacheType, hl, hp]
  exact List.find?_cons_of_pos hs

theorem holds_wireArgs (h : OneValue Engine.vllm.pairFlag args) :
    Holds Engine.vllm.flag (Engine.vllm.value cache) (Engine.vllm.wireArgs cache args) :=
  (Engine.given_wireArgs h).filter_entries

theorem Holds.applied (h : Holds f v post) (hf : f.text ∈ reservedArgs)
    (hu : ∀ o ∈ overrides, Unreserved reservedArgs reservedEnv o) :
    Holds f v (applyEngineInjectionOverrides pre post preEnv postEnv overrides).1 := by
  cases overrides
  case none => exact h
  case some o =>
    have hu := hu o rfl
    refine h.mergeArgs (fun hs => hu.suppressArgs f.text hs hf) fun arg ha he => f.text_ne_nil ?_
    exact he.symm.trans (hu.args arg ha (he ▸ hf))

theorem filter_wireEnv (hw : want ∈ Engine.vllm.replacedEnv cache) :
    (Engine.vllm.wireEnv cache env).filter (·.name = want.name) =
      want :: (env.filter (·.name = want.name)).tail := by
  have ⟨_, _, hd⟩ := List.pairwise_append.mp (Engine.setEnv_pairwise cache Engine.vllm)
  have hf (ws l : List EnvVar) (h : ∀ m ∈ ws, want.name ≠ m.name) : (ws.foldl (Keyed.move EnvVar.name) l).filter
      (·.name = want.name) = l.filter (·.name = want.name) := by
    induction ws generalizing l
    case nil => rfl
    case cons m ws hi =>
      have ⟨hm, h⟩ := List.forall_mem_cons.mp h
      rw [List.foldl_cons, hi _ h]
      exact Keyed.filter_move_of_ne hm.symm
  rw [Engine.wireEnv_eq, hf _ _ (hd want hw)]
  simp only [Engine.replacedEnv, List.append_nil] at hw ⊢
  split at hw
  case isFalse => cases hw
  case isTrue hc =>
    cases List.mem_singleton.mp hw
    rw [if_pos hc]
    exact Keyed.filter_upsert

theorem last_applied_iff (hw : want ∈ Engine.vllm.replacedEnv cache) :
    Keyed.last EnvVar.name want.name (applyEngineInjectionOverrides pre post env
      (Engine.vllm.wireEnv cache env) overrides).2 = some want ↔ Kept want env overrides := by
  cases overrides
  case some o => exact last_mergeEnv_iff (filter_wireEnv hw)
  case none =>
    rw [applyEngineInjectionOverrides, Engine.last_wireEnv_iff hw, Keyed.Settled, Kept, or_comm]
    simp

end Injection

-- The flag is out of reach. The variables that it refers to are not reserved.
theorem overrides_keep_connector (lib : Adapters.Library) (isEnvVarName : GoString → List GoString)
    (sidecars : Engine.Sidecars) (image : GoString) (hiCache : RuntimeAdapter) (pod pod' : PodSpec)
    (binding : Option Binding) (cache : Api.CacheBackend)
    (hr : cache.spec.rest.runtime = .vllm) (ht : cache.spec.rest.type = .lmCache)
    (ha : checkEngineOverrides lib isEnvVarName (some (builtin lib sidecars image hiCache)) cache = [])
    (hv : Engine.vllm.validateMPEnginePod lib pod cache = .ok ())
    (hi : Engine.vllm.injectEngineConfig lib pod binding cache = .ok pod') :
    ∃ i, overrideTargetIndex pod.containers Engine.vllm.containerName = some i ∧
      overrideTargetIndex pod'.containers Engine.vllm.containerName = some i ∧
      (argsByFlag false ∅ (applyEngineInjectionOverrides (PodSpec.args pod i) (PodSpec.args pod' i)
        (PodSpec.env pod i) (PodSpec.env pod' i) (engineOverridesFor cache)).1).lookup
          defaultEngineKVTransferConfigArg = some (Engine.vllm.pairValue cache) ∧
      references (Engine.vllm.pairValue cache) = (Engine.vllm.replacedEnv cache).map EnvVar.name ∧
      ∀ want ∈ Engine.vllm.replacedEnv cache,
        Keyed.last EnvVar.name want.name (applyEngineInjectionOverrides (PodSpec.args pod i)
          (PodSpec.args pod' i) (PodSpec.env pod i) (PodSpec.env pod' i) (engineOverridesFor cache)).2 =
            some want ↔ Kept want (PodSpec.env pod i) (engineOverridesFor cache) := by
  obtain ⟨i, p, hx, hp, hw⟩ := Engine.injectEngineConfig_eq_ok.mp hi
  have hl := lt_of_engineContainerIndexNamed hx
  have hne : Engine.vllm.containerName ≠ [] := by decide +kernel
  subst hw
  refine ⟨i, overrideTargetIndex_of_index hne hx, overrideTargetIndex_of_index hne (Engine.index_wired.trans hx),
    ?_, references_pairValue hp, fun want hw => ?_⟩
  case refine_1 =>
    have hu (o) (ho : o ∈ engineOverridesFor cache) : Unreserved VLLM.reservedArgs VLLM.reservedEnv o :=
      unreserved_of_admitted (by simp [ht]) (select_vllm hr ht hp) ho ha
    rw [Engine.args_wired hl]
    exact ((holds_wireArgs (Engine.oneValue_of_validate hv hx)).applied (.head _) hu).lookup
  case refine_2 =>
    rw [Engine.env_wired hl]
    exact last_applied_iff hw

section

def noSidecars : Engine.Sidecars where
  observationSidecar       := fun _ _ _ => .ok none
  kernelCheckInitContainer := fun _ _ => .ok none

def plainRegistry : Registry :=
  builtin .plain noSidecars [] ((Engine.sglang []).adapter .plain noSidecars)

def vllmPod (args : List GoString) (env : List EnvVar) : PodSpec where
  containers     := [Engine.engineContainer engineContainerName args env []]
  initContainers := []
  volumes        := []

def nodeLocalEngine : LMCacheEngine where
  topology := .nodeLocal
  podLocal := none
  nodeLocal := some ⟨utf8 "lmcache:1", 5555, 8090, .gib 2, 1, 1, ⟨∅, ∅, []⟩⟩
  chunkSizeTokens := none

def setLog : EngineInjectionOverrides where
  args         := [utf8 "--seed", utf8 "8"]
  suppressArgs := [utf8 "--eager"]
  env := [.ofValue (utf8 "LOG") (utf8 "1")]
  suppressEnv := []

theorem overrides_keep_connector_seed :
    ∃ pod', Engine.vllm.injectEngineConfig .plain (vllmPod [] []) none
        (Engine.engineBackend nodeLocalEngine (some setLog)) = .ok pod' ∧
      ∃ i, (argsByFlag false ∅ (applyEngineInjectionOverrides [] (PodSpec.args pod' i) [] (PodSpec.env pod' i)
          (some setLog)).1).lookup defaultEngineKVTransferConfigArg =
            some (Engine.vllm.pairValue (Engine.engineBackend nodeLocalEngine (some setLog))) ∧
        Keyed.last EnvVar.name lmCacheNodeIPEnv (applyEngineInjectionOverrides [] (PodSpec.args pod' i) []
          (PodSpec.env pod' i) (some setLog)).2 = some nodeIPEnv := by
  have ⟨pod', hp⟩ := Except.exists_of_isOk (x := Engine.vllm.injectEngineConfig .plain (vllmPod [] []) none
    (Engine.engineBackend nodeLocalEngine (some setLog))) (by decide +kernel)
  have ⟨i, hi, _, hl, _, hk⟩ := overrides_keep_connector .plain (fun _ => []) noSidecars []
    ((Engine.sglang []).adapter .plain noSidecars) (vllmPod [] []) pod' none
    (Engine.engineBackend nodeLocalEngine (some setLog)) rfl rfl (by decide +kernel) (by decide +kernel) hp
  have h0 : overrideTargetIndex (vllmPod [] []).containers Engine.vllm.containerName = some 0 := by decide +kernel
  cases h0.symm.trans hi
  exact ⟨pod', hp, 0, hl, (hk nodeIPEnv (.head _)).mpr (by decide +kernel)⟩

def setNodeIP : EngineInjectionOverrides where
  args := []
  suppressArgs := []
  env := [.ofValue lmCacheNodeIPEnv (utf8 "10.0.0.1")]
  suppressEnv := []

-- The variable with the address of the node is not reserved.
theorem override_redirects_connector :
    checkEngineOverrides .plain (fun _ => []) (some plainRegistry)
      (Engine.engineBackend nodeLocalEngine (some setNodeIP)) = [] ∧
    Engine.vllm.validateMPEnginePod .plain (vllmPod [] [])
      (Engine.engineBackend nodeLocalEngine (some setNodeIP)) = .ok () ∧
    lmCacheNodeIPEnv ∈ references (Engine.vllm.pairValue
      (Engine.engineBackend nodeLocalEngine (some setNodeIP))) ∧
    ∃ pod', Engine.vllm.injectEngineConfig .plain (vllmPod [] []) none
        (Engine.engineBackend nodeLocalEngine (some setNodeIP)) = .ok pod' ∧
      Keyed.last EnvVar.name lmCacheNodeIPEnv (PodSpec.env pod' 0) = some nodeIPEnv ∧
      Keyed.last EnvVar.name lmCacheNodeIPEnv (applyEngineInjectionOverrides [] (PodSpec.args pod' 0) []
        (PodSpec.env pod' 0) (some setNodeIP)).2 = some (.ofValue lmCacheNodeIPEnv (utf8 "10.0.0.1")) := by
  have ⟨pod', hp⟩ := Except.exists_of_isOk (x := Engine.vllm.injectEngineConfig .plain (vllmPod [] []) none
    (Engine.engineBackend nodeLocalEngine (some setNodeIP))) (by decide +kernel)
  have hx : engineContainerIndexNamed .plain (vllmPod [] []) Engine.vllm.containerName = .ok 0 := by
    decide +kernel
  refine ⟨by decide +kernel, by decide +kernel, by decide +kernel, pod', hp, ?_⟩
  have ⟨i, p, hi, _, he⟩ := Engine.injectEngineConfig_eq_ok.mp hp
  cases hx.symm.trans hi
  rw [he, Engine.args_wired (by decide), Engine.env_wired (by decide)]
  decide +kernel

end

end InferenceCache.Webhook
