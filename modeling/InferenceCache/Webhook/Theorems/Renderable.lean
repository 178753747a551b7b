import InferenceCache.Adapters.VLLM
import InferenceCache.Lib.Results
import InferenceCache.Webhook.MPValidation
import InferenceCache.Webhook.Theorems.Storage

namespace InferenceCache.Webhook

open Kube Api Adapters

section Fixtures

def plainApimachinery : Apimachinery where
  isQualifiedName _ := []
  isDNS1123Subdomain s := if s.all isSubdomainChar then [] else [utf8 "invalid"]
  isConfigMapKey s := if s.all isConfigMapKeyChar then [] else [utf8 "invalid"]
  parseQuantity _ := none
  asInt64 q := if q.amount.den = 1 then some (.ofInt q.amount.num) else none
  subdomain_chars := by simp
  configMapKey_chars := by simp

def plainEnvironment : Environment where
  lib   := .plain
  api   := plainApimachinery
  order := .ascending

def servedResources : ResourceRequirements where
  limits   := (∅ : GoMap GoString Quantity).insert resourceMemory (.gib 4)
  requests := ((∅ : GoMap GoString Quantity).insert resourceMemory (.gib 4)).insert resourceCPU (.milli 500)
  claims   := []

def podLocalServer : PodLocalServer where
  image      := utf8 "lmcache@sha256:" ++ List.replicate 64 0x61
  port       := 5555
  l1Capacity := .gib 2
  maxWorkers := 1
  resources  := servedResources

def redisStorage (auth : RedisAuthentication) : RemoteStorage where
  provider  := .redis
  ownership := .external
  endpoint  := utf8 " [::1]:6379"
  workload  := none
  redis     := some ⟨[], none, some auth, none, none⟩

def submitted (auth : RedisAuthentication) : Submission where
  key := ⟨utf8 "team", utf8 "cache"⟩
  spec := {
    engineSelector := none
    rest := {
      uid := utf8 "1"
      generation := 1
      runtime := .vllm
      type := .lmCache
      lmCache := some ⟨.podLocal, some podLocalServer, none, none⟩
      remoteStorage := some (redisStorage auth)
      observation := none
      integration := none
      allowCrossNamespace := false
      remoteStorageEndpoint := none
      podLocalBlock := true
      nodeLocalBlock := false
      idleRetentionSeconds := 0
      podLocal_block := fun _ => rfl
      nodeLocal_block := nofun
    }
  }

def renderingValidator : Validator Declaration where
  library := ⟨fun _ => [], id⟩
  rules := []
  otherRules := [fun cb => validateCacheHierarchy plainEnvironment.lib (Submission.backend cb),
    validateLMCacheTopology plainEnvironment, rejectUnimplementedRedisBindingFeatures plainEnvironment]
  checkRuntimeAdapter := fun _ => []
  checkEngineOverrides := fun _ => []
  reader := none

def password (name : GoString) : RedisAuthentication :=
  ⟨none, ⟨name, utf8 "password", none⟩⟩

end Fixtures

section Endpoint

variable {lib : Adapters.Library}

theorem parts_of_validateExternalEndpoint {endpoint : GoString}
    (h : validateExternalEndpoint lib provider endpoint = .ok ()) :
    ∃ host port n, endpoint.trimSpace.splitHostPort = some (host, port) ∧ host ≠ [] ∧ port ≠ [] ∧
      port.parseUint 16 = some n ∧ n ≠ 0 := by
  simp only [validateExternalEndpoint] at h
  split_ifs at h
  cases hv : endpoint.trimSpace.splitHostPort
  case none => simp [hv] at h
  case some x =>
    simp only [hv] at h
    split_ifs at h with hne hp
    rw [not_or] at hne
    cases hn : x.2.parseUint 16
    case none => simp [hn] at hp
    case some n =>
      refine ⟨x.1, x.2, n, rfl, hne.1, hne.2, hn, ?_⟩
      simpa [hn] using hp

theorem parseInt_of_parseUint {port : GoString} (h : port.parseUint 16 = some n) :
    port.parseInt 32 = some (n : Int) ∧ n ≤ 65535 := by
  have hl := GoString.lt_of_parseUint h
  rw [GoString.parseInt_of_isDigit (GoString.isDigit_of_parseUint h), GoString.parseUint_mono h (by decide)]
  have hn : n < 2 ^ 31 := hl.trans (by decide)
  exact ⟨by simpa using hn, by omega⟩

theorem respAdapter_of_validateExternalEndpoint {binding : Binding} {endpoint : GoString}
    (h : validateExternalEndpoint lib provider endpoint = .ok ()) (he : binding.endpoint = endpoint.trimSpace)
    (hp : binding.protocol = .resp) (ht : binding.redis.bind (·.tls) = none)
    (hd : binding.redis.bind (·.database) = none) :
    ∃ host port n, endpoint.trimSpace.splitHostPort = some (host, port) ∧ port.parseUint 16 = some n ∧
      respAdapter lib binding = .ok ⟨host, n⟩ := by
  have ⟨host, port, n, hs, hh, hpne, hn, hn0⟩ := parts_of_validateExternalEndpoint h
  have ⟨_, hsp, _⟩ := of_validateExternalEndpoint h
  have ⟨hi, hle⟩ := parseInt_of_parseUint hn
  refine ⟨host, port, n, hs, hn, ?_⟩
  simp [respAdapter, hp, ht, hd, he, GoString.trimSpace_of_no_space hsp,
    splitLMCacheHostPort_of_splitHostPort hs hh, hh, hpne, hi, hn0, hle]

end Endpoint

section Server

variable {env : Environment}

structure Served (image : GoString) (port : Int) (l1Capacity : Quantity) : Prop where
  image      : image.trimSpace ≠ []
  port       : 1 ≤ port ∧ port ≤ 65535
  l1Capacity : 0 < l1Capacity.amount

theorem image_of_validateDigestPinnedImage (h : validateDigestPinnedImage image path msg = []) :
    image.trimSpace ≠ [] := by
  intro he
  simp [validateDigestPinnedImage, he] at h

theorem port_of_checkPort (h : checkPort port path reservedPorts = []) :
    (1 ≤ port ∧ port ≤ 65535) ∧ reservedPorts.lookup port = none := by
  simp only [checkPort] at h
  split_ifs at h with hr
  refine ⟨by omega, ?_⟩
  cases hl : reservedPorts.lookup port
  case none => rfl
  case some => simp [hl] at h

theorem served_of_validateMPServer
    (h : validateMPServer env image port l1Capacity resources path reservedPorts = []) :
    Served image port l1Capacity ∧ reservedPorts.lookup port = none := by
  simp only [validateMPServer, List.append_eq_nil_iff] at h
  obtain ⟨⟨⟨⟨⟨himage, hport⟩, hl1⟩, _⟩, _⟩, _⟩ := h
  have ⟨hport, hreserved⟩ := port_of_checkPort hport
  refine ⟨⟨image_of_validateDigestPinnedImage himage, hport, ?_⟩, hreserved⟩
  split_ifs at hl1 with hle
  exact not_le.mp hle

theorem one_le_of_atLeastOne (h : atLeastOne n path = []) : 1 ≤ n := by
  simp only [atLeastOne] at h
  split_ifs at h with hn
  omega

theorem one_le_effectiveLMCacheChunkSize {lm : LMCacheEngine} (h : ∀ n ∈ lm.chunkSizeTokens, 1 ≤ n) :
    1 ≤ effectiveLMCacheChunkSize lm := by
  rw [effectiveLMCacheChunkSize]
  cases hc : lm.chunkSizeTokens
  case none => decide
  case some n => exact h n hc

theorem validateLMCacheMPServerConfig_eq_ok {cfg : LMCacheMPServerConfig}
    (hs : Served cfg.image cfg.port cfg.l1Capacity) (hp : cfg.port ≠ lmCacheMPHTTPPort)
    (hc : 1 ≤ cfg.chunkSizeTokens) (hw : 1 ≤ cfg.maxWorkers) : validateLMCacheMPServerConfig cfg = .ok () := by
  have ⟨hl, hu⟩ := hs.port
  rw [validateLMCacheMPServerConfig, if_neg hs.image, if_neg (by omega), if_neg hp, if_neg (by omega),
    if_neg (not_le.mpr hs.l1Capacity), if_neg (by omega)]

theorem config_of_validatePodLocalServer {lm : LMCacheEngine} {server : PodLocalServer}
    (h : validatePodLocalServer env server path = []) (hc : ∀ n ∈ lm.chunkSizeTokens, 1 ≤ n) :
    validateLMCacheMPServerConfig (PodLocalServer.config lm server binding w) = .ok () := by
  rw [validatePodLocalServer, List.append_eq_nil_iff] at h
  have ⟨hs, hreserved⟩ := served_of_validateMPServer h.1
  have hport : server.port ≠ lmCacheMPHTTPPort := by
    intro he
    rw [he] at hreserved
    cases hreserved
  apply validateLMCacheMPServerConfig_eq_ok
  case hs => exact hs
  case hp => exact hport
  case hc => exact one_le_effectiveLMCacheChunkSize hc
  case hw => exact one_le_of_atLeastOne h.2

theorem ports_of_distinctPorts (h : distinctPorts path [] [(name, port), (name', port')] = [])
    (hp : 1 ≤ port ∧ port ≤ 65535) : (1 ≤ port' ∧ port' ≤ 65535) ∧ port ≠ port' := by
  have hr : ¬(port < 1 ∨ 65535 < port) := by omega
  simp only [distinctPorts, if_neg hr, List.lookup_nil] at h
  split_ifs at h with hp'
  refine ⟨by omega, ?_⟩
  rintro rfl
  simp at h

theorem config_of_validateNodeLocalServer {lm : LMCacheEngine} {server : NodeLocalServer}
    (h : validateNodeLocalServer env server path = []) (hc : ∀ n ∈ lm.chunkSizeTokens, 1 ≤ n) :
    validateLMCacheNodeLocalServerConfig server (effectiveLMCacheChunkSize lm) = .ok () := by
  simp only [validateNodeLocalServer, List.append_eq_nil_iff] at h
  obtain ⟨⟨⟨⟨⟨hs, hgpu⟩, hcpu⟩, hports⟩, _⟩, _⟩ := h
  have ⟨hs, _⟩ := served_of_validateMPServer hs
  have ⟨⟨hhl, hhu⟩, hne⟩ := ports_of_distinctPorts hports hs.port
  have hchunk := one_le_effectiveLMCacheChunkSize hc
  have hgpu := one_le_of_atLeastOne hgpu
  have hcpu := one_le_of_atLeastOne hcpu
  have ⟨hl, hu⟩ := hs.port
  have hl1 := not_le.mpr hs.l1Capacity
  simp only [validateLMCacheNodeLocalServerConfig]
  rw [if_neg hs.image, if_neg (by omega), if_neg (by omega), if_neg hne, if_neg]
  rintro (h | h | h | h)
  case inl => omega
  case inr.inl => exact hl1 h
  case inr.inr.inl => omega
  case inr.inr.inr => omega

theorem server_of_requireServerBlock {validate : S → GoString → List FieldError}
    (h : requireServerBlock block server name topology validate = []) :
    ∃ s path, server = some s ∧ validate s path = [] := by
  simp only [requireServerBlock] at h
  split_ifs at h
  cases server
  case none => cases h
  case some s => exact ⟨s, _, rfl, h⟩

-- What a renderer makes of the server of an accepted object.
def Configured (lm : LMCacheEngine) : Prop :=
  match lm.topology with
  | .unset     => False
  | .podLocal  => ∃ server, lm.podLocal = some server ∧
    ∀ binding w, validateLMCacheMPServerConfig (PodLocalServer.config lm server binding w) = .ok ()
  | .nodeLocal => ∃ server, lm.nodeLocal = some server ∧
    validateLMCacheNodeLocalServerConfig server (effectiveLMCacheChunkSize lm) = .ok ()

theorem configured_of_validateTopology {lm : LMCacheEngine} (h : validateTopology env cb lm = [])
    (hc : ∀ n ∈ lm.chunkSizeTokens, 1 ≤ n) : Configured lm := by
  simp only [validateTopology] at h
  simp only [Configured]
  cases ht : lm.topology
  case unset => simp [ht] at h
  case podLocal =>
    simp only [ht, List.append_eq_nil_iff] at h
    obtain ⟨server, _, hs, hv⟩ := server_of_requireServerBlock h.1
    exact ⟨server, hs, fun _ _ => config_of_validatePodLocalServer hv hc⟩
  case nodeLocal =>
    simp only [ht, List.append_eq_nil_iff] at h
    obtain ⟨server, _, hs, hv⟩ := server_of_requireServerBlock h.1.1
    exact ⟨server, hs, config_of_validateNodeLocalServer (List.append_eq_nil_iff.mp hv).1 hc⟩

theorem effectiveCacheType_of_validateCacheHierarchy {cb : Api.CacheBackend}
    (h : validateCacheHierarchy lib cb = []) (hl : cb.spec.rest.lmCache = some lm) :
    cb.spec.rest.effectiveCacheType = .lmCache := by
  simp only [validateCacheHierarchy, List.append_eq_nil_iff, hl] at h
  by_contra hn
  simp [hn] at h

theorem validateTopology_of_validateLMCacheTopology {cb : Submission} (h : validateLMCacheTopology env cb = [])
    (he : cb.spec.rest.effectiveCacheType = .lmCache) (hl : cb.spec.rest.lmCache = some lm) :
    validateTopology env cb lm = [] := by
  simp only [validateLMCacheTopology, he, hl] at h
  simp only [ne_eq, not_true_eq_false, if_false, Option.isSome_some, if_true] at h
  split_ifs at h
  exact h

end Server

section Redis

variable {env : Environment}

theorem binding_of_rejectUnimplemented (protocol : Protocol) (endpoint : GoString) {cb : Submission}
    (h : rejectUnimplementedRedisBindingFeatures env cb = [])
    (hs : cb.spec.rest.remoteStorage = some s) :
    ∃ binding, bindingFor (some s) protocol endpoint = some binding ∧ binding.protocol = protocol ∧
      binding.endpoint = endpoint ∧ binding.redis.bind (·.tls) = none ∧ binding.redis.bind (·.database) = none := by
  refine ⟨_, rfl, rfl, rfl, ?_⟩
  simp only [rejectUnimplementedRedisBindingFeatures, hs] at h
  cases hr : s.redis
  case none => simp [hr]
  case some r =>
    simp only [hr, List.append_eq_nil_iff, ite_eq_right_iff, reduceCtorEq, imp_false, Bool.not_eq_true,
      Option.isSome_eq_false_iff, Option.isNone_iff_eq_none] at h
    by_cases hp : s.provider = .redis <;> simp [hp, hr, h]

theorem renderLMCacheMPL2Binding_eq_ok {lib : Adapters.Library} {binding : Binding}
    (h : respAdapter lib binding = .ok a) :
    renderLMCacheMPL2Binding lib (some binding) = .ok (a.marshal lib, bindingEnv binding) := by
  simp [renderLMCacheMPL2Binding, h]

theorem vars_of_renderLMCacheMPL2Binding {lib : Adapters.Library} {binding : Binding}
    (h : renderLMCacheMPL2Binding lib (some binding) = .ok (arg, vars)) : vars = bindingEnv binding := by
  simp only [renderLMCacheMPL2Binding, Except.bind_eq_ok, Except.pure_eq_ok, Prod.mk.injEq] at h
  obtain ⟨_, _, _, h⟩ := h
  exact h.symm

theorem admitted_is_renderable (env : Environment) (v : Validator Declaration) (read : Reader Declaration)
    (cb : Submission) (s : RemoteStorage) (lm : LMCacheEngine)
    (hh : (fun cb : Submission => validateCacheHierarchy env.lib cb.backend) ∈ v.otherRules)
    (ht : validateLMCacheTopology env ∈ v.otherRules)
    (hr : rejectUnimplementedRedisBindingFeatures env ∈ v.otherRules)
    (ha : (v.setup read).validateCreate cb = .ok ())
    (hs : cb.spec.rest.remoteStorage = some s) (ho : s.ownership = .external)
    (hl : cb.spec.rest.lmCache = some lm) (hc : ∀ n ∈ lm.chunkSizeTokens, 1 ≤ n) :
    Configured lm ∧
    ∃ host port n binding, s.endpoint.trimSpace.splitHostPort = some (host, port) ∧ port.parseUint 16 = some n ∧
      protocolFor env.lib (some s) = .ok .resp ∧
      bindingFor (some s) .resp (effectiveEndpoint env.lib cb.backend) = some binding ∧
      renderLMCacheMPL2Binding env.lib (some binding) =
        .ok ((⟨host, n⟩ : RESPAdapter).marshal env.lib, bindingEnv binding) := by
  have hh := rule_of_validateCreate ha hh
  have hv := endpoint_of_validateCacheHierarchy hh hs ho
  constructor
  case left =>
    have he := effectiveCacheType_of_validateCacheHierarchy hh hl
    exact configured_of_validateTopology
      (validateTopology_of_validateLMCacheTopology (rule_of_validateCreate ha ht) he hl) hc
  case right =>
    have he : effectiveEndpoint env.lib cb.backend = s.endpoint.trimSpace := by
      have hs' : cb.backend.spec.rest.remoteStorage = some s := hs
      simp [effectiveEndpoint, hs', ho, hv]
    obtain ⟨binding, hb, hp, hend, htls, hdb⟩ :=
      binding_of_rejectUnimplemented .resp s.endpoint.trimSpace (rule_of_validateCreate ha hr) hs
    obtain ⟨host, port, n, hsplit, hn, hresp⟩ := respAdapter_of_validateExternalEndpoint hv hend hp htls hdb
    obtain ⟨hredis, _⟩ := of_validateExternalEndpoint hv
    refine ⟨host, port, n, binding, hsplit, hn, by simp [protocolFor, hredis], he ▸ hb, ?_⟩
    exact renderLMCacheMPL2Binding_eq_ok hresp

theorem validateCreate_creds :
    (renderingValidator.setup fun _ => .ok []).validateCreate (submitted (password (utf8 "creds"))) = .ok () := by
  decide +kernel

theorem admitted_is_renderable_bracketed :
    (renderingValidator.setup fun _ => .ok []).validateCreate (submitted (password (utf8 "creds"))) = .ok () ∧
    ∃ binding, renderLMCacheMPL2Binding .plain (some binding) =
      .ok ((⟨utf8 "::1", 6379⟩ : RESPAdapter).marshal .plain, bindingEnv binding) := by
  have ⟨hs, hn⟩ : (utf8 " [::1]:6379").trimSpace.splitHostPort = some (utf8 "::1", utf8 "6379") ∧
      (utf8 "6379").parseUint 16 = some 6379 := by
    decide +kernel
  have ⟨_, host, port, n, binding, hsplit, hparse, _, _, hrender⟩ :=
    admitted_is_renderable plainEnvironment renderingValidator (fun _ => .ok []) (submitted (password (utf8 "creds")))
      (redisStorage (password (utf8 "creds"))) _ (.head _) (.tail _ (.head _)) (.tail _ (.tail _ (.head _)))
      validateCreate_creds rfl rfl rfl nofun
  cases hs.symm.trans hsplit
  cases hn.symm.trans hparse
  exact ⟨validateCreate_creds, binding, hrender⟩

end Redis

section Secrets

variable {env : Environment}

def secretRefs (vars : List EnvVar) : List KeySelector :=
  vars.filterMap fun e => e.valueFrom.bind (·.secretKeyRef)

def Apimachinery.Accepts (api : Apimachinery) (ref : KeySelector) : Prop :=
  api.isDNS1123Subdomain ref.name = [] ∧ api.isConfigMapKey ref.key = []

def selectors (auth : RedisAuthentication) : List KeySelector :=
  auth.username.toList ++ [auth.password]

def Trimmed (ref : KeySelector) : Prop :=
  ref.name.trimSpace = ref.name ∧ ref.key.trimSpace = ref.key

theorem secretRefs_bindingEnv {binding : Binding} (h : binding.redis.bind (·.authentication) = some auth) :
    secretRefs (bindingEnv binding) = selectors auth := by
  rw [bindingEnv, h]
  cases hu : auth.username <;> simp [secretRefs, selectors, EnvVar.ofSecret, hu]

-- No character of a valid name or key is part of any white space.
theorem spaces_apart : (∀ sp ∈ GoString.spaces, ∃ c ∈ sp, ¬isSubdomainChar c = true) ∧
    ∀ sp ∈ GoString.spaces, ∃ c ∈ sp, ¬isConfigMapKeyChar c = true := by
  decide +kernel

theorem Apimachinery.Accepts.trimmed {api : Apimachinery} (h : api.Accepts ref) : Trimmed ref := by
  constructor
  case left => exact GoString.trimSpace_of_chars spaces_apart.1 (api.subdomain_chars _ h.1)
  case right => exact GoString.trimSpace_of_chars spaces_apart.2 (api.configMapKey_chars _ h.2)

theorem problems_of_check (h : validateRedisSecretKeySelector.check value path message problems = []) :
    problems value.trimSpace = [] := by
  simp only [validateRedisSecretKeySelector.check] at h
  split_ifs at h
  cases hp : problems value.trimSpace
  case nil => rfl
  case cons => simp [hp] at h

theorem accepts_of_validateRedisSecretKeySelector (h : validateRedisSecretKeySelector env ref path = [])
    (ht : Trimmed ref) : env.api.Accepts ref := by
  simp only [validateRedisSecretKeySelector, List.append_eq_nil_iff] at h
  obtain ⟨⟨hname, hkey⟩, _⟩ := h
  exact ⟨ht.1 ▸ problems_of_check hname, ht.2 ▸ problems_of_check hkey⟩

theorem selectors_of_checkAuthentication (h : checkAuthentication env d s auth = []) :
    ∀ ref ∈ selectors auth, ∃ path, validateRedisSecretKeySelector env ref path = [] := by
  simp only [checkAuthentication] at h
  split at h
  case isTrue => cases h
  case isFalse =>
    simp only [List.append_eq_nil_iff] at h
    obtain ⟨⟨huser, hpass⟩, _⟩ := h
    simp only [selectors, List.mem_append, Option.mem_toList, List.mem_singleton]
    rintro ref (hu | rfl)
    case inl =>
      simp only [hu] at huser
      exact ⟨_, huser⟩
    case inr => exact ⟨_, hpass⟩

theorem checkAuthentication_of_rejectUnimplemented {cb : Submission}
    (h : rejectUnimplementedRedisBindingFeatures env cb = []) (hs : cb.spec.rest.remoteStorage = some s)
    (hr : s.redis = some redis) (ha : redis.authentication = some auth) :
    checkAuthentication env cb.spec.rest.toDetails s auth = [] := by
  simp only [rejectUnimplementedRedisBindingFeatures, hs, hr, ha, List.append_eq_nil_iff] at h
  exact h.1.1

theorem provider_of_validateCacheHierarchy {lib : Adapters.Library} {cb : Api.CacheBackend}
    (h : validateCacheHierarchy lib cb = []) (hs : cb.spec.rest.remoteStorage = some s) : s.provider = .redis := by
  simp only [validateCacheHierarchy, hs, List.append_eq_nil_iff] at h
  obtain ⟨_, ⟨⟨hp, _⟩, _⟩, _⟩ := h
  cases hq : s.provider
  case unset => simp [hq] at hp
  case redis => rfl

theorem validateExternalEndpoint_plain (lib : Adapters.Library) :
    validateExternalEndpoint lib .redis (utf8 "redis:6379") = .ok () := by
  obtain ⟨ht, hne, hscheme, hspace, hsplit, hh, hn⟩ : (utf8 "redis:6379").trimSpace = utf8 "redis:6379" ∧
      utf8 "redis:6379" ≠ [] ∧ (utf8 "redis:6379").contains (utf8 "://") = false ∧
      (utf8 "redis:6379").containsSpaceOrControl = false ∧
      (utf8 "redis:6379").splitHostPort = some (utf8 "redis", utf8 "6379") ∧
      ¬(utf8 "redis" = [] ∨ utf8 "6379" = []) ∧ (utf8 "6379").parseUint 16 = some 6379 := by
    decide +kernel
  simp [validateExternalEndpoint, ht, hne, hscheme, hspace, hsplit, hh, hn]

theorem rendered_secrets_are_valid_iff (env : Environment) (v : Validator Declaration) (read : Reader Declaration)
    (cb : Submission) (s : RemoteStorage) (redis : Redis) (auth : RedisAuthentication)
    (hh : (fun cb : Submission => validateCacheHierarchy env.lib cb.backend) ∈ v.otherRules)
    (hr : rejectUnimplementedRedisBindingFeatures env ∈ v.otherRules)
    (ha : (v.setup read).validateCreate cb = .ok ()) (hs : cb.spec.rest.remoteStorage = some s)
    (hredis : s.redis = some redis) (hauth : redis.authentication = some auth) :
    (∀ endpoint arg vars,
      renderLMCacheMPL2Binding env.lib (bindingFor (some s) .resp endpoint) = .ok (arg, vars) →
        ∀ ref ∈ secretRefs vars, env.api.Accepts ref) ↔
      ∀ ref ∈ selectors auth, Trimmed ref := by
  have hrej := rule_of_validateCreate ha hr
  have hh := rule_of_validateCreate ha hh
  have hp := provider_of_validateCacheHierarchy hh hs
  have hrefs {endpoint : GoString} {binding : Binding} (hb : bindingFor (some s) .resp endpoint = some binding) :
      secretRefs (bindingEnv binding) = selectors auth := by
    cases hb
    apply secretRefs_bindingEnv
    simp [hp, hredis, hauth]
  constructor
  case mp =>
    intro h ref href
    have ⟨binding, hb, hproto, hend, htls, hdb⟩ :=
      binding_of_rejectUnimplemented .resp (utf8 "redis:6379").trimSpace hrej hs
    have ⟨_, _, _, _, _, hresp⟩ := respAdapter_of_validateExternalEndpoint
      (validateExternalEndpoint_plain env.lib) hend hproto htls hdb
    have hrender := renderLMCacheMPL2Binding_eq_ok hresp
    rw [← hb] at hrender
    exact (h _ _ _ hrender ref (hrefs hb ▸ href)).trimmed
  case mpr =>
    intro ht endpoint arg vars hrender ref href
    cases hb : bindingFor (some s) .resp endpoint
    case none => cases hb
    case some binding =>
      rw [hb] at hrender
      rw [vars_of_renderLMCacheMPL2Binding hrender, hrefs hb] at href
      have ⟨_, hv⟩ := selectors_of_checkAuthentication
        (checkAuthentication_of_rejectUnimplemented hrej hs hredis hauth) ref href
      exact accepts_of_validateRedisSecretKeySelector hv (ht ref href)

theorem rendered_secrets_are_valid_creds :
    (renderingValidator.setup fun _ => .ok []).validateCreate (submitted (password (utf8 "creds"))) = .ok () ∧
    ∀ endpoint arg vars,
      renderLMCacheMPL2Binding .plain (bindingFor (some (redisStorage (password (utf8 "creds")))) .resp endpoint) =
        .ok (arg, vars) → ∀ ref ∈ secretRefs vars, plainApimachinery.Accepts ref := by
  refine ⟨validateCreate_creds, ?_⟩
  apply (rendered_secrets_are_valid_iff plainEnvironment renderingValidator (fun _ => .ok [])
    (submitted (password (utf8 "creds"))) (redisStorage (password (utf8 "creds"))) _ _ (.head _)
    (.tail _ (.tail _ (.head _))) validateCreate_creds rfl rfl rfl).mpr
  intro ref href
  cases List.mem_singleton.mp href
  show (utf8 "creds").trimSpace = utf8 "creds" ∧ (utf8 "password").trimSpace = utf8 "password"
  decide +kernel

-- The space before the name is there again in what is rendered.
theorem spaced_secret_is_rendered :
    (renderingValidator.setup fun _ => .ok []).validateCreate (submitted (password (utf8 " creds"))) = .ok () ∧
    ∃ arg vars,
      renderLMCacheMPL2Binding .plain
        (bindingFor (some (redisStorage (password (utf8 " creds")))) .resp (utf8 "[::1]:6379")) = .ok (arg, vars) ∧
      ∃ ref ∈ secretRefs vars, ref.name = utf8 " creds" ∧ plainApimachinery.isDNS1123Subdomain ref.name ≠ [] := by
  refine ⟨by decide +kernel, (⟨utf8 "::1", 6379⟩ : RESPAdapter).marshal .plain,
    [.ofSecret lmCacheRESPPasswordEnv ⟨utf8 " creds", utf8 "password", none⟩], by decide +kernel, ?_⟩
  exact ⟨⟨utf8 " creds", utf8 "password", none⟩, by decide +kernel, rfl, by decide +kernel⟩

end Secrets

end InferenceCache.Webhook
