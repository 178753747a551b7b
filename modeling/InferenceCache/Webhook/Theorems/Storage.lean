import InferenceCache.Adapters.Renderer
import InferenceCache.Webhook.Storage

namespace InferenceCache.Webhook

open Api Adapters

section Characters

def isDNSChar (c : UInt8) : Bool :=
  (0x61 ≤ c ∧ c ≤ 0x7a) ∨ (0x41 ≤ c ∧ c ≤ 0x5a) ∨ (0x30 ≤ c ∧ c ≤ 0x39) ∨ c = 0x2d ∨ c = 0x2e ∨ c = 0x5f

def lower (c : UInt8) : UInt8 :=
  if 0x41 ≤ c ∧ c ≤ 0x5a then c + 0x20 else c

theorem forall_of_lt {P : UInt8 → Prop} (h : ∀ n < 256, P (UInt8.ofNat n)) (c : UInt8) : P c := by
  have hc := h c.toNat c.toNat_lt
  rwa [UInt8.ofNat_toNat] at hc

theorem isDNSChar_spec : ∀ c, isDNSChar c = true →
    c < 0x80 ∧ isDNSChar (lower c) = true ∧ c ∉ utf8 "/?" :=
  forall_of_lt (by decide +kernel)

theorem lt_of_isDNSChar (c : UInt8) (h : isDNSChar c = true) : c < 0x80 :=
  (isDNSChar_spec c h).1

theorem isDNSChar_of_isDigit {c : UInt8} (h : GoString.isDigit c = true) : isDNSChar c = true := by
  simp only [GoString.isDigit, isDNSChar, decide_eq_true_eq] at h ⊢
  exact .inr (.inr (.inl h))

theorem lower_of_isDigit {c : UInt8} (h : GoString.isDigit c = true) : lower c = c := by
  simp only [GoString.isDigit, decide_eq_true_eq] at h
  exact if_neg fun hu => absurd (UInt8.le_trans hu.1 h.2) (by decide)

theorem not_mem_slash_of_isDNSChar (c : UInt8) (h : isDNSChar c = true) : c ∉ utf8 "/?" :=
  (isDNSChar_spec c h).2.2

theorem asciiLower_eq {s : GoString} : s.asciiLower = s.map lower :=
  rfl

end Characters

-- The name `<service>.<ns>.svc`, which may be followed by the domain of the cluster and by a dot, and may
-- be in upper case.
structure InCluster (host ns : GoString) : Prop where
  dns    : ∀ c ∈ host, isDNSChar c = true
  label  : ns ≠ [] ∧ 0x2e ∉ ns
  suffix : ∃ service, ∃ domain ∈ [[], utf8 "." ++ k8sClusterDomain], ∃ dot ∈ [[], utf8 "."],
    host.asciiLower = service ++ 0x2e :: ns ++ utf8 ".svc" ++ domain ++ dot

section Parsers

variable {lib : Adapters.Library} {s : RemoteStorage}

theorem serviceNamespace_svc (hn : ns ≠ []) (hd : 0x2e ∉ ns) :
    serviceNamespace (service ++ 0x2e :: ns ++ utf8 ".svc") = some ns := by
  have hp : (service ++ 0x2e :: ns).splitOn 0x2e = service.splitOn 0x2e ++ [ns] := by
    rw [List.splitOn_append_cons_self, List.splitOn_eq_singleton hd]
  rw [serviceNamespace, if_pos (GoString.hasSuffix_iff.mpr (List.suffix_append ..)),
    GoString.trimSuffix_append, hp]
  cases ns
  case nil => contradiction
  case cons => simp

-- None of the three ends in another one.
theorem suffixes_apart : (¬utf8 "." <:+ utf8 ".svc" ∧ ¬utf8 ".svc" <:+ utf8 ".") ∧
    (¬utf8 "." <:+ utf8 "." ++ k8sClusterDomain ∧ ¬utf8 "." ++ k8sClusterDomain <:+ utf8 ".") ∧
    ¬utf8 "." ++ k8sClusterDomain <:+ utf8 ".svc" ∧ ¬utf8 ".svc" <:+ utf8 "." ++ k8sClusterDomain := by
  decide +kernel

theorem stripClusterDomain_svc (hm : domain ∈ [[], utf8 "." ++ k8sClusterDomain])
    (ht : dot ∈ [[], utf8 "."]) :
    stripClusterDomain (name ++ utf8 ".svc" ++ domain ++ dot) = name ++ utf8 ".svc" := by
  have hd : (name ++ utf8 ".svc" ++ domain ++ dot).trimSuffix (utf8 ".") = name ++ utf8 ".svc" ++ domain := by
    simp only [List.mem_cons, List.not_mem_nil, or_false] at hm ht
    cases ht
    case inr ht => rw [ht, GoString.trimSuffix_append]
    case inl ht =>
      rw [ht, List.append_nil]
      apply GoString.trimSuffix_of_not_suffix
      cases hm
      case inl hm =>
        rw [hm, List.append_nil]
        exact GoString.not_suffix_append suffixes_apart.1.1 suffixes_apart.1.2
      case inr hm => exact hm ▸ GoString.not_suffix_append suffixes_apart.2.1.1 suffixes_apart.2.1.2
  rw [stripClusterDomain, hd]
  simp only [List.mem_cons, List.not_mem_nil, or_false] at hm
  cases hm
  case inr hm => rw [hm, GoString.trimSuffix_append]
  case inl hm =>
    rw [hm, List.append_nil]
    exact GoString.trimSuffix_of_not_suffix
      (GoString.not_suffix_append suffixes_apart.2.2.1 suffixes_apart.2.2.2)

theorem dns_asciiLower (h : ∀ c ∈ host, isDNSChar c = true) :
    ∀ c ∈ GoString.asciiLower host, isDNSChar c = true := by
  intro c hc
  have ⟨b, hb, he⟩ := List.mem_map.mp hc
  exact he ▸ (isDNSChar_spec b (h b hb)).2.1

-- What the rule makes of an address whose host is not in brackets.
theorem serviceDNSNamespace_of_host {endpoint host port : GoString}
    (hv : endpoint.trimSpace = host ++ 0x3a :: port) (hp : ∀ c ∈ port, GoString.isDigit c = true)
    (hi : InCluster host ns) : serviceDNSNamespace lib endpoint = some ns := by
  have hascii : ∀ c ∈ host ++ 0x3a :: port, c < 0x80 := by
    intro c hc
    simp only [List.mem_append, List.mem_cons] at hc
    obtain hc | rfl | hc := hc
    case inl => exact lt_of_isDNSChar c (hi.dns c hc)
    case inr.inl => decide
    case inr.inr => exact lt_of_isDNSChar c (isDNSChar_of_isDigit (hp c hc))
  have hport : port.map lower = port :=
    (List.map_congr_left fun c hc => lower_of_isDigit (hp c hc)).trans (List.map_id port)
  have hlower : lib.toLower (host ++ 0x3a :: port) = host.asciiLower ++ 0x3a :: port := by
    rw [lib.toLower_ascii _ hascii, asciiLower_eq, asciiLower_eq, List.map_append, List.map_cons, hport]
    rfl
  have hhost := dns_asciiLower hi.dns
  have hslash : ∀ c ∈ host.asciiLower ++ 0x3a :: port, c ∉ utf8 "/?" := by
    intro c hc
    simp only [List.mem_append, List.mem_cons] at hc
    obtain hc | rfl | hc := hc
    case inl => exact not_mem_slash_of_isDNSChar c (hhost c hc)
    case inr.inl => decide +kernel
    case inr.inr => exact not_mem_slash_of_isDNSChar c (isDNSChar_of_isDigit (hp c hc))
  have hscheme : (host.asciiLower ++ 0x3a :: port).afterFirst (utf8 "://") = none :=
    GoString.afterFirst_eq_none (c := 0x2f) (by decide +kernel) fun h => hslash _ h (by decide +kernel)
  have hpath : (host.asciiLower ++ 0x3a :: port).takeWhile (· ∉ utf8 "/?") =
      host.asciiLower ++ 0x3a :: port :=
    List.takeWhile_eq_self_iff.mpr fun c hc => by simpa using hslash c hc
  have hcolon : (0x3a : UInt8) ∉ port := fun h => absurd (hp _ h) (by decide)
  have hdot : (0x2e : UInt8) ∉ port := fun h => absurd (hp _ h) (by decide)
  have ⟨service, domain, hm, dot, ht, hs⟩ := hi.suffix
  have hne : host ++ 0x3a :: port ≠ [] := by simp
  simp only [serviceDNSNamespace, hv, if_neg hne, hlower, hscheme, Option.getD_none, hpath,
    GoString.cutLast_append hcolon, if_neg hdot]
  rw [hs, stripClusterDomain_svc hm ht, serviceNamespace_svc hi.label.left hi.label.right]

theorem splitHostPort_of_unbracketed {v : GoString} (h : v.splitHostPort = some (host, port))
    (hb : ¬v.hasPrefix (utf8 "[")) : v = host ++ 0x3a :: port ∧ 0x3a ∉ host ∧ 0x3a ∉ port := by
  simp only [GoString.splitHostPort] at h
  cases hc : v.cutLast 0x3a
  case none => simp [hc] at h
  case some x =>
    simp only [hc, if_neg hb] at h
    split at h
    case isTrue => cases h
    case isFalse hn =>
      cases h
      have ⟨hv, hp⟩ := GoString.eq_of_cutLast hc
      simp only [not_or] at hn
      exact ⟨hv, hn.left, hp⟩

theorem splitHostPort_of_bracketed {v : GoString} (h : v.splitHostPort = some (host, port))
    (hb : v.hasPrefix (utf8 "[")) :
    v = 0x5b :: host ++ utf8 "]:" ++ port ∧ 0x5d ∉ host ∧ 0x3a ∉ port := by
  simp only [GoString.splitHostPort] at h
  cases hl : v.cutLast 0x3a
  case none => simp [hl] at h
  case some x =>
    cases hc : v.cut 0x5d
    case none => simp [hl, hb, hc] at h
    case some y =>
      simp only [hl, if_pos hb, hc] at h
      split at h
      case isFalse => cases h
      case isTrue hx =>
        cases h
        obtain ⟨hv, hp⟩ := GoString.eq_of_cutLast hl
        obtain ⟨hv', hn⟩ := GoString.eq_of_cut hc
        have heq : (y.1 ++ [0x5d]) ++ y.2 = x.1 ++ 0x3a :: x.2 := by
          rw [← hv, hv']
          simp
        obtain ⟨_, htail⟩ := List.append_inj heq (by simpa using hx.1)
        rw [GoString.hasPrefix_iff, hv', GoString.utf8_bracket] at hb
        rw [hv', htail, GoString.utf8_bracket_colon]
        cases hy : y.1
        case nil => simp [hy] at hb
        case cons c inner =>
          simp only [hy, List.cons_append, List.cons_prefix_cons] at hb
          simp only [hy, List.mem_cons, not_or] at hn
          simp [← hb.1, hn.2, hp]

-- An address that was accepted is a host and a port without any space.
theorem of_validateExternalEndpoint {endpoint : GoString}
    (h : validateExternalEndpoint lib provider endpoint = .ok ()) :
    provider = .redis ∧ endpoint.trimSpace.containsSpaceOrControl = false ∧
      ∃ host port, endpoint.trimSpace.splitHostPort = some (host, port) ∧ host ≠ [] ∧
        ∀ c ∈ port, GoString.isDigit c = true := by
  simp only [validateExternalEndpoint] at h
  split at h
  case isTrue => cases h
  case isFalse hr =>
    simp only [not_not] at hr
    split_ifs at h with _ _ hs
    cases hv : endpoint.trimSpace.splitHostPort
    case none => simp [hv] at h
    case some x =>
      simp only [hv] at h
      split_ifs at h with hh hp
      rw [not_or] at hh
      cases hn : x.2.parseUint 16
      case none => simp [hn] at hp
      case some n =>
        exact ⟨hr, by simpa using hs, x.1, x.2, rfl, hh.1, GoString.isDigit_of_parseUint hn⟩

theorem splitLMCacheHostPort_of_host {host port : GoString} (hh : 0x3a ∉ host) (hp : 0x3a ∉ port)
    (hb : ¬(host ++ 0x3a :: port).hasPrefix (utf8 "[")) :
    splitLMCacheHostPort (host ++ 0x3a :: port) = (host, port, true) := by
  have hne : host ++ 0x3a :: port ≠ [] := by simp
  have hc : ¬(host ++ 0x3a :: port).count 0x3a > 1 := by
    simp [List.count_append, List.count_eq_zero_of_not_mem hh, List.count_eq_zero_of_not_mem hp]
  simp only [splitLMCacheHostPort, if_neg hne, if_neg hb, if_neg hc, GoString.cutLast_append hp]

theorem splitLMCacheHostPort_of_brackets {host port : GoString} (hh : host ≠ []) (hn : 0x5d ∉ host)
    (hp : 0x3a ∉ port) : splitLMCacheHostPort (0x5b :: host ++ utf8 "]:" ++ port) = (host, port, true) := by
  have hv : 0x5b :: host ++ utf8 "]:" ++ port = (0x5b :: host) ++ 0x5d :: 0x3a :: port := by
    simp [GoString.utf8_bracket_colon]
  have hc : GoString.cut ((0x5b :: host) ++ 0x5d :: 0x3a :: port) 0x5d = some (0x5b :: host, 0x3a :: port) :=
    GoString.cut_append (by simpa using hn)
  have hb : GoString.hasPrefix ((0x5b :: host) ++ 0x5d :: 0x3a :: port) (utf8 "[") = true := by
    simp [GoString.hasPrefix, GoString.utf8_bracket]
  have hpre : GoString.hasPrefix (0x3a :: port) (utf8 ":") = true := by
    simp [GoString.hasPrefix, GoString.utf8_colon]
  rw [hv, splitLMCacheHostPort, if_neg (by simp), if_pos hb, hc]
  simp [hh, hp, hpre]

-- Both parsers take an address apart in the same way.
theorem splitLMCacheHostPort_of_splitHostPort {v : GoString} (h : v.splitHostPort = some (host, port))
    (hh : host ≠ []) : splitLMCacheHostPort v = (host, port, true) := by
  by_cases hb : v.hasPrefix (utf8 "[")
  case pos =>
    obtain ⟨rfl, hn, hp⟩ := splitHostPort_of_bracketed h hb
    exact splitLMCacheHostPort_of_brackets hh hn hp
  case neg =>
    obtain ⟨rfl, hn, hp⟩ := splitHostPort_of_unbracketed h hb
    exact splitLMCacheHostPort_of_host hn hp hb

theorem host_of_respAdapter {binding : Binding} (h : respAdapter lib binding = .ok a)
    (hs : splitLMCacheHostPort binding.endpoint.trimSpace = (host, port, true)) : a.host = host := by
  simp only [respAdapter, hs] at h
  split_ifs at h
  split at h
  case h_1 => cases h
  case h_2 =>
    split_ifs at h
    cases h
    rfl

theorem host_of_dialed {cb : Api.CacheBackend} (hs : cb.spec.rest.remoteStorage = some s)
    (ho : s.ownership = .external) (hv : validateExternalEndpoint lib s.provider s.endpoint = .ok ())
    (hd : dialed lib cb = some a) :
    ∃ port, s.endpoint.trimSpace.splitHostPort = some (a.host, port) ∧ ∀ c ∈ port, GoString.isDigit c = true := by
  have ⟨hr, hsp, host, port, hsplit, hh, hdigit⟩ := of_validateExternalEndpoint hv
  have he : effectiveEndpoint lib cb = s.endpoint.trimSpace := by
    simp [effectiveEndpoint, hs, ho, hv]
  have ht : splitLMCacheHostPort s.endpoint.trimSpace.trimSpace = (host, port, true) := by
    rw [GoString.trimSpace_of_no_space hsp]
    exact splitLMCacheHostPort_of_splitHostPort hsplit hh
  simp only [dialed, hs, protocolFor, hr, bindingFor, Option.map_some, he] at hd
  split at hd
  case h_2 => cases hd
  case h_1 a' ha' =>
    cases hd
    exact ⟨port, host_of_respAdapter (Option.some.inj ha') ht ▸ hsplit, hdigit⟩

end Parsers

section Accepted

variable {S : Type} {v : Validator S} {read : Reader S}

theorem rule_of_validateCreate {cb : CacheBackend S} {rule : ValidationRule S}
    (h : (v.setup read).validateCreate cb = .ok ()) (hr : rule ∈ v.otherRules) : rule cb = [] := by
  unfold Validator.validateCreate at h
  split at h
  case h_1 => cases h
  case h_2 =>
    simp only [Validator.invalidCacheBackend] at h
    split at h
    case isFalse => cases h
    case isTrue hl =>
      have he := (List.append_eq_nil_iff.mp (List.length_eq_zero_iff.mp hl)).left
      have hd : (v.setup read).defaultValidationRules.flatMap (· cb) = [] :=
        (List.append_eq_nil_iff.mp (List.append_eq_nil_iff.mp he).1).1
      exact List.flatMap_eq_nil_iff.mp hd rule (.tail _ hr)

theorem endpoint_of_validateCacheHierarchy {lib : Adapters.Library} {cb : Api.CacheBackend}
    (h : validateCacheHierarchy lib cb = []) (hs : cb.spec.rest.remoteStorage = some s)
    (ho : s.ownership = .external) : validateExternalEndpoint lib s.provider s.endpoint = .ok () := by
  simp only [validateCacheHierarchy, hs, List.append_eq_nil_iff] at h
  have he := h.2.1.2
  simp only [validateEndpoint, ho, List.append_eq_nil_iff] at he
  have he := he.1
  split_ifs at he
  split at he
  case h_1 hv => exact hv
  case h_2 => cases he

end Accepted

theorem not_mem_bracket_of_dns {host : GoString} (h : ∀ c ∈ host, isDNSChar c = true) : (0x5d : UInt8) ∉ host :=
  fun hn => absurd (h _ hn) (by decide)

-- The rule recognises every name of a service, except for one in brackets.
theorem cross_namespace_needs_opt_in (lib : Adapters.Library) (v : Validator Details)
    (read : Reader Details) (cb : Api.CacheBackend) (s : RemoteStorage) (a : RESPAdapter)
    (hh : validateCacheHierarchy lib ∈ v.otherRules)
    (hc : rejectCrossNamespaceEndpointWithoutOptIn lib ∈ v.otherRules)
    (ha : (v.setup read).validateCreate cb = .ok ()) (hs : cb.spec.rest.remoteStorage = some s)
    (ho : s.ownership = .external) (hx : cb.spec.rest.allowCrossNamespace = false)
    (hd : dialed lib cb = some a) :
    (∀ ns, InCluster a.host ns → ns = cb.key.inNamespace) ↔
      ¬∃ host port ns, s.endpoint.trimSpace = 0x5b :: host ++ utf8 "]:" ++ port ∧ InCluster host ns ∧
        ns ≠ cb.key.inNamespace := by
  have hv := endpoint_of_validateCacheHierarchy (rule_of_validateCreate ha hh) hs ho
  have ⟨port, he, hp⟩ := host_of_dialed hs ho hv hd
  constructor
  case mp =>
    intro h ⟨host, port', ns, he', hi, hn⟩
    have hb : s.endpoint.trimSpace.hasPrefix (utf8 "[") = true := by
      rw [he', GoString.hasPrefix_iff, GoString.utf8_bracket]
      simp
    have ⟨hv, hm, _⟩ := splitHostPort_of_bracketed he hb
    -- No name has a bracket, so that the first closing one ends the host.
    have heq : host ++ 0x5d :: (0x3a :: port') = a.host ++ 0x5d :: (0x3a :: port) := by
      simpa [GoString.utf8_bracket_colon] using he'.symm.trans hv
    have hcut := GoString.cut_append (b := 0x3a :: port') (not_mem_bracket_of_dns hi.dns)
    rw [heq, GoString.cut_append hm] at hcut
    cases hcut
    exact hn (h ns hi)
  case mpr =>
    intro h ns hi
    by_contra hn
    by_cases hb : s.endpoint.trimSpace.hasPrefix (utf8 "[")
    case pos => exact h ⟨a.host, port, ns, (splitHostPort_of_bracketed he hb).1, hi, hn⟩
    case neg =>
      have heq := (splitHostPort_of_unbracketed he hb).1
      have hr := rule_of_validateCreate ha hc
      simp only [rejectCrossNamespaceEndpointWithoutOptIn, hs, serviceDNSNamespace_of_host heq hp hi, hx] at hr
      simp [hn] at hr

section

def storageValidator : Validator Details where
  library := ⟨fun _ => [], id⟩
  rules := []
  otherRules :=
    [validateCacheHierarchy .plain, rejectCrossNamespaceEndpointWithoutOptIn .plain]
  checkRuntimeAdapter := fun _ => []
  checkEngineOverrides := fun _ => []
  reader := none

def externalStorage (endpoint : GoString) : RemoteStorage where
  provider  := .redis
  ownership := .external
  endpoint  := endpoint
  workload  := none
  redis     := none

def externalBackend (endpoint : GoString) : Api.CacheBackend where
  key := ⟨utf8 "team", utf8 "cache"⟩
  spec := {
    engineSelector := none
    rest := {
      uid := utf8 "1"
      generation := 1
      runtime := .vllm
      type := .lmCache
      lmCache := some ⟨.podLocal, none, none, none⟩
      remoteStorage := some (externalStorage endpoint)
      observation := none
      integration := none
      allowCrossNamespace := false
      remoteStorageEndpoint := none
    }
  }

theorem inCluster_team : InCluster (utf8 "Redis.team.svc.cluster.local.") (utf8 "team") := by
  have ⟨hc, hl, hs⟩ : (∀ c ∈ utf8 "Redis.team.svc.cluster.local.", isDNSChar c = true) ∧
      (utf8 "team" ≠ [] ∧ 0x2e ∉ utf8 "team") ∧
      (utf8 "Redis.team.svc.cluster.local.").asciiLower = utf8 "redis" ++ 0x2e :: utf8 "team" ++ utf8 ".svc" ++
        (utf8 "." ++ k8sClusterDomain) ++ utf8 "." := by
    decide +kernel
  exact ⟨hc, hl, utf8 "redis", _, .tail _ (.head _), _, .tail _ (.head _), hs⟩

theorem cross_namespace_needs_opt_in_team :
    (storageValidator.setup fun _ => .ok []).validateCreate
      (externalBackend (utf8 " Redis.team.svc.cluster.local.:6379")) = .ok () ∧
    utf8 "team" = (externalBackend (utf8 " Redis.team.svc.cluster.local.:6379")).key.inNamespace := by
  have hf : (utf8 " Redis.team.svc.cluster.local.:6379").trimSpace.head? ≠ some 0x5b := by decide +kernel
  have hi := cross_namespace_needs_opt_in .plain storageValidator (fun _ => .ok [])
    (externalBackend (utf8 " Redis.team.svc.cluster.local.:6379"))
    (externalStorage (utf8 " Redis.team.svc.cluster.local.:6379"))
    ⟨utf8 "Redis.team.svc.cluster.local.", 6379⟩ (.head _) (.tail _ (.head _))
    (by decide +kernel) rfl rfl rfl (by decide +kernel)
  refine ⟨by decide +kernel, hi.mpr ?_ _ inCluster_team⟩
  rintro ⟨host, port, _, he, _⟩
  exact hf (by rw [show (utf8 " Redis.team.svc.cluster.local.:6379").trimSpace = _ from he]; rfl)

-- The rule takes a host in brackets for an address without a namespace. The renderer removes the
-- brackets.
theorem bracketed_host_crosses_namespace :
    (storageValidator.setup fun _ => .ok []).validateCreate
      (externalBackend (utf8 "[redis.other.svc.cluster.local]:6379")) = .ok () ∧
    dialed .plain (externalBackend (utf8 "[redis.other.svc.cluster.local]:6379")) =
      some ⟨utf8 "redis.other.svc.cluster.local", 6379⟩ ∧
    InCluster (utf8 "redis.other.svc.cluster.local") (utf8 "other") ∧
    utf8 "other" ≠ (externalBackend (utf8 "[redis.other.svc.cluster.local]:6379")).key.inNamespace := by
  refine ⟨by decide +kernel, by decide +kernel, ?_, by decide +kernel⟩
  exact ⟨by decide +kernel, by decide +kernel, utf8 "redis", utf8 "." ++ k8sClusterDomain,
    by decide +kernel, [], by decide +kernel, by decide +kernel⟩

end

end InferenceCache.Webhook
