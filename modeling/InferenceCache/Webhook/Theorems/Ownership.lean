import InferenceCache.Lib.Runs
import InferenceCache.Webhook.PodInjector

namespace InferenceCache.Webhook

variable {S : Type} {v : Validator S} {lib : Library} {store store' : Store S} {order : RangeOrder ObjectKey}
variable {cb : CacheBackend S} {ns : GoString} {read : Reader S} {siblings : List (CacheBackend S)}

section Listing

theorem mem_list : cb ∈ store.list order ns ↔
    cb.key.inNamespace = ns ∧ store.lookup cb.key = some cb.spec := by
  simp only [Store.list, List.mem_map, List.mem_filter, RangeOrder.mem_range, decide_eq_true_eq]
  constructor
  case mp => exact fun ⟨_, ⟨hl, hn⟩, he⟩ => he ▸ ⟨hn, hl⟩
  case mpr => exact fun ⟨hn, hl⟩ => ⟨(cb.key, cb.spec), ⟨hl, hn⟩, rfl⟩

theorem nodup_list : (store.list order ns).Nodup := by
  refine (RangeOrder.range_nodup.filter _).map fun x y he => ?_
  rw [CacheBackend.mk.injEq] at he
  exact Prod.ext he.1 he.2

end Listing

section Accepted

-- The validator accepts an object as far as it concerns the ownership of engines.
structure Accepts (v : Validator S) (cb : CacheBackend S) : Prop where
  domain  : validateEngineSelectorDomain v.library cb = []
  overlap : v.checkOverlappingEngineSelectors cb = .ok []

theorem domain_of_collectErrors (h : (v.setup read).collectErrors cb = []) :
    validateEngineSelectorDomain v.library cb = [] := by
  have he : (v.setup read).defaultValidationRules.flatMap (· cb) = [] :=
    (List.append_eq_nil_iff.mp (List.append_eq_nil_iff.mp h).1).1
  exact List.flatMap_eq_nil_iff.mp he _ (.head _)

theorem accepts_of_validateCreate (h : (v.setup read).validateCreate cb = .ok ()) :
    Accepts (v.setup read) cb := by
  unfold Validator.validateCreate at h
  cases ho : (v.setup read).checkOverlappingEngineSelectors cb
  case error => simp only [ho] at h; cases h
  case ok errs =>
    simp only [ho, Validator.invalidCacheBackend] at h
    split at h
    case isFalse => cases h
    case isTrue hl =>
      have ⟨hd, he⟩ := List.append_eq_nil_iff.mp (List.length_eq_zero_iff.mp hl)
      exact ⟨domain_of_collectErrors hd, he ▸ ho⟩

theorem filterIntroducedErrors_nil {errs : List FieldError} : filterIntroducedErrors [] errs = errs := by
  simp [filterIntroducedErrors]

-- Whatever was wrong with the old object.
theorem accepts_of_validateUpdate {old : CacheBackend S}
    (h : (v.setup read).validateUpdate old cb = .ok ()) : Accepts (v.setup read) cb := by
  unfold Validator.validateUpdate at h
  cases ho : (v.setup read).checkOverlappingEngineSelectors cb
  case error => simp only [ho] at h; cases h
  case ok errs =>
    simp only [ho] at h
    split at h
    case isTrue hl =>
      have hd := List.length_eq_zero_iff.mp hl.1
      exact ⟨domain_of_collectErrors hd, List.length_eq_zero_iff.mp hl.2 ▸ ho⟩
    case isFalse =>
      split at h
      case isFalse => cases h
      case isTrue hl =>
        have ⟨hi, he⟩ := List.append_eq_nil_iff.mp (List.length_eq_zero_iff.mp hl)
        have ⟨hi, hd⟩ := List.append_eq_nil_iff.mp hi
        rw [hi, filterIntroducedErrors_nil] at hd
        exact ⟨hd, he ▸ ho⟩

theorem domain_ne_nil (h : validateEngineSelectorDomain lib cb = []) (hl : cb.spec.matchLabels.len ≠ 0) :
    cb.spec.domain ≠ [] := by
  unfold validateEngineSelectorDomain at h
  rw [if_neg hl] at h
  unfold Spec.domain
  cases hd : cb.spec.matchLabels.lookup cacheBackendDomainLabel
  case none => simp only [hd] at h; cases h
  case some domain =>
    simp only [hd] at h
    split at h
    case isTrue => cases h
    case isFalse hn => exact hn

theorem ne_domain_of_firstOverlap (h : firstOverlap lib cb siblings = []) (hd : cb.spec.domain ≠ []) :
    ∀ other ∈ siblings, other.key.name ≠ cb.key.name → other.spec.matchLabels.len ≠ 0 →
      cb.spec.domain ≠ other.spec.domain := by
  induction siblings
  case nil => intro other hm; cases hm
  case cons x siblings hi =>
    unfold firstOverlap at h
    intro other hm hn hl
    split at h
    case isTrue hs =>
      cases hm
      case head => exact absurd hs (not_or.mpr ⟨hn, hl⟩)
      case tail hm => exact hi h other hm hn hl
    case isFalse =>
      split at h
      case isTrue => cases h
      case isFalse he =>
        cases hm
        case head => exact fun hx => he ⟨hd, hx⟩
        case tail hm => exact hi h other hm hn hl

-- No other object of the namespace has the domain of one that is accepted.
theorem Accepts.ne_domain (h : Accepts (v.setup fun ns => .ok (store.list order ns)) cb)
    (hl : cb.spec.matchLabels.len ≠ 0) {key : ObjectKey} {s : Spec S} (hs : store.lookup key = some s)
    (hk : key ≠ cb.key) (hn : key.inNamespace = cb.key.inNamespace) (hl' : s.matchLabels.len ≠ 0) :
    cb.spec.domain ≠ s.domain := by
  have ho := h.overlap
  simp only [Validator.checkOverlappingEngineSelectors, if_neg hl, Validator.setup, Except.ok.injEq] at ho
  have hm : ⟨key, s⟩ ∈ sortSlice lessByName (store.list order cb.key.inNamespace) :=
    sortSlice_perm.mem_iff.mpr <| mem_list.mpr ⟨hn, hs⟩
  refine ne_domain_of_firstOverlap ho (domain_ne_nil h.domain hl) ⟨key, s⟩ hm (fun he => hk ?_) hl'
  cases key
  exact ObjectKey.mk.injEq .. ▸ ⟨hn, he⟩

end Accepted

section Claims

variable {labels : GoMap GoString GoString}

-- A pod that is claimed has the domain as the value of the one label that selectors are about.
theorem lookup_of_claims (hc : cb.claims labels) (hd : cb.spec.domain ≠ []) :
    labels.lookup cacheBackendDomainLabel = some cb.spec.domain := by
  unfold Spec.domain at hd ⊢
  cases hl : cb.spec.matchLabels.lookup cacheBackendDomainLabel
  case none => exact absurd (congrArg (Option.getD · []) hl) hd
  case some domain =>
    have hm := of_decide_eq_true (of_decide_eq_true hc).2 _ (Finmap.mem_keys_of_lookup hl)
    exact hm.trans hl

theorem eq_nil_or_singleton {l : List (CacheBackend S)} (hn : l.Nodup)
    (h : ∀ cb ∈ l, ∀ cb' ∈ l, cb = cb') : l = [] ∨ ∃ cb, l = [cb] := by
  match l with
  | [] => exact .inl rfl
  | [cb] => exact .inr ⟨cb, rfl⟩
  | cb :: cb' :: l =>
    have he := h cb (.head _) cb' (.tail _ (.head _))
    exact absurd (he ▸ .head _) (List.nodup_cons.mp hn).1

theorem selectCacheBackend_of_unique (pod : Pod)
    (h : ∀ cb ∈ store.list order pod.inNamespace, ∀ cb' ∈ store.list order pod.inNamespace,
      cb.claims pod.labels → cb'.claims pod.labels → cb = cb') :
    ∃ owner, selectCacheBackend (fun ns => .ok (store.list order ns)) pod = .ok owner ∧
      ∀ cb, owner = some cb ↔ cb ∈ store.list order pod.inNamespace ∧ cb.claims pod.labels := by
  unfold selectCacheBackend
  dsimp only
  generalize hf : (sortSlice lessByName (store.list order pod.inNamespace)).filter
    (·.claims pod.labels) = found
  have hm : ∀ cb, cb ∈ found ↔ cb ∈ store.list order pod.inNamespace ∧ cb.claims pod.labels := by
    intro cb
    rw [← hf, List.mem_filter, sortSlice_perm.mem_iff]
  have hn : found.Nodup := hf ▸ (sortSlice_perm.nodup_iff.mpr nodup_list).filter _
  have hu : ∀ cb ∈ found, ∀ cb' ∈ found, cb = cb' := fun cb hc cb' hc' =>
    h cb ((hm cb).mp hc).1 cb' ((hm cb').mp hc').1 ((hm cb).mp hc).2 ((hm cb').mp hc').2
  cases eq_nil_or_singleton hn hu
  case inl he =>
    subst he
    exact ⟨none, rfl, fun cb => by simp [← hm]⟩
  case inr he =>
    obtain ⟨cb, rfl⟩ := he
    exact ⟨some cb, rfl, fun cb' => by rw [← hm, List.mem_singleton, Option.some_inj, eq_comm]⟩

end Claims

section Owned

-- Every selector of a namespace has a domain, and no two have the same.
structure Owned (ns : GoString) (store : Store S) : Prop where
  domain : ∀ key s, store.lookup key = some s → key.inNamespace = ns → s.matchLabels.len ≠ 0 → s.domain ≠ []
  apart  : ∀ key s key' s', store.lookup key = some s → store.lookup key' = some s' →
    key.inNamespace = ns → key'.inNamespace = ns → s.matchLabels.len ≠ 0 → s'.matchLabels.len ≠ 0 →
    s.domain = s'.domain → key = key'

namespace Owned

theorem empty (h : ∀ key ∈ store.keys, key.inNamespace ≠ ns) : Owned ns store where
  domain key _ hs hn := absurd hn <| h key (Finmap.mem_keys_of_lookup hs)
  apart key _ _ _ hs _ hn := absurd hn <| h key (Finmap.mem_keys_of_lookup hs)

theorem erase {key : ObjectKey} (h : Owned ns store) : Owned ns (store.erase key) := by
  have he : ∀ key' s, (store.erase key).lookup key' = some s → store.lookup key' = some s := by
    intro key' s hs
    rw [Finmap.lookup_erase_ite] at hs
    split at hs
    case isTrue => cases hs
    case isFalse => exact hs
  exact {
    domain := fun key s hs => h.domain key s (he key s hs)
    apart := fun key s key' s' hs hs' => h.apart key s key' s' (he key s hs) (he key' s' hs') }

theorem insert (h : Owned ns store) (ha : Accepts (v.setup fun ns => .ok (store.list order ns)) cb) :
    Owned ns (store.insert cb.key cb.spec) := by
  constructor
  case domain =>
    intro key s hs hn hl
    rw [Finmap.lookup_insert_ite] at hs
    split at hs
    case isFalse => exact h.domain key s hs hn hl
    case isTrue =>
      cases hs
      exact domain_ne_nil ha.domain hl
  case apart =>
    intro key s key' s' hs hs' hn hn' hl hl' hd
    rw [Finmap.lookup_insert_ite] at hs hs'
    split at hs <;> split at hs'
    case isTrue.isTrue hk hk' => exact hk.trans hk'.symm
    case isFalse.isFalse => exact h.apart key s key' s' hs hs' hn hn' hl hl' hd
    case isTrue.isFalse hk hk' =>
      cases hs
      exact absurd hd <| ha.ne_domain hl hs' hk' (hn'.trans <| hk ▸ hn.symm) hl'
    case isFalse.isTrue hk hk' =>
      cases hs'
      exact absurd hd.symm <| ha.ne_domain hl' hs hk (hn.trans <| hk' ▸ hn'.symm) hl

theorem admits {c : Change S} (h : Owned ns store) (ha : Admits v store c store') : Owned ns store' := by
  cases ha
  case create ha => exact h.insert (accepts_of_validateCreate ha)
  case update ha => exact h.insert (accepts_of_validateUpdate ha)
  case delete => exact h.erase

-- A pod that two objects claim has the domains of both of them as the value of the same label.
theorem unique {cb' : CacheBackend S} {labels : GoMap GoString GoString} (h : Owned ns store)
    (hm : cb ∈ store.list order ns) (hm' : cb' ∈ store.list order ns) (hc : cb.claims labels)
    (hc' : cb'.claims labels) : cb = cb' := by
  have ⟨hn, hs⟩ := mem_list.mp hm
  have ⟨hn', hs'⟩ := mem_list.mp hm'
  have hl := (of_decide_eq_true hc).1
  have hl' := (of_decide_eq_true hc').1
  have hd := lookup_of_claims hc (h.domain _ _ hs hn hl)
  have hd' := lookup_of_claims hc' (h.domain _ _ hs' hn' hl')
  have hk := h.apart _ _ _ _ hs hs' hn hn' hl hl' (Option.some_injective _ <| hd.symm.trans hd')
  have he : cb.spec = cb'.spec := Option.some_injective _ <| hs.symm.trans <| hk ▸ hs'
  exact (CacheBackend.mk.injEq ..).mpr ⟨hk, he⟩

end Owned

end Owned

theorem ownership_unique (v : Validator S) (ns : GoString) (store store' : Store S) (changes : List (Change S))
    (h0 : ∀ key ∈ store.keys, key.inNamespace ≠ ns) (hr : Runs (Admits v) store changes store')
    (order : RangeOrder ObjectKey) (labels : GoMap GoString GoString) :
    (∀ cb ∈ store'.list order ns, ∀ cb' ∈ store'.list order ns,
      cb.claims labels → cb'.claims labels → cb = cb') ∧
    ∃ owner, selectCacheBackend (fun ns => .ok (store'.list order ns)) ⟨ns, labels⟩ = .ok owner ∧
      ∀ cb, owner = some cb ↔ cb ∈ store'.list order ns ∧ cb.claims labels := by
  have ho : Owned ns store' := Runs.invariant Owned.admits (.empty h0) hr
  have hu : ∀ cb ∈ store'.list order ns, ∀ cb' ∈ store'.list order ns,
      cb.claims labels → cb'.claims labels → cb = cb' := fun _ hm _ hm' => ho.unique hm hm'
  exact ⟨hu, selectCacheBackend_of_unique ⟨ns, labels⟩ hu⟩

section

-- Two objects for one domain each, of which the second takes over the first one's after that is gone.
def lenient : Validator Unit where
  library := ⟨fun _ => [], id⟩
  rules := []
  otherRules := []
  checkRuntimeAdapter := fun _ => []
  checkEngineOverrides := fun _ => []
  reader := none

def backend (name domain : GoString) : CacheBackend Unit :=
  ⟨⟨[0x6e], name⟩, ⟨some ⟨.singleton cacheBackendDomainLabel domain⟩, ()⟩⟩

def handover : List (Change Unit) :=
  [.create (backend [0x61] [0x78]), .create (backend [0x62] [0x79]), .delete ⟨[0x6e], [0x61]⟩,
    .update (backend [0x62] [0x78])]

def created : Store Unit :=
  (((∅ : Store Unit).insert (backend [0x61] [0x78]).key (backend [0x61] [0x78]).spec).insert
    (backend [0x62] [0x79]).key (backend [0x62] [0x79]).spec)

def handedOver : Store Unit :=
  (created.erase ⟨[0x6e], [0x61]⟩).insert (backend [0x62] [0x78]).key (backend [0x62] [0x78]).spec

theorem runs_handover : Runs (Admits lenient) ∅ handover handedOver := by
  refine .cons (.create .ascending rfl (by decide +kernel)) ?_
  refine .cons (.create .ascending (by decide +kernel) (by decide +kernel)) ?_
  refine .cons (.delete rfl rfl) ?_
  exact .cons (.update .ascending rfl (by decide +kernel)) (.nil _)

theorem ownership_unique_handover :
    (∀ cb ∈ handedOver.list .ascending [0x6e], ∀ cb' ∈ handedOver.list .ascending [0x6e],
      cb.claims (.singleton cacheBackendDomainLabel [0x78]) →
      cb'.claims (.singleton cacheBackendDomainLabel [0x78]) → cb = cb') ∧
    ∃ owner, selectCacheBackend (fun ns => .ok (handedOver.list .ascending ns))
        ⟨[0x6e], .singleton cacheBackendDomainLabel [0x78]⟩ = .ok owner ∧
      ∀ cb, owner = some cb ↔ cb ∈ handedOver.list .ascending [0x6e] ∧
        cb.claims (.singleton cacheBackendDomainLabel [0x78]) :=
  ownership_unique lenient [0x6e] ∅ handedOver handover (by simp) runs_handover .ascending
    (.singleton cacheBackendDomainLabel [0x78])

end

end InferenceCache.Webhook
