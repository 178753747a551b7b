import InferenceCache.Webhook.Theorems.Storage

namespace InferenceCache.Webhook

variable {S V : Type} {v : Validator S} {old new cb : CacheBackend S}

section Update

theorem mem_of_filterIntroducedErrors (h : filterIntroducedErrors oldErrs newErrs = []) :
    ∀ e ∈ newErrs, e ∈ oldErrs := by
  intro e he
  by_contra hn
  have hf : e ∈ filterIntroducedErrors oldErrs newErrs := by simp [filterIntroducedErrors, he, hn]
  rw [h] at hf
  cases hf

-- Whatever is wrong with an accepted object was wrong with the one before it, in the same words.
theorem mem_of_validateUpdate (h : v.validateUpdate old new = .ok ()) :
    ∀ e ∈ v.collectErrors new, e ∈ v.collectErrors old := by
  simp only [Validator.validateUpdate] at h
  split at h
  case h_1 => cases h
  case h_2 =>
    split at h
    case isTrue hn =>
      rw [List.length_eq_zero_iff.mp hn.1]
      nofun
    case isFalse =>
      split at h
      case isFalse => cases h
      case isTrue hi =>
        have hi := List.append_eq_nil_iff.mp (List.length_eq_zero_iff.mp hi)
        exact mem_of_filterIntroducedErrors (List.append_eq_nil_iff.mp hi.1).1

end Update

-- Objects that have a violation in common have the same value in the field that it is about.
def Validator.Reveals (v : Validator S) (valueAt : CacheBackend S → GoString → V) (e : FieldError) : Prop :=
  ∀ cb cb', e ∈ v.collectErrors cb → e ∈ v.collectErrors cb' → valueAt cb e.field = valueAt cb' e.field

section

def endpointAt (cb : Api.CacheBackend) (field : GoString) : Option GoString :=
  if field = endpointPath then cb.spec.rest.remoteStorage.map (·.endpoint) else none

end

end InferenceCache.Webhook
