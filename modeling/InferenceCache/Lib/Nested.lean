import InferenceCache.Lib.GoMap

-- Maps of maps, with the idioms Go code keeps them by: an inner map is made on the first insert and
-- its outer key is dropped together with the last inner entry.
namespace Finmap

variable {A B V : Type} [DecidableEq A] [DecidableEq B]
variable {m m₁ m₂ : GoMap A (GoMap B V)} {a a' : A} {b b' : B} {v : V}

def lookup₂ (m : GoMap A (GoMap B V)) (a : A) (b : B) : Option V :=
  (m.lookup a).bind (·.lookup b)

-- The inner map at `a`, where reading an absent key yields a map without entries.
def inner (m : GoMap A (GoMap B V)) (a : A) : GoMap B V :=
  (m.lookup a).getD ∅

def insert₂ (a : A) (b : B) (v : V) (m : GoMap A (GoMap B V)) : GoMap A (GoMap B V) :=
  m.insert a ((m.inner a).insert b v)

def erase₂ (a : A) (b : B) (m : GoMap A (GoMap B V)) : GoMap A (GoMap B V) :=
  match m.lookup a with
  | none   => m
  | some i => if (i.erase b).len = 0 then m.erase a else m.insert a (i.erase b)

def NoEmpty (m : GoMap A (GoMap B V)) : Prop :=
  ∀ a i, m.lookup a = some i → i ≠ ∅

@[simp]
theorem lookup_inner : (m.inner a).lookup b = m.lookup₂ a b := by
  cases h : m.lookup a <;> simp [inner, lookup₂, h]

@[simp]
theorem lookup₂_empty : lookup₂ (∅ : GoMap A (GoMap B V)) a b = none :=
  rfl

theorem lookup₂_insert₂ :
    (m.insert₂ a b v).lookup₂ a' b' = if a' = a ∧ b' = b then some v else m.lookup₂ a' b' := by
  by_cases ha : a' = a
  case neg => simp [lookup₂, insert₂, ha]
  case pos =>
    subst ha
    simp only [lookup₂, insert₂, lookup_insert, Option.bind_some, lookup_insert_ite, true_and]
    rw [lookup_inner, lookup₂]

theorem lookup₂_erase₂ :
    (m.erase₂ a b).lookup₂ a' b' = if a' = a ∧ b' = b then none else m.lookup₂ a' b' := by
  unfold erase₂
  cases hm : m.lookup a
  case none =>
    dsimp only
    split
    case isFalse => rfl
    case isTrue h => rw [lookup₂, h.1, hm]; rfl
  case some i =>
    by_cases ha : a' = a
    case neg => simp only [lookup₂, ha, false_and, if_false]; split <;> simp [ha]
    case pos =>
      subst ha
      simp only [true_and, lookup₂, hm, Option.bind_some, ← lookup_erase_ite]
      split
      case isFalse => simp
      case isTrue h => rw [len_eq_zero_iff.mp h]; simp

theorem lookup₂_eq_some_iff : m.lookup₂ a b = some v ↔ ∃ i, m.lookup a = some i ∧ i.lookup b = some v :=
  Option.bind_eq_some_iff

theorem keys_insert₂ : (m.insert₂ a b v).keys = Insert.insert a m.keys :=
  keys_insert

theorem keys_erase₂_of_mem (h : a ∈ (m.erase₂ a b).keys) : (m.erase₂ a b).keys = m.keys := by
  unfold erase₂ at h ⊢
  cases hm : m.lookup a
  case none => rfl
  case some i =>
    by_cases hl : (i.erase b).len = 0
    case pos => simp [hm, hl] at h
    case neg => simp [hl, keys_insert, mem_keys_of_lookup hm]

theorem keys_erase₂_of_notMem (h : a ∉ (m.erase₂ a b).keys) :
    (m.erase₂ a b).keys = m.keys.erase a := by
  unfold erase₂ at h ⊢
  cases hm : m.lookup a
  case none => simp [notMem_keys_iff.mpr hm]
  case some i =>
    by_cases hl : (i.erase b).len = 0
    case pos => simp [hl]
    case neg => simp [hm, hl, keys_insert] at h

section Flatten

theorem isSome_lookup₂_iff (x : A × B) :
    (m.lookup₂ x.1 x.2).isSome ↔ x ∈ m.keys.biUnion fun a => (m.inner a).keys.image (a, ·) := by
  obtain ⟨a, b⟩ := x
  simp only [Finset.mem_biUnion, Finset.mem_image, Prod.mk.injEq]
  constructor
  case mp =>
    intro h
    refine ⟨a, ?_, b, ?_, rfl, rfl⟩
    case refine_1 =>
      rw [mem_keys_iff]
      cases hm : m.lookup a <;> simp_all [lookup₂]
    case refine_2 => rwa [mem_keys_iff, lookup_inner]
  case mpr =>
    rintro ⟨a', -, b', hb, rfl, rfl⟩
    rwa [mem_keys_iff, lookup_inner] at hb

-- The map of maps as one map over pairs of keys.
def flatten (m : GoMap A (GoMap B V)) : GoMap (A × B) V :=
  keysLookupEquiv.symm
    ⟨(m.keys.biUnion fun a => (m.inner a).keys.image (a, ·), fun x => m.lookup₂ x.1 x.2),
      isSome_lookup₂_iff⟩

@[simp]
theorem lookup_flatten {x : A × B} : m.flatten.lookup x = m.lookup₂ x.1 x.2 := by
  simp [flatten]

theorem mem_keys_flatten {x : A × B} : x ∈ m.flatten.keys ↔ (m.lookup₂ x.1 x.2).isSome := by
  rw [mem_keys_iff, lookup_flatten]

@[simp]
theorem flatten_empty : flatten (∅ : GoMap A (GoMap B V)) = ∅ :=
  ext_lookup fun _ => by simp

theorem flatten_insert₂ : (m.insert₂ a b v).flatten = m.flatten.insert (a, b) v := by
  refine ext_lookup fun ⟨a', b'⟩ => ?_
  rw [lookup_flatten, lookup₂_insert₂, lookup_insert_ite, lookup_flatten]
  simp only [Prod.mk.injEq]

theorem flatten_erase₂ : (m.erase₂ a b).flatten = m.flatten.erase (a, b) := by
  refine ext_lookup fun ⟨a', b'⟩ => ?_
  rw [lookup_flatten, lookup₂_erase₂, lookup_erase_ite, lookup_flatten]
  simp only [Prod.mk.injEq]

theorem lookup₂_filter {p : A → Bool} :
    (m.filter fun a _ => p a).lookup₂ a b = if p a then m.lookup₂ a b else none := by
  cases h : m.lookup a <;> cases hp : p a <;> simp [lookup₂, h, hp, Option.filter]

theorem flatten_filter {p : A → Bool} :
    (m.filter fun a _ => p a).flatten = m.flatten.filter fun x _ => p x.1 := by
  refine ext_lookup fun ⟨a, b⟩ => ?_
  rw [lookup_flatten, lookup₂_filter, lookup_filter, lookup_flatten]
  cases m.lookup₂ a b <;> cases p a <;> simp [Option.filter]

end Flatten

namespace NoEmpty

omit [DecidableEq B] in
theorem empty : NoEmpty (∅ : GoMap A (GoMap B V)) := by
  intro a i h
  simp at h

omit [DecidableEq B] in
theorem insert (h : m.NoEmpty) {i : GoMap B V} (hi : i ≠ ∅) : NoEmpty (m.insert a i) := by
  intro a' i' ha
  rw [lookup_insert_ite] at ha
  split at ha
  case isTrue => cases ha; exact hi
  case isFalse => exact h a' i' ha

omit [DecidableEq B] in
theorem erase (h : m.NoEmpty) : NoEmpty (m.erase a) := by
  intro a' i' ha
  rw [lookup_erase_ite] at ha
  split at ha
  case isTrue => cases ha
  case isFalse => exact h a' i' ha

theorem insert₂ (h : m.NoEmpty) : NoEmpty (m.insert₂ a b v) :=
  h.insert <| ne_empty_of_lookup (lookup_insert _)

theorem erase₂ (h : m.NoEmpty) : NoEmpty (m.erase₂ a b) := by
  unfold Finmap.erase₂
  cases m.lookup a
  case none => exact h
  case some i =>
    dsimp only
    split
    case isTrue => exact h.erase
    case isFalse hl => exact h.insert <| mt len_eq_zero_iff.mpr hl

omit [DecidableEq B] in
theorem filter (h : m.NoEmpty) {p : A → GoMap B V → Bool} : NoEmpty (m.filter p) :=
  fun a i ha => h a i (lookup_filter_eq_some_iff.mp ha).1

theorem mem_keys_iff (h : m.NoEmpty) : a ∈ m.keys ↔ ∃ b v, m.lookup₂ a b = some v := by
  rw [Finmap.mem_keys_iff, Option.isSome_iff_exists]
  constructor
  case mp =>
    intro ⟨i, hi⟩
    have ⟨b, v, hb⟩ := exists_lookup_of_ne_empty (h a i hi)
    exact ⟨b, v, lookup₂_eq_some_iff.mpr ⟨i, hi, hb⟩⟩
  case mpr =>
    intro ⟨b, v, hb⟩
    have ⟨i, hi, _⟩ := lookup₂_eq_some_iff.mp hb
    exact ⟨i, hi⟩

-- Without empty inner maps, the inner map at a key is determined by its entries.
theorem lookup_congr (h₁ : m₁.NoEmpty) (h₂ : m₂.NoEmpty)
    (h : ∀ b, m₁.lookup₂ a b = m₂.lookup₂ a b) : m₁.lookup a = m₂.lookup a := by
  have hk : a ∈ m₁.keys ↔ a ∈ m₂.keys := by simp only [h₁.mem_keys_iff, h₂.mem_keys_iff, h]
  rw [Finmap.mem_keys_iff, Finmap.mem_keys_iff] at hk
  cases hm₁ : m₁.lookup a <;> cases hm₂ : m₂.lookup a <;> simp [hm₁, hm₂] at hk ⊢
  case some.some i₁ i₂ =>
    refine ext_lookup fun b => ?_
    simpa [lookup₂, hm₁, hm₂] using h b

theorem flatten_inj (h₁ : m₁.NoEmpty) (h₂ : m₂.NoEmpty) (h : m₁.flatten = m₂.flatten) : m₁ = m₂ := by
  refine ext_lookup fun a => lookup_congr h₁ h₂ fun b => ?_
  simpa using congrArg (Finmap.lookup (a, b)) h

end NoEmpty

end Finmap
