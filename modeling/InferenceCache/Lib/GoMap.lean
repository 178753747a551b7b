import Mathlib

-- A Go map: finite, extensional, without a preferred order of its entries. The order in which a
-- `range` statement visits them is a separate object (`RangeOrder`).
abbrev GoMap (K V : Type) := Finmap (fun _ : K => V)

namespace Finmap

variable {K V : Type} [DecidableEq K] {m m₁ m₂ : GoMap K V} {k k' : K} {v : V}

theorem lookup_insert_ite : (m.insert k v).lookup k' = if k' = k then some v else m.lookup k' := by
  split
  case isTrue h => subst h; simp
  case isFalse h => simp [h]

theorem lookup_erase_ite : (m.erase k).lookup k' = if k' = k then none else m.lookup k' := by
  split
  case isTrue h => subst h; simp
  case isFalse h => simp [h]

theorem mem_keys_iff : k ∈ m.keys ↔ (m.lookup k).isSome := by
  rw [mem_keys, lookup_isSome]

theorem notMem_keys_iff : k ∉ m.keys ↔ m.lookup k = none := by
  rw [mem_keys, lookup_eq_none]

theorem mem_keys_of_lookup (h : m.lookup k = some v) : k ∈ m.keys := by
  simp [mem_keys_iff, h]

theorem keys_insert : (m.insert k v).keys = Insert.insert k m.keys := by
  ext k'
  simp [mem_keys]

theorem keys_insert_of_mem (h : k ∈ m.keys) : (m.insert k v).keys = m.keys := by
  rw [keys_insert, Finset.insert_eq_of_mem h]

theorem keys_eq_empty_iff : m.keys = ∅ ↔ m = ∅ := by
  constructor
  case mpr => intro h; simp [h]
  case mp =>
    intro h
    refine ext_lookup fun k => ?_
    have hk : k ∉ m.keys := by simp [h]
    simpa using notMem_keys_iff.mp hk

theorem ne_empty_of_lookup (h : m.lookup k = some v) : m ≠ ∅ := by
  rintro rfl
  simp at h

theorem exists_lookup_of_ne_empty (h : m ≠ ∅) : ∃ k v, m.lookup k = some v := by
  have ⟨k, hk⟩ := Finset.nonempty_iff_ne_empty.mpr (mt keys_eq_empty_iff.mp h)
  exact ⟨k, Option.isSome_iff_exists.mp <| mem_keys_iff.mp hk⟩

theorem insert_of_lookup (h : m.lookup k = some v) : m.insert k v = m := by
  refine ext_lookup fun k' => ?_
  rw [lookup_insert_ite]
  split
  case isTrue he => rw [he, h]
  case isFalse => rfl

theorem erase_insert_self : (m.insert k v).erase k = m.erase k := by
  refine ext_lookup fun k' => ?_
  simp only [lookup_erase_ite, lookup_insert_ite]
  split <;> rfl

def len (m : GoMap K V) : Nat :=
  m.keys.card

theorem len_eq_zero_iff : m.len = 0 ↔ m = ∅ := by
  rw [len, Finset.card_eq_zero, keys_eq_empty_iff]

-- Reading an absent key of an integer map yields the zero value.
def count (m : GoMap K Int) (k : K) : Int :=
  (m.lookup k).getD 0

section Filter

variable {p q : K → V → Bool}

theorem isSome_filter_iff_mem (k : K) :
    ((m.lookup k).filter (p k)).isSome ↔
      k ∈ m.keys.filter fun k => ((m.lookup k).filter (p k)).isSome := by
  rw [Finset.mem_filter, mem_keys_iff]
  cases m.lookup k <;> simp

def filter (p : K → V → Bool) (m : GoMap K V) : GoMap K V :=
  keysLookupEquiv.symm
    ⟨(m.keys.filter fun k => ((m.lookup k).filter (p k)).isSome, fun k => (m.lookup k).filter (p k)),
      isSome_filter_iff_mem⟩

@[simp]
theorem lookup_filter : (m.filter p).lookup k = (m.lookup k).filter (p k) := by
  simp [filter]

@[simp]
theorem filter_empty : filter p (∅ : GoMap K V) = ∅ :=
  ext_lookup fun _ => by simp

theorem lookup_filter_eq_some_iff :
    (m.filter p).lookup k = some v ↔ m.lookup k = some v ∧ p k v = true := by
  simp [Option.filter_eq_some_iff]

theorem lookup_filter_of_pos (h : ∀ v, p k v = true) : (m.filter p).lookup k = m.lookup k := by
  rw [lookup_filter]
  cases m.lookup k <;> simp [Option.filter, h]

theorem filter_filter : (m.filter p).filter q = m.filter fun k v => p k v && q k v := by
  refine ext_lookup fun k => ?_
  cases h : m.lookup k
  case none => simp [h]
  case some v => cases hp : p k v <;> simp [h, hp, Option.filter]

theorem filter_congr (h : ∀ k v, m.lookup k = some v → p k v = q k v) :
    m.filter p = m.filter q := by
  refine ext_lookup fun k => ?_
  cases hk : m.lookup k
  case none => simp [hk]
  case some v => simp [hk, Option.filter, h k v hk]

theorem filter_eq_self (h : ∀ k v, m.lookup k = some v → p k v = true) : m.filter p = m := by
  refine ext_lookup fun k => ?_
  cases hk : m.lookup k
  case none => simp [hk]
  case some v => simp [hk, Option.filter, h k v hk]

theorem keys_filter_subset : (m.filter p).keys ⊆ m.keys := by
  intro k hk
  rw [mem_keys_iff, lookup_filter] at hk
  rw [mem_keys_iff]
  cases h : m.lookup k <;> simp_all

theorem keys_filter_key {p : K → Bool} :
    (m.filter fun k _ => p k).keys = m.keys.filter (p · = true) := by
  ext k
  simp only [mem_keys_iff, lookup_filter, Finset.mem_filter]
  cases m.lookup k <;> simp [Option.filter]

end Filter

end Finmap
