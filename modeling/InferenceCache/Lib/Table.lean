import Mathlib

-- Maps in which the last write to a key wins.
def Table (K V : Type) : Type :=
  K → Option V

namespace Table

variable {K V : Type} {m : Table K V} {l l' : List (K × V)} {p : K → Bool} {k : K}

def empty : Table K V :=
  fun _ => none

def drop (m : Table K V) (p : K → Bool) : Table K V :=
  fun k => if p k then none else m k

def keys (m : Table K V) : Set K :=
  { k | (m k).isSome }

theorem keys_empty : (empty : Table K V).keys = ∅ :=
  Set.eq_empty_of_forall_notMem fun _ hk => by cases hk

theorem keys_drop : (m.drop p).keys = m.keys \ { k | p k } := by
  ext k
  cases hp : p k <;> simp [keys, drop, hp]

theorem keys_foldl_drop {X : Type} {p : X → K → Bool} {l : List X} :
    (l.foldl (fun m x => m.drop (p x)) m).keys = m.keys \ { k | ∃ x ∈ l, p x k } := by
  induction l generalizing m
  case nil => simp
  case cons x l hi =>
    rw [List.foldl_cons, hi, keys_drop, sdiff_sdiff]
    congr 1
    ext k
    simp

def values (m : Table K V) : Set V :=
  { v | ∃ k, m k = some v }

theorem values_empty : (empty : Table K V).values = ∅ :=
  Set.eq_empty_of_forall_notMem fun _ ⟨_, hv⟩ => by cases hv

-- A value goes with one of its keys only if it goes with all of them.
theorem values_sdiff_eq_drop_iff :
    m.values \ { v | ∃ k, p k ∧ m k = some v } = (m.drop p).values ↔
      ∀ k k' v, p k → m k = some v → m k' = some v → p k' := by
  have hd : ∀ v, v ∈ (m.drop p).values ↔ ∃ k, p k = false ∧ m k = some v := by
    intro v
    simp [values, drop]
  constructor
  case mp =>
    intro h k k' v hk hv hv'
    by_contra hn
    have hm : v ∈ (m.drop p).values := (hd v).mpr ⟨k', Bool.not_eq_true _ ▸ hn, hv'⟩
    exact (h ▸ hm).2 ⟨k, hk, hv⟩
  case mpr =>
    intro h
    ext v
    rw [hd, Set.mem_sdiff]
    constructor
    case mp => exact fun ⟨⟨k, hv⟩, hn⟩ => ⟨k, Bool.not_eq_true _ ▸ fun hk => hn ⟨k, hk, hv⟩, hv⟩
    case mpr =>
      intro ⟨k, hk, hv⟩
      refine ⟨⟨k, hv⟩, fun ⟨k', hk', hv'⟩ => ?_⟩
      exact Bool.false_ne_true <| hk ▸ h k' k v hk' hv' hv

variable [DecidableEq K]

def put (m : Table K V) (x : K × V) : Table K V :=
  fun k => if k = x.1 then some x.2 else m k

def putAll (m : Table K V) (l : List (K × V)) : Table K V :=
  l.foldl put m

theorem putAll_cons {x : K × V} : m.putAll (x :: l) = (m.put x).putAll l :=
  rfl

theorem putAll_append : m.putAll (l ++ l') = (m.putAll l).putAll l' :=
  List.foldl_append

theorem putAll_apply : m.putAll l k = ((l.reverse.find? (·.1 = k)).map Prod.snd).or (m k) := by
  induction l using List.reverseRecOn
  case nil => rfl
  case append_singleton l x hi =>
    rw [putAll_append, List.reverse_concat, List.find?_cons]
    by_cases hk : k = x.1
    case pos => simp [putAll, put, hk]
    case neg => simpa [putAll, put, hk, Ne.symm hk] using hi

theorem keys_putAll : (m.putAll l).keys = m.keys ∪ { k | k ∈ l.map Prod.fst } := by
  ext k
  simp only [keys, putAll_apply, Set.mem_ofPred_eq, Option.isSome_or, Option.isSome_map, Bool.or_eq_true,
    List.find?_isSome, Set.mem_union, List.mem_map, List.mem_reverse, decide_eq_true_eq]
  exact or_comm

theorem values_putAll_subset : (m.putAll l).values ⊆ m.values ∪ { v | v ∈ l.map Prod.snd } := by
  intro v ⟨k, hv⟩
  rw [putAll_apply, Option.or_eq_some_iff, Option.map_eq_some_iff] at hv
  cases hv
  case inl h =>
    have ⟨x, hx, he⟩ := h
    exact .inr <| he ▸ List.mem_map_of_mem (List.mem_reverse.mp <| List.mem_of_find?_eq_some hx)
  case inr h => exact .inl ⟨k, h.2⟩

-- Writes are lost on a key that is forgotten after.
theorem drop_putAll (h : ∀ x ∈ l, p x.1) : (m.putAll l).drop p = m.drop p := by
  funext k
  unfold drop
  split
  case isTrue => rfl
  case isFalse hn =>
    have hf : l.reverse.find? (·.1 = k) = none := by
      rw [List.find?_eq_none]
      intro x hx he
      exact hn <| of_decide_eq_true he ▸ h x (List.mem_reverse.mp hx)
    rw [putAll_apply, hf]
    rfl

end Table
