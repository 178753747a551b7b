import InferenceCache.Lib.Range

-- Loops that collect values by key: what is under the key of a visited element is replaced by a value
-- that depends on what was there before.
namespace Finmap

variable {K V X : Type} [DecidableEq K] {key : X → K} {f : Option V → X → V} {l l' : List X}
variable {m : GoMap K V} {k : K}

def group (key : X → K) (f : Option V → X → V) (l : List X) (m : GoMap K V) : GoMap K V :=
  l.foldl (fun m x => m.insert (key x) (f (m.lookup (key x)) x)) m

-- Under each key, only the elements with that key count.
theorem lookup_group : (group key f l m).lookup k =
    (l.filter (key · = k)).foldl (fun v x => some (f v x)) (m.lookup k) := by
  induction l generalizing m
  case nil => rfl
  case cons x l hi =>
    have hi : (group key f (x :: l) m).lookup k = (l.filter (key · = k)).foldl (fun v x => some (f v x))
        ((m.insert (key x) (f (m.lookup (key x)) x)).lookup k) := hi
    rw [hi, lookup_insert_ite, List.filter_cons]
    by_cases hk : key x = k
    case pos =>
      subst hk
      simp
    case neg => simp [hk, Ne.symm hk]

theorem isSome_lookup_group : ((group key f l m).lookup k).isSome ↔
    (m.lookup k).isSome ∨ ∃ x ∈ l, key x = k := by
  induction l generalizing m
  case nil => simp [group]
  case cons x l hi =>
    have hi : ((group key f (x :: l) m).lookup k).isSome ↔
        ((m.insert (key x) (f (m.lookup (key x)) x)).lookup k).isSome ∨ ∃ x ∈ l, key x = k := hi
    rw [hi, lookup_insert_ite, List.exists_mem_cons_iff]
    by_cases hk : key x = k
    case pos => simp [hk]
    case neg => simp [hk, Ne.symm hk]

-- The order does not matter if it does not matter for two elements with the same key.
theorem group_perm (hp : l.Perm l')
    (hc : ∀ x ∈ l, ∀ y ∈ l, ∀ v, key x = key y → f (some (f v x)) y = f (some (f v y)) x) :
    group key f l m = group key f l' m := by
  refine ext_lookup fun k => ?_
  rw [lookup_group, lookup_group]
  refine (hp.filter _).foldl_eq' (fun x hx y hy v => ?_) _
  rw [List.mem_filter, decide_eq_true_iff] at hx hy
  rw [hc x hx.1 y hy.1 v (hx.2.trans hy.2.symm)]

-- The loop `for k := range m { seen[k] = struct{}{} }`.
theorem keys_foldl_insert {l : List (K × V)} {seen : GoMap K Unit} :
    (l.foldl (fun seen x => seen.insert x.1 ()) seen).keys = seen.keys ∪ (l.map Prod.fst).toFinset := by
  induction l generalizing seen
  case nil => simp
  case cons x l hi =>
    rw [List.foldl_cons, hi, keys_insert, List.map_cons, List.toFinset_cons, Finset.insert_union,
      Finset.union_insert]

-- The loop that keeps what is there first.
theorem lookup_foldl_insert_first {g : X → V} :
    (l.foldl (fun m x => if key x ∈ m then m else m.insert (key x) (g x)) m).lookup k =
      (m.lookup k).or ((l.find? (key · = k)).map g) := by
  induction l generalizing m
  case nil => simp
  case cons x l hi =>
    rw [List.foldl_cons, hi, List.find?_cons]
    by_cases hk : key x = k
    case pos =>
      subst hk
      by_cases hm : key x ∈ m
      case pos =>
        have ⟨v, hv⟩ := mem_iff.mp hm
        simp [hm, hv]
      case neg => simp [hm, lookup_eq_none.mpr hm]
    case neg =>
      have hx : (if key x ∈ m then m else m.insert (key x) (g x)).lookup k = m.lookup k := by
        split
        case isTrue => rfl
        case isFalse => rw [lookup_insert_of_ne _ (Ne.symm hk)]
      simp [hx, hk]

end Finmap
