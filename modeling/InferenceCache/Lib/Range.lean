import InferenceCache.Lib.GoMap

-- The order in which a `range` statement visits the keys of a map. Go leaves it unspecified and
-- draws it anew for every statement, so results about a loop quantify over all of these.
structure RangeOrder (K : Type) where
  list     : Finset K → List K
  nodup    : ∀ s, (list s).Nodup
  mem_list : ∀ s k, k ∈ list s ↔ k ∈ s

namespace RangeOrder

variable {K V W : Type} [DecidableEq K] {o o₁ o₂ : RangeOrder K} {m : GoMap K V} {k : K} {v : V}

-- The entries of `m` in the order they are visited.
def range (o : RangeOrder K) (m : GoMap K V) : List (K × V) :=
  (o.list m.keys).filterMap fun k => (m.lookup k).map (k, ·)

theorem mem_range {x : K × V} : x ∈ o.range m ↔ m.lookup x.1 = some x.2 := by
  obtain ⟨k, v⟩ := x
  simp only [range, List.mem_filterMap, Option.map_eq_some_iff, o.mem_list]
  constructor
  case mp =>
    rintro ⟨k', -, v', h, he⟩
    cases he
    exact h
  case mpr =>
    intro h
    exact ⟨k, Finmap.mem_keys_of_lookup h, v, h, rfl⟩

theorem range_keys : (o.range m).map Prod.fst = o.list m.keys := by
  rw [range, List.map_filterMap]
  have h : ∀ k ∈ o.list m.keys, ((m.lookup k).map (k, ·)).map Prod.fst = some k := by
    intro k hk
    have hs := Finmap.mem_keys_iff.mp <| (o.mem_list _ _).mp hk
    obtain ⟨v, hv⟩ := Option.isSome_iff_exists.mp hs
    simp [hv]
  rw [List.filterMap_congr h, List.filterMap_some]

theorem range_keys_nodup : ((o.range m).map Prod.fst).Nodup :=
  range_keys (o := o) ▸ o.nodup _

theorem range_nodup : (o.range m).Nodup :=
  range_keys_nodup.of_map

theorem range_perm : (o₁.range m).Perm (o₂.range m) :=
  (List.perm_ext_iff_of_nodup range_nodup range_nodup).mpr fun _ => mem_range.trans mem_range.symm

-- The loop `for k, v := range m { if w, ok := f(k, v); ok { out[k] = w } }`.
def collect (o : RangeOrder K) (f : K → V → Option W) (m : GoMap K V) (out : GoMap K W) :
    GoMap K W :=
  (o.range m).foldl (fun out x => (f x.1 x.2).elim out (out.insert x.1)) out

theorem lookup_foldl_of_notMem {f : K → V → Option W} {l : List (K × V)} {out : GoMap K W}
    (h : k ∉ l.map Prod.fst) :
    (l.foldl (fun out x => (f x.1 x.2).elim out (out.insert x.1)) out).lookup k =
      out.lookup k := by
  induction l generalizing out
  case nil => rfl
  case cons x l hi =>
    rw [List.map_cons, List.mem_cons, not_or] at h
    rw [List.foldl_cons, hi h.2]
    cases f x.1 x.2
    case none => rfl
    case some => exact Finmap.lookup_insert_of_ne _ h.1

theorem lookup_foldl_of_mem {f : K → V → Option W} {l : List (K × V)} {out : GoMap K W}
    (hn : (l.map Prod.fst).Nodup) (h : (k, v) ∈ l) :
    (l.foldl (fun out x => (f x.1 x.2).elim out (out.insert x.1)) out).lookup k =
      (f k v).or (out.lookup k) := by
  induction l generalizing out
  case nil => cases h
  case cons x l hi =>
    rw [List.map_cons, List.nodup_cons] at hn
    cases List.mem_cons.mp h
    case inl h =>
      subst h
      rw [List.foldl_cons, lookup_foldl_of_notMem hn.1]
      cases f k v <;> simp
    case inr h =>
      rw [List.foldl_cons, hi hn.2 h]
      have hk : k ≠ x.1 := fun he => hn.1 (he ▸ List.mem_map_of_mem h)
      cases f x.1 x.2 <;> simp [hk]

@[simp]
theorem lookup_collect {f : K → V → Option W} {out : GoMap K W} :
    (o.collect f m out).lookup k = ((m.lookup k).bind (f k)).or (out.lookup k) := by
  cases h : m.lookup k
  case some v => exact lookup_foldl_of_mem range_keys_nodup (mem_range.mpr h)
  case none =>
    have hk : k ∉ (o.range m).map Prod.fst := by
      rw [range_keys, o.mem_list]
      exact Finmap.notMem_keys_iff.mpr h
    simp [collect, lookup_foldl_of_notMem hk]

-- What is read of the values may be all that two maps agree on.
theorem range_map_perm {m' : GoMap K V} {g : V → W} (h : ∀ k, (m.lookup k).map g = (m'.lookup k).map g) :
    ((o₁.range m).map fun x => (x.1, g x.2)).Perm ((o₂.range m').map fun x => (x.1, g x.2)) := by
  have hn (o : RangeOrder K) (m : GoMap K V) : ((o.range m).map fun x => (x.1, g x.2)).Nodup := by
    apply List.Nodup.of_map Prod.fst
    rw [List.map_map]
    exact range_keys_nodup
  have hm (o : RangeOrder K) (m : GoMap K V) (y : K × W) :
      y ∈ (o.range m).map (fun x => (x.1, g x.2)) ↔ (m.lookup y.1).map g = some y.2 := by
    rw [List.mem_map, Option.map_eq_some_iff]
    constructor
    case mp =>
      rintro ⟨x, hx, he⟩
      rw [← he]
      exact ⟨x.2, mem_range.mp hx, rfl⟩
    case mpr =>
      rintro ⟨v, hv, he⟩
      exact ⟨(y.1, v), mem_range.mpr hv, by rw [he]⟩
  refine (List.perm_ext_iff_of_nodup (hn _ _) (hn _ _)).mpr fun y => ?_
  rw [hm, hm, h]

omit [DecidableEq K] in
theorem list_perm {s : Finset K} : (o₁.list s).Perm (o₂.list s) :=
  (List.perm_ext_iff_of_nodup (o₁.nodup s) (o₂.nodup s)).mpr fun k => by rw [o₁.mem_list, o₂.mem_list]

theorem toFinset_list {s : Finset K} : (o.list s).toFinset = s := by
  ext k
  rw [List.mem_toFinset, o.mem_list]

-- The same order, except that one key is visited before all others.
def first (k : K) (o : RangeOrder K) : RangeOrder K where
  list s     := if k ∈ s then k :: o.list (s.erase k) else o.list s
  nodup s    := by
    split
    case isFalse => exact o.nodup s
    case isTrue  => exact List.nodup_cons.mpr ⟨by simp [o.mem_list], o.nodup _⟩
  mem_list s k' := by
    split
    case isFalse   => exact o.mem_list s k'
    case isTrue hk =>
      rw [List.mem_cons, o.mem_list, Finset.mem_erase]
      by_cases he : k' = k
      case pos => simp [he, hk]
      case neg => simp [he]

theorem range_first (h : m.lookup k = some v) :
    ∃ l, (first k o).range m = (k, v) :: l := by
  have hk : k ∈ m.keys := Finmap.mem_keys_of_lookup h
  refine ⟨(o.list (m.keys.erase k)).filterMap fun k => (m.lookup k).map (k, ·), ?_⟩
  simp [range, first, hk, h]

-- The keys in ascending order, one of the orders a run may draw.
def ascending [LinearOrder K] : RangeOrder K where
  list s := Quotient.liftOn s.val (List.insertionSort (· ≤ ·)) fun l₁ l₂ (h : l₁.Perm l₂) =>
    List.Perm.eq_of_pairwise (fun _ _ _ _ => le_antisymm)
      (List.pairwise_insertionSort _ _) (List.pairwise_insertionSort _ _)
      (((List.perm_insertionSort _ _).trans h).trans (List.perm_insertionSort _ _).symm)
  nodup s := by
    obtain ⟨⟨l⟩, hl⟩ := s
    exact ((List.perm_insertionSort _ _).nodup_iff).mpr hl
  mem_list s k := by
    obtain ⟨⟨l⟩, hl⟩ := s
    exact (List.perm_insertionSort _ _).mem_iff

end RangeOrder
