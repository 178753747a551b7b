import InferenceCache.Lib.Upsert

section InPlace

variable {α : Type} {p : α → Bool} {l buf : List α} {i k : Nat}

-- `kept := l[:0]; for i := range l { if p(l[i]) { kept = append(kept, l[i]) } }`. Both slices share one array:
-- what is appended overwrites the elements at its front.
def filterInPlace.step (p : α → Bool) (s : List α × Nat) (i : Nat) : List α × Nat :=
  match s.1[i]? with
  | some x => if p x then (s.1.set s.2 x, s.2 + 1) else s
  | none   => s

def filterInPlace (p : α → Bool) (l : List α) : List α :=
  let (buf, k) := (List.range l.length).foldl (filterInPlace.step p) (l, 0)
  buf.take k

namespace filterInPlace

-- After `i` rounds, the front of the array is what was kept of the first `i` elements. The array is still as it
-- was from `i` on, since no more elements are written than read.
structure Inv (p : α → Bool) (l : List α) (i : Nat) (s : List α × Nat) : Prop where
  length : s.1.length = l.length
  le     : s.2 ≤ i
  kept   : s.1.take s.2 = (l.take i).filter p
  ahead  : ∀ j, i ≤ j → s.1[j]? = l[j]?

theorem Inv.step {s : List α × Nat} (h : Inv p l i s) (hi : i < l.length) :
    Inv p l (i + 1) (filterInPlace.step p s i) := by
  have hx : s.1[i]? = some l[i] := by rw [h.ahead i le_rfl, List.getElem?_eq_getElem hi]
  have hl : (l.take (i + 1)).filter p = (l.take i).filter p ++ [l[i]].filter p := by
    rw [List.take_add_one, List.getElem?_eq_getElem hi, Option.toList_some, List.filter_append]
  have hk : s.2 < s.1.length := h.length ▸ h.le.trans_lt hi
  rw [filterInPlace.step, hx]
  dsimp only
  split
  case isTrue hp =>
    refine ⟨by rw [List.length_set, h.length], Nat.succ_le_succ h.le, ?_, ?_⟩
    case refine_1 =>
      rw [hl, ← h.kept, List.take_add_one, List.take_set_of_le le_rfl, List.getElem?_set_self hk]
      simp [hp]
    case refine_2 =>
      intro j hj
      have hne : s.2 ≠ j := (h.le.trans_lt hj).ne
      rw [List.getElem?_set_ne hne, h.ahead j (Nat.le_of_succ_le hj)]
  case isFalse hp =>
    refine ⟨h.length, Nat.le_succ_of_le h.le, ?_, fun j hj => h.ahead j (Nat.le_of_succ_le hj)⟩
    rw [hl, h.kept]
    simp [hp]

theorem inv_foldl (hi : i ≤ l.length) :
    Inv p l i ((List.range i).foldl (filterInPlace.step p) (l, 0)) := by
  induction i
  case zero => exact ⟨rfl, le_rfl, by simp, fun _ _ => rfl⟩
  case succ i ih =>
    rw [List.range_succ, List.foldl_append]
    exact (ih (Nat.le_of_succ_le hi)).step hi

end filterInPlace

theorem filterInPlace_eq : filterInPlace p l = l.filter p := by
  have h := (filterInPlace.inv_foldl (p := p) (le_refl l.length)).kept
  rwa [List.take_length] at h

end InPlace

namespace Keyed

variable {α K : Type} [DecidableEq K] {key : α → K} {adopt : α → α → α} {want x : α} {l ws : List α} {k : K}

-- Lets the first record with the same key take over what is wanted, or adds the wanted record to the end.
def merge (key : α → K) (adopt : α → α → α) (l : List α) (want : α) : List α :=
  match l with
  | []     => [want]
  | x :: l => if key x = key want then adopt x want :: l else x :: merge key adopt l want

-- What is wanted of a record, given the one that is there.
def merged (key : α → K) (adopt : α → α → α) (l : List α) (want : α) : α :=
  (first key (key want) l).elim want (adopt · want)

section Merge

variable (hk : ∀ x want, key (adopt x want) = key x)

include hk

theorem map_key_merge : (merge key adopt l want).map key =
    if key want ∈ l.map key then l.map key else l.map key ++ [key want] := by
  induction l
  case nil => simp [merge]
  case cons x l hi =>
    rw [merge]
    by_cases hx : key x = key want
    case pos => simp [hx, hk]
    case neg =>
      rw [if_neg hx, List.map_cons, hi]
      have : key want ∈ key x :: l.map key ↔ key want ∈ l.map key := by simp [Ne.symm hx]
      simp only [List.map_cons, this]
      split <;> rfl

theorem first_merge : first key k (merge key adopt l want) =
    if key want = k then some (merged key adopt l want) else first key k l := by
  induction l
  case nil => simp [merge, merged, first_cons]
  case cons x l hi =>
    rw [merge, merged, first_cons]
    by_cases hx : key x = key want
    case pos =>
      rw [if_pos hx, if_pos hx, first_cons, first_cons, hk, hx]
      split <;> rfl
    case neg =>
      rw [if_neg hx, if_neg hx, first_cons, first_cons, hi, merged]
      by_cases hw : key want = k
      case pos => rw [if_neg (hw ▸ hx), if_pos hw, if_pos hw]
      case neg => rw [if_neg hw, if_neg hw]

theorem first_foldl_merge_of_ne (h : ∀ w ∈ ws, key w ≠ k) :
    first key k (ws.foldl (merge key adopt) l) = first key k l := by
  induction ws generalizing l
  case nil => rfl
  case cons w ws hi =>
    have ⟨hw, h⟩ := List.forall_mem_cons.mp h
    rw [List.foldl_cons, hi h, first_merge hk, if_neg hw]

-- Of wanted records with different keys, each meets the record that was there at the start.
theorem first_foldl_merge (hn : (ws.map key).Nodup) (hw : want ∈ ws) :
    first key (key want) (ws.foldl (merge key adopt) l) = some (merged key adopt l want) := by
  induction ws generalizing l
  case nil => cases hw
  case cons w ws hi =>
    have ⟨hd, hn⟩ := List.nodup_cons.mp hn
    have hd : ∀ x ∈ ws, key x ≠ key w := fun x hx he => hd (he ▸ List.mem_map_of_mem hx)
    rw [List.foldl_cons]
    cases hw
    case head => rw [first_foldl_merge_of_ne hk hd, first_merge hk, if_pos rfl]
    case tail hw => rw [hi hn hw, merged, first_merge hk, if_neg (hd want hw).symm, merged]

-- What is there keeps its place, and nothing gets a key twice.
theorem nodup_foldl_merge (hl : (l.map key).Nodup) : ((ws.foldl (merge key adopt) l).map key).Nodup := by
  induction ws generalizing l
  case nil => exact hl
  case cons w ws hi =>
    rw [List.foldl_cons]
    apply hi
    rw [map_key_merge hk]
    split
    case isTrue => exact hl
    case isFalse h =>
      refine List.nodup_append.mpr ⟨hl, List.nodup_singleton _, ?_⟩
      intro a ha b hb
      rw [List.mem_singleton] at hb
      exact fun he => h (hb ▸ he ▸ ha)

theorem mem_map_key_foldl_merge :
    k ∈ (ws.foldl (merge key adopt) l).map key ↔ k ∈ l.map key ∨ k ∈ ws.map key := by
  induction ws generalizing l
  case nil => simp
  case cons w ws hi =>
    rw [List.foldl_cons, hi, map_key_merge hk, List.map_cons, List.mem_cons]
    split
    case isTrue h =>
      constructor
      case mp => exact Or.imp_right .inr
      case mpr =>
        rintro (hl | he | hw)
        case inl => exact .inl hl
        case inr.inl => exact .inl (he ▸ h)
        case inr.inr => exact .inr hw
    case isFalse => rw [List.mem_append, List.mem_singleton, or_assoc]

end Merge

theorem merge_of_first (h : first key (key want) l = some x) (hx : adopt x want = x) :
    merge key adopt l want = l := by
  induction l
  case nil => simp at h
  case cons y l hi =>
    rw [first_cons] at h
    rw [merge]
    split at h
    case isTrue hy =>
      cases h
      rw [if_pos hy, hx]
    case isFalse hy => rw [if_neg hy, hi h]

-- Where all records have taken over what is wanted, nothing is left to do.
theorem foldl_merge_of_first (h : ∀ w ∈ ws, ∃ x, first key (key w) l = some x ∧ adopt x w = x) :
    ws.foldl (merge key adopt) l = l := by
  induction ws
  case nil => rfl
  case cons w ws hi =>
    have ⟨hw, h⟩ := List.forall_mem_cons.mp h
    have ⟨x, hf, hx⟩ := hw
    rw [List.foldl_cons, merge_of_first hf hx, hi h]

theorem first_of_mem (hl : (l.map key).Nodup) (hx : x ∈ l) : first key (key x) l = some x := by
  cases hf : first key (key x) l
  case none => exact absurd rfl (first_eq_none.mp hf x hx)
  case some y => rw [List.inj_on_of_nodup_map hl (mem_of_first hf) hx (key_of_first hf)]

end Keyed
