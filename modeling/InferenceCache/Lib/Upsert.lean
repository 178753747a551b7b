import Mathlib

-- Lists of records that are looked up by a key, where the first record with a key counts.
namespace Keyed

variable {α K : Type} [DecidableEq K] {key : α → K}

def first (key : α → K) (k : K) (l : List α) : Option α :=
  l.find? (key · = k)

-- Replaces the first record with the same key, or adds the record to the end.
def upsert (key : α → K) (want : α) : List α → List α
  | []     => [want]
  | x :: l => if key x = key want then want :: l else x :: upsert key want l

@[simp]
theorem first_nil : first key k [] = none :=
  rfl

theorem first_cons : first key k (x :: l) = if key x = k then some x else first key k l := by
  by_cases h : key x = k <;> simp [first, h]

theorem key_of_first (h : first key k l = some x) : key x = k := by
  simpa using List.find?_some h

theorem mem_of_first (h : first key k l = some x) : x ∈ l :=
  List.mem_of_find?_eq_some h

theorem first_eq_none : first key k l = none ↔ ∀ x ∈ l, key x ≠ k := by
  simp [first]

theorem first_upsert : first key k (upsert key want l) =
    if key want = k then some want else first key k l := by
  induction l
  case nil => simp [upsert, first_cons]
  case cons x l hi =>
    by_cases hx : key x = key want
    case pos => simp only [upsert, hx, if_true, first_cons]; split <;> rfl
    case neg =>
      rw [upsert, if_neg hx, first_cons, hi, first_cons]
      by_cases hk : key x = k
      case pos =>
        have hw : key want ≠ k := fun hw => hx (hk.trans hw.symm)
        simp [hk, hw]
      case neg => simp [hk]

theorem filter_upsert_of_ne (h : key want ≠ k) :
    (upsert key want l).filter (key · = k) = l.filter (key · = k) := by
  induction l
  case nil => simp [upsert, h]
  case cons x l hi =>
    by_cases hx : key x = key want
    case pos => simp [upsert, hx, h]
    case neg => simp [upsert, hx, List.filter_cons, hi]

theorem upsert_of_first (h : first key (key want) l = some want) : upsert key want l = l := by
  induction l
  case nil => simp at h
  case cons x l hi =>
    rw [first_cons] at h
    by_cases hx : key x = key want
    case pos =>
      simp only [hx, if_true, Option.some.injEq] at h
      simp [upsert, h]
    case neg =>
      simp only [hx, if_false] at h
      simp [upsert, hx, hi h]

section Without

end Without

theorem filter_upsert : (upsert key want l).filter (key · = key want) =
    want :: (l.filter (key · = key want)).tail := by
  induction l
  case nil => simp [upsert]
  case cons x l hi =>
    by_cases hx : key x = key want
    case pos => simp [upsert, hx]
    case neg => simp [upsert, hx, hi]

section Last

def last (key : α → K) (k : K) (l : List α) : Option α :=
  (l.filter (key · = k)).getLast?

theorem last_cons : last key k (x :: l) = (last key k l).or (if key x = k then some x else none) := by
  by_cases h : key x = k
  case neg => simp [last, h]
  case pos => cases hl : (l.filter (key · = k)).getLast? <;> simp_all [last, List.getLast?_cons]

-- After the first record with its key is replaced by `want`, it is also the last one that counts.
def Settled (key : α → K) (want : α) (l : List α) : Prop :=
  (l.filter (key · = key want)).length ≤ 1 ∨ last key (key want) l = some want

instance [DecidableEq α] {want : α} {l : List α} : Decidable (Settled key want l) :=
  inferInstanceAs (Decidable (_ ∨ _))

theorem last_upsert_iff : last key (key want) (upsert key want l) = some want ↔ Settled key want l := by
  rw [Settled, last, filter_upsert, last]
  generalize l.filter (key · = key want) = l'
  cases l'
  case nil => simp
  case cons x l' => cases l' <;> simp [List.getLast?_cons_cons]

theorem last_upsert_of_ne (h : key want ≠ k) : last key k (upsert key want l) = last key k l := by
  rw [last, filter_upsert_of_ne h, last]

theorem settled_upsert_of_ne (h : key x ≠ key want) : Settled key want (upsert key x l) ↔
    Settled key want l := by
  rw [Settled, filter_upsert_of_ne h, last_upsert_of_ne h, Settled]

-- What does not change the records with other keys can be done for any number of records.
theorem last_foldl_of_ne {step : List α → α → List α} {ws : List α}
    (hs : ∀ l w, key w ≠ k → last key k (step l w) = last key k l) (h : ∀ w ∈ ws, key w ≠ k) :
    last key k (ws.foldl step l) = last key k l := by
  induction ws generalizing l
  case nil => rfl
  case cons w ws hi =>
    have ⟨hw, h⟩ := List.forall_mem_cons.mp h
    rw [List.foldl_cons, hi h, hs l w hw]

-- Of several records with different keys, each counts in the end if it is settled before.
theorem last_foldl_upsert_iff {ws : List α} (hn : ws.Pairwise (key · ≠ key ·)) (hw : want ∈ ws) :
    last key (key want) (ws.foldl (fun l w => upsert key w l) l) = some want ↔ Settled key want l := by
  induction ws generalizing l
  case nil => cases hw
  case cons w ws hi =>
    have ⟨hd, hn⟩ := List.pairwise_cons.mp hn
    cases hw
    case head =>
      rw [List.foldl_cons, last_foldl_of_ne (fun _ _ => last_upsert_of_ne) fun w hw => (hd w hw).symm,
        last_upsert_iff]
    case tail hw => rw [List.foldl_cons, hi hn hw, settled_upsert_of_ne (hd want hw)]

-- Removes the records with a key, and adds one to the end.
def move (key : α → K) (l : List α) (want : α) : List α :=
  l.filter (key · ≠ key want) ++ [want]

theorem last_move : last key (key want) (move key l want) = some want := by
  simp [last, move]

theorem last_move_of_ne (h : key want ≠ k) : last key k (move key l want) = last key k l := by
  have hf : (l.filter (key · ≠ key want)).filter (key · = k) = l.filter (key · = k) := by
    rw [List.filter_filter]
    apply List.filter_congr
    intro x _
    by_cases hx : key x = k
    case pos => simp [hx, h.symm]
    case neg => simp [hx]
  rw [last, move, List.filter_append, hf]
  simp [last, h]

theorem last_foldl_move {ws : List α} (hn : ws.Pairwise (key · ≠ key ·)) (hw : want ∈ ws) :
    last key (key want) (ws.foldl (move key) l) = some want := by
  induction ws generalizing l
  case nil => cases hw
  case cons w ws hi =>
    have ⟨hd, hn⟩ := List.pairwise_cons.mp hn
    cases hw
    case head =>
      rw [List.foldl_cons, last_foldl_of_ne (fun _ _ => last_move_of_ne) fun w hw => (hd w hw).symm, last_move]
    case tail hw => exact hi hn hw

end Last

section Paths

-- Records are replaced by one key, and looked up by another.
variable {P : Type} [DecidableEq P] {path : α → P}

theorem first_path_upsert_of_none (h : first path p l = none) (hp : path want = p) :
    first path p (upsert key want l) = some want := by
  induction l
  case nil => simp [upsert, first_cons, hp]
  case cons x l hi =>
    rw [first_cons] at h
    split at h
    case isTrue => cases h
    case isFalse hx =>
      by_cases hk : key x = key want
      case pos => simp [upsert, hk, first_cons, hp]
      case neg => rw [upsert, if_neg hk, first_cons, if_neg hx, hi h]

theorem first_path_upsert_of_key (h : first path p l = some x) (hx : key x = key want) (hp : path want = p) :
    ∃ y, first path p (upsert key want l) = some y ∧ key y = key want := by
  induction l
  case nil => simp at h
  case cons z l hi =>
    rw [first_cons] at h
    by_cases hk : key z = key want
    case pos => exact ⟨want, by simp [upsert, hk, first_cons, hp], rfl⟩
    case neg =>
      split at h
      case isTrue =>
        cases h
        exact absurd hx hk
      case isFalse hz =>
        rw [upsert, if_neg hk, first_cons, if_neg hz]
        exact hi h

-- What is first at another path is found among the other records and those that are not replaced.
theorem first_path_upsert (hp : path want ≠ p) :
    first path p (upsert key want l) = first path p (l.eraseP (key · = key want)) := by
  induction l
  case nil => simp [upsert, first_cons, hp]
  case cons x l hi =>
    by_cases hk : key x = key want
    case pos => simp [upsert, hk, first_cons, hp]
    case neg => simp [upsert, hk, first_cons, hi]

theorem first_unique (hx : first key k l = some x) (hy : first path p l = some y) (hp : path x = p)
    (hk : key y = k) : x = y := by
  induction l
  case nil => cases hx
  case cons z l hi =>
    rw [first_cons] at hx hy
    by_cases hz : key z = k
    case pos =>
      cases (if_pos hz).symm.trans hx
      exact Option.some.inj ((if_pos hp).symm.trans hy)
    case neg =>
      rw [if_neg hz] at hx
      by_cases hzp : path z = p
      case pos =>
        cases (if_pos hzp).symm.trans hy
        exact absurd hk hz
      case neg => exact hi hx ((if_neg hzp).symm.trans hy)

theorem first_path_upsert_of_ne (h : first path p l = some x) (hx : key x ≠ key want) (hp : path want ≠ p) :
    first path p (upsert key want l) = some x := by
  induction l
  case nil => simp at h
  case cons z l hi =>
    rw [first_cons] at h
    split at h
    case isTrue hz =>
      cases h
      simp [upsert, hx, first_cons, hz]
    case isFalse hz =>
      by_cases hk : key z = key want
      case pos => simp [upsert, hk, first_cons, hp, h]
      case neg => simp [upsert, hk, first_cons, hz, hi h]

end Paths

section Again

theorem foldl_upsert_of_first {ws : List α} (h : ∀ w ∈ ws, first key (key w) l = some w) :
    ws.foldl (fun l w => upsert key w l) l = l := by
  induction ws
  case nil => rfl
  case cons w ws hi =>
    have ⟨hw, h⟩ := List.forall_mem_cons.mp h
    rw [List.foldl_cons, upsert_of_first hw, hi h]

theorem first_foldl_upsert_of_ne {ws : List α} (h : ∀ w ∈ ws, key w ≠ k) :
    first key k (ws.foldl (fun l w => upsert key w l) l) = first key k l := by
  induction ws generalizing l
  case nil => rfl
  case cons w ws hi =>
    have ⟨hw, h⟩ := List.forall_mem_cons.mp h
    rw [List.foldl_cons, hi h, first_upsert, if_neg hw]

theorem first_foldl_upsert {ws : List α} (hn : ws.Pairwise (key · ≠ key ·)) (hw : want ∈ ws) :
    first key (key want) (ws.foldl (fun l w => upsert key w l) l) = some want := by
  induction ws generalizing l
  case nil => cases hw
  case cons w ws hi =>
    have ⟨hd, hn⟩ := List.pairwise_cons.mp hn
    cases hw
    case head =>
      rw [List.foldl_cons, first_foldl_upsert_of_ne fun w hw => (hd w hw).symm, first_upsert, if_pos rfl]
    case tail hw => exact hi hn hw

theorem foldl_move {ws : List α} (hn : ws.Pairwise (key · ≠ key ·)) :
    ws.foldl (move key) l = l.filter (fun x => ∀ w ∈ ws, key x ≠ key w) ++ ws := by
  induction ws generalizing l
  case nil => simp
  case cons w ws hi =>
    have ⟨hd, hn⟩ := List.pairwise_cons.mp hn
    have hf : [w].filter (fun x => ∀ w ∈ ws, key x ≠ key w) = [w] := by simpa using hd
    rw [List.foldl_cons, hi hn, move, List.filter_append, List.filter_filter, hf, List.append_assoc]
    congr 1
    apply List.filter_congr
    intro x _
    simp [Bool.and_comm]

theorem first_move_of_ne (h : key want ≠ k) : first key k (move key l want) = first key k l := by
  have hf : (l.filter (key · ≠ key want)).find? (key · = k) = l.find? (key · = k) := by
    rw [List.find?_filter]
    congr 1
    funext x
    by_cases hx : key x = k
    case pos => simp [hx, h.symm]
    case neg => simp [hx]
  rw [first, move, List.find?_append, hf]
  simp [first, h]

theorem first_foldl_move_of_ne {ws : List α} (h : ∀ w ∈ ws, key w ≠ k) :
    first key k (ws.foldl (move key) l) = first key k l := by
  induction ws generalizing l
  case nil => rfl
  case cons w ws hi =>
    have ⟨hw, h⟩ := List.forall_mem_cons.mp h
    rw [List.foldl_cons, hi h, first_move_of_ne hw]

end Again

section Set

-- Some records are set where they are, and others are moved to the end.
def set (key : α → K) (replaced moved : List α) (l : List α) : List α :=
  moved.foldl (move key) (replaced.foldl (fun l w => upsert key w l) l)

variable {replaced moved : List α}

theorem filter_move_of_ne (h : key want ≠ k) :
    (move key l want).filter (key · = k) = l.filter (key · = k) := by
  rw [move, List.filter_append, List.filter_filter]
  simp only [List.filter_cons, h, decide_false, Bool.false_eq_true, if_false, List.filter_nil, List.append_nil]
  apply List.filter_congr
  intro x _
  by_cases hx : key x = k
  case pos => simp [hx, h.symm]
  case neg => simp [hx]

structure Done (key : α → K) (replaced moved : List α) (l : List α) : Prop where
  first : ∀ w ∈ replaced, first key (key w) l = some w
  moved : ∃ l₀, l = l₀ ++ moved ∧ ∀ x ∈ l₀, ∀ w ∈ moved, key x ≠ key w

theorem done_set (h : (replaced ++ moved).Pairwise (key · ≠ key ·)) :
    Done key replaced moved (set key replaced moved l) := by
  have ⟨hr, hm, hd⟩ := List.pairwise_append.mp h
  refine ⟨fun w hw => ?_, ?_⟩
  case refine_1 =>
    rw [set, first_foldl_move_of_ne fun m h => (hd w hw m h).symm]
    exact first_foldl_upsert hr hw
  case refine_2 =>
    rw [set, foldl_move hm]
    exact ⟨_, rfl, fun x hx => by simpa using (List.mem_filter.mp hx).right⟩

theorem Done.set (h : Done key replaced moved l) (hp : (replaced ++ moved).Pairwise (key · ≠ key ·)) :
    set key replaced moved l = l := by
  have ⟨_, hm, _⟩ := List.pairwise_append.mp hp
  have ⟨l₀, hl, hn⟩ := h.moved
  rw [Keyed.set, foldl_upsert_of_first h.first, foldl_move hm, hl, List.filter_append]
  have h₀ : l₀.filter (fun x => ∀ w ∈ moved, key x ≠ key w) = l₀ :=
    List.filter_eq_self.mpr fun x hx => by simpa using hn x hx
  have h₁ : moved.filter (fun x => ∀ w ∈ moved, key x ≠ key w) = [] :=
    List.filter_eq_nil_iff.mpr fun x hx => by simpa using ⟨x, hx, rfl⟩
  rw [h₀, h₁, List.append_nil]

theorem Done.append (h : Done key replaced moved l) (he : moved = [] ∨ l' = []) :
    Done key replaced moved (l ++ l') where
  first := by
    intro w hw
    have hf := h.first w hw
    rw [Keyed.first] at hf
    rw [Keyed.first, List.find?_append, hf, Option.some_or]
  moved := by
    cases he
    case inl hm => exact ⟨l ++ l', by simp [hm], by simp [hm]⟩
    case inr hl =>
      rw [hl, List.append_nil]
      exact h.moved

end Set

end Keyed
