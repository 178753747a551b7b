import Mathlib

-- The full blocks of `n` elements that a list starts with. What is left over makes up no block.
def chunks (n : Nat) (l : List α) : List (List α) :=
  (List.range (l.length / n)).map fun i => (l.drop (i * n)).take n

section Chunks

variable {n k : Nat} {l l' b : List α}

@[simp]
theorem chunks_length : (chunks n l).length = l.length / n := by
  simp [chunks]

@[simp]
theorem chunks_nil : chunks n ([] : List α) = [] := by
  simp [chunks]

theorem chunks_of_lt (h : l.length < n) : chunks n l = [] := by
  simp [chunks, Nat.div_eq_of_lt h]

theorem chunks_append_cons (hn : 0 < n) (hb : b.length = n) : chunks n (b ++ l) = b :: chunks n l := by
  have hl : (b ++ l).length / n = l.length / n + 1 := by
    rw [List.length_append, hb, Nat.add_div_left _ hn]
  rw [chunks, hl, List.range_succ_eq_map, List.map_cons, List.map_map]
  congr 1
  case e_head => simp [← hb]
  case e_tail =>
    refine List.map_congr_left fun i _ => ?_
    have hd : (i + 1) * n = b.length + i * n := by rw [hb]; ring
    simp [hd]

theorem chunks_of_le (hn : 0 < n) (h : n ≤ l.length) :
    chunks n l = l.take n :: chunks n (l.drop n) := by
  rw [← chunks_append_cons hn (List.length_take_of_le h), List.take_append_drop]

theorem chunks_append (hn : 0 < n) (hl : l.length = k * n) :
    chunks n (l ++ l') = chunks n l ++ chunks n l' := by
  induction k generalizing l
  case zero =>
    rw [Nat.zero_mul, List.length_eq_zero_iff] at hl
    simp [hl]
  case succ k hi =>
    rw [Nat.succ_mul] at hl
    have hd : (l.drop n).length = k * n := by rw [List.length_drop]; omega
    have hle : n ≤ l.length := by omega
    have hle' : n ≤ (l ++ l').length := by rw [List.length_append]; omega
    rw [chunks_of_le hn hle, chunks_of_le hn hle', List.take_append_of_le_length hle,
      List.drop_append_of_le_length hle, hi hd, List.cons_append]

theorem chunks_take (hn : 0 < n) (hk : k * n ≤ l.length) :
    chunks n (l.take (k * n)) = (chunks n l).take k := by
  have hl : (l.take (k * n)).length = k * n := List.length_take_of_le hk
  have hc : chunks n (l.take (k * n) ++ l.drop (k * n)) = _ := chunks_append hn hl
  rw [List.take_append_drop] at hc
  rw [hc, List.take_left' (by rw [chunks_length, hl, Nat.mul_div_cancel _ hn])]

theorem length_of_mem_chunks (h : b ∈ chunks n l) : b.length = n := by
  have ⟨i, hi, hb⟩ := List.mem_map.mp h
  have hl : (i + 1) * n ≤ l.length := Nat.mul_le_of_le_div _ _ _ (List.mem_range.mp hi)
  rw [← hb, List.length_take, List.length_drop]
  rw [Nat.succ_mul] at hl
  omega

theorem flatten_chunks (hn : 0 < n) (hl : l.length = k * n) : (chunks n l).flatten = l := by
  induction k generalizing l
  case zero =>
    rw [Nat.zero_mul, List.length_eq_zero_iff] at hl
    simp [hl]
  case succ k hi =>
    rw [Nat.succ_mul] at hl
    have hd : (l.drop n).length = k * n := by rw [List.length_drop]; omega
    rw [chunks_of_le hn (by omega), List.flatten_cons, hi hd, List.take_append_drop]

end Chunks

-- The extensions of `base` by one, two and so on of the full blocks that `l` starts with.
def extensions (n : Nat) (base l : List α) : List (List α) :=
  (List.range (l.length / n)).map fun i => base ++ l.take ((i + 1) * n)

section Extensions

variable {n k : Nat} {base l l' t : List α}

@[simp]
theorem extensions_length : (extensions n base l).length = l.length / n := by
  simp [extensions]

theorem extensions_getElem? {i : Nat} (h : i < l.length / n) :
    (extensions n base l)[i]? = some (base ++ l.take ((i + 1) * n)) := by
  simp [extensions, h]

theorem mem_extensions : t ∈ extensions n base l ↔
    ∃ i < l.length / n, t = base ++ l.take ((i + 1) * n) := by
  simp [extensions, eq_comm]

theorem extensions_append (hn : 0 < n) (hl : n ∣ l.length) :
    extensions n base (l ++ l') = extensions n base l ++ extensions n (base ++ l) l' := by
  have ⟨k, hk⟩ := hl
  have hd : (l ++ l').length / n = k + l'.length / n := by
    rw [List.length_append, hk, Nat.mul_add_div hn]
  rw [extensions, hd, List.range_add, List.map_append, List.map_map]
  congr 1
  case e_a =>
    rw [extensions, hk, Nat.mul_div_cancel_left _ hn]
    refine List.map_congr_left fun i hi => ?_
    have hle : (i + 1) * n ≤ l.length := by
      rw [hk, Nat.mul_comm n]
      exact Nat.mul_le_mul_right n (List.mem_range.mp hi)
    rw [List.take_append_of_le_length hle]
  case e_a =>
    refine List.map_congr_left fun i _ => ?_
    have he : (k + i + 1) * n = l.length + (i + 1) * n := by rw [hk]; ring
    rw [Function.comp_apply, he, List.take_length_add_append, List.append_assoc]

theorem extensions_of_le (hn : 0 < n) (h : n ≤ l.length) :
    extensions n base l = (base ++ l.take n) :: extensions n (base ++ l.take n) (l.drop n) := by
  have hl : (l.take n).length = n := List.length_take_of_le h
  have hs : extensions n base (l.take n) = [base ++ l.take n] := by
    simp [extensions, hl, Nat.div_self hn, List.take_of_length_le hl.le]
  rw [← List.singleton_append, ← hs, ← extensions_append hn (dvd_of_eq hl.symm),
    List.take_append_drop]

theorem extensions_concat (hn : 0 < n) (hl : l.length = (k + 1) * n) :
    ∃ m, m.length = k ∧ extensions n base l = m ++ [base ++ l] := by
  refine ⟨(List.range k).map fun i => base ++ l.take ((i + 1) * n), by simp, ?_⟩
  rw [extensions, hl, Nat.mul_div_cancel _ hn, List.range_succ, List.map_append, List.map_singleton,
    List.take_of_length_le hl.le]

theorem le_length_of_mem_extensions (h : t ∈ extensions n base l) : n ≤ t.length := by
  have ⟨i, hi, ht⟩ := mem_extensions.mp h
  have hle : (i + 1) * n ≤ l.length := Nat.mul_le_of_le_div _ _ _ hi
  rw [ht, List.length_append, List.length_take_of_le hle, Nat.succ_mul]
  omega

theorem dvd_length_of_mem_extensions (hb : n ∣ base.length) (h : t ∈ extensions n base l) :
    n ∣ t.length := by
  have ⟨i, hi, ht⟩ := mem_extensions.mp h
  have hle : (i + 1) * n ≤ l.length := Nat.mul_le_of_le_div _ _ _ hi
  rw [ht, List.length_append, List.length_take_of_le hle]
  exact hb.add (Dvd.intro_left _ rfl)

end Extensions
