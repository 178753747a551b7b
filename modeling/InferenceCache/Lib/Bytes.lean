import Mathlib

instance UInt8.linearOrder : LinearOrder UInt8 where
  le_refl _          := UInt8.le_refl _
  le_trans _ _ _     := UInt8.le_trans
  le_antisymm _ _    := UInt8.le_antisymm
  le_total           := UInt8.le_total
  lt_iff_le_not_ge _ _ := by
    rw [UInt8.lt_iff_toNat_lt, UInt8.le_iff_toNat_le, UInt8.le_iff_toNat_le]
    omega
  toDecidableLE      := fun a b => inferInstanceAs (Decidable (a ≤ b))

-- A Go string is a sequence of bytes, of any content, and `<` on strings compares bytewise. So a
-- string and the byte slice it was converted from are the same object here.
abbrev GoString := List UInt8

abbrev Bytes := List UInt8

-- Under a name of its own, so that all tests for a string in a list share one instance.
instance GoString.lawfulBEq : LawfulBEq (List UInt8) :=
  inferInstance

-- A string literal of the source.
def utf8 (s : String) : GoString :=
  s.toUTF8.toList

-- The `n` low bytes of a number, least significant first.
def leBytes : (n : Nat) → Nat → Bytes
  | 0,     _ => []
  | n + 1, x => UInt8.ofNat x :: leBytes n (x / 256)

def beBytes (n : Nat) (x : Nat) : Bytes :=
  (leBytes n x).reverse

-- The number whose bytes are `b`, most significant first.
def ofBeBytes (b : Bytes) : Nat :=
  b.foldl (fun x d => 256 * x + d.toNat) 0

@[simp]
theorem leBytes_length : (leBytes n x).length = n := by
  induction n generalizing x <;> simp [leBytes, *]

@[simp]
theorem beBytes_length : (beBytes n x).length = n := by
  simp [beBytes]

theorem leBytes_add : leBytes (m + n) x = leBytes m x ++ leBytes n (x / 256 ^ m) := by
  induction m generalizing x
  case zero => simp [leBytes]
  case succ m hi =>
    rw [Nat.succ_add, leBytes, leBytes, hi, Nat.div_div_eq_div_mul, ← Nat.pow_succ']
    rfl

theorem leBytes_mod : leBytes n (x % 256 ^ n) = leBytes n x := by
  induction n generalizing x
  case zero => rfl
  case succ n hi =>
    have hd : x % 256 ^ (n + 1) / 256 = x / 256 % 256 ^ n := by
      rw [Nat.pow_succ', Nat.mod_mul_right_div_self]
    have hm : UInt8.ofNat (x % 256 ^ (n + 1)) = UInt8.ofNat x := by
      apply UInt8.toNat_inj.mp
      simp only [UInt8.toNat_ofNat']
      exact Nat.mod_mod_of_dvd _ ⟨256 ^ n, Nat.pow_succ'⟩
    rw [leBytes, leBytes, hd, hm, hi]

theorem leBytes_injective (hx : x < 256 ^ n) (hy : y < 256 ^ n) (h : leBytes n x = leBytes n y) :
    x = y := by
  induction n generalizing x y
  case zero => simp at hx hy; omega
  case succ n hi =>
    simp only [leBytes, List.cons.injEq] at h
    have hl : x % 256 = y % 256 := by simpa using congrArg UInt8.toNat h.1
    have hh := hi (by omega) (by omega) h.2
    omega

theorem beBytes_injective (hx : x < 256 ^ n) (hy : y < 256 ^ n) (h : beBytes n x = beBytes n y) :
    x = y :=
  leBytes_injective hx hy (List.reverse_injective h)

-- A list of byte strings, each after its length, is determined by the bytes it is written as.
theorem flatMap_length_append_injective {l l' : List Bytes} (hn : 0 < n)
    (hl : ∀ b ∈ l, b.length < 256 ^ n) (hl' : ∀ b ∈ l', b.length < 256 ^ n)
    (h : (l.flatMap fun b => beBytes n b.length ++ b) = l'.flatMap fun b => beBytes n b.length ++ b) :
    l = l' := by
  have hc (b : Bytes) (rest : List Bytes) :
      ((b :: rest).flatMap fun b => beBytes n b.length ++ b) ≠ [] := by
    intro he
    have hz := congrArg List.length he
    simp only [List.flatMap_cons, List.length_append, beBytes_length, List.length_nil] at hz
    omega
  induction l generalizing l'
  case nil =>
    cases l'
    case nil => rfl
    case cons => exact absurd h.symm (hc _ _)
  case cons b l hi =>
    cases l'
    case nil => exact absurd h (hc _ _)
    case cons b' l' =>
      have ⟨hb, hr⟩ := List.forall_mem_cons.mp hl
      have ⟨hb', hr'⟩ := List.forall_mem_cons.mp hl'
      simp only [List.flatMap_cons, List.append_assoc] at h
      have ⟨he, ht⟩ := List.append_inj h (by rw [beBytes_length, beBytes_length])
      have ⟨hh, hrest⟩ := List.append_inj ht (beBytes_injective hb hb' he)
      rw [hh, hi hr hr' hrest]
