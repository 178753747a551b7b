import InferenceCache.Lib.Nested

-- Counting maps: for each class, how many members of a set fall into it, where a class without
-- members has no entry at all.
namespace Finmap

variable {A B X : Type} [DecidableEq A] [DecidableEq B] [DecidableEq X]

-- `c[a]++`
def incr (c : GoMap A Int) (a : A) : GoMap A Int :=
  c.insert a (c.count a + 1)

-- `if n := c[a] - 1; n <= 0 { delete(c, a) } else { c[a] = n }`
def decr (c : GoMap A Int) (a : A) : GoMap A Int :=
  if c.count a - 1 ≤ 0 then c.erase a else c.insert a (c.count a - 1)

-- `c[a][b]++`
def incr₂ (c : GoMap A (GoMap B Int)) (a : A) (b : B) : GoMap A (GoMap B Int) :=
  c.insert₂ a b ((c.inner a).count b + 1)

-- `decr` on the inner map, which is dropped when its last entry goes.
def decr₂ (c : GoMap A (GoMap B Int)) (a : A) (b : B) : GoMap A (GoMap B Int) :=
  match c.lookup a with
  | none   => c
  | some i => if i.count b - 1 ≤ 0 then c.erase₂ a b else c.insert a (i.insert b (i.count b - 1))

theorem flatten_incr₂ {c : GoMap A (GoMap B Int)} {a : A} {b : B} :
    (c.incr₂ a b).flatten = c.flatten.incr (a, b) := by
  rw [incr₂, incr, flatten_insert₂, count, count, lookup_inner, lookup_flatten]

theorem flatten_decr₂ {c : GoMap A (GoMap B Int)} {a : A} {b : B} :
    (c.decr₂ a b).flatten = c.flatten.decr (a, b) := by
  unfold decr₂ decr
  have hc : c.flatten.count (a, b) = (c.inner a).count b := by
    rw [count, count, lookup_inner, lookup_flatten]
  cases h : c.lookup a
  case none =>
    have h₀ : c.lookup₂ a b = none := by simp [lookup₂, h]
    have h₁ : c.flatten.count (a, b) - 1 ≤ 0 := by simp [count, h₀]
    simp only [h₁, if_true]
    refine ext_lookup fun x => ?_
    rw [lookup_erase_ite]
    split
    case isTrue hx => simp [hx, h₀]
    case isFalse => rfl
  case some i =>
    have hi : c.inner a = i := by simp [inner, h]
    rw [hc, hi]
    dsimp only
    split
    case isTrue => exact flatten_erase₂
    case isFalse =>
      rw [← flatten_insert₂, insert₂, hi]

theorem NoEmpty.incr₂ {c : GoMap A (GoMap B Int)} (h : c.NoEmpty) {a : A} {b : B} :
    (c.incr₂ a b).NoEmpty :=
  h.insert₂

theorem NoEmpty.decr₂ {c : GoMap A (GoMap B Int)} (h : c.NoEmpty) {a : A} {b : B} :
    (c.decr₂ a b).NoEmpty := by
  unfold Finmap.decr₂
  cases c.lookup a
  case none => exact h
  case some i =>
    dsimp only
    split
    case isTrue => exact h.erase₂
    case isFalse => exact h.insert <| ne_empty_of_lookup (lookup_insert _)

-- The number of members of `s` in class `a`, as a counting map reads it.
def tally (s : Finset X) (f : X → A) (a : A) : Option Int :=
  if s.filter (f · = a) = ∅ then none else some (s.filter (f · = a)).card

def Tallies (c : GoMap A Int) (s : Finset X) (f : X → A) : Prop :=
  ∀ a, c.lookup a = tally s f a

namespace Tallies

variable {c c₁ c₂ : GoMap A Int} {s : Finset X} {f : X → A} {x : X}

theorem empty : Tallies (∅ : GoMap A Int) (∅ : Finset X) f := by
  intro a
  simp [tally]

theorem unique (h₁ : Tallies c₁ s f) (h₂ : Tallies c₂ s f) : c₁ = c₂ :=
  ext_lookup fun a => (h₁ a).trans (h₂ a).symm

theorem count_eq (h : Tallies c s f) (a : A) : c.count a = (s.filter (f · = a)).card := by
  rw [count, h a, tally]
  split
  case isTrue he => simp [he]
  case isFalse => rfl

theorem lookup_eq_none_iff (h : Tallies c s f) (a : A) : c.lookup a = none ↔ ∀ x ∈ s, f x ≠ a := by
  rw [h a, tally, ← Finset.filter_eq_empty_iff]
  split <;> simp_all

theorem incr (h : Tallies c s f) (hx : x ∉ s) : Tallies (c.incr (f x)) (Insert.insert x s) f := by
  intro a
  rw [Finmap.incr, lookup_insert_ite, h.count_eq]
  by_cases ha : f x = a
  case neg =>
    have hf : (Insert.insert x s).filter (f · = a) = s.filter (f · = a) := by
      rw [Finset.filter_insert, if_neg ha]
    rw [if_neg (Ne.symm ha), h a, tally, tally, hf]
  case pos =>
    subst ha
    have hn : x ∉ s.filter (f · = f x) := by simp [hx]
    simp only [if_true, tally, Finset.filter_insert, Finset.insert_ne_empty, if_false]
    rw [Finset.card_insert_of_notMem hn]
    push_cast
    rfl

theorem decr (h : Tallies c s f) (hx : x ∈ s) : Tallies (c.decr (f x)) (s.erase x) f := by
  intro a
  rw [Finmap.decr, h.count_eq]
  by_cases ha : f x = a
  case neg =>
    have hf : (s.erase x).filter (f · = a) = s.filter (f · = a) := by
      rw [Finset.filter_erase, Finset.erase_eq_of_notMem]
      simp [ha]
    have hc : c.lookup a = tally (s.erase x) f a := by rw [h a, tally, tally, hf]
    split
    case isTrue => rw [lookup_erase_ite, if_neg (Ne.symm ha), hc]
    case isFalse => rw [lookup_insert_ite, if_neg (Ne.symm ha), hc]
  case pos =>
    subst ha
    have hm : x ∈ s.filter (f · = f x) := by simp [hx]
    have hc := Finset.card_erase_of_mem hm
    have hp := Finset.card_pos.mpr ⟨x, hm⟩
    rw [tally, Finset.filter_erase]
    split
    case isTrue hle =>
      rw [lookup_erase, if_pos]
      rw [← Finset.card_eq_zero]
      omega
    case isFalse hgt =>
      have hn : (s.filter (f · = f x)).erase x ≠ ∅ := by
        rw [Ne, ← Finset.card_eq_zero]
        omega
      rw [lookup_insert, if_neg hn, hc]
      congr 1
      omega

section Outer

-- Counting the outer keys of a nested map. A new inner entry adds to the count if it is the first of
-- its key, and the removal of one takes from it if it was the last.

variable {C V : Type} [DecidableEq C] {m : GoMap A (GoMap B V)} {c : GoMap C Int} {f : A → C}
variable {a : A} {b : B} {v : V}

theorem insert₂ (h : Tallies c m.keys f) :
    Tallies (if a ∈ m.keys then c else c.incr (f a)) (m.insert₂ a b v).keys f := by
  rw [keys_insert₂]
  split
  case isTrue ha => rwa [Finset.insert_eq_of_mem ha]
  case isFalse ha => exact h.incr ha

theorem erase₂ (h : Tallies c m.keys f) (ha : a ∈ m.keys) :
    Tallies (if a ∈ (m.erase₂ a b).keys then c else c.decr (f a)) (m.erase₂ a b).keys f := by
  split
  case isTrue he => rwa [keys_erase₂_of_mem he]
  case isFalse he => rw [keys_erase₂_of_notMem he]; exact h.decr ha

end Outer

-- Counting the members one by one, in whatever order they come.
theorem foldl_incr {l : List X} (h : l.Nodup) :
    Tallies (l.foldl (fun c x => c.incr (f x)) ∅) l.toFinset f := by
  induction l using List.reverseRecOn
  case nil => exact empty
  case append_singleton l x hi =>
    have hn := List.nodup_append.mp h
    have hx : x ∉ l.toFinset := fun hx => hn.2.2 x (List.mem_toFinset.mp hx) x (by simp) rfl
    rw [List.foldl_concat, List.toFinset_append, List.toFinset_cons, List.toFinset_nil,
      Finset.union_comm, Finset.insert_union, Finset.empty_union]
    exact (hi hn.1).incr hx

-- Dropping whole classes drops their members.
theorem filter (h : Tallies c s f) {p : A → Bool} :
    Tallies (c.filter fun a _ => p a) (s.filter (p <| f ·)) f := by
  intro a
  rw [lookup_filter, h a, tally, tally, Finset.filter_filter]
  cases hp : p a
  case true =>
    have he : s.filter (fun x => p (f x) = true ∧ f x = a) = s.filter (f · = a) := by
      refine Finset.filter_congr fun x _ => ⟨And.right, fun hx => ⟨hx ▸ hp, hx⟩⟩
    rw [he]
    split <;> simp [Option.filter]
  case false =>
    have he : s.filter (fun x => p (f x) = true ∧ f x = a) = ∅ := by
      refine Finset.filter_eq_empty_iff.mpr fun x _ ⟨hx, hxa⟩ => ?_
      simp [hxa, hp] at hx
    rw [he]
    split <;> simp [Option.filter]

-- Counts over two sets agree on the classes in which the sets have the same members.
theorem lookup_congr {s₁ s₂ : Finset X} (h₁ : Tallies c₁ s₁ f) (h₂ : Tallies c₂ s₂ f) {a : A}
    (h : ∀ x, f x = a → (x ∈ s₁ ↔ x ∈ s₂)) : c₁.lookup a = c₂.lookup a := by
  have he : s₁.filter (f · = a) = s₂.filter (f · = a) := by
    ext x
    simp only [Finset.mem_filter]
    exact and_congr_left (h x)
  rw [h₁ a, h₂ a, tally, tally, he]

end Tallies

end Finmap
