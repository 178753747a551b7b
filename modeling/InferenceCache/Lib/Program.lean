import Mathlib

-- Programs that work on a state and may fail. One that fails leaves the state as it is at that point.
def Program (E S A : Type) : Type :=
  S → Except E A × S

namespace Program

variable {E S A B : Type}

instance : Monad (Program E S) where
  pure a := fun s => (.ok a, s)
  bind m f := fun s =>
    match m s with
    | (.ok a, s')    => f a s'
    | (.error e, s') => (.error e, s')

def fail (e : E) : Program E S A :=
  fun s => (.error e, s)

def of (r : Except E A) : Program E S A :=
  fun s => (r, s)

-- If the program returns then with `q`, and if it fails then with `e`.
def wp (m : Program E S A) (q : A → S → Prop) (e : S → Prop) (s : S) : Prop :=
  match m s with
  | (.ok a, s')    => q a s'
  | (.error _, s') => e s'

section Rules

variable {m : Program E S A} {f : A → Program E S B} {q q' : A → S → Prop} {q₂ : B → S → Prop}
variable {e e' : S → Prop} {s : S}

theorem wp_of {r : Except E A} (hq : ∀ a, r = .ok a → q a s) (he : ∀ err, r = .error err → e s) :
    wp (of r) q e s := by
  cases r
  case ok a => exact hq a rfl
  case error err => exact he err rfl

theorem wp_bind : wp (m >>= f) q₂ e s ↔ wp m (fun a s => wp (f a) q₂ e s) e s := by
  show (match (match m s with
    | (.ok a, s') => f a s'
    | (.error err, s') => (.error err, s')) with
    | (.ok b, s') => q₂ b s'
    | (.error _, s') => e s') ↔ _
  rw [wp]
  rcases m s with ⟨_ | _, s'⟩ <;> rfl

theorem wp.mono (h : wp m q e s) (hq : ∀ a s, q a s → q' a s) (he : ∀ s, e s → e' s) : wp m q' e' s := by
  unfold wp at h ⊢
  split at h
  case h_1 hm => exact hq _ _ h
  case h_2 hm => exact he _ h

theorem wp.and (h : wp m q e s) (h' : wp m q' e' s) :
    wp m (fun a s => q a s ∧ q' a s) (fun s => e s ∧ e' s) s := by
  unfold wp at h h' ⊢
  split at h
  case h_1 hm => rw [hm] at h'; exact ⟨h, h'⟩
  case h_2 hm => rw [hm] at h'; exact ⟨h, h'⟩

-- What holds in either case holds of the state that a program leaves.
theorem wp.state {p : S → Prop} (h : wp m (fun _ => p) p s) : p (m s).2 := by
  unfold wp at h
  split at h <;> rename_i hm <;> rw [hm] <;> exact h

end Rules

section Loop

variable {X : Type} {f : A → X → Program E S A} {e : S → Prop} {a : A} {s : S}

-- `I` is about what has been visited and what is still to come.
theorem wp_foldlM {I : List X → List X → A → S → Prop} {l : List X}
    (hs : ∀ l₁ x l₂ a s, l = l₁ ++ x :: l₂ → I l₁ (x :: l₂) a s → wp (f a x) (I (l₁ ++ [x]) l₂) e s)
    (h : I [] l a s) : wp (l.foldlM f a) (I l []) e s := by
  suffices ∀ l₂ l₁ a s, l = l₁ ++ l₂ → I l₁ l₂ a s → wp (l₂.foldlM f a) (I l []) e s from this l [] a s rfl h
  intro l₂
  induction l₂
  case nil =>
    intro l₁ a s hl hi
    rw [List.append_nil] at hl
    exact hl ▸ hi
  case cons x l₂ ih =>
    intro l₁ a s hl hi
    rw [List.foldlM_cons, wp_bind]
    refine (hs l₁ x l₂ a s hl hi).mono (fun a s hi => ?_) fun _ h => h
    exact ih (l₁ ++ [x]) a s (by rw [hl, List.append_assoc, List.singleton_append]) hi

-- The invariant of a loop that only depends on the members of the list.
theorem wp_foldlM_of_mem {I : A → S → Prop} {l : List X} (hs : ∀ x ∈ l, ∀ a s, I a s → wp (f a x) I e s)
    (h : I a s) : wp (l.foldlM f a) I e s := by
  refine wp_foldlM (I := fun _ _ => I) (fun l₁ x l₂ a s hl hi => hs x ?_ a s hi) h
  rw [hl]
  exact List.mem_append_right _ List.mem_cons_self

end Loop

end Program
