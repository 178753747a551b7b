import Mathlib

theorem List.Forall₂.exists_of_mem {R : A → B → Prop} (h : List.Forall₂ R l l') (ha : a ∈ l) : ∃ b, R a b := by
  induction h
  case nil => cases ha
  case cons hr _ ih =>
    rcases ha with _ | ⟨_, ha⟩
    case head => exact ⟨_, hr⟩
    case tail => exact ih ha

-- Computations that may fail.
namespace Except

variable {ε α β : Type}

@[simp]
theorem bind_eq_ok {x : Except ε α} {f : α → Except ε β} {b : β} :
    (x >>= f) = .ok b ↔ ∃ a, x = .ok a ∧ f a = .ok b := by
  cases x
  case error => simp [Bind.bind, Except.bind]
  case ok a => simp [Bind.bind, Except.bind]

@[simp]
theorem pure_eq_ok {a b : α} : (pure a : Except ε α) = .ok b ↔ a = b := by
  simp [pure, Except.pure]

@[simp]
theorem map_eq_ok {x : Except ε α} {f : α → β} {b : β} : f <$> x = .ok b ↔ ∃ a, x = .ok a ∧ f a = b := by
  cases x
  case error => simp [Functor.map, Except.map]
  case ok a => simp [Functor.map, Except.map]

@[simp]
theorem mapError_eq_ok {x : Except ε α} {f : ε → ε} {a : α} : x.mapError f = .ok a ↔ x = .ok a := by
  cases x
  case error => simp [Except.mapError]
  case ok => simp [Except.mapError]

theorem mapM_eq_ok {f : α → Except ε β} {l : List α} {bs : List β} :
    l.mapM f = .ok bs ↔ List.Forall₂ (fun a b => f a = .ok b) l bs := by
  induction l generalizing bs
  case nil => simp
  case cons a l ih =>
    simp only [List.mapM_cons, bind_eq_ok, pure_eq_ok, ih, List.forall₂_cons_left_iff, @eq_comm _ bs]
    exact exists_congr fun b => ⟨fun ⟨hb, l', h⟩ => ⟨l', hb, h⟩, fun ⟨l', hb, h⟩ => ⟨hb, l', h⟩⟩

theorem exists_of_isOk {x : Except ε α} (h : x.isOk = true) : ∃ a, x = .ok a := by
  cases x
  case error => cases h
  case ok a => exact ⟨a, rfl⟩

end Except
