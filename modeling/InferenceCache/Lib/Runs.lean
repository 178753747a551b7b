import Mathlib

-- Runs of a labelled transition relation, with their labels in order.
inductive Runs {S X : Type} (step : S → X → S → Prop) : S → List X → S → Prop
  | nil (s : S) : Runs step s [] s
  | cons {s s' s'' : S} {x : X} {l : List X} :
    step s x s' → Runs step s' l s'' → Runs step s (x :: l) s''

namespace Runs

variable {S X Y : Type} {step : S → X → S → Prop} {s s' : S} {x : X} {l l' : List X}

theorem nil_iff : Runs step s [] s' ↔ s = s' := by
  constructor
  case mp =>
    intro h
    cases h
    rfl
  case mpr =>
    intro h
    exact h ▸ .nil _

theorem cons_iff : Runs step s (x :: l) s' ↔ ∃ m, step s x m ∧ Runs step m l s' := by
  constructor
  case mp =>
    intro h
    cases h
    case cons m h hr => exact ⟨m, h, hr⟩
  case mpr =>
    intro ⟨_, h, hr⟩
    exact .cons h hr

theorem singleton_iff : Runs step s [x] s' ↔ step s x s' := by
  simp [cons_iff, nil_iff]

theorem append_iff : Runs step s (l ++ l') s' ↔ ∃ m, Runs step s l m ∧ Runs step m l' s' := by
  induction l generalizing s
  case nil => simp [nil_iff]
  case cons x l hi =>
    simp only [List.cons_append, cons_iff, hi]
    constructor
    case mp => exact fun ⟨m, h, m', hl, hr⟩ => ⟨m', ⟨m, h, hl⟩, hr⟩
    case mpr => exact fun ⟨m', ⟨m, h, hl⟩, hr⟩ => ⟨m, h, m', hl, hr⟩

theorem invariant {p : S → Prop} (h : ∀ {s x s'}, p s → step s x s' → p s') (hs : p s)
    (hr : Runs step s l s') : p s' := by
  induction hr
  case nil => exact hs
  case cons hx _ hi => exact hi (h hs hx)

-- Labels that stand for several steps each.
theorem flatMap_iff {f : Y → List X} {l : List Y} :
    Runs step s (l.flatMap f) s' ↔ Runs (fun s y s' => Runs step s (f y) s') s l s' := by
  induction l generalizing s
  case nil => simp [nil_iff]
  case cons y l hi => simp only [List.flatMap_cons, append_iff, cons_iff, hi]

end Runs

-- A program that answers each input by a list of outputs.
def emitAll {S X O : Type} (react : S → X → List O × S) : S → List X → List O × S
  | s, []     => ([], s)
  | s, x :: l =>
    let r := react s x
    let rest := emitAll react r.2 l
    (r.1 ++ rest.1, rest.2)

theorem forall_emitAll {S X O : Type} {react : S → X → List O × S} {p : O → Prop} {s : S} {l : List X}
    (h : ∀ s x, ∀ o ∈ (react s x).1, p o) : ∀ o ∈ (emitAll react s l).1, p o := by
  induction l generalizing s
  case nil => intro o ho; cases ho
  case cons x l hi =>
    intro o ho
    cases List.mem_append.mp ho
    case inl ho => exact h s x o ho
    case inr ho => exact hi o ho

-- A relation between where the inputs come from, the program and where the outputs go. If it is kept
-- whenever one input is answered, then it is kept by a run of the whole.
theorem Runs.simulates {A S W X O : Type} {source : A → X → A → Prop} {sink : W → O → W → Prop}
    {react : S → X → List O × S} {R : A → S → W → Prop}
    (h : ∀ {a a' s w w' x}, R a s w → source a x a' → Runs sink w (react s x).1 w' →
      R a' (react s x).2 w')
    {a a' : A} {s : S} {w w' : W} {l : List X} (hr : R a s w) (ha : Runs source a l a')
    (hw : Runs sink w (emitAll react s l).1 w') : R a' (emitAll react s l).2 w' := by
  induction ha generalizing s w
  case nil =>
    cases hw
    exact hr
  case cons hx _ hi =>
    have ⟨_, ho, hl⟩ := append_iff.mp hw
    exact hi (h hr hx ho) hl

-- The same with a source that is a function.
theorem Runs.simulates_foldl {A S W X O : Type} {f : A → X → A} {sink : W → O → W → Prop}
    {react : S → X → List O × S} {R : A → S → W → Prop}
    (h : ∀ {a s w w' x}, R a s w → Runs sink w (react s x).1 w' → R (f a x) (react s x).2 w')
    {a : A} {s : S} {w w' : W} {l : List X} (hr : R a s w) (hw : Runs sink w (emitAll react s l).1 w') :
    R (l.foldl f a) (emitAll react s l).2 w' := by
  have ha : Runs (fun a x a' => a' = f a x) a l (l.foldl f a) := by
    clear hw hr
    induction l generalizing a
    case nil => exact .nil _
    case cons x l hi => exact .cons rfl hi
  exact simulates (fun hr hx hw => hx ▸ h hr hw) hr ha hw

-- What is observed of a state, if only the inputs in `p` have an effect on it.
theorem observe_foldl {S X O : Type} (obs : S → O) {step : S → X → S} {act : O → X → O}
    {p : X → Bool} {s : S} {l : List X}
    (h : ∀ s, ∀ x ∈ l, obs (step s x) = if p x then act (obs s) x else obs s) :
    obs (l.foldl step s) = (l.filter p).foldl act (obs s) := by
  induction l generalizing s
  case nil => rfl
  case cons x l hi =>
    rw [List.foldl_cons, hi fun s y hy => h s y (.tail _ hy), h s x (.head _), List.filter_cons]
    split <;> rfl
