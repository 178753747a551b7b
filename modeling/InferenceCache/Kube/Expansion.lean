import InferenceCache.Lib.Strings

-- References to variables in the arguments of a container, as in `k8s.io/kubernetes` package `expansion`.
namespace InferenceCache.Kube

-- The names in `$(…)`, where `$$` stands for a dollar sign. `name` is what has been read of a name. One that
-- is not closed is none.
def referencesFrom (name : Option GoString) : GoString → List GoString
  | []         => []
  | c :: input =>
    match name with
    | some name => if c = 0x29 then name :: referencesFrom none input else referencesFrom (some (name ++ [c])) input
    | none      =>
      if c ≠ 0x24 then referencesFrom none input else
        match input with
        | []         => []
        | d :: input => referencesFrom (if d = 0x28 then some [] else none) input

def references (input : GoString) : List GoString :=
  referencesFrom none input

theorem referencesFrom_name (h : 0x29 ∉ s) :
    referencesFrom (some name) (s ++ 0x29 :: t) = (name ++ s) :: references t := by
  induction s generalizing name
  case nil => simp [referencesFrom, references]
  case cons c s hi =>
    have ⟨hc, hs⟩ : c ≠ 0x29 ∧ 0x29 ∉ s := by simpa [eq_comm] using h
    simp [referencesFrom, hc, hi hs]

theorem references_append (h : 0x24 ∉ s) : references (s ++ t) = references t := by
  induction s
  case nil => rfl
  case cons c s hi =>
    have ⟨hc, hs⟩ : c ≠ 0x24 ∧ 0x24 ∉ s := by simpa [eq_comm] using h
    rw [← hi hs]
    simp only [references, List.cons_append]
    cases s ++ t <;> simp [referencesFrom, hc]

theorem references_of_not_mem (h : 0x24 ∉ s) : references s = [] := by
  have ha : references (s ++ []) = references [] := references_append h
  rwa [List.append_nil] at ha

theorem references_reference (h : 0x29 ∉ s) :
    references (0x24 :: 0x28 :: (s ++ 0x29 :: t)) = s :: references t := by
  have hn : referencesFrom (some []) (s ++ 0x29 :: t) = ([] ++ s) :: references t := referencesFrom_name h
  simpa [references, referencesFrom] using hn

end InferenceCache.Kube
