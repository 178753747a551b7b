import Mathlib

-- Chains of digests over the blocks of a sequence. The first link is the digest of the first block,
-- every other one is the digest of the link before it and of the digest of its block.
structure HashChain (B X H : Type) where
  digest : X → H
  block  : B → X
  link   : H → H → X

namespace HashChain

variable {B X H : Type} (c : HashChain B X H)

def content (b : B) : H :=
  c.digest (c.block b)

def roll (prev : Option H) (b : B) : H :=
  match prev with
  | none   => c.content b
  | some h => c.digest (c.link h (c.content b))

def links (prev : Option H) : List B → List H
  | []     => []
  | b :: l => c.roll prev b :: links (some (c.roll prev b)) l

def final (prev : Option H) (l : List B) : Option H :=
  l.foldl (fun h b => some (c.roll h b)) prev

variable {c} {prev : Option H} {l l' : List B} {b : B} {n : Nat}

@[simp]
theorem links_length : (c.links prev l).length = l.length := by
  induction l generalizing prev
  case nil => rfl
  case cons b l hi => simp [links, hi]

theorem final_append : c.final prev (l ++ l') = c.final (c.final prev l) l' :=
  List.foldl_append

theorem final_concat : c.final prev (l ++ [b]) = some (c.roll (c.final prev l) b) :=
  List.foldl_concat _ _ _ _

theorem final_none_eq_none_iff : c.final none l = none ↔ l = [] := by
  cases l using List.reverseRecOn
  case nil => simp [final]
  case append_singleton l b => simp [final_concat]

theorem links_getElem? (h : n < l.length) : (c.links prev l)[n]? = c.final prev (l.take (n + 1)) := by
  induction l generalizing prev n
  case nil => cases h
  case cons b l hi =>
    cases n
    case zero => rfl
    case succ n => exact hi (Nat.lt_of_succ_lt_succ h)

def inputs (c : HashChain B X H) (l : List B) : Set X :=
  { x | (∃ b ∈ l, x = c.block b) ∨
    ∃ m b h, m ++ [b] <+: l ∧ c.final none m = some h ∧ x = c.link h (c.content b) }

theorem inputs_mono (h : l <+: l') : c.inputs l ⊆ c.inputs l' := by
  rintro x (⟨b, hb, hx⟩ | ⟨m, b, p, hm, hx⟩)
  case inl => exact .inl ⟨b, h.subset hb, hx⟩
  case inr => exact .inr ⟨m, b, p, hm.trans h, hx⟩

theorem block_mem_inputs (h : b ∈ l) : c.block b ∈ c.inputs l :=
  .inl ⟨b, h, rfl⟩

theorem link_mem_inputs {h : H} (hl : c.final none l = some h) :
    c.link h (c.content b) ∈ c.inputs (l ++ [b]) :=
  .inr ⟨l, b, h, List.prefix_refl _, hl, rfl⟩

theorem inputs_singleton : c.inputs [b] = {c.block b} := by
  ext x
  simp only [inputs, Set.mem_ofPred_eq, List.mem_singleton, exists_eq_left, Set.mem_singleton_iff,
    or_iff_left_iff_imp]
  rintro ⟨m, b', h, hm, hf, -⟩
  have hl := hm.length_le
  rw [List.length_append, List.length_singleton, List.length_singleton] at hl
  rw [List.length_eq_zero_iff.mp (by omega : m.length = 0)] at hf
  cases hf

theorem inputs_pair {b' : B} :
    c.inputs [b, b'] = {c.block b, c.block b', c.link (c.content b) (c.content b')} := by
  ext x
  simp only [Set.mem_insert_iff, Set.mem_singleton_iff]
  constructor
  case mp =>
    rintro (⟨d, hd, hx⟩ | ⟨m, d, h, hm, hf, hx⟩)
    case inl =>
      simp only [List.mem_cons, List.not_mem_nil, or_false] at hd
      cases hd <;> simp_all
    case inr =>
      match m with
      | [] => cases hf
      | [_] =>
        obtain ⟨rfl, rfl, -⟩ := by simpa using hm
        cases hf
        exact .inr <| .inr hx
      | _ :: _ :: _ =>
        have hl := hm.length_le
        simp at hl
  case mpr =>
    rintro (rfl | rfl | rfl)
    case inl => exact block_mem_inputs (by simp)
    case inr.inl => exact block_mem_inputs (by simp)
    case inr.inr => exact link_mem_inputs (l := [b]) rfl

-- If no two of the inputs collide, and no block looks like a link, then a link determines all blocks
-- it stands for.
theorem eq_of_final_eq (hb : Function.Injective c.block) (hl : Function.Injective2 c.link)
    (hs : ∀ b ∈ l, ∀ h h', c.block b ≠ c.link h h') (hs' : ∀ b ∈ l', ∀ h h', c.block b ≠ c.link h h')
    (hd : Set.InjOn c.digest (c.inputs l ∪ c.inputs l')) (hn : l ≠ []) (hn' : l' ≠ [])
    (h : c.final none l = c.final none l') : l = l' := by
  induction l using List.reverseRecOn generalizing l'
  case nil => exact absurd rfl hn
  case append_singleton m b hi =>
    obtain ⟨m', b', rfl⟩ := List.eq_nil_or_concat' l' |>.resolve_left hn'
    rw [final_concat, final_concat, Option.some_inj] at h
    have hbi : c.block b ∈ c.inputs (m ++ [b]) ∪ c.inputs (m' ++ [b']) :=
      .inl <| block_mem_inputs (by simp)
    have hbi' : c.block b' ∈ c.inputs (m ++ [b]) ∪ c.inputs (m' ++ [b']) :=
      .inr <| block_mem_inputs (by simp)
    have hbb : c.content b = c.content b' → b = b' := fun he => hb (hd hbi hbi' he)
    cases hm : c.final none m <;> cases hm' : c.final none m' <;> rw [hm, hm'] at h
    case none.none =>
      rw [final_none_eq_none_iff.mp hm, final_none_eq_none_iff.mp hm', hbb h]
    case none.some p' =>
      exact absurd (hd hbi (.inr <| link_mem_inputs hm') h) (hs b (by simp) _ _)
    case some.none p =>
      exact absurd (hd (.inl <| link_mem_inputs hm) hbi' h).symm (hs' b' (by simp) _ _)
    case some.some p p' =>
      have ⟨hp, hc⟩ := hl (hd (.inl <| link_mem_inputs hm) (.inr <| link_mem_inputs hm') h)
      have hne : m ≠ [] := fun hn => by rw [hn] at hm; cases hm
      have hne' : m' ≠ [] := fun hn => by rw [hn] at hm'; cases hm'
      have hsub : c.inputs m ∪ c.inputs m' ⊆ c.inputs (m ++ [b]) ∪ c.inputs (m' ++ [b']) :=
        Set.union_subset_union (inputs_mono <| List.prefix_append _ _)
          (inputs_mono <| List.prefix_append _ _)
      have he := hi (fun b hb => hs b (by simp [hb])) (fun b hb => hs' b (by simp [hb]))
        (hd.mono hsub) hne hne' (by rw [hm, hm', hp])
      rw [he, hbb hc]

end HashChain
