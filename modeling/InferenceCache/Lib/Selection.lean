import Mathlib

-- `sort.Slice(l, less)`. Go fixes neither the algorithm nor the order of elements that compare
-- equal. For a strict total order this leaves one result, see `eq_sortSlice`.
def sortSlice (less : α → α → Bool) (l : List α) : List α :=
  l.insertionSort fun a b => less b a = false

theorem sortSlice_perm {less : α → α → Bool} {l : List α} : (sortSlice less l).Perm l :=
  List.perm_insertionSort _ _

-- A comparator that compares elements by their rank in a linear order.
def ComparesBy [LT R] (less : α → α → Bool) (rank : α → R) : Prop :=
  ∀ a b, less a b = true ↔ rank a < rank b

namespace ComparesBy

variable [LinearOrder R] {less : α → α → Bool} {rank : α → R} {l l' : List α}

theorem not_less_iff (h : ComparesBy less rank) {a b : α} : less b a = false ↔ rank a ≤ rank b := by
  simpa using (h b a).not

theorem pairwise_sortSlice (h : ComparesBy less rank) :
    (sortSlice less l).Pairwise (rank · ≤ rank ·) := by
  have : Std.Total fun a b => less b a = false :=
    ⟨fun a b => by simp only [h.not_less_iff]; exact le_total _ _⟩
  have : IsTrans α fun a b => less b a = false :=
    ⟨fun a b c => by simp only [h.not_less_iff]; exact le_trans⟩
  exact (List.pairwise_insertionSort _ l).imp h.not_less_iff.mp

theorem pairwise_lt_sortSlice (h : ComparesBy less rank) (hn : (l.map rank).Nodup) :
    (sortSlice less l).Pairwise (rank · < rank ·) := by
  have hn' : ((sortSlice less l).map rank).Nodup := (sortSlice_perm.map rank).nodup_iff.mpr hn
  have hne : (sortSlice less l).Pairwise (rank · ≠ rank ·) := List.pairwise_map.mp hn'
  exact h.pairwise_sortSlice.imp₂ (fun _ _ => lt_of_le_of_ne) hne

-- Whatever algorithm sorts the elements, and in whatever order it gets them.
theorem eq_sortSlice (h : ComparesBy less rank) (hn : (l.map rank).Nodup) (hp : l'.Perm l)
    (hs : l'.Pairwise fun a b => less b a = false) : l' = sortSlice less l := by
  have hs' : l'.Pairwise (rank · ≤ rank ·) := hs.imp h.not_less_iff.mp
  refine List.Perm.eq_of_pairwise ?_ hs' h.pairwise_sortSlice (hp.trans sortSlice_perm.symm)
  intro a b ha hb hab hba
  have hi := List.inj_on_of_nodup_map hn
  exact hi (hp.mem_iff.mp ha) (sortSlice_perm.mem_iff.mp hb) (le_antisymm hab hba)

theorem sortSlice_eq_of_perm (h : ComparesBy less rank) (hn : (l.map rank).Nodup) (hp : l.Perm l') :
    sortSlice less l = sortSlice less l' := by
  have hn' : (l'.map rank).Nodup := (hp.map rank).nodup_iff.mp hn
  refine h.eq_sortSlice hn' (sortSlice_perm.trans hp) ?_
  exact h.pairwise_sortSlice.imp h.not_less_iff.mpr

end ComparesBy

-- Of a sorted list, the first element that has a property is the lowest one that has it.
theorem find?_eq_some_iff_lowest [LinearOrder R] {rank : α → R} {p : α → Bool} {l : List α} {a : α}
    (hl : l.Pairwise (rank · < rank ·)) :
    l.find? p = some a ↔ a ∈ l ∧ p a = true ∧ ∀ b ∈ l, p b = true → rank a ≤ rank b := by
  induction l
  case nil => simp
  case cons x l hi =>
    have ⟨hx, hl⟩ := List.pairwise_cons.mp hl
    rw [List.find?_cons]
    cases hp : p x
    case true =>
      constructor
      case mp =>
        rintro ⟨⟩
        refine ⟨.head _, hp, fun b hb _ => ?_⟩
        cases hb
        case head => exact le_rfl
        case tail hb => exact (hx b hb).le
      case mpr =>
        rintro ⟨ha, -, hm⟩
        cases ha
        case head => rfl
        case tail ha => exact absurd (hm x (.head _) hp) (hx a ha).not_ge
    case false =>
      rw [hi hl]
      constructor
      case mp =>
        rintro ⟨ha, hr, hm⟩
        refine ⟨.tail _ ha, hr, fun b hb hb' => ?_⟩
        cases hb
        case head => rw [hp] at hb'; cases hb'
        case tail hb => exact hm b hb hb'
      case mpr =>
        rintro ⟨ha, hr, hm⟩
        cases ha
        case head => rw [hp] at hr; cases hr
        case tail ha => exact ⟨ha, hr, fun b hb => hm b (.tail _ hb)⟩

theorem sortSlice_congr {less less' : α → α → Bool} {l : List α}
    (h : ∀ a ∈ l, ∀ b ∈ l, less a b = less' a b) : sortSlice less l = sortSlice less' l := by
  have hi := List.map_insertionSort (fun a b => less b a = false) (fun a b => less' b a = false) id l
    fun a ha b hb => by rw [h b hb a ha, id, id]
  rwa [List.map_id, List.map_id] at hi

-- One component of a comparator that goes through the fields of a key one by one.
theorem toLex_lt_toLex_iff_ite {A B : Type} [LinearOrder A] [DecidableEq A] [LT B] {a a' : A} {b b' : B} :
    toLex (a, b) < toLex (a', b') ↔ if a ≠ a' then a < a' else b < b' := by
  rw [Prod.Lex.toLex_lt_toLex]
  split
  case isTrue h => simp [h]
  case isFalse h => simp [not_not.mp h]

section Assoc

variable {A B C : Type} [LinearOrder A] [LinearOrder B] [LinearOrder C] {a a' : A} {b b' : B} {c c' : C}

theorem toLex_le_of_lt_of_assoc (h : toLex (a, toLex (b, c)) < toLex (a', toLex (b', c'))) :
    toLex (a, b) ≤ toLex (a', b') := by
  rw [Prod.Lex.toLex_lt_toLex] at h
  rw [Prod.Lex.toLex_le_toLex]
  cases h
  case inl h => exact .inl h
  case inr h =>
    refine .inr ⟨h.1, ?_⟩
    cases Prod.Lex.toLex_lt_toLex.mp h.2
    case inl hb => exact hb.le
    case inr hb => exact hb.1.le

theorem toLex_lt_assoc_of_lt (h : toLex (a, b) < toLex (a', b')) :
    toLex (a, toLex (b, c)) < toLex (a', toLex (b', c')) := by
  rw [Prod.Lex.toLex_lt_toLex] at h ⊢
  cases h
  case inl h => exact .inl h
  case inr h => exact .inr ⟨h.1, Prod.Lex.toLex_lt_toLex.mpr (.inl h.2)⟩

end Assoc

section Selection

variable {X R : Type} [DecidableEq X] [LinearOrder R] {rank rank' : X → R} {n : Nat}
variable {s s' d k k' v v' : Finset X}

-- The members `v` of `s` are its `n` least by `rank`.
structure IsLowest (rank : X → R) (n : Nat) (s v : Finset X) : Prop where
  subset : v ⊆ s
  card   : v.card = n
  below  : ∀ x ∈ v, ∀ y ∈ s, y ∉ v → rank x < rank y

-- The members `k` of `s` are its `n` greatest by `rank`, or all of `s` if there are fewer.
structure IsHighest (rank : X → R) (n : Nat) (s k : Finset X) : Prop where
  subset : k ⊆ s
  card   : k.card = min n s.card
  above  : ∀ x ∈ k, ∀ y ∈ s, y ∉ k → rank y < rank x

theorem exists_mem_sdiff_of_card_eq (h : k.card = k'.card) (hx : x ∈ k) (hx' : x ∉ k') :
    ∃ y ∈ k', y ∉ k := by
  by_contra hc
  push Not at hc
  have := Finset.eq_of_subset_of_card_le hc h.le
  simp_all

theorem IsLowest.unique (h : IsLowest rank n s v) (h' : IsLowest rank n s v') : v = v' := by
  refine Finset.eq_of_subset_of_card_le (fun x hx => ?_) (h'.card.trans h.card.symm).le
  by_contra hx'
  have ⟨y, hy', hy⟩ := exists_mem_sdiff_of_card_eq (h.card.trans h'.card.symm) hx hx'
  exact lt_asymm (h.below x hx y (h'.subset hy') hy) (h'.below y hy' x (h.subset hx) hx')

omit [DecidableEq X] in
theorem IsLowest.congr (h : IsLowest rank n s v) (hr : ∀ x ∈ s, rank' x = rank x) :
    IsLowest rank' n s v where
  subset := h.subset
  card := h.card
  below x hx y hy hn := by
    rw [hr x (h.subset hx), hr y hy]
    exact h.below x hx y hy hn

theorem IsLowest.sdiff (h : IsLowest rank (s.card - n) s v) : IsHighest rank n s (s \ v) where
  subset := Finset.sdiff_subset
  card := by
    rw [Finset.card_sdiff_of_subset h.subset, h.card]
    omega
  above x hx y hy hn := by
    have ⟨hx, hxv⟩ := Finset.mem_sdiff.mp hx
    have hyv : y ∈ v := by simpa [hy] using hn
    exact h.below y hyv x hx hxv

-- Where some members rank below all others, those are selected first.
theorem IsLowest.subset_of_le_card (h : IsLowest rank n s v) (hn : n ≤ d.card)
    (hd : ∀ x ∈ d, ∀ y ∈ s, y ∉ d → rank x < rank y) (hs : d ⊆ s) : v ⊆ d := by
  intro x hx
  by_contra hxd
  have hlt : d.card < (Insert.insert x d).card := by
    rw [Finset.card_insert_of_notMem hxd]
    exact Nat.lt_succ_self _
  have hnot : ¬d ⊆ v := by
    intro hdv
    have hle := Finset.card_le_card (Finset.insert_subset hx hdv)
    rw [h.card] at hle
    omega
  have ⟨y, hy, hyv⟩ := Finset.not_subset.mp hnot
  exact lt_asymm (h.below x hx y (hs hy) hyv) (hd y hy x (h.subset hx) hxd)

omit [DecidableEq X] in
theorem isLowest_zero : IsLowest rank 0 s ∅ where
  subset := Finset.empty_subset _
  card := Finset.card_empty
  below := by simp

theorem isLowest_of_sorted {l : List X} (hl : l.Pairwise (rank · < rank ·)) (hn : n ≤ l.length) :
    IsLowest rank n l.toFinset (l.take n).toFinset where
  subset x := by
    simp only [List.mem_toFinset]
    exact List.mem_of_mem_take
  card := by
    have hd : l.Nodup := hl.imp fun h => fun he => lt_irrefl _ (he ▸ h)
    rw [List.toFinset_card_of_nodup (hd.sublist (List.take_sublist _ _)), List.length_take]
    omega
  below x hx y hy hn := by
    simp only [List.mem_toFinset] at hx hy hn
    rw [← List.take_append_drop n l] at hl hy
    have hy := (List.mem_append.mp hy).resolve_left hn
    exact (List.pairwise_append.mp hl).2.2 x hx y hy

-- The first `n` candidates after sorting. They are compared by what they record of the members they
-- stand for, which tells these apart.
theorem ComparesBy.isLowest_take {α : Type} {less : α → α → Bool} {rankOf : α → R} {name : α → X}
    {l : List α} (h : ComparesBy less rankOf) (hr : ∀ a ∈ l, rankOf a = rank (name a))
    (hi : Set.InjOn rank { x | x ∈ l.map name }) (hd : (l.map name).Nodup) (hn : n ≤ l.length) :
    IsLowest rank n (l.map name).toFinset (((sortSlice less l).take n).map name).toFinset := by
  have hp : ((sortSlice less l).map name).Perm (l.map name) := sortSlice_perm.map name
  have hm : l.map rankOf = (l.map name).map rank := by simpa using hr
  have hs : (sortSlice less l).Pairwise (rankOf · < rankOf ·) :=
    h.pairwise_lt_sortSlice <| hm ▸ hd.map_on fun x hx y hy => hi hx hy
  have hs' : ((sortSlice less l).map name).Pairwise (rank · < rank ·) := by
    refine List.pairwise_map.mpr <| hs.imp_of_mem fun ha hb => ?_
    rw [hr _ (sortSlice_perm.mem_iff.mp ha), hr _ (sortSlice_perm.mem_iff.mp hb)]
    exact id
  rw [← List.toFinset_eq_of_perm _ _ hp, List.map_take]
  exact isLowest_of_sorted hs' (by simpa [sortSlice_perm.length_eq] using hn)

namespace IsHighest

theorem unique (h : IsHighest rank n s k) (h' : IsHighest rank n s k') : k = k' := by
  refine Finset.eq_of_subset_of_card_le (fun x hx => ?_) (h'.card.trans h.card.symm).le
  by_contra hx'
  have ⟨y, hy', hy⟩ := exists_mem_sdiff_of_card_eq (h.card.trans h'.card.symm) hx hx'
  exact lt_asymm (h.above x hx y (h'.subset hy') hy) (h'.above y hy' x (h.subset hx) hx')

omit [DecidableEq X] in
-- Only the order of the members of `s` matters.
theorem of_lt {R' : Type} [LinearOrder R'] {rank' : X → R'} (h : IsHighest rank n s k)
    (hr : ∀ x ∈ s, ∀ y ∈ s, rank x < rank y → rank' x < rank' y) : IsHighest rank' n s k where
  subset := h.subset
  card := h.card
  above x hx y hy hn := hr y hy x (h.subset hx) <| h.above x hx y hy hn

omit [DecidableEq X] in
theorem eq_self_of_card_le (h : IsHighest rank n s k) (hn : s.card ≤ n) : k = s :=
  Finset.eq_of_subset_of_card_le h.subset (by rw [h.card]; omega)

-- Selecting greedily loses nothing. If `k` was selected from `s`, and then the members of `d` are
-- added or raised, selecting from `k ∪ d` is the same as selecting from everything seen so far: what
-- was dropped from `s` stays below the `n` members that displaced it, since none of them falls.
theorem absorb (h : IsHighest rank n s k) (hm : ∀ x ∈ s, rank x ≤ rank' x)
    (hf : ∀ x ∈ s, x ∉ d → rank' x = rank x) (h' : IsHighest rank' n (k ∪ d) k') :
    IsHighest rank' n (s ∪ d) k' := by
  by_cases hs : s.card ≤ n
  case pos => rwa [h.eq_self_of_card_le hs] at h'
  case neg =>
    have hk : k.card = n := by rw [h.card]; omega
    have hkd : n ≤ (k ∪ d).card := hk ▸ Finset.card_le_card Finset.subset_union_left
    have hk' : k'.card = n := by rw [h'.card]; omega
    have hsub : k ∪ d ⊆ s ∪ d := Finset.union_subset_union_left h.subset
    have hsd : n ≤ (s ∪ d).card := hkd.trans (Finset.card_le_card hsub)
    refine ⟨h'.subset.trans hsub, by rw [hk']; omega, fun x hx y hy hn => ?_⟩
    by_cases hykd : y ∈ k ∪ d
    case pos => exact h'.above x hx y hykd hn
    case neg =>
      rw [Finset.mem_union, not_or] at hykd
      have hys : y ∈ s := (Finset.mem_union.mp hy).resolve_right hykd.2
      have hlt : ∀ z ∈ k, rank' y < rank' z := fun z hz =>
        hf y hys hykd.2 ▸ (h.above z hz y hys hykd.1).trans_le (hm z (h.subset hz))
      by_cases hxk : x ∈ k
      case pos => exact hlt x hxk
      case neg =>
        have ⟨z, hz, hz'⟩ := exists_mem_sdiff_of_card_eq (hk'.trans hk.symm) hx hxk
        exact (hlt z hz).trans <| h'.above x hx z (Finset.mem_union_left _ hz) hz'

end IsHighest

end Selection

section Drain

variable {S X Y : Type} [DecidableEq Y] {full : S → Bool} {remove : S → X → S} {s : S} {l : List X}

-- Takes one candidate after the other, for as long as there is too much.
def drain (full : S → Bool) (remove : S → X → S) : S → List X → S
  | s, []     => s
  | s, x :: l => if full s then drain full remove (remove s x) l else s

-- The condition is tested on what the removals have left. Each of them leaves one member less, so
-- exactly as many candidates are taken as there are members too many.
theorem drain_eq_foldl (inv : S → Prop) (members : S → Finset Y) (name : X → Y) {n : Nat}
    (hf : ∀ s, inv s → (full s = true ↔ n < (members s).card)) (hi : ∀ s x, inv s → inv (remove s x))
    (he : ∀ s x, inv s → members (remove s x) = (members s).erase (name x)) (hs : inv s)
    (hd : (l.map name).Nodup) (hm : ∀ x ∈ l, name x ∈ members s) :
    drain full remove s l = (l.take ((members s).card - n)).foldl remove s := by
  induction l generalizing s
  case nil => simp [drain]
  case cons x l ih =>
    rw [List.map_cons, List.nodup_cons] at hd
    rw [drain]
    split
    case isFalse h =>
      have hle : (members s).card - n = 0 := by
        rw [hf s hs] at h
        omega
      rw [hle]
      rfl
    case isTrue h =>
      have hc : (members s).card - n = (members (remove s x)).card - n + 1 := by
        rw [hf s hs] at h
        rw [he s x hs, Finset.card_erase_of_mem (hm x (.head _))]
        omega
      rw [hc, List.take_succ_cons, List.foldl_cons]
      apply ih (hi s x hs) hd.2
      intro y hy
      rw [he s x hs, Finset.mem_erase]
      exact ⟨fun hyx => hd.1 <| hyx ▸ List.mem_map_of_mem hy, hm y (.tail _ hy)⟩

end Drain

-- How far a condition holds from the start of a list on.
theorem isGreatest_length_takeWhile {p : α → Bool} {l : List α} :
    IsGreatest { k | k ≤ l.length ∧ ∀ j < k, (l[j]?).any p } (l.takeWhile p).length := by
  constructor
  case left =>
    refine ⟨(l.takeWhile_prefix p).length_le, fun j hj => ?_⟩
    rw [List.prefix_iff_getElem?.mp (l.takeWhile_prefix p) j hj, Option.any_some]
    exact List.mem_takeWhile_imp (List.getElem_mem hj)
  case right =>
    intro k hk
    induction l generalizing k
    case nil => exact hk.1
    case cons x l hi =>
      cases k
      case zero => exact Nat.zero_le _
      case succ k =>
        have hx : p x = true := hk.2 0 (Nat.succ_pos k)
        have hr := hi ⟨Nat.le_of_succ_le_succ hk.1, fun j hj => hk.2 (j + 1) (Nat.succ_lt_succ hj)⟩
        rw [List.takeWhile_cons_of_pos hx]
        exact Nat.succ_le_succ hr

section FirstOfRuns

variable {A K R : Type} [LinearOrder K] [DecidableEq K] [LinearOrder R] {key : A → K} {rank : A → R} {a : A}
variable {l : List A} {last : Option K}

-- Leaves out what has the same key as the element right before it.
def firstOfRuns {K : Type} [DecidableEq K] (key : A → K) : Option K → List A → List A
  | _, []        => []
  | last, a :: l =>
    if last = some (key a) then firstOfRuns key (some (key a)) l
    else a :: firstOfRuns key (some (key a)) l

-- In a list that is sorted by key, and by rank among those with the same key, the first of a run is the
-- one of lowest rank.
theorem mem_firstOfRuns_iff (hl : l.Pairwise fun a b => toLex (key a, rank a) < toLex (key b, rank b))
    (hb : ∀ k ∈ last, ∀ b ∈ l, k ≤ key b) :
    a ∈ firstOfRuns key last l ↔
      a ∈ l ∧ last ≠ some (key a) ∧ ∀ b ∈ l, key b = key a → rank a ≤ rank b := by
  induction l generalizing last
  case nil => simp [firstOfRuns]
  case cons c l hi =>
    rw [List.pairwise_cons] at hl
    have hle : ∀ b ∈ l, key c ≤ key b := fun b hb =>
      (Prod.Lex.toLex_lt_toLex.mp (hl.1 b hb)).elim le_of_lt fun h => h.1.le
    have hlt : ∀ b ∈ l, key b = key c → rank c < rank b := fun b hb he =>
      (Prod.Lex.toLex_lt_toLex.mp (hl.1 b hb)).elim (fun h => absurd he h.ne') And.right
    have hn : key a ≠ key c → last ≠ some (key a) ∨ a ∉ l := by
      by_contra! h
      exact h.1 <| le_antisymm (hb _ h.2.1 c (.head _)) (hle a h.2.2)
    have hi : a ∈ firstOfRuns key (some (key c)) l ↔
        a ∈ l ∧ some (key c) ≠ some (key a) ∧ ∀ b ∈ l, key b = key a → rank a ≤ rank b :=
      hi hl.2 fun k hk b hb => Option.some_injective _ hk ▸ hle b hb
    rw [firstOfRuns]
    split <;> grind

end FirstOfRuns

section Groups

variable {A R : Type} [LinearOrder R] {rank : A → R} {a b : A} {l g : List A} {gs : List (List A)}

-- The elements of one rank, group by group in ascending order.
structure Grouped (rank : A → R) (gs : List (List A)) : Prop where
  same  : ∀ g ∈ gs, ∀ a ∈ g, ∀ b ∈ g, rank a = rank b
  lower : gs.Pairwise fun g g' => ∀ a ∈ g, ∀ b ∈ g', rank a < rank b

theorem Grouped.tail (h : Grouped rank (g :: gs)) : Grouped rank gs where
  same g hg := h.same g (.tail _ hg)
  lower := h.lower.tail

theorem Grouped.lt_of_mem_flatten (h : Grouped rank (g :: gs)) (ha : a ∈ g) (hb : b ∈ gs.flatten) :
    rank a < rank b := by
  have ⟨g', hg', hb'⟩ := List.mem_flatten.mp hb
  exact (List.pairwise_cons.mp h.lower).1 g' hg' a ha b hb'

theorem rank_eq_of_mem_splitBy (hg : g ∈ l.splitBy fun a b => rank a == rank b) (ha : a ∈ g) (hb : b ∈ g) :
    rank a = rank b := by
  have hc : g.IsChain fun a b => rank a = rank b :=
    (List.isChain_of_mem_splitBy hg).imp fun _ _ h => beq_iff_eq.mp h
  have : IsTrans A fun a b => rank a = rank b := ⟨fun _ _ _ => Eq.trans⟩
  have : Std.Symm fun a b => rank a = rank b := ⟨fun _ _ => Eq.symm⟩
  exact hc.pairwise.forall_of_forall (R := fun a b => rank a = rank b) (fun _ _ => rfl) ha hb

-- Neighbouring groups differ in rank where they meet, so that in a sorted list all later ranks are higher.
theorem pairwise_lt_of_isChain (hl : gs.flatten.Pairwise (rank · ≤ rank ·))
    (hs : ∀ g ∈ gs, ∀ a ∈ g, ∀ b ∈ g, rank a = rank b)
    (hc : gs.IsChain fun g g' => ∃ ha hb, rank (g.getLast ha) ≠ rank (g'.head hb)) :
    gs.Pairwise fun g g' => ∀ a ∈ g, ∀ b ∈ g', rank a < rank b := by
  induction gs
  case nil => exact .nil
  case cons g gs hi =>
    have ⟨_, ht, hm⟩ := List.pairwise_append.mp hl
    refine .cons ?_ (hi ht (fun g hg => hs g (.tail _ hg)) hc.tail)
    intro g' hg' a ha b hb
    cases gs
    case nil => cases hg'
    case cons g₁ gs =>
      have ⟨hg, hg₁, hne⟩ := (List.isChain_cons_cons.mp hc).1
      have he : g₁.head hg₁ ∈ (g₁ :: gs).flatten := List.mem_append_left _ (List.head_mem hg₁)
      have hb' : b ∈ (g₁ :: gs).flatten := List.mem_flatten.mpr ⟨g', hg', hb⟩
      have hle : rank (g₁.head hg₁) ≤ rank b := by
        rw [List.flatten_cons, ← List.cons_head_tail hg₁, List.cons_append] at ht hb'
        cases hb'
        case head => rfl
        case tail hb => exact (List.pairwise_cons.mp ht).1 b hb
      have hlt : rank (g.getLast hg) < rank (g₁.head hg₁) :=
        lt_of_le_of_ne (hm _ (List.getLast_mem hg) _ he) hne
      calc rank a = rank (g.getLast hg) := hs g (.head _) a ha _ (List.getLast_mem hg)
        _ < rank (g₁.head hg₁) := hlt
        _ ≤ rank b := hle

theorem grouped_splitBy (hl : l.Pairwise (rank · ≤ rank ·)) :
    Grouped rank (l.splitBy fun a b => rank a == rank b) where
  same _ hg _ ha _ hb := rank_eq_of_mem_splitBy hg ha hb
  lower := by
    refine pairwise_lt_of_isChain ?_ (fun _ hg _ ha _ hb => rank_eq_of_mem_splitBy hg ha hb) ?_
    case refine_1 => rwa [List.flatten_splitBy]
    refine (List.isChain_getLast_head_splitBy _ l).imp ?_
    rintro g g' ⟨ha, hb, h⟩
    exact ⟨ha, hb, beq_eq_false_iff_ne.mp h⟩

-- Counted from the start, the elements up to the end of a group are those whose rank is no higher.
theorem Grouped.countP_of_mem (h : Grouped rank (g :: gs)) (ha : a ∈ g) :
    (g :: gs).flatten.countP (rank · ≤ rank a) = g.length := by
  have hg : g.countP (rank · ≤ rank a) = g.length :=
    List.countP_eq_length.mpr fun b hb => decide_eq_true (h.same g (.head _) b hb a ha).le
  have hr : gs.flatten.countP (rank · ≤ rank a) = 0 :=
    List.countP_eq_zero.mpr fun b hb => by simpa using h.lt_of_mem_flatten ha hb
  rw [List.flatten_cons, List.countP_append, hg, hr, Nat.add_zero]

theorem Grouped.countP_of_mem_tail (h : Grouped rank (g :: gs)) (ha : a ∈ gs.flatten) :
    (g :: gs).flatten.countP (rank · ≤ rank a) = g.length + gs.flatten.countP (rank · ≤ rank a) := by
  have hg : g.countP (rank · ≤ rank a) = g.length :=
    List.countP_eq_length.mpr fun b hb => decide_eq_true (h.lt_of_mem_flatten hb ha).le
  rw [List.flatten_cons, List.countP_append, hg]

end Groups

section Best

variable {A R : Type} [LinearOrder R] {better : A → A → Bool} {rank : A → R} {best : Option A} {l : List A} {a : A}

-- Keeps the first candidate, until another one is better.
def keepBest (better : A → A → Bool) (best : Option A) (a : A) : Option A :=
  match best with
  | none   => some a
  | some b => if better a b then some a else some b

-- The candidate of lowest rank among those that were seen.
structure IsBest (rank : A → R) (l : List A) (a : A) : Prop where
  mem : a ∈ l
  le  : ∀ b ∈ l, rank a ≤ rank b

theorem IsBest.unique (h : IsBest rank l a) {l' : List A} {b : A} (h' : IsBest rank l' b)
    (hm : ∀ c, c ∈ l ↔ c ∈ l') (hr : ∀ c ∈ l, ∀ d ∈ l, rank c = rank d → c = d) : a = b := by
  have hb : b ∈ l := (hm b).mpr h'.mem
  exact hr a h.mem b hb (le_antisymm (h.le b hb) (h'.le a ((hm a).mp h.mem)))

theorem ComparesBy.isBest_foldl (h : ComparesBy better rank) (hl : l ≠ []) :
    ∃ a, l.foldl (keepBest better) none = some a ∧ IsBest rank l a := by
  induction l using List.reverseRecOn
  case nil => exact absurd rfl hl
  case append_singleton l x hi =>
    rw [List.foldl_append, List.foldl_cons, List.foldl_nil]
    by_cases hl : l = []
    case pos =>
      subst hl
      exact ⟨x, rfl, List.mem_singleton_self x, by simp⟩
    case neg =>
      have ⟨a, ha, hb⟩ := hi hl
      rw [ha, keepBest]
      split
      case isTrue hx =>
        have hlt := (h x a).mp hx
        refine ⟨x, rfl, by simp, ?_⟩
        intro b hm
        cases List.mem_append.mp hm
        case inl hm => exact (hlt.trans_le (hb.le b hm)).le
        case inr hm => rw [List.mem_singleton.mp hm]
      case isFalse hx =>
        have hle := h.not_less_iff.mp (Bool.eq_false_iff.mpr hx)
        refine ⟨a, rfl, List.mem_append_left _ hb.mem, ?_⟩
        intro b hm
        cases List.mem_append.mp hm
        case inl hm => exact hb.le b hm
        case inr hm => rwa [List.mem_singleton.mp hm]

end Best
