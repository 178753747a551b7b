import InferenceCache.Adapters.HiCache
import InferenceCache.Adapters.Theorems.Idempotence

namespace InferenceCache.Adapters

open Kube Api

section Values

variable {flag value t : GoString} {args extra : List GoString}

theorem argValues_other (hn : t ≠ flag) (hp : t.hasPrefix (flag ++ utf8 "=") = false) :
    argValues flag (t :: args) = argValues flag args := by
  cases args <;> simp [argValues, hn, hp]

theorem argValues_assigned (hn : t ≠ flag) (hp : t.hasPrefix (flag ++ utf8 "=") = true)
    (hv : t.trimPrefix (flag ++ utf8 "=") ≠ []) : argValues flag (t :: args) =
      (t.trimPrefix (flag ++ utf8 "=") :: (argValues flag args).1, (argValues flag args).2) := by
  cases args <;> simp [argValues, hn, hp, hv]

theorem argValues_of_not_hasArg (h : hasArg args flag = false) : argValues flag args = ([], false) := by
  induction args
  case nil => rfl
  case cons t args hi =>
    have ⟨hn, hp, ha⟩ := hasArg_cons.mp h
    rw [argValues_other hn hp, hi ha]

theorem argValues_append_of (h : (argValues flag args).2 = false) :
    argValues flag (args ++ extra) =
      ((argValues flag args).1 ++ (argValues flag extra).1, (argValues flag extra).2) := by
  fun_induction argValues flag args
  case case1 => rfl
  case case2 => cases h
  case case3 => cases h
  case case4 next rest hd hi => simp [argValues, hd, hi h]
  case case5 => cases h
  case case6 arg args hn hp v hv hi =>
    rw [List.cons_append, argValues_assigned hn hp hv, hi h]
    rfl
  case case7 arg args hn hp hi =>
    rw [List.cons_append, argValues_other hn (by simpa using hp), hi h]

theorem argValues_append_of_not_hasArg (h : hasArg args flag = false) :
    argValues flag (args ++ extra) = argValues flag extra := by
  have ha := argValues_of_not_hasArg h
  rw [argValues_append_of (by rw [ha]), ha]
  rfl

theorem argValues_pair (h : value.hasPrefix (utf8 "--") = false) :
    argValues flag (flag :: value :: args) = (value :: (argValues flag args).1, (argValues flag args).2) := by
  simp [argValues, h]

theorem not_assigned_of_bare (h : 0x3d ∉ t) : t.hasPrefix (flag ++ utf8 "=") = false := by
  apply Bool.eq_false_iff.mpr
  intro hp
  have hm : 0x3d ∈ flag ++ utf8 "=" := List.mem_append_right _ (by simp [GoString.utf8_equals])
  exact h ((GoString.hasPrefix_iff.mp hp).subset hm)

-- What does not begin like a long flag is no occurrence of one.
theorem not_hasArg_of_plain (hl : flag.hasPrefix (utf8 "--") = true) (hv : value.hasPrefix (utf8 "--") = false) :
    hasArg [value] flag = false := by
  have hl := GoString.hasPrefix_iff.mp hl
  refine hasArg_cons.mpr ⟨fun he => ?_, Bool.eq_false_iff.mpr fun hp => ?_, rfl⟩
  case refine_1 => cases hv.symm.trans (GoString.hasPrefix_iff.mpr (he ▸ hl))
  case refine_2 =>
    have hp := (hl.trans (List.prefix_append ..)).trans (GoString.hasPrefix_iff.mp hp)
    cases hv.symm.trans (GoString.hasPrefix_iff.mpr hp)

def SoleValue (flag value : GoString) (args : List GoString) : Prop :=
  ∃ before after, (args = before ++ flag :: value :: after ∨ args = before ++ (flag ++ utf8 "=" ++ value) :: after) ∧
    hasArg before flag = false ∧ hasArg after flag = false

theorem soleValue_of_argValues (h : argValues flag args = ([value], false)) : SoleValue flag value args := by
  obtain ⟨hv, hm⟩ := Prod.mk.inj h
  clear h
  fun_induction argValues flag args
  case case1 => cases hv
  case case2 => cases hm
  case case3 => cases hm
  case case4 next rest _ _ =>
    obtain ⟨hn, hr⟩ := List.cons.inj hv
    exact ⟨[], rest, .inl (by rw [hn]; rfl), rfl, hasArg_of_argValues hm hr⟩
  case case5 => cases hm
  case case6 arg args _ hp v _ _ =>
    obtain ⟨hn, hr⟩ := List.cons.inj hv
    obtain ⟨rest, he⟩ := GoString.hasPrefix_iff.mp hp
    have hw : v = rest := by rw [← GoString.trimPrefix_append (s := rest) (p := flag ++ utf8 "="), he]
    exact ⟨[], args, .inr (by rw [← hn, hw, he]; rfl), rfl, hasArg_of_argValues hm hr⟩
  case case7 arg args hn hp hi =>
    obtain ⟨before, after, ha, hb, hf⟩ := hi hv hm
    have hb : hasArg (arg :: before) flag = false := hasArg_cons.mpr ⟨hn, by simpa using hp, hb⟩
    exact ⟨arg :: before, after, ha.imp (congrArg (arg :: ·)) (congrArg (arg :: ·)), hb, hf⟩

theorem count_upsertFlag (h : args.count flag ≤ 1) : (upsertFlag flag args).count flag = 1 := by
  unfold upsertFlag
  split
  case isTrue hm => exact Nat.le_antisymm h (List.count_pos_iff.mpr hm)
  case isFalse hn => simp [List.count_eq_zero_of_not_mem hn]

theorem exists_upsertFlag : ∃ e, upsertFlag flag args = args ++ e ∧ (e = [] ∨ e = [flag]) := by
  unfold upsertFlag
  split
  case isTrue => exact ⟨[], by simp, .inl rfl⟩
  case isFalse => exact ⟨[flag], rfl, .inr rfl⟩

end Values

namespace HiCache

variable {D : Type} [FloatFormat D] {lib : Library} {floats : FloatParser D} {cfg : HiCacheSpec}
  {args missing : List GoString} {flag : GoString} {w : DesiredArg} {wants : List DesiredArg}

section Missing

-- A setting is there with an equivalent value, or is not there.
def Settles (args : List GoString) (w : DesiredArg) : Prop :=
  ∃ v, argValues w.flag args = ([v], false) ∧ w.equivalent v w.value = true

def Agrees (args : List GoString) (w : DesiredArg) : Prop :=
  argValues w.flag args = ([], false) ∨ Settles args w

structure DesiredArg.Proper (w : DesiredArg) : Prop where
  long  : w.flag.hasPrefix (utf8 "--") = true
  bare  : 0x3d ∉ w.flag
  plain : w.value.hasPrefix (utf8 "--") = false
  refl  : w.equivalent w.value w.value = true

theorem Settles.hasArg (h : Settles args w) : hasArg args w.flag = true := by
  by_contra hn
  have ⟨v, hv, _⟩ := h
  cases hv.symm.trans (argValues_of_not_hasArg (by simpa using hn))

def absent (args : List GoString) (w : DesiredArg) : List GoString :=
  if hasArg args w.flag then [] else [w.flag, w.value]

theorem rejectRepeatedArg_eq_ok : rejectRepeatedArg args flag = .ok u ↔ OneValue flag args := by
  simp only [rejectRepeatedArg]
  split
  case isTrue h =>
    refine iff_of_false nofun fun ho => ?_
    exact h.elim (by simp [ho.left]) (Nat.not_lt.mpr ho.right)
  case isFalse h => simpa [OneValue] using h

theorem rejectPresentArg_eq_ok :
    rejectPresentArg args flag reason = .ok u ↔ argValues flag args = ([], false) := by
  simp only [rejectPresentArg, Prod.ext_iff]
  split
  case isTrue h => simp [rejected, h]
  case isFalse h =>
    split
    case isTrue hv => simp_all [rejected, List.length_pos_iff]
    case isFalse hv => simp_all [List.length_pos_iff]

theorem isPresent_eq_ok : isPresent lib args w = .ok b ↔ Agrees args w ∧ b = hasArg args w.flag := by
  have hn : argValues w.flag args = ([], false) → hasArg args w.flag = false := fun h =>
    hasArg_of_argValues (by rw [h]) (by rw [h])
  constructor
  case mp =>
    intro h
    have ⟨_, ho, h⟩ := Except.bind_eq_ok.mp h
    have ⟨hm, hl⟩ := rejectRepeatedArg_eq_ok.mp ho
    split at h
    case h_1 hv =>
      have hv : argValues w.flag args = ([], false) := Prod.ext hv hm
      exact ⟨.inl hv, (Except.pure_eq_ok.mp h).symm.trans (hn hv).symm⟩
    case h_2 v rest hv =>
      split at h
      case isTrue he =>
        have hr : rest = [] := by simpa [hv] using hl
        have hs : Settles args w := ⟨v, Prod.ext (by rw [hv, hr]) hm, he⟩
        exact ⟨.inr hs, (Except.pure_eq_ok.mp h).symm.trans hs.hasArg.symm⟩
      case isFalse => cases h
  case mpr =>
    rintro ⟨hv | ⟨v, hv, he⟩, hb⟩
    case inl =>
      have ho : rejectRepeatedArg args w.flag = .ok () := rejectRepeatedArg_eq_ok.mpr (by simp [OneValue, hv])
      rw [hb, hn hv, isPresent, ho, hv]
      rfl
    case inr =>
      have ho : rejectRepeatedArg args w.flag = .ok () := rejectRepeatedArg_eq_ok.mpr (by simp [OneValue, hv])
      have hs : Settles args w := ⟨v, hv, he⟩
      rw [hb, hs.hasArg, isPresent, ho, hv]
      exact if_pos he

theorem missingArgs_eq_ok : missingArgs lib args wants = .ok missing ↔
    (∀ w ∈ wants, Agrees args w) ∧ missing = wants.flatMap (absent args) := by
  induction wants generalizing missing
  case nil => simp [missingArgs, eq_comm]
  case cons w wants hi =>
    simp only [missingArgs, Except.bind_eq_ok, isPresent_eq_ok, hi, Except.pure_eq_ok, List.forall_mem_cons,
      List.flatMap_cons, absent]
    constructor
    case mp =>
      rintro ⟨_, ⟨hw, rfl⟩, _, ⟨hs, rfl⟩, rfl⟩
      exact ⟨⟨hw, hs⟩, rfl⟩
    case mpr =>
      rintro ⟨⟨hw, hs⟩, rfl⟩
      exact ⟨_, ⟨hw, rfl⟩, _, ⟨hs, rfl⟩, rfl⟩

theorem DesiredArg.Proper.not_hasArg (hw : w.Proper) (hl : flag.hasPrefix (utf8 "--") = true)
    (hn : w.flag ≠ flag) : hasArg (absent args w) flag = false := by
  unfold absent
  split
  case isTrue => rfl
  case isFalse =>
    exact hasArg_cons.mpr ⟨hn, not_assigned_of_bare hw.bare, not_hasArg_of_plain hl hw.plain⟩

theorem not_hasArg_missing (hp : ∀ w ∈ wants, w.Proper) (hl : flag.hasPrefix (utf8 "--") = true)
    (hn : ∀ w ∈ wants, w.flag ≠ flag) : hasArg (wants.flatMap (absent args)) flag = false := by
  induction wants
  case nil => rfl
  case cons w wants hi =>
    have ⟨hw, hp⟩ := List.forall_mem_cons.mp hp
    have ⟨hf, hn⟩ := List.forall_mem_cons.mp hn
    exact hasArg_append.mpr ⟨hw.not_hasArg hl hf, hi hp hn⟩

theorem argValues_missing (hp : ∀ w ∈ wants, w.Proper) (hd : wants.Pairwise (·.flag ≠ ·.flag)) (hw : w ∈ wants) :
    argValues w.flag (wants.flatMap (absent args)) = argValues w.flag (absent args w) := by
  induction wants
  case nil => cases hw
  case cons u wants hi =>
    have ⟨hu, hs⟩ := List.forall_mem_cons.mp hp
    have ⟨hn, hr⟩ := List.pairwise_cons.mp hd
    rw [List.flatMap_cons]
    cases hw
    case head =>
      have hm : hasArg (wants.flatMap (absent args)) w.flag = false :=
        not_hasArg_missing hs hu.long fun v hv => (hn v hv).symm
      rw [absent]
      split
      case isTrue => exact argValues_of_not_hasArg hm
      case isFalse =>
        rw [List.cons_append, List.cons_append, argValues_pair hu.plain, argValues_pair hu.plain, List.nil_append,
          argValues_of_not_hasArg hm]
        rfl
    case tail hw =>
      rw [argValues_append_of_not_hasArg (hu.not_hasArg (hs w hw).long (hn w hw))]
      exact hi hs hr hw

-- Something that is not an occurrence of a flag may stand before and after what has its values.
theorem argValues_between (h : (argValues flag mid).2 = false) (hb : hasArg before flag = false)
    (ha : hasArg after flag = false) : argValues flag (before ++ mid ++ after) = argValues flag mid := by
  rw [List.append_assoc, argValues_append_of_not_hasArg hb, argValues_append_of h, argValues_of_not_hasArg ha,
    List.append_nil, ← h]

theorem settles_extended (hp : ∀ w ∈ wants, w.Proper) (hd : wants.Pairwise (·.flag ≠ ·.flag)) (hw : w ∈ wants)
    (ha : Agrees args w) (hb : hasArg before w.flag = false) (hf : hasArg after w.flag = false) :
    Settles (args ++ (before ++ wants.flatMap (absent args) ++ after)) w := by
  have hm : argValues w.flag (wants.flatMap (absent args)) = argValues w.flag (absent args w) :=
    argValues_missing hp hd hw
  cases ha
  case inl ha =>
    have hn : hasArg args w.flag = false := hasArg_of_argValues (by rw [ha]) (by rw [ha])
    have hv : argValues w.flag (absent args w) = ([w.value], false) := by
      simp [absent, hn, argValues_pair (hp w hw).plain, argValues]
    rw [hv] at hm
    refine ⟨w.value, ?_, (hp w hw).refl⟩
    rw [argValues_append_of (by rw [ha]), argValues_between (by rw [hm]) hb hf, ha, hm]
    rfl
  case inr ha =>
    have ho : argValues w.flag (absent args w) = ([], false) := by
      simp [absent, ha.hasArg, argValues]
    obtain ⟨v, hv, he⟩ := ha
    rw [ho] at hm
    refine ⟨v, ?_, he⟩
    rw [argValues_append_of (by rw [hv]), argValues_between (by rw [hm]) hb hf, hv, hm]
    rfl

end Missing

section Update

-- The setting for the size of the cache, and the flag that must not be there with it.
def pool (floats : FloatParser D) (cfg : HiCacheSpec) : DesiredArg :=
  match cfg.sizeGB with
  | some n => ⟨sglangHiCacheSizeArg, GoString.formatInt n.toInt, equivalentInteger⟩
  | none   => ⟨sglangHiCacheRatioArg, cfg.ratio, equivalentNumber floats⟩

def excluded (cfg : HiCacheSpec) : GoString :=
  if cfg.sizeGB.isSome then sglangHiCacheRatioArg else sglangHiCacheSizeArg

def desired (floats : FloatParser D) (cfg : HiCacheSpec) : List DesiredArg :=
  pool floats cfg :: desiredChoices cfg

def choiceArgs : List GoString :=
  [sglangHiCacheWritePolicyArg, sglangHiCacheIOBackendArg, sglangHiCacheMemoryLayoutArg]

def settingArgs : List GoString :=
  sglangHiCacheSizeArg :: sglangHiCacheRatioArg :: choiceArgs

structure Enableable (args : List GoString) : Prop where
  lmCache : hasArg args sglangEnableLMCacheArg = false
  config  : hasArg args sglangConfigFileArg = false
  bare    : ∀ t ∈ args, t.hasPrefix (sglangEnableHiCacheArg ++ utf8 "=") = false
  once    : args.count sglangEnableHiCacheArg ≤ 1

structure Compatible (floats : FloatParser D) (cfg : HiCacheSpec) (args : List GoString) : Prop
    extends Enableable args where
  choices  : ∀ flag ∈ choiceArgs, OneValue flag args
  excluded : argValues (excluded cfg) args = ([], false)
  agrees   : ∀ w ∈ desired floats cfg, Agrees args w

theorem desiredPool_eq_ok : desiredPool floats cfg args = .ok w ↔
    argValues (excluded cfg) args = ([], false) ∧ w = pool floats cfg := by
  unfold desiredPool excluded pool
  split
  case h_1 h => simp [h, rejectPresentArg_eq_ok, @eq_comm _ w]
  case h_2 h => simp [h, rejectPresentArg_eq_ok, @eq_comm _ w]

theorem validateEnableArg_eq_ok : validateEnableArg args = .ok u ↔
    (∀ t ∈ args, t.hasPrefix (sglangEnableHiCacheArg ++ utf8 "=") = false) ∧
      args.count sglangEnableHiCacheArg ≤ 1 := by
  unfold validateEnableArg
  split
  case isTrue h =>
    have ⟨t, ht, hp⟩ := List.any_eq_true.mp h
    exact iff_of_false nofun fun hn => by simp [hn.left t ht] at hp
  case isFalse h =>
    have hn : ∀ t ∈ args, t.hasPrefix (sglangEnableHiCacheArg ++ utf8 "=") = false := by simpa using h
    split
    case isTrue hc => exact iff_of_false nofun fun h => Nat.not_lt.mpr h.right hc
    case isFalse hc => exact iff_of_true rfl ⟨hn, Nat.not_lt.mp hc⟩

def extended (floats : FloatParser D) (cfg : HiCacheSpec) (args : List GoString) : List GoString :=
  upsertFlag sglangEnableMetricsArg
    (upsertFlag sglangEnableHiCacheArg args ++ (desired floats cfg).flatMap (absent args))

theorem updateArgs_eq_ok : updateArgs lib floats cfg args = .ok args' ↔
    Compatible floats cfg args ∧ args' = extended floats cfg args := by
  unfold updateArgs
  split
  case isTrue h =>
    refine iff_of_false nofun fun ⟨hc, _⟩ => ?_
    simp [hc.lmCache, hc.config] at h
  case isFalse h =>
    simp only [not_or, Bool.not_eq_true] at h
    simp only [Except.bind_eq_ok, validateEnableArg_eq_ok, rejectRepeatedArg_eq_ok, desiredPool_eq_ok,
      missingArgs_eq_ok, Except.pure_eq_ok]
    constructor
    case mp =>
      rintro ⟨_, ⟨hb, ho⟩, _, hw, _, hi, _, hm, _, ⟨hx, rfl⟩, _, ⟨ha, rfl⟩, rfl⟩
      exact ⟨⟨⟨h.left, h.right, hb, ho⟩, by simp [choiceArgs, hw, hi, hm], hx, ha⟩, rfl⟩
    case mpr =>
      rintro ⟨hc, rfl⟩
      have hs := hc.choices
      simp only [choiceArgs, List.forall_mem_cons] at hs
      exact ⟨(), ⟨hc.bare, hc.once⟩, (), hs.left, (), hs.right.left, (), hs.right.right.left, _, ⟨hc.excluded, rfl⟩,
        _, ⟨hc.agrees, rfl⟩, rfl⟩

section Proper

theorem not_long_of_parseInt (h : GoString.parseInt bits value = some n) :
    value.hasPrefix (utf8 "--") = false := by
  apply Bool.eq_false_iff.mpr
  intro hp
  have ⟨rest, he⟩ := GoString.hasPrefix_iff.mp hp
  rw [← he, GoString.utf8_dashes] at h
  simp [GoString.parseInt, GoString.parseUint, GoString.isDigit] at h

-- Of the settings: long, without a value, and no occurrence is one of the two that enable something.
theorem settingArgs_spelled : (∀ flag ∈ settingArgs, flag.hasPrefix (utf8 "--") = true ∧ 0x3d ∉ flag ∧
      hasArg [sglangEnableHiCacheArg] flag = false ∧ hasArg [sglangEnableMetricsArg] flag = false) ∧
    (sglangHiCacheSizeArg ≠ sglangHiCacheRatioArg ∧ sglangHiCacheSizeArg ∉ choiceArgs) ∧
    (sglangHiCacheRatioArg ∉ choiceArgs ∧ choiceArgs.Nodup) ∧
    sglangEnableHiCacheArg ∉ settingArgs := by
  decide +kernel

theorem enable_spelled : sglangEnableHiCacheArg.hasPrefix (utf8 "--") = true ∧
    hasArg [sglangEnableMetricsArg] sglangEnableHiCacheArg = false ∧
    0x3d ∉ sglangEnableHiCacheArg ∧ 0x3d ∉ sglangEnableMetricsArg := by
  decide +kernel

theorem long_of_mem (h : flag ∈ settingArgs) : flag.hasPrefix (utf8 "--") = true :=
  (settingArgs_spelled.1 flag h).1

theorem proper_of_mem (hm : w.flag ∈ settingArgs) (hp : w.value.hasPrefix (utf8 "--") = false)
    (hr : w.equivalent w.value w.value = true) : w.Proper := by
  exact ⟨long_of_mem hm, (settingArgs_spelled.1 w.flag hm).2.1, hp, hr⟩

theorem flag_pool : (pool floats cfg).flag =
    if cfg.sizeGB.isSome then sglangHiCacheSizeArg else sglangHiCacheRatioArg := by
  cases hn : cfg.sizeGB <;> simp [pool, hn]

theorem flag_mem_of_choice (h : w ∈ desiredChoices cfg) : w.flag ∈ choiceArgs := by
  have hw := List.mem_of_mem_filter h
  simp only [List.mem_cons, List.not_mem_nil, or_false] at hw
  rcases hw with rfl | rfl | rfl <;> simp [choiceArgs]

theorem flag_mem_of_desired (h : w ∈ desired floats cfg) : w.flag ∈ settingArgs := by
  cases h
  case head =>
    rw [flag_pool]
    split <;> simp [settingArgs]
  case tail h => simp [settingArgs, flag_mem_of_choice h]

theorem flag_pool_not_mem : (pool floats cfg).flag ∉ choiceArgs := by
  rw [flag_pool]
  split
  case isTrue => exact settingArgs_spelled.2.1.2
  case isFalse => exact settingArgs_spelled.2.2.1.1

theorem excluded_not_mem : excluded cfg ∉ choiceArgs := by
  unfold excluded
  split
  case isTrue => exact settingArgs_spelled.2.2.1.1
  case isFalse => exact settingArgs_spelled.2.1.2

theorem excluded_mem : excluded cfg ∈ settingArgs := by
  unfold excluded
  split <;> simp [settingArgs]

theorem flag_ne_excluded (h : w ∈ desired floats cfg) : w.flag ≠ excluded cfg := by
  cases h
  case head =>
    rw [flag_pool, excluded]
    split
    case isTrue => exact settingArgs_spelled.2.1.1
    case isFalse => exact settingArgs_spelled.2.1.1.symm
  case tail h => exact ne_of_mem_of_not_mem (flag_mem_of_choice h) excluded_not_mem

theorem pairwise_desired : (desired floats cfg).Pairwise (·.flag ≠ ·.flag) := by
  refine List.pairwise_cons.mpr ⟨fun w hw => ?_, List.Pairwise.filter _ ?_⟩
  case refine_1 => exact (ne_of_mem_of_not_mem (flag_mem_of_choice hw) flag_pool_not_mem).symm
  case refine_2 => exact (List.pairwise_map (f := DesiredArg.flag)).mp settingArgs_spelled.2.2.1.2

structure Valid (floats : FloatParser D) (cfg : HiCacheSpec) : Prop where
  one          : ¬(cfg.sizeGB.isNone = true ↔ cfg.ratio = [])
  ratio        : cfg.ratio ≠ [] → validRatio floats cfg.ratio = true
  writePolicy  : cfg.writePolicy ∈ writePolicies
  ioBackend    : cfg.ioBackend ∈ ioBackends
  memoryLayout : cfg.memoryLayout ∈ memoryLayouts

theorem valid_of_checkSpec (h : checkSpec lib floats cfg = .ok ()) : Valid floats cfg := by
  unfold checkSpec failed at h
  split at h
  case isTrue => cases h
  case isFalse h₁ =>
    split at h
    case isTrue => cases h
    case isFalse =>
      split at h
      case isTrue => cases h
      case isFalse h₂ =>
        split at h
        case isTrue => cases h
        case isFalse h₃ =>
          split at h
          case isTrue => cases h
          case isFalse h₄ =>
            split at h
            case isTrue => cases h
            case isFalse h₅ =>
              exact ⟨h₁, by simpa using h₂, not_not.mp h₃, not_not.mp h₄, not_not.mp h₅⟩

variable (hv : Valid floats cfg)

include hv

theorem Valid.ratio_ne_nil (hn : cfg.sizeGB = none) : cfg.ratio ≠ [] := by
  have ho := hv.one
  simp [hn] at ho
  exact ho

theorem Valid.ratio_eq_nil (hn : cfg.sizeGB = some n) : cfg.ratio = [] := by
  have ho := hv.one
  simp [hn] at ho
  exact ho

omit hv in
theorem proper_size (n : Int32) :
    DesiredArg.Proper ⟨sglangHiCacheSizeArg, GoString.formatInt n.toInt, equivalentInteger⟩ := by
  have hp : GoString.parseInt 64 (GoString.formatInt n.toInt) = some n.toInt :=
    GoString.parseInt_formatInt (by have := n.le_toInt; omega) (by have := n.toInt_lt; omega)
  exact proper_of_mem (by simp [settingArgs]) (not_long_of_parseInt hp) (by simp [equivalentInteger, hp])

omit hv in
theorem proper_ratio (hr : validRatio floats cfg.ratio = true) :
    DesiredArg.Proper ⟨sglangHiCacheRatioArg, cfg.ratio, equivalentNumber floats⟩ := by
  unfold validRatio at hr
  split at hr
  case h_1 => cases hr
  case h_2 x hx =>
    have ⟨hz, hf⟩ := of_decide_eq_true hr
    have hp : cfg.ratio.hasPrefix (utf8 "--") = false := by
      apply Bool.eq_false_iff.mpr
      intro hp
      have ⟨rest, he⟩ := GoString.hasPrefix_iff.mp hp
      rw [← he, GoString.utf8_dashes] at hx
      exact hz (floats.le_of_minus (0x2d :: rest) x hx)
    exact proper_of_mem (by simp [settingArgs]) hp (by simp [equivalentNumber, hx, hf, floats.eq_self x hf])

theorem Valid.proper_pool : (pool floats cfg).Proper := by
  cases hn : cfg.sizeGB
  case none =>
    rw [pool, hn]
    exact proper_ratio (hv.ratio (hv.ratio_ne_nil hn))
  case some n =>
    rw [pool, hn]
    exact proper_size n

theorem Valid.proper_desired : ∀ w ∈ desired floats cfg, w.Proper := by
  intro w hw
  cases hw
  case head => exact hv.proper_pool
  case tail hw =>
    have hf := flag_mem_of_desired (.tail _ hw : w ∈ desired floats cfg)
    have hm := List.mem_of_mem_filter hw
    simp only [List.mem_cons, List.not_mem_nil, or_false] at hm
    have hp : ∀ v ∈ writePolicies ++ ioBackends ++ memoryLayouts, GoString.hasPrefix v (utf8 "--") = false := by
      decide +kernel
    apply proper_of_mem hf
    case hp =>
      apply hp
      rcases hm with rfl | rfl | rfl <;> simp [hv.writePolicy, hv.ioBackend, hv.memoryLayout]
    case hr => rcases hm with rfl | rfl | rfl <;> simp [equivalentExact]

end Proper

section Extended

variable (hv : Valid floats cfg) (hc : Compatible floats cfg args)

theorem exists_extended (floats : FloatParser D) (cfg : HiCacheSpec) (args : List GoString) : ∃ before after,
    extended floats cfg args = args ++ (before ++ (desired floats cfg).flatMap (absent args) ++ after) ∧
      (before = [] ∨ before = [sglangEnableHiCacheArg]) ∧ (after = [] ∨ after = [sglangEnableMetricsArg]) := by
  have ⟨before, hb, ho⟩ : ∃ e, upsertFlag sglangEnableHiCacheArg args = args ++ e ∧ _ := exists_upsertFlag
  have ⟨after, ha, hf⟩ : ∃ e, extended floats cfg args =
    upsertFlag sglangEnableHiCacheArg args ++ (desired floats cfg).flatMap (absent args) ++ e ∧ _ := exists_upsertFlag
  refine ⟨before, after, ?_, ho, hf⟩
  rw [extended, ha, hb]
  simp only [List.append_assoc]

-- Neither of the two is an occurrence of the flag.
def Apart (flag : GoString) : Prop :=
  hasArg [sglangEnableHiCacheArg] flag = false ∧ hasArg [sglangEnableMetricsArg] flag = false

theorem apart_of_mem (h : flag ∈ settingArgs) : Apart flag :=
  (settingArgs_spelled.1 flag h).2.2

theorem not_hasArg_singleton (hb : e = [] ∨ e = [t]) (ht : hasArg [t] flag = false) : hasArg e flag = false := by
  rcases hb with rfl | rfl
  case inl => rfl
  case inr => exact ht

include hv in
theorem exists_extension (args : List GoString) (hl : flag.hasPrefix (utf8 "--") = true)
    (hn : ∀ w ∈ desired floats cfg, w.flag ≠ flag)
    (ha : Apart flag) : ∃ extra, extended floats cfg args = args ++ extra ∧ hasArg extra flag = false := by
  have ⟨before, after, he, hb, hf⟩ := exists_extended floats cfg args
  refine ⟨_, he, hasArg_append.mpr ⟨hasArg_append.mpr ⟨?_, ?_⟩, ?_⟩⟩
  case refine_1 => exact not_hasArg_singleton hb ha.left
  case refine_2 => exact not_hasArg_missing hv.proper_desired hl hn
  case refine_3 => exact not_hasArg_singleton hf ha.right

include hv hc in
theorem settles_of_desired (hw : w ∈ desired floats cfg) : Settles (extended floats cfg args) w := by
  have ⟨before, after, he, hb, hf⟩ := exists_extended floats cfg args
  have ⟨hx, hy⟩ := apart_of_mem (flag_mem_of_desired hw)
  rw [he]
  exact settles_extended hv.proper_desired pairwise_desired hw (hc.agrees w hw) (not_hasArg_singleton hb hx)
    (not_hasArg_singleton hf hy)

include hv in
theorem argValues_extended (hl : flag.hasPrefix (utf8 "--") = true) (hn : ∀ w ∈ desired floats cfg, w.flag ≠ flag)
    (ha : Apart flag) (hm : (argValues flag args).2 = false) :
    argValues flag (extended floats cfg args) = argValues flag args := by
  have ⟨extra, he, hx⟩ := exists_extension hv args hl hn ha
  rw [he, argValues_append_of hm, argValues_of_not_hasArg hx, List.append_nil, ← hm]

include hv hc in
theorem oneValue_extended (h : flag ∈ choiceArgs) : OneValue flag (extended floats cfg args) := by
  by_cases hn : ∀ w ∈ desired floats cfg, w.flag ≠ flag
  case pos =>
    have hs : flag ∈ settingArgs := .tail _ (.tail _ h)
    have ho := hc.choices flag h
    rw [OneValue, argValues_extended hv (long_of_mem hs) hn (apart_of_mem hs) ho.left]
    exact ho
  case neg =>
    push Not at hn
    obtain ⟨w, hw, he⟩ := hn
    obtain ⟨v, hs, _⟩ := settles_of_desired hv hc hw
    rw [he] at hs
    simp [OneValue, hs]

include hv in
theorem enable_not_mem_missing :
    hasArg ((desired floats cfg).flatMap (absent args)) sglangEnableHiCacheArg = false := by
  exact not_hasArg_missing hv.proper_desired enable_spelled.1 fun w hw =>
    ne_of_mem_of_not_mem (flag_mem_of_desired hw) settingArgs_spelled.2.2.2

theorem count_eq_zero (h : hasArg args flag = false) : args.count flag = 0 :=
  List.count_eq_zero.mpr fun hm => by simp [hasArg] at h; exact (h _ hm).left rfl

include hv hc in
theorem count_enable : (extended floats cfg args).count sglangEnableHiCacheArg = 1 := by
  have ⟨after, ha, hf⟩ : ∃ e, upsertFlag sglangEnableMetricsArg (upsertFlag sglangEnableHiCacheArg args ++
    (desired floats cfg).flatMap (absent args)) = _ ++ e ∧ _ := exists_upsertFlag
  have hm : hasArg after sglangEnableHiCacheArg = false := not_hasArg_singleton hf enable_spelled.2.1
  rw [extended, ha, List.count_append, List.count_append, count_upsertFlag hc.once,
    count_eq_zero (enable_not_mem_missing hv), count_eq_zero hm]

include hv in
theorem not_hasArg_extended (hf : flag ∈ [sglangEnableLMCacheArg, sglangConfigFileArg])
    (h : hasArg args flag = false) : hasArg (extended floats cfg args) flag = false := by
  have hs : ∀ flag ∈ [sglangEnableLMCacheArg, sglangConfigFileArg], flag.hasPrefix (utf8 "--") = true ∧
    flag ∉ settingArgs ∧ hasArg [sglangEnableHiCacheArg] flag = false ∧
    hasArg [sglangEnableMetricsArg] flag = false := by decide +kernel
  have ⟨hl, hn, ha⟩ := hs flag hf
  have ⟨extra, he, hx⟩ := exists_extension hv args hl
    (fun w hw => ne_of_mem_of_not_mem (flag_mem_of_desired hw) hn) ha
  rw [he]
  exact hasArg_append.mpr ⟨h, hx⟩

include hv hc in
theorem bare_extended : ∀ t ∈ extended floats cfg args,
    t.hasPrefix (sglangEnableHiCacheArg ++ utf8 "=") = false := by
  have hm : hasArg ((desired floats cfg).flatMap (absent args)) _ = false := enable_not_mem_missing hv
  simp only [hasArg, List.any_eq_false, decide_eq_true_eq, not_or, Bool.not_eq_true] at hm
  obtain ⟨before, after, he, hb, hf⟩ := exists_extended floats cfg args
  rw [he]
  intro t ht
  simp only [List.mem_append] at ht
  rcases ht with ht | (ht | ht) | ht
  case inl => exact hc.bare t ht
  case inr.inl.inl =>
    rcases hb with rfl | rfl
    case inl => cases ht
    case inr =>
      rw [List.mem_singleton.mp ht]
      exact not_assigned_of_bare enable_spelled.2.2.1
  case inr.inl.inr => exact (hm t ht).right
  case inr.inr =>
    rcases hf with rfl | rfl
    case inl => cases ht
    case inr =>
      rw [List.mem_singleton.mp ht]
      exact not_assigned_of_bare enable_spelled.2.2.2

include hv hc in
theorem Compatible.extended : Compatible floats cfg (extended floats cfg args) where
  lmCache := not_hasArg_extended hv (.head _) hc.lmCache
  config := not_hasArg_extended hv (.tail _ (.head _)) hc.config
  bare := bare_extended hv hc
  once := (count_enable hv hc).le
  choices := fun _ => oneValue_extended hv hc
  excluded := by
    have hm : HiCache.excluded cfg ∈ settingArgs := excluded_mem
    rw [argValues_extended hv (long_of_mem hm) (fun _ => flag_ne_excluded) (apart_of_mem hm) (by rw [hc.excluded])]
    exact hc.excluded
  agrees := fun _ hw => .inr (settles_of_desired hv hc hw)

include hv hc in
theorem extended_extended : HiCache.extended floats cfg (HiCache.extended floats cfg args) =
    HiCache.extended floats cfg args := by
  have hm : (desired floats cfg).flatMap (absent (HiCache.extended floats cfg args)) = [] := by
    apply List.flatMap_eq_nil_iff.mpr
    intro w hw
    rw [absent, (settles_of_desired hv hc hw).hasArg]
    rfl
  have he : sglangEnableHiCacheArg ∈ HiCache.extended floats cfg args :=
    List.count_pos_iff.mp (by rw [count_enable hv hc]; decide)
  have hf : sglangEnableMetricsArg ∈ HiCache.extended floats cfg args := by
    rw [HiCache.extended, upsertFlag]
    split <;> simp [*]
  have hu : upsertFlag sglangEnableHiCacheArg (HiCache.extended floats cfg args) =
      HiCache.extended floats cfg args := if_pos he
  rw [HiCache.extended, hm, List.append_nil, hu]
  exact if_pos hf

end Extended

end Update

-- Each setting that is asked for occurs once, with a value that means the same.
structure Settled (floats : FloatParser D) (spec : HiCacheSpec) (args : List GoString) : Prop where
  enabled      : args.count sglangEnableHiCacheArg = 1
  size         : ∀ n, spec.sizeGB = some n → ∃ v, SoleValue sglangHiCacheSizeArg v args ∧
    GoString.parseInt 64 v = some n.toInt
  ratio        : spec.ratio ≠ [] → ∃ v, SoleValue sglangHiCacheRatioArg v args ∧
    equivalentNumber floats v spec.ratio = true
  writePolicy  : spec.writePolicy ≠ [] → SoleValue sglangHiCacheWritePolicyArg spec.writePolicy args
  ioBackend    : spec.ioBackend ≠ [] → SoleValue sglangHiCacheIOBackendArg spec.ioBackend args
  memoryLayout : spec.memoryLayout ≠ [] → SoleValue sglangHiCacheMemoryLayoutArg spec.memoryLayout args
  exclusive    : hasArg args sglangHiCacheSizeArg = false ∨ hasArg args sglangHiCacheRatioArg = false

section Settled

variable (hv : Valid floats cfg) (hc : Compatible floats cfg args)

theorem parseInt_of_equivalent (h : equivalentInteger v (GoString.formatInt (Int32.toInt n)) = true) :
    GoString.parseInt 64 v = some n.toInt := by
  have hp : GoString.parseInt 64 (GoString.formatInt n.toInt) = some n.toInt :=
    GoString.parseInt_formatInt (by have := n.le_toInt; omega) (by have := n.toInt_lt; omega)
  unfold equivalentInteger at h
  split at h
  case h_1 a d ha hd =>
    cases hp.symm.trans hd
    rw [ha, of_decide_eq_true h]
  case h_2 => cases h

theorem mem_desiredChoices (hw : w ∈ [⟨sglangHiCacheWritePolicyArg, cfg.writePolicy, equivalentExact⟩,
    ⟨sglangHiCacheIOBackendArg, cfg.ioBackend, equivalentExact⟩,
    ⟨sglangHiCacheMemoryLayoutArg, cfg.memoryLayout, equivalentExact⟩]) (hn : w.value ≠ []) :
    w ∈ desired floats cfg :=
  .tail _ (List.mem_filter.mpr ⟨hw, by simpa using hn⟩)

theorem Settles.exact (h : Settles args ⟨flag, value, equivalentExact⟩) : SoleValue flag value args := by
  have ⟨v, hv, he⟩ := h
  cases of_decide_eq_true he
  exact soleValue_of_argValues hv

include hv hc

theorem settled_extended : Settled floats cfg (extended floats cfg args) where
  enabled := count_enable hv hc
  size := by
    intro n hn
    have hp : pool floats cfg = ⟨sglangHiCacheSizeArg, GoString.formatInt n.toInt, equivalentInteger⟩ := by
      rw [pool, hn]
    have ⟨v, hs, he⟩ := hp ▸ settles_of_desired hv hc (.head _)
    exact ⟨v, soleValue_of_argValues hs, parseInt_of_equivalent he⟩
  ratio := by
    intro hr
    have hn : cfg.sizeGB = none := Option.eq_none_iff_forall_ne_some.mpr fun n hn => hr (hv.ratio_eq_nil hn)
    have hp : pool floats cfg = ⟨sglangHiCacheRatioArg, cfg.ratio, equivalentNumber floats⟩ := by
      rw [pool, hn]
    have ⟨v, hs, he⟩ := hp ▸ settles_of_desired hv hc (.head _)
    exact ⟨v, soleValue_of_argValues hs, he⟩
  writePolicy := fun hn => (settles_of_desired hv hc (mem_desiredChoices (.head _) hn)).exact
  ioBackend := fun hn => (settles_of_desired hv hc (mem_desiredChoices (.tail _ (.head _)) hn)).exact
  memoryLayout := fun hn => (settles_of_desired hv hc (mem_desiredChoices (.tail _ (.tail _ (.head _))) hn)).exact
  exclusive := by
    have hx := (hc.extended hv).excluded
    have hn : hasArg (extended floats cfg args) (excluded cfg) = false :=
      hasArg_of_argValues (by rw [hx]) (by rw [hx])
    unfold excluded at hn
    split at hn
    case isTrue => exact .inr hn
    case isFalse => exact .inl hn

end Settled

section Inject

variable {pod : PodSpec} {binding : Option Binding} {cache : CacheBackend}

theorem of_resolveHiCacheConfig (h : resolveHiCacheConfig lib floats cache = .ok cfg) :
    cache.spec.rest.hiCache = some cfg ∧ Valid floats cfg := by
  simp only [resolveHiCacheConfig, Except.bind_eq_ok] at h
  obtain ⟨_, _, _, _, _, _, _, _, h⟩ := h
  split at h
  case h_1 => cases h
  case h_2 spec hs =>
    obtain ⟨_, hc, h⟩ := Except.bind_eq_ok.mp h
    cases h
    exact ⟨hs, valid_of_checkSpec hc⟩

theorem newArgs_eq_ok : newArgs lib floats pod binding cache = .ok (i, args') ↔
    binding = none ∧ ∃ cfg, resolveHiCacheConfig lib floats cache = .ok cfg ∧
      engineContainerIndexNamed lib pod sglangEngineContainerName = .ok i ∧
      Compatible floats cfg (PodSpec.args pod i) ∧ args' = extended floats cfg (PodSpec.args pod i) := by
  cases binding
  case some => exact iff_of_false (by rintro ⟨⟩) (by simp)
  case none =>
    simp only [newArgs, Except.bind_eq_ok, true_and]
    refine exists_congr fun cfg => and_congr_right fun _ => ?_
    split
    case isTrue hl =>
      refine iff_of_false (by rintro ⟨⟩) fun h => ?_
      exact Nat.not_lt_zero i (hl ▸ lt_of_engineContainerIndexNamed h.1)
    case isFalse =>
      simp only [Except.bind_eq_ok, updateArgs_eq_ok, Except.pure_eq_ok, Prod.mk.injEq]
      constructor
      case mp =>
        rintro ⟨_, hi, _, h, rfl, rfl⟩
        exact ⟨hi, h⟩
      case mpr =>
        rintro ⟨hi, h⟩
        exact ⟨i, hi, args', h, rfl, rfl⟩

theorem injection_converges (lib : Library) (floats : FloatParser D) (pod pod' : PodSpec)
    (binding : Option Binding) (cache : CacheBackend) (result : Except GoString Unit)
    (h : injectEngineConfig lib floats pod binding cache = (result, pod')) :
    (∀ err, result = .error err → pod' = pod) ∧
    (result = .ok () → ∃ i spec args', engineContainerIndexNamed lib pod sglangEngineContainerName = .ok i ∧
      cache.spec.rest.hiCache = some spec ∧
      pod' = PodSpec.modifyEngine pod i (fun c => { c with args := args' }) ∧
      PodSpec.args pod i <+: args' ∧
      Settled floats spec args' ∧
      injectEngineConfig lib floats pod' binding cache = (.ok (), pod')) := by
  unfold injectEngineConfig at h
  split at h
  case h_1 =>
    cases h
    exact ⟨fun _ _ => rfl, nofun⟩
  case h_2 i args' hn =>
    cases h
    refine ⟨nofun, fun _ => ?_⟩
    have ⟨hb, cfg, hr, hi, hc, he⟩ := newArgs_eq_ok.mp hn
    have ⟨hs, hv⟩ := of_resolveHiCacheConfig hr
    have ⟨before, after, hx, _⟩ := exists_extended floats cfg (PodSpec.args pod i)
    refine ⟨i, cfg, args', hi, hs, rfl, ?_, ?_, ?_⟩
    case refine_1 =>
      rw [he, hx]
      exact List.prefix_append ..
    case refine_2 =>
      rw [he]
      exact settled_extended hv hc
    case refine_3 =>
      have hl := lt_of_engineContainerIndexNamed hi
      have ha : PodSpec.args (PodSpec.modifyEngine pod i fun c => { c with args := args' }) i = args' := by
        simp [PodSpec.args, PodSpec.modifyEngine, hl]
      have hc' : Compatible floats cfg args' := he ▸ hc.extended hv
      have he' : args' = extended floats cfg args' := by rw [he, extended_extended hv hc]
      have hn : newArgs lib floats (PodSpec.modifyEngine pod i fun c => { c with args := args' }) binding cache =
          .ok (i, args') := by
        refine newArgs_eq_ok.mpr ⟨hb, cfg, hr, ?_, ha.symm ▸ hc', ha.symm ▸ he'⟩
        have hf (c : Container) : { c with args := args' }.name = c.name := rfl
        exact (Engine.index_modifyEngine hf).trans hi
      rw [injectEngineConfig, hn]
      simp [Engine.modifyEngine_modifyEngine, Function.comp_def]

section

-- Numbers without sign, point and exponent.
def wholeFloats : FloatParser ℚ where
  parse s     := (s.parseUint 64).map fun n => (n : ℚ)
  eq_self     := by simp [FloatFormat.eq]
  le_of_minus := by
    intro s x h
    have hn : GoString.parseUint 64 (0x2d :: s) = none := by simp [GoString.parseUint, GoString.isDigit]
    simp [hn] at h

def hiCacheBackend (spec : HiCacheSpec) : CacheBackend where
  key := ⟨utf8 "team", utf8 "cache"⟩
  spec := {
    engineSelector := some ⟨(∅ : GoMap GoString GoString).insert (utf8 "app") (utf8 "llm")⟩
    rest := {
      uid := utf8 "1"
      generation := 1
      runtime := .sglang
      type := .sglangHiCache
      lmCache := none
      remoteStorage := none
      observation := none
      integration := none
      allowCrossNamespace := false
      remoteStorageEndpoint := none
      hiCache := some spec
    }
  }

def writeBack : HiCacheSpec :=
  ⟨some 16, [], utf8 "write_back", [], []⟩

-- The size is there already, written in another way. The policy is not.
def sized : PodSpec :=
  Engine.sglangPod [utf8 "--hicache-size=+016", utf8 "--port", utf8 "30000"]

theorem injection_converges_size :
    ∃ pod', injectEngineConfig .plain wholeFloats sized none (hiCacheBackend writeBack) = (.ok (), pod') ∧
      PodSpec.args sized 0 <+: PodSpec.args pod' 0 ∧ Settled wholeFloats writeBack (PodSpec.args pod' 0) := by
  have hr : (injectEngineConfig .plain wholeFloats sized none (hiCacheBackend writeBack)).1 = .ok () := by
    decide +kernel
  have hi : engineContainerIndexNamed .plain sized sglangEngineContainerName = .ok 0 := by decide +kernel
  have he : injectEngineConfig .plain wholeFloats sized none (hiCacheBackend writeBack) = (.ok (), _) :=
    Prod.ext hr rfl
  have ⟨i, spec, args', hx, hs, hp, ha, ht, _⟩ := (injection_converges .plain wholeFloats sized _ none
    (hiCacheBackend writeBack) _ he).right rfl
  cases hi.symm.trans hx
  cases hs
  refine ⟨_, he, ?_⟩
  rw [hp]
  exact ⟨ha, ht⟩

end

end Inject

end HiCache

end InferenceCache.Adapters
