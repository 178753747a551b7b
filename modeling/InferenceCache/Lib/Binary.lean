import InferenceCache.Lib.Ieee

-- Binary floating-point numbers of a given precision, rounded to the nearest and to even on a tie. The
-- range of exponents is not bounded, so that nothing overflows or loses precision near zero.
namespace Binary

section Rounding

variable {p : Nat} {a b x y : ℚ} {n : Int}

def roundEven (x : ℚ) : Int :=
  if x - ⌊x⌋ < 1 / 2 then ⌊x⌋
  else if 1 / 2 < x - ⌊x⌋ then ⌊x⌋ + 1
  else if 2 ∣ ⌊x⌋ then ⌊x⌋ else ⌊x⌋ + 1

theorem roundEven_intCast : roundEven n = n := by
  simp [roundEven]

theorem floor_le_roundEven : ⌊x⌋ ≤ roundEven x := by
  unfold roundEven
  split_ifs <;> omega

theorem roundEven_le_floor_add_one : roundEven x ≤ ⌊x⌋ + 1 := by
  unfold roundEven
  split_ifs <;> omega

theorem roundEven_mono : Monotone roundEven := by
  intro x y h
  cases (Int.floor_mono h).lt_or_eq
  case inl hf => exact roundEven_le_floor_add_one.trans <| (Int.add_one_le_of_lt hf).trans floor_le_roundEven
  case inr hf =>
    unfold roundEven
    rw [← hf]
    split_ifs <;> first | omega | (exfalso; linarith)

-- The distance between neighbours of a positive number.
def ulp (p : Nat) (a : ℚ) : ℚ :=
  2 ^ (Int.log 2 a + 1 - p)

theorem ulp_pos : 0 < ulp p a :=
  zpow_pos two_pos _

theorem pow_eq_mul_ulp : (2 : ℚ) ^ (Int.log 2 a + 1) = ((2 ^ p : Int) : ℚ) * ulp p a := by
  rw [ulp]
  push_cast
  rw [← zpow_natCast, ← zpow_add₀ two_ne_zero]
  congr 1
  omega

def roundPos (p : Nat) (a : ℚ) : ℚ :=
  roundEven (a / ulp p a) * ulp p a

def nearest (p : Nat) (a : ℚ) : ℚ :=
  if a = 0 then 0 else if 0 < a then roundPos p a else -roundPos p (-a)

-- The two ends of the interval between powers of two that a number is in.
theorem pow_le_roundPos (ha : 0 < a) : 2 ^ Int.log 2 a ≤ roundPos (p + 1) a := by
  have hl : (2 : ℚ) ^ Int.log 2 a ≤ a := by exact_mod_cast Int.zpow_log_le_self one_lt_two ha
  have hu : (2 : ℚ) ^ Int.log 2 a = ((2 ^ p : Int) : ℚ) * ulp (p + 1) a := by
    rw [ulp]
    push_cast
    rw [← zpow_natCast, ← zpow_add₀ two_ne_zero]
    congr 1
    omega
  have hr : (2 ^ p : Int) ≤ roundEven (a / ulp (p + 1) a) := by
    rw [← roundEven_intCast (n := 2 ^ p)]
    apply roundEven_mono
    rwa [le_div_iff₀ ulp_pos, ← hu]
  rw [hu, roundPos]
  exact mul_le_mul_of_nonneg_right (by exact_mod_cast hr) ulp_pos.le

theorem roundEven_le_pow : roundEven (a / ulp p a) ≤ 2 ^ p := by
  have hl : a < (2 : ℚ) ^ (Int.log 2 a + 1) := by
    exact_mod_cast Int.lt_zpow_succ_log_self one_lt_two a
  rw [← roundEven_intCast (n := 2 ^ p)]
  apply roundEven_mono
  rw [div_le_iff₀ ulp_pos, ← pow_eq_mul_ulp]
  exact hl.le

theorem roundPos_le_pow : roundPos p a ≤ 2 ^ (Int.log 2 a + 1) := by
  rw [pow_eq_mul_ulp (p := p), roundPos]
  exact mul_le_mul_of_nonneg_right (by exact_mod_cast roundEven_le_pow) ulp_pos.le

theorem roundPos_mono (ha : 0 < a) (h : a ≤ b) : roundPos (p + 1) a ≤ roundPos (p + 1) b := by
  have hb : 0 < b := ha.trans_le h
  cases (Int.log_mono_right ha h : Int.log 2 a ≤ Int.log 2 b).lt_or_eq
  case inl hl =>
    calc
      roundPos (p + 1) a ≤ 2 ^ (Int.log 2 a + 1) := roundPos_le_pow
      _ ≤ 2 ^ Int.log 2 b := zpow_le_zpow_right₀ one_le_two hl
      _ ≤ roundPos (p + 1) b := pow_le_roundPos hb
  case inr hl =>
    have hu : ulp (p + 1) a = ulp (p + 1) b := by rw [ulp, ulp, hl]
    rw [roundPos, roundPos, hu]
    have hr := roundEven_mono <| div_le_div_of_nonneg_right h (ulp_pos (p := p + 1) (a := b)).le
    exact mul_le_mul_of_nonneg_right (by exact_mod_cast hr) ulp_pos.le

theorem roundPos_pos (ha : 0 < a) : 0 < roundPos (p + 1) a :=
  (zpow_pos two_pos _).trans_le (pow_le_roundPos ha)

theorem nearest_zero : nearest p 0 = 0 :=
  if_pos rfl

theorem nearest_of_pos (ha : 0 < a) : nearest p a = roundPos p a := by
  rw [nearest, if_neg ha.ne', if_pos ha]

theorem nearest_neg : nearest p (-a) = -nearest p a := by
  unfold nearest
  rcases lt_trichotomy a 0 with h | rfl | h
  case inl =>
    have h' : 0 < -a := neg_pos.mpr h
    simp [h.ne, h.not_gt, h']
  case inr.inl => simp
  case inr.inr =>
    have h' : ¬0 < -a := by linarith
    simp [h.ne', h, h']

theorem nearest_mono : Monotone (nearest (p + 1)) := by
  -- By symmetry only the case of two positive numbers is left.
  have hp : ∀ {a b : ℚ}, 0 < a → a ≤ b → nearest (p + 1) a ≤ nearest (p + 1) b := by
    intro a b ha h
    rw [nearest_of_pos ha, nearest_of_pos (ha.trans_le h)]
    exact roundPos_mono ha h
  have hz : ∀ {b : ℚ}, 0 ≤ b → 0 ≤ nearest (p + 1) b := by
    intro b hb
    cases hb.lt_or_eq
    case inl hb => exact (nearest_of_pos hb).symm ▸ (roundPos_pos hb).le
    case inr hb => exact (hb ▸ nearest_zero : nearest (p + 1) b = 0).ge
  intro a b h
  rcases lt_or_ge 0 a with ha | ha
  case inl => exact hp ha h
  case inr =>
    have hn : nearest (p + 1) a ≤ 0 := by
      have := hz (neg_nonneg.mpr ha)
      rw [nearest_neg] at this
      linarith
    rcases lt_or_ge b 0 with hb | hb
    case inr => exact hn.trans (hz hb)
    case inl =>
      have := hp (neg_pos.mpr hb) (neg_le_neg h)
      rw [nearest_neg, nearest_neg] at this
      linarith

-- A number with few enough digits is not rounded at all.
theorem nearest_of_digits {m k : Int} (hm : |m| < 2 ^ p) : nearest p (m * 2 ^ k) = m * 2 ^ k := by
  have key : ∀ {m : Int}, 0 < m → m < 2 ^ p → nearest p (m * 2 ^ k) = m * 2 ^ k := by
    intro m h₀ hm
    have hm₀ : (0 : ℚ) < m := by exact_mod_cast h₀
    have ha : (0 : ℚ) < m * 2 ^ k := mul_pos hm₀ (zpow_pos two_pos _)
    -- The last digit of `m` weighs at least as much as an ulp.
    have hl : Int.log 2 ((m : ℚ) * 2 ^ k) < p + k := by
      have hlt : (m : ℚ) * 2 ^ k < 2 ^ ((p : Int) + k) := by
        rw [zpow_add₀ two_ne_zero, zpow_natCast]
        exact mul_lt_mul_of_pos_right (by exact_mod_cast hm) (zpow_pos two_pos _)
      exact (Int.lt_zpow_iff_log_lt one_lt_two ha).mp (by exact_mod_cast hlt)
    have ⟨d, hd⟩ : ∃ d : Nat, k = Int.log 2 ((m : ℚ) * 2 ^ k) + 1 - p + d :=
      ⟨(k - (Int.log 2 ((m : ℚ) * 2 ^ k) + 1 - p)).toNat, by omega⟩
    have hq : (m : ℚ) * 2 ^ k / ulp p (m * 2 ^ k) = ((m * 2 ^ d : Int) : ℚ) := by
      rw [div_eq_iff ulp_pos.ne', ulp]
      push_cast
      rw [mul_assoc, ← zpow_natCast, ← zpow_add₀ two_ne_zero]
      congr 2
      omega
    rw [nearest_of_pos ha, roundPos, hq, roundEven_intCast, ← hq, div_mul_cancel₀ _ ulp_pos.ne']
  rcases lt_trichotomy m 0 with h | rfl | h
  case inl =>
    have := key (m := -m) (by omega) (by rwa [abs_of_neg h] at hm)
    rw [Int.cast_neg, neg_mul, nearest_neg, neg_inj] at this
    exact this
  case inr.inl => simp [nearest_zero]
  case inr.inr => exact key h (by rwa [abs_of_pos h] at hm)

theorem nearest_nearest : nearest (p + 1) (nearest (p + 1) a) = nearest (p + 1) a := by
  have key : ∀ {a : ℚ}, 0 < a → nearest (p + 1) (nearest (p + 1) a) = nearest (p + 1) a := by
    intro a ha
    have hle : roundEven (a / ulp (p + 1) a) ≤ 2 ^ (p + 1) := roundEven_le_pow
    have hpos : 0 < roundEven (a / ulp (p + 1) a) := by
      have h := roundPos_pos (p := p) ha
      rw [roundPos, mul_pos_iff_of_pos_right ulp_pos] at h
      exact_mod_cast h
    rw [nearest_of_pos ha, roundPos]
    cases hle.lt_or_eq
    case inl h =>
      generalize roundEven (a / ulp (p + 1) a) = m at h hpos
      exact nearest_of_digits (by rwa [abs_of_pos hpos])
    -- Rounded up to the next power of two.
    case inr h =>
      have hu : (2 : ℚ) ^ (Int.log 2 a + 1) = ((1 : Int) : ℚ) * 2 ^ (Int.log 2 a + 1) := by simp
      rw [h, ← pow_eq_mul_ulp, hu]
      exact nearest_of_digits (by rw [abs_one]; exact one_lt_pow₀ one_lt_two p.succ_ne_zero)
  rcases lt_trichotomy a 0 with h | rfl | h
  case inl =>
    have := key (neg_pos.mpr h)
    rwa [nearest_neg, nearest_neg, neg_inj] at this
  case inr.inl => rw [nearest_zero, nearest_zero]
  case inr.inr => exact key h

end Rounding

section Format

-- The numbers with `p` digits after the first one.
abbrev Num (p : Nat) := { a : ℚ // nearest (p + 1) a = a }

variable {p : Nat}

def ofRat (a : ℚ) : Num p :=
  ⟨nearest (p + 1) a, nearest_nearest⟩

theorem val_ofRat {a : ℚ} (h : nearest (p + 1) a = a) : (ofRat a : Num p).1 = a :=
  h

theorem nearest_pow {n : Nat} : nearest (p + 1) (2 ^ n) = 2 ^ n := by
  have h := nearest_of_digits (p := p + 1) (m := 1) (k := n) <| by
    rw [abs_one]
    exact one_lt_pow₀ one_lt_two p.succ_ne_zero
  simpa using h

theorem nearest_one : nearest (p + 1) 1 = 1 := by
  simpa using nearest_pow (p := p) (n := 0)

instance instFloatFormatNum : FloatFormat (Num p) where
  zero       := ofRat 0
  one        := ofRat 1
  add x y    := ofRat (x.1 + y.1)
  sub x y    := ofRat (x.1 - y.1)
  mul x y    := ofRat (x.1 * y.1)
  div x y    := ofRat (x.1 / y.1)
  ofInt n    := ofRat n
  lt x y     := decide (x.1 < y.1)
  le x y     := decide (x.1 ≤ y.1)
  eq x y     := decide (x.1 = y.1)
  isFinite _ := true

instance instIeeeFormatNum : IeeeFormat (Num p) where
  val x           := some ↑x.1
  round a         := ↑(nearest (p + 1) a)
  round_mono := fun _ _ h => WithBotTop.coe_monotone (nearest_mono h)
  round_val {x _} h := by rw [← WithBotTop.some_coe_inj h, x.2]
  round_pow _     := by rw [nearest_neg, nearest_pow]; exact ⟨rfl, rfl⟩
  val_zero := congrArg (some ∘ _) (val_ofRat nearest_zero)
  val_one := congrArg (some ∘ _) (val_ofRat nearest_one)
  val_ofInt := rfl
  val_add hx hy   := by rw [← WithBotTop.some_coe_inj hx, ← WithBotTop.some_coe_inj hy]; rfl
  val_sub hx hy   := by rw [← WithBotTop.some_coe_inj hx, ← WithBotTop.some_coe_inj hy]; rfl
  val_mul hx hy   := by rw [← WithBotTop.some_coe_inj hx, ← WithBotTop.some_coe_inj hy]; rfl
  val_div hx hy _ := by rw [← WithBotTop.some_coe_inj hx, ← WithBotTop.some_coe_inj hy]; rfl
  val_div_top _ h := absurd (Option.some_injective _ h) (WithBotTop.coe_ne_top _)
  lt_iff hx hy    := by cases hx; cases hy; simp [FloatFormat.lt]
  le_iff hx hy    := by cases hx; cases hy; simp [FloatFormat.le]
  eq_iff hx hy    := by
    cases hx
    cases hy
    simp [FloatFormat.eq, WithBotTop.coe_injective.eq_iff]
  lt_of_nan h     := by simp at h
  isFinite_iff := ⟨fun _ => ⟨_, rfl⟩, fun _ => rfl⟩

-- Single precision, computed through double precision.
abbrev Single := Num 23

instance instGoFloatSingle : GoFloat Single where
  Double     := Num 52
  double     := inferInstance
  narrow x   := ofRat x.1
  widen x    := ofRat x.1
  truncate x := if 0 ≤ x.1 then ⌊x.1⌋ else ⌈x.1⌉

instance instIeeeFloatSingle : IeeeFloat Single where
  double       := instIeeeFormatNum
  val_narrow h := by
    have h := WithBotTop.some_coe_inj h
    rw [← h]
    rfl

end Format

end Binary

open FloatFormat GoFloat IeeeFormat

-- The precision of the two formats, away from the ends of their ranges.
class Ieee754 (F : Type) [GoFloat F] extends IeeeFloat F where
  single_digits : ∀ {m k : Int}, |m| < 2 ^ 24 → -126 ≤ k → k ≤ 100 → Representable F (m * 2 ^ k)
  double_digits : ∀ {m k : Int}, |m| < 2 ^ 53 → -1022 ≤ k → k ≤ 900 →
                    Representable (Double F) (m * 2 ^ k)

instance Binary.instIeee754Single : Ieee754 Binary.Single where
  single_digits hm _ _ := congrArg WithBotTop.coe (Binary.nearest_of_digits hm)
  double_digits hm _ _ := congrArg WithBotTop.coe (Binary.nearest_of_digits hm)

namespace Ieee754

variable {F : Type} [GoFloat F] [Ieee754 F]

theorem representable_ulp : Representable F (2 ^ (-53 : Int)) := by
  simpa using single_digits (F := F) (m := 1) (k := -53) (by decide) (by decide) (by decide)

theorem representable_double_ulp : Representable (Double F) (2 ^ (-53 : Int)) := by
  simpa using double_digits (F := F) (m := 1) (k := -53) (by decide) (by decide) (by decide)

-- A number that can still be counted in single steps.
theorem representable_ofInt {k : Int} (h₀ : 0 ≤ k) (h : k ≤ 2 ^ 53) : Representable (Double F) k := by
  cases h.lt_or_eq
  case inl h =>
    simpa using double_digits (F := F) (m := k) (k := 0) (by rwa [abs_of_nonneg h₀]) (by decide) (by decide)
  case inr h =>
    rw [h, Int.cast_pow, Int.cast_ofNat]
    exact representable_pow (by decide)

-- What is left of one is not lost, as long as the whole can be counted in single steps.
theorem pos_one_sub_div {k l : Int} (hk : 0 < k) (h : k < l) (hl : l ≤ 2 ^ 53) :
    ∃ a : ℚ, val (narrow (1 - ofInt k / ofInt l : Double F) : F) = some ↑a ∧ 0 < a := by
  have hvk : val (ofInt k : Double F) = some ↑(k : ℚ) :=
    val_ofInt.trans (congrArg some (representable_ofInt hk.le (h.le.trans hl)))
  have hvl : val (ofInt l : Double F) = some ↑(l : ℚ) :=
    val_ofInt.trans (congrArg some (representable_ofInt (hk.trans h).le hl))
  have hl₀ : (0 : ℚ) < l := by exact_mod_cast hk.trans h
  have hk₀ : (0 : ℚ) ≤ k := by exact_mod_cast hk.le
  have hq : (k : ℚ) / l ≤ 1 - 2 ^ (-53 : Int) := by
    have hlq : (l : ℚ) ≤ 2 ^ 53 := by exact_mod_cast hl
    have hkl : (k : ℚ) + 1 ≤ l := by exact_mod_cast h
    have hu : (1 : ℚ) / 2 ^ 53 ≤ 1 / l := one_div_le_one_div_of_le hl₀ hlq
    have he : (k : ℚ) / l ≤ 1 - 1 / l := by
      rw [div_le_iff₀ hl₀, sub_mul, one_mul, one_div, inv_mul_cancel₀ hl₀.ne']
      linarith
    have hz : (2 : ℚ) ^ (-53 : Int) = 1 / 2 ^ 53 := by norm_num
    linarith
  have hhi : Representable (Double F) (1 - 2 ^ (-53 : Int)) := by
    have hd := double_digits (F := F) (m := 2 ^ 53 - 1) (k := -53) (by decide) (by decide) (by decide)
    have he : ((2 ^ 53 - 1 : Int) : ℚ) * 2 ^ (-53 : Int) = 1 - 2 ^ (-53 : Int) := by norm_num
    rwa [he] at hd
  have ⟨a, ha, ha₀, ha₁⟩ : Within 0 (1 - 2 ^ (-53 : Int)) (ofInt k / ofInt l : Double F) :=
    .of_round (val_div hvk hvl hl₀.ne') representable_zero hhi (div_nonneg hk₀ hl₀.le) hq
  have ⟨b, hb, hb₀, hb₁⟩ : Within (2 ^ (-53 : Int)) 1 (1 - ofInt k / ofInt l : Double F) :=
    .of_round (val_sub val_one ha) representable_double_ulp representable_one (by linarith) (by linarith)
  have ⟨c, hc, hc₀, _⟩ : Within (2 ^ (-53 : Int)) 1 (narrow (1 - ofInt k / ofInt l : Double F) : F) :=
    .of_round (IeeeFloat.val_narrow hb) representable_ulp representable_one hb₀ hb₁
  exact ⟨c, hc, (zpow_pos two_pos _).trans_le hc₀⟩

end Ieee754
