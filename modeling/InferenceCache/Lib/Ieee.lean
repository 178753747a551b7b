import InferenceCache.Lib.Scalars

open FloatFormat

-- What IEEE 754 says of a binary format: an operation on finite numbers yields the exact result,
-- rounded once. Rounding is monotone, keeps what the format can represent, and may overflow. The sign
-- of a zero does not appear, since no comparison depends on it.
class IeeeFormat (F : Type) [FloatFormat F] where
  -- The number that a value stands for, unless it is NaN.
  val          : F → Option (WithBotTop ℚ)
  round        : ℚ → WithBotTop ℚ
  round_mono   : Monotone round
  round_val    : ∀ {x : F} {a : ℚ}, val x = some ↑a → round a = ↑a
  round_pow    : ∀ {n : Nat}, n ≤ 64 → round (2 ^ n) = ↑(2 ^ n : ℚ) ∧ round (-2 ^ n) = ↑(-2 ^ n : ℚ)
  val_zero     : val 0 = some ↑(0 : ℚ)
  val_one      : val 1 = some ↑(1 : ℚ)
  val_ofInt    : ∀ {n : Int}, val (ofInt n) = some (round n)
  val_add      : ∀ {x y : F} {a b : ℚ}, val x = some ↑a → val y = some ↑b → val (x + y) = some (round (a + b))
  val_sub      : ∀ {x y : F} {a b : ℚ}, val x = some ↑a → val y = some ↑b → val (x - y) = some (round (a - b))
  val_mul      : ∀ {x y : F} {a b : ℚ}, val x = some ↑a → val y = some ↑b → val (x * y) = some (round (a * b))
  val_div      : ∀ {x y : F} {a b : ℚ}, val x = some ↑a → val y = some ↑b → b ≠ 0 →
                   val (x / y) = some (round (a / b))
  val_div_top  : ∀ {x y : F} {a : ℚ}, val x = some ↑a → val y = some ⊤ → val (x / y) = some ↑(0 : ℚ)
  lt_iff       : ∀ {x y : F} {p q : WithBotTop ℚ}, val x = some p → val y = some q → (lt x y ↔ p < q)
  le_iff       : ∀ {x y : F} {p q : WithBotTop ℚ}, val x = some p → val y = some q → (le x y ↔ p ≤ q)
  eq_iff       : ∀ {x y : F} {p q : WithBotTop ℚ}, val x = some p → val y = some q → (eq x y ↔ p = q)
  lt_of_nan    : ∀ {x y : F}, val x = none ∨ val y = none → lt x y = false
  isFinite_iff : ∀ {x : F}, isFinite x ↔ ∃ a : ℚ, val x = some ↑a

-- Single precision is double precision rounded once more.
class IeeeFloat (F : Type) [GoFloat F] extends IeeeFormat F where
  double     : IeeeFormat (GoFloat.Double F)
  val_narrow : ∀ {x : GoFloat.Double F} {a : ℚ}, double.val x = some ↑a →
                 val (GoFloat.narrow x) = some (round a)

attribute [reducible, instance] IeeeFloat.double

section Exact

theorem WithBotTop.some_coe_inj {a b : ℚ} (h : some (a : WithBotTop ℚ) = some (b : WithBotTop ℚ)) :
    a = b :=
  WithBotTop.coe_injective <| Option.some_injective _ h

-- The exact reading, in which nothing is ever rounded. No law is about a division by zero.
instance instIeeeFormatRat : IeeeFormat ℚ where
  val a           := some ↑a
  round a         := ↑a
  round_mono := WithBotTop.coe_monotone
  round_val _     := rfl
  round_pow _     := ⟨rfl, rfl⟩
  val_zero := rfl
  val_one := rfl
  val_ofInt := rfl
  val_add hx hy   := by rw [WithBotTop.some_coe_inj hx, WithBotTop.some_coe_inj hy]
  val_sub hx hy   := by rw [WithBotTop.some_coe_inj hx, WithBotTop.some_coe_inj hy]
  val_mul hx hy   := by rw [WithBotTop.some_coe_inj hx, WithBotTop.some_coe_inj hy]
  val_div hx hy _ := by rw [WithBotTop.some_coe_inj hx, WithBotTop.some_coe_inj hy]
  val_div_top _ h := absurd (Option.some_injective _ h) (WithBotTop.coe_ne_top _)
  lt_iff hx hy    := by cases hx; cases hy; simp [lt]
  le_iff hx hy    := by cases hx; cases hy; simp [le]
  eq_iff hx hy    := by
    cases hx
    cases hy
    simp [eq, WithBotTop.coe_injective.eq_iff]
  lt_of_nan h     := by simp at h
  isFinite_iff := ⟨fun _ => ⟨_, rfl⟩, fun _ => rfl⟩

instance instIeeeFloatRat : IeeeFloat ℚ where
  double       := instIeeeFormatRat
  val_narrow h := h

end Exact

namespace IeeeFormat

variable {F : Type} [FloatFormat F] [IeeeFormat F] {x y : F} {a b lo hi : ℚ} {m n : Nat}

-- The number as such, where it is finite.
def toRat (x : F) : ℚ :=
  (val x).elim 0 (WithBotTop.rec 0 id 0)

theorem toRat_of_val (h : val x = some ↑a) : toRat x = a := by
  rw [toRat, h]
  rfl

theorem lt_iff_toRat (hx : val x = some ↑a) (hy : val y = some ↑b) : lt x y ↔ toRat x < toRat y := by
  rw [lt_iff hx hy, WithBotTop.coe_lt_coe, toRat_of_val hx, toRat_of_val hy]

theorem eq_iff_toRat (hx : val x = some ↑a) (hy : val y = some ↑b) : eq x y ↔ toRat x = toRat y := by
  rw [eq_iff hx hy, WithBotTop.coe_injective.eq_iff, toRat_of_val hx, toRat_of_val hy]

theorem le_of_lt_of_not_lt {z : F} (hx : val x = some ↑a) (hy : lt z y) (h : ¬lt x y) : le y x := by
  cases hv : val y
  case none => simp [lt_of_nan (.inr hv)] at hy
  case some q =>
    rw [lt_iff hx hv, not_lt] at h
    exact (le_iff hv hx).mpr h

-- A finite number between two bounds.
def Within (lo hi : ℚ) (x : F) : Prop :=
  ∃ a : ℚ, val x = some ↑a ∧ lo ≤ a ∧ a ≤ hi

def Representable (F : Type) [FloatFormat F] [IeeeFormat F] (a : ℚ) : Prop :=
  round (F := F) a = ↑a

theorem exists_coe_of_between {p : WithBotTop ℚ} (h₁ : ↑lo ≤ p) (h₂ : p ≤ ↑hi) :
    ∃ a : ℚ, p = ↑a ∧ lo ≤ a ∧ a ≤ hi := by
  induction p using WithBotTop.rec
  case bot => exact absurd (le_bot_iff.mp h₁) (WithBotTop.coe_ne_bot lo)
  case coe a => exact ⟨a, rfl, WithBotTop.coe_le_coe.mp h₁, WithBotTop.coe_le_coe.mp h₂⟩
  case top => exact absurd (top_le_iff.mp h₂) (WithBotTop.coe_ne_top hi)

-- Rounding does not leave an interval whose bounds can be represented.
theorem Within.of_round (h : val x = some (round (F := F) a)) (hlo : Representable F lo)
    (hhi : Representable F hi) (h₁ : lo ≤ a) (h₂ : a ≤ hi) : Within lo hi x := by
  have hl : ↑lo ≤ round (F := F) a := hlo ▸ round_mono h₁
  have hh : round (F := F) a ≤ ↑hi := hhi ▸ round_mono h₂
  have ⟨b, hb, hb₁, hb₂⟩ := exists_coe_of_between hl hh
  exact ⟨b, by rw [h, hb], hb₁, hb₂⟩

theorem representable_zero : Representable F 0 :=
  round_val val_zero

theorem representable_one : Representable F 1 :=
  round_val val_one

theorem representable_pow (h : n ≤ 64) : Representable F (2 ^ n) :=
  (round_pow h).1

theorem representable_neg_pow (h : n ≤ 64) : Representable F (-2 ^ n) :=
  (round_pow h).2

theorem within_zero : Within 0 1 (0 : F) :=
  ⟨0, val_zero, le_rfl, zero_le_one⟩

theorem within_one : Within 0 1 (1 : F) :=
  ⟨1, val_one, zero_le_one, le_rfl⟩

-- A factor from the unit interval stretched by a power of two.
theorem Within.mul (hx : Within (-2 ^ n) (2 ^ n) x) (hy : Within 0 (2 ^ m) y) (h : n + m ≤ 64) :
    Within (-2 ^ (n + m)) (2 ^ (n + m)) (x * y) := by
  have ⟨a, ha, ha₁, ha₂⟩ := hx
  have ⟨b, hb, hb₁, hb₂⟩ := hy
  have hab : |a * b| ≤ 2 ^ (n + m) := by
    rw [abs_mul, abs_of_nonneg hb₁, pow_add]
    exact mul_le_mul (abs_le.mpr ⟨ha₁, ha₂⟩) hb₂ hb₁ (by positivity)
  have ⟨h₁, h₂⟩ := abs_le.mp hab
  exact .of_round (val_mul ha hb) (representable_neg_pow h) (representable_pow h) h₁ h₂

theorem Within.mul_unit (hx : Within (-2 ^ n) (2 ^ n) x) (hy : Within 0 1 y) (h : n ≤ 64) :
    Within (-2 ^ n) (2 ^ n) (x * y) := by
  have hy : Within 0 (2 ^ 0) y := by simpa using hy
  simpa using hx.mul hy h

theorem within_ofInt {k : Int} (h : n ≤ 64) (h₁ : -2 ^ n ≤ k) (h₂ : k ≤ 2 ^ n) :
    Within (-2 ^ n) (2 ^ n) (ofInt k : F) := by
  apply Within.of_round val_ofInt (representable_neg_pow h) (representable_pow h)
  case h₁ => exact_mod_cast h₁
  case h₂ => exact_mod_cast h₂

-- The share that is left of one.
theorem Within.one_sub (hx : Within 0 1 x) : Within 0 1 (1 - x) := by
  have ⟨a, ha, h₁, h₂⟩ := hx
  exact .of_round (val_sub val_one ha) representable_zero representable_one
    (sub_nonneg.mpr h₂) (sub_le_self _ h₁)

-- The divisor may be too large to be finite.
theorem within_ofInt_div_ofInt {k l : Int} (h₀ : 0 ≤ k) (hk : k ≤ 2 ^ 64) (hl : 0 < l) (h : k ≤ l) :
    Within 0 1 (ofInt k / ofInt l : F) := by
  have hl₁ : (1 : ℚ) ≤ l := by exact_mod_cast hl
  have hkl : (k : ℚ) ≤ l := by exact_mod_cast h
  have hk₀ : (0 : ℚ) ≤ k := by exact_mod_cast h₀
  have hk₁ : (k : ℚ) ≤ 2 ^ 64 := by exact_mod_cast hk
  have ⟨a, ha, ha₀, _⟩ : Within 0 (2 ^ 64) (ofInt k : F) :=
    .of_round val_ofInt representable_zero (representable_pow le_rfl) hk₀ hk₁
  have ha' : round (F := F) k = ↑a := Option.some_injective _ <| val_ofInt.symm.trans ha
  have hr : ↑a ≤ round (F := F) l := ha' ▸ round_mono hkl
  have hr₁ : ↑(1 : ℚ) ≤ round (F := F) l := (representable_one (F := F)) ▸ round_mono hl₁
  cases hb : round (F := F) l using WithBotTop.rec
  case bot => exact absurd (le_bot_iff.mp (hb ▸ hr)) (WithBotTop.coe_ne_bot a)
  case top => exact ⟨0, val_div_top ha (val_ofInt.trans (congrArg some hb)), le_rfl, zero_le_one⟩
  case coe b =>
    rw [hb, WithBotTop.coe_le_coe] at hr hr₁
    have hb₀ : 0 < b := zero_lt_one.trans_le hr₁
    apply Within.of_round (val_div ha (val_ofInt.trans (congrArg some hb)) hb₀.ne')
      representable_zero representable_one
    case h₁ => exact div_nonneg ha₀ hb₀.le
    case h₂ => exact (div_le_one hb₀).mpr hr

end IeeeFormat
