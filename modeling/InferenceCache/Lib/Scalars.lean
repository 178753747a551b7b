import Mathlib

-- An instant, in nanoseconds since Go's zero time, so that the zero value of `time.Time` is `0`.
abbrev Time := Int

abbrev Duration := Int

namespace Time

def maxDuration : Duration := 2 ^ 63 - 1

def minDuration : Duration := -2 ^ 63

-- `t.Sub(u)`, which stops at the ends of the range of a duration.
def sub (t u : Time) : Duration :=
  max minDuration (min maxDuration (t - u))

def microsecond : Duration := 1000

def millisecond : Duration := 10 ^ 6

-- `d.Microseconds()`, which rounds toward zero.
def microseconds (d : Duration) : Int :=
  d.tdiv microsecond

-- The Unix epoch, from which `time.UnixMicro` counts.
def unixEpoch : Time := 62135596800 * 10 ^ 9

def unixMicro (us : Int) : Time :=
  unixEpoch + us * microsecond

end Time

-- The arithmetic of one floating-point format. No law is assumed of it: results that hold of every
-- such arithmetic hold of IEEE 754 with its rounding, infinities and NaN. The comparisons are
-- separate operations, since with NaN none of them is determined by another.
class FloatFormat (F : Type) extends Zero F, One F, Add F, Sub F, Mul F, Div F where
  ofInt    : Int → F
  lt       : F → F → Bool
  le       : F → F → Bool
  eq       : F → F → Bool
  isFinite : F → Bool

-- Single precision values, together with the double precision they are computed through.
class GoFloat (F : Type) extends FloatFormat F where
  Double    : Type
  double    : FloatFormat Double
  narrow    : Double → F
  widen     : F → Double
  truncate  : Double → Int

attribute [reducible, instance] GoFloat.double

instance : FloatFormat ℚ where
  ofInt      := Int.cast
  lt x y     := decide (x < y)
  le x y     := decide (x ≤ y)
  eq x y     := decide (x = y)
  isFinite _ := true

-- The exact reading, in which no operation rounds.
instance : GoFloat ℚ where
  Double   := ℚ
  double   := inferInstance
  narrow   := id
  widen    := id
  truncate x := if 0 ≤ x then ⌊x⌋ else ⌈x⌉

instance : FloatFormat Float where
  zero      := 0.0
  one       := 1.0
  ofInt     := Float.ofInt
  lt x y    := decide (x < y)
  le x y    := decide (x ≤ y)
  eq x y    := x == y
  isFinite  := Float.isFinite

instance : FloatFormat Float32 where
  zero      := 0.0
  one       := 1.0
  ofInt     := Float32.ofInt
  lt x y    := decide (x < y)
  le x y    := decide (x ≤ y)
  eq x y    := x == y
  isFinite  := Float32.isFinite

-- The machine's reading.
instance : GoFloat Float32 where
  Double     := Float
  double     := inferInstance
  narrow     := Float.toFloat32
  widen      := Float32.toFloat
  truncate x := x.toInt64.toInt

namespace Int32

variable {counts : List Int32} {n : Int32}

theorem sum_toInt_nonneg (h : ∀ m ∈ counts, 0 ≤ m) : 0 ≤ (counts.map Int32.toInt).sum := by
  apply List.sum_nonneg
  intro x hx
  have ⟨m, hm, he⟩ := List.mem_map.mp hx
  exact he ▸ Int32.le_iff_toInt_le.mp (h m hm)

-- A sum that fits is the exact one.
theorem toInt_foldl_add (h : ∀ m ∈ counts, 0 ≤ m) (hn : 0 ≤ n.toInt)
    (hs : n.toInt + (counts.map Int32.toInt).sum < 2 ^ 31) :
    (counts.foldl (· + ·) n).toInt = n.toInt + (counts.map Int32.toInt).sum := by
  induction counts generalizing n
  case nil => simp
  case cons m counts hi =>
    have ⟨hm, h⟩ := List.forall_mem_cons.mp h
    have hm : 0 ≤ m.toInt := Int32.le_iff_toInt_le.mp hm
    have hr := sum_toInt_nonneg h
    rw [List.map_cons, List.sum_cons] at hs ⊢
    have ha : (n + m).toInt = n.toInt + m.toInt := by
      rw [Int32.toInt_add]
      exact Int.bmod_eq_of_le (by omega) (by omega)
    rw [List.foldl_cons, hi h (by omega) (by omega), ha]
    omega

end Int32
