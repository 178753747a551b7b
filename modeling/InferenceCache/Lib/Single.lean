import InferenceCache.Lib.Scalars

-- The machine's single precision once more, with the conversions written out, so that it can be evaluated.
structure Single where
  float32 : Float32

namespace Single

open Float.Model

instance : FloatFormat Single where
  zero       := ⟨0.0⟩
  one        := ⟨1.0⟩
  add x y    := ⟨x.float32 + y.float32⟩
  sub x y    := ⟨x.float32 - y.float32⟩
  mul x y    := ⟨x.float32 * y.float32⟩
  div x y    := ⟨x.float32 / y.float32⟩
  ofInt n    := ⟨.ofInt n⟩
  lt x y     := decide (x.float32 < y.float32)
  le x y     := decide (x.float32 ≤ y.float32)
  eq x y     := x.float32 == y.float32
  isFinite x := x.float32.isFinite

-- A finite number is rounded to the precision of the other format.
def convert (format : Format) : UnpackedFloat → UnpackedFloat
  | .finite sign mantissa exponent _ => .normalize format (sign.apply mantissa) exponent sign
  | x                                => x

instance : GoFloat Single where
  Double     := Float
  double     := inferInstance
  narrow x   := ⟨⟨.pack (convert .binary32 x.toModel.unpack)⟩⟩
  widen x    := ⟨.pack (convert .binary64 x.float32.toModel.unpack)⟩
  truncate x := x.toModel.toInt64.toInt

end Single
