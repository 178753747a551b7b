import InferenceCache.Lib.Bytes

namespace GoString

def hexDigit (n : UInt8) : UInt8 :=
  if n < 10 then 0x30 + n else 0x57 + n

-- `fmt.Sprintf("%x", b)`
def hex (b : Bytes) : GoString :=
  b.flatMap fun c => [hexDigit (c / 16), hexDigit (c % 16)]

def isLowerHex (c : UInt8) : Bool :=
  (0x30 ≤ c ∧ c ≤ 0x39) ∨ (0x61 ≤ c ∧ c ≤ 0x66)

theorem isLowerHex_hexDigit {n : UInt8} (h : n < 16) : isLowerHex (hexDigit n) = true := by
  revert n
  decide +kernel

theorem nibbles_lt (d : UInt8) : d / 16 < 16 ∧ d % 16 < 16 := by
  revert d
  decide +kernel

theorem isLowerHex_of_mem_hex {b : Bytes} {c : UInt8} (h : c ∈ hex b) : isLowerHex c = true := by
  have ⟨d, _, hc⟩ := List.mem_flatMap.mp h
  simp only [List.mem_cons, List.not_mem_nil, or_false] at hc
  cases hc
  case inl hc => exact hc ▸ isLowerHex_hexDigit (nibbles_lt d).1
  case inr hc => exact hc ▸ isLowerHex_hexDigit (nibbles_lt d).2

theorem length_hex {b : Bytes} : (hex b).length = 2 * b.length := by
  induction b
  case nil => rfl
  case cons c b hi =>
    rw [hex, List.flatMap_cons, List.length_append, ← hex, hi, List.length_cons]
    simp only [List.length_cons, List.length_nil]
    omega

theorem hexDigits_injective {c d : UInt8} (h₁ : hexDigit (c / 16) = hexDigit (d / 16))
    (h₂ : hexDigit (c % 16) = hexDigit (d % 16)) : c = d := by
  have hi : ∀ m < (16 : UInt8), ∀ n < (16 : UInt8), hexDigit m = hexDigit n → m = n := by decide +kernel
  have hd := hi _ (nibbles_lt c).1 _ (nibbles_lt d).1 h₁
  have hm := hi _ (nibbles_lt c).2 _ (nibbles_lt d).2 h₂
  have hc : ∀ c : UInt8, c = 16 * (c / 16) + c % 16 := by decide +kernel
  rw [hc c, hc d, hd, hm]

theorem hex_injective {b b' : Bytes} (h : hex b = hex b') : b = b' := by
  induction b generalizing b'
  case nil =>
    cases b'
    case nil => rfl
    case cons => cases h
  case cons c b hi =>
    cases b'
    case nil => cases h
    case cons d b' =>
      simp only [hex, List.flatMap_cons, List.cons_append, List.nil_append, List.cons.injEq] at h
      rw [hexDigits_injective h.1 h.2.1, hi h.2.2]

end GoString
