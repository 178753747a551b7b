import InferenceCache.Lib.Bytes
import InferenceCache.Lib.GoMap

-- MessagePack values, and what is asked of the library that reads them.
namespace Msgpack

-- The codes under which an integer may be written.
inductive IntForm
  | fixnum
  | uint8
  | uint16
  | uint32
  | uint64
  | int8
  | int16
  | int32
  | int64
  deriving DecidableEq

namespace IntForm

def lowest : IntForm → Int
  | fixnum                              => -32
  | uint8 | uint16 | uint32 | uint64    => 0
  | int8                                => -2 ^ 7
  | int16                               => -2 ^ 15
  | int32                               => -2 ^ 31
  | int64                               => -2 ^ 63

def highest : IntForm → Int
  | fixnum | int8 => 2 ^ 7 - 1
  | uint8         => 2 ^ 8 - 1
  | uint16        => 2 ^ 16 - 1
  | uint32        => 2 ^ 32 - 1
  | uint64        => 2 ^ 64 - 1
  | int16         => 2 ^ 15 - 1
  | int32         => 2 ^ 31 - 1
  | int64         => 2 ^ 63 - 1

end IntForm

structure Integer where
  form    : IntForm
  value   : Int
  lowest  : form.lowest ≤ value
  highest : value ≤ form.highest

-- `D` are the floating-point numbers. How the length of a string or an array is written is not told apart.
inductive Value (D : Type)
  | nil
  | bool (b : Bool)
  | int (i : Integer)
  | float (x : D)
  | str (s : GoString)
  | bin (b : Bytes)
  | array (l : List (Value D))
  | map (l : List (Value D × Value D))
  | ext (id : Int) (data : Bytes)

variable {D : Type}

-- A `RawMessage`. It is left empty for a nil within an array or a map.
abbrev Raw (D : Type) := Option (Value D)

def Value.raw : Value D → Raw D
  | .nil => none
  | v    => some v

-- A map whose keys are texts.
def Value.record (l : List (GoString × Value D)) : Value D :=
  .map (l.map fun x => (.str x.1, x.2))

def Value.Scalar : Value D → Prop
  | .array _ | .map _ | .ext _ _ => False
  | _                            => True

-- `Unmarshal` into a variable of each type that is asked for, and Go's names of the types of values.
structure Library (D : Type) where
  rawSlice : Raw D → Except GoString (List (Raw D))
  rawMap   : Raw D → Except GoString (GoMap GoString (Raw D))
  float64  : Raw D → Except GoString D
  string   : Raw D → Except GoString GoString
  int32    : Raw D → Except GoString Int32
  int64s   : Raw D → Except GoString (List Int)
  any      : Raw D → Except GoString (Value D)
  typeName : Value D → GoString

-- A value that fits the type is read as what it is. Nothing is said of any other, but that a tuple is no map
-- and that there is no value in an empty message.
structure Library.Faithful (lib : Library D) : Prop where
  rawSlice_array : ∀ {l}, lib.rawSlice (some (.array l)) = .ok (l.map Value.raw)
  rawMap_record  : ∀ {l}, (l.map Prod.fst).Nodup →
                     ∃ m, lib.rawMap (some (.record l)) = .ok m ∧ ∀ k, m.lookup k = (l.lookup k).map Value.raw
  rawMap_array   : ∀ {l}, ∃ e, lib.rawMap (some (.array l)) = .error e
  string_str     : ∀ {s}, lib.string (some (.str s)) = .ok s
  int32_int      : ∀ {i : Integer}, -2 ^ 31 ≤ i.value → i.value < 2 ^ 31 →
                     lib.int32 (some (.int i)) = .ok (Int32.ofInt i.value)
  int64s_array   : ∀ {l : List Integer}, (∀ i ∈ l, i.value < 2 ^ 63) →
                     lib.int64s (some (.array (l.map .int))) = .ok (l.map Integer.value)
  any_scalar     : ∀ {v : Value D}, v.Scalar → lib.any (some v) = .ok v
  any_empty      : ∀ {v}, lib.any none = .ok v → v = .nil

theorem lookup_of_mem {l : List (GoString × Value D)} (hn : (l.map Prod.fst).Nodup) (h : (k, v) ∈ l) :
    l.lookup k = some v := by
  induction l
  case nil => cases h
  case cons x l ih =>
    have ⟨hx, hn⟩ := List.nodup_cons.mp hn
    rcases h with _ | ⟨_, h⟩
    case head => simp
    case tail =>
      have hk : k ≠ x.1 := fun he => hx (he ▸ List.mem_map_of_mem h)
      rw [List.lookup_cons, beq_false_of_ne hk]
      exact ih hn h

theorem Value.raw_eq_some {v : Value D} (h : v ≠ .nil) : v.raw = some v := by
  cases v
  case nil => contradiction
  all_goals rfl

theorem Library.Faithful.any_raw {lib : Library D} (h : lib.Faithful) (hv : v.Scalar)
    (ha : lib.any v.raw = .ok x) : x = v := by
  by_cases hn : v = .nil
  case pos =>
    subst hn
    exact h.any_empty ha
  case neg =>
    rw [Value.raw_eq_some hn, h.any_scalar hv] at ha
    exact (Except.ok.inj ha).symm

end Msgpack
