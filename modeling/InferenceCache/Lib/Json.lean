import InferenceCache.Lib.Strings

inductive Json
  | null
  | bool (b : Bool)
  | num (literal : GoString)
  | str (s : GoString)
  | arr (items : List Json)
  | obj (fields : List (GoString × Json))

namespace Json

section Encode

def int (n : Int) : Json :=
  .num (GoString.formatInt n)

-- A value that is omitted leaves no trace.
def member (name : GoString) (value : Option Json) : List (GoString × Json) :=
  (value.map (name, ·)).toList

def omitEmpty [DecidableEq A] (zero : A) (encode : A → Json) (a : A) : Option Json :=
  if a = zero then none else some (encode a)

end Encode

section Decode

def toInt? (bits : Nat) : Json → Option Int
  | num literal => GoString.parseInt bits literal
  | _           => none

def toBool? : Json → Option Bool
  | bool b => some b
  | _      => none

def toStr? : Json → Option GoString
  | str s => some s
  | _     => none

def toList? (decode : Json → Option A) : Json → Option (List A)
  | null      => some []
  | arr items => items.mapM decode
  | _         => none

-- A name that the decoder of a record knows, and what it makes of the value.
structure Field (R : Type) where
  name : GoString
  set  : Json → R → Option R

namespace Field

-- Into a value, `null` is not stored.
def value (name : GoString) (decode : Json → Option A) (put : A → R → R) : Field R where
  name     := name
  set json r :=
    match json with
    | null => some r
    | json => (decode json).map (put · r)

-- Into a pointer, `null` is stored as the nil pointer. Anything else goes to where the pointer points.
def pointer (name : GoString) (zero : A) (decode : A → Json → Option A) (get : R → Option A)
    (put : Option A → R → R) : Field R where
  name     := name
  set json r :=
    match json with
    | null => some (put none r)
    | json => (decode ((get r).getD zero) json).map fun a => put (some a) r

end Field

-- With `DisallowUnknownFields`. Names are compared without regard to case.
def setMember (fields : List (Field R)) (r : R) (m : GoString × Json) : Option R := do
  let field ← fields.find? fun f => f.name.asciiLower = m.1.asciiLower
  field.set m.2 r

def toRecord? (fields : List (Field R)) (r : R) : Json → Option R
  | null    => some r
  | obj ms  => ms.foldlM (setMember fields) r
  | _       => none

end Decode

section RoundTrip

variable {fields : List (Field R)} {field : Field R} {r r' : R} {value : Option Json}
variable {ms : List (GoString × Json)}

theorem toInt?_int {n : Int} (hl : -2 ^ bits ≤ n) (hu : n < 2 ^ bits) :
    (int n).toInt? (bits + 1) = some n :=
  GoString.parseInt_formatInt hl hu

theorem toList?_map {encode : A → Json} {decode : Json → Option A} {l : List A}
    (h : ∀ a ∈ l, decode (encode a) = some a) : (arr (l.map encode)).toList? decode = some l := by
  induction l
  case nil => rfl
  case cons a l hi =>
    have ha := h a (.head _)
    have hl := hi fun a ha => h a (.tail _ ha)
    simp only [toList?] at hl
    simp [toList?, ha, hl]

def Distinct (fields : List (Field R)) : Prop :=
  (fields.map fun f => f.name.asciiLower).Nodup

instance : Decidable (Distinct fields) :=
  inferInstanceAs (Decidable (List.Nodup _))

theorem setMember_of_mem (hd : Distinct fields) (hf : field ∈ fields) :
    setMember fields r (field.name, json) = field.set json r := by
  have h : fields.find? (fun f => f.name.asciiLower = field.name.asciiLower) = some field := by
    induction fields
    case nil => cases hf
    case cons f fields hi =>
      rw [Distinct, List.map_cons, List.nodup_cons] at hd
      cases hf
      case head => simp
      case tail hf =>
        have hn : f.name.asciiLower ≠ field.name.asciiLower :=
          fun he => hd.1 <| he ▸ List.mem_map_of_mem (f := fun f => f.name.asciiLower) hf
        simp [hn, hi hd.2 hf]
  simp [setMember, h]

theorem foldlM_member (hd : Distinct fields) (hf : field ∈ fields)
    (hs : ∀ json, value = some json → field.set json r = some r') (hn : value = none → r = r') :
    (member field.name value ++ ms).foldlM (setMember fields) r = ms.foldlM (setMember fields) r' := by
  cases value
  case none => rw [hn rfl]; rfl
  case some json =>
    have hm : member field.name (some json) = [(field.name, json)] := rfl
    rw [hm, List.singleton_append, List.foldlM_cons, setMember_of_mem hd hf, hs json rfl]
    rfl

-- What comes after a member is decoded into what the member was decoded into. An omitted value is the
-- one that was there before.
section Members

variable {decode : Json → Option A} {put : A → R → R} (encode : A → Json) (a : A)

theorem set_value (hn : encode a ≠ null) (hs : decode (encode a) = some a) :
    (Field.value name decode put).set (encode a) r = some (put a r) := by
  revert hn hs
  cases encode a
  case null => exact fun h => absurd rfl h
  all_goals simp +contextual [Field.value]

variable (hd : Distinct fields) (i : Nat) (hf : fields[i]? = some (Field.value name decode put))
variable (hn : encode a ≠ null) (hs : decode (encode a) = some a)
include hd hf hn hs

theorem foldlM_value :
    (member name (some (encode a)) ++ ms).foldlM (setMember fields) r =
      ms.foldlM (setMember fields) (put a r) := by
  refine foldlM_member hd (List.mem_of_getElem? hf) (fun json h => ?_) nofun
  rw [← Option.some_injective _ h]
  exact set_value encode a hn hs

theorem foldlM_omitEmpty [DecidableEq A] (zero : A) (hz : put zero r = r) :
    (member name (omitEmpty zero encode a) ++ ms).foldlM (setMember fields) r =
      ms.foldlM (setMember fields) (put a r) := by
  refine foldlM_member hd (List.mem_of_getElem? hf) (fun json h => ?_) fun h => ?_
  case refine_1 =>
    simp only [omitEmpty] at h
    split at h
    case isTrue => cases h
    case isFalse =>
      rw [← Option.some_injective _ h]
      exact set_value encode a hn hs
  case refine_2 =>
    have ha : a = zero := by simpa [omitEmpty] using h
    rw [ha, hz]

end Members

theorem foldlM_pointer {zero : A} {decode : A → Json → Option A} {get : R → Option A}
    {put : Option A → R → R} (encode : A → Json) (a : Option A) (hd : Distinct fields)
    (i : Nat) (hf : fields[i]? = some (Field.pointer name zero decode get put))
    (hs : ∀ b ∈ a, encode b ≠ null ∧ decode ((get r).getD zero) (encode b) = some b)
    (hz : put none r = r) :
    (member name (a.map encode) ++ ms).foldlM (setMember fields) r =
      ms.foldlM (setMember fields) (put a r) := by
  refine foldlM_member hd (List.mem_of_getElem? hf) (fun json h => ?_) fun h => ?_
  case refine_1 =>
    have ⟨b, hb, he⟩ := Option.map_eq_some_iff.mp h
    have ⟨hn, hs⟩ := hs b hb
    rw [he] at hn hs
    cases json
    case null => exact absurd rfl hn
    all_goals simp [Field.pointer, hs, hb]
  case refine_2 => rw [Option.map_eq_none_iff.mp h, hz]

end RoundTrip

end Json
