import InferenceCache.Lib.Results
import InferenceCache.Subscriber.Events

namespace InferenceCache.Subscriber

open Msgpack

variable {D : Type} {lib : Library D}

-- What the values on the wire stand for, without regard to how they are decoded.
section Wire

inductive IsHash : Value D → Bytes → Prop
  | bin : IsHash (.bin b) b
  | str : IsHash (.str b) b
  | int : IsHash (.int i) (uint64BE (UInt64.ofInt i.value))

inductive IsAdapter : Value D → Int → Prop
  | int : i.value < 2 ^ 63 → IsAdapter (.int i) i.value

inductive IsToken : Value D → UInt32 → Prop
  | int : i.value = t.toNat → IsToken (.int i) t

inductive IsSize : Value D → Int32 → Prop
  | int : i.value = n.toInt → 0 < n → IsSize (.int i) n

inductive IsHashes : Value D → List Bytes → Prop
  | array : List.Forall₂ IsHash l hs → IsHashes (.array l) hs

inductive IsTokens : Value D → List UInt32 → Prop
  | nil   : IsTokens .nil []
  | array : List.Forall₂ IsToken l ts → IsTokens (.array l) ts

-- A field that may be absent or nil.
inductive Optional (P : Value D → A → Prop) : Option (Value D) → Option A → Prop
  | absent : Optional P none none
  | nil    : Optional P (some .nil) none
  | value  : P v a → Optional P (some v) (some a)

def Required (P : Value D → A → Prop) (x : Option (Value D)) (a : A) : Prop :=
  ∃ v, x = some v ∧ P v a

inductive Field
  | blockHashes
  | parentBlockHash
  | tokenIDs
  | blockSize
  | loraID

def Field.key : Field → GoString
  | blockHashes => utf8 "block_hashes"
  | parentBlockHash => utf8 "parent_block_hash"
  | tokenIDs => utf8 "token_ids"
  | blockSize => utf8 "block_size"
  | loraID => utf8 "lora_id"

def Field.position : Field → Nat
  | blockHashes => 0
  | parentBlockHash => 1
  | tokenIDs => 2
  | blockSize => 3
  | loraID => 4

abbrev Fields (D : Type) := Field → Option (Value D)

structure Stored (fields : Fields D) (ev : BlockStored) : Prop where
  blockHashes     : Required IsHashes (fields .blockHashes) ev.blockHashes
  parentBlockHash : Optional IsHash (fields .parentBlockHash) ev.parentBlockHash
  tokenIDs        : Required IsTokens (fields .tokenIDs) ev.tokenIDs
  blockSize       : Required IsSize (fields .blockSize) ev.blockSize
  loraID          : Optional IsAdapter (fields .loraID) ev.loraID

def Stands (tag : GoString) (fields : Fields D) : Event → Prop
  | .blockStored ev    => tag = tagBlockStored ∧ Stored fields ev
  | .blockRemoved ev   => tag = tagBlockRemoved ∧ Required IsHashes (fields .blockHashes) ev.blockHashes
  | .allBlocksCleared  => tag = tagAllBlocksCleared

-- A tagged map or a tuple.
inductive Form : Value D → GoString → Fields D → Prop
  | tuple : Form (.array (.str tag :: l)) tag (fun f => l[f.position]?)
  | map   : (l.map Prod.fst).Nodup → l.lookup (utf8 "type") = some (.str tag) →
              Form (.record l) tag (fun f => l.lookup f.key)

def Encodes (w : Value D) (ev : Event) : Prop :=
  ∃ tag fields, Form w tag fields ∧ Stands tag fields ev

def knownTags : List GoString :=
  [tagBlockStored, tagBlockRemoved, tagAllBlocksCleared]

def Unknown (w : Value D) : Prop :=
  ∃ tag fields, Form w tag fields ∧ tag ∉ knownTags

-- The events that a list of values stands for. Those of unknown kinds stand for none.
inductive Batch : List (Value D) → List Event → Prop
  | nil     : Batch [] []
  | event   : Encodes w ev → Batch ws evs → Batch (w :: ws) (ev :: evs)
  | unknown : Unknown w → Batch ws evs → Batch (w :: ws) evs

-- Two ways to write one hash: as an integer of any width, signed or not, or as its bytes.
inductive SameHash : Value D → Value D → Prop
  | ints   : i.value % 2 ^ 64 = j.value % 2 ^ 64 → SameHash (.int i) (.int j)
  | hashes : IsHash v b → IsHash w b → SameHash v w

-- The parent that some fields refer to is block number `k` of others.
def NamesParent (child stored : Fields D) (k : Nat) : Prop :=
  ∃ hs h p, stored .blockHashes = some (.array hs) ∧ hs[k]? = some h ∧ child .parentBlockHash = some p ∧
    SameHash h p

end Wire

-- What is wrong with an event: a field is missing, the library refuses it, or it is read as something that
-- does not stand for what is asked for.
section Flaws

variable (lib : Library D)

def Misread (P : Value D → A → Prop) (v : Value D) : Prop :=
  (∃ e, lib.any v.raw = .error e) ∨ v.Scalar ∧ ∀ a, ¬P v a

inductive HashesFlaw : Option (Value D) → Prop
  | missing : HashesFlaw none
  | refused : lib.rawSlice v.raw = .error e → HashesFlaw (some v)
  | element : h ∈ l → Misread lib IsHash h → HashesFlaw (some (.array l))

inductive TokensFlaw : Option (Value D) → Prop
  | missing : TokensFlaw none
  | refused : v ≠ .nil → lib.int64s v.raw = .error e → TokensFlaw (some v)
  | range   : ∀ {l : List Integer} {i}, (∀ i ∈ l, i.value < 2 ^ 63) → i ∈ l → i.value < 0 ∨ 2 ^ 32 ≤ i.value →
                TokensFlaw (some (.array (l.map .int)))

inductive SizeFlaw : Option (Value D) → Prop
  | missing     : SizeFlaw none
  | refused     : lib.int32 v.raw = .error e → SizeFlaw (some v)
  | notPositive : -2 ^ 31 ≤ i.value → i.value ≤ 0 → SizeFlaw (some (.int i))

-- Only what is there and not nil can be wrong.
inductive OptionalFlaw (P : Value D → A → Prop) : Option (Value D) → Prop
  | misread : v ≠ .nil → Misread lib P v → OptionalFlaw P (some v)

inductive Flawed : GoString → Fields D → Prop
  | removed         : HashesFlaw lib (fields .blockHashes) → Flawed tagBlockRemoved fields
  | blockHashes     : HashesFlaw lib (fields .blockHashes) → Flawed tagBlockStored fields
  | parentBlockHash : OptionalFlaw lib IsHash (fields .parentBlockHash) → Flawed tagBlockStored fields
  | tokenIDs        : TokensFlaw lib (fields .tokenIDs) → Flawed tagBlockStored fields
  | blockSize       : SizeFlaw lib (fields .blockSize) → Flawed tagBlockStored fields
  | loraID          : OptionalFlaw lib IsAdapter (fields .loraID) → Flawed tagBlockStored fields

def Malformed (w : Value D) : Prop :=
  ∃ tag fields, Form w tag fields ∧ Flawed lib tag fields

end Flaws

section Values

theorem IsHash.unique {v : Value D} (h : IsHash v b) (h' : IsHash v b') : b = b' := by
  cases h <;> cases h' <;> rfl

theorem IsHash.of_same {v w : Value D} (h : IsHash v b) (hs : SameHash v w) : IsHash w b := by
  cases hs
  case ints i j hij =>
    cases h
    have he : UInt64.ofInt i.value = UInt64.ofInt j.value := by simp only [UInt64.ofInt, hij]
    exact he ▸ .int
  case hashes hv hw => exact h.unique hv ▸ hw

theorem IsHash.scalar {v : Value D} (h : IsHash v b) : v.Scalar ∧ v ≠ .nil := by
  cases h <;> simp [Value.Scalar]

theorem hashToBytes_eq_ok {v : Value D} : hashToBytes lib v = .ok b ↔ IsHash v b := by
  constructor
  case mp =>
    intro h
    cases v <;> simp only [hashToBytes, reduceCtorEq, Except.ok.injEq] at h <;> subst h <;> constructor
  case mpr => rintro (_ | _ | _) <;> rfl

theorem tokenID_eq_ok {id : Int} : tokenID id = .ok t ↔ id = t.toNat := by
  have ht := t.toNat_lt
  simp only [tokenID]
  split
  case isTrue h =>
    constructor
    case mp => nofun
    case mpr => omega
  case isFalse h =>
    have hn : (UInt32.ofInt id).toNat = (id % 2 ^ 32).toNat :=
      UInt32.toNat_ofNat_of_lt' (by unfold UInt32.size; omega)
    rw [Except.ok.injEq, ← UInt32.toNat_inj, hn]
    omega

variable (hlib : lib.Faithful)
include hlib

theorem any_of_scalar {v : Value D} (h : v.Scalar) (hn : v ≠ .nil) : lib.any v.raw = .ok v := by
  rw [Value.raw_eq_some hn, hlib.any_scalar h]

theorem IsHash.decode {v : Value D} (h : IsHash v b) : (lib.any v.raw >>= hashToBytes lib) = .ok b := by
  rw [any_of_scalar hlib h.scalar.1 h.scalar.2]
  exact hashToBytes_eq_ok.mpr h

theorem Misread.not_hash {v : Value D} (h : Misread lib IsHash v) :
    (lib.any v.raw >>= hashToBytes lib) ≠ .ok b := by
  intro hd
  have ⟨x, ha, hx⟩ := Except.bind_eq_ok.mp hd
  rcases h with ⟨e, he⟩ | ⟨hs, hn⟩
  case inl => cases he.symm.trans ha
  case inr => exact hn b (hlib.any_raw hs ha ▸ hashToBytes_eq_ok.mp hx)

theorem IsHashes.decode {v : Value D} (h : IsHashes v hs) : decodeHashes lib v.raw = .ok hs := by
  obtain ⟨h⟩ := h
  simp only [decodeHashes, Value.raw, hlib.rawSlice_array, Except.bind_eq_ok, Except.mapM_eq_ok]
  refine ⟨_, rfl, ?_⟩
  rw [List.forall₂_map_left_iff]
  exact h.imp fun _ _ h => Except.bind_eq_ok.mp (h.decode hlib)

theorem HashesFlaw.not_decode {v : Value D} (h : HashesFlaw lib (some v)) :
    decodeHashes lib v.raw ≠ .ok hs := by
  intro hd
  simp only [decodeHashes, Except.bind_eq_ok, Except.mapM_eq_ok] at hd
  obtain ⟨elems, hr, hd⟩ := hd
  cases h
  case refused he => cases he.symm.trans hr
  case element l h hm hf =>
    cases hlib.rawSlice_array.symm.trans hr
    rw [List.forall₂_map_left_iff] at hd
    obtain ⟨b, hb⟩ := hd.exists_of_mem hm
    exact hf.not_hash hlib (Except.bind_eq_ok.mpr hb)

theorem IsHash.decodeParent {v : Value D} (h : IsHash v b) : decodeParent lib v.raw = .ok (some b) := by
  have ha := any_of_scalar hlib h.scalar.1 h.scalar.2
  cases h <;> simp only [Value.raw] at ha <;> simp only [Subscriber.decodeParent, Value.raw, ha] <;> rfl

omit hlib in
theorem OptionalFlaw.ne_nil {P : Value D → β → Prop} {v : Value D} (h : OptionalFlaw lib P (some v)) : v ≠ .nil := by
  obtain ⟨hn, _⟩ := h
  exact hn

theorem OptionalFlaw.any {P : Value D → β → Prop} {v x : Value D} (h : OptionalFlaw lib P (some v))
    (ha : lib.any v.raw = .ok x) : x = v ∧ ∀ b, ¬P v b := by
  obtain ⟨_, hm⟩ := h
  rcases hm with ⟨e, he⟩ | ⟨hs, hno⟩
  case inl => cases he.symm.trans ha
  case inr => exact ⟨hlib.any_raw hs ha, hno⟩

theorem OptionalFlaw.not_decodeParent {v : Value D} (h : OptionalFlaw lib IsHash (some v)) :
    decodeParent lib v.raw ≠ .ok p := by
  intro hd
  simp only [decodeParent, Value.raw_eq_some h.ne_nil, Option.isNone_some, Bool.false_eq_true, if_false,
    Except.bind_eq_ok] at hd
  obtain ⟨x, ha, hx⟩ := hd
  rw [← Value.raw_eq_some h.ne_nil] at ha
  obtain ⟨rfl, hno⟩ := h.any hlib ha
  split at hx
  case h_1 => exact h.ne_nil rfl
  case h_2 =>
    obtain ⟨b, hb, _⟩ := Except.map_eq_ok.mp hx
    exact hno b (hashToBytes_eq_ok.mp hb)

theorem IsAdapter.decodeLoRAID {v : Value D} (h : IsAdapter v a) : decodeLoRAID lib v.raw = .ok (some a) := by
  cases h
  case int i h =>
    have ha : lib.any (some (.int i)) = .ok (.int i) := hlib.any_scalar trivial
    simp only [Subscriber.decodeLoRAID, Value.raw, ha]
    exact if_pos h

theorem OptionalFlaw.not_decodeLoRAID {v : Value D} (h : OptionalFlaw lib IsAdapter (some v)) :
    decodeLoRAID lib v.raw ≠ .ok a := by
  intro hd
  simp only [decodeLoRAID, Value.raw_eq_some h.ne_nil, Option.isNone_some, Bool.false_eq_true, if_false,
    Except.bind_eq_ok] at hd
  obtain ⟨x, ha, hx⟩ := hd
  rw [← Value.raw_eq_some h.ne_nil] at ha
  obtain ⟨rfl, hno⟩ := h.any hlib ha
  split at hx
  case h_1 => exact h.ne_nil rfl
  case h_2 i =>
    split at hx
    case isTrue hi => exact hno i.value (.int hi)
    case isFalse => cases hx
  case h_3 => cases hx

theorem IsTokens.decode {v : Value D} (h : IsTokens v ts) : decodeTokenIDs lib v.raw = .ok ts := by
  cases h
  case nil => rfl
  case array l h =>
    have ⟨is, hl, his⟩ : ∃ is : List Integer, l = is.map .int ∧
        List.Forall₂ (fun i t => i.value = ((UInt32.toNat t : Nat) : Int)) is ts := by
      induction h
      case nil => exact ⟨[], rfl, .nil⟩
      case cons hv _ ih =>
        obtain ⟨hv⟩ := hv
        have ⟨is, hl, his⟩ := ih
        exact ⟨_ :: is, hl ▸ rfl, .cons hv his⟩
    have hlt : ∀ i ∈ is, i.value < 2 ^ 63 := by
      intro i hi
      have ⟨t, ht⟩ := his.exists_of_mem hi
      have := t.toNat_lt
      omega
    subst hl
    simp only [decodeTokenIDs, Value.raw, hlib.int64s_array hlt, Except.bind_eq_ok, Option.isNone_some,
      Bool.false_eq_true, if_false, Except.mapM_eq_ok]
    refine ⟨_, rfl, ?_⟩
    rw [List.forall₂_map_left_iff]
    exact his.imp fun _ _ h => tokenID_eq_ok.mpr h

theorem TokensFlaw.not_decode {v : Value D} (h : TokensFlaw lib (some v)) : decodeTokenIDs lib v.raw ≠ .ok ts := by
  intro hd
  cases h
  case refused hn he =>
    rw [Value.raw_eq_some hn] at hd he
    simp only [decodeTokenIDs, he] at hd
    cases hd
  case range l i hlt hm hr =>
    simp only [decodeTokenIDs, Value.raw, hlib.int64s_array hlt, Except.bind_eq_ok, Option.isNone_some,
      Bool.false_eq_true, if_false, Except.mapM_eq_ok] at hd
    obtain ⟨_, ⟨⟩, hd⟩ := hd
    rw [List.forall₂_map_left_iff] at hd
    obtain ⟨t, ht⟩ := hd.exists_of_mem hm
    have := tokenID_eq_ok.mp ht
    have := t.toNat_lt
    omega

theorem IsSize.decode {v : Value D} (h : IsSize v n) : decodeBlockSize lib v.raw = .ok n := by
  obtain ⟨h, hpos⟩ := h
  have hi := hlib.int32_int (h ▸ n.le_toInt) (h ▸ n.toInt_lt)
  rw [h, Int32.ofInt_toInt] at hi
  simp only [decodeBlockSize, Value.raw, hi]
  exact if_neg (Int32.not_le.mpr hpos)

theorem SizeFlaw.not_decode {v : Value D} (h : SizeFlaw lib (some v)) : decodeBlockSize lib v.raw ≠ .ok n := by
  intro hd
  simp only [decodeBlockSize, wrap, Except.bind_eq_ok, Except.mapError_eq_ok] at hd
  obtain ⟨m, hm, hd⟩ := hd
  cases h
  case refused he => cases he.symm.trans hm
  case notPositive i hl hh =>
    cases (hlib.int32_int hl (by omega)).symm.trans hm
    have hle : Int32.ofInt i.value ≤ 0 := by
      rw [Int32.le_iff_toInt_le, Int32.toInt_ofInt_of_le hl (by omega)]
      exact hh
    rw [if_pos hle] at hd
    cases hd

end Values

section Events

-- What the decoders of both forms make of the fields, once they have found them.
structure Reads (lib : Library D) (fields : Fields D) (ev : BlockStored) : Prop where
  blockHashes     : Required (fun v hs => decodeHashes lib v.raw = .ok hs) (fields .blockHashes) ev.blockHashes
  parentBlockHash : optional ((fields .parentBlockHash).map Value.raw) (decodeParent lib) = .ok ev.parentBlockHash
  tokenIDs        : Required (fun v ts => decodeTokenIDs lib v.raw = .ok ts) (fields .tokenIDs) ev.tokenIDs
  blockSize       : Required (fun v n => decodeBlockSize lib v.raw = .ok n) (fields .blockSize) ev.blockSize
  loraID          : optional ((fields .loraID).map Value.raw) (decodeLoRAID lib) = .ok ev.loraID

def ReadsHashes (lib : Library D) (fields : Fields D) (ev : BlockRemoved) : Prop :=
  Required (fun v hs => decodeHashes lib v.raw = .ok hs) (fields .blockHashes) ev.blockHashes

theorem required_bind {x : Option (Value D)} {decode : Raw D → Except GoString A} :
    (∃ raw, required (x.map Value.raw) name = .ok raw ∧ decode raw = .ok a) ↔
      Required (fun v a => decode v.raw = .ok a) x a := by
  cases x
  case none => simp [required, Required]
  case some v => simp [required, Required]

section Forms

variable {l : List (Value D)} {es : List (GoString × Value D)} {m : GoMap GoString (Raw D)}

theorem decodeMapStored_eq_ok (hm : ∀ k, m.lookup k = (es.lookup k).map Value.raw) :
    decodeMapStored lib m = .ok e ↔ ∃ ev, Reads lib (fun f => es.lookup f.key) ev ∧ .blockStored ev = e := by
  simp only [decodeMapStored, wrap, Except.bind_eq_ok, Except.mapError_eq_ok, hm]
  constructor
  case mp =>
    rintro ⟨_, hr, hs, hh, p, hp, _, tr, ts, ht, _, nr, n, hn, a, ha, he⟩
    refine ⟨⟨hs, p, ts, n, a⟩, ⟨?_, hp, ?_, ?_, ha⟩, Except.ok.inj he⟩
    case refine_1 => exact required_bind.mp ⟨_, hr, hh⟩
    case refine_2 => exact required_bind.mp ⟨_, tr, ht⟩
    case refine_3 => exact required_bind.mp ⟨_, nr, hn⟩
  case mpr =>
    rintro ⟨ev, ⟨hh, hp, ht, hn, ha⟩, rfl⟩
    obtain ⟨_, hr, hh⟩ := required_bind.mpr hh
    obtain ⟨_, tr, ht⟩ := required_bind.mpr ht
    obtain ⟨_, nr, hn⟩ := required_bind.mpr hn
    exact ⟨_, hr, _, hh, _, hp, _, tr, _, ht, _, nr, _, hn, _, ha, rfl⟩

theorem decodeTupleStored_eq_ok :
    decodeTupleStored lib (raw :: l.map Value.raw) = .ok e ↔
      ∃ ev, Reads lib (fun f => l[f.position]?) ev ∧ .blockStored ev = e := by
  match l with
  | [] | [_] | [_, _] | [_, _, _] =>
    constructor
    case mp => nofun
    case mpr =>
      rintro ⟨_, ⟨_, _, _, ⟨_, h, _⟩, _⟩, _⟩
      cases h
  | h :: p :: t :: n :: rest =>
    simp only [decodeTupleStored, List.map_cons, wrap, Except.bind_eq_ok, Except.mapError_eq_ok, List.head?_map]
    constructor
    case mp =>
      rintro ⟨hs, hh, p, hp, ts, ht, n, hn, a, ha, he⟩
      refine ⟨⟨hs, p, ts, n, a⟩, ⟨⟨_, rfl, hh⟩, hp, ⟨_, rfl, ht⟩, ⟨_, rfl, hn⟩, ?_⟩, Except.ok.inj he⟩
      simpa [Field.position, List.head?_eq_getElem?] using ha
    case mpr =>
      rintro ⟨ev, ⟨⟨_, ⟨⟩, hh⟩, hp, ⟨_, ⟨⟩, ht⟩, ⟨_, ⟨⟩, hn⟩, ha⟩, rfl⟩
      refine ⟨_, hh, _, hp, _, ht, _, hn, _, ?_, rfl⟩
      simpa [Field.position, List.head?_eq_getElem?] using ha

theorem decodeMapRemoved_eq_ok (hm : ∀ k, m.lookup k = (es.lookup k).map Value.raw) :
    decodeMapRemoved lib m = .ok e ↔ ∃ ev, ReadsHashes lib (fun f => es.lookup f.key) ev ∧ .blockRemoved ev = e := by
  simp only [decodeMapRemoved, wrap, Except.bind_eq_ok, Except.mapError_eq_ok, hm]
  constructor
  case mp =>
    rintro ⟨_, hr, hs, hh, he⟩
    exact ⟨⟨hs⟩, required_bind.mp ⟨_, hr, hh⟩, Except.ok.inj he⟩
  case mpr =>
    rintro ⟨ev, h, rfl⟩
    obtain ⟨_, hr, hh⟩ := required_bind.mpr h
    exact ⟨_, hr, _, hh, rfl⟩

theorem decodeTupleRemoved_eq_ok :
    decodeTupleRemoved lib (raw :: l.map Value.raw) = .ok e ↔
      ∃ ev, ReadsHashes lib (fun f => l[f.position]?) ev ∧ .blockRemoved ev = e := by
  cases l
  case nil =>
    constructor
    case mp => nofun
    case mpr =>
      rintro ⟨_, ⟨_, h, _⟩, _⟩
      cases h
  case cons h l =>
    simp only [decodeTupleRemoved, List.map_cons, wrap, Except.bind_eq_ok, Except.mapError_eq_ok]
    constructor
    case mp =>
      rintro ⟨hs, hh, he⟩
      exact ⟨⟨hs⟩, ⟨h, rfl, hh⟩, Except.ok.inj he⟩
    case mpr =>
      rintro ⟨ev, ⟨_, ⟨⟩, hh⟩, rfl⟩
      exact ⟨_, hh, rfl⟩

end Forms

theorem decodeEvent_of_form (hlib : lib.Faithful) {w : Value D} (h : Form w tag fields) :
    ∃ stored removed,
      (∀ e, stored = .ok e ↔ ∃ ev, Reads lib fields ev ∧ .blockStored ev = e) ∧
      (∀ e, removed = .ok e ↔ ∃ ev, ReadsHashes lib fields ev ∧ .blockRemoved ev = e) ∧
      decodeEvent lib w.raw = byTag tag stored removed := by
  cases h
  case tuple l =>
    have ⟨_, hm⟩ := hlib.rawMap_array (l := .str tag :: l)
    refine ⟨decodeTupleStored lib (some (.str tag) :: l.map Value.raw),
      decodeTupleRemoved lib (some (.str tag) :: l.map Value.raw), fun _ => decodeTupleStored_eq_ok,
      fun _ => decodeTupleRemoved_eq_ok, ?_⟩
    have hs : (Value.array (.str tag :: l)).raw = some (.array (.str tag :: l)) := rfl
    rw [decodeEvent, hs, hm]
    simp only [hlib.rawSlice_array, List.map_cons]
    change decodeTupleEvent lib (some (.str tag) :: l.map Value.raw) = _
    rw [decodeTupleEvent, hlib.string_str]
    rfl
  case map l hl ht =>
    have ⟨m, hm, hk⟩ := hlib.rawMap_record hl
    refine ⟨_, _, fun _ => decodeMapStored_eq_ok hk, fun _ => decodeMapRemoved_eq_ok hk, ?_⟩
    have hr : (Value.record l).raw = some (.record l) := rfl
    rw [decodeEvent, hr, hm]
    simp only [decodeMapEvent, hk, ht, Option.map_some]
    rw [show (Value.str tag : Value D).raw = some (.str tag) from rfl, hlib.string_str]
    rfl

theorem byTag_eq_none : byTag tag stored removed = .ok none ↔ tag ∉ knownTags := by
  simp only [byTag, knownTags, List.mem_cons, List.not_mem_nil, or_false, not_or]
  split_ifs <;> simp_all

theorem tags_distinct : tagBlockRemoved ≠ tagBlockStored ∧ tagAllBlocksCleared ≠ tagBlockStored ∧
    tagAllBlocksCleared ≠ tagBlockRemoved := by
  decide +kernel

theorem Required.imp {P Q : Value D → A → Prop} (h : Required P x a) (hi : ∀ v a, P v a → Q v a) :
    Required Q x a := by
  obtain ⟨v, hx, hv⟩ := h
  exact ⟨v, hx, hi v a hv⟩

theorem Optional.decode {decode : Raw D → Except GoString (Option A)} {P : Value D → A → Prop}
    (h : Optional P x o) (hn : decode none = .ok none) (hd : ∀ v a, P v a → decode v.raw = .ok (some a)) :
    optional (x.map Value.raw) decode = .ok o := by
  cases h
  case absent => rfl
  case nil => exact hn
  case value v a h => exact hd v a h

variable (hlib : lib.Faithful)
include hlib

theorem Stored.reads (h : Stored fields ev) : Reads lib fields ev where
  blockHashes := h.blockHashes.imp fun _ _ h => h.decode hlib
  parentBlockHash := h.parentBlockHash.decode rfl fun _ _ h => h.decodeParent hlib
  tokenIDs := h.tokenIDs.imp fun _ _ h => h.decode hlib
  blockSize := h.blockSize.imp fun _ _ h => h.decode hlib
  loraID := h.loraID.decode rfl fun _ _ h => h.decodeLoRAID hlib

theorem Encodes.decodeEvent {w : Value D} (h : Encodes w ev) : decodeEvent lib w.raw = .ok (some ev) := by
  obtain ⟨tag, fields, hf, h⟩ := h
  have ⟨stored, removed, hs, hr, hd⟩ := decodeEvent_of_form hlib hf
  have ⟨hrs, hcs, hcr⟩ := tags_distinct
  rw [hd]
  cases ev
  case blockStored ev =>
    rw [byTag, if_pos h.1, (hs _).mpr ⟨ev, h.2.reads hlib, rfl⟩]
    rfl
  case blockRemoved ev =>
    rw [byTag, if_neg (h.1 ▸ hrs), if_pos h.1, (hr _).mpr ⟨ev, h.2.imp fun _ _ h => h.decode hlib, rfl⟩]
    rfl
  case allBlocksCleared =>
    have ht : tag = tagAllBlocksCleared := h
    rw [byTag, if_neg (ht ▸ hcs), if_neg (ht ▸ hcr), if_pos ht]

theorem Unknown.decodeEvent {w : Value D} (h : Unknown w) : decodeEvent lib w.raw = .ok none := by
  have ⟨tag, fields, hf, h⟩ := h
  have ⟨_, _, _, _, hd⟩ := decodeEvent_of_form hlib hf
  rw [hd]
  exact byTag_eq_none.mpr h

theorem HashesFlaw.not_required (h : HashesFlaw lib x) :
    ¬Required (fun v hs => decodeHashes lib v.raw = .ok hs) x a := by
  rintro ⟨v, rfl, hd⟩
  exact h.not_decode hlib hd

omit hlib in
theorem OptionalFlaw.not_optional {decode : Raw D → Except GoString (Option A)} {P : Value D → A → Prop}
    (h : OptionalFlaw lib P x) (hd : ∀ v o, OptionalFlaw lib P (some v) → decode v.raw ≠ .ok o) :
    optional (x.map Value.raw) decode ≠ .ok o := by
  obtain ⟨hn, hm⟩ := h
  exact hd _ _ ⟨hn, hm⟩

theorem Malformed.not_decodeEvent {w : Value D} (h : Malformed lib w) : decodeEvent lib w.raw ≠ .ok o := by
  have ⟨tag, fields, hf, h⟩ := h
  have ⟨stored, removed, hs, hr, hd⟩ := decodeEvent_of_form hlib hf
  have ⟨hrs, _, _⟩ := tags_distinct
  rw [hd]
  -- All but the first case are about a block that is stored.
  have of_stored : (∀ ev, ¬Reads lib fields ev) → byTag tagBlockStored stored removed ≠ .ok o := by
    intro hno he
    rw [byTag, if_pos rfl] at he
    have ⟨e, hse, _⟩ := Except.map_eq_ok.mp he
    have ⟨ev, hev, _⟩ := (hs e).mp hse
    exact hno ev hev
  cases h
  case removed h =>
    intro he
    rw [byTag, if_neg hrs, if_pos rfl] at he
    have ⟨e, hre, _⟩ := Except.map_eq_ok.mp he
    have ⟨ev, hev, _⟩ := (hr e).mp hre
    exact h.not_required hlib hev
  case blockHashes h => exact of_stored fun ev hev => h.not_required hlib hev.blockHashes
  case parentBlockHash h =>
    exact of_stored fun ev hev => h.not_optional (fun _ _ h => h.not_decodeParent hlib) hev.parentBlockHash
  case tokenIDs h =>
    refine of_stored fun ev hev => ?_
    obtain ⟨v, hv, hd⟩ := hev.tokenIDs
    exact (hv ▸ h).not_decode hlib hd
  case blockSize h =>
    refine of_stored fun ev hev => ?_
    obtain ⟨v, hv, hd⟩ := hev.blockSize
    exact (hv ▸ h).not_decode hlib hd
  case loraID h =>
    exact of_stored fun ev hev => h.not_optional (fun _ _ h => h.not_decodeLoRAID hlib) hev.loraID

omit hlib in
theorem parent_of_names {child stored : BlockStored} {fields fields' : Fields D} (hs : Stored fields stored)
    (hc : Stored fields' child) (h : NamesParent fields' fields k) :
    child.parentBlockHash = stored.blockHashes[k]? := by
  obtain ⟨hs', h, p, hhs, hk, hp, hsame⟩ := h
  obtain ⟨_, he, hh⟩ := hs.blockHashes
  cases hhs.symm.trans he
  obtain ⟨hh⟩ := hh
  have ⟨hlen, hget⟩ := List.forall₂_iff_get.mp hh
  have ⟨hlt, hkh⟩ := List.getElem?_eq_some_iff.mp hk
  have hb := hget k hlt (hlen ▸ hlt)
  rw [List.get_eq_getElem, hkh] at hb
  have hpar := hc.parentBlockHash
  rw [hp] at hpar
  generalize child.parentBlockHash = o at hpar
  rcases hpar with _ | _ | hpb
  case nil => cases hb.of_same hsame
  case value =>
    rw [(hb.of_same hsame).unique hpb |>.symm]
    exact (List.getElem?_eq_getElem _).symm

end Events

-- An event in one form can be written in the other.
section Choice

def values (fields : Fields D) : List (Value D) :=
  [Field.blockHashes, .parentBlockHash, .tokenIDs, .blockSize, .loraID].map fun f => (fields f).getD .nil

def tupleForm (tag : GoString) (fields : Fields D) : Value D :=
  .array (.str tag :: values fields)

def entries (tag : GoString) (fields : Fields D) : List (GoString × Value D) :=
  (utf8 "type", .str tag) :: [Field.blockHashes, .parentBlockHash, .tokenIDs, .blockSize, .loraID].map
    fun f => (f.key, (fields f).getD .nil)

def mapForm (tag : GoString) (fields : Fields D) : Value D :=
  .record (entries tag fields)

theorem Required.getD (h : Required P x a) : Required P (some (x.getD .nil)) a := by
  obtain ⟨v, rfl, h⟩ := h
  exact ⟨v, rfl, h⟩

theorem Optional.getD (h : Optional P x a) : Optional P (some (x.getD .nil)) a := by
  cases h
  case absent => exact .nil
  case nil => exact .nil
  case value h => exact .value h

theorem Stands.getD (h : Stands tag fields ev) : Stands tag (fun f => some ((fields f).getD .nil)) ev := by
  cases ev
  case blockStored =>
    have ⟨ht, hh, hp, hts, hn, ha⟩ := h
    exact ⟨ht, hh.getD, hp.getD, hts.getD, hn.getD, ha.getD⟩
  case blockRemoved => exact ⟨h.1, h.2.getD⟩
  case allBlocksCleared => exact h

theorem Form.tupleForm : Form (tupleForm tag fields) tag (fun f => some ((fields f).getD .nil)) := by
  have h : Form (Subscriber.tupleForm tag fields) tag (fun f => (values fields)[f.position]?) := .tuple
  convert h with f
  cases f <;> rfl

theorem keys_nodup : (utf8 "type" :: [Field.blockHashes, .parentBlockHash, .tokenIDs, .blockSize, .loraID].map
    Field.key).Nodup := by
  decide +kernel

theorem nodup_entries {fields : Fields D} : ((entries tag fields).map Prod.fst).Nodup :=
  keys_nodup

theorem lookup_entries {fields : Fields D} :
    (entries tag fields).lookup f.key = some ((fields f).getD .nil) := by
  apply lookup_of_mem nodup_entries
  cases f <;> simp [entries]

theorem Form.mapForm {fields : Fields D} :
    Form (mapForm tag fields) tag (fun f => some ((fields f).getD .nil)) := by
  have h : Form (Subscriber.mapForm tag fields) tag _ :=
    .map nodup_entries (lookup_of_mem nodup_entries (.head _))
  simp only [lookup_entries] at h
  exact h

theorem Stands.tupleForm (h : Stands tag fields ev) : Encodes (tupleForm tag fields) ev :=
  ⟨tag, _, .tupleForm, h.getD⟩

theorem Stands.mapForm (h : Stands tag fields ev) : Encodes (mapForm tag fields) ev :=
  ⟨tag, _, .mapForm, h.getD⟩

end Choice

section Batch

variable {F : Type} [GoFloat F] {lib : Library (GoFloat.Double F)} (hlib : lib.Faithful)
include hlib

theorem Batch.decodeEvents {ws : List (Value (GoFloat.Double F))} (h : Batch ws evs) :
    decodeEvents lib (ws.map Value.raw) = .ok evs := by
  induction h
  case nil => rfl
  case event hw _ ih => simp only [List.map_cons, Subscriber.decodeEvents, hw.decodeEvent hlib, ih]; rfl
  case unknown hw _ ih => simp only [List.map_cons, Subscriber.decodeEvents, hw.decodeEvent hlib, ih]; rfl

theorem Malformed.not_decodeEvents {ws : List (Value (GoFloat.Double F))} (h : Malformed lib w) (hw : w ∈ ws) :
    decodeEvents lib (ws.map Value.raw) ≠ .ok evs := by
  intro hd
  induction hw generalizing evs
  case head =>
    simp only [List.map_cons, decodeEvents, Except.bind_eq_ok] at hd
    obtain ⟨_, hw, _⟩ := hd
    exact h.not_decodeEvent hlib hw
  case tail ih =>
    simp only [List.map_cons, decodeEvents, Except.bind_eq_ok] at hd
    obtain ⟨_, _, _, hd, _⟩ := hd
    exact ih hd

theorem decodeEventBatch_eq_ok {ts : Value (GoFloat.Double F)} :
    decodeEventBatch lib (.array (ts :: .array ws :: rest)) = .ok b ↔
      ∃ x, lib.float64 ts.raw = .ok x ∧ ∃ evs, decodeEvents lib (ws.map Value.raw) = .ok evs ∧ ⟨x, evs⟩ = b := by
  have hw : (Value.array ws).raw = some (.array ws) := rfl
  simp only [decodeEventBatch, wrap, hlib.rawSlice_array, List.map_cons, hw, Except.bind_eq_ok,
    Except.mapError_eq_ok, Except.ok.injEq, exists_eq_left']

end Batch

section Results

section Mixed

-- A library that reads nothing but what it has to.
def strictLibrary : Library ℚ where
  rawSlice
    | some (.array l) => .ok (l.map Value.raw)
    | _               => .error []
  rawMap
    | some (.map l) => .ok (l.filterMap fun x =>
        match x.1 with
        | .str k => some (⟨k, x.2.raw⟩ : Σ _ : GoString, Raw ℚ)
        | _      => none).toFinmap
    | _             => .error []
  float64
    | some (.float x) => .ok x
    | _               => .error []
  string
    | some (.str s) => .ok s
    | _             => .error []
  int32
    | some (.int i) => if -2 ^ 31 ≤ i.value ∧ i.value < 2 ^ 31 then .ok (Int32.ofInt i.value) else .error []
    | _             => .error []
  int64s
    | some (.array l) => l.mapM fun
        | .int i => if i.value < 2 ^ 63 then .ok i.value else .error []
        | _      => .error []
    | _               => .error []
  any
    | some v => .ok v
    | none   => .error []
  typeName _ := []

theorem strictLibrary_faithful : strictLibrary.Faithful where
  rawSlice_array := rfl
  rawMap_record := by
    intro l hn
    refine ⟨_, rfl, fun k => ?_⟩
    clear hn
    rw [Finmap.dlookup_list_toFinmap]
    induction l
    case nil => rfl
    case cons x l ih =>
      simp only [List.map_cons, List.filterMap_cons]
      by_cases hk : k = x.1
      case pos =>
        subst hk
        rw [List.dlookup_cons_eq, List.lookup_cons, beq_self_eq_true]
        rfl
      case neg =>
        rw [List.dlookup_cons_ne _ _ hk, List.lookup_cons, beq_false_of_ne hk]
        exact ih
  rawMap_array := ⟨[], rfl⟩
  string_str := rfl
  int32_int hl hh := if_pos ⟨hl, hh⟩
  int64s_array h := by
    rename_i l
    refine Except.mapM_eq_ok.mpr ?_
    rw [List.forall₂_map_left_iff, List.forall₂_map_right_iff, List.forall₂_same]
    exact fun i hi => if_pos (h i hi)
  any_scalar _ := rfl
  any_empty h := by cases h

def fixnum (n : Int) (hl : -32 ≤ n := by decide) (hh : n ≤ 2 ^ 7 - 1 := by decide) : Value ℚ :=
  .int ⟨.fixnum, n, hl, hh⟩

-- A block as a tuple, something unknown, and a map that goes on from the block.
def rootWire : Value ℚ :=
  .array [.str tagBlockStored, .array [fixnum (-1)], .nil, .array [fixnum 7], fixnum 1]

def otherWire : Value ℚ :=
  .array [.str (utf8 "Heartbeat"), .nil]

def childFields : Fields ℚ
  | .blockHashes => some (.array [.bin [6]])
  | .parentBlockHash => some (.int ⟨.uint64, 2 ^ 64 - 1, by decide, by decide⟩)
  | .tokenIDs => some (.array [fixnum 8])
  | .blockSize => some (fixnum 1)
  | .loraID => none

def rootBlock : BlockStored :=
  ⟨[[255, 255, 255, 255, 255, 255, 255, 255]], none, [7], 1, none⟩

def childBlock : BlockStored :=
  ⟨[[6]], some [255, 255, 255, 255, 255, 255, 255, 255], [8], 1, none⟩

theorem stands_child : Stands tagBlockStored childFields (.blockStored childBlock) where
  left := rfl
  right := {
    blockHashes := ⟨_, rfl, .array (.cons .bin .nil)⟩
    parentBlockHash := .value .int
    tokenIDs := ⟨_, rfl, .array (.cons (.int rfl) .nil)⟩
    blockSize := ⟨_, rfl, .int rfl (by decide)⟩
    loraID := .absent }

end Mixed

end Results

end InferenceCache.Subscriber
