import InferenceCache.Lib.Bytes

-- Functions of Go's `strings`, `strconv` and `net`, on the bytes of a string.
namespace GoString

def hasPrefix (s p : GoString) : Bool :=
  p.isPrefixOf s

def hasSuffix (s p : GoString) : Bool :=
  p.isSuffixOf s

def trimPrefix (s p : GoString) : GoString :=
  if s.hasPrefix p then s.drop p.length else s

def trimSuffix (s p : GoString) : GoString :=
  if s.hasSuffix p then s.take (s.length - p.length) else s

def contains (s sep : GoString) : Bool :=
  s.tails.any fun t => hasPrefix t sep

-- What comes before the first occurrence of a byte, and what comes after it, if there is one.
def cut (s : GoString) (c : UInt8) : Option (GoString × GoString) :=
  if c ∈ s then some (s.takeWhile (· ≠ c), (s.dropWhile (· ≠ c)).drop 1) else none

def cutLast (s : GoString) (c : UInt8) : Option (GoString × GoString) :=
  (cut s.reverse c).map fun x => (x.2.reverse, x.1.reverse)

-- What comes after the first occurrence of a separator.
def afterFirst (s sep : GoString) : Option GoString :=
  match s with
  | []     => if sep = [] then some [] else none
  | c :: s => if hasPrefix (c :: s) sep then some ((c :: s).drop sep.length) else afterFirst s sep

-- The white space of Unicode in its encoding. No encoding of a code point occurs within the encoding
-- of others, so nothing has to be decoded to look for one of these.
def spaces : List GoString :=
  [[0x09], [0x0a], [0x0b], [0x0c], [0x0d], [0x20], [0xc2, 0x85], [0xc2, 0xa0], [0xe1, 0x9a, 0x80]] ++
  (List.range 11).map (fun i => [0xe2, 0x80, 0x80 + UInt8.ofNat i]) ++
  [[0xe2, 0x80, 0xa8], [0xe2, 0x80, 0xa9], [0xe2, 0x80, 0xaf], [0xe2, 0x81, 0x9f], [0xe3, 0x80, 0x80]]

-- At most one piece of white space is at the beginning of a string, which is why a step removes the
-- first one that is found.
def trimLeft : Nat → GoString → GoString
  | 0,     s => s
  | n + 1, s =>
    match spaces.find? (hasPrefix s) with
    | some sp => trimLeft n (s.drop sp.length)
    | none    => s

def trimRight : Nat → GoString → GoString
  | 0,     s => s
  | n + 1, s =>
    match spaces.find? (hasSuffix s) with
    | some sp => trimRight n (s.take (s.length - sp.length))
    | none    => s

def trimSpace (s : GoString) : GoString :=
  let s := trimLeft s.length s
  trimRight s.length s

-- The control characters of Unicode, of which the last ones have two bytes.
def controls : List GoString :=
  (List.range 0x20).map (fun i => [UInt8.ofNat i]) ++ [[0x7f]] ++
  (List.range 0x20).map fun i => [0xc2, 0x80 + UInt8.ofNat i]

def containsSpaceOrControl (s : GoString) : Bool :=
  (spaces ++ controls).any s.contains

def isDigit (c : UInt8) : Bool :=
  0x30 ≤ c ∧ c ≤ 0x39

-- `ParseUint(s, 10, bits)`.
def parseUint (bits : Nat) (s : GoString) : Option Nat :=
  let n := s.foldl (fun n c => 10 * n + (c - 0x30).toNat) 0
  if s ≠ [] ∧ s.all isDigit ∧ n < 2 ^ bits then some n else none

-- `ParseInt(s, 10, bits)`, which also takes a sign.
def parseInt (bits : Nat) (s : GoString) : Option Int :=
  let (neg, digits) :=
    match s with
    | 0x2b :: s => (false, s)
    | 0x2d :: s => (true, s)
    | s         => (false, s)
  match parseUint bits digits with
  | none   => none
  | some n =>
    if neg then if n ≤ 2 ^ (bits - 1) then some (-n) else none
    else if n < 2 ^ (bits - 1) then some n else none

def formatInt (n : Int) : GoString :=
  utf8 (toString n)

section Duration

-- The last `prec` digits of `v`, without zeros at their end, and what is left of `v`.
def fmtFrac : Nat → Nat → GoString → GoString × Nat
  | 0, v, digits        => (if digits = [] then [] else utf8 "." ++ digits, v)
  | prec + 1, v, digits =>
    let d := v % 10
    fmtFrac prec (v / 10) (if digits = [] ∧ d = 0 then [] else UInt8.ofNat (0x30 + d) :: digits)

-- `d.String()`, for a duration in nanoseconds.
def formatDuration (d : Int) : GoString :=
  (if d < 0 then utf8 "-" else []) ++
  let u := d.natAbs
  if u = 0 then utf8 "0s"
  else if u < 10 ^ 9 then
    let (prec, unit) :=
      if u < 10 ^ 3 then (0, "ns") else if u < 10 ^ 6 then (3, "µs") else (6, "ms")
    let (frac, u) := fmtFrac prec u []
    formatInt u ++ frac ++ utf8 unit
  else
    let (frac, u) := fmtFrac 9 u []
    let seconds := formatInt (u % 60 : Nat) ++ frac ++ utf8 "s"
    let u := u / 60
    if u = 0 then seconds
    else if u < 60 then formatInt u ++ utf8 "m" ++ seconds
    else formatInt (u / 60 : Nat) ++ utf8 "h" ++ formatInt (u % 60 : Nat) ++ utf8 "m" ++ seconds

end Duration

-- `net.SplitHostPort`. Brackets around the host are removed, and must not be anywhere else.
def splitHostPort (s : GoString) : Option (GoString × GoString) :=
  match s.cutLast 0x3a with
  | none              => none
  | some (host, port) =>
    if s.hasPrefix (utf8 "[") then
      match s.cut 0x5d with
      | none            => none
      | some (inner, _) =>
        if inner.length + 1 = host.length ∧ 0x5b ∉ s.drop 1 ∧ 0x5d ∉ s.drop (inner.length + 1) then
          some (inner.drop 1, port)
        else none
    else if 0x3a ∈ host ∨ 0x5b ∈ s ∨ 0x5d ∈ s then none
    else some (host, port)

def asciiLower (s : GoString) : GoString :=
  s.map fun c => if 0x41 ≤ c ∧ c ≤ 0x5a then c + 0x20 else c

section Lemmas

variable {s p a b : GoString} {c : UInt8}

theorem hasPrefix_iff : s.hasPrefix p = true ↔ p <+: s :=
  List.isPrefixOf_iff_prefix

theorem hasSuffix_iff : s.hasSuffix p = true ↔ p <:+ s :=
  List.isSuffixOf_iff_suffix

theorem trimPrefix_append : trimPrefix (p ++ s) p = s := by
  simp [trimPrefix, hasPrefix_iff.mpr (List.prefix_append p s)]

theorem trimSuffix_append : trimSuffix (s ++ p) p = s := by
  simp [trimSuffix, hasSuffix_iff.mpr (List.suffix_append s p)]

theorem trimSuffix_of_not_suffix (h : ¬p <:+ s) : s.trimSuffix p = s := by
  simp [trimSuffix, hasSuffix_iff, h]

-- The end of a string decides about a suffix.
theorem not_suffix_append (h₁ : ¬p <:+ b) (h₂ : ¬b <:+ p) : ¬p <:+ a ++ b := by
  intro h
  have hb := List.suffix_append a b
  cases Nat.le_total p.length b.length
  case inl hl => exact h₁ (List.suffix_of_suffix_length_le h hb hl)
  case inr hl => exact h₂ (List.suffix_of_suffix_length_le hb h hl)

theorem contains_of_prefix (h : p <+: s) : s.contains p = true := by
  cases s
  case nil => simp_all [contains, hasPrefix_iff]
  case cons => simp [contains, hasPrefix_iff, h]

theorem contains_of_suffix (h : p <:+ s) : s.contains p = true := by
  simp only [contains, List.any_eq_true, List.mem_tails, hasPrefix_iff]
  exact ⟨p, h, List.prefix_refl p⟩

theorem cut_append (h : c ∉ a) : cut (a ++ c :: b) c = some (a, b) := by
  have ha : ∀ x ∈ a, decide (x ≠ c) = true := by
    intro x hx
    have hn : x ≠ c := fun he => h (he ▸ hx)
    simpa using hn
  rw [cut, if_pos (by simp), List.takeWhile_append_of_pos ha, List.dropWhile_append_of_pos ha]
  simp

theorem cut_eq_none : s.cut c = none ↔ c ∉ s := by
  simp [cut]

theorem eq_of_cut (h : s.cut c = some (a, b)) : s = a ++ c :: b ∧ c ∉ a := by
  have hc : c ∈ s := by
    by_contra hc
    simp [cut_eq_none.mpr hc] at h
  obtain ⟨a', b', rfl, ha'⟩ := List.eq_append_cons_of_mem hc
  simp only [cut_append ha', Option.some.injEq, Prod.mk.injEq] at h
  exact ⟨by rw [h.left, h.right], h.left ▸ ha'⟩

theorem cutLast_append (h : c ∉ b) : cutLast (a ++ c :: b) c = some (a, b) := by
  have hr : (a ++ c :: b).reverse = b.reverse ++ c :: a.reverse := by simp
  simp [cutLast, hr, cut_append (by simpa using h : c ∉ b.reverse)]

theorem eq_of_cutLast (h : s.cutLast c = some (a, b)) : s = a ++ c :: b ∧ c ∉ b := by
  simp only [cutLast, Option.map_eq_some_iff, Prod.mk.injEq] at h
  have ⟨⟨x, y⟩, hc, ha, hb⟩ := h
  have ⟨hs, hn⟩ := eq_of_cut hc
  subst ha hb
  exact ⟨by simpa using congrArg List.reverse hs, by simpa using hn⟩

theorem afterFirst_eq_none (hc : c ∈ p) (h : c ∉ s) : s.afterFirst p = none := by
  induction s
  case nil =>
    have hp : p ≠ [] := List.ne_nil_of_mem hc
    simp [afterFirst, hp]
  case cons x s hi =>
    have hx : ¬hasPrefix (x :: s) p := by
      intro hp
      exact h ((hasPrefix_iff.mp hp).subset hc)
    simp only [List.mem_cons, not_or] at h
    simp [afterFirst, hx, hi h.right]

theorem trimLeft_of_none (h : ∀ sp ∈ spaces, ¬sp <+: s) : trimLeft n s = s := by
  cases n
  case zero => rfl
  case succ n =>
    have hf : spaces.find? (hasPrefix s) = none := by
      simpa [List.find?_eq_none, hasPrefix_iff] using h
    simp [trimLeft, hf]

theorem trimRight_of_none (h : ∀ sp ∈ spaces, ¬sp <:+ s) : trimRight n s = s := by
  cases n
  case zero => rfl
  case succ n =>
    have hf : spaces.find? (hasSuffix s) = none := by
      simpa [List.find?_eq_none, hasSuffix_iff] using h
    simp [trimRight, hf]

theorem trimSpace_of_no_space (h : s.containsSpaceOrControl = false) : s.trimSpace = s := by
  have hs : ∀ sp ∈ spaces, s.contains sp = false := by
    intro sp hsp
    simp only [containsSpaceOrControl, List.any_eq_false, List.mem_append] at h
    simpa using h sp (.inl hsp)
  have hl : trimLeft s.length s = s :=
    trimLeft_of_none fun sp hsp hp => by simpa [hs sp hsp] using contains_of_prefix hp
  have hr : trimRight s.length s = s :=
    trimRight_of_none fun sp hsp hp => by simpa [hs sp hsp] using contains_of_suffix hp
  rw [trimSpace, hl, hr]

theorem trimSpace_of_chars {P : UInt8 → Prop} (hs : ∀ sp ∈ spaces, ∃ c ∈ sp, ¬P c) (h : ∀ c ∈ s, P c) :
    s.trimSpace = s := by
  have hl : trimLeft s.length s = s := trimLeft_of_none fun sp hsp hp =>
    have ⟨c, hc, hn⟩ := hs sp hsp
    hn (h c (hp.subset hc))
  have hr : trimRight s.length s = s := trimRight_of_none fun sp hsp hp =>
    have ⟨c, hc, hn⟩ := hs sp hsp
    hn (h c (hp.subset hc))
  rw [trimSpace, hl, hr]

theorem parseUint_mono (h : s.parseUint bits = some n) (hb : bits ≤ bits') : s.parseUint bits' = some n := by
  simp only [parseUint] at h ⊢
  split at h
  case isTrue hd =>
    rw [if_pos ⟨hd.1, hd.2.1, hd.2.2.trans_le (Nat.pow_le_pow_right (by decide) hb)⟩]
    exact h
  case isFalse => cases h

theorem lt_of_parseUint (h : s.parseUint bits = some n) : n < 2 ^ bits := by
  simp only [parseUint] at h
  split at h
  case isTrue hd =>
    cases h
    exact hd.2.2
  case isFalse => cases h

theorem isDigit_of_parseUint (h : s.parseUint bits = some n) : ∀ c ∈ s, isDigit c = true := by
  simp only [parseUint] at h
  split at h
  case isTrue hd => simpa using hd.2.1
  case isFalse => cases h

end Lemmas

section Format

theorem toList_loop (b : ByteArray) (i : Nat) (r : List UInt8) :
    ByteArray.toList.loop b i r = r.reverse ++ b.data.toList.drop i := by
  fun_induction ByteArray.toList.loop b i r
  case case1 i r h hi =>
    have hl : i < b.data.toList.length := h
    have hg : b.get! i = b.data.toList[i] := getElem!_pos b.data i h
    rw [hi, List.drop_eq_getElem_cons hl, hg]
    simp
  case case2 i r h =>
    have hl : b.data.toList.length ≤ i := Nat.le_of_not_lt h
    simp [List.drop_eq_nil_of_le hl]

theorem utf8_ofList {cs : List Char} : utf8 (String.ofList cs) = cs.flatMap String.utf8EncodeChar := by
  have h : (String.ofList cs).toUTF8.data.toList = cs.flatMap String.utf8EncodeChar := by
    simp [String.toUTF8, List.utf8Encode]
  rw [utf8, ByteArray.toList, toList_loop, ← h]
  simp

theorem utf8_append {s t : String} : utf8 (s ++ t) = utf8 s ++ utf8 t := by
  simp [utf8, ByteArray.toList, toList_loop, String.toUTF8]

theorem toNat_of_isDigit {c : Char} (h : c.isDigit = true) : 48 ≤ c.toNat ∧ c.toNat ≤ 57 := by
  simp only [Char.isDigit, Bool.and_eq_true, decide_eq_true_eq] at h
  exact h

theorem utf8EncodeChar_of_isDigit {c : Char} (h : c.isDigit = true) :
    String.utf8EncodeChar c = [UInt8.ofNat c.toNat] ∧ isDigit (UInt8.ofNat c.toNat) = true := by
  have ⟨h0, h9⟩ := toNat_of_isDigit h
  have hc : c.toNat ≤ 127 := by omega
  refine ⟨by simp [String.utf8EncodeChar, hc], ?_⟩
  have hm : c.toNat % 256 = c.toNat := Nat.mod_eq_of_lt (by omega)
  simp [isDigit, UInt8.le_iff_toNat_le, hm, h0, h9]

theorem isDigit_of_mem_toDigits {m : Nat} {c : Char} (h : c ∈ Nat.toDigits 10 m) : c.isDigit = true :=
  Nat.isDigit_of_mem_toDigits (by decide) (by decide) h

theorem utf8_repr (m : Nat) : utf8 m.repr = (Nat.toDigits 10 m).map fun c => UInt8.ofNat c.toNat := by
  rw [Nat.repr, utf8_ofList, List.map_eq_flatMap]
  exact List.flatMap_congr fun c hc => (utf8EncodeChar_of_isDigit (isDigit_of_mem_toDigits hc)).1

theorem isDigit_of_mem_repr {m : Nat} (h : b ∈ utf8 m.repr) : isDigit b = true := by
  rw [utf8_repr, List.mem_map] at h
  have ⟨c, hc, hb⟩ := h
  rw [← hb]
  exact (utf8EncodeChar_of_isDigit (isDigit_of_mem_toDigits hc)).2

theorem utf8_signs : utf8 "-" = [0x2d] ∧ utf8 "--" = [0x2d, 0x2d] ∧ utf8 "=" = [0x3d] ∧ utf8 "/" = [0x2f] ∧
    utf8 ":" = [0x3a] ∧ utf8 "[" = [0x5b] ∧ utf8 "]:" = [0x5d, 0x3a] := by
  decide +kernel

theorem utf8_dash : utf8 "-" = [0x2d] := utf8_signs.1

theorem utf8_dashes : utf8 "--" = [0x2d, 0x2d] := utf8_signs.2.1

theorem utf8_equals : utf8 "=" = [0x3d] := utf8_signs.2.2.1

theorem utf8_slash : utf8 "/" = [0x2f] := utf8_signs.2.2.2.1

theorem utf8_colon : utf8 ":" = [0x3a] := utf8_signs.2.2.2.2.1

theorem utf8_bracket : utf8 "[" = [0x5b] := utf8_signs.2.2.2.2.2.1

theorem utf8_bracket_colon : utf8 "]:" = [0x5d, 0x3a] := utf8_signs.2.2.2.2.2.2

theorem formatInt_negSucc (m : Nat) : formatInt (.negSucc m) = 0x2d :: utf8 m.succ.repr := by
  have h : formatInt (.negSucc m) = utf8 "-" ++ utf8 m.succ.repr := utf8_append
  rw [h, utf8_dash]
  rfl

-- A number is printed with digits, and perhaps a sign.
theorem mem_formatInt (h : b ∈ formatInt n) : b = 0x2d ∨ isDigit b = true := by
  cases n
  case ofNat m => exact .inr (isDigit_of_mem_repr h)
  case negSucc m =>
    rw [formatInt_negSucc, List.mem_cons] at h
    exact h.imp_right isDigit_of_mem_repr

theorem parseUint_repr {m : Nat} (h : m < 2 ^ bits) : parseUint bits (utf8 m.repr) = some m := by
  have hd (n : Nat) {c : Char} (hc : c ∈ Nat.toDigits 10 m) :
      10 * n + (UInt8.ofNat c.toNat - 0x30).toNat = 10 * n + (c.toNat - '0'.toNat) := by
    have ⟨h0, h9⟩ := toNat_of_isDigit (isDigit_of_mem_toDigits hc)
    have hm : c.toNat % 256 = c.toNat := Nat.mod_eq_of_lt (by omega)
    have hl : (0x30 : UInt8) ≤ UInt8.ofNat c.toNat := by
      rw [UInt8.le_iff_toNat_le, UInt8.toNat_ofNat']
      simp [hm, h0]
    rw [UInt8.toNat_sub_of_le _ _ hl, UInt8.toNat_ofNat']
    simp [hm]
  have hn : utf8 m.repr ≠ [] := by
    rw [utf8_repr]
    simp [Nat.toDigits_ne_nil]
  have hf : (utf8 m.repr).foldl (fun n c => 10 * n + (c - 0x30).toNat) 0 = m := by
    rw [utf8_repr, List.foldl_map]
    calc
      _ = Nat.ofDigitChars 10 (Nat.toDigits 10 m) 0 := by
        rw [Nat.ofDigitChars_eq_foldl]
        exact List.foldl_ext _ _ _ fun n c hc => hd n hc
      _ = m := Nat.ofDigitChars_ten_toDigits
  have ha : (utf8 m.repr).all isDigit = true := List.all_eq_true.mpr fun c => isDigit_of_mem_repr
  simp [parseUint, hf, hn, ha, h]

theorem parseInt_of_isDigit (h : ∀ b ∈ s, isDigit b = true) :
    parseInt bits s = (parseUint bits s).bind fun n => if n < 2 ^ (bits - 1) then some (n : Int) else none := by
  cases s
  case nil => simp [parseInt, parseUint]
  case cons b s =>
    have hb := h b (.head _)
    have hp : b ≠ 0x2b := fun he => absurd (he ▸ hb) (by decide)
    have hm : b ≠ 0x2d := fun he => absurd (he ▸ hb) (by decide)
    rw [parseInt]
    case x => exact fun t he => hp (List.cons.inj he).1
    case x_1 => exact fun t he => hm (List.cons.inj he).1
    cases parseUint bits (b :: s) <;> rfl

theorem parseInt_formatInt {n : Int} (hl : -2 ^ bits ≤ n) (hu : n < 2 ^ bits) :
    parseInt (bits + 1) (formatInt n) = some n := by
  have hp : 2 ^ bits < 2 ^ (bits + 1) := Nat.pow_lt_pow_succ (by decide)
  cases n
  case ofNat m =>
    have hm : m < 2 ^ bits := by simpa [← Int.ofNat_lt] using hu
    have hf : formatInt (.ofNat m) = utf8 m.repr := rfl
    rw [hf, parseInt_of_isDigit fun b => isDigit_of_mem_repr, parseUint_repr (hm.trans hp)]
    simp [hm]
  case negSucc m =>
    have hm : m + 1 ≤ 2 ^ bits := by
      rw [Int.negSucc_eq] at hl
      have : (m : Int) + 1 ≤ 2 ^ bits := by omega
      exact_mod_cast this
    rw [formatInt_negSucc, parseInt, parseUint_repr (hm.trans_lt hp)]
    simp [hm, Int.negSucc_eq]

end Format

end GoString
