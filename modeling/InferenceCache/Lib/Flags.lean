import InferenceCache.Lib.Strings
import InferenceCache.Lib.Upsert

-- The arguments of a command. What begins with `-` is a flag. The value of a flag is what is behind a `=`,
-- or the next argument if that is not a flag.
namespace Flags

def isFlag (arg : GoString) : Bool :=
  arg.hasPrefix (utf8 "-")

theorem isFlag_nil : isFlag [] = false := by
  simp [isFlag, GoString.hasPrefix, GoString.utf8_dash]

structure Flag where
  text     : GoString
  dash     : isFlag text = true
  noEquals : 0x3d ∉ text
  deriving DecidableEq

theorem Flag.text_ne_nil (f : Flag) : f.text ≠ [] := by
  intro h
  have hd := f.dash
  rw [h] at hd
  exact absurd hd (by simp [isFlag_nil])

structure Value where
  text   : GoString
  noDash : isFlag text = false
  deriving DecidableEq

inductive Token
  | bare (f : Flag)
  | assigned (f : Flag) (v : GoString)
  | value (v : Value)
  deriving DecidableEq

inductive Entry
  | pair (f : Flag) (v : Value)
  | equals (f : Flag) (v : GoString)
  | toggle (f : Flag)
  | positional (v : Value)
  deriving DecidableEq

section Tokens

theorem isFlag_cons : isFlag (c :: s) = (c == 0x2d) := by
  rw [isFlag, GoString.utf8_dash, GoString.hasPrefix, List.isPrefixOf_cons_cons, List.isPrefixOf_nil_left, Bool.and_true]
  exact BEq.comm

theorem isFlag_append (h : isFlag (a ++ 0x3d :: b) = true) : isFlag a = true := by
  cases a
  case nil => simp [isFlag_cons] at h
  case cons => simpa [isFlag_cons] using h

theorem isFlag_append_of (h : isFlag a = true) : isFlag (a ++ b) = true := by
  cases a
  case nil => simp [isFlag_nil] at h
  case cons => simpa [isFlag_cons] using h

theorem isFlag_append_of_ne_nil (h : a ≠ []) : isFlag (a ++ b) = isFlag a := by
  cases a
  case nil => exact absurd rfl h
  case cons => simp [isFlag_cons]

def Token.text : Token → GoString
  | bare f       => f.text
  | assigned f v => f.text ++ 0x3d :: v
  | value v      => v.text

def Token.ofArg (arg : GoString) : Token :=
  if h : isFlag arg = true then
    match hc : arg.cut 0x3d with
    | none        => .bare ⟨arg, h, GoString.cut_eq_none.mp hc⟩
    | some (f, v) =>
      have hf := GoString.eq_of_cut hc
      .assigned ⟨f, isFlag_append (hf.left ▸ h), hf.right⟩ v
  else .value ⟨arg, by simpa using h⟩

@[simp]
theorem Token.text_ofArg : (Token.ofArg arg).text = arg := by
  unfold ofArg
  split
  case isFalse => rfl
  case isTrue =>
    split
    case h_1 => rfl
    case h_2 hc => exact (GoString.eq_of_cut hc).left.symm

theorem Token.ofArg_value (v : Value) : Token.ofArg v.text = .value v := by
  simp [ofArg, v.noDash]

theorem Token.ofArg_bare (f : Flag) : Token.ofArg f.text = .bare f := by
  have hc := GoString.cut_eq_none.mpr f.noEquals
  rw [ofArg, dif_pos f.dash]
  split
  case h_1 => rfl
  case h_2 h => simp [hc] at h

theorem Token.ofArg_assigned (f : Flag) (v : GoString) :
    Token.ofArg (f.text ++ 0x3d :: v) = .assigned f v := by
  have hc : GoString.cut (f.text ++ 0x3d :: v) 0x3d = some (f.text, v) := GoString.cut_append f.noEquals
  rw [ofArg, dif_pos (isFlag_append_of f.dash)]
  split
  case h_1 h => simp [hc] at h
  case h_2 h =>
    simp only [hc, Option.some.injEq, Prod.mk.injEq] at h
    obtain ⟨rfl, rfl⟩ := h
    rfl

@[simp]
theorem Token.ofArg_text {t : Token} : Token.ofArg t.text = t := by
  cases t
  case bare f => exact ofArg_bare f
  case assigned f v => exact ofArg_assigned f v
  case value v => exact ofArg_value v

-- Arguments and tokens are the same.
def tokens (args : List GoString) : List Token :=
  args.map .ofArg

def texts (ts : List Token) : List GoString :=
  ts.map Token.text

@[simp]
theorem texts_nil : texts [] = [] :=
  rfl

@[simp]
theorem texts_cons : texts (t :: ts) = t.text :: texts ts :=
  rfl

@[simp]
theorem texts_tokens : texts (tokens args) = args := by
  simp [texts, tokens, Function.comp_def]

@[simp]
theorem tokens_texts : tokens (texts ts) = ts := by
  simp [texts, tokens, Function.comp_def]

end Tokens

section Entries

-- The flag that an entry is about, empty if there is none.
def Entry.key : Entry → GoString
  | pair f _     => f.text
  | equals f _   => f.text
  | toggle f     => f.text
  | positional _ => []

@[simp]
theorem Entry.key_pair : (pair f v).key = f.text :=
  rfl

@[simp]
theorem Entry.key_equals : (equals f v).key = f.text :=
  rfl

@[simp]
theorem Entry.key_toggle : (toggle f).key = f.text :=
  rfl

@[simp]
theorem Entry.key_positional : (positional v).key = [] :=
  rfl

-- A flag without a value counts as one with the empty value.
def Entry.value : Entry → GoString
  | pair _ v     => v.text
  | equals _ v   => v
  | toggle _     => []
  | positional v => v.text

def Entry.isToggle : Entry → Bool
  | toggle _ => true
  | _        => false

def Entry.isPositional : Entry → Bool
  | positional _ => true
  | _            => false

def Entry.render : Entry → List Token
  | pair f v     => [.bare f, .value v]
  | equals f v   => [.assigned f v]
  | toggle f     => [.bare f]
  | positional v => [.value v]

@[simp]
theorem Entry.render_pair : (pair f v).render = [.bare f, .value v] :=
  rfl

@[simp]
theorem Entry.render_equals : (equals f v).render = [.assigned f v] :=
  rfl

@[simp]
theorem Entry.render_toggle : (toggle f).render = [.bare f] :=
  rfl

@[simp]
theorem Entry.render_positional : (positional v).render = [.value v] :=
  rfl

def parse : List Token → List Entry
  | []                       => []
  | .value v :: ts           => .positional v :: parse ts
  | .assigned f v :: ts      => .equals f v :: parse ts
  | .bare f :: .value v :: ts => .pair f v :: parse ts
  | .bare f :: ts            => .toggle f :: parse ts

def render (es : List Entry) : List Token :=
  es.flatMap Entry.render

-- The two neighbours are not taken for a flag and its value.
def Entry.Apart (a b : Entry) : Prop :=
  ¬(a.isToggle ∧ b.isPositional)

def Separated (es : List Entry) : Prop :=
  es.IsChain Entry.Apart

instance : DecidableRel Entry.Apart :=
  fun a b => inferInstanceAs (Decidable ¬(a.isToggle = true ∧ b.isPositional = true))

instance : DecidablePred Separated :=
  fun es => inferInstanceAs (Decidable (es.IsChain Entry.Apart))

@[simp]
theorem render_nil : render [] = [] :=
  rfl

@[simp]
theorem render_cons : render (e :: es) = e.render ++ render es :=
  List.flatMap_cons

@[simp]
theorem render_append : render (es ++ es') = render es ++ render es' :=
  List.flatMap_append

@[simp]
theorem render_parse : render (parse ts) = ts := by
  fun_induction parse ts <;> simp_all

theorem parse_bare (h : ∀ v ts', ts ≠ .value v :: ts') : parse (.bare f :: ts) = .toggle f :: parse ts := by
  cases ts
  case nil => rfl
  case cons t ts =>
    cases t
    case value v => exact absurd rfl (h v ts)
    all_goals simp [parse]

-- What is read of a list does not depend on what comes behind it, if that is not a value.
theorem parse_append (h : ∀ v ts'', ts' ≠ .value v :: ts'') : parse (ts ++ ts') = parse ts ++ parse ts' := by
  fun_induction parse ts
  case case1 => rfl
  case case2 hi => simp [parse, hi]
  case case3 hi => simp [parse, hi]
  case case4 hi => simp [parse, hi]
  case case5 f ts hn hi =>
    rw [List.cons_append, parse_bare, hi, List.cons_append]
    intro v ts'' ht
    cases ts
    case nil => exact h v ts'' ht
    case cons t ts =>
      cases ht
      exact hn v ts rfl

-- What entries become when their tokens are read again.
def fuse : List Entry → List Entry
  | []                               => []
  | .toggle f :: .positional v :: es => .pair f v :: fuse es
  | e :: es                          => e :: fuse es

-- A token in front that is not a value is there only if the first entry is not a positional argument.
theorem render_ne_value (h : ∀ v es', es ≠ .positional v :: es') (v : Value) (ts : List Token) :
    render es ≠ .value v :: ts := by
  cases es
  case nil => simp
  case cons e es =>
    cases e
    case positional v' => exact absurd rfl (h v' es)
    all_goals simp

theorem parse_render_eq_fuse : parse (render es) = fuse es := by
  fun_induction fuse es
  case case1 => rfl
  case case2 f v es hi => simp [parse, hi]
  case case3 e es hn hi =>
    rw [render_cons, ← hi]
    cases e
    case pair => simp [parse]
    case equals => simp [parse]
    case positional => simp [parse]
    case toggle f => exact parse_bare (render_ne_value fun v es' he => hn f v es' rfl he)

theorem fuse_of_separated (h : Separated es) : fuse es = es := by
  fun_induction fuse es
  case case1 => rfl
  case case2 f v es _ =>
    have ha := (List.isChain_cons_cons.mp h).left
    simp [Entry.Apart, Entry.isToggle, Entry.isPositional] at ha
  case case3 e es _ hi => rw [hi (List.IsChain.of_cons h)]

theorem parse_render (h : Separated es) : parse (render es) = es :=
  parse_render_eq_fuse.trans (fuse_of_separated h)

theorem apart_of_not_toggle (h : e.isToggle = false) : Separated (e :: es) ↔ Separated es := by
  simp [Separated, List.isChain_cons, Entry.Apart, h]

theorem head_parse_positional (h : (parse ts).head? = some e) (he : e.isPositional = true) :
    ∃ v ts', ts = .value v :: ts' := by
  cases e
  case positional =>
    fun_cases parse ts
    case case2 v ts => exact ⟨v, ts, rfl⟩
    all_goals simp_all [parse]
  all_goals cases he

theorem filter_fuse (hk : k ≠ []) (h : ∀ e ∈ es, e.isToggle = true → e.key ≠ k) :
    (fuse es).filter (·.key = k) = es.filter (·.key = k) := by
  fun_induction fuse es
  case case1 => rfl
  case case2 g v es hi =>
    simp only [List.forall_mem_cons] at h
    have hg : g.text ≠ k := h.left rfl
    simp [hg, hk.symm, hi h.right.right]
  case case3 e es _ hi =>
    simp only [List.forall_mem_cons] at h
    simp [List.filter_cons, hi h.right]

end Entries

section Args

def entries (args : List GoString) : List Entry :=
  parse (tokens args)

def argsOf (es : List Entry) : List GoString :=
  texts (render es)

@[simp]
theorem argsOf_entries : argsOf (entries args) = args := by
  simp [argsOf, entries]

@[simp]
theorem argsOf_parse : argsOf (parse ts) = texts ts := by
  simp [argsOf]

theorem entries_argsOf_eq_fuse : entries (argsOf es) = fuse es := by
  simp [argsOf, entries, parse_render_eq_fuse]

theorem entries_argsOf (h : Separated es) : entries (argsOf es) = es := by
  simp [argsOf, entries, parse_render h]

theorem entries_append (h : isFlag arg = true) :
    entries (args ++ arg :: args') = entries args ++ entries (arg :: args') := by
  have ht : tokens (args ++ arg :: args') = tokens args ++ tokens (arg :: args') := List.map_append
  rw [entries, ht, parse_append, entries, entries]
  intro v ts hv
  have ha : Token.ofArg arg = .value v := (List.cons.inj hv).left
  have hx : (Token.ofArg arg).text = arg := Token.text_ofArg
  rw [← hx, ha] at h
  cases v.noDash.symm.trans h

theorem entries_pair (f : Flag) (v : Value) (args : List GoString) :
    entries (f.text :: v.text :: args) = .pair f v :: entries args := by
  have ht : tokens (f.text :: v.text :: args) = .bare f :: .value v :: tokens args := by
    simp [tokens, Token.ofArg_bare, Token.ofArg_value]
  rw [entries, ht, parse, entries]

@[simp]
theorem argsOf_append : argsOf (es ++ es') = argsOf es ++ argsOf es' := by
  simp [argsOf, texts]

@[simp]
theorem argsOf_nil : argsOf [] = [] :=
  rfl

@[simp]
theorem argsOf_cons : argsOf (e :: es) = texts e.render ++ argsOf es := by
  simp [argsOf, texts]

end Args

end Flags
