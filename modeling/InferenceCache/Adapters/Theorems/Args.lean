import InferenceCache.Adapters.Theorems.Engine
import InferenceCache.Lib.Flags

namespace InferenceCache.Adapters

open Kube Api

section Occurrences

variable {flag value arg t : GoString} {args args' before after ts : List GoString}

@[simp]
theorem hasArg_nil : hasArg [] flag = false :=
  rfl

theorem hasArg_cons : hasArg (arg :: args) flag = false ↔
    arg ≠ flag ∧ arg.hasPrefix (flag ++ utf8 "=") = false ∧ hasArg args flag = false := by
  simp [hasArg, and_assoc]

theorem hasArg_append : hasArg (args ++ args') flag = false ↔
    hasArg args flag = false ∧ hasArg args' flag = false := by
  simp [hasArg, forall_and]

theorem hasArg_cons_iff : hasArg (arg :: args) flag = false ↔
    hasArg [arg] flag = false ∧ hasArg args flag = false := by
  simp [hasArg]

section Values

def OneValue (flag : GoString) (args : List GoString) : Prop :=
  (argValues flag args).2 = false ∧ (argValues flag args).1.length ≤ 1

instance : Decidable (OneValue flag args) :=
  inferInstanceAs (Decidable (_ ∧ _))

theorem hasArg_of_argValues (hm : (argValues flag args).2 = false) (hv : (argValues flag args).1 = []) :
    hasArg args flag = false := by
  fun_induction argValues flag args
  all_goals simp_all [hasArg_cons]

-- A flag occurs once, with this value.
def Given (flag value : GoString) (args : List GoString) : Prop :=
  ∃ before after, args = before ++ flag :: value :: after ∧ hasArg before flag = false ∧
    hasArg after flag = false

theorem given_upsertArgPair (h : OneValue flag args) : Given flag value (upsertArgPair flag value args) := by
  obtain ⟨hm, hl⟩ := h
  fun_induction argValues flag args
  case case1 => exact ⟨[], [], rfl, rfl, rfl⟩
  case case2 => cases hm
  case case3 => cases hm
  case case4 next rest hp _ =>
    have hr : hasArg rest flag = false := hasArg_of_argValues hm (List.length_eq_zero_iff.mp (by simpa using hl))
    exact ⟨[], rest, by simp [upsertArgPair], rfl, hr⟩
  case case5 => cases hm
  case case6 arg args hn hp v hv _ =>
    have ha : hasArg args flag = false := hasArg_of_argValues hm (List.length_eq_zero_iff.mp (by simpa using hl))
    exact ⟨[], args, by simp [upsertArgPair, hn, hp], rfl, ha⟩
  case case7 arg args hn hp hi =>
    have hp : GoString.hasPrefix arg (flag ++ utf8 "=") = false := by simpa using hp
    have ⟨before, after, hu, hb, ha⟩ := hi hm hl
    exact ⟨arg :: before, after, by simp [upsertArgPair, hn, hp, hu], hasArg_cons.mpr ⟨hn, hp, hb⟩, ha⟩

theorem Given.upsertFlag (h : Given flag value args) (ht : hasArg [t] flag = false) :
    Given flag value (upsertFlag t args) := by
  have ⟨before, after, ha, hb, hf⟩ := h
  unfold Adapters.upsertFlag
  split
  case isTrue => exact h
  case isFalse => exact ⟨before, after ++ [t], by simp [ha], hb, hasArg_append.mpr ⟨hf, ht⟩⟩

end Values

section Reading

open Flags

-- What begins with a dash is no value.
def valueAt : List GoString → Option GoString
  | []        => none
  | next :: _ => if isFlag next then none else some next

-- The value of the last occurrence, if there is one and if it has one.
def lastGiven (flag : GoString) : List GoString → Option (Option GoString)
  | []          => none
  | arg :: args => (lastGiven flag args).or
    (if arg = flag then some (valueAt args)
    else if arg.hasPrefix (flag ++ utf8 "=") then some (some (arg.trimPrefix (flag ++ utf8 "=")))
    else none)

-- The arguments apart from a flag and its values, from an argument on that may be behind the flag.
def othersFrom (flag : GoString) (behind : Bool) : List GoString → List GoString
  | []          => []
  | arg :: args =>
    if arg = flag then othersFrom flag true args
    else if arg.hasPrefix (flag ++ utf8 "=") ∨ behind ∧ !isFlag arg then othersFrom flag false args
    else arg :: othersFrom flag false args

def withoutFlag (flag : GoString) (args : List GoString) : List GoString :=
  othersFrom flag false args

-- What is behind the first occurrence of a flag and the argument that is taken for its value.
def behindFirst (flag : GoString) : List GoString → List GoString
  | []          => []
  | arg :: args =>
    if arg = flag then args.drop 1
    else if arg.hasPrefix (flag ++ utf8 "=") then args
    else behindFirst flag args

-- Other flags, without values.
def Apart (flag : GoString) (ts : List GoString) : Prop :=
  ∀ t ∈ ts, isFlag t = true ∧ hasArg [t] flag = false
  deriving Decidable

def missing (ts args : List GoString) : List GoString :=
  ts.filter (· ∉ args)

theorem upsertFlag_eq : upsertFlag t args = args ++ missing [t] args := by
  rw [upsertFlag, missing]
  split <;> simp_all

theorem Apart.missing (h : Apart flag ts) : Apart flag (missing ts args) :=
  fun t ht => h t (List.mem_filter.mp ht).1

theorem Apart.hasArg (h : Apart flag ts) : Adapters.hasArg ts flag = false := by
  induction ts
  case nil => rfl
  case cons t ts hi =>
    have ⟨ht, h⟩ := List.forall_mem_cons.mp h
    exact hasArg_cons_iff.mpr ⟨ht.2, hi h⟩

theorem lastGiven_of_not_hasArg (h : hasArg args flag = false) : lastGiven flag args = none := by
  induction args
  case nil => rfl
  case cons arg args hi =>
    have ⟨hn, hp, h⟩ := hasArg_cons.mp h
    simp [lastGiven, hi h, hn, hp]

theorem lastGiven_append (h : Apart flag ts) : lastGiven flag (args ++ ts) = lastGiven flag args := by
  induction args
  case nil => exact lastGiven_of_not_hasArg h.hasArg
  case cons arg args hi =>
    rw [List.cons_append, lastGiven, hi, lastGiven]
    cases args
    case cons => rfl
    case nil =>
      cases ts
      case nil => rfl
      case cons t ts => simp [valueAt, (h t (.head _)).1]

theorem lastGiven_behindFirst_append (h : Apart flag ts) :
    lastGiven flag (behindFirst flag (args ++ ts)) = lastGiven flag (behindFirst flag args) := by
  induction args
  case nil =>
    have hb : ∀ {ts}, hasArg ts flag = false → behindFirst flag ts = [] := by
      intro ts h
      induction ts
      case nil => rfl
      case cons t ts hi =>
        have ⟨hn, hp, h⟩ := hasArg_cons.mp h
        simp [behindFirst, hn, hp, hi h]
    rw [List.nil_append, hb h.hasArg, behindFirst]
  case cons arg args hi =>
    rw [List.cons_append, behindFirst, behindFirst]
    split_ifs
    case pos =>
      cases args
      case cons => exact lastGiven_append h
      case nil => exact lastGiven_of_not_hasArg (Apart.hasArg fun t ht => h t (List.mem_of_mem_drop ht))
    case pos => exact lastGiven_append h
    case neg => exact hi

theorem othersFrom_append (h : Apart flag ts) {behind : Bool} :
    othersFrom flag behind (args ++ ts) = othersFrom flag behind args ++ ts := by
  induction args generalizing behind
  case cons arg args hi =>
    simp only [List.cons_append, othersFrom, hi]
    split_ifs <;> rfl
  case nil =>
    induction ts generalizing behind
    case nil => rfl
    case cons t ts hi =>
      have ⟨ht, h⟩ := List.forall_mem_cons.mp h
      have ⟨hn, hp, _⟩ := hasArg_cons.mp ht.2
      simpa [othersFrom, hn, hp, ht.1] using hi h

theorem withoutFlag_append (h : hasArg before flag = false) :
    withoutFlag flag (before ++ args) = before ++ withoutFlag flag args := by
  induction before
  case nil => rfl
  case cons arg before hi =>
    have ⟨hn, hp, h⟩ := hasArg_cons.mp h
    have hi := hi h
    rw [withoutFlag] at hi ⊢
    simp [othersFrom, hn, hp, hi, withoutFlag]

theorem mem_othersFrom {behind : Bool} (hf : isFlag t = true) (hn : hasArg [t] flag = false) (h : t ∈ args) :
    t ∈ othersFrom flag behind args := by
  have ⟨hn, hp, _⟩ := hasArg_cons.mp hn
  induction args generalizing behind
  case nil => cases h
  case cons arg args hi =>
    rw [othersFrom]
    cases h
    case head => simp [hn, hp, hf]
    case tail h =>
      split_ifs
      all_goals simp [hi h]

theorem mem_of_mem_othersFrom {behind : Bool} (h : t ∈ othersFrom flag behind args) : t ∈ args := by
  induction args generalizing behind
  case nil => cases h
  case cons arg args hi =>
    rw [othersFrom] at h
    split_ifs at h
    case pos => exact .tail _ (hi h)
    case pos => exact .tail _ (hi h)
    case neg => exact List.mem_cons.mpr ((List.mem_cons.mp h).imp_right hi)

theorem othersFrom_sublist : ∀ {args}, (othersFrom flag true args).Sublist (othersFrom flag false args)
  | []          => .slnil
  | arg :: args => by
    rw [othersFrom, othersFrom]
    split_ifs
    all_goals simp_all

-- The argument behind a flag that is a value, or the flag once more, is no other argument.
theorem withoutFlag_value (h : ¬(isFlag t = true ∧ hasArg [t] flag = false)) :
    (withoutFlag flag (flag :: t :: after)).Sublist (withoutFlag flag after) := by
  rw [withoutFlag, othersFrom, if_pos rfl, othersFrom, withoutFlag]
  split_ifs with hn hp
  case pos => exact othersFrom_sublist
  case pos => exact .refl _
  case neg =>
    simp only [not_or, not_and, Bool.not_eq_true', Bool.not_eq_false] at hp
    exact absurd ⟨hp.2 trivial, hasArg_cons.mpr ⟨hn, Bool.eq_false_iff.mpr hp.1, rfl⟩⟩ h

section Upserted

variable (hf : isFlag flag = true) (hv : isFlag value = false)

include hf hv

theorem hasArg_value : hasArg [value] flag = false := by
  refine hasArg_cons.mpr ⟨fun he => ?_, Bool.eq_false_iff.mpr fun hp => ?_, rfl⟩
  case refine_1 => simp [he, hf] at hv
  case refine_2 =>
    obtain ⟨rest, rfl⟩ := GoString.hasPrefix_iff.mp hp
    rw [List.append_assoc, isFlag_append_of hf] at hv
    cases hv

theorem lastGiven_pair : lastGiven flag (flag :: value :: args) = (lastGiven flag args).or (some (some value)) := by
  have ⟨hn, hp, _⟩ := hasArg_cons.mp (hasArg_value hf hv)
  simp [lastGiven, valueAt, hn, hp, hv]

theorem withoutFlag_pair : withoutFlag flag (flag :: value :: args) = withoutFlag flag args := by
  have ⟨hn, hp, _⟩ := hasArg_cons.mp (hasArg_value hf hv)
  simp [withoutFlag, othersFrom, hn, hp, hv]

theorem lastGiven_upsertArgPair_iff :
    lastGiven flag (upsertArgPair flag value args) = some (some value) ↔
      lastGiven flag (behindFirst flag args) ∈ [none, some (some value)] := by
  have hp {args} : lastGiven flag (flag :: value :: args) = some (some value) ↔
      lastGiven flag args ∈ [none, some (some value)] := by
    rw [lastGiven_pair hf hv]
    cases lastGiven flag args <;> simp
  induction args
  case nil => exact hp
  case cons arg args hi =>
    rw [upsertArgPair, behindFirst]
    split_ifs with hn he
    case pos => exact hn ▸ hp
    case pos => exact hp
    case neg => simpa [lastGiven, hn, he] using hi

end Upserted

-- Where a flag occurs first.
inductive Occurs (flag : GoString) : List GoString → Prop
  | absent (args : List GoString) (h : hasArg args flag = false) : Occurs flag args
  | assigned (before : List GoString) (arg : GoString) (after : List GoString) (h : hasArg before flag = false)
      (hn : arg ≠ flag) (ha : arg.hasPrefix (flag ++ utf8 "=") = true) : Occurs flag (before ++ arg :: after)
  | last (before : List GoString) (h : hasArg before flag = false) : Occurs flag (before ++ [flag])
  | bare (before : List GoString) (t : GoString) (after : List GoString) (h : hasArg before flag = false) :
      Occurs flag (before ++ flag :: t :: after)

theorem occurs (flag : GoString) (args : List GoString) : Occurs flag args := by
  induction args
  case nil => exact .absent [] rfl
  case cons arg args hi =>
    by_cases hn : arg = flag
    case pos =>
      cases args
      case nil => exact hn ▸ .last [] rfl
      case cons t after => exact hn ▸ .bare [] t after rfl
    case neg =>
      cases hp : arg.hasPrefix (flag ++ utf8 "=")
      case true => exact .assigned [] arg args rfl hn hp
      case false =>
        have hb {before} (h : hasArg before flag = false) : hasArg (arg :: before) flag = false :=
          hasArg_cons.mpr ⟨hn, hp, h⟩
        cases hi
        case absent h => exact .absent _ (hb h)
        case assigned before x after h hn ha => exact .assigned (arg :: before) x after (hb h) hn ha
        case last before h => exact .last (arg :: before) (hb h)
        case bare before t after h => exact .bare (arg :: before) t after (hb h)

theorem upsertArgPair_of_not_hasArg (h : hasArg before flag = false) :
    upsertArgPair flag value (before ++ args) = before ++ upsertArgPair flag value args := by
  induction before
  case nil => rfl
  case cons arg before hi =>
    have ⟨hn, hp, h⟩ := hasArg_cons.mp h
    simp [upsertArgPair, hn, hp, hi h]

theorem first_unique {x y : GoString} (hb : hasArg before flag = false) (hb' : hasArg args flag = false)
    (hx : ¬hasArg [x] flag = false) (hy : ¬hasArg [y] flag = false)
    (h : before ++ x :: after = args ++ y :: args') : before = args ∧ x = y ∧ after = args' := by
  induction before generalizing args
  case nil =>
    cases args
    case nil => simpa using h
    case cons z args =>
      cases h
      exact absurd (hasArg_cons_iff.mp hb').1 hx
  case cons z before hi =>
    cases args
    case nil =>
      cases h
      exact absurd (hasArg_cons_iff.mp hb).1 hy
    case cons z' args =>
      rw [List.cons_append, List.cons_append, List.cons.injEq] at h
      obtain ⟨rfl, h⟩ := h
      have ⟨he, hxy, ha⟩ := hi (hasArg_cons_iff.mp hb).2 (hasArg_cons_iff.mp hb').2 h
      exact ⟨by rw [he], hxy, ha⟩

end Reading

section Entries

open Flags

variable {f : Flag} {v : Value}

theorem key_ne_of_texts (ts : List Token) (h : hasArg (texts ts) f.text = false) :
    ∀ e ∈ parse ts, e.key ≠ f.text := by
  fun_induction parse ts
  case case1 => simp
  case case2 w ts hi =>
    obtain ⟨_, _, h⟩ := hasArg_cons.mp h
    exact List.forall_mem_cons.mpr ⟨fun he => f.text_ne_nil he.symm, hi h⟩
  case case3 g w ts hi =>
    obtain ⟨_, hp, h⟩ := hasArg_cons.mp h
    refine List.forall_mem_cons.mpr ⟨fun he => ?_, hi h⟩
    have hf : GoString.hasPrefix (Token.assigned g w).text (f.text ++ utf8 "=") = true := by
      rw [GoString.hasPrefix_iff, GoString.utf8_equals, ← he]
      exact ⟨w, by simp [Token.text]⟩
    cases hp.symm.trans hf
  case case4 g w ts hi =>
    obtain ⟨hn, _, h⟩ := hasArg_cons.mp h
    obtain ⟨_, _, h⟩ := hasArg_cons.mp h
    exact List.forall_mem_cons.mpr ⟨hn, hi h⟩
  case case5 g ts _ hi =>
    obtain ⟨hn, _, h⟩ := hasArg_cons.mp h
    exact List.forall_mem_cons.mpr ⟨hn, hi h⟩

theorem key_ne_of_not_hasArg (h : hasArg args f.text = false) : ∀ e ∈ entries args, e.key ≠ f.text :=
  key_ne_of_texts (tokens args) (by rwa [texts_tokens])

theorem Given.filter_entries (h : Given f.text v.text args) :
    (Flags.entries args).filter (·.key = f.text) = [.pair f v] := by
  have ⟨before, after, ha, hb, hf⟩ := h
  have hn {args} (h : hasArg args f.text = false) : (Flags.entries args).filter (·.key = f.text) = [] :=
    List.filter_eq_nil_iff.mpr fun e he => by simpa using key_ne_of_not_hasArg h e he
  rw [ha, entries_append f.dash, entries_pair]
  simp [hn hb, hn hf]

end Entries

end Occurrences

namespace Engine

variable {e : Engine} {cache : CacheBackend}

theorem isFlag_kvTransferConfig : Flags.isFlag (vllmMPKVTransferConfigJSONForHost role host port) = false := by
  simp only [vllmMPKVTransferConfigJSONForHost, List.append_assoc]
  rw [Flags.isFlag_append_of_ne_nil]
  all_goals decide +kernel

-- How the flags and the values are spelled that are wired.
theorem vllm_spelled :
    (Flags.isFlag defaultEngineKVTransferConfigArg = true ∧ 0x3d ∉ defaultEngineKVTransferConfigArg) ∧
    Apart defaultEngineKVTransferConfigArg [vllmDisableHybridKVCacheArg] := by
  decide +kernel

theorem sglang_spelled :
    (Flags.isFlag sglangConfigFileArg = true ∧ 0x3d ∉ sglangConfigFileArg) ∧
    (Apart sglangConfigFileArg [sglangEnableLMCacheArg] ∧ Apart sglangConfigFileArg [sglangEnableMetricsArg]) ∧
    (Flags.isFlag lmCacheMPConfigFilePath = false ∧ Flags.isFlag lmCacheNodeLocalConfigFilePath = false) ∧
    sglangEnableLMCacheArg ≠ sglangEnableMetricsArg := by
  decide +kernel

theorem isFlag_pairValue : Flags.isFlag (e.pairValue cache) = false := by
  cases e
  case vllm =>
    rw [pairValue]
    split
    case h_1 => exact isFlag_kvTransferConfig
    case h_2 => exact isFlag_kvTransferConfig
    case h_3 => exact Flags.isFlag_nil
  case sglang =>
    rw [pairValue]
    split
    case h_1 => exact sglang_spelled.2.2.1.1
    case h_2 => exact sglang_spelled.2.2.1.2
    case h_3 => exact Flags.isFlag_nil

def flag : Engine → Flags.Flag
  | vllm     => ⟨defaultEngineKVTransferConfigArg, vllm_spelled.1.1, vllm_spelled.1.2⟩
  | sglang _ => ⟨sglangConfigFileArg, sglang_spelled.1.1, sglang_spelled.1.2⟩

def value (cache : CacheBackend) (e : Engine) : Flags.Value :=
  ⟨e.pairValue cache, isFlag_pairValue⟩

theorem given_wireArgs (h : OneValue vllm.pairFlag args) :
    Given vllm.pairFlag (vllm.pairValue cache) (vllm.wireArgs cache args) :=
  (given_upsertArgPair h).upsertFlag (vllm_spelled.2 _ (.head _)).2

theorem oneValue_of_validateVLLMArgs (h : validateVLLMArgs lib args = .ok ()) :
    OneValue defaultEngineKVTransferConfigArg args := by
  simp only [validateVLLMArgs, Except.bind_eq_ok] at h
  obtain ⟨_, _, _, _, _, _, _, _, _, _, h⟩ := h
  split at h
  case h_1 => cases h
  case h_2 =>
    obtain ⟨_, _, h⟩ := Except.bind_eq_ok.mp h
    split at h
    case isTrue => cases h
    case isFalse hn => simpa [OneValue] using hn

theorem oneValue_of_validate {pod : PodSpec} (h : vllm.validateMPEnginePod lib pod cache = .ok ())
    (hi : engineContainerIndexNamed lib pod vllm.containerName = .ok i) :
    OneValue vllm.pairFlag (PodSpec.args pod i) := by
  simp only [validateMPEnginePod, VLLM.validateMPEnginePod, Except.bind_eq_ok] at h
  obtain ⟨_, _, j, hj, h⟩ := h
  cases hi.symm.trans hj
  exact oneValue_of_validateVLLMArgs h

section Env

variable {env : List EnvVar}

theorem wireEnv_eq : e.wireEnv cache env = (e.movedEnv cache).foldl (Keyed.move EnvVar.name)
    ((e.replacedEnv cache).foldl (fun env want => upsertEnv want env) env) := by
  cases e <;> cases h : usesNodeIP cache <;> simp [wireEnv, replacedEnv, movedEnv, h] <;> rfl

theorem setEnv_pairwise (cache : CacheBackend) (e : Engine) :
    (e.replacedEnv cache ++ e.movedEnv cache).Pairwise (·.name ≠ ·.name) := by
  cases e <;> cases h : usesNodeIP cache <;>
    simp [replacedEnv, movedEnv, h, nodeIPEnv, EnvVar.ofValue, EnvVar.ofField] <;>
    decide +kernel

theorem last_wireEnv_iff (hw : want ∈ e.replacedEnv cache) :
    Keyed.last EnvVar.name want.name (e.wireEnv cache env) = some want ↔
      Keyed.Settled EnvVar.name want env := by
  have ⟨hr, _, hd⟩ := List.pairwise_append.mp (setEnv_pairwise cache e)
  rw [wireEnv_eq, Keyed.last_foldl_of_ne (fun _ _ => Keyed.last_move_of_ne) fun m h => (hd want hw m h).symm]
  exact Keyed.last_foldl_upsert_iff hr hw

theorem last_wireEnv_of_moved (hw : want ∈ e.movedEnv cache) :
    Keyed.last EnvVar.name want.name (e.wireEnv cache env) = some want := by
  have ⟨_, hm, _⟩ := List.pairwise_append.mp (setEnv_pairwise cache e)
  rw [wireEnv_eq, Keyed.last_foldl_move hm hw]

end Env

section Toggles

-- The flags without a value that are added before the other one, and those that are added after it.
def early : Engine → List GoString
  | vllm     => []
  | sglang _ => [sglangEnableLMCacheArg]

def late (cache : CacheBackend) : Engine → List GoString
  | vllm         => [vllmDisableHybridKVCacheArg]
  | sglang image =>
    if image = [] ∨ cache.spec.rest.effectiveObservationModelID = [] then [] else [sglangEnableMetricsArg]

def paired (cache : CacheBackend) (args : List GoString) (e : Engine) : List GoString :=
  upsertArgPair e.pairFlag (e.pairValue cache) (args ++ missing e.early args)

theorem wireArgs_eq : e.wireArgs cache args =
    e.paired cache args ++ missing (e.late cache) (e.paired cache args) := by
  cases e
  case vllm => simp [wireArgs, paired, early, late, missing, upsertFlag_eq, pairFlag]
  case sglang image =>
    simp only [wireArgs, paired, early, late, upsertFlag_eq, pairFlag]
    split <;> simp [missing]

theorem apart_early : Apart e.pairFlag e.early := by
  cases e
  case vllm => simp [Apart, early]
  case sglang => exact sglang_spelled.2.1.1

theorem apart_late : Apart e.pairFlag (e.late cache) := by
  cases e
  case vllm => exact vllm_spelled.2
  case sglang =>
    rw [late]
    split
    case isTrue => simp [Apart]
    case isFalse => exact sglang_spelled.2.1.2

theorem length_late : (e.late cache).length ≤ 1 := by
  cases e
  case vllm => simp [late]
  case sglang => simp only [late]; split <;> simp

theorem isFlag_pairFlag : Flags.isFlag e.pairFlag = true := by
  cases e
  case vllm => exact vllm_spelled.1.1
  case sglang => exact sglang_spelled.1.1

theorem lastGiven_wireArgs_iff :
    lastGiven e.pairFlag (e.wireArgs cache args) = some (some (e.pairValue cache)) ↔
      lastGiven e.pairFlag (behindFirst e.pairFlag args) ∈ [none, some (some (e.pairValue cache))] := by
  rw [wireArgs_eq, lastGiven_append apart_late.missing, paired,
    lastGiven_upsertArgPair_iff isFlag_pairFlag isFlag_pairValue,
    lastGiven_behindFirst_append apart_early.missing]

-- Another flag that the adapter overwrites, since it is taken for the value of the flag before it. If it is
-- added again at the end, nothing may be behind it.
def Overwrites (cache : CacheBackend) (args : List GoString) (e : Engine) : Prop :=
  ∃ before t after, args = before ++ e.pairFlag :: t :: after ∧ hasArg before e.pairFlag = false ∧
    Flags.isFlag t = true ∧ hasArg [t] e.pairFlag = false ∧
      ¬(t ∈ e.late cache ∧ t ∉ before ∧ withoutFlag e.pairFlag after = [])

theorem cons_sublist_iff {l pre post : List GoString} (hp : t ∉ pre) (hl : post.length ≤ 1)
    (hd : ∀ x ∈ post, x ∉ l) : (t :: l).Sublist (l ++ pre ++ post) ↔ t ∈ post ∧ l = [] := by
  constructor
  case mpr =>
    rintro ⟨ht, rfl⟩
    exact List.singleton_sublist.mpr (List.mem_append_right _ ht)
  case mp =>
    intro h
    have hc := h.count_le t
    simp only [List.count_cons_self, List.count_append, List.count_eq_zero_of_not_mem hp] at hc
    have ht : t ∈ post := List.count_pos_iff.mp (by omega)
    obtain ⟨l₁, l₂, he, h₁, h₂⟩ := List.sublist_append_iff.mp h
    refine ⟨ht, ?_⟩
    cases l₁
    case nil =>
      rw [List.nil_append] at he
      have hn := h₂.length_le
      rw [← he, List.length_cons] at hn
      exact List.length_eq_zero_iff.mp (by omega)
    case cons x l₁ =>
      cases he
      cases List.mem_append.mp (h₁.subset (.head _))
      case inl hm => exact absurd hm (hd t ht)
      case inr hm => exact absurd hm hp

theorem overwrites_iff {x : GoString} {rest : List GoString} (hb : hasArg before e.pairFlag = false)
    (hx : ¬hasArg [x] e.pairFlag = false) : e.Overwrites cache (before ++ x :: rest) ↔
      x = e.pairFlag ∧ ∃ t after, rest = t :: after ∧ Flags.isFlag t = true ∧ hasArg [t] e.pairFlag = false ∧
        ¬(t ∈ e.late cache ∧ t ∉ before ∧ withoutFlag e.pairFlag after = []) := by
  constructor
  case mp =>
    rintro ⟨before', t, after, he, hb', ht⟩
    obtain ⟨rfl, rfl, rfl⟩ := first_unique hb hb' hx (by simp [hasArg]) he
    exact ⟨rfl, t, after, rfl, ht⟩
  case mpr =>
    rintro ⟨rfl, t, after, rfl, ht⟩
    exact ⟨before, t, after, rfl, hb, ht⟩

theorem withoutFlag_wireArgs_iff :
    (withoutFlag e.pairFlag args).Sublist (withoutFlag e.pairFlag (e.wireArgs cache args)) ↔
      ¬e.Overwrites cache args := by
  have hf : Flags.isFlag e.pairFlag = true := isFlag_pairFlag
  have hv : Flags.isFlag (e.pairValue cache) = false := isFlag_pairValue
  have hp : Apart e.pairFlag (missing e.early args) := apart_early.missing
  have ho {args ts} (h : Apart e.pairFlag ts) :
      withoutFlag e.pairFlag (args ++ ts) = withoutFlag e.pairFlag args ++ ts := othersFrom_append h
  -- What else there is once the flag is set where it occurs first.
  have hs {before after} (hb : hasArg before e.pairFlag = false) :
      withoutFlag e.pairFlag (before ++ e.pairFlag :: e.pairValue cache :: after) =
        before ++ withoutFlag e.pairFlag after := by
    rw [withoutFlag_append hb, withoutFlag_pair hf hv]
  rw [wireArgs_eq, ho apart_late.missing, paired]
  cases occurs e.pairFlag args
  case absent h =>
    have ha : hasArg (args ++ missing e.early args) e.pairFlag = false := hasArg_append.mpr ⟨h, hp.hasArg⟩
    have hw : withoutFlag e.pairFlag (args ++ []) = args ++ [] := withoutFlag_append h
    rw [List.append_nil] at hw
    rw [← List.append_nil (args ++ missing e.early args), upsertArgPair_of_not_hasArg ha, upsertArgPair,
      hs ha, hw, List.append_assoc, List.append_assoc]
    refine iff_of_true (List.sublist_append_left ..) ?_
    rintro ⟨before, t, after, rfl, _⟩
    exact (hasArg_cons.mp (hasArg_append.mp h).2).1 rfl
  case assigned before x after h hn hx =>
    have hg : ¬hasArg [x] e.pairFlag = false := by simp [hasArg, hx]
    have hw : withoutFlag e.pairFlag (x :: after) = withoutFlag e.pairFlag after := by
      simp [withoutFlag, othersFrom, hn, hx]
    rw [List.append_assoc, upsertArgPair_of_not_hasArg h, List.cons_append, upsertArgPair, if_neg hn, if_pos hx,
      hs h, ho hp, withoutFlag_append h, hw, overwrites_iff h hg, List.append_assoc, List.append_assoc]
    refine iff_of_true ?_ fun ho => hn ho.1
    exact (List.append_sublist_append_left before).mpr (List.sublist_append_left ..)
  case last before h =>
    have hg : ¬hasArg [e.pairFlag] e.pairFlag = false := by simp [hasArg]
    have hw : withoutFlag e.pairFlag [e.pairFlag] = [] := by simp [withoutFlag, othersFrom]
    rw [List.append_assoc, upsertArgPair_of_not_hasArg h, List.cons_append, upsertArgPair, if_pos rfl,
      hs h, withoutFlag_append h, hw, overwrites_iff h hg, List.append_nil, List.append_assoc]
    exact iff_of_true (List.sublist_append_left ..) fun ⟨_, _, _, he, _⟩ => by cases he
  case bare before t after h =>
    have hg : ¬hasArg [e.pairFlag] e.pairFlag = false := by simp [hasArg]
    rw [List.append_assoc, upsertArgPair_of_not_hasArg h, List.cons_append, upsertArgPair, if_pos rfl,
      List.cons_append, List.drop_one, List.tail_cons, hs h, ho hp, withoutFlag_append h, overwrites_iff h hg,
      List.append_assoc, List.append_sublist_append_left]
    by_cases ht : Flags.isFlag t = true ∧ hasArg [t] e.pairFlag = false
    case neg =>
      refine iff_of_true ?_ fun ⟨_, _, _, he, hd, hn, _⟩ => by cases he; exact ht ⟨hd, hn⟩
      exact (withoutFlag_value ht).trans (List.append_assoc .. ▸ List.sublist_append_left ..)
    case pos =>
      have ⟨hn, hx, _⟩ := hasArg_cons.mp ht.2
      have hw : withoutFlag e.pairFlag (e.pairFlag :: t :: after) = t :: withoutFlag e.pairFlag after := by
        simp [withoutFlag, othersFrom, hn, hx, ht.1]
      have hm : t ∉ missing e.early (before ++ e.pairFlag :: t :: after) := by simp [missing]
      have hl {args} : (missing (e.late cache) args).length ≤ 1 := (List.length_filter_le ..).trans length_late
      have hd {pre} : ∀ x ∈ missing (e.late cache) (before ++ e.pairFlag :: e.pairValue cache :: (after ++ pre)),
          x ∉ withoutFlag e.pairFlag after := by
        intro x hx hw
        have ha := mem_of_mem_othersFrom hw
        simpa [ha] using of_decide_eq_true (List.mem_filter.mp hx).2
      rw [hw, cons_sublist_iff hm hl hd]
      have hvt : t ≠ e.pairValue cache := fun he => by simp [← he, ht.1] at hv
      have ha (hw : withoutFlag e.pairFlag after = []) : t ∉ after := by
        intro ha
        have hm : t ∈ withoutFlag e.pairFlag after := mem_othersFrom ht.1 ht.2 ha
        simp [hw] at hm
      constructor
      case mp =>
        rintro ⟨hp, hw⟩ ⟨_, _, _, he, _, _, hn⟩
        cases he
        have ⟨hl, hb⟩ := List.mem_filter.mp hp
        exact hn ⟨hl, fun h => of_decide_eq_true hb (List.mem_append_left _ h), hw⟩
      case mpr =>
        intro h
        have ⟨hl, hb, hw⟩ : t ∈ e.late cache ∧ t ∉ before ∧ withoutFlag e.pairFlag after = [] :=
          by_contra fun hn => h ⟨rfl, t, after, rfl, ht.1, ht.2, hn⟩
        refine ⟨List.mem_filter.mpr ⟨hl, decide_eq_true ?_⟩, hw⟩
        simp [hb, hn, hvt, ha hw, hm]

end Toggles

-- The flag and the variables that the adapter sets are what counts, and every other argument is kept.
structure Wins (cache : CacheBackend) (args args' : List GoString) (env' : List EnvVar) (e : Engine) : Prop where
  value  : lastGiven e.pairFlag args' = some (some (e.pairValue cache))
  vars   : ∀ want ∈ e.replacedEnv cache ++ e.movedEnv cache,
    Keyed.last EnvVar.name want.name env' = some want
  others : (withoutFlag e.pairFlag args).Sublist (withoutFlag e.pairFlag args')

-- What is behind the first occurrence of the flag does not give it another value, the flag is not in front
-- of another one, and a variable that is replaced where it is defined first is not defined otherwise.
structure Undisputed (cache : CacheBackend) (args : List GoString) (env : List EnvVar) (e : Engine) :
    Prop where
  value : lastGiven e.pairFlag (behindFirst e.pairFlag args) ∈ [none, some (some (e.pairValue cache))]
  vars  : ∀ want ∈ e.replacedEnv cache, Keyed.Settled EnvVar.name want env
  kept  : ¬e.Overwrites cache args

theorem injected_flags_win (lib : Library) (e : Engine) (pod pod' : PodSpec) (binding : Option Binding)
    (cache : CacheBackend) (i : Nat) (hi : e.injectEngineConfig lib pod binding cache = .ok pod')
    (hx : engineContainerIndexNamed lib pod e.containerName = .ok i) :
    engineContainerIndexNamed lib pod' e.containerName = .ok i ∧
      (e.Wins cache (PodSpec.args pod i) (PodSpec.args pod' i) (PodSpec.env pod' i) ↔
        e.Undisputed cache (PodSpec.args pod i) (PodSpec.env pod i)) := by
  have ⟨j, p, hj, _, hp⟩ := injectEngineConfig_eq_ok.mp hi
  cases hx.symm.trans hj
  have hl := lt_of_engineContainerIndexNamed hx
  subst hp
  refine ⟨index_wired.trans hx, ?_⟩
  rw [args_wired hl, env_wired hl]
  constructor
  case mp =>
    intro h
    exact {
      value := lastGiven_wireArgs_iff.mp h.value
      vars  := fun want hw => (last_wireEnv_iff hw).mp (h.vars want (List.mem_append_left _ hw))
      kept  := withoutFlag_wireArgs_iff.mp h.others }
  case mpr =>
    intro h
    refine ⟨lastGiven_wireArgs_iff.mpr h.value, fun want hw => ?_, withoutFlag_wireArgs_iff.mpr h.kept⟩
    cases List.mem_append.mp hw
    case inl hw => exact (last_wireEnv_iff hw).mpr (h.vars want hw)
    case inr hw => exact last_wireEnv_of_moved hw

section

def engineContainer (name : GoString) (args : List GoString) (env : List EnvVar)
    (mounts : List VolumeMount) : Container where
  name := name
  image := utf8 "engine:1"
  imagePullPolicy := []
  restartPolicy := none
  command := []
  args := args
  env := env
  resources := ⟨∅, ∅, []⟩
  volumeMounts := mounts
  ports := []
  startupProbe := none
  readinessProbe := none
  livenessProbe := none
  securityContext := none

def podLocalEngine : LMCacheEngine where
  topology := .podLocal
  podLocal := some ⟨utf8 "lmcache:1", 5555, .gib 2, 1, ⟨∅, ∅, []⟩⟩
  nodeLocal := none
  chunkSizeTokens := none

def engineBackend (lm : LMCacheEngine) (overrides : Option EngineInjectionOverrides) : CacheBackend where
  key := ⟨utf8 "team", utf8 "cache"⟩
  spec := {
    engineSelector := none
    rest := {
      uid := utf8 "1"
      generation := 1
      runtime := .vllm
      type := .lmCache
      lmCache := some lm
      remoteStorage := none
      observation := none
      integration := some ⟨.offload, .readWrite, none, overrides⟩
      allowCrossNamespace := false
      remoteStorageEndpoint := none
    }
  }

def sglangPod (args : List GoString) : PodSpec where
  containers     := [engineContainer sglangEngineContainerName args [] []]
  initContainers := []
  volumes        := []

def replacedConfig : PodSpec :=
  sglangPod [utf8 "--page-size", utf8 "16", utf8 "--lmcache-config-file=old", utf8 "serve"]

theorem injected_flags_win_config_file :
    ∃ pod', (sglang []).injectEngineConfig .plain replacedConfig none (engineBackend podLocalEngine none) =
        .ok pod' ∧
      lastGiven sglangConfigFileArg (PodSpec.args pod' 0) = some (some lmCacheMPConfigFilePath) := by
  have ⟨pod', hp⟩ := Except.exists_of_isOk (x := (sglang []).injectEngineConfig .plain replacedConfig none
    (engineBackend podLocalEngine none)) (by decide +kernel)
  have hw := (injected_flags_win .plain (sglang []) replacedConfig pod' none (engineBackend podLocalEngine none) 0
    hp (by decide +kernel)).2
  refine ⟨pod', hp, (hw.mpr ⟨by decide +kernel, by decide +kernel, ?_⟩).value⟩
  -- The flag has its value behind a `=`, so that nothing is taken for one.
  have hn : sglangConfigFileArg ∉ PodSpec.args replacedConfig 0 := by decide +kernel
  rintro ⟨before, t, after, he, _⟩
  exact hn (he ▸ by simp [pairFlag])

def twoConfigs : PodSpec :=
  sglangPod [utf8 "--page-size", utf8 "16", sglangConfigFileArg, utf8 "a", sglangConfigFileArg, utf8 "b"]

def parallelPod : PodSpec where
  containers     := [engineContainer engineContainerName
    [defaultEngineKVTransferConfigArg, utf8 "-tp", utf8 "2"] [] []]
  initContainers := []
  volumes        := []

-- The adapter for SGLang does not count how often the flag occurs, and only the first value is replaced.
-- The one for vLLM takes a flag with one dash for a value, and overwrites it.
theorem second_config_file_wins :
    ((sglang []).validateMPEnginePod .plain twoConfigs (engineBackend podLocalEngine none) = .ok () ∧
      ∃ pod', (sglang []).injectEngineConfig .plain twoConfigs none (engineBackend podLocalEngine none) =
          .ok pod' ∧
        lastGiven sglangConfigFileArg (PodSpec.args pod' 0) = some (some (utf8 "b"))) ∧
    vllm.validateMPEnginePod .plain parallelPod (engineBackend podLocalEngine none) = .ok () ∧
      ∃ pod', vllm.injectEngineConfig .plain parallelPod none (engineBackend podLocalEngine none) = .ok pod' ∧
        utf8 "-tp" ∉ PodSpec.args pod' 0 := by
  have hx : engineContainerIndexNamed .plain twoConfigs (sglang []).containerName = .ok 0 ∧
      engineContainerIndexNamed .plain parallelPod vllm.containerName = .ok 0 := by decide +kernel
  have ⟨pod₁, hp₁⟩ := Except.exists_of_isOk (x := (sglang []).injectEngineConfig .plain twoConfigs none
    (engineBackend podLocalEngine none)) (by decide +kernel)
  have ⟨pod₂, hp₂⟩ := Except.exists_of_isOk (x := vllm.injectEngineConfig .plain parallelPod none
    (engineBackend podLocalEngine none)) (by decide +kernel)
  refine ⟨⟨by decide +kernel, pod₁, hp₁, ?_⟩, by decide +kernel, pod₂, hp₂, ?_⟩
  case refine_1 =>
    have ⟨i, p, hi, _, he⟩ := injectEngineConfig_eq_ok.mp hp₁
    cases hx.1.symm.trans hi
    rw [he, args_wired (by decide)]
    decide +kernel
  case refine_2 =>
    have ⟨i, p, hi, _, he⟩ := injectEngineConfig_eq_ok.mp hp₂
    cases hx.2.symm.trans hi
    rw [he, args_wired (by decide)]
    decide +kernel

end

end Engine

end InferenceCache.Adapters
