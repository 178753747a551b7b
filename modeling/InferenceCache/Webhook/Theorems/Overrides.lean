import InferenceCache.Webhook.Overrides

namespace InferenceCache.Webhook

open Kube Api Flags

section Tokens

@[simp]
theorem argFlagToken_bare : argFlagToken (Token.bare f).text = f.text := by
  have hf : GoString.hasPrefix f.text (utf8 "-") = true := f.dash
  simp [argFlagToken, Token.text, hf, GoString.cut_eq_none.mpr f.noEquals]

@[simp]
theorem argFlagToken_assigned : argFlagToken (Token.assigned f v).text = f.text := by
  have hf : GoString.hasPrefix (f.text ++ 0x3d :: v) (utf8 "-") = true := isFlag_append_of f.dash
  simp [argFlagToken, Token.text, hf, GoString.cut_append f.noEquals]

@[simp]
theorem argFlagToken_value : argFlagToken (Token.value v).text = [] := by
  have hf : GoString.hasPrefix v.text (utf8 "-") = false := v.noDash
  simp [argFlagToken, Token.text, hf]

@[simp]
theorem takesNext_value : takesNext (Token.bare f).text (some (Token.value v).text) = true := by
  have hf : GoString.hasPrefix v.text (utf8 "-") = false := v.noDash
  simp [takesNext, Token.text, hf, f.noEquals]

@[simp]
theorem takesNext_assigned : takesNext (Token.assigned f v).text next = false := by
  simp [takesNext, Token.text]

theorem takesNext_head {ts : List Token} (h : ∀ v ts', ts ≠ .value v :: ts') :
    takesNext arg (texts ts).head? = false := by
  cases ts
  case nil => simp [takesNext, texts]
  case cons t ts =>
    cases t
    case value v => exact absurd rfl (h v ts)
    case bare f =>
      have hf : GoString.hasPrefix f.text (utf8 "-") = true := f.dash
      simp [takesNext, texts, Token.text, hf]
    case assigned f v =>
      have hf : GoString.hasPrefix (f.text ++ 0x3d :: v) (utf8 "-") = true := isFlag_append_of f.dash
      simp [takesNext, texts, Token.text, hf]

end Tokens

section Merge

-- The merge on entries instead of arguments.
def suppressEntries (drop : GoString → Bool) (es : List Entry) : List Entry :=
  es.filter fun e => ¬(e.key ≠ [] ∧ drop e.key)

def overrideEntry (owners : Owners) (es : List Entry) (e : Entry) : List Entry :=
  if e.key = [] then es ++ [e] else override Entry.key owners es e

theorem suppressEntries_cons : suppressEntries drop (e :: es) =
    if e.key ≠ [] ∧ drop e.key then suppressEntries drop es else e :: suppressEntries drop es := by
  simp only [suppressEntries, List.filter_cons, decide_not, Bool.not_eq_true', decide_eq_false_iff_not]
  split_ifs <;> rfl

theorem suppressArgs_texts (drop : GoString → Bool) (ts : List Token) :
    suppressArgs false drop (texts ts) = argsOf (suppressEntries drop (parse ts)) := by
  fun_induction parse ts
  case case1 => rfl
  case case2 v ts hi => simp [suppressArgs, suppressEntries_cons, hi]
  case case3 f v ts hi =>
    by_cases hd : drop f.text <;>
      simp [suppressArgs, suppressEntries_cons, hi, hd, f.text_ne_nil]
  case case4 f v ts hi =>
    by_cases hd : drop f.text <;>
      simp [suppressArgs, suppressEntries_cons, hi, hd, f.text_ne_nil]
  case case5 f ts hn hi =>
    by_cases hd : drop f.text <;>
      simp [suppressArgs, suppressEntries_cons, takesNext_head hn, hi, hd, f.text_ne_nil]

theorem suppressArgs_eq : suppressArgs false drop args = argsOf (suppressEntries drop (entries args)) := by
  have h := suppressArgs_texts drop (tokens args)
  rwa [texts_tokens] at h

theorem replaceArgFlag_texts (hk : e.key ≠ []) (ts : List Token) :
    replaceArgFlag e.key (texts e.render) (texts ts) = argsOf (Keyed.upsert Entry.key e (parse ts)) := by
  fun_induction parse ts
  case case1 => simp [replaceArgFlag, Keyed.upsert]
  case case2 v ts hi =>
    simp [replaceArgFlag, Keyed.upsert, hk.symm, hi]
  case case3 f v ts hi =>
    by_cases hf : f.text = e.key
    case pos => simp [replaceArgFlag, Keyed.upsert, hf]
    case neg => simp [replaceArgFlag, Keyed.upsert, hf, hi]
  case case4 f v ts hi =>
    by_cases hf : f.text = e.key
    case pos => simp [replaceArgFlag, Keyed.upsert, hf]
    case neg => simp [replaceArgFlag, Keyed.upsert, hf, hk.symm, hi]
  case case5 f ts hn hi =>
    by_cases hf : f.text = e.key
    case pos => simp [replaceArgFlag, Keyed.upsert, hf, takesNext_head hn]
    case neg => simp [replaceArgFlag, Keyed.upsert, hf, hi]

theorem replaceArgFlag_eq (hk : e.key ≠ []) :
    replaceArgFlag e.key (texts e.render) args = argsOf (Keyed.upsert Entry.key e (entries args)) := by
  have h := replaceArgFlag_texts hk (tokens args)
  rwa [texts_tokens] at h

theorem overrideArg_eq :
    overrideArg owners args e.key (texts e.render) = argsOf (overrideEntry owners (entries args) e) := by
  unfold overrideArg overrideEntry override
  split_ifs with hk ha hu
  case pos => simp
  case pos => exact replaceArgFlag_eq hk
  case pos => simp
  case neg => simp

theorem overrideArgs_texts (owners : Owners) (args : List GoString) (ts : List Token) :
    overrideArgs false owners args (texts ts) =
      (parse ts).foldl (fun args e => argsOf (overrideEntry owners (entries args) e)) args := by
  fun_induction parse ts generalizing args
  case case1 => rfl
  case case2 v ts hi =>
    rw [List.foldl_cons, ← overrideArg_eq, ← hi]
    simp [overrideArgs]
  case case3 f v ts hi =>
    rw [List.foldl_cons, ← overrideArg_eq, ← hi]
    simp [overrideArgs]
  case case4 f v ts hi =>
    rw [List.foldl_cons, ← overrideArg_eq, ← hi]
    simp [overrideArgs, f.text_ne_nil]
  case case5 f ts hn hi =>
    rw [List.foldl_cons, ← overrideArg_eq, ← hi]
    simp [overrideArgs, takesNext_head hn]

theorem overrideArgs_eq : overrideArgs false owners args ovs =
    (entries ovs).foldl (fun args e => argsOf (overrideEntry owners (entries args) e)) args := by
  have h := overrideArgs_texts owners args (tokens ovs)
  rwa [texts_tokens] at h

def mergeStages (pre post : List GoString) (overrides : EngineInjectionOverrides) : List (List Entry) :=
  let owners := classifyArgFlags pre post
  List.scanl (overrideEntry owners)
    (suppressEntries (owners.drop overrides.suppressArgs) (entries post)) (entries overrides.args)

def mergeEntries (pre post : List GoString) (overrides : EngineInjectionOverrides) : List Entry :=
  let owners := classifyArgFlags pre post
  (entries overrides.args).foldl (overrideEntry owners)
    (suppressEntries (owners.drop overrides.suppressArgs) (entries post))

theorem foldl_of_separated {ovs : List Entry}
    (h : ∀ es' ∈ List.scanl (overrideEntry owners) es ovs, Separated es') :
    ovs.foldl (fun args e => argsOf (overrideEntry owners (entries args) e)) (argsOf es) =
      argsOf (ovs.foldl (overrideEntry owners) es) := by
  induction ovs generalizing es
  case nil => rfl
  case cons e ovs hi =>
    simp only [List.scanl_cons, List.forall_mem_cons] at h
    rw [List.foldl_cons, List.foldl_cons, entries_argsOf h.left, hi h.right]

theorem mergeArgs_eq (h : ∀ es ∈ mergeStages pre post overrides, Separated es) :
    mergeArgs pre post overrides = argsOf (mergeEntries pre post overrides) := by
  rw [mergeArgs, overrideArgs_eq, suppressArgs_eq]
  exact foldl_of_separated h

theorem separated_mergeEntries (h : ∀ es ∈ mergeStages pre post overrides, Separated es) :
    Separated (mergeEntries pre post overrides) :=
  h _ (List.mem_of_getLast? List.getLast?_scanl)

end Merge

section Values

-- The value that counts, which is the last one.
def valueOf (k : GoString) (es : List Entry) : Option GoString :=
  (es.filter (·.key = k)).getLast?.map Entry.value

theorem valueOf_cons : valueOf k (e :: es) =
    (valueOf k es).or (if e.key = k then some e.value else none) := by
  by_cases h : e.key = k
  case neg => simp [valueOf, h]
  case pos => cases hl : (es.filter (·.key = k)).getLast? <;> simp_all [valueOf, List.getLast?_cons]

-- What a flag was given before only counts if it does not occur.
theorem or_lookup_insert {out : GoMap GoString GoString} {o : Option GoString} :
    o.or ((out.insert f v).lookup k) = (o.or (if f = k then some v else none)).or (out.lookup k) := by
  rw [Finmap.lookup_insert_ite, Option.or_assoc]
  by_cases h : f = k
  case pos => simp [h]
  case neg => simp [h, Ne.symm h]

theorem lookup_argsByFlag_texts (hk : k ≠ []) (out : GoMap GoString GoString) (ts : List Token) :
    (argsByFlag false out (texts ts)).lookup k = (valueOf k (parse ts)).or (out.lookup k) := by
  fun_induction parse ts generalizing out
  case case1 => rfl
  case case2 v ts hi => simp [argsByFlag, hi, valueOf_cons, hk.symm]
  case case3 f v ts hi =>
    have hd : List.drop (f.text.length + 1) (Token.assigned f v).text = v := by simp [Token.text]
    have he : 0x3d ∈ (Token.assigned f v).text := by simp [Token.text]
    rw [valueOf_cons, ← or_lookup_insert, ← hi]
    simp [argsByFlag, f.text_ne_nil, hd, he, Entry.value]
  case case4 f v ts hi =>
    have he : 0x3d ∉ (Token.bare f).text := f.noEquals
    have hv : (Entry.pair f v).value = (Token.value v).text := rfl
    rw [valueOf_cons, ← or_lookup_insert, ← hi]
    simp [argsByFlag, f.text_ne_nil, he, hv]
  case case5 f ts hn hi =>
    have he : 0x3d ∉ (Token.bare f).text := f.noEquals
    rw [valueOf_cons, ← or_lookup_insert, ← hi]
    simp [argsByFlag, f.text_ne_nil, he, takesNext_head hn, Entry.value]

theorem lookup_argsByFlag (hk : k ≠ []) :
    (argsByFlag false ∅ args).lookup k = valueOf k (entries args) := by
  have h := lookup_argsByFlag_texts hk ∅ (tokens args)
  rwa [texts_tokens, Finmap.lookup_empty, Option.or_none] at h

theorem lookup_nil_argsByFlag : (argsByFlag skip out args).lookup [] = out.lookup [] := by
  induction args generalizing skip out
  case nil => rfl
  case cons arg args hi =>
    rw [argsByFlag]
    split
    case isTrue => exact hi
    case isFalse =>
      split
      case isTrue => exact hi
      case isFalse ht =>
        have hn (v : GoString) : (out.insert (argFlagToken arg) v).lookup [] = out.lookup [] := by
          rw [Finmap.lookup_insert_ite, if_neg (Ne.symm ht)]
        split_ifs <;> rw [hi, hn]

theorem ne_nil_of_lookup (h : (argsByFlag false ∅ args).lookup k = some v) : k ≠ [] := by
  rintro rfl
  simp [lookup_nil_argsByFlag] at h

end Values

section Frame

variable {owners : Owners}

theorem filter_override {key : α → GoString} (ha : owners.adapter k = false) (hu : owners.user k = true) :
    (override key owners l x).filter (key · = k) = l.filter (key · = k) := by
  unfold override
  split_ifs with hx hx'
  case pos => exact Keyed.filter_upsert_of_ne fun he => by simp [he, ha] at hx
  case pos => rfl
  case neg =>
    have hn : key x ≠ k := fun he => by simp [he, hu] at hx'
    simp [hn]

theorem filter_foldl_override {key : α → GoString} {l xs : List α} (ha : owners.adapter k = false)
    (hu : owners.user k = true) : (xs.foldl (override key owners) l).filter (key · = k) =
      l.filter (key · = k) := by
  induction xs generalizing l
  case nil => rfl
  case cons x xs hi => rw [List.foldl_cons, hi, filter_override ha hu]

theorem filter_suppressEnv (h : drop name = false) :
    (suppressEnv drop env).filter (·.name = name) = env.filter (·.name = name) := by
  rw [suppressEnv, List.filter_filter]
  apply List.filter_congr
  intro e _
  by_cases he : e.name = name <;> simp [he, h]

theorem filter_mergeEnv (hu : (classifyEnvNames pre post).user name = true) :
    (mergeEnv pre post overrides).filter (·.name = name) = post.filter (·.name = name) := by
  have ha : (classifyEnvNames pre post).adapter name = false := by
    simp only [classifyEnvNames, classify, decide_eq_true_eq] at hu ⊢
    simpa using hu.right
  rw [mergeEnv, overrideEnv, filter_foldl_override ha hu, filter_suppressEnv (by simp [Owners.drop, ha])]

theorem filter_suppressEntries (hd : k ≠ [] → drop k = false) :
    (suppressEntries drop es).filter (·.key = k) = es.filter (·.key = k) := by
  rw [suppressEntries, List.filter_filter]
  apply List.filter_congr
  intro e _
  by_cases he : e.key = k
  case neg => simp [he]
  case pos =>
    by_cases hk : k = []
    case pos => simp [he, hk]
    case neg => simp [he, hd hk]

theorem filter_overrideEntry (ha : owners.adapter k = false) (hu : owners.user k = true) (hk : k ≠ []) :
    (overrideEntry owners es e).filter (·.key = k) = es.filter (·.key = k) := by
  unfold overrideEntry
  split
  case isTrue he => simp [he, hk.symm]
  case isFalse => exact filter_override ha hu

theorem filter_mergeEntries (ha : (classifyArgFlags pre post).adapter k = false)
    (hu : (classifyArgFlags pre post).user k = true) (hk : k ≠ []) :
    (mergeEntries pre post overrides).filter (·.key = k) = (entries post).filter (·.key = k) := by
  have hf (ovs es : List Entry) : (ovs.foldl (overrideEntry (classifyArgFlags pre post)) es).filter
      (·.key = k) = es.filter (·.key = k) := by
    induction ovs generalizing es
    case nil => rfl
    case cons e ovs hi => rw [List.foldl_cons, hi, filter_overrideEntry ha hu hk]
  rw [mergeEntries, hf, filter_suppressEntries fun _ => by simp [Owners.drop, ha]]

-- Positional arguments are only added.
theorem positionals_overrideEntry {es : List Entry} :
    (es.filter (·.key = [])).Sublist ((overrideEntry owners es e).filter (·.key = [])) := by
  unfold overrideEntry override
  split_ifs with he
  case pos => simp
  case pos => rw [Keyed.filter_upsert_of_ne he]
  case pos => rfl
  case neg => simp

theorem positionals_mergeEntries : ((entries post).filter (·.key = [])).Sublist
    ((mergeEntries pre post overrides).filter (·.key = [])) := by
  have hf (ovs es : List Entry) : (es.filter (·.key = [])).Sublist
      ((ovs.foldl (overrideEntry (classifyArgFlags pre post)) es).filter (·.key = [])) := by
    induction ovs generalizing es
    case nil => exact .refl _
    case cons e ovs hi => exact positionals_overrideEntry.trans (hi _)
  have hs := hf (entries overrides.args)
    (suppressEntries ((classifyArgFlags pre post).drop overrides.suppressArgs) (entries post))
  rwa [filter_suppressEntries (absurd rfl)] at hs

end Frame

def positionals (args : List GoString) : List Entry :=
  (entries args).filter (·.key = [])

section

def templateArgs : List GoString :=
  [utf8 "serve", utf8 "--eager", utf8 "--seed", utf8 "7"]

def injectedArgs : List GoString :=
  templateArgs ++ [utf8 "--kv", utf8 "on"]

def replaceSeedAndKV : EngineInjectionOverrides where
  args         := [utf8 "--seed", utf8 "8", utf8 "--level=3"]
  suppressArgs := [utf8 "--kv", utf8 "--eager"]
  env := [.ofValue (utf8 "LOG") (utf8 "1")]
  suppressEnv := []

end

end InferenceCache.Webhook
