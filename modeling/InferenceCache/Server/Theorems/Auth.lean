import InferenceCache.Server.Auth

namespace InferenceCache.Auth

section Cache

variable {a : Authenticator} {cache cache' : Cache} {order : RangeOrder GoString} {orders : PutOrders}
variable {now exp : Time} {hash k : GoString}

def Cache.Within (cache' cache : Cache) : Prop :=
  ∀ k exp, cache'.lookup k = some exp → cache.lookup k = some exp

namespace Cache.Within

theorem refl : Within cache cache :=
  fun _ _ h => h

theorem trans {c₁ c₂ c₃ : Cache} (h₁ : Within c₁ c₂) (h₂ : Within c₂ c₃) : Within c₁ c₃ :=
  fun k exp h => h₂ k exp (h₁ k exp h)

theorem erase : Within (Finmap.erase hash cache) cache := by
  intro k exp h
  rw [Finmap.lookup_erase_ite] at h
  split at h
  case isTrue => cases h
  case isFalse => exact h

theorem len_le (h : Within cache' cache) : cache'.len ≤ cache.len := by
  apply Finset.card_le_card
  intro k hk
  have ⟨exp, he⟩ := Option.isSome_iff_exists.mp (Finmap.mem_keys_iff.mp hk)
  exact Finmap.mem_keys_of_lookup (h k exp he)

end Cache.Within

theorem cacheHit_within : Cache.Within (cacheHit cache now hash).2 cache := by
  unfold cacheHit
  split
  case h_1 => exact .refl
  case h_2 =>
    split
    case isTrue => exact .erase
    case isFalse => exact .refl

theorem cacheHit_unexpired (h : (cacheHit cache now hash).1 = true) :
    ∃ exp, cache.lookup hash = some exp ∧ now < exp := by
  unfold cacheHit at h
  split at h
  case h_1 => cases h
  case h_2 exp he =>
    split at h
    case isTrue => cases h
    case isFalse hn => exact ⟨exp, he, not_not.mp hn⟩

theorem pruneExpired_within : Cache.Within (pruneExpired order now cache) cache := by
  unfold pruneExpired
  -- The loop starts with the whole cache and only ever removes entries.
  suffices h : ∀ (l : List (GoString × Time)) (c : Cache), Cache.Within c cache →
      Cache.Within (l.foldl (fun c x => if ¬now < x.2 then c.erase x.1 else c) c) cache by
    exact h _ _ .refl
  intro l
  induction l
  case nil => exact fun _ h => h
  case cons x l hi =>
    intro c h
    rw [List.foldl_cons]
    apply hi
    split
    case isTrue => exact Cache.Within.erase.trans h
    case isFalse => exact h

theorem evictSoonest_within : Cache.Within (evictSoonest order cache) cache := by
  unfold evictSoonest
  split <;> exact .erase

-- The victim is one of the entries, the one found before if there are no further ones.
theorem soonest_foldl_mem {l : List (GoString × Time)} {v x : GoString × Time}
    (h : l.foldl (fun victim x =>
      match victim with
      | none => some x
      | some v => if x.2 < v.2 then some x else some v) (some v) = some x) : x = v ∨ x ∈ l := by
  induction l generalizing v
  case nil => exact .inl (Option.some.inj h).symm
  case cons y l hi =>
    simp only [List.foldl_cons] at h
    split at h
    case isTrue =>
      cases hi h
      case inl h => exact .inr (h ▸ .head _)
      case inr h => exact .inr (.tail _ h)
    case isFalse =>
      cases hi h
      case inl h => exact .inl h
      case inr h => exact .inr (.tail _ h)

theorem soonest_foldl_isSome {l : List (GoString × Time)} {v : GoString × Time} :
    ∃ x, l.foldl (fun victim x =>
      match victim with
      | none => some x
      | some v => if x.2 < v.2 then some x else some v) (some v) = some x := by
  induction l generalizing v
  case nil => exact ⟨v, rfl⟩
  case cons y l hi =>
    simp only [List.foldl_cons]
    split <;> exact hi

theorem soonest_mem {l : List (GoString × Time)} (h : l ≠ []) : ∃ x ∈ l, soonest l = some x := by
  cases l
  case nil => contradiction
  case cons y l =>
    have ⟨x, hx⟩ := soonest_foldl_isSome (l := l) (v := y)
    refine ⟨x, ?_, hx⟩
    cases soonest_foldl_mem hx
    case inl h => exact h ▸ .head _
    case inr h => exact .tail _ h

theorem evictSoonest_len (order : RangeOrder GoString) (h : 0 < cache.len) :
    (evictSoonest order cache).len < cache.len := by
  have hn : cache ≠ ∅ := fun he => absurd (Finmap.len_eq_zero_iff.mpr he) h.ne'
  have ⟨k, exp, hk⟩ := Finmap.exists_lookup_of_ne_empty hn
  have hr : order.range cache ≠ [] :=
    List.ne_nil_of_mem (RangeOrder.mem_range (x := (k, exp)).mpr hk)
  have ⟨victim, hm, hv⟩ := soonest_mem hr
  have hk := Finmap.mem_keys_of_lookup (RangeOrder.mem_range.mp hm)
  simp only [evictSoonest, hv, Finmap.len, Finmap.keys_erase]
  exact Finset.card_erase_lt_of_mem hk

namespace Authenticator

-- An insertion first makes room, by removing entries if there are too many.
theorem cachePut_cases (a : Authenticator) (cache : Cache) (orders : PutOrders) (now : Time)
    (hash : GoString) :
    ∃ c, Cache.Within c cache ∧ (cache.len ≤ a.cacheMax → c.len < a.cacheMax) ∧
      a.cachePut cache orders now hash = c.insert hash (now + a.cacheTTL) := by
  have hp : Cache.Within (pruneExpired orders.prune now cache) cache := pruneExpired_within
  have hm := a.max_pos
  unfold cachePut
  split
  case isFalse h => exact ⟨_, .refl, fun _ => not_le.mp h, rfl⟩
  case isTrue =>
    refine ⟨_, ?_, ?_, rfl⟩
    case refine_1 =>
      dsimp only
      split
      case isTrue => exact evictSoonest_within.trans hp
      case isFalse => exact hp
    case refine_2 =>
      intro hl
      dsimp only
      split
      case isFalse h => exact not_le.mp h
      case isTrue h =>
        have hl := hp.len_le
        have he := evictSoonest_len orders.evict (Int.natCast_pos.mp (hm.trans_le h))
        omega

theorem lookup_cachePut (h : (a.cachePut cache orders now hash).lookup k = some exp) :
    (k = hash ∧ exp = now + a.cacheTTL) ∨ cache.lookup k = some exp := by
  have ⟨c, hw, _, he⟩ := a.cachePut_cases cache orders now hash
  rw [he, Finmap.lookup_insert_ite] at h
  split at h
  case isTrue hk => exact .inl ⟨hk, (Option.some.inj h).symm⟩
  case isFalse => exact .inr (hw k exp h)

theorem cachePut_len (h : cache.len ≤ a.cacheMax) :
    (a.cachePut cache orders now hash).len ≤ a.cacheMax := by
  have ⟨c, _, hl, he⟩ := a.cachePut_cases cache orders now hash
  have hc := Finset.card_insert_le hash c.keys
  have := hl h
  rw [he, Finmap.len, Finmap.keys_insert]
  unfold Finmap.len at this
  omega

theorem judge_eq_ok_iff {answer : Answer} : a.judge answer = .ok ↔
    ∃ status, answer = .review status ∧ status.authenticated = true ∧
      status.username = a.expectedSA := by
  cases answer
  case failed => simp [judge]
  case missing => simp [judge]
  case review status =>
    cases h : status.authenticated <;> by_cases hu : status.username = a.expectedSA <;>
      simp [judge, h, hu]

end Authenticator

end Cache

section Requests

inductive Effect (a : Authenticator) (sha256Hex : GoString → GoString) (s : State) : Move → State → Prop
  | none : Effect a sha256Hex s m s
  | arrive {id : RequestID} :
    s.phase.lookup id = none →
    Effect a sha256Hex s (.arrive id header) (s.goOn id (.arrived header) [.arrives id header])
  | malformed {id : RequestID} :
    s.phase.lookup id = some (.arrived header) → extractBearer header = none →
    Effect a sha256Hex s (.check id now) (s.goOn id (.denied .unauth) [])
  | hit {id : RequestID} :
    s.phase.lookup id = some (.arrived header) → extractBearer header = some token →
    (cacheHit s.cache now (sha256Hex token)).1 = true →
    Effect a sha256Hex s (.check id now)
      ({ s with cache := (cacheHit s.cache now (sha256Hex token)).2 }.goOn id (.admitted now) [])
  | miss {id : RequestID} :
    s.phase.lookup id = some (.arrived header) → extractBearer header = some token →
    Effect a sha256Hex s (.check id now)
      ({ s with cache := (cacheHit s.cache now (sha256Hex token)).2 }.goOn id (.reviewing token) [])
  | accept {id : RequestID} :
    s.phase.lookup id = some (.reviewing token) → a.judge answer = .ok →
    Effect a sha256Hex s (.review id answer)
      (s.goOn id (.reviewed token) [.answers id (a.specOf token) answer])
  | reject {id : RequestID} :
    s.phase.lookup id = some (.reviewing token) → a.judge answer ≠ .ok →
    Effect a sha256Hex s (.review id answer)
      (s.goOn id (.denied (a.judge answer)) [.answers id (a.specOf token) answer])
  | put {id : RequestID} :
    s.phase.lookup id = some (.reviewed token) →
    Effect a sha256Hex s (.put id now orders)
      ({ s with cache := a.cachePut s.cache orders now (sha256Hex token) }.goOn id (.admitted now)
        [.caches id token now])
  | serve {id : RequestID} :
    s.phase.lookup id = some (.admitted now) →
    Effect a sha256Hex s (.finish id) (s.goOn id .done [.serves id now, .records id .ok])
  | refuse {id : RequestID} :
    s.phase.lookup id = some (.denied result) →
    Effect a sha256Hex s (.finish id) (s.goOn id .done [.records id result])

def State.trace (s : State) (id : RequestID) : List Action :=
  s.history.filter (·.id = id)

-- The traces that a request can have, by the point that the middleware has come to.
inductive Trace (a : Authenticator) (id : RequestID) : Option Phase → List Action → Prop
  | none : Trace a id none []
  | arrived : Trace a id (some (.arrived header)) [.arrives id header]
  | malformed :
    extractBearer header = none → Trace a id (some (.denied .unauth)) [.arrives id header]
  | reviewing :
    extractBearer header = some token → Trace a id (some (.reviewing token)) [.arrives id header]
  | hit :
    extractBearer header = some token → Trace a id (some (.admitted now)) [.arrives id header]
  | reviewed :
    extractBearer header = some token → a.judge answer = .ok →
    Trace a id (some (.reviewed token)) [.answers id (a.specOf token) answer, .arrives id header]
  | rejected :
    extractBearer header = some token → a.judge answer ≠ .ok →
    Trace a id (some (.denied (a.judge answer)))
      [.answers id (a.specOf token) answer, .arrives id header]
  | put :
    extractBearer header = some token → a.judge answer = .ok →
    Trace a id (some (.admitted now))
      [.caches id token now, .answers id (a.specOf token) answer, .arrives id header]
  | served :
    Trace a id (some (.admitted now)) l →
    Trace a id (some .done) (.serves id now :: .records id .ok :: l)
  | refused :
    Trace a id (some (.denied result)) l → Trace a id (some .done) (.records id result :: l)

-- A review of this token with this outcome, as the answer to the call of this request.
def Accepted (a : Authenticator) (past : List Action) (id : RequestID) (token : GoString) : Prop :=
  ∃ status, .answers id (a.specOf token) (.review status) ∈ past ∧
    status.authenticated = true ∧ status.username = a.expectedSA

def Bearer (past : List Action) (id : RequestID) (token : GoString) : Prop :=
  ∃ header, .arrives id header ∈ past ∧ extractBearer header = some token

-- Why a request may be served, by what has happened so far.
def Justified (a : Authenticator) (past : List Action) (id : RequestID) (now : Time) : Prop :=
  ∃ token, Bearer past id token ∧
    (Accepted a past id token ∨
      ∃ id' now', .caches id' token now' ∈ past ∧ Accepted a past id' token ∧
        now' ≤ now ∧ now < now' + a.cacheTTL)

variable {a : Authenticator} {sha256Hex : GoString → GoString} {s s' : State} {m : Move}
variable {id id' : RequestID} {phase : Phase} {l l' past : List Action} {x : Action}
variable {header token : GoString} {answer : Answer} {result : Result} {now : Time}

theorem State.check_effect (h : s.phase.lookup id = some (.arrived header)) :
    Effect a sha256Hex s (.check id now) (s.check sha256Hex id header now) := by
  unfold State.check
  split
  case h_1 hb => exact .malformed h hb
  case h_2 token hb =>
    dsimp only
    split
    case isTrue hc => exact .hit h hb hc
    case isFalse => exact .miss h hb

theorem State.review_effect (h : s.phase.lookup id = some (.reviewing token)) :
    Effect a sha256Hex s (.review id answer) (s.review a id token answer) := by
  unfold State.review
  split
  case h_1 hj => exact .accept h hj
  case h_2 hj => exact .reject h hj

theorem State.step_effect (a : Authenticator) (sha256Hex : GoString → GoString) (s : State) (m : Move) :
    Effect a sha256Hex s m (s.step a sha256Hex m) := by
  cases m <;> dsimp only [State.step]
  case arrive =>
    split
    case h_1 h => exact .arrive h
    case h_2 => exact .none
  case check =>
    split
    case h_1 h => exact State.check_effect h
    case h_2 => exact .none
  case review =>
    split
    case h_1 h => exact State.review_effect h
    case h_2 => exact .none
  case put =>
    split
    case h_1 h => exact .put h
    case h_2 => exact .none
  case finish =>
    split
    case h_1 h => exact .serve h
    case h_2 h => exact .refuse h
    case h_3 => exact .none

theorem State.mem_trace_of_mem_history (h : x ∈ s.history) : x ∈ s.trace x.id :=
  List.mem_filter.mpr ⟨h, decide_eq_true rfl⟩

def State.Traced (a : Authenticator) (s : State) : Prop :=
  ∀ id, Trace a id (s.phase.lookup id) (s.trace id)

theorem State.Traced.new : State.Traced a .new :=
  fun _ => .none

-- A move only concerns the request that goes on.
theorem State.Traced.goOn {p : Option Phase} (h : s.Traced a) (hp : s.phase.lookup id = p)
    (hx : ∀ x ∈ l, x.id = id)
    (ht : ∀ {l'}, Trace a id p l' → Trace a id (some phase) (l ++ l')) :
    (s.goOn id phase l).Traced a := by
  intro id'
  by_cases he : id' = id
  case pos =>
    subst he
    have hl : l.filter (·.id = id') = l :=
      List.filter_eq_self.mpr fun x hm => decide_eq_true (hx x hm)
    simpa [State.goOn, State.trace, hl] using ht (hp ▸ h id')
  case neg =>
    have hl : l.filter (·.id = id') = [] :=
      List.filter_eq_nil_iff.mpr fun x hm => by simp [hx x hm, Ne.symm he]
    simpa [State.goOn, State.trace, hl, he] using h id'

-- The cache has no part in the traces.
theorem State.Traced.withCache (h : s.Traced a) (cache : Cache) : { s with cache }.Traced a :=
  h

theorem State.Traced.effect (h : s.Traced a) (he : Effect a sha256Hex s m s') : s'.Traced a := by
  cases he
  case none => exact h
  case arrive hp =>
    refine h.goOn hp (by simp [Action.id]) fun ht => ?_
    cases ht
    exact .arrived
  case malformed hp hb =>
    refine h.goOn hp (by simp) fun ht => ?_
    cases ht
    exact .malformed hb
  case hit hp hb _ =>
    refine (h.withCache _).goOn hp (by simp) fun ht => ?_
    cases ht
    exact .hit hb
  case miss hp hb =>
    refine (h.withCache _).goOn hp (by simp) fun ht => ?_
    cases ht
    exact .reviewing hb
  case accept hp hj =>
    refine h.goOn hp (by simp [Action.id]) fun ht => ?_
    cases ht
    case reviewing hb => exact .reviewed hb hj
  case reject hp hj =>
    refine h.goOn hp (by simp [Action.id]) fun ht => ?_
    cases ht
    case reviewing hb => exact .rejected hb hj
  case put hp =>
    refine (h.withCache _).goOn hp (by simp [Action.id]) fun ht => ?_
    cases ht
    case reviewed hj hb => exact .put hb hj
  case serve hp => exact h.goOn hp (by simp [Action.id]) .served
  case refuse hp => exact h.goOn hp (by simp [Action.id]) .refused

theorem State.Traced.foldl (h : s.Traced a) (moves : List Move) :
    (moves.foldl (step a sha256Hex) s).Traced a := by
  induction moves generalizing s
  case nil => exact h
  case cons m _ hi => exact hi (h.effect (s.step_effect a sha256Hex m))

def recorded (id : RequestID) (past : List Action) : Nat :=
  past.countP fun x => match x with | .records id' _ => id' = id | _ => false

theorem recorded_trace : recorded id (s.trace id) = recorded id s.history := by
  rw [recorded, State.trace, List.countP_filter]
  apply List.countP_congr
  intro x _
  cases x <;> simp +contextual [Action.id]

theorem State.recorded_eq (h : s.Traced a) :
    recorded id s.history = if s.phase.lookup id matches some .done then 1 else 0 := by
  rw [← recorded_trace]
  have ht := h id
  generalize s.trace id = l, s.phase.lookup id = p at ht
  cases ht
  case served h => cases h <;> simp [recorded]
  case refused h => cases h <;> simp [recorded]
  all_goals simp [recorded]

theorem Accepted.of_judge (hm : .answers id (a.specOf token) answer ∈ l) (hj : a.judge answer = .ok) :
    Accepted a l id token := by
  have ⟨status, he, h⟩ := a.judge_eq_ok_iff.mp hj
  exact ⟨status, he ▸ hm, h⟩

theorem Accepted.mono (h : Accepted a l id token) (hl : l ⊆ l') : Accepted a l' id token := by
  have ⟨status, hm, hs⟩ := h
  exact ⟨status, hl hm, hs⟩

theorem Bearer.mono (h : Bearer l id token) (hl : l ⊆ l') : Bearer l' id token := by
  have ⟨header, hm, hb⟩ := h
  exact ⟨header, hl hm, hb⟩

theorem Justified.mono (h : Justified a l id now) (hl : l ⊆ l') : Justified a l' id now := by
  have ⟨token, hb, h⟩ := h
  refine ⟨token, hb.mono hl, ?_⟩
  cases h
  case inl h => exact .inl (h.mono hl)
  case inr h =>
    have ⟨id', now', hc, h, ht⟩ := h
    exact .inr ⟨id', now', hl hc, h.mono hl, ht⟩

theorem State.trace_subset (s : State) (id : RequestID) : s.trace id ⊆ s.history :=
  List.filter_subset_self _

-- An insertion occurs only in the traces that come from the insertion of the request itself.
theorem Trace.caches {p : Option Phase} (h : Trace a id p l) (hc : .caches id token now ∈ l) :
    ∃ header answer, extractBearer header = some token ∧ a.judge answer = .ok ∧
      .arrives id header ∈ l ∧ .answers id (a.specOf token) answer ∈ l ∧
      ∀ spec answer', .answers id spec answer' ∈ l → answer' = answer := by
  induction h
  case put hb hj =>
    simp only [List.mem_cons, Action.caches.injEq, true_and, reduceCtorEq, List.not_mem_nil,
      or_false] at hc
    exact ⟨_, _, hc.1 ▸ hb, hj, by simp, by simp [hc.1], by simp⟩
  case served hi =>
    have ⟨header, answer, hb, hj, hh, ha, hu⟩ := hi (by simpa using hc)
    exact ⟨header, answer, hb, hj, by simp [hh], by simp [ha], by simpa using hu⟩
  case refused hi =>
    have ⟨header, answer, hb, hj, hh, ha, hu⟩ := hi (by simpa using hc)
    exact ⟨header, answer, hb, hj, by simp [hh], by simp [ha], by simpa using hu⟩
  all_goals simp at hc

namespace State.Traced

theorem arrives (h : s.Traced a) (hp : s.phase.lookup id = some (.arrived header)) :
    .arrives id header ∈ s.history := by
  have ht := h id
  rw [hp] at ht
  apply s.trace_subset id
  generalize s.trace id = l at ht
  cases ht
  exact .head _

theorem reviewed (h : s.Traced a) (hp : s.phase.lookup id = some (.reviewed token)) :
    Bearer s.history id token ∧ Accepted a s.history id token := by
  have ht := h id
  have hs := s.trace_subset id
  rw [hp] at ht
  generalize s.trace id = l at ht hs
  cases ht
  case reviewed hj hb =>
    exact ⟨⟨_, hs (by simp), hb⟩, .of_judge (hs (.head _)) hj⟩

theorem caches (h : s.Traced a) (hc : .caches id token now ∈ s.history) :
    Bearer s.history id token ∧ Accepted a s.history id token ∧
      ∀ spec answer, .answers id spec answer ∈ s.history → a.judge answer = .ok := by
  have hs := s.trace_subset id
  have ⟨header, answer, hb, hj, hh, ha, hu⟩ := (h id).caches (State.mem_trace_of_mem_history hc)
  refine ⟨⟨header, hs hh, hb⟩, .of_judge (hs ha) hj, fun spec answer' hm => ?_⟩
  exact hu spec answer' (State.mem_trace_of_mem_history hm) ▸ hj

end State.Traced

namespace Effect

variable (he : Effect a sha256Hex s m s')
include he

theorem history_subset : s.history ⊆ s'.history := by
  cases he <;> simp [State.goOn]

theorem arrives (h : .arrives id header ∈ s'.history) :
    .arrives id header ∈ s.history ∨ m = .arrive id header := by
  cases he
  case arrive =>
    simp only [State.goOn, List.singleton_append, List.mem_cons, Action.arrives.injEq] at h
    cases h
    case inl h => exact .inr (by rw [h.1, h.2])
    case inr h => exact .inl h
  all_goals exact .inl (by simpa [State.goOn] using h)

theorem caches_now (h : .caches id token now ∈ s'.history) :
    .caches id token now ∈ s.history ∨ m.now = some now := by
  cases he
  case put =>
    simp only [State.goOn, List.singleton_append, List.mem_cons, Action.caches.injEq] at h
    cases h
    case inl h => exact .inr (by rw [h.2.2]; rfl)
    case inr h => exact .inl h
  all_goals exact .inl (by simpa [State.goOn] using h)

theorem serves (h : .serves id now :: past <:+ s'.history) :
    .serves id now :: past <:+ s.history ∨
      s.phase.lookup id = some (.admitted now) ∧ s.history ⊆ past := by
  cases he
  case serve hp =>
    simp only [State.goOn, List.cons_append, List.nil_append, List.suffix_cons_iff, List.cons.injEq,
      Action.serves.injEq, reduceCtorEq, false_and, false_or] at h
    cases h
    case inl h => exact .inr ⟨by rw [h.1.1, h.1.2]; exact hp, by simp [h.2]⟩
    case inr h => exact .inl h
  all_goals exact .inl (by simpa [State.goOn, List.suffix_cons_iff] using h)

theorem cache {hash : GoString} {exp : Time} (h : s'.cache.lookup hash = some exp) :
    s.cache.lookup hash = some exp ∨
    ∃ id token now, sha256Hex token = hash ∧ exp = now + a.cacheTTL ∧
      .caches id token now ∈ s'.history := by
  cases he
  case hit => exact .inl (cacheHit_within _ _ h)
  case miss => exact .inl (cacheHit_within _ _ h)
  case put id token now _ _ =>
    cases a.lookup_cachePut h
    case inl h => exact .inr ⟨_, _, _, h.1.symm, h.2, .head _⟩
    case inr h => exact .inl h
  all_goals exact .inl h

theorem cache_len (h : s.cache.len ≤ a.cacheMax) : s'.cache.len ≤ a.cacheMax := by
  cases he
  case hit => exact (Int.ofNat_le.mpr cacheHit_within.len_le).trans h
  case miss => exact (Int.ofNat_le.mpr cacheHit_within.len_le).trans h
  case put => exact a.cachePut_len h
  all_goals exact h

theorem admitted (h : s'.phase.lookup id = some (.admitted now)) :
    s.phase.lookup id = some (.admitted now) ∨
    (∃ header token exp, s.phase.lookup id = some (.arrived header) ∧
      extractBearer header = some token ∧ s.cache.lookup (sha256Hex token) = some exp ∧ now < exp ∧
      m.now = some now) ∨
    ∃ token, s.phase.lookup id = some (.reviewed token) := by
  cases he
  case none => exact .inl h
  case hit hp hb hc =>
    rw [State.goOn, Finmap.lookup_insert_ite] at h
    split at h
    case isFalse => exact .inl h
    case isTrue hi =>
      cases h
      have ⟨exp, hl, ht⟩ := cacheHit_unexpired hc
      exact .inr (.inl ⟨_, _, exp, hi ▸ hp, hb, hl, ht, rfl⟩)
  case put hp =>
    rw [State.goOn, Finmap.lookup_insert_ite] at h
    split at h
    case isFalse => exact .inl h
    case isTrue hi => exact .inr (.inr ⟨_, hi ▸ hp⟩)
  all_goals
    rw [State.goOn, Finmap.lookup_insert_ite] at h
    split at h
    case isFalse => exact .inl h
    case isTrue => cases h

end Effect

def tokens (moves : List Move) : Set GoString :=
  { token | ∃ id header, .arrive id header ∈ moves ∧ extractBearer header = some token }

structure Sound (a : Authenticator) (sha256Hex : GoString → GoString) (moves : List Move) (s : State) :
    Prop where
  traced   : s.Traced a
  arrivals : ∀ {id header}, .arrives id header ∈ s.history → .arrive id header ∈ moves
  clock    : ∀ {id token now}, .caches id token now ∈ s.history → now ∈ moves.filterMap Move.now
  cached   : ∀ {hash exp}, s.cache.lookup hash = some exp → ∃ id token now,
    sha256Hex token = hash ∧ exp = now + a.cacheTTL ∧ .caches id token now ∈ s.history
  admitted : ∀ {id now}, s.phase.lookup id = some (.admitted now) → Justified a s.history id now
  served   : ∀ {id now past}, .serves id now :: past <:+ s.history → Justified a past id now
  size     : s.cache.len ≤ a.cacheMax

namespace Sound

variable {moves : List Move}

theorem new : Sound a sha256Hex [] .new where
  traced := .new
  arrivals h := by cases h
  clock h := by cases h
  cached h := by cases h
  admitted h := by cases h
  served h := by simp [State.new] at h
  size := a.max_pos.le

theorem bearer_mem (h : Sound a sha256Hex moves s) (hb : Bearer s.history id token) :
    token ∈ tokens moves := by
  have ⟨header, hm, he⟩ := hb
  exact ⟨id, header, h.arrivals hm, he⟩

-- The entry was made for the same token, because no other one has this digest.
theorem justified_of_hit (h : Sound a sha256Hex moves s) (hi : Set.InjOn sha256Hex (tokens moves))
    (hc : ∀ t ∈ moves.filterMap Move.now, t ≤ now) {exp : Time} (hb : Bearer s.history id token)
    (hl : s.cache.lookup (sha256Hex token) = some exp) (ht : now < exp) :
    Justified a s.history id now := by
  have ⟨id', token', now', hd, he, hm⟩ := h.cached hl
  have ⟨hb', ha, _⟩ := h.traced.caches hm
  cases hi (h.bearer_mem hb') (h.bearer_mem hb) hd
  exact ⟨token, hb, .inr ⟨id', now', hm, ha, hc _ (h.clock hm), he ▸ ht⟩⟩

theorem effect (h : Sound a sha256Hex moves s) (hi : Set.InjOn sha256Hex (tokens moves))
    (hc : ∀ t ∈ moves.filterMap Move.now, ∀ now, m.now = some now → t ≤ now)
    (he : Effect a sha256Hex s m s') : Sound a sha256Hex (moves ++ [m]) s' where
  traced := h.traced.effect he
  arrivals hm := by
    cases he.arrives hm
    case inl hm => exact List.mem_append_left _ (h.arrivals hm)
    case inr hm => simp [hm]
  clock hm := by
    rw [List.filterMap_append]
    cases he.caches_now hm
    case inl hm => exact List.mem_append_left _ (h.clock hm)
    case inr hm => simp [hm]
  cached hl := by
    cases he.cache hl
    case inr hm => exact hm
    case inl hl =>
      have ⟨id, token, now, hd, he', hm⟩ := h.cached hl
      exact ⟨id, token, now, hd, he', he.history_subset hm⟩
  admitted hp := by
    refine Justified.mono ?_ he.history_subset
    obtain hp | ⟨header, token, exp, hp, hb, hl, ht, hn⟩ | ⟨token, hp⟩ := he.admitted hp
    case inl => exact h.admitted hp
    case inr.inl => exact h.justified_of_hit hi (hc · · _ hn) ⟨header, h.traced.arrives hp, hb⟩ hl ht
    case inr.inr => exact ⟨token, (h.traced.reviewed hp).imp_right .inl⟩
  served hm := by
    cases he.serves hm
    case inl hm => exact h.served hm
    case inr hm => exact (h.admitted hm.1).mono hm.2
  size := he.cache_len h.size

theorem run (hc : (moves.filterMap Move.now).Pairwise (· ≤ ·))
    (hi : Set.InjOn sha256Hex (tokens moves)) : Sound a sha256Hex moves (.run a sha256Hex moves) := by
  induction moves using List.reverseRecOn
  case nil => exact new
  case append_singleton moves m hs =>
    rw [List.filterMap_append, List.pairwise_append] at hc
    have ht : tokens moves ⊆ tokens (moves ++ [m]) := by
      intro token ⟨id, header, hm, hb⟩
      exact ⟨id, header, List.mem_append_left _ hm, hb⟩
    rw [State.run, List.foldl_append]
    refine (hs hc.1 (hi.mono ht)).effect (hi.mono ht) ?_ (State.step_effect _ _ _ m)
    intro t hm now hn
    exact hc.2.2 t hm now (by simp [hn])

end Sound

-- The moves that bring a request to its end, whatever the reviewer and the clock say.
def completion (id : RequestID) (answer : Answer) (checked inserted : Time) (orders : PutOrders) :
    List Move :=
  [.check id checked, .review id answer, .put id inserted orders, .finish id]

def Phase.rank : Phase → Nat
  | .arrived _   => 0
  | .reviewing _ => 1
  | .reviewed _  => 2
  | .admitted _  => 3
  | .denied _    => 3
  | .done        => 4

def State.Reached (s : State) (id : RequestID) (n : Nat) : Prop :=
  ∃ phase, s.phase.lookup id = some phase ∧ n ≤ phase.rank

namespace State.Reached

variable {n : Nat}

theorem goOn (h : n ≤ phase.rank) : (s.goOn id phase l).Reached id n :=
  ⟨phase, Finmap.lookup_insert _, h⟩

theorem stay (hs : s' = s) (hp : s.phase.lookup id = some phase) (h : n ≤ phase.rank) :
    s'.Reached id n :=
  hs ▸ ⟨phase, hp, h⟩

theorem check (h : s.Reached id 0) : (s.step a sha256Hex (.check id now)).Reached id 1 := by
  have ⟨phase, hp, _⟩ := h
  cases phase
  case arrived header =>
    simp only [step, hp]
    unfold State.check
    split
    case h_1 => exact goOn (by decide)
    case h_2 token _ =>
      have hr (hit : Bool) : 1 ≤ (if hit then Phase.admitted now else .reviewing token).rank := by
        cases hit <;> simp [Phase.rank]
      exact goOn (hr _)
  all_goals exact stay (by simp only [step, hp]) hp (by simp [Phase.rank])

theorem review (h : s.Reached id 1) : (s.step a sha256Hex (.review id answer)).Reached id 2 := by
  have ⟨phase, hp, hn⟩ := h
  cases phase
  case arrived => cases hn
  case reviewing token =>
    simp only [step, hp]
    unfold State.review
    refine goOn ?_
    split <;> exact Nat.le_add_left 2 _
  all_goals exact stay (by simp only [step, hp]) hp (by simp [Phase.rank])

theorem put {orders : PutOrders} (h : s.Reached id 2) :
    (s.step a sha256Hex (.put id now orders)).Reached id 3 := by
  have ⟨phase, hp, hn⟩ := h
  cases phase
  case arrived => cases hn
  case reviewing => exact absurd hn (by simp [Phase.rank])
  case reviewed token =>
    simp only [step, hp]
    exact goOn le_rfl
  all_goals exact stay (by simp only [step, hp]) hp (by simp [Phase.rank])

theorem finish (h : s.Reached id 3) : (s.step a sha256Hex (.finish id)).Reached id 4 := by
  have ⟨phase, hp, hn⟩ := h
  cases phase
  case arrived => cases hn
  case reviewing => exact absurd hn (by simp [Phase.rank])
  case reviewed => exact absurd hn (by simp [Phase.rank])
  case admitted | denied =>
    simp only [step, hp]
    exact goOn le_rfl
  case done => exact stay (by simp only [step, hp]) hp le_rfl

theorem done (h : s.Reached id 4) : s.phase.lookup id = some .done := by
  have ⟨phase, hp, hn⟩ := h
  cases phase
  case done => exact hp
  all_goals exact absurd hn (by simp [Phase.rank])

end State.Reached

theorem State.Traced.reached (h : s.Traced a) (hm : .arrives id header ∈ s.history) :
    s.Reached id 0 := by
  have hm := State.mem_trace_of_mem_history hm
  have ht := h id
  simp only [Action.id] at hm
  cases hp : s.phase.lookup id
  case some phase => exact ⟨phase, hp, Nat.zero_le _⟩
  case none =>
    rw [hp] at ht
    generalize s.trace id = l at ht hm
    cases ht
    cases hm

theorem State.Traced.recorded_completion (h : s.Traced a) (hm : .arrives id header ∈ s.history)
    {inserted : Time} {orders : PutOrders} :
    recorded id ((completion id answer now inserted orders).foldl (step a sha256Hex) s).history = 1 := by
  have hd : State.Reached ((((s.step a sha256Hex (.check id now)).step a sha256Hex
      (.review id answer)).step a sha256Hex (.put id inserted orders)).step a sha256Hex (.finish id)) id 4 :=
    (h.reached hm).check.review.put.finish
  rw [State.recorded_eq (h.foldl _)]
  simp only [completion, List.foldl_cons, List.foldl_nil, hd.done, if_true]

theorem State.Traced.recorded_le (h : s.Traced a) : recorded id s.history ≤ 1 := by
  rw [State.recorded_eq h]
  split <;> decide

theorem run_sound (a : Authenticator) (sha256Hex : GoString → GoString) (moves : List Move)
    (hc : (moves.filterMap Move.now).Pairwise (· ≤ ·)) (hi : Set.InjOn sha256Hex (tokens moves)) :
    let s := State.run a sha256Hex moves
    (∀ id now past, .serves id now :: past <:+ s.history →
      ∃ token, Bearer past id token ∧
        (Accepted a past id token ∨
          ∃ id' now', .caches id' token now' ∈ past ∧ Accepted a past id' token ∧
            now' ≤ now ∧ now < now' + a.cacheTTL)) ∧
    (∀ hash exp, s.cache.lookup hash = some exp →
      ∃ id token now, sha256Hex token = hash ∧ exp = now + a.cacheTTL ∧
        .caches id token now ∈ s.history) ∧
    (∀ id token now, .caches id token now ∈ s.history →
      Accepted a s.history id token ∧
        ∀ spec answer, .answers id spec answer ∈ s.history → a.judge answer = .ok) ∧
    (∀ id, recorded id s.history ≤ 1) ∧
    (∀ id header, .arrives id header ∈ s.history → ∀ answer checked inserted orders,
      recorded id ((completion id answer checked inserted orders).foldl
        (State.step a sha256Hex) s).history = 1) ∧
    s.cache.len ≤ a.cacheMax := by
  have h := Sound.run (a := a) hc hi
  refine ⟨fun _ _ _ => h.served, fun _ _ => h.cached, fun _ _ _ hm => (h.traced.caches hm).2,
    fun _ => h.traced.recorded_le, fun _ _ hm _ _ _ _ => h.traced.recorded_completion hm, h.size⟩

-- Two requests with one token, the second of which is served from the cache.
def replayed : List Move :=
  [.arrive 1 (utf8 "Bearer t"), .check 1 0, .review 1 (.review ⟨true, utf8 "sa"⟩),
    .put 1 5 ⟨.ascending, .ascending⟩, .finish 1, .arrive 2 (utf8 "bearer t"), .check 2 14, .finish 2]

def replayedAuthenticator : Authenticator where
  expectedSA := utf8 "sa"
  audience   := utf8 "aud"
  cacheTTL   := 10
  cacheMax   := 1
  ttl_pos    := by decide
  max_pos    := by decide

theorem run_sound_replayed :
    let history := (State.run replayedAuthenticator (fun t => t) replayed).history
    .serves 2 14 :: history.tail = history ∧ Justified replayedAuthenticator history.tail 2 14 := by
  have hs : .serves 2 14 :: (State.run replayedAuthenticator (fun t => t) replayed).history.tail =
      (State.run replayedAuthenticator (fun t => t) replayed).history := by
    decide +kernel
  refine ⟨hs, ?_⟩
  refine (run_sound replayedAuthenticator (fun t => t) replayed ?_ ?_).1 2 14 _ ?_
  case refine_1 => decide
  case refine_2 => exact fun _ _ _ _ h => h
  case refine_3 => exact hs ▸ List.suffix_rfl

end Requests

end InferenceCache.Auth
