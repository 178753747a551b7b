import InferenceCache.Index.Theorems.Quota

namespace InferenceCache

variable {F : Type}

-- Everything a call reads from outside the index, except for the iteration orders.
structure Env.SameInputs (env env' : Env) : Prop where
  now              : env.now = env'.now
  ttlResolver      : env.ttlResolver = env'.ttlResolver
  quotaResolver    : env.quotaResolver = env'.quotaResolver
  evictionResolver : env.evictionResolver = env'.evictionResolver

theorem chainUpserts_key {keyOf : Bytes → PrefixKey} {tier : CacheTier} {n : Int32}
    {l : List (Bytes × Int32)} {p : Upsert} (h : p ∈ chainUpserts keyOf tier n l) :
    ∃ b ∈ l, p.key = keyOf b.1 := by
  induction l generalizing n
  case nil => cases h
  case cons x l hi =>
    cases List.mem_cons.mp h
    case inl h => exact ⟨x, .head _, h ▸ rfl⟩
    case inr h =>
      have ⟨b, hb, hk⟩ := hi h
      exact ⟨b, .tail _ hb, hk⟩

theorem Update.upserts_key {u : Update F} {p : Upsert} (h : p ∈ u.upserts) :
    ∃ ref hash, p.key = u.keyOf ref hash := by
  unfold upserts at h
  split at h
  case isTrue => cases h
  case isFalse =>
    have ⟨ref, _, h⟩ := List.mem_flatMap.mp h
    unfold upsertsOf at h
    refine ⟨ref, ?_⟩
    split at h
    case isFalse => exact ⟨_, congrArg Upsert.key (List.mem_singleton.mp h)⟩
    case isTrue =>
      split at h
      case isTrue => cases h
      case isFalse =>
        cases List.mem_append.mp h
        case inl h =>
          have ⟨b, _, hk⟩ := chainUpserts_key h
          exact ⟨b.1, hk⟩
        case inr h =>
          split at h
          case isTrue => exact ⟨_, congrArg Upsert.key (List.mem_singleton.mp h)⟩
          case isFalse => cases h

theorem Update.latest_eq_none {u : Update F} {key : PrefixKey} (h : key.tenant ≠ u.tenant) :
    u.latest key = none := by
  simp only [latest, List.find?_eq_none, List.mem_reverse, decide_eq_true_eq]
  intro p hp hk
  obtain ⟨_, _, hp⟩ := upserts_key hp
  exact h <| hk ▸ hp ▸ rfl

namespace Index

variable {cfg : Config F} {i j k : Index F} {env env' : Env} {p q : ModelKey → Prop}
variable {key : PrefixKey} {r tenant : GoString}

-- Two indexes hold the same of the tenants and models in `p`.
structure AgreeOn (p : ModelKey → Prop) (i j : Index F) : Prop where
  entry : ∀ key r, p key.modelKey → i.entryAt key r = j.entryAt key r
  stats : ∀ sk : StatsKey, p sk.modelKey → i.stats.lookup sk = j.stats.lookup sk

namespace AgreeOn

theorem refl : AgreeOn p i i :=
  ⟨fun _ _ _ => rfl, fun _ _ => rfl⟩

theorem symm (h : AgreeOn p i j) : AgreeOn p j i :=
  ⟨fun key r hp => (h.entry key r hp).symm, fun sk hp => (h.stats sk hp).symm⟩

theorem trans (h₁ : AgreeOn p i j) (h₂ : AgreeOn p j k) : AgreeOn p i k :=
  ⟨fun key r hp => (h₁.entry key r hp).trans (h₂.entry key r hp),
    fun sk hp => (h₁.stats sk hp).trans (h₂.stats sk hp)⟩

theorem mono (h : AgreeOn p i j) (hq : ∀ mk, q mk → p mk) : AgreeOn q i j :=
  ⟨fun key r hp => h.entry key r (hq _ hp), fun sk hp => h.stats sk (hq _ hp)⟩

-- Keeping entries by the same condition keeps an agreement.
theorem of_filter {i' j' : Index F} {f g : PrefixKey × GoString → ReplicaEntry → Bool}
    (h : AgreeOn p i j) (hi : i'.entries = i.entries.filter f) (hj : j'.entries = j.entries.filter g)
    (hf : ∀ key r e, p key.modelKey → i.entryAt key r = some e → f (key, r) e = g (key, r) e)
    (hs : ∀ sk : StatsKey, p sk.modelKey → i'.stats.lookup sk = j'.stats.lookup sk) :
    AgreeOn p i' j' where
  stats := hs
  entry key r hp := by
    rw [entryAt_of_filter hi, entryAt_of_filter hj, ← h.entry key r hp]
    cases he : i.entryAt key r
    case none => rfl
    case some e => simp [Option.filter, hf key r e hp he]

theorem inner (h : AgreeOn p i j) (hp : p key.modelKey) : i.prefixes.inner key = j.prefixes.inner key :=
  Finmap.ext_lookup fun r => by simpa [entryAt] using h.entry key r hp

theorem keysOf (h : AgreeOn p i j) (hi : Consistent cfg i) (hj : Consistent cfg j)
    (hp : ∀ key : PrefixKey, key.tenant = tenant → p key.modelKey) : i.keysOf tenant = j.keysOf tenant := by
  ext key
  rw [mem_keysOf, mem_keysOf, hi.mem_keys_iff, hj.mem_keys_iff]
  refine and_congr_left fun ht => ?_
  simp only [h.entry key _ (hp key ht)]

theorem ageRef (h : AgreeOn p i j) (hp : p key.modelKey) : i.ageRef env key = j.ageRef env key := by
  rw [Index.ageRef, Index.ageRef, h.inner hp]

section Calls

theorem evictExpired (h : AgreeOn p i j) (he : env.SameInputs env') :
    AgreeOn p (i.evictExpired cfg env) (j.evictExpired cfg env') := by
  have ht : cfg.ttlFor env = cfg.ttlFor env' :=
    funext fun _ => by simp only [Config.ttlFor, he.ttlResolver]
  have hx : expired cfg env = expired cfg env' := by
    funext tenant lastSeen
    simp only [expired, ht, he.now]
  refine h.of_filter entries_evictExpired entries_evictExpired (fun _ _ _ _ _ => by rw [hx]) ?_
  intro sk hp
  rw [stats_evictExpired, stats_evictExpired, Finmap.lookup_filter, Finmap.lookup_filter,
    h.stats sk hp, hx]

theorem applyEvent (h : AgreeOn p i j) {ev : Event} (he : env.SameInputs env') :
    AgreeOn p (i.applyEvent cfg env ev) (j.applyEvent cfg env' ev) := by
  refine h.of_filter entries_applyEvent entries_applyEvent (fun _ _ _ _ _ => rfl) ?_
  intro sk hp
  rw [lookup_stats_applyEvent, lookup_stats_applyEvent, h.stats sk hp, Event.seenAt, Event.seenAt, he.now]

theorem creditHit (h : AgreeOn p i j) : AgreeOn p (i.creditHit key r) (j.creditHit key r) where
  stats sk hp := by rw [stats_creditHit, stats_creditHit, h.stats sk hp]
  entry key' r' hp := by
    rw [entryAt_creditHit, entryAt_creditHit]
    split
    case isFalse => exact h.entry key' r' hp
    case isTrue hk => rw [h.entry key r (hk.1 ▸ hp)]

variable [GoFloat F] {u : Update F}

theorem recordUpdate (h : AgreeOn p i j) (he : env.SameInputs env') :
    AgreeOn p (i.recordUpdate cfg env u) (j.recordUpdate cfg env' u) := by
  have ht : u.seenAt env = u.seenAt env' := by simp only [Update.seenAt, he.now]
  refine ⟨fun key r hp => ?_, fun sk hp => ?_⟩
  case refine_1 => rw [entryAt_recordUpdate, entryAt_recordUpdate, h.entry key r hp, ht]
  case refine_2 => rw [lookup_stats_recordUpdate, lookup_stats_recordUpdate, h.stats sk hp, ht]

omit [GoFloat F] in
theorem enforceQuota (h : AgreeOn p i j) (hi : Consistent cfg i) (hj : Consistent cfg j)
    (he : env.SameInputs env') (hp : ∀ key : PrefixKey, key.tenant = tenant → p key.modelKey) :
    AgreeOn p (i.enforceQuota cfg env tenant) (j.enforceQuota cfg env' tenant) := by
  have ⟨v, hv, hvi⟩ := hi.entries_enforceQuota env tenant
  have ⟨w, hw, hwj⟩ := hj.entries_enforceQuota env' tenant
  have hk : i.keysOf tenant = j.keysOf tenant := h.keysOf hi hj hp
  rw [← quotaExcess_congr hk he.quotaResolver, ← hk] at hw
  have hr : ∀ key ∈ i.keysOf tenant, (i.ageRef env key).rank = (j.ageRef env' key).rank :=
    fun key hk => by rw [h.ageRef (hp key (mem_keysOf.mp hk).2), ageRef_congr]
  have hvw : v = w := hv.unique (hw.congr hr)
  apply h.of_filter hvi hwj fun _ _ _ _ _ => by rw [hvw]
  intro sk hp
  rw [stats_enforceQuota, stats_enforceQuota, h.stats sk hp]

end Calls

section Frame

-- What a call of one tenant leaves alone.

theorem applyEvent_self {ev : Event} : AgreeOn (·.tenant ≠ ev.tenant) (i.applyEvent cfg env ev) i where
  entry key r hp := by
    refine entryAt_of_filter_pos entries_applyEvent fun _ => ?_
    have hr : removes ev key = false := by
      unfold removes
      have ht : key.tenant ≠ ev.tenant := hp
      cases ev.type <;> simp [Event.evicts, Event.clears, ht]
    simp [hr]
  stats sk hp := by
    rw [lookup_stats_applyEvent, if_neg]
    exact fun hk => hp <| hk ▸ rfl

theorem creditHit_self : AgreeOn (·.tenant ≠ key.tenant) (i.creditHit key r) i where
  stats sk _ := by rw [stats_creditHit]
  entry key' r' hp := by
    rw [entryAt_creditHit, if_neg]
    exact fun hk => hp <| hk.1 ▸ rfl

theorem enforceQuota_self (h : Consistent cfg i) :
    AgreeOn (·.tenant ≠ tenant) (i.enforceQuota cfg env tenant) i where
  stats sk _ := by rw [stats_enforceQuota]
  entry key r hp := by
    have ⟨v, hv, hvi⟩ := h.entries_enforceQuota env tenant
    apply entryAt_of_filter_pos hvi fun _ => decide_eq_true fun hk => ?_
    exact hp (mem_keysOf.mp <| hv.subset hk).2

variable [GoFloat F] {u : Update F}

theorem recordUpdate_self : AgreeOn (·.tenant ≠ u.tenant) (i.recordUpdate cfg env u) i where
  entry key r hp := by simp [entryAt_recordUpdate, Update.latest_eq_none hp]
  stats sk hp := by
    rw [lookup_stats_recordUpdate, if_neg]
    exact fun hk => hp <| hk ▸ rfl

theorem beforeCap_self (h : Consistent cfg i) : AgreeOn (·.tenant ≠ u.tenant) (i.beforeCap cfg env u) i :=
  (enforceQuota_self h.recordUpdate).trans recordUpdate_self

end Frame

end AgreeOn

end Index

end InferenceCache
