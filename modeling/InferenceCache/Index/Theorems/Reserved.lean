import InferenceCache.Index.Snapshot
import InferenceCache.Index.Theorems.Agreement

namespace InferenceCache

variable {F : Type}

def Call.isReserved (cfg : Config F) : Call F → Bool
  | .ingest u        => cfg.isReservedTenant u.tenant
  | .applyEvent ev   => cfg.isReservedTenant ev.tenant
  | .creditHit key _ => cfg.isReservedTenant key.tenant
  | .evictExpired    => false

namespace Index

variable {cfg : Config F} {i j : Index F} {env env' : Env} {c : Call F} {u : Update F}

def eraseReserved (cfg : Config F) (i : Index F) : Index F where
  prefixes := i.prefixes.filter fun key _ => !cfg.isReservedTenant key.tenant
  stats := i.stats.filter fun sk _ => !cfg.isReservedTenant sk.tenant
  totalEntries := i.totalEntries - i.reservedEntries
  reservedEntries := 0
  prefixesByTenant := i.prefixesByTenant.filter fun tenant _ => !cfg.isReservedTenant tenant
  prefixesByTenantModel := i.prefixesByTenantModel.filter fun mk _ => !cfg.isReservedTenant mk.tenant
  servingByScope := i.servingByScope.filter fun scope _ => !cfg.isReservedTenant scope.tenant
  replicasByModel := i.replicasByModel.filter fun mk _ => !cfg.isReservedTenant mk.tenant

theorem entries_eraseReserved :
    (i.eraseReserved cfg).entries = i.entries.filter fun x _ => !cfg.isReservedTenant x.1.tenant :=
  Finmap.flatten_filter

theorem pairs_eraseReserved : (i.eraseReserved cfg).pairs = i.free cfg := by
  rw [pairs, entries_eraseReserved, Finmap.keys_filter_key, free, pairs]
  simp

theorem Consistent.eraseReserved (h : Consistent cfg i) : Consistent cfg (i.eraseReserved cfg) where
  noEmpty := h.noEmpty.filter
  servingNoEmpty := h.servingNoEmpty.filter
  total := by rw [pairs_eraseReserved, ← h.free_card]; rfl
  reserved := by
    rw [pairs_eraseReserved, Finset.filter_eq_empty_iff.mpr fun x hx => by simp [(mem_free.mp hx).2]]
    rfl
  byTenant := by
    have hf := h.byTenant.filter (p := fun tenant => !cfg.isReservedTenant tenant)
    rw [Index.eraseReserved, Finmap.keys_filter_key]
    exact hf
  byTenantModel := by
    have hf := h.byTenantModel.filter (p := fun mk => !cfg.isReservedTenant mk.tenant)
    rw [Index.eraseReserved, Finmap.keys_filter_key]
    exact hf
  serving := by
    have hf := h.serving.filter (p := fun x => !cfg.isReservedTenant x.1.tenant)
    rw [pairs_eraseReserved, free]
    rw [Index.eraseReserved, Finmap.flatten_filter]
    simpa [PrefixKey.scopeKey] using hf
  replicas sk := by
    rw [Index.eraseReserved, Finmap.lookup₂_filter, Finmap.lookup_filter]
    cases hs : cfg.isReservedTenant sk.tenant
    case true => cases i.stats.lookup sk <;> simp [StatsKey.modelKey, hs]
    case false => simpa [StatsKey.modelKey, hs] using h.replicas sk
  replicasNoEmpty := h.replicasNoEmpty.filter

section Counts

theorem foldl_range_keys {A : Type} {o : RangeOrder PrefixKey} {f : A → PrefixKey → A} {a : A} :
    (o.range i.prefixes).foldl (fun a x => if cfg.isReservedTenant x.1.tenant then a else f a x.1) a =
      ((o.list i.prefixes.keys).filter fun key => !cfg.isReservedTenant key.tenant).foldl f a := by
  rw [List.foldl_filter, ← RangeOrder.range_keys, List.foldl_map]
  refine congrFun (congrFun (congrArg _ ?_) _) _
  funext a x
  cases cfg.isReservedTenant x.1.tenant <;> rfl

def realKeys (cfg : Config F) (i : Index F) : Finset PrefixKey :=
  i.prefixes.keys.filter fun key => !cfg.isReservedTenant key.tenant

theorem realKeys_list {o : RangeOrder PrefixKey} :
    ((o.list i.prefixes.keys).filter fun key => !cfg.isReservedTenant key.tenant).toFinset =
      i.realKeys cfg := by
  ext key
  simp [realKeys, o.mem_list]

theorem entryCountsByModel_tallies (cfg : Config F) (i : Index F) (env : Env) :
    (i.entryCountsByModel cfg env).Tallies (i.realKeys cfg) PrefixKey.model := by
  rw [entryCountsByModel, foldl_range_keys (f := fun (c : GoMap GoString Int) key => c.incr key.model),
    ← realKeys_list]
  exact .foldl_incr <| (RangeOrder.nodup _ _).filter _

theorem foldl_aggregate {l : List PrefixKey} {agg : Aggregate} :
    l.foldl (fun agg key => ⟨agg.perTenant.incr key.tenant, agg.total + 1⟩) agg =
      ⟨l.foldl (fun c key => c.incr key.tenant) agg.perTenant, agg.total + l.length⟩ := by
  induction l generalizing agg
  case nil => simp
  case cons key l hi =>
    rw [List.foldl_cons, hi, List.foldl_cons, List.length_cons]
    simp only [Aggregate.mk.injEq, true_and]
    omega

theorem aggregateLocked_spec (cfg : Config F) (i : Index F) (env : Env) :
    (i.aggregateLocked cfg env).perTenant.Tallies (i.realKeys cfg) PrefixKey.tenant ∧
      (i.aggregateLocked cfg env).total = (i.realKeys cfg).card := by
  have hn := ((env.order 0).prefixes.nodup i.prefixes.keys).filter
    fun key => !cfg.isReservedTenant key.tenant
  rw [aggregateLocked, foldl_range_keys
    (f := fun (agg : Aggregate) key => ⟨agg.perTenant.incr key.tenant, agg.total + 1⟩),
    foldl_aggregate, ← realKeys_list (o := (env.order 0).prefixes)]
  refine ⟨.foldl_incr hn, ?_⟩
  rw [List.toFinset_card_of_nodup hn]
  simp

end Counts

section Calls

abbrev Reserved (cfg : Config F) (mk : ModelKey) : Prop :=
  cfg.isReservedTenant mk.tenant = true

abbrev Real (cfg : Config F) (mk : ModelKey) : Prop :=
  cfg.isReservedTenant mk.tenant = false

theorem ne_of_isReservedTenant {t t' : GoString} (h : cfg.isReservedTenant t = false)
    (h' : cfg.isReservedTenant t' = true) : t ≠ t' := by
  rintro rfl
  rw [h] at h'
  cases h'

theorem agreeOn_eraseReserved : AgreeOn (Real cfg) (i.eraseReserved cfg) i where
  entry _ _ hp := entryAt_of_filter_pos entries_eraseReserved fun _ => congrArg not hp
  stats _ hp := Finmap.lookup_filter_of_pos fun _ => congrArg not hp

namespace AgreeOn

theorem free (h : AgreeOn (Real cfg) i j) : i.free cfg = j.free cfg := by
  ext x
  rw [mem_free, mem_free, mem_pairs, mem_pairs]
  exact and_congr_left fun hp => by rw [h.entry x.1 x.2 hp]

theorem capRank (h : AgreeOn (Real cfg) i j) {x : PrefixKey × GoString} (hx : x ∈ i.free cfg) :
    i.capRank env x = j.capRank env x := by
  have hh : i.held x = j.held x := by rw [held, held, h.entry x.1 x.2 (mem_free.mp hx).2]
  rw [Index.capRank, Index.capRank, hh]

theorem realKeys (h : AgreeOn (Real cfg) i j) (hi : Consistent cfg i) (hj : Consistent cfg j) :
    i.realKeys cfg = j.realKeys cfg := by
  ext key
  simp only [Index.realKeys, Finset.mem_filter, hi.mem_keys_iff, hj.mem_keys_iff]
  refine and_congr_left fun hp => ?_
  simp only [h.entry key _ ((Bool.not_eq_true' _).mp hp)]

theorem capVictims (h : AgreeOn (Real cfg) i j) (hi : Consistent cfg i) (hj : Consistent cfg j)
    (he : env.evictionResolver = env'.evictionResolver) :
    i.capVictims cfg env = j.capVictims cfg env' := by
  by_cases hm : 0 < cfg.maxEntries
  case neg => rw [capVictims_of_unbounded hm, capVictims_of_unbounded hm]
  case pos =>
    have hv := (hi.enforceCapLocked_spec env hm).1
    have hv' := (hj.enforceCapLocked_spec env' hm).1
    rw [excess, ← h.free, ← excess, ← capRank_congr he] at hv'
    exact hv.unique <| hv'.congr fun x => h.capRank

theorem enforceCapLocked (h : AgreeOn (Real cfg) i j) (hi : Consistent cfg i) (hj : Consistent cfg j)
    (he : env.evictionResolver = env'.evictionResolver) :
    AgreeOn (Real cfg) (i.enforceCapLocked cfg env).1 (j.enforceCapLocked cfg env').1 := by
  refine h.of_filter hi.entries_enforceCapLocked hj.entries_enforceCapLocked
    (fun _ _ _ _ _ => by rw [h.capVictims hi hj he]) fun sk hp => ?_
  rw [stats_enforceCapLocked, stats_enforceCapLocked, h.stats sk hp]

-- The cap never takes an entry of a reserved tenant.
theorem enforceCapLocked_self (hi : Consistent cfg i) :
    AgreeOn (Reserved cfg) (i.enforceCapLocked cfg env).1 i where
  stats _ _ := by rw [stats_enforceCapLocked]
  entry key r hp := by
    refine entryAt_of_filter_pos hi.entries_enforceCapLocked fun _ => decide_eq_true fun hv => ?_
    exact ne_of_isReservedTenant (mem_free.mp <| hi.capVictims_subset hv).2 hp rfl

section Step

variable [GoFloat F]

theorem ingest (h : AgreeOn (Real cfg) i j) (hi : Consistent cfg i) (hj : Consistent cfg j)
    (he : env.SameInputs env') (hu : cfg.isReservedTenant u.tenant = false) :
    AgreeOn (Real cfg) (i.ingest cfg env u) (j.ingest cfg env' u) := by
  have hr : AgreeOn (Real cfg) (i.recordUpdate cfg env u) (j.recordUpdate cfg env' u) :=
    h.recordUpdate he
  have hq := hr.enforceQuota hi.recordUpdate hj.recordUpdate he fun key ht =>
    show cfg.isReservedTenant key.tenant = false from ht ▸ hu
  exact hq.enforceCapLocked hi.beforeCap hj.beforeCap he.evictionResolver

-- A report of a reserved tenant adds nothing that counts, so the cap stays kept and evicts nothing.
theorem ingest_reserved (hi : Consistent cfg i)
    (hb : 0 < cfg.maxEntries → ((i.free cfg).card : Int) ≤ cfg.maxEntries) (hu : cfg.isReservedTenant u.tenant) :
    AgreeOn (Real cfg) (i.ingest cfg env u) i := by
  have hc : Consistent cfg (i.beforeCap cfg env u) := hi.beforeCap
  have hf : AgreeOn (Real cfg) (i.beforeCap cfg env u) i :=
    (beforeCap_self hi).mono fun _ ht => ne_of_isReservedTenant ht hu
  have hv : (i.beforeCap cfg env u).capVictims cfg env = ∅ := by
    by_cases hm : 0 < cfg.maxEntries
    case neg => exact capVictims_of_unbounded hm
    case pos =>
      have hv := (hc.enforceCapLocked_spec env hm).1.card
      have hle := hb hm
      rw [excess, hf.free] at hv
      exact Finset.card_eq_zero.mp (by omega)
  refine hf.of_filter hc.entries_enforceCapLocked
    (Finmap.filter_eq_self (p := fun _ _ => true) fun _ _ _ => rfl).symm (by simp [hv]) fun sk hp => ?_
  rw [Index.ingest, stats_enforceCapLocked, hf.stats sk hp]

theorem step (h : AgreeOn (Real cfg) i j) (hi : Consistent cfg i) (hj : Consistent cfg j)
    (he : env.SameInputs env') (hc : c.isReserved cfg = false) :
    AgreeOn (Real cfg) (step cfg i (c, env)) (step cfg j (c, env')) := by
  cases c
  case ingest => exact h.ingest hi hj he hc
  case applyEvent => exact h.applyEvent he
  case evictExpired => exact h.evictExpired he
  case creditHit => exact h.creditHit

theorem step_reserved (env : Env) (hi : Consistent cfg i)
    (hb : 0 < cfg.maxEntries → ((i.free cfg).card : Int) ≤ cfg.maxEntries) (hc : c.isReserved cfg) :
    AgreeOn (Real cfg) (Index.step cfg i (c, env)) i := by
  cases c
  case evictExpired => cases hc
  case ingest => exact ingest_reserved hi hb hc
  case applyEvent => exact applyEvent_self.mono fun _ ht => ne_of_isReservedTenant ht hc
  case creditHit => exact creditHit_self.mono fun _ ht => ne_of_isReservedTenant ht hc

theorem step_real (env : Env) (hi : Consistent cfg i) (hc : c.isReserved cfg = false)
    (hs : c ≠ .evictExpired) :
    AgreeOn (Reserved cfg) (Index.step cfg i (c, env)) i := by
  cases c
  case evictExpired => exact absurd rfl hs
  case applyEvent => exact applyEvent_self.mono fun _ ht => (ne_of_isReservedTenant hc ht).symm
  case creditHit => exact creditHit_self.mono fun _ ht => (ne_of_isReservedTenant hc ht).symm
  case ingest =>
    exact (enforceCapLocked_self hi.beforeCap).trans <|
      (beforeCap_self hi).mono fun _ ht => (ne_of_isReservedTenant hc ht).symm

end Step

end AgreeOn

end Calls

section Run

variable [GoFloat F]

-- A run with calls of reserved tenants and the same run without them.
structure Simulates (cfg : Config F) (i j : Index F) : Prop where
  left  : Reachable cfg i
  right : Reachable cfg j
  agree : AgreeOn (Real cfg) i j
  clean : AgreeOn (Reserved cfg) j new

omit [GoFloat F] in
theorem evictExpired_new : (new : Index F).evictExpired cfg env = new := by
  refine Consistent.new.evictExpired.ext .new ?_ ?_
  case refine_1 => rw [entries_evictExpired, entries_new, Finmap.filter_empty]
  case refine_2 =>
    rw [stats_evictExpired]
    exact Finmap.filter_empty

theorem Reachable.step {c : Call F × Env} (h : Reachable cfg i) : Reachable cfg (step cfg i c) := by
  have ⟨calls, he⟩ := h
  exact ⟨calls ++ [c], by rw [run, List.foldl_concat, ← run, he]⟩

def SameCalls (calls calls' : List (Call F × Env)) : Prop :=
  List.Forall₂ (fun c c' => c.1 = c'.1 ∧ c.2.SameInputs c'.2) calls calls'

theorem Simulates.foldl {calls calls' : List (Call F × Env)} (h : Simulates cfg i j)
    (hc : SameCalls (calls.filter fun c => !c.1.isReserved cfg) calls') :
    Simulates cfg (calls.foldl (Index.step cfg) i) (calls'.foldl (Index.step cfg) j) := by
  induction calls generalizing i j calls'
  case nil => cases hc; exact h
  case cons c calls hi =>
    obtain ⟨c, env⟩ := c
    have hci := h.left.consistent
    have hcj := h.right.consistent
    rw [List.foldl_cons]
    cases hr : c.isReserved cfg
    case true =>
      rw [List.filter_cons_of_neg (by simp [hr])] at hc
      have ha := AgreeOn.step_reserved env hci h.left.free_card_le hr
      exact hi ⟨h.left.step, h.right, ha.trans h.agree, h.clean⟩ hc
    case false =>
      rw [List.filter_cons_of_pos (by simp [hr])] at hc
      cases hc
      case cons c' calls' hs hc =>
        obtain ⟨c', env'⟩ := c'
        obtain ⟨rfl, he⟩ := hs
        rw [List.foldl_cons]
        refine hi ⟨h.left.step, h.right.step, h.agree.step hci hcj he hr, ?_⟩ hc
        by_cases hs : c = .evictExpired
        case neg => exact (AgreeOn.step_real _ hcj hr hs).trans h.clean
        case pos =>
          subst hs
          have he : env'.SameInputs env' := ⟨rfl, rfl, rfl, rfl⟩
          have hn : (new : Index F).evictExpired cfg env' = new := evictExpired_new
          exact hn ▸ h.clean.evictExpired he

theorem Simulates.eraseReserved_eq (h : Simulates cfg i j) : i.eraseReserved cfg = j := by
  have ha : AgreeOn (Real cfg) (i.eraseReserved cfg) j := agreeOn_eraseReserved.trans h.agree
  refine h.left.consistent.eraseReserved.ext h.right.consistent ?_ ?_
  case refine_1 =>
    refine entries_ext fun key r => ?_
    cases hr : cfg.isReservedTenant key.tenant
    case false => exact ha.entry key r hr
    case true =>
      rw [h.clean.entry key r hr, entryAt_of_filter entries_eraseReserved]
      cases i.entryAt key r <;> simp [hr, Option.filter, new, entryAt]
  case refine_2 =>
    refine Finmap.ext_lookup fun sk => ?_
    cases hr : cfg.isReservedTenant sk.tenant
    case false => exact ha.stats sk hr
    case true =>
      rw [h.clean.stats sk hr, eraseReserved, Finmap.lookup_filter]
      cases i.stats.lookup sk <;> simp [hr, Option.filter, new]

theorem reserved_undisturbing (cfg : Config F) (calls calls' : List (Call F × Env))
    (h : SameCalls (calls.filter fun c => !c.1.isReserved cfg) calls') :
    let i := run cfg calls
    let j := run cfg calls'
    i.eraseReserved cfg = j ∧
    (∀ (env env' : Env) (u : Update F), env.SameInputs env' → cfg.isReservedTenant u.tenant = false →
      (i.beforeCap cfg env u).capVictims cfg env = (j.beforeCap cfg env' u).capVictims cfg env') ∧
    (∀ env env', i.aggregateLocked cfg env = j.aggregateLocked cfg env') ∧
    (∀ env env', i.entryCountsByModel cfg env = j.entryCountsByModel cfg env') ∧
    ∀ (c : Call F) (env : Env), c.isReserved cfg = false → c ≠ .evictExpired →
      (∀ key r, cfg.isReservedTenant key.tenant →
        (step cfg i (c, env)).entryAt key r = i.entryAt key r) ∧
      ∀ sk : StatsKey, cfg.isReservedTenant sk.tenant →
        (step cfg i (c, env)).stats.lookup sk = i.stats.lookup sk := by
  intro i j
  have hn : Simulates cfg (new : Index F) new := ⟨⟨[], rfl⟩, ⟨[], rfl⟩, .refl, .refl⟩
  have hs : Simulates cfg i j := hn.foldl h
  have hi := hs.left.consistent
  have hj := hs.right.consistent
  have hk := hs.agree.realKeys hi hj
  refine ⟨hs.eraseReserved_eq, fun env env' u he hu => ?_, fun env env' => ?_, fun env env' => ?_, ?_⟩
  case refine_1 =>
    have hr : AgreeOn (Real cfg) (i.recordUpdate cfg env u) (j.recordUpdate cfg env' u) :=
      hs.agree.recordUpdate he
    have hq := hr.enforceQuota hi.recordUpdate hj.recordUpdate he fun key ht =>
    show cfg.isReservedTenant key.tenant = false from ht ▸ hu
    exact hq.capVictims hi.beforeCap hj.beforeCap he.evictionResolver
  case refine_2 =>
    have ⟨hp, ht⟩ := aggregateLocked_spec cfg i env
    have ⟨hp', ht'⟩ := aggregateLocked_spec cfg j env'
    rw [hk] at hp ht
    exact Aggregate.ext (hp.unique hp') (ht.trans ht'.symm)
  case refine_3 =>
    have ht := entryCountsByModel_tallies cfg i env
    exact (hk ▸ ht).unique (entryCountsByModel_tallies cfg j env')
  case refine_4 =>
    intro c env hc hne
    have ha := AgreeOn.step_real env hi hc hne
    exact ⟨ha.entry, ha.stats⟩

end Run

section

-- A reserved tenant, and a report of it followed by one of another tenant.
def probed : Config ℚ :=
  .new 0 0 .default [[0x70]]

def probe : Call ℚ × Env := (.ingest <| .single [0x70] [0x61] [1] 1, .still 9)

def workload : Call ℚ × Env := (.ingest <| .single [0x74] [0x61] [1] 1, .still 9)

theorem reserved_undisturbing_probe :
    (run probed [probe, workload]).pairs.card = 2 ∧
      (run probed [probe, workload]).eraseReserved probed = run probed [workload] :=
  have h : SameCalls ([probe, workload].filter fun c => !c.1.isReserved probed) [workload] :=
    .cons ⟨rfl, rfl, rfl, rfl, rfl⟩ .nil
  ⟨by decide +kernel, (reserved_undisturbing probed _ _ h).1⟩

end

end Index

end InferenceCache
