import InferenceCache.Controller.Poller
import InferenceCache.Controller.Theorems.Propagation
import InferenceCache.Lib.Group

namespace InferenceCache.Controller

open Server Webhook

-- The tenant that counts for an ID: the first of those that have a quota.
structure Owns (items : List CacheTenant) (t : GoString) (ct : CacheTenant) : Prop where
  mem   : ct ∈ items
  quota : tenantHasQuota ct = true
  id    : ct.tenantID = t
  least : ∀ ct' ∈ items, tenantHasQuota ct' = true → ct'.tenantID = t → ct.key ≤ ct'.key

section Owners

variable {items items' : List CacheTenant} {ct ct' : CacheTenant} {t : GoString}

theorem compares_before_key : ComparesBy (before CacheTenant.inNamespace CacheTenant.name) CacheTenant.key :=
  compares_before CacheTenant.inNamespace CacheTenant.name

theorem Owns.perm (h : Owns items t ct) (hp : items.Perm items') : Owns items' t ct where
  mem := hp.mem_iff.mp h.mem
  quota := h.quota
  id := h.id
  least := fun ct' hm => h.least ct' (hp.mem_iff.mpr hm)

theorem find?_sortSlice_iff_owns (hn : (items.map CacheTenant.key).Nodup) :
    (sortSlice (before CacheTenant.inNamespace CacheTenant.name) items).find?
        (fun ct => tenantHasQuota ct ∧ ct.tenantID = t) = some ct ↔ Owns items t ct := by
  rw [find?_eq_some_iff_lowest (compares_before_key.pairwise_lt_sortSlice hn)]
  simp only [sortSlice_perm.mem_iff, decide_eq_true_eq, and_imp]
  exact ⟨fun ⟨hm, ⟨hq, hi⟩, hl⟩ => ⟨hm, hq, hi, hl⟩, fun h => ⟨h.mem, ⟨h.quota, h.id⟩, h.least⟩⟩

theorem lookup_effectiveTenantOwners (hn : (items.map CacheTenant.key).Nodup) {owner : ObjectKey} :
    (effectiveTenantOwners items).lookup t = some owner ↔ ∃ ct, Owns items t ct ∧ ct.key = owner := by
  have hf : ((items.filter tenantHasQuota).map CacheTenant.key).Nodup :=
    hn.sublist (List.filter_sublist.map CacheTenant.key)
  have hs := compares_before_key.pairwise_lt_sortSlice hf
  rw [effectiveTenantOwners, Finmap.lookup_foldl_insert_first, Finmap.lookup_empty, Option.none_or,
    Option.map_eq_some_iff]
  refine exists_congr fun ct => and_congr_left fun _ => ?_
  rw [find?_eq_some_iff_lowest hs]
  simp only [sortSlice_perm.mem_iff, List.mem_filter, decide_eq_true_eq, and_imp]
  exact ⟨fun ⟨⟨hm, hq⟩, hi, hl⟩ => ⟨hm, hq, hi, hl⟩, fun h => ⟨⟨h.mem, h.quota⟩, h.id, h.least⟩⟩

end Owners

section Quota

variable {F : Type} {policies : List (ResolvedPolicy F)} {tenants : List ResolvedTenant} {r : ResolvedTenant}
variable {items items' : List CacheTenant} {ct ct' : CacheTenant} {t : GoString}

theorem find?_firstPerID {seen : List GoString} (ht : t ∉ seen) :
    (firstPerID seen tenants).find? (·.tenantID = t) = tenants.find? (·.tenantID = t) := by
  fun_induction firstPerID seen tenants
  case case1 => rfl
  case case2 seen r tenants hm hi =>
    have hr : r.tenantID ≠ t := fun he => ht (he ▸ hm)
    rw [hi ht, List.find?_cons_of_neg (by simpa using hr)]
  case case3 seen r tenants hm hi =>
    rw [List.find?_cons, List.find?_cons]
    by_cases hr : r.tenantID = t
    case pos => simp [hr]
    case neg => simp [hr, hi (by simp [Ne.symm hr, ht])]

theorem nodup_firstPerID {seen : List GoString} :
    ((firstPerID seen tenants).map (·.tenantID)).Nodup ∧ ∀ r ∈ firstPerID seen tenants, r.tenantID ∉ seen := by
  fun_induction firstPerID seen tenants
  case case1 => simp
  case case2 hi => exact hi
  case case3 seen r tenants hm hi =>
    obtain ⟨hd, hs⟩ := hi
    refine ⟨List.nodup_cons.mpr ⟨fun hr => ?_, hd⟩, fun r' hr' => ?_⟩
    case refine_1 =>
      obtain ⟨r', hr', he⟩ := List.mem_map.mp hr
      exact hs r' hr' (he ▸ .head _)
    case refine_2 =>
      cases hr'
      case head => exact hm
      case tail hr' => exact fun hs' => hs r' hr' (.tail _ hs')

-- What has an ID is in the table, with a budget that is not negative. Of several with one ID it is the last.
theorem lookup_tenants_replaceSnapshot : (PolicyStore.replaceSnapshot policies tenants).tenants.lookup t =
    (tenants.reverse.find? fun r => r.tenantID ≠ [] ∧ r.tenantID = t).map
      fun r => { r with maxIndexEntries := max 0 r.maxIndexEntries } := by
  induction tenants using List.reverseRecOn
  case nil => rfl
  case append_singleton tenants r hi =>
    rw [List.reverse_concat, List.find?_cons]
    simp only [PolicyStore.replaceSnapshot, List.foldl_concat] at hi ⊢
    by_cases he : r.tenantID = []
    case pos => simp [he, hi]
    case neg =>
      by_cases hr : r.tenantID = t
      case pos => simp [hr ▸ he, hr]
      case neg => simp [he, hr, Finmap.lookup_insert_of_ne _ (Ne.symm hr), hi]

theorem tenantID_ne_nil_of_resolved (h : r ∈ resolveTenants items) : r.tenantID ≠ [] := by
  obtain ⟨ct, _, hr⟩ := List.mem_filterMap.mp (firstPerID_subset h)
  simp only [resolveOneTenant] at hr
  split at hr
  case isTrue => cases hr
  case isFalse hi =>
    obtain ⟨_, _, hr⟩ := Option.bind_eq_some_iff.mp hr
    obtain ⟨_, _, hr⟩ := Option.bind_eq_some_iff.mp hr
    cases hr
    exact hi

-- No ID is resolved twice, so it does not matter from which end one looks.
theorem lookup_tenants_resolved : (PolicyStore.replaceSnapshot policies (resolveTenants items)).tenants.lookup t =
    ((resolveTenants items).find? (·.tenantID = t)).map
      fun r => { r with maxIndexEntries := max 0 r.maxIndexEntries } := by
  rw [lookup_tenants_replaceSnapshot]
  congr 1
  cases hf : (resolveTenants items).find? (·.tenantID = t)
  case none =>
    rw [List.find?_eq_none] at hf ⊢
    intro r hr
    simpa using fun _ => by simpa using hf r (List.mem_reverse.mp hr)
  case some r =>
    have hm := List.mem_of_find?_eq_some hf
    have ht : r.tenantID = t := by simpa using List.find?_some hf
    cases hr : (resolveTenants items).reverse.find? fun r => r.tenantID ≠ [] ∧ r.tenantID = t
    case none =>
      have hne := tenantID_ne_nil_of_resolved hm
      exact absurd (List.find?_eq_none.mp hr r (List.mem_reverse.mpr hm)) (by simp [ht ▸ hne, ht])
    case some r' =>
      have hm' := List.mem_reverse.mp (List.mem_of_find?_eq_some hr)
      have hr' := List.find?_some hr
      have ht' : r'.tenantID = t := (decide_eq_true_eq.mp hr').2
      rw [List.inj_on_of_nodup_map nodup_firstPerID.1 hm' hm (ht'.trans ht.symm)]

theorem resolveOneTenant_eq : resolveOneTenant ct = if tenantHasQuota ct then
    ct.maxIndexEntries.map fun b => ⟨ct.tenantID, b.toInt, ct.isolationMode⟩ else none := by
  have ⟨_, _, id, quota, _⟩ := ct
  by_cases hi : id = []
  case pos => simp [resolveOneTenant, tenantHasQuota, hi]
  case neg =>
    cases quota
    case none => simp [resolveOneTenant, tenantHasQuota, CacheTenant.maxIndexEntries]
    case some quota =>
      cases h : quota.maxIndexEntries <;>
        simp [resolveOneTenant, tenantHasQuota, CacheTenant.maxIndexEntries, hi, h]

theorem find?_resolveTenants (hn : (items.map CacheTenant.key).Nodup) :
    (resolveTenants items).find? (·.tenantID = t) = some r ↔
      ∃ ct, Owns items t ct ∧ resolveOneTenant ct = some r := by
  rw [resolveTenants, find?_firstPerID (by simp), List.find?_filterMap, Option.bind_eq_some_iff]
  refine exists_congr fun ct => and_congr_left fun _ => ?_
  rw [← find?_sortSlice_iff_owns hn]
  have hp : (fun ct : CacheTenant => (resolveOneTenant ct).any (·.tenantID = t)) =
      fun ct => decide (tenantHasQuota ct = true ∧ ct.tenantID = t) := by
    funext ct
    rw [resolveOneTenant_eq]
    by_cases hq : tenantHasQuota ct = true
    case pos =>
      have ⟨b, hb⟩ := Option.isSome_iff_exists.mp (decide_eq_true_eq.mp hq).2
      simp [hq, hb]
    case neg => simp [hq]
  rw [hp]

theorem Owns.budget (h : Owns items t ct) : ∃ b, ct.maxIndexEntries = some b :=
  Option.isSome_iff_exists.mp (decide_eq_true_eq.mp h.quota).2

theorem tenantQuota_of_owns (hn : (items.map CacheTenant.key).Nodup) (ho : Owns items t ct)
    (hb : ct.maxIndexEntries = some b) (h0 : 0 ≤ b) (ht : t ≠ probeTenantID) :
    (PolicyStore.replaceSnapshot policies (resolveTenants items)).tenantQuota t = some b.toInt := by
  have hr : resolveOneTenant ct = some ⟨ct.tenantID, b.toInt, ct.isolationMode⟩ := by
    rw [resolveOneTenant_eq, if_pos ho.quota, hb, Option.map_some]
  have hf := (find?_resolveTenants hn).mpr ⟨ct, ho, hr⟩
  have h0 : 0 ≤ b.toInt := Int64.le_iff_toInt_le.mp h0
  rw [PolicyStore.tenantQuota, if_neg ht, lookup_tenants_resolved, hf]
  simp [h0]

theorem tenantQuota_of_unowned (hn : (items.map CacheTenant.key).Nodup) (ho : ∀ ct, ¬Owns items t ct) :
    (PolicyStore.replaceSnapshot policies (resolveTenants items)).tenantQuota t = none := by
  have hf : (resolveTenants items).find? (·.tenantID = t) = none := by
    rw [Option.eq_none_iff_forall_ne_some]
    intro r hr
    have ⟨ct, h, _⟩ := (find?_resolveTenants hn).mp hr
    exact ho ct h
  rw [PolicyStore.tenantQuota, lookup_tenants_resolved, hf]
  simp

end Quota

section Agreement

def withBudget (key : ObjectKey) (b : Int64) (ct : CacheTenant) : CacheTenant :=
  if ct.key = key then { ct with quota := some ⟨some b⟩ } else ct

-- The budget of a tenant is the enforced one if the server follows it, whatever it is changed to.
def Enforced {F : Type} (policies : List (ResolvedPolicy F)) (items : List CacheTenant) (ct : CacheTenant) : Prop :=
  tenantHasQuota ct = true ∧ ∀ b : Int64, 0 ≤ b →
    (PolicyStore.replaceSnapshot policies (resolveTenants (items.map (withBudget ct.key b)))).tenantQuota ct.tenantID =
      some b.toInt

variable {F : Type} {policies : List (ResolvedPolicy F)} {items items' : List CacheTenant} {ct ct' : CacheTenant}
variable {t : GoString} {key : ObjectKey} {b : Int64}

theorem key_withBudget : (withBudget key b ct).key = ct.key := by
  simp only [withBudget]
  split <;> rfl

theorem tenantID_withBudget : (withBudget key b ct).tenantID = ct.tenantID := by
  simp only [withBudget]
  split <;> rfl

theorem map_key_withBudget : (items.map (withBudget key b)).map CacheTenant.key = items.map CacheTenant.key := by
  rw [List.map_map]
  exact List.map_congr_left fun _ _ => key_withBudget

-- Who has a quota is the same if only one that has a quota gets another one.
theorem tenantHasQuota_withBudget (hn : (items.map CacheTenant.key).Nodup) (hm : ct ∈ items)
    (hq : tenantHasQuota ct = true) (hm' : ct' ∈ items) :
    tenantHasQuota (withBudget ct.key b ct') = tenantHasQuota ct' := by
  simp only [withBudget]
  split
  case isFalse => rfl
  case isTrue he =>
    cases List.inj_on_of_nodup_map hn hm' hm he
    have hi := (decide_eq_true_eq.mp hq).1
    rw [hq]
    simpa [tenantHasQuota, CacheTenant.maxIndexEntries] using hi

theorem Owns.withBudget (hn : (items.map CacheTenant.key).Nodup) (ho : Owns items t ct') (hm : ct ∈ items)
    (hq : tenantHasQuota ct = true) : Owns (items.map (withBudget ct.key b)) t (withBudget ct.key b ct') where
  mem := List.mem_map_of_mem ho.mem
  quota := by rw [tenantHasQuota_withBudget hn hm hq ho.mem, ho.quota]
  id := by rw [tenantID_withBudget, ho.id]
  least := by
    intro x hx hq' hi
    have ⟨x', hx', he⟩ := List.mem_map.mp hx
    subst he
    rw [tenantHasQuota_withBudget hn hm hq hx'] at hq'
    rw [tenantID_withBudget] at hi
    rw [key_withBudget, key_withBudget]
    exact ho.least x' hx' hq' hi

theorem exists_owns (hn : (items.map CacheTenant.key).Nodup) (hm : ct ∈ items) (hq : tenantHasQuota ct = true) :
    ∃ o, Owns items ct.tenantID o := by
  cases hf : (sortSlice (before CacheTenant.inNamespace CacheTenant.name) items).find?
    (fun ct' => tenantHasQuota ct' ∧ ct'.tenantID = ct.tenantID)
  case some o => exact ⟨o, (find?_sortSlice_iff_owns hn).mp hf⟩
  case none => exact absurd (List.find?_eq_none.mp hf ct (sortSlice_perm.mem_iff.mpr hm)) (by simp [hq])

-- An ID has one owner, and only the owner's budget makes a difference.
theorem enforced_iff_owns (hn : (items.map CacheTenant.key).Nodup)
    (hb : ∀ ct ∈ items, ∀ b, ct.maxIndexEntries = some b → 0 ≤ b)
    (hr : ∀ ct ∈ items, ct.tenantID ≠ probeTenantID) (hm : ct ∈ items) :
    Enforced policies items ct ↔ Owns items ct.tenantID ct := by
  have hn' (b : Int64) : ((items.map (withBudget ct.key b)).map CacheTenant.key).Nodup := by
    rwa [map_key_withBudget]
  constructor
  case mpr =>
    intro ho
    refine ⟨ho.quota, fun b h0 => ?_⟩
    have ho' := ho.withBudget (b := b) hn hm ho.quota
    exact tenantQuota_of_owns (hn' b) ho' (by simp [withBudget, CacheTenant.maxIndexEntries]) h0 (hr ct hm)
  case mp =>
    intro ⟨hq, he⟩
    have ⟨o, ho⟩ := exists_owns hn hm hq
    by_cases hk : o.key = ct.key
    case pos => exact List.inj_on_of_nodup_map hn ho.mem hm hk ▸ ho
    case neg =>
      -- The budget of the owner stays, so the server cannot follow the budget of `ct`.
      have ⟨b', hb'⟩ := ho.budget
      have hf (b : Int64) (h0 : 0 ≤ b) : b.toInt = b'.toInt := by
        have ho' := ho.withBudget (b := b) hn hm hq
        rw [show withBudget ct.key b o = o from if_neg hk] at ho'
        exact Option.some.inj <|
          (he b h0).symm.trans (tenantQuota_of_owns (hn' b) ho' hb' (hb o ho.mem b' hb') (hr ct hm))
      have h := (hf 0 (by decide)).trans (hf 1 (by decide)).symm
      exact absurd h (by decide)

def isDuplicate (ct : TenantObject) : Prop :=
  ct.status.ready.map (·.reason) = some .duplicateTenantID

theorem isDuplicate_projectTenant [Zero F] (lib : Adapters.Library) (snap : Snapshot F)
    (owners : GoMap GoString ObjectKey) (ct : TenantObject) :
    (projectTenant lib snap owners ct).ready.map (·.reason) = some .duplicateTenantID ↔
      ∃ o, owners.lookup ct.tenantID = some o ∧ o ≠ ct.key := by
  simp only [projectTenant, buildCacheTenantStatus]
  cases hs : shadowedBy owners ct.toCacheTenant
  case none =>
    rw [shadowedBy, Option.filter_eq_none_iff] at hs
    simpa using hs
  case some o =>
    rw [shadowedBy, Option.filter_eq_some_iff] at hs
    refine iff_of_true rfl ⟨o, hs.1, by simpa using hs.2⟩

-- Every tenant is still there, and has the projected status unless its write has failed.
theorem reconcileTenantStatuses_eq [Zero F] (lib : Adapters.Library) (snap : Snapshot F)
    (objects : List TenantObject) (patch : ObjectKey → Option GoString) :
    ∃ after errs, reconcileTenantStatuses lib (.ok objects) patch snap = .ok (after, errs) ∧
      after.map (·.toCacheTenant) = objects.map (·.toCacheTenant) ∧
      ∀ ct ∈ after, patch ct.key = none → ∃ ct₀ ∈ objects, ct₀.toCacheTenant = ct.toCacheTenant ∧
        ct.status = projectTenant lib snap (effectiveTenantOwners (objects.map (·.toCacheTenant))) ct₀ := by
  refine ⟨_, _, rfl, ?_, ?_⟩
  case refine_1 =>
    rw [List.map_map, List.map_map]
    refine List.map_congr_left fun ct _ => ?_
    simp only [Function.comp_apply]
    split <;> try split
    all_goals rfl
  case refine_2 =>
    intro ct hm hp
    rw [List.map_map] at hm
    have ⟨ct₀, hm₀, he⟩ := List.mem_map.mp hm
    refine ⟨ct₀, hm₀, ?_⟩
    simp only [Function.comp_apply] at he
    split at he
    case isTrue hs => exact he ▸ ⟨rfl, hs⟩
    case isFalse =>
      split at he
      case h_1 => exact he ▸ ⟨rfl, rfl⟩
      case h_2 err =>
        rw [← he, err] at hp
        cases hp

-- The server, which has seen the tenants in one order, and the poller, which has seen them in another, agree
-- on whose budget counts. A tenant is reported as a duplicate if and only if that is someone else's.
theorem quota_enforced_is_reported [Zero F] (lib : Adapters.Library) (snap : Snapshot F)
    (policies : List (ResolvedPolicy F)) (items : List CacheTenant) (objects : List TenantObject)
    (patch : ObjectKey → Option GoString) (hn : (items.map CacheTenant.key).Nodup)
    (hb : ∀ ct ∈ items, ∀ b, ct.maxIndexEntries = some b → 0 ≤ b)
    (hr : ∀ ct ∈ items, ct.tenantID ≠ probeTenantID) (hp : (objects.map (·.toCacheTenant)).Perm items) :
    let store := PolicyStore.replaceSnapshot policies (resolveTenants items)
    let owners := effectiveTenantOwners (objects.map (·.toCacheTenant))
    (∀ t owner, owners.lookup t = some owner → ∃ ct ∈ items, ct.key = owner ∧ ct.tenantID = t ∧
      ∃ b, ct.maxIndexEntries = some b ∧ store.tenantQuota t = some b.toInt) ∧
    (∀ t, store.tenantQuota t = none ↔ owners.lookup t = none) ∧
    ∃ after errs, reconcileTenantStatuses lib (.ok objects) patch snap = .ok (after, errs) ∧
      after.map (·.toCacheTenant) = objects.map (·.toCacheTenant) ∧
      ∀ ct ∈ after, patch ct.key = none → (isDuplicate ct ↔
        ∃ other ∈ items, other.key ≠ ct.key ∧ other.tenantID = ct.tenantID ∧ Enforced policies items other) := by
  have hn' : ((objects.map (·.toCacheTenant)).map CacheTenant.key).Nodup := (hp.map _).nodup_iff.mpr hn
  have ho {t : GoString} {owner : ObjectKey} :
      (effectiveTenantOwners (objects.map (·.toCacheTenant))).lookup t = some owner ↔
        ∃ ct, Owns items t ct ∧ ct.key = owner := by
    rw [lookup_effectiveTenantOwners hn']
    exact exists_congr fun ct => and_congr_left fun _ => ⟨fun h => h.perm hp, fun h => h.perm hp.symm⟩
  have hq {t : GoString} {ct : CacheTenant} (h : Owns items t ct) : ∃ b, ct.maxIndexEntries = some b ∧
      (PolicyStore.replaceSnapshot policies (resolveTenants items)).tenantQuota t = some b.toInt := by
    have ⟨b, he⟩ := h.budget
    exact ⟨b, he, tenantQuota_of_owns hn h he (hb ct h.mem b he) (h.id ▸ hr ct h.mem)⟩
  have ⟨after, errs, he, hs, hd⟩ := reconcileTenantStatuses_eq lib snap objects patch
  refine ⟨fun t owner h => ?_, fun t => ?_, after, errs, he, hs, fun ct hm hpatch => ?_⟩
  case refine_1 =>
    have ⟨ct, h, hk⟩ := ho.mp h
    exact ⟨ct, h.mem, hk, h.id, hq h⟩
  case refine_2 =>
    constructor
    case mp =>
      intro hnone
      rw [Option.eq_none_iff_forall_ne_some]
      intro owner h
      have ⟨ct, h, _⟩ := ho.mp h
      have ⟨b, _, hsome⟩ := hq h
      rw [hsome] at hnone
      cases hnone
    case mpr =>
      intro hl
      refine tenantQuota_of_unowned hn fun ct h => ?_
      rw [ho.mpr ⟨ct, h, rfl⟩] at hl
      cases hl
  case refine_3 =>
    have ⟨ct₀, _, hc, hst⟩ := hd ct hm hpatch
    rw [isDuplicate, hst, isDuplicate_projectTenant, hc]
    constructor
    case mp =>
      rintro ⟨o, hl, hne⟩
      have ⟨other, h, hk⟩ := ho.mp hl
      refine ⟨other, h.mem, hk ▸ hne, h.id, ?_⟩
      rw [enforced_iff_owns hn hb hr h.mem, h.id]
      exact h
    case mpr =>
      rintro ⟨other, hm, hne, hi, hf⟩
      rw [enforced_iff_owns hn hb hr hm, hi] at hf
      exact ⟨other.key, ho.mpr ⟨other, hf, rfl⟩, hne⟩

def quotaless : CacheTenant :=
  { inNamespace := utf8 "a", name := utf8 "tenant", tenantID := utf8 "shared" }

def budgeted (ns : GoString) (budget : Int64) : CacheTenant :=
  { inNamespace := ns, name := utf8 "tenant", tenantID := utf8 "shared", quota := some ⟨some budget⟩ }

def shared : List CacheTenant :=
  [quotaless, budgeted (utf8 "b") 10, budgeted (utf8 "c") 20]

def sharedObjects : List TenantObject :=
  shared.reverse.map fun ct => ⟨ct, 1, {}⟩

-- The first of three has no quota, so the second one counts for all.
theorem quota_enforced_is_reported_shared :
    (shared.map CacheTenant.key).Nodup ∧ (sharedObjects.map (·.toCacheTenant)).Perm shared ∧
      ∃ after errs,
        reconcileTenantStatuses .plain (.ok sharedObjects) (fun _ => none) (⟨[], [], 0, 0⟩ : Snapshot ℚ) =
          .ok (after, errs) ∧
        after.map (·.status.ready.map (·.reason)) =
          [some .duplicateTenantID, some .observed, some .duplicateTenantID] ∧
        ∀ ct ∈ after, isDuplicate ct ↔ ∃ other ∈ shared, other.key ≠ ct.key ∧ other.tenantID = ct.tenantID ∧
          Enforced ([] : List (ResolvedPolicy ℚ)) shared other := by
  have hn : (shared.map CacheTenant.key).Nodup := by decide +kernel
  have hp : (sharedObjects.map (·.toCacheTenant)).Perm shared := by
    rw [sharedObjects, List.map_map]
    exact (List.map_id _).symm ▸ shared.reverse_perm
  have hb : ∀ ct ∈ shared, ∀ b, ct.maxIndexEntries = some b → 0 ≤ b := by
    simp [shared, quotaless, budgeted, CacheTenant.maxIndexEntries]
  have ⟨_, _, after, errs, he, _, hd⟩ := quota_enforced_is_reported (F := ℚ) .plain ⟨[], [], 0, 0⟩ []
    shared sharedObjects (fun _ => none) hn hb (by decide +kernel) hp
  have hs : (reconcileTenantStatuses .plain (.ok sharedObjects) (fun _ => none)
      (⟨[], [], 0, 0⟩ : Snapshot ℚ)).toOption.map (fun r => r.1.map (·.status.ready.map (·.reason))) =
        some [some .duplicateTenantID, some .observed, some .duplicateTenantID] := by
    decide +kernel
  rw [he] at hs
  exact ⟨hn, hp, after, errs, he, Option.some.inj hs, fun ct hm => hd ct hm rfl⟩

end Agreement

end InferenceCache.Controller
