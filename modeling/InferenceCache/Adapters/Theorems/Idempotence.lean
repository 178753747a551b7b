import InferenceCache.Adapters.Theorems.Args

namespace InferenceCache.Adapters

open Kube Api

section Args

variable {flag value : GoString} {args : List GoString}

def FirstValue (flag value : GoString) (args : List GoString) : Prop :=
  ∃ before after, args = before ++ flag :: value :: after ∧ hasArg before flag = false

theorem firstValue_upsertArgPair : FirstValue flag value (upsertArgPair flag value args) := by
  induction args
  case nil => exact ⟨[], [], rfl, rfl⟩
  case cons arg args hi =>
    rw [upsertArgPair]
    split_ifs with hn hp
    case pos => exact ⟨[], args.drop 1, by rw [hn]; rfl, rfl⟩
    case pos => exact ⟨[], args, rfl, rfl⟩
    case neg =>
      obtain ⟨before, after, ha, hb⟩ := hi
      exact ⟨arg :: before, after, by rw [ha]; rfl, hasArg_cons.mpr ⟨hn, by simpa using hp, hb⟩⟩

theorem upsertArgPair_of_firstValue (h : FirstValue flag value args) : upsertArgPair flag value args = args := by
  obtain ⟨before, after, ha, hb⟩ := h
  subst ha
  induction before
  case nil => simp [upsertArgPair]
  case cons arg before hi =>
    obtain ⟨hn, hp, hb⟩ := hasArg_cons.mp hb
    simp [upsertArgPair, hn, hp, hi hb]

theorem FirstValue.append (h : FirstValue flag value args) (args' : List GoString) :
    FirstValue flag value (args ++ args') :=
  have ⟨before, after, ha, hb⟩ := h
  ⟨before, after ++ args', by simp [ha], hb⟩

-- An argument that is lost is one that is taken for the value.
theorem not_mem_upsertArgPair (ht : hasArg [t] flag = false) (hv : t ≠ value) :
    t ∉ upsertArgPair flag value args ↔ t ∉ args ∨ ∃ before after, args = before ++ flag :: t :: after ∧
      hasArg before flag = false ∧ t ∉ before ∧ t ∉ after := by
  have ⟨htf, htp, _⟩ := hasArg_cons.mp ht
  have hf : ¬hasArg [flag] flag = false := by simp [hasArg]
  cases occurs flag args
  case absent h =>
    rw [← List.append_nil args, upsertArgPair_of_not_hasArg h]
    constructor
    case mp => simp_all [upsertArgPair]
    case mpr =>
      rintro (hn | ⟨before, after, he, _⟩)
      case inl => simp_all [upsertArgPair]
      case inr =>
        rw [List.append_nil] at he
        exact absurd (hasArg_append.mp (he ▸ h)).2 (by simp [hasArg])
  case assigned before arg after h hn ha =>
    have hx : ¬hasArg [arg] flag = false := by simp [hasArg, ha]
    have hta : t ≠ arg := by
      rintro rfl
      cases htp.symm.trans ha
    rw [upsertArgPair_of_not_hasArg h, upsertArgPair, if_neg hn, if_pos ha]
    constructor
    case mp => simp_all
    case mpr =>
      rintro (hm | ⟨before', after', he, hb, _⟩)
      case inl => simp_all
      case inr => exact absurd (first_unique h hb hx hf he).2.1 hn
  case last before h =>
    rw [upsertArgPair_of_not_hasArg h, upsertArgPair, if_pos rfl]
    constructor
    case mp => simp_all
    case mpr =>
      rintro (hm | ⟨before', after', he, hb, _⟩)
      case inl => simp_all
      case inr => cases (first_unique h hb hf hf he).2.2
  case bare before s after h =>
    rw [upsertArgPair_of_not_hasArg h, upsertArgPair, if_pos rfl, List.drop_one, List.tail_cons]
    by_cases hs : t = s
    case pos =>
      subst hs
      constructor
      case mp =>
        intro hm
        refine .inr ⟨before, after, rfl, h, ?_, ?_⟩
        all_goals simp_all
      case mpr =>
        rintro (hm | ⟨before', after', he, hb, hbn, han⟩)
        case inl => simp at hm
        case inr =>
          obtain ⟨rfl, _, he⟩ := first_unique h hb hf hf he
          cases he
          simp_all
    case neg =>
      constructor
      case mp => simp_all
      case mpr =>
        rintro (hm | ⟨before', after', he, hb, _⟩)
        case inl => simp_all
        case inr =>
          cases (first_unique h hb hf hf he).2.2
          contradiction

end Args

namespace Engine

variable {e : Engine} {cache : CacheBackend} {args : List GoString}

theorem firstValue_wireArgs : FirstValue e.pairFlag (e.pairValue cache) (e.wireArgs cache args) := by
  rw [wireArgs_eq]
  exact firstValue_upsertArgPair.append _

theorem missing_late (h : e.wireArgs cache args <+: args') : missing (e.late cache) args' = [] := by
  refine List.filter_eq_nil_iff.mpr fun t ht => ?_
  simp only [decide_not, Bool.not_eq_true', decide_eq_false_iff_not, not_not]
  apply h.subset
  rw [wireArgs_eq]
  by_cases hm : t ∈ e.paired cache args
  case pos => exact List.mem_append_left _ hm
  case neg => exact List.mem_append_right _ (List.mem_filter.mpr ⟨ht, by simpa using hm⟩)

-- All that a second pass does to the arguments is to add what the first has lost.
theorem wireArgs_wireArgs : e.wireArgs cache (e.wireArgs cache args) =
    e.wireArgs cache args ++ missing e.early (e.wireArgs cache args) := by
  have hp : e.paired cache (e.wireArgs cache args) =
      e.wireArgs cache args ++ missing e.early (e.wireArgs cache args) :=
    upsertArgPair_of_firstValue (firstValue_wireArgs.append _)
  rw [wireArgs_eq, hp, missing_late (List.prefix_append ..), List.append_nil]

-- A flag that the adapter adds, and overwrites since it is behind another one that has no value.
def LosesFlag (args : List GoString) (e : Engine) : Prop :=
  ∃ t ∈ e.early, ∃ before, hasArg before e.pairFlag = false ∧ t ∉ before ∧
    (args = before ++ [e.pairFlag] ∨ ∃ after, args = before ++ e.pairFlag :: t :: after ∧ t ∉ after)

theorem not_mem_wireArgs (ht : t ∈ e.early) : t ∉ e.wireArgs cache args ↔ t ∉ e.paired cache args := by
  have hl : t ∉ e.late cache := by
    cases e
    case vllm => cases ht
    case sglang =>
      cases List.mem_singleton.mp ht
      rw [late]
      split
      case isTrue => simp
      case isFalse => exact fun hm => sglang_spelled.2.2.2 (List.mem_singleton.mp hm)
  rw [wireArgs_eq, List.mem_append, not_or]
  exact and_iff_left fun hm => hl (List.mem_filter.mp hm).1

theorem missing_early (ht : t ∈ e.early) : missing e.early args = if t ∈ args then [] else [t] := by
  cases e
  case vllm => cases ht
  case sglang =>
    cases List.mem_singleton.mp ht
    simp only [missing, early, List.filter_cons, List.filter_nil]
    split <;> simp_all

theorem not_mem_wireArgs_iff (ht : t ∈ e.early) : t ∉ e.wireArgs cache args ↔
    ∃ before, hasArg before e.pairFlag = false ∧ t ∉ before ∧
      (args = before ++ [e.pairFlag] ∨ ∃ after, args = before ++ e.pairFlag :: t :: after ∧ t ∉ after) := by
  have ⟨hd, hn⟩ := apart_early t ht
  have hv : t ≠ e.pairValue cache := by
    rintro rfl
    cases hd.symm.trans isFlag_pairValue
  have htf : t ≠ e.pairFlag := (hasArg_cons.mp hn).1
  rw [not_mem_wireArgs ht, paired, not_mem_upsertArgPair hn hv, missing_early ht]
  by_cases hm : t ∈ args
  case pos =>
    rw [if_pos hm, List.append_nil]
    constructor
    case mp =>
      rintro (hm' | ⟨before, after, he, hb, hbn, han⟩)
      case inl => contradiction
      case inr => exact ⟨before, hb, hbn, .inr ⟨after, he, han⟩⟩
    case mpr =>
      rintro ⟨before, hb, hbn, he | ⟨after, he, han⟩⟩
      case inl => simp_all
      case inr => exact .inr ⟨before, after, he, hb, hbn, han⟩
  case neg =>
    rw [if_neg hm]
    constructor
    case mp =>
      rintro (hm' | ⟨before, after, he, hb, hbn, han⟩)
      case inl => simp at hm'
      case inr =>
        -- What is added is the last argument.
        cases List.eq_nil_or_concat after
        case inl h =>
          subst h
          have he : args ++ [t] = (before ++ [e.pairFlag]) ++ [t] := by simpa using he
          exact ⟨before, hb, hbn, .inl (List.append_cancel_right he)⟩
        case inr h =>
          obtain ⟨after, x, rfl⟩ := h
          have he : args ++ [t] = (before ++ e.pairFlag :: t :: after) ++ [x] := by simpa using he
          have hx := (List.append_inj' he rfl).2
          simp_all
    case mpr =>
      rintro ⟨before, hb, hbn, he | ⟨after, he, _⟩⟩
      case inl => exact .inr ⟨before, [], by simp [he], hb, hbn, by simp⟩
      case inr => simp [he] at hm

theorem wireArgs_again_iff :
    e.wireArgs cache (e.wireArgs cache args) = e.wireArgs cache args ↔ ¬e.LosesFlag args := by
  rw [wireArgs_wireArgs, List.append_right_eq_self, missing, List.filter_eq_nil_iff, LosesFlag]
  simp only [not_exists, not_and]
  refine forall₂_congr fun t ht => ?_
  rw [decide_eq_true_iff, not_mem_wireArgs_iff ht]
  simp

theorem wireEnv_eq_set :
    e.wireEnv cache env = Keyed.set EnvVar.name (e.replacedEnv cache) (e.movedEnv cache) env :=
  wireEnv_eq

theorem wireEnv_wireEnv : e.wireEnv cache (e.wireEnv cache env) = e.wireEnv cache env := by
  have hp := setEnv_pairwise cache e
  rw [wireEnv_eq_set, wireEnv_eq_set, (Keyed.done_set hp).set hp]

end Engine

section Wire

variable {lib : Library} {w w' : Wire} {vol : Volume} {mnt : VolumeMount}

def Wire.put (vol : Volume) (mnt : VolumeMount) (w : Wire) : Wire where
  volumes := Keyed.upsert Volume.name vol w.volumes
  mounts  := upsertMountByName mnt w.mounts

structure Wire.Has (vol : Volume) (mnt : VolumeMount) (w : Wire) : Prop where
  volume : Keyed.first Volume.name vol.name w.volumes = some vol
  mount  : Keyed.first VolumeMount.name mnt.name w.mounts = some mnt

def Wire.At (path name : GoString) (w : Wire) : Prop :=
  ∃ m, mountAtPath path w.mounts = some m ∧ m.name = name

theorem Wire.has_put : (w.put vol mnt).Has vol mnt where
  volume := by simp [put, Keyed.first_upsert]
  mount := by simp [put, upsertMountByName, Keyed.first_upsert]

theorem Wire.Has.put (h : w.Has vol mnt) (hv : vol'.name ≠ vol.name) (hm : mnt'.name ≠ mnt.name) :
    (w.put vol' mnt').Has vol mnt where
  volume := by rw [Wire.put, Keyed.first_upsert, if_neg hv, h.volume]
  mount := by rw [Wire.put, upsertMountByName, Keyed.first_upsert, if_neg hm, h.mount]

theorem Wire.Has.put_self (h : w.Has vol mnt) : w.put vol mnt = w := by
  rw [Wire.put, upsertMountByName, Keyed.upsert_of_first h.volume, Keyed.upsert_of_first h.mount]

theorem Wire.at_put (h : mountAtPath mnt.mountPath w.mounts = none ∨ w.At mnt.mountPath mnt.name) :
    (w.put vol mnt).At mnt.mountPath mnt.name := by
  cases h
  case inl h => exact ⟨mnt, Keyed.first_path_upsert_of_none h rfl, rfl⟩
  case inr h =>
    have ⟨m, hm, hn⟩ := h
    exact Keyed.first_path_upsert_of_key hm hn rfl

theorem Wire.At.put (h : w.At path name) (hp : mnt.mountPath ≠ path) (hn : mnt.name ≠ name) :
    (w.put vol mnt).At path name := by
  have ⟨m, hm, hx⟩ := h
  exact ⟨m, Keyed.first_path_upsert_of_ne hm (hx ▸ hn.symm) hp, hx⟩

theorem adopt_eq_ok {l l' : List α} {name : α → GoString} : adopt name err want owned l = .ok l' ↔
    (owned = true ∨ Keyed.first name (name want) l = none) ∧ l' = Keyed.upsert name want l := by
  unfold adopt
  cases owned <;> cases Keyed.first name (name want) l <;> simp [eq_comm]

theorem addVolume_eq_ok :
    (do let volumes ← adoptVolume lib vol owned w.volumes
        return Wire.mk volumes (upsertMountByName mnt w.mounts) : Except GoString Wire) = .ok w' ↔
      (owned = true ∨ Keyed.first Volume.name vol.name w.volumes = none) ∧ w' = w.put vol mnt := by
  simp only [Except.bind_eq_ok, adoptVolume, adopt_eq_ok, Except.pure_eq_ok]
  constructor
  case mp =>
    rintro ⟨volumes, ⟨ho, rfl⟩, rfl⟩
    exact ⟨ho, rfl⟩
  case mpr =>
    rintro ⟨ho, rfl⟩
    exact ⟨_, ⟨ho, rfl⟩, rfl⟩

-- A path that is reserved for a volume of an adapter. What is there has to be that volume, and has to be
-- rendered by the adapter.
structure Wire.Reserves (owned : Bool) (vol : Volume) (mnt : VolumeMount) (w : Wire) : Prop where
  path   : mountAtPath mnt.mountPath w.mounts = none ∨ owned = true ∧ w.At mnt.mountPath mnt.name
  volume : owned = true ∨ Keyed.first Volume.name vol.name w.volumes = none

theorem reserve_eq_ok (vol : Volume) (mnt : VolumeMount) {add : Except GoString Wire}
    {err : VolumeMount → GoString} (ha : add = .ok w' ↔
      (owned = true ∨ Keyed.first Volume.name vol.name w.volumes = none) ∧ w' = w.put vol mnt) :
    (match mountAtPath mnt.mountPath w.mounts with
      | some existing => if owned = true ∧ existing.name = mnt.name then add else .error (err existing)
      | none => add) = .ok w' ↔ w.Reserves owned vol mnt ∧ w' = w.put vol mnt := by
  cases hm : mountAtPath mnt.mountPath w.mounts
  case none =>
    rw [ha]
    exact ⟨fun ⟨ho, hw⟩ => ⟨⟨.inl hm, ho⟩, hw⟩, fun ⟨hr, hw⟩ => ⟨hr.volume, hw⟩⟩
  case some m =>
    by_cases hn : owned = true ∧ m.name = mnt.name
    case pos =>
      change (if _ then add else _) = .ok w' ↔ _
      rw [if_pos hn, ha]
      exact ⟨fun ⟨ho, hw⟩ => ⟨⟨.inr ⟨hn.left, m, hm, hn.right⟩, ho⟩, hw⟩, fun ⟨hr, hw⟩ => ⟨hr.volume, hw⟩⟩
    case neg =>
      change (if _ then add else _) = .ok w' ↔ _
      rw [if_neg hn]
      refine ⟨fun h => (by cases h), fun ⟨hr, _⟩ => ?_⟩
      cases hr.path
      case inl h => simp [hm] at h
      case inr h =>
        have ⟨ho, m', hm', hx⟩ := h
        cases hm.symm.trans hm'
        exact absurd ⟨ho, hx⟩ hn

theorem addClientConfig_eq_ok : addClientConfig lib owned w = .ok w' ↔
    w.Reserves owned configVolume configMount ∧ w' = w.put configVolume configMount := by
  unfold addClientConfig
  exact reserve_eq_ok configVolume configMount addVolume_eq_ok

theorem addNodeConfig_eq_ok : addNodeConfig lib owned w = .ok w' ↔
    w.Reserves owned nodeConfigVolume nodeConfigMount ∧ w' = w.put nodeConfigVolume nodeConfigMount := by
  unfold addNodeConfig
  exact reserve_eq_ok nodeConfigVolume nodeConfigMount addVolume_eq_ok

theorem Wire.Reserves.put (h : w.Reserves owned vol mnt) :
    (w.put vol mnt).Has vol mnt ∧ (w.put vol mnt).At mnt.mountPath mnt.name :=
  ⟨has_put, at_put (h.path.imp_right And.right)⟩

theorem Wire.At.reserves (h : w.At mnt.mountPath mnt.name) : w.Reserves true vol mnt :=
  ⟨.inr ⟨rfl, h⟩, .inl rfl⟩

inductive AddsShm (lib : Library) (owned : Bool) (budget : Quantity) (w : Wire) : Wire → VolumeMount → Prop
  | reuse
    (mount : mountAtPath lmCacheMPShmMountPath w.mounts = some existing)
    (foreign : ¬(owned = true ∧ existing.name = lmCacheMPShmVolumeName))
    (reusable : checkLMCacheMPShmReusable lib w.volumes existing = .ok ())
    (large : checkLMCacheMPShmBudget lib w.volumes existing budget = .ok ()) :
    AddsShm lib owned budget w w
      { name := existing.name, mountPath := lmCacheMPShmMountPath, subPath := existing.subPath }
  | add (reserves : w.Reserves owned (shmVolume budget) shmMount) :
    AddsShm lib owned budget w (w.put (shmVolume budget) shmMount) shmMount

theorem addShm_eq_ok : addShm lib owned budget w = .ok (w', m) ↔ AddsShm lib owned budget w w' m := by
  have hadd : addShm.addVolume lib owned budget w = .ok (w', m) ↔
      (owned = true ∨ Keyed.first Volume.name lmCacheMPShmVolumeName w.volumes = none) ∧
        w' = w.put (shmVolume budget) shmMount ∧ m = shmMount := by
    simp only [addShm.addVolume, Except.bind_eq_ok, adoptVolume, adopt_eq_ok, Except.pure_eq_ok, Prod.mk.injEq]
    constructor
    case mp =>
      rintro ⟨volumes, ⟨ho, rfl⟩, rfl, rfl⟩
      exact ⟨ho, rfl, rfl⟩
    case mpr =>
      rintro ⟨ho, rfl, rfl⟩
      exact ⟨_, ⟨ho, rfl⟩, rfl, rfl⟩
  unfold addShm
  split
  case h_1 existing hm =>
    split
    case isTrue hn =>
      rw [hadd]
      constructor
      case mp =>
        rintro ⟨ho, rfl, rfl⟩
        exact .add ⟨.inr ⟨hn.left, existing, hm, hn.right⟩, ho⟩
      case mpr =>
        intro h
        cases h
        case reuse hm' hf _ _ =>
          cases hm.symm.trans hm'
          exact absurd hn hf
        case add hr => exact ⟨hr.volume, rfl, rfl⟩
    case isFalse hn =>
      simp only [Except.bind_eq_ok, Except.pure_eq_ok, Prod.mk.injEq]
      constructor
      case mp =>
        rintro ⟨_, hr, _, hb, rfl, rfl⟩
        exact .reuse hm hn hr hb
      case mpr =>
        intro h
        cases h
        case reuse hm' _ hr hb =>
          cases hm.symm.trans hm'
          exact ⟨(), hr, (), hb, rfl, rfl⟩
        case add hr =>
          cases hr.path
          case inl h => cases hm.symm.trans h
          case inr h =>
            have ⟨ho, m', hm', hx⟩ := h
            cases hm.symm.trans hm'
            exact absurd ⟨ho, hx⟩ hn
  case h_2 hm =>
    rw [hadd]
    constructor
    case mp =>
      rintro ⟨ho, rfl, rfl⟩
      exact .add ⟨.inl hm, ho⟩
    case mpr =>
      intro h
      cases h
      case reuse hm' _ _ _ => cases hm.symm.trans hm'
      case add hr => exact ⟨hr.volume, rfl, rfl⟩

-- Once more, the volume is taken for the adapter's if it has its name, and is replaced unless it is the same.
theorem AddsShm.again (h : AddsShm lib owned budget w w' m) (hf : owned = false →
      w.At lmCacheMPShmMountPath lmCacheMPShmVolumeName → w.Has (shmVolume budget) shmMount) :
    AddsShm lib true budget w' w' m := by
  cases h
  case reuse existing hm hn hr hb =>
    by_cases hx : existing.name = lmCacheMPShmVolumeName
    case neg => exact .reuse hm (fun ho => hx ho.right) hr hb
    case pos =>
      have ho : owned = false := by simpa [hx] using hn
      have hh := hf ho ⟨existing, hm, hx⟩
      obtain rfl : shmMount = existing := Keyed.first_unique hh.mount hm rfl hx
      have hs : AddsShm lib true budget w (w.put (shmVolume budget) shmMount) shmMount :=
        .add ⟨.inr ⟨rfl, _, hm, hx⟩, .inl rfl⟩
      rwa [hh.put_self] at hs
  case add hr =>
    have ⟨hh, ha⟩ := hr.put
    have hs : AddsShm lib true budget (w.put (shmVolume budget) shmMount)
        ((w.put (shmVolume budget) shmMount).put (shmVolume budget) shmMount) shmMount := .add ha.reserves
    rwa [hh.put_self] at hs

theorem AddsShm.has_of_at (h : AddsShm lib true budget w w' m)
    (ha : w.At lmCacheMPShmMountPath lmCacheMPShmVolumeName) : w'.Has (shmVolume budget) shmMount := by
  cases h
  case reuse existing hm hn _ _ =>
    have ⟨m, hm', hx⟩ := ha
    cases hm.symm.trans hm'
    exact absurd ⟨rfl, hx⟩ hn
  case add => exact Wire.has_put

-- The mounts of an engine that is given a file, but for the first one of the volume for that file.
def Wire.besides (write : Bool) (name : GoString) (w : Wire) : Wire :=
  if write then { w with mounts := w.mounts.eraseP (·.name = name) } else w

theorem Wire.at_put_iff (hp : mnt.mountPath ≠ path) :
    (w.put vol mnt).At path name ↔ (w.besides true mnt.name).At path name := by
  simp only [At, put, besides, mountAtPath, upsertMountByName, if_true, Keyed.first_path_upsert hp]

theorem Wire.has_put_iff (hv : vol'.name ≠ vol.name) (hm : mnt'.name ≠ mnt.name) :
    (w.put vol' mnt').Has vol mnt ↔ w.Has vol mnt := by
  constructor
  case mpr => exact fun h => h.put hv hm
  case mp =>
    intro ⟨h, h'⟩
    rw [put, Keyed.first_upsert, if_neg hv] at h
    rw [put, upsertMountByName, Keyed.first_upsert, if_neg hm] at h'
    exact ⟨h, h'⟩

theorem mounts_apart :
    (lmCacheMPConfigVolumeName ≠ lmCacheMPShmVolumeName ∧ configMount.mountPath ≠ lmCacheMPShmMountPath) ∧
    nodeConfigMount.mountPath ≠ lmCacheMPShmMountPath ∧ nodeShmMount.name ≠ nodeConfigMount.name := by
  decide +kernel

-- What is mounted for shared memory under the name of the adapter's volume is that volume.
def Wire.ShmFits (write owned : Bool) (budget : Quantity) (w : Wire) : Prop :=
  owned = false → (w.besides write lmCacheMPConfigVolumeName).At lmCacheMPShmMountPath lmCacheMPShmVolumeName →
    w.Has (shmVolume budget) shmMount

section PodLocal

variable {write : Bool} (hc : (if write then addClientConfig lib owned w₀ else pure w₀) = .ok w₁)

include hc

theorem shmFits_iff : w₀.ShmFits write owned budget ↔
    (owned = false → w₁.At lmCacheMPShmMountPath lmCacheMPShmVolumeName →
      w₁.Has (shmVolume budget) shmMount) := by
  cases write
  case false =>
    cases Except.pure_eq_ok.mp hc
    exact Iff.rfl
  case true =>
    have ⟨_, hw⟩ := addClientConfig_eq_ok.mp hc
    have hn := mounts_apart.1
    have hh : (w₀.put configVolume configMount).Has (shmVolume budget) shmMount ↔
        w₀.Has (shmVolume budget) shmMount := Wire.has_put_iff hn.1 hn.1
    rw [hw, Wire.at_put_iff hn.2, hh]
    exact Iff.rfl

-- The volumes of a pod with a server. Only some engines read a file for the client.
theorem addClientConfig_again (hs : addShm lib owned budget w₁ = .ok (w₂, m)) :
    (if write then addClientConfig lib true w₂ else pure w₂) = .ok w₂ := by
  cases write
  case false => rfl
  case true =>
    have ⟨hr, hw⟩ := addClientConfig_eq_ok.mp hc
    subst hw
    have ⟨hh, ha⟩ := hr.put
    have ⟨hh₂, ha₂⟩ : w₂.Has configVolume configMount ∧ w₂.At configMount.mountPath configMount.name := by
      cases addShm_eq_ok.mp hs
      case reuse => exact ⟨hh, ha⟩
      case add =>
        have hn := mounts_apart.1
        exact ⟨hh.put hn.1.symm hn.1.symm, ha.put hn.2.symm hn.1.symm⟩
    exact addClientConfig_eq_ok.mpr ⟨ha₂.reserves, hh₂.put_self.symm⟩

theorem addShm_again (hs : addShm lib owned budget w₁ = .ok (w₂, m)) (hf : w₀.ShmFits write owned budget) :
    addShm lib true budget w₂ = .ok (w₂, m) :=
  addShm_eq_ok.mpr ((addShm_eq_ok.mp hs).again ((shmFits_iff hc).mp hf))

theorem shmFits_of_again (hs : addShm lib owned budget w₁ = .ok (w₂, m))
    (h : addShm lib true budget w₂ = .ok (w₂, m')) : w₀.ShmFits write owned budget := by
  refine (shmFits_iff hc).mpr fun ho ha => ?_
  cases addShm_eq_ok.mp hs
  case reuse => exact (addShm_eq_ok.mp h).has_of_at ha
  case add hr =>
    obtain ⟨x, hx, _⟩ := ha
    cases hr.path
    case inl hp => cases hp.symm.trans hx
    case inr hp => cases ho.symm.trans hp.1

end PodLocal

section NodeLocal

inductive AddsNodeShm (lib : Library) (owned : Bool) (hostPath : GoString) (w : Wire) : Wire → Prop
  | reuse
    (mount : mountAtPath lmCacheMPShmMountPath w.mounts = some existing)
    (check : checkNodeLocalHostShm lib w.volumes existing hostPath = .ok ()) :
    AddsNodeShm lib owned hostPath w w
  | add
    (mount : mountAtPath lmCacheMPShmMountPath w.mounts = none)
    (volume : owned = true ∨ Keyed.first Volume.name lmCacheNodeLocalShmVolumeName w.volumes = none) :
    AddsNodeShm lib owned hostPath w (w.put (nodeShmVolume hostPath) nodeShmMount)

theorem addNodeShm_eq_ok : addNodeShm lib owned hostPath w = .ok w' ↔ AddsNodeShm lib owned hostPath w w' := by
  unfold addNodeShm
  split
  case h_1 existing hm =>
    simp only [Except.bind_eq_ok, Except.pure_eq_ok]
    constructor
    case mp =>
      rintro ⟨_, hc, rfl⟩
      exact .reuse hm hc
    case mpr =>
      intro h
      cases h
      case reuse hm' hc =>
        cases hm.symm.trans hm'
        exact ⟨(), hc, rfl⟩
      case add hm' _ => cases hm.symm.trans hm'
  case h_2 hm =>
    rw [addVolume_eq_ok]
    constructor
    case mp =>
      rintro ⟨ho, rfl⟩
      exact .add hm ho
    case mpr =>
      intro h
      cases h
      case reuse hm' _ => cases hm.symm.trans hm'
      case add ho => exact ⟨ho, rfl⟩

-- The check reads the mount and the volume that it names.
theorem checkNodeLocalHostShm_congr {volumes volumes' : List Volume}
    (h : Keyed.first Volume.name m.name volumes' = Keyed.first Volume.name m.name volumes) :
    checkNodeLocalHostShm lib volumes' m hostPath = checkNodeLocalHostShm lib volumes m hostPath := by
  rw [checkNodeLocalHostShm, h, checkNodeLocalHostShm]

theorem checkNodeLocalHostShm_own {volumes : List Volume}
    (h : Keyed.first Volume.name lmCacheNodeLocalShmVolumeName volumes = some (nodeShmVolume hostPath)) :
    checkNodeLocalHostShm lib volumes nodeShmMount hostPath = .ok () := by
  simp [checkNodeLocalHostShm, nodeShmMount, h, nodeShmVolume]

theorem AddsNodeShm.shared (h : AddsNodeShm lib owned hostPath w w') :
    ∃ existing, mountAtPath lmCacheMPShmMountPath w'.mounts = some existing ∧
      checkNodeLocalHostShm lib w'.volumes existing hostPath = .ok () ∧
      (mountAtPath lmCacheMPShmMountPath w.mounts = some existing ∨ existing = nodeShmMount) := by
  cases h
  case reuse existing hm hc => exact ⟨existing, hm, hc, .inl hm⟩
  case add hm _ =>
    have hh : (w.put (nodeShmVolume hostPath) nodeShmMount).Has (nodeShmVolume hostPath) nodeShmMount :=
      Wire.has_put
    exact ⟨nodeShmMount, Keyed.first_path_upsert_of_none hm rfl, checkNodeLocalHostShm_own hh.volume, .inr rfl⟩

theorem checkNodeLocalHostShm_config {volumes : List Volume}
    (h : Keyed.first Volume.name lmCacheNodeLocalConfigVolumeName volumes = some nodeConfigVolume)
    (hm : m.name = lmCacheNodeLocalConfigVolumeName) : checkNodeLocalHostShm lib volumes m hostPath ≠ .ok () := by
  unfold checkNodeLocalHostShm
  rw [hm, h]
  split <;> simp [nodeConfigVolume]

-- If the volume for the file is mounted for shared memory, its mount is moved away. There has to be another
-- one behind it that can be used.
def Wire.HostShmFits (lib : Library) (hostPath : GoString) (w : Wire) : Prop :=
  w.At lmCacheMPShmMountPath lmCacheNodeLocalConfigVolumeName →
    ∃ m, mountAtPath lmCacheMPShmMountPath (w.besides true lmCacheNodeLocalConfigVolumeName).mounts = some m ∧
      m.name ≠ lmCacheNodeLocalConfigVolumeName ∧ checkNodeLocalHostShm lib w.volumes m hostPath = .ok ()

theorem mountAtPath_put_config : mountAtPath lmCacheMPShmMountPath (w.put nodeConfigVolume nodeConfigMount).mounts =
    mountAtPath lmCacheMPShmMountPath (w.besides true lmCacheNodeLocalConfigVolumeName).mounts :=
  Keyed.first_path_upsert mounts_apart.2.1

theorem check_put_config (hn : m.name ≠ lmCacheNodeLocalConfigVolumeName) :
    checkNodeLocalHostShm lib (w.put nodeConfigVolume nodeConfigMount).volumes m hostPath =
      checkNodeLocalHostShm lib w.volumes m hostPath := by
  apply checkNodeLocalHostShm_congr
  rw [Wire.put, Keyed.first_upsert]
  exact if_neg hn.symm

section Config

variable (hc : addNodeConfig lib owned w₁ = .ok w₂)
include hc

theorem addNodeConfig_again : addNodeConfig lib true w₂ = .ok w₂ := by
  have ⟨hr, hw⟩ := addNodeConfig_eq_ok.mp hc
  subst hw
  have ⟨hh, ha⟩ := hr.put
  exact addNodeConfig_eq_ok.mpr ⟨ha.reserves, hh.put_self.symm⟩

variable (hs : addNodeShm lib owned hostPath w₀ = .ok w₁)
include hs

theorem addNodeShm_again (hf : w₀.HostShmFits lib hostPath) : addNodeShm lib true hostPath w₂ = .ok w₂ := by
  have ⟨existing, hm, hx, he⟩ := (addNodeShm_eq_ok.mp hs).shared
  have ⟨hr, hw⟩ := addNodeConfig_eq_ok.mp hc
  subst hw
  by_cases hn : existing.name = nodeConfigMount.name
  case neg =>
    have hm' : mountAtPath lmCacheMPShmMountPath (w₁.put nodeConfigVolume nodeConfigMount).mounts =
        some existing := Keyed.first_path_upsert_of_ne hm hn mounts_apart.2.1
    exact addNodeShm_eq_ok.mpr (.reuse hm' ((check_put_config hn).trans hx))
  case pos =>
    cases addNodeShm_eq_ok.mp hs
    case add =>
      cases he
      case inl he => simp_all
      case inr he => exact absurd (he ▸ hn) mounts_apart.2.2
    case reuse =>
      have ⟨m, hm', hn', hx'⟩ := hf ⟨existing, hm, hn⟩
      rw [← mountAtPath_put_config] at hm'
      exact addNodeShm_eq_ok.mpr (.reuse hm' ((check_put_config hn').trans hx'))

theorem hostShmFits_of_again (hs' : addNodeShm lib true hostPath w₂ = .ok w₁')
    (hc' : addNodeConfig lib true w₁' = .ok w₂) : w₀.HostShmFits lib hostPath := by
  intro ⟨existing, hm, hn⟩
  have ⟨_, hw⟩ := addNodeConfig_eq_ok.mp hc
  subst hw
  rcases addNodeShm_eq_ok.mp hs with _ | ⟨hm', _⟩
  case add => cases hm'.symm.trans hm
  case reuse =>
    rcases addNodeShm_eq_ok.mp hs' with @⟨m, hm', hx'⟩ | ⟨hm', _⟩
    case reuse =>
      have hh : (w₁.put nodeConfigVolume nodeConfigMount).Has nodeConfigVolume nodeConfigMount := Wire.has_put
      have hn' : m.name ≠ lmCacheNodeLocalConfigVolumeName :=
        fun hn' => checkNodeLocalHostShm_config hh.volume hn' hx'
      exact ⟨m, mountAtPath_put_config ▸ hm', hn', check_put_config hn' ▸ hx'⟩
    case add =>
      have ⟨_, hw⟩ := addNodeConfig_eq_ok.mp hc'
      have h₁ : Keyed.first VolumeMount.mountPath lmCacheMPShmMountPath (Keyed.upsert VolumeMount.name nodeShmMount
          (w₁.put nodeConfigVolume nodeConfigMount).mounts) = some nodeShmMount :=
        Keyed.first_path_upsert_of_none hm' rfl
      have h₂ := Keyed.first_path_upsert_of_ne h₁ mounts_apart.2.2 mounts_apart.2.1
      rw [hw] at hm'
      cases hm'.symm.trans h₂

end Config

end NodeLocal

end Wire

section Parts

variable {lib : Library} {pod pod' : PodSpec} {p : Parts}

theorem podLocalParts_eq_ok : podLocalParts lib pod cfg i = .ok p ↔
    validateLMCacheMPServerConfig cfg = .ok () ∧
    ∃ l2 w₁ w₂ m server, renderLMCacheMPL2Binding lib cfg.binding = .ok l2 ∧
      (if cfg.writeClientConfig then addClientConfig lib (lmCacheMPWireIsOurs pod) (PodSpec.wire pod i)
        else pure (PodSpec.wire pod i)) = .ok w₁ ∧
      addShm lib (lmCacheMPWireIsOurs pod) (lmCacheMPMemoryBudget cfg.l1Capacity) w₁ = .ok (w₂, m) ∧
      lmCacheMPServerContainer lib cfg l2.1 l2.2 m = .ok server ∧
      adoptContainer lib server (lmCacheMPWireIsOurs pod) pod.initContainers = .ok p.initContainers ∧
      p.wire = w₂ := by
  cases hw : cfg.writeClientConfig
  all_goals
    simp only [podLocalParts, hw, Bool.false_eq_true, if_true, if_false, Except.bind_eq_ok, Except.pure_eq_ok]
    constructor
    case mp =>
      rintro ⟨_, hv, l2, hl, w₁, h₁, ⟨w₂, m⟩, h₂, server, hs, inits, hi, rfl⟩
      exact ⟨hv, l2, w₁, w₂, m, server, hl, h₁, h₂, hs, hi, rfl⟩
    case mpr =>
      rintro ⟨hv, l2, w₁, w₂, m, server, hl, h₁, h₂, hs, hi, rfl⟩
      exact ⟨(), hv, l2, hl, w₁, h₁, (p.wire, m), h₂, server, hs, p.initContainers, hi, rfl⟩

theorem isOurs_of_first (hf : Keyed.first Container.name name pod.initContainers = some c)
    (hm : EnvVar.ofValue env value ∈ c.env) : isOurs pod name env value = true := by
  rw [isOurs, findContainerByName, hf]
  exact List.any_eq_true.mpr ⟨_, hm, by simp [EnvVar.ofValue]⟩

theorem serverEnv_apart : lmCacheRESPUsernameEnv ≠ lmCacheMPServerManagedEnv ∧
    lmCacheRESPPasswordEnv ≠ lmCacheMPServerManagedEnv ∧
    utf8 "NVIDIA_VISIBLE_DEVICES" ≠ lmCacheMPServerManagedEnv := by
  decide +kernel

theorem name_bindingEnv (h : renderLMCacheMPL2Binding lib binding = .ok l2) :
    ∀ e ∈ l2.2, e.name ≠ lmCacheMPServerManagedEnv := by
  cases binding
  case none =>
    cases h
    simp
  case some binding =>
    simp only [renderLMCacheMPL2Binding, Except.bind_eq_ok, Except.pure_eq_ok] at h
    obtain ⟨_, _, h⟩ := h
    subst h
    obtain ⟨hu, hp, _⟩ := serverEnv_apart
    unfold bindingEnv
    split
    case h_1 => simp
    case h_2 auth _ => cases auth.username <;> simp [EnvVar.ofSecret, hu, hp]

theorem managed_foldl {es : List EnvVar} (h : ∀ e ∈ es, e.name ≠ lmCacheMPServerManagedEnv) :
    EnvVar.ofValue lmCacheMPServerManagedEnv lmCacheMPServerManagedValue ∈
      es.foldl (fun env e => upsertEnv e env) [.ofValue (utf8 "NVIDIA_VISIBLE_DEVICES") (utf8 "all"),
        .ofValue lmCacheMPServerManagedEnv lmCacheMPServerManagedValue] := by
  have hf : Keyed.first EnvVar.name lmCacheMPServerManagedEnv
      (es.foldl (fun env e => Keyed.upsert EnvVar.name e env)
        [.ofValue (utf8 "NVIDIA_VISIBLE_DEVICES") (utf8 "all"),
          .ofValue lmCacheMPServerManagedEnv lmCacheMPServerManagedValue]) =
      some (.ofValue lmCacheMPServerManagedEnv lmCacheMPServerManagedValue) := by
    rw [Keyed.first_foldl_upsert_of_ne h]
    simp [Keyed.first_cons, EnvVar.ofValue, serverEnv_apart.2.2]
  exact Keyed.mem_of_first hf

theorem server_isOurs (hl : renderLMCacheMPL2Binding lib binding = .ok l2)
    (hs : lmCacheMPServerContainer lib cfg l2.1 l2.2 m = .ok server) :
    server.name = lmCacheMPServerContainerName ∧
      EnvVar.ofValue lmCacheMPServerManagedEnv lmCacheMPServerManagedValue ∈ server.env := by
  simp only [lmCacheMPServerContainer, Except.bind_eq_ok, Except.pure_eq_ok] at hs
  obtain ⟨_, _, hs⟩ := hs
  subst hs
  exact ⟨rfl, managed_foldl (name_bindingEnv hl)⟩

section PodLocal

variable (h : podLocalParts lib pod cfg i = .ok p) (hc : pod'.initContainers = p.initContainers)
include h hc

theorem podLocalParts_isOurs : lmCacheMPWireIsOurs pod' = true := by
  rw [podLocalParts_eq_ok] at h
  obtain ⟨_, l2, _, _, m, server, hl, _, _, hs, hi, _⟩ := h
  have ⟨hn, hm⟩ := server_isOurs hl hs
  have hx : Keyed.first Container.name server.name pod'.initContainers = some server := by
    rw [hc, (adopt_eq_ok.mp hi).2, Keyed.first_upsert, if_pos rfl]
  exact isOurs_of_first (hn ▸ hx) hm

variable (hw : PodSpec.wire pod' i = p.wire)
include hw

-- A pod that has been rendered is rendered in the same way again.
theorem podLocalParts_again (hf : (PodSpec.wire pod i).ShmFits cfg.writeClientConfig (lmCacheMPWireIsOurs pod)
      (lmCacheMPMemoryBudget cfg.l1Capacity)) : podLocalParts lib pod' cfg i = .ok p := by
  have ho := podLocalParts_isOurs h hc
  rw [podLocalParts_eq_ok] at h ⊢
  obtain ⟨hv, l2, w₁, w₂, m, server, hl, h₁, h₂, hs, hi, hp⟩ := h
  refine ⟨hv, l2, w₂, w₂, m, server, hl, ?_, ?_, hs, ?_, hp⟩
  case refine_1 => rw [ho, hw, hp, addClientConfig_again h₁ h₂]
  case refine_2 => rw [ho, addShm_again h₁ h₂ hf]
  case refine_3 =>
    have hx : Keyed.first Container.name server.name p.initContainers = some server := by
      rw [(adopt_eq_ok.mp hi).2, Keyed.first_upsert, if_pos rfl]
    exact adopt_eq_ok.mpr ⟨.inl ho, by rw [hc, Keyed.upsert_of_first hx]⟩

theorem shmFits_of_podLocalParts (h' : podLocalParts lib pod' cfg i = .ok p') (hp' : p'.wire = p.wire) :
    (PodSpec.wire pod i).ShmFits cfg.writeClientConfig (lmCacheMPWireIsOurs pod)
      (lmCacheMPMemoryBudget cfg.l1Capacity) := by
  have ho := podLocalParts_isOurs h hc
  rw [podLocalParts_eq_ok] at h h'
  obtain ⟨_, _, w₁, w₂, m, _, _, h₁, h₂, _, _, hp⟩ := h
  obtain ⟨_, _, w₁', w₂', m', _, _, h₁', h₂', _, _, hp'₂⟩ := h'
  rw [ho, hw, hp, addClientConfig_again h₁ h₂] at h₁'
  cases h₁'
  rw [ho, ← hp'₂, hp', hp] at h₂'
  exact shmFits_of_again h₁ h₂ h₂'

end PodLocal

theorem nodeLocalParts_eq_ok : nodeLocalParts lib pod cache lm server write i = .ok p ↔
    validateLMCacheNodeLocalServerConfig server (effectiveLMCacheChunkSize lm) = .ok () ∧
    ∃ shmHostPath w₁, nodeLocalServerShmHostPath lib cache = .ok shmHostPath ∧
      checkNodeIPEnv lib (lmCacheNodeLocalWireIsOurs pod) (PodSpec.env pod i) = .ok () ∧
      addNodeShm lib (lmCacheNodeLocalWireIsOurs pod) shmHostPath (PodSpec.wire pod i) = .ok w₁ ∧
      (if write then addNodeConfig lib (lmCacheNodeLocalWireIsOurs pod) w₁ else pure w₁) = .ok p.wire ∧
      adoptNodeLocalGate lib (lmCacheNodeLocalGateContainer cache lm server
        (if write then lmCacheNodeLocalConfigFilePath else []) (if write then [nodeConfigMount] else []))
        (lmCacheNodeLocalWireIsOurs pod) pod.initContainers = .ok p.initContainers := by
  cases write
  all_goals
    simp only [nodeLocalParts, Bool.false_eq_true, if_true, if_false, Except.bind_eq_ok, Except.pure_eq_ok]
    constructor
    case mp =>
      rintro ⟨_, hv, path, hp, _, hn, w₁, h₁, w₂, h₂, inits, hi, rfl⟩
      exact ⟨hv, path, w₁, hp, hn, h₁, h₂, hi⟩
    case mpr =>
      rintro ⟨hv, path, w₁, hp, hn, h₁, h₂, hi⟩
      exact ⟨(), hv, path, hp, (), hn, w₁, h₁, p.wire, h₂, p.initContainers, hi, rfl⟩

section NodeLocal

variable (h : nodeLocalParts lib pod cache lm server write i = .ok p)
  (hc : pod'.initContainers = p.initContainers)
include h hc

theorem first_gate : Keyed.first Container.name lmCacheNodeLocalGateContainerName pod'.initContainers =
    some (lmCacheNodeLocalGateContainer cache lm server (if write then lmCacheNodeLocalConfigFilePath else [])
      (if write then [nodeConfigMount] else [])) := by
  rw [nodeLocalParts_eq_ok] at h
  obtain ⟨_, _, _, _, _, _, _, hi⟩ := h
  rw [hc, (adopt_eq_ok.mp hi).2, Keyed.first_upsert]
  exact if_pos rfl

theorem nodeLocalParts_isOurs : lmCacheNodeLocalWireIsOurs pod' = true :=
  isOurs_of_first (first_gate h hc) (.head _)

variable (hw : PodSpec.wire pod' i = p.wire)
include hw

theorem nodeLocalParts_again (hf : write = true → ∀ path, nodeLocalServerShmHostPath lib cache = .ok path →
      (PodSpec.wire pod i).HostShmFits lib path) : nodeLocalParts lib pod' cache lm server write i = .ok p := by
  have ho := nodeLocalParts_isOurs h hc
  have hx := first_gate h hc
  rw [nodeLocalParts_eq_ok] at h ⊢
  obtain ⟨hv, path, w₁, hp, _, h₁, h₂, hi⟩ := h
  have ⟨ha₁, ha₂⟩ : addNodeShm lib true path p.wire = .ok p.wire ∧
      (if write then addNodeConfig lib true p.wire else pure p.wire) = .ok p.wire := by
    cases write
    case false =>
      cases Except.pure_eq_ok.mp h₂
      have ⟨existing, hm, hx, _⟩ := (addNodeShm_eq_ok.mp h₁).shared
      exact ⟨addNodeShm_eq_ok.mpr (.reuse hm hx), rfl⟩
    case true => exact ⟨addNodeShm_again h₂ h₁ (hf rfl path hp), addNodeConfig_again h₂⟩
  refine ⟨hv, path, p.wire, hp, ?_, ?_, ?_, ?_⟩
  case refine_1 => simp [checkNodeIPEnv, ho]
  case refine_2 => rw [ho, hw, ha₁]
  case refine_3 => rw [ho, ha₂]
  case refine_4 => exact adopt_eq_ok.mpr ⟨.inl ho, by rw [hc]; exact (Keyed.upsert_of_first (hc ▸ hx)).symm⟩

theorem hostShmFits_of_nodeLocalParts (h' : nodeLocalParts lib pod' cache lm server write i = .ok p')
    (hp' : p'.wire = p.wire) (hwrite : write = true) (hpath : nodeLocalServerShmHostPath lib cache = .ok path) :
    (PodSpec.wire pod i).HostShmFits lib path := by
  have ho := nodeLocalParts_isOurs h hc
  rw [nodeLocalParts_eq_ok] at h h'
  obtain ⟨_, path₁, w₁, hp₁, _, h₁, h₂, _⟩ := h
  obtain ⟨_, path₂, w₁', hp₂, _, h₁', h₂', _⟩ := h'
  cases hpath.symm.trans hp₁
  cases hpath.symm.trans hp₂
  subst hwrite
  rw [ho, hw] at h₁'
  rw [ho, hp'] at h₂'
  exact hostShmFits_of_again h₂ h₁ h₁' h₂'

end NodeLocal

end Parts

namespace Engine

variable {lib : Library} {pod : PodSpec} {e : Engine} {cache : CacheBackend} {binding : Option Binding}

-- What a template must not have for a second injection to find what the first has left. Volumes in the place
-- of the adapter's are used by the first, and replaced by the second.
structure Repeatable (lib : Library) (cache : CacheBackend) (pod : PodSpec) (e : Engine) (i : Nat) : Prop where
  flag      : ¬e.LosesFlag (PodSpec.args pod i)
  podLocal  : ∀ lm server, cache.spec.rest.lmCache = some lm → lm.topology = .podLocal →
                lm.podLocal = some server → (PodSpec.wire pod i).ShmFits e.writesClientConfig
                  (lmCacheMPWireIsOurs pod) (lmCacheMPMemoryBudget server.l1Capacity)
  nodeLocal : ∀ lm, cache.spec.rest.lmCache = some lm → lm.topology = .nodeLocal → e.writesClientConfig = true →
                ∀ path, nodeLocalServerShmHostPath lib cache = .ok path → (PodSpec.wire pod i).HostShmFits lib path

theorem wire_wired (h : i < pod.containers.length) : PodSpec.wire (e.wired cache pod i p) i = p.wire := by
  simp [PodSpec.wire, wired, h, wire]

theorem renders_again (h : e.Renders lib pod binding cache i p) (hr : e.Repeatable lib cache pod i)
    (hl : i < pod.containers.length) : e.Renders lib (e.wired cache pod i p) binding cache i p := by
  cases h
  case podLocal hc ht hs ha hp =>
    exact .podLocal hc ht hs ha (podLocalParts_again hp rfl (wire_wired hl) (hr.podLocal _ _ hc ht hs))
  case nodeLocal hc ht hs ha hu hp =>
    exact .nodeLocal hc ht hs ha hu (nodeLocalParts_again hp rfl (wire_wired hl) (hr.nodeLocal _ hc ht))

theorem repeatable_of_again (h : e.Renders lib pod binding cache i p) (hl : i < pod.containers.length)
    (hf : ¬e.LosesFlag (PodSpec.args pod i)) (h' : e.Renders lib (e.wired cache pod i p) binding cache i p')
    (hp : p'.wire = p.wire) : e.Repeatable lib cache pod i where
  flag := hf
  podLocal lm server hc ht hs := by
    have ⟨_, h⟩ := (renders_podLocal hc ht hs).mp h
    have ⟨_, h'⟩ := (renders_podLocal hc ht hs).mp h'
    exact shmFits_of_podLocalParts h rfl (wire_wired hl) h' hp
  nodeLocal lm hc ht hw path hpath := by
    cases h
    case podLocal hc' ht' _ _ _ =>
      cases hc.symm.trans hc'
      cases ht.symm.trans ht'
    case nodeLocal hc' ht' hs _ _ h =>
      cases hc.symm.trans hc'
      have ⟨_, _, h'⟩ := (renders_nodeLocal hc ht hs).mp h'
      exact hostShmFits_of_nodeLocalParts h rfl (wire_wired hl) h' hp hw hpath

theorem wired_wired (h : ¬e.LosesFlag (PodSpec.args pod i)) :
    e.wired cache (e.wired cache pod i p) i p = e.wired cache pod i p := by
  have hm : (pod.containers.modify i (e.wire cache p)).modify i (e.wire cache p) =
      pod.containers.modify i (e.wire cache p) := by
    apply List.ext_getElem?
    intro j
    by_cases hj : i = j
    case neg => simp [hj]
    case pos =>
      subst hj
      cases hc : pod.containers[i]?
      case none => simp [hc]
      case some c =>
        have ha : PodSpec.args pod i = c.args := by simp [PodSpec.args, hc]
        have hw : e.wire cache p (e.wire cache p c) = e.wire cache p c := by
          simp only [wire, wireEnv_wireEnv, wireArgs_again_iff.mpr (ha ▸ h)]
        simp [hc, hw]
  rw [wired, wired, hm]

theorem injection_idempotent (lib : Library) (e : Engine) (pod pod' : PodSpec) (binding : Option Binding)
    (cache : CacheBackend) (i : Nat) (hi : e.injectEngineConfig lib pod binding cache = .ok pod')
    (hx : engineContainerIndexNamed lib pod e.containerName = .ok i) :
    e.injectEngineConfig lib pod' binding cache = .ok pod' ↔ e.Repeatable lib cache pod i := by
  have hl := lt_of_engineContainerIndexNamed hx
  have ⟨j, p, hj, hp, hw⟩ := injectEngineConfig_eq_ok.mp hi
  cases hx.symm.trans hj
  subst hw
  rw [injectEngineConfig_eq_ok]
  constructor
  case mpr =>
    intro hr
    exact ⟨i, p, index_wired.trans hx, renders_again hp hr hl, (wired_wired hr.flag).symm⟩
  case mp =>
    intro ⟨j, p', hj, hp', hw⟩
    cases hx.symm.trans (index_wired.symm.trans hj)
    have hl' : i < (e.wired cache pod i p).containers.length := by simpa [wired] using hl
    have ha := congrArg (PodSpec.args · i) hw
    have hv := congrArg (PodSpec.wire · i) hw
    simp only [args_wired hl, args_wired hl'] at ha
    simp only [wire_wired hl, wire_wired hl'] at hv
    exact repeatable_of_again hp hl (wireArgs_again_iff.mp ha.symm) hp' hv.symm

section

def shmPod (name : GoString) (size : Nat) : PodSpec where
  containers     := [engineContainer engineContainerName [] [] [{ name, mountPath := lmCacheMPShmMountPath }]]
  initContainers := []
  volumes        := [⟨name, { emptyDir := some ⟨storageMediumMemory, some (.gib size)⟩ }⟩]

-- A volume with the name of the adapter's that is the adapter's.
theorem injection_idempotent_own_shm :
    ∃ pod', vllm.injectEngineConfig .plain (shmPod lmCacheMPShmVolumeName 3) none
        (engineBackend podLocalEngine none) = .ok pod' ∧
      vllm.injectEngineConfig .plain pod' none (engineBackend podLocalEngine none) = .ok pod' := by
  have ⟨pod', hp⟩ := Except.exists_of_isOk (x := vllm.injectEngineConfig .plain (shmPod lmCacheMPShmVolumeName 3)
    none (engineBackend podLocalEngine none)) (by decide +kernel)
  have hx : engineContainerIndexNamed .plain (shmPod lmCacheMPShmVolumeName 3) vllm.containerName = .ok 0 := by
    decide +kernel
  refine ⟨pod', hp, (injection_idempotent .plain vllm _ pod' none _ 0 hp hx).mpr ?_⟩
  refine ⟨?_, ?_, ?_⟩
  case refine_1 =>
    rintro ⟨_, ht, _⟩
    cases ht
  case refine_2 =>
    rintro _ server ⟨⟩ _ ⟨⟩ _ _
    have hb : lmCacheMPMemoryBudget (.gib 2) = .gib 3 := by decide +kernel
    change Wire.Has (shmVolume (lmCacheMPMemoryBudget (.gib 2))) _ _
    rw [hb]
    exact ⟨Keyed.first_cons.trans (if_pos rfl), Keyed.first_cons.trans (if_pos rfl)⟩
  case refine_3 =>
    rintro _ ⟨⟩ ht
    cases ht

-- Another one is used, and then replaced by a smaller one.
theorem own_volume_is_replaced :
    vllm.validateMPEnginePod .plain (shmPod lmCacheMPShmVolumeName 8) (engineBackend podLocalEngine none) =
      .ok () ∧
    ∃ pod' pod'', vllm.injectEngineConfig .plain (shmPod lmCacheMPShmVolumeName 8) none
        (engineBackend podLocalEngine none) = .ok pod' ∧
      vllm.injectEngineConfig .plain pod' none (engineBackend podLocalEngine none) = .ok pod'' ∧
      pod'.volumes.map (·.source.emptyDir) = [some ⟨storageMediumMemory, some (.gib 8)⟩] ∧
      pod''.volumes.map (·.source.emptyDir) = [some ⟨storageMediumMemory, some (.gib 3)⟩] := by
  have h : ((vllm.injectEngineConfig .plain (shmPod lmCacheMPShmVolumeName 8) none
      (engineBackend podLocalEngine none)) >>= fun pod' =>
        (vllm.injectEngineConfig .plain pod' none (engineBackend podLocalEngine none)) >>= fun pod'' =>
          .ok (pod'.volumes.map (·.source.emptyDir), pod''.volumes.map (·.source.emptyDir))) =
      .ok ([some ⟨storageMediumMemory, some (.gib 8)⟩], [some ⟨storageMediumMemory, some (.gib 3)⟩]) := by
    decide +kernel
  simp only [Except.bind_eq_ok, Except.ok.injEq, Prod.mk.injEq] at h
  obtain ⟨pod', h₁, pod'', h₂, hv, hv'⟩ := h
  exact ⟨by decide +kernel, pod', pod'', h₁, h₂, hv, hv'⟩

end

end Engine

end InferenceCache.Adapters
