import InferenceCache.Index.Theorems.ChainSpec
import InferenceCache.Index.Theorems.Isolation
import InferenceCache.Server.Probe

namespace InferenceCache.Server

open FloatFormat GoFloat IeeeFormat

namespace RunPhase

-- The time of the entry that the run still relies on.
def seen : RunPhase → Option Time
  | .ingested seen | .landed seen => some seen
  | _ => none

-- The run may have something in the index.
def active : RunPhase → Bool
  | .ingested _ | .landed _ | .returning _ => true
  | _ => false

def holds : RunPhase → Bool
  | .waiting | .finished _ => false
  | _ => true

def result : RunPhase → Option ProbeResult
  | .returning result | .cleaned result | .finished result => some result
  | _ => none

theorem holds_of_seen {phase : RunPhase} {t : Time} (h : phase.seen = some t) : phase.holds = true := by
  cases phase <;> first | rfl | cases h

end RunPhase

structure ProbeRequest.Complete (req : ProbeRequest) : Prop where
  backend    : req.backend ≠ []
  model      : req.model ≠ []
  hashScheme : req.hashScheme ≠ []

-- The resolvers are those of a policy store, whatever it holds at the time. Its policies are filed by
-- namespace, and the name of a namespace has no slash.
def Served (F : Type) (env : Env) : Prop :=
  ∃ (store : PolicyStore F) (env' : Env), env = store.environment env' ∧
    ∀ ns policy, store.policies.lookup ns = some policy → 0x2f ∉ ns

namespace ProbeMove

variable {F : Type}

-- Requests name what they are about, and calls other than those of a run are of real tenants.
def Allowed (cfg : Config F) : ProbeMove F → Prop
  | .start _ req => req.Complete
  | .ingest _ _ env | .lookup _ env | .route _ env => Served F env
  | .call c env => Served F env ∧ c.isReserved cfg = false
  | _ => True

-- The surroundings of the calls in which an entry may count as too old.
def aging : ProbeMove F → Option Env
  | .lookup _ env | .route _ env | .call .evictExpired env => some env
  | _ => none

end ProbeMove

-- Every run that has ingested its entry and not yet looked it up twice is within the TTL.
def ProbeState.InTime {F : Type} (cfg : Config F) (s : ProbeState F) (m : ProbeMove F) : Prop :=
  ∀ env, m.aging = some env → ∀ id req phase seen, s.runs.lookup id = some (req, phase) →
    phase.seen = some seen → Time.sub (env.now 0) seen < cfg.ttlFor env probeTenantID

def ProbeState.KeepsTime {F : Type} [GoFloat F] (p : Prober) (cfg : Config F) :
    ProbeState F → List (ProbeMove F) → Prop
  | _, []         => True
  | s, m :: moves => s.InTime cfg m ∧ KeepsTime p cfg (s.step p cfg m) moves

inductive ProbeEffect {F : Type} [GoFloat F] (p : Prober) (cfg : Config F) (s : ProbeState F) :
    ProbeMove F → ProbeState F → Prop
  | none : ProbeEffect p cfg s m s
  | start {id : RunID} :
    s.runs.lookup id = none →
    ProbeEffect p cfg s (.start id req) (s.goOn id req .waiting)
  | lock {id : RunID} :
    s.runs.lookup id = some (req, .waiting) → s.locks.lookup (lockKey req) = none →
    ProbeEffect p cfg s (.lock id)
      ({ s with locks := s.locks.insert (lockKey req) id }.goOn id req .locked)
  | ingest {id : RunID} :
    s.runs.lookup id = some (req, .locked) →
    ProbeEffect p cfg s (.ingest id now env)
      ({ s with index := s.index.ingest cfg env (p.update req now) }.goOn id req
        (.ingested ((p.update req now : Update F).seenAt env)))
  | miss {id : RunID} :
    s.runs.lookup id = some (req, .ingested seen) →
    (∀ x ∈ s.index.lookup cfg env (p.directReq req), x.replicaID ≠ probeReplicaID req.backend) →
    ProbeEffect p cfg s (.lookup id env) (s.goOn id req (.returning (Prober.ingestFailed req)))
  | land {id : RunID} :
    s.runs.lookup id = some (req, .ingested seen) →
    ProbeEffect p cfg s (.lookup id env) (s.goOn id req (.landed seen))
  | route {id : RunID} :
    s.runs.lookup id = some (req, .landed seen) →
    ProbeEffect p cfg s (.route id env)
      (s.goOn id req (.returning (p.stageB req (s.index.lookupRoute cfg env (p.directReq req)))))
  | cleanup {id : RunID} :
    s.runs.lookup id = some (req, .returning result) →
    ProbeEffect p cfg s (.cleanup id now env)
      ({ s with index := s.index.applyEvent cfg env (Prober.cleanupEvent req now) }.goOn id req
        (.cleaned result))
  | unlock {id : RunID} :
    s.runs.lookup id = some (req, .cleaned result) →
    ProbeEffect p cfg s (.unlock id)
      ({ s with locks := s.locks.erase (lockKey req) }.goOn id req (.finished result))
  | call : ProbeEffect p cfg s (.call c env) { s with index := s.index.step cfg (c, env) }

variable {F : Type} [GoFloat F] {cfg : Config F} {i : Index F} {env : Env} {p : Prober}
variable {req : ProbeRequest} {now seen : Time} {key : PrefixKey} {r : GoString}

section Freshness

-- An entry that the TTL has not caught up with still counts.
theorem not_stale [Ieee754 F] {lookupReq : LookupRequest}
    (ha : Time.sub (env.now 0) seen < cfg.ttlFor env lookupReq.tenant)
    (ht : cfg.ttlFor env lookupReq.tenant ≤ 2 ^ 53) :
    Index.stale cfg env lookupReq seen = false :=
  Index.resolved_of_ttl ht seen ha

end Freshness

namespace Prober

def keyOf (p : Prober) (req : ProbeRequest) : PrefixKey :=
  ⟨probeTenantID, req.model, req.hashScheme, [], probeHash p.sha256 req⟩

theorem update_upserts (h : req.hashScheme ≠ []) :
    (p.update req now : Update F).upserts = [⟨p.keyOf req, probeTokenCount, CacheTier.t1⟩] := by
  simp [Update.upserts, Update.upsertsOf, update, h, chainUpserts, normalizeIngestTier, Update.keyOf,
    keyOf]

theorem update_latest (h : req.hashScheme ≠ []) : (p.update req now : Update F).latest key =
    if key = p.keyOf req then some ⟨p.keyOf req, probeTokenCount, CacheTier.t1⟩ else none := by
  rw [Update.latest, update_upserts h]
  by_cases hk : key = p.keyOf req
  case pos => simp [hk]
  case neg => simp [hk, Ne.symm hk]

end Prober

section Calls

open Index

variable (hr : cfg.reservedTenants = {probeTenantID})
include hr

omit [GoFloat F] in
theorem isReservedTenant_iff {tenant : GoString} :
    cfg.isReservedTenant tenant = true ↔ tenant = probeTenantID := by
  simp [Config.isReservedTenant, hr]

-- Neither the cap nor a quota takes what a probe has ingested.
theorem agreeOn_ingest (hi : Consistent cfg i) (hq : env.tenantQuotaFor probeTenantID = none) :
    AgreeOn (·.tenant = probeTenantID) (i.ingest cfg env (p.update req now))
      (i.recordUpdate cfg env (p.update req now)) := by
  have hb : i.beforeCap cfg env (p.update req now) = i.recordUpdate cfg env (p.update req now) := by
    have ht : (p.update req now : Update F).tenant = probeTenantID := rfl
    rw [beforeCap, enforceQuota, ht, hq]
  have hc : Consistent cfg (i.beforeCap cfg env (p.update req now)) := hi.beforeCap
  rw [hb] at hc
  rw [Index.ingest, hb]
  exact (AgreeOn.enforceCapLocked_self hc).mono fun mk hm => (isReservedTenant_iff hr).mpr hm

theorem entryAt_ingest (hi : Consistent cfg i) (hq : env.tenantQuotaFor probeTenantID = none)
    (hs : req.hashScheme ≠ []) (hk : key.tenant = probeTenantID) :
    (i.ingest cfg env (p.update req now)).entryAt key r =
      if r = probeReplicaID req.backend ∧ key = p.keyOf req then
        some (refreshed (i.entryAt key r) probeTokenCount CacheTier.t1
          ((p.update req now : Update F).seenAt env))
      else i.entryAt key r := by
  rw [(agreeOn_ingest hr hi hq).entry key r hk, entryAt_recordUpdate, Prober.update_latest hs]
  have hid : (p.update req now : Update F).replicaID = probeReplicaID req.backend := rfl
  rw [hid]
  by_cases h₁ : r = probeReplicaID req.backend <;> by_cases h₂ : key = p.keyOf req <;> simp [h₁, h₂]

theorem stats_ingest_ne (hi : Consistent cfg i) (hq : env.tenantQuotaFor probeTenantID = none)
    {sk : StatsKey} (ht : sk.tenant = probeTenantID)
    (hk : sk ≠ ⟨probeTenantID, req.model, probeReplicaID req.backend⟩) :
    (i.ingest cfg env (p.update req now)).stats.lookup sk = i.stats.lookup sk := by
  rw [(agreeOn_ingest hr hi hq).stats sk ht, lookup_stats_recordUpdate]
  exact if_neg hk

omit [GoFloat F] hr in
theorem entryAt_cleanup : (i.applyEvent cfg env (Prober.cleanupEvent req now)).entryAt key r =
    if key.tenant = probeTenantID ∧ key.model = req.model ∧ r = probeReplicaID req.backend then none
    else i.entryAt key r := by
  rw [entryAt_of_filter entries_applyEvent]
  cases i.entryAt key r
  case none => simp
  case some e =>
    by_cases ht : key.tenant = probeTenantID <;> by_cases hm : key.model = req.model <;>
      by_cases hid : r = probeReplicaID req.backend <;>
        simp [removes, Prober.cleanupEvent, Event.clears, ht, hm, hid, Option.filter]

omit [GoFloat F] hr in
theorem stats_cleanup {sk : StatsKey} :
    (i.applyEvent cfg env (Prober.cleanupEvent req now)).stats.lookup sk =
      if sk = ⟨probeTenantID, req.model, probeReplicaID req.backend⟩ then none else i.stats.lookup sk := by
  rw [lookup_stats_applyEvent]
  split <;> simp_all [Prober.cleanupEvent, touched]

omit hr in
theorem found_of_entryAt {e : ReplicaEntry} (hs : req.hashScheme ≠ [])
    (he : i.entryAt (p.keyOf req) (probeReplicaID req.backend) = some e)
    (hf : stale cfg env (p.directReq req) e.lastSeen = false) :
    ∃ x ∈ (i.lookupWithHits cfg env (p.directReq req)).1, x.replicaID = probeReplicaID req.backend := by
  have hl : (i.lookupWithHits cfg env (p.directReq req)) = i.lookupChain cfg env (p.directReq req) := by
    simp [lookupWithHits, Prober.directReq, hs, LookupRequest.chainBearing]
  have hfresh : i.freshEntry cfg env (p.directReq req) (probeReplicaID req.backend)
      (probeHash p.sha256 req) = some e := by
    have hk : (p.directReq req).keyOf (probeHash p.sha256 req) = p.keyOf req := rfl
    rw [freshEntry, hk, he]
    simp [Option.filter, hf]
  have hrun : i.runOf cfg env (p.directReq req) (probeReplicaID req.backend) (blocks (p.directReq req)) =
      some (startRun env (p.directReq req) (p.keyOf req) probeTokenCount e) := by
    have hb : blocks (p.directReq req) = [(probeHash p.sha256 req, probeTokenCount)] := rfl
    rw [hb, runOf, hfresh]
    rfl
  have hm : (probeReplicaID req.backend, probeTokenCount, e.tier) ∈
      (i.lookupChain cfg env (p.directReq req)).1.map ReplicaScore.found :=
    mem_found_lookupChain.mpr ⟨_, hrun, ⟨show 0 < probeTokenCount by decide, hf⟩, rfl⟩
  obtain ⟨x, hx, hxe⟩ := List.mem_map.mp hm
  exact ⟨x, hl ▸ hx, congrArg Prod.fst hxe⟩

end Calls

namespace ProbeState

variable {s s' : ProbeState F} {m : ProbeMove F} {id id' : RunID} {req' : ProbeRequest}
variable {phase : RunPhase}

theorem step_effect (p : Prober) (cfg : Config F) (s : ProbeState F) (m : ProbeMove F) :
    ProbeEffect p cfg s m (s.step p cfg m) := by
  cases m <;> dsimp only [step]
  case start =>
    split
    case h_1 h => exact .start h
    case h_2 => exact .none
  case lock =>
    split
    case h_2 => exact .none
    case h_1 h =>
      split
      case h_1 hl => exact .lock h hl
      case h_2 => exact .none
  case ingest =>
    split
    case h_1 h => exact .ingest h
    case h_2 => exact .none
  case lookup =>
    split
    case h_2 => exact .none
    case h_1 h =>
      split
      case isFalse => exact .land h
      case isTrue hs =>
        refine .miss h fun x hx he => ?_
        simp only [Prober.replicaInScores, Bool.not_eq_true', List.any_eq_false, decide_eq_true_eq] at hs
        exact hs x hx he
  case route =>
    split
    case h_1 h => exact .route h
    case h_2 => exact .none
  case cleanup =>
    split
    case h_1 h => exact .cleanup h
    case h_2 => exact .none
  case unlock =>
    split
    case h_1 h => exact .unlock h
    case h_2 => exact .none
  case call => exact .call

omit [GoFloat F] in
theorem lookup_goOn : (s.goOn id req phase).runs.lookup id' =
    if id' = id then some (req, phase) else s.runs.lookup id' :=
  Finmap.lookup_insert_ite

omit [GoFloat F] in
theorem lookup_goOn_cases {phase' : RunPhase}
    (h : (s.goOn id req phase).runs.lookup id' = some (req', phase')) :
    (id' = id ∧ req' = req ∧ phase' = phase) ∨ (id' ≠ id ∧ s.runs.lookup id' = some (req', phase')) := by
  rw [lookup_goOn] at h
  split at h
  case isFalse hn => exact .inr ⟨hn, h⟩
  case isTrue he =>
    cases h
    exact .inl ⟨he, rfl, rfl⟩

-- Who is between locking and unlocking is the one that the lock is held by.
def Exclusive (s : ProbeState F) : Prop :=
  ∀ {id : RunID} {req : ProbeRequest} {phase : RunPhase},
    s.runs.lookup id = some (req, phase) → phase.holds = true → s.locks.lookup (lockKey req) = some id

omit [GoFloat F] in
theorem Exclusive.eq (h : s.Exclusive) {phase' : RunPhase}
    (h₁ : s.runs.lookup id = some (req, phase)) (h₂ : s.runs.lookup id' = some (req', phase'))
    (hp₁ : phase.holds = true) (hp₂ : phase'.holds = true) (hk : lockKey req = lockKey req') :
    id = id' := by
  have := h h₁ hp₁
  rw [hk, h h₂ hp₂] at this
  exact (Option.some.inj this).symm

-- A run goes on without a change to the locks.
omit [GoFloat F] in
theorem Exclusive.goOn (h : s.Exclusive) {old : RunPhase} (hp : s.runs.lookup id = some (req, old))
    (ho : phase.holds = true → old.holds = true) : (s.goOn id req phase).Exclusive := by
  intro id' req' phase' hl hh
  obtain ⟨rfl, rfl, rfl⟩ | ⟨_, hl⟩ := lookup_goOn_cases hl
  case inl => exact h hp (ho hh)
  case inr => exact h hl hh

theorem Exclusive.effect (h : s.Exclusive) (he : ProbeEffect p cfg s m s') : s'.Exclusive := by
  cases he
  case none => exact h
  case call => exact h
  case ingest hp => exact Exclusive.goOn (s := { s with index := _ }) h hp fun _ => rfl
  case cleanup hp => exact Exclusive.goOn (s := { s with index := _ }) h hp fun _ => rfl
  case miss hp _ => exact h.goOn hp fun _ => rfl
  case land hp => exact h.goOn hp fun _ => rfl
  case route hp => exact h.goOn hp fun _ => rfl
  case start hp =>
    intro id' req' phase' hl hh
    obtain ⟨rfl, rfl, rfl⟩ | ⟨_, hl⟩ := lookup_goOn_cases hl
    case inl => cases hh
    case inr => exact h hl hh
  case lock req id hp hf =>
    intro id' req' phase' hl hh
    show Finmap.lookup (lockKey req') (s.locks.insert (lockKey req) id) = some id'
    rw [Finmap.lookup_insert_ite]
    obtain ⟨rfl, rfl, rfl⟩ | ⟨_, hl⟩ := lookup_goOn_cases hl
    case inl => rw [if_pos rfl]
    case inr =>
      have hk := h hl hh
      rw [if_neg fun he => by rw [he, hf] at hk; cases hk]
      exact hk
  case unlock req result id hp =>
    intro id' req' phase' hl hh
    show Finmap.lookup (lockKey req') (s.locks.erase (lockKey req)) = some id'
    rw [Finmap.lookup_erase_ite]
    obtain ⟨rfl, rfl, rfl⟩ | ⟨hn, hl⟩ := lookup_goOn_cases hl
    case inl => cases hh
    case inr =>
      rw [if_neg fun he => hn (h.eq hl hp hh rfl he)]
      exact h hl hh

-- Some run may have left something of this model and replica in the index.
def Covers (s : ProbeState F) (model replicaID : GoString) : Prop :=
  ∃ id req phase, s.runs.lookup id = some (req, phase) ∧ phase.active = true ∧
    model = req.model ∧ replicaID = probeReplicaID req.backend

structure Contents (p : Prober) (s : ProbeState F) : Prop where
  complete : ∀ {id req phase}, s.runs.lookup id = some (req, phase) → req.Complete
  present  : ∀ {id req phase t}, s.runs.lookup id = some (req, phase) → phase.seen = some t →
    ∃ e, s.index.entryAt (p.keyOf req) (probeReplicaID req.backend) = some e ∧ e.lastSeen = t
  entries  : ∀ {key r}, key.tenant = probeTenantID → s.index.entryAt key r ≠ none → s.Covers key.model r
  stats    : ∀ {sk : StatsKey}, sk.tenant = probeTenantID → s.index.stats.lookup sk ≠ none →
    s.Covers sk.model sk.replicaID

omit [GoFloat F] in
theorem lockKey_eq (hm : req.model = req'.model)
    (hr : probeReplicaID req.backend = probeReplicaID req'.backend) : lockKey req = lockKey req' := by
  rw [lockKey, lockKey, hm, List.append_cancel_left hr]

omit [GoFloat F] in
theorem tenantQuotaFor_of_served (h : Served F env) : env.tenantQuotaFor probeTenantID = none := by
  have ⟨store, env', he, _⟩ := h
  simp [Env.tenantQuotaFor, he, PolicyStore.environment, PolicyStore.tenantQuota]

-- No policy applies to the probe tenant, which is left with the TTL of the server.
omit [GoFloat F] in
theorem ttlFor_of_served (h : Served F env) : cfg.ttlFor env probeTenantID = cfg.ttl := by
  have ⟨store, env', he, hs⟩ := h
  have hn : store.policies.lookup probeTenantID = none := by
    by_contra hn
    have ⟨policy, hp⟩ := Option.ne_none_iff_exists'.mp hn
    exact hs _ _ hp (by decide)
  simp [Config.ttlFor, he, PolicyStore.environment, PolicyStore.ttl, PolicyStore.lookup, hn]

omit [GoFloat F] in
theorem Covers.goOn {model replicaID : GoString} {old : RunPhase} (h : s.Covers model replicaID)
    (hp : s.runs.lookup id = some (req, old)) (ha : old.active = true → phase.active = true) :
    (s.goOn id req phase).Covers model replicaID := by
  have ⟨id', req', phase', hl, ha', hm, hr⟩ := h
  by_cases he : id' = id
  case neg => exact ⟨id', req', phase', by rw [lookup_goOn, if_neg he, hl], ha', hm, hr⟩
  case pos =>
    rw [he, hp] at hl
    cases hl
    exact ⟨id, req, phase, by rw [lookup_goOn, if_pos rfl], ha ha', hm, hr⟩

omit [GoFloat F] in
theorem Exclusive.apart (hx : s.Exclusive) {old phase' : RunPhase}
    (hp : s.runs.lookup id = some (req, old)) (ho : old.holds = true)
    (hl : s.runs.lookup id' = some (req', phase')) (hh : phase'.holds = true) (hn : id' ≠ id) :
    ¬(req'.model = req.model ∧ probeReplicaID req'.backend = probeReplicaID req.backend) :=
  fun h => hn (hx.eq hl hp hh ho (lockKey_eq h.1 h.2))

namespace Contents

omit [GoFloat F] in
theorem new : Contents p (.new : ProbeState F) where
  complete h := by cases h
  present h := by cases h
  entries _ h := absurd rfl h
  stats _ h := absurd rfl h

-- The locks have no part in it.
omit [GoFloat F] in
theorem withLocks (h : Contents p s) (locks : GoMap GoString RunID) : Contents p { s with locks } :=
  ⟨h.complete, h.present, h.entries, h.stats⟩

-- A run goes on without a change to the index.
omit [GoFloat F] in
theorem goOn (h : Contents p s) {old : RunPhase} (hp : s.runs.lookup id = some (req, old))
    (hs : ∀ t, phase.seen = some t → old.seen = some t)
    (ha : old.active = true → phase.active = true) : Contents p (s.goOn id req phase) where
  entries hk he := (h.entries hk he).goOn hp ha
  stats hk he := (h.stats hk he).goOn hp ha
  complete hl := by
    obtain ⟨rfl, rfl, rfl⟩ | ⟨_, hl⟩ := lookup_goOn_cases hl
    case inl => exact h.complete hp
    case inr => exact h.complete hl
  present hl ht := by
    obtain ⟨rfl, rfl, rfl⟩ | ⟨_, hl⟩ := lookup_goOn_cases hl
    case inl => exact h.present hp (hs _ ht)
    case inr => exact h.present hl ht

omit [GoFloat F] in
theorem start (h : Contents p s) (hp : s.runs.lookup id = none) (hc : req.Complete) :
    Contents p (s.goOn id req .waiting) := by
  have hcov : ∀ {model replicaID}, s.Covers model replicaID →
      (s.goOn id req .waiting).Covers model replicaID := by
    rintro model replicaID ⟨id', req', phase', hl, hx⟩
    have hn : id' ≠ id := by
      rintro rfl
      rw [hp] at hl
      cases hl
    exact ⟨id', req', phase', by rw [lookup_goOn, if_neg hn, hl], hx⟩
  refine ⟨fun hl => ?_, fun hl ht => ?_, fun hk he => hcov (h.entries hk he),
    fun hk he => hcov (h.stats hk he)⟩
  case refine_1 =>
    obtain ⟨rfl, rfl, rfl⟩ | ⟨_, hl⟩ := lookup_goOn_cases hl
    case inl => exact hc
    case inr => exact h.complete hl
  case refine_2 =>
    obtain ⟨rfl, rfl, rfl⟩ | ⟨_, hl⟩ := lookup_goOn_cases hl
    case inl => cases ht
    case inr => exact h.present hl ht

omit [GoFloat F] in
theorem cleanup (h : Contents p s) (hx : s.Exclusive) {result : ProbeResult}
    (hp : s.runs.lookup id = some (req, .returning result)) :
    Contents p ({ s with index := s.index.applyEvent cfg env (Prober.cleanupEvent req now) }.goOn id req
      (.cleaned result)) := by
  -- Whoever else has something in the index goes on having it.
  have hcov : ∀ {model replicaID}, s.Covers model replicaID →
      ¬(model = req.model ∧ replicaID = probeReplicaID req.backend) →
      ({ s with index := s.index.applyEvent cfg env (Prober.cleanupEvent req now) }.goOn id req
        (.cleaned result)).Covers model replicaID := by
    rintro model replicaID ⟨id', req', phase', hl, ha, hm, hr⟩ hn
    have he : id' ≠ id := by
      rintro rfl
      rw [hp] at hl
      cases hl
      exact hn ⟨hm, hr⟩
    exact ⟨id', req', phase', by rw [lookup_goOn, if_neg he]; exact hl, ha, hm, hr⟩
  refine ⟨fun hl => ?_, fun hl ht => ?_, fun hk he => ?_, fun hk he => ?_⟩
  case refine_1 =>
    obtain ⟨rfl, rfl, rfl⟩ | ⟨_, hl⟩ := lookup_goOn_cases hl
    case inl => exact h.complete hp
    case inr => exact h.complete hl
  case refine_2 =>
    obtain ⟨rfl, rfl, rfl⟩ | ⟨hn, hl⟩ := lookup_goOn_cases hl
    case inl => cases ht
    case inr =>
      have ha := hx.apart hp rfl hl (RunPhase.holds_of_seen ht) hn
      have ⟨e, he, ht⟩ := h.present hl ht
      exact ⟨e, by rw [ProbeState.goOn, entryAt_cleanup, if_neg fun hc => ha hc.2, he], ht⟩
  case refine_3 =>
    rw [ProbeState.goOn, entryAt_cleanup] at he
    split at he
    case isTrue => exact absurd rfl he
    case isFalse hn => exact hcov (h.entries hk he) fun hc => hn ⟨hk, hc⟩
  case refine_4 sk =>
    rw [ProbeState.goOn, stats_cleanup] at he
    split at he
    case isTrue => exact absurd rfl he
    case isFalse hn =>
      refine hcov (h.stats hk he) fun hc => hn ?_
      obtain ⟨_, _, _⟩ := sk
      simp_all

section Calls

variable (hr : cfg.reservedTenants = {probeTenantID}) (hi : Index.Consistent cfg s.index)
include hr hi

theorem ingest (h : Contents p s) (hx : s.Exclusive) (hq : env.tenantQuotaFor probeTenantID = none)
    (hp : s.runs.lookup id = some (req, .locked)) :
    Contents p ({ s with index := s.index.ingest cfg env (p.update req now) }.goOn id req
      (.ingested ((p.update req now : Update F).seenAt env))) := by
  have hs := (h.complete hp).hashScheme
  have hcov : ∀ {model replicaID}, s.Covers model replicaID →
      ({ s with index := s.index.ingest cfg env (p.update req now) }.goOn id req
        (.ingested ((p.update req now : Update F).seenAt env))).Covers model replicaID :=
    fun hc => Covers.goOn (s := { s with index := _ }) hc hp nofun
  have hself : ({ s with index := s.index.ingest cfg env (p.update req now) }.goOn id req
      (.ingested ((p.update req now : Update F).seenAt env))).Covers req.model
        (probeReplicaID req.backend) :=
    ⟨id, req, _, Finmap.lookup_insert _, rfl, rfl, rfl⟩
  refine ⟨fun hl => ?_, fun hl ht => ?_, fun hk he => ?_, fun hk he => ?_⟩
  case refine_1 =>
    obtain ⟨rfl, rfl, rfl⟩ | ⟨_, hl⟩ := lookup_goOn_cases hl
    case inl => exact h.complete hp
    case inr => exact h.complete hl
  case refine_2 =>
    obtain ⟨rfl, rfl, rfl⟩ | ⟨hn, hl⟩ := lookup_goOn_cases hl
    case inl =>
      cases ht
      exact ⟨_, by rw [ProbeState.goOn, entryAt_ingest hr hi hq hs rfl, if_pos ⟨rfl, rfl⟩], rfl⟩
    case inr =>
      have ha := hx.apart hp rfl hl (RunPhase.holds_of_seen ht) hn
      have ⟨e, he, ht⟩ := h.present hl ht
      refine ⟨e, ?_, ht⟩
      rw [ProbeState.goOn, entryAt_ingest hr hi hq hs rfl, if_neg, he]
      exact fun hc => ha ⟨congrArg PrefixKey.model hc.2, hc.1⟩
  case refine_3 =>
    rw [ProbeState.goOn, entryAt_ingest hr hi hq hs hk] at he
    split at he
    case isTrue hc => rw [hc.1, hc.2]; exact hself
    case isFalse => exact hcov (h.entries hk he)
  case refine_4 sk =>
    by_cases hc : sk = ⟨probeTenantID, req.model, probeReplicaID req.backend⟩
    case pos => rw [hc]; exact hself
    case neg =>
      rw [ProbeState.goOn, stats_ingest_ne hr hi hq hk hc] at he
      exact hcov (h.stats hk he)

theorem call (h : Contents p s) {c : Call F} (hc : c.isReserved cfg = false)
    (ht : s.InTime cfg (.call c env)) : Contents p { s with index := s.index.step cfg (c, env) } := by
  by_cases hs : c = .evictExpired
  case neg =>
    have ha := Index.AgreeOn.step_real env hi hc hs
    have hp : ∀ {tenant : GoString}, tenant = probeTenantID → cfg.isReservedTenant tenant = true :=
      (isReservedTenant_iff hr).mpr
    refine ⟨h.complete, fun hl ht => ?_, fun hk he => ?_, fun hk he => ?_⟩
    case refine_1 =>
      have ⟨e, he, ht⟩ := h.present hl ht
      exact ⟨e, (ha.entry _ _ (hp rfl)).trans he, ht⟩
    case refine_2 => exact h.entries hk ((ha.entry _ _ (hp hk)).symm.trans_ne he)
    case refine_3 => exact h.stats hk ((ha.stats _ (hp hk)).symm.trans_ne he)
  -- A sweep only removes entries, and none of those that runs rely on.
  case pos =>
    subst hs
    refine ⟨h.complete, fun hl hp => ?_, fun hk he => h.entries hk fun hn => he ?_,
      fun hk he => h.stats hk fun hn => he ?_⟩
    case refine_1 =>
      have ⟨e, he, hseen⟩ := h.present hl hp
      have hn := ht env rfl _ _ _ _ hl hp
      refine ⟨e, ?_, hseen⟩
      show (s.index.evictExpired cfg env).entryAt _ _ = some e
      rw [Index.entryAt_of_filter Index.entries_evictExpired, he]
      simp [Option.filter, Index.expired, Prober.keyOf, hseen, hn]
    case refine_2 =>
      show (s.index.evictExpired cfg env).entryAt _ _ = none
      rw [Index.entryAt_of_filter Index.entries_evictExpired, hn, Option.filter_none]
    case refine_3 =>
      show (s.index.evictExpired cfg env).stats.lookup _ = none
      rw [Index.stats_evictExpired, Finmap.lookup_filter, hn, Option.filter_none]

end Calls

end Contents

-- Every result so far reports that the first two stages have passed.
def Passing (s : ProbeState F) : Prop :=
  ∀ id req phase result, s.runs.lookup id = some (req, phase) → phase.result = some result →
    result.ingest = .ok ∧ result.routing = .ok

omit [GoFloat F] in
theorem Passing.goOn (h : s.Passing)
    (hp : ∀ result, phase.result = some result → result.ingest = .ok ∧ result.routing = .ok) :
    (s.goOn id req phase).Passing := by
  intro id' req' phase' result hl he
  obtain ⟨rfl, rfl, rfl⟩ | ⟨_, hl⟩ := lookup_goOn_cases hl
  case inl => exact hp _ he
  case inr => exact h _ _ _ _ hl he

theorem stageC_passed : (p.stageC req).ingest = .ok ∧ (p.stageC req).routing = .ok := by
  unfold Prober.stageC
  cases p.t2
  case none => exact ⟨rfl, rfl⟩
  case some probe =>
    dsimp only
    split
    case isTrue => exact ⟨rfl, rfl⟩
    case isFalse => split <;> exact ⟨rfl, rfl⟩

-- What the runs see, as long as the entry of theirs is there and fresh.
section Found

variable {e : ReplicaEntry} (hc : req.Complete)
variable (he : i.entryAt (p.keyOf req) (probeReplicaID req.backend) = some e)
variable (hf : Index.stale cfg env (p.directReq req) e.lastSeen = false)
include hc he hf

theorem stageB_passed : p.stageB req (i.lookupRoute cfg env (p.directReq req)) = p.stageC req := by
  have ⟨x, hx, hid⟩ := found_of_entryAt hc.hashScheme he hf
  have hs : (i.lookupRoute cfg env (p.directReq req)).strategy = .prefixMatch := by
    refine Index.strategy_eq_prefixMatch_iff.mpr ⟨?_, List.length_pos_of_mem hx⟩
    have ht : probeTenantID ≠ [] := by decide
    simp [Index.dropped, Prober.directReq, hc.model, hc.hashScheme, ht]
  have hm : Prober.replicaInScores (i.lookupRoute cfg env (p.directReq req)).scores
      (probeReplicaID req.backend) = true := by
    rw [Index.scores_of_prefixMatch hs, Prober.replicaInScores, List.any_eq_true]
    exact ⟨x, hx, decide_eq_true hid⟩
  simp [Prober.stageB, hs, hm]

end Found

structure Sound (p : Prober) (cfg : Config F) (s : ProbeState F) : Prop where
  consistent : Index.Consistent cfg s.index
  exclusive  : s.Exclusive
  contents   : s.Contents p
  passing    : s.Passing

namespace Sound

omit [GoFloat F] in
theorem new : Sound p cfg (.new : ProbeState F) where
  consistent := .new
  exclusive := by intro _ _ _ h; cases h
  contents := .new
  passing := by intro _ _ _ _ h _; cases h

theorem consistent_effect (h : Index.Consistent cfg s.index) (he : ProbeEffect p cfg s m s') :
    Index.Consistent cfg s'.index := by
  cases he
  case ingest => exact h.ingest
  case call => exact h.step
  case cleanup req _ now env _ _ =>
    show Index.Consistent cfg (s.index.applyEvent cfg env (Prober.cleanupEvent req now))
    exact h.applyEvent
  all_goals exact h

variable [Ieee754 F] (hr : cfg.reservedTenants = {probeTenantID}) (ha : m.Allowed cfg)
variable (ht : s.InTime cfg m) (hl : ∀ env, m.aging = some env → cfg.ttlFor env probeTenantID ≤ 2 ^ 53)

theorem exists_fresh (h : Sound p cfg s) (ht : s.InTime cfg m)
    (hl : ∀ env, m.aging = some env → cfg.ttlFor env probeTenantID ≤ 2 ^ 53) (hm : m.aging = some env)
    (hp : s.runs.lookup id = some (req, phase)) (hs : phase.seen = some seen) :
    ∃ e, s.index.entryAt (p.keyOf req) (probeReplicaID req.backend) = some e ∧
      Index.stale cfg env (p.directReq req) e.lastSeen = false := by
  have ⟨e, he, hseen⟩ := h.contents.present hp hs
  subst hseen
  exact ⟨e, he, not_stale (ht env hm id req phase _ hp hs) (hl env hm)⟩

include hr ha ht in
omit [Ieee754 F] in
theorem contents_effect (h : Sound p cfg s) (he : ProbeEffect p cfg s m s') : s'.Contents p := by
  cases he
  case none => exact h.contents
  case start hp => exact h.contents.start hp ha
  case lock hp _ => exact (h.contents.withLocks _).goOn hp nofun nofun
  case ingest hp =>
    exact h.contents.ingest hr h.consistent h.exclusive (tenantQuotaFor_of_served ha) hp
  case miss hp _ => exact h.contents.goOn hp nofun fun _ => rfl
  case land hp => exact h.contents.goOn hp (fun _ h => h) fun _ => rfl
  case route hp => exact h.contents.goOn hp nofun fun _ => rfl
  case cleanup hp => exact h.contents.cleanup h.exclusive hp
  case unlock hp => exact (h.contents.withLocks _).goOn hp nofun nofun
  case call => exact h.contents.call hr h.consistent ha.2 ht

include ht hl in
theorem passing_effect (h : Sound p cfg s) (he : ProbeEffect p cfg s m s') : s'.Passing := by
  cases he
  case none => exact h.passing
  case call => exact h.passing
  case start => exact h.passing.goOn nofun
  case lock => exact Passing.goOn (s := { s with locks := _ }) h.passing nofun
  case ingest => exact Passing.goOn (s := { s with index := _ }) h.passing nofun
  case land => exact h.passing.goOn nofun
  case cleanup hp =>
    exact Passing.goOn (s := { s with index := _ }) h.passing fun _ => h.passing _ _ (.returning _) _ hp
  case unlock hp =>
    exact Passing.goOn (s := { s with locks := _ }) h.passing fun _ => h.passing _ _ (.cleaned _) _ hp
  case miss hp hn =>
    have ⟨e, he, hf⟩ := h.exists_fresh ht hl rfl hp rfl
    have ⟨x, hx, hid⟩ := found_of_entryAt (h.contents.complete hp).hashScheme he hf
    exact absurd hid (hn x hx)
  case route hp =>
    have ⟨e, he, hf⟩ := h.exists_fresh ht hl rfl hp rfl
    refine h.passing.goOn fun result hres => ?_
    rw [stageB_passed (h.contents.complete hp) he hf] at hres
    cases hres
    exact stageC_passed

include hr ha ht hl in
theorem effect (h : Sound p cfg s) (he : ProbeEffect p cfg s m s') : Sound p cfg s' where
  consistent := consistent_effect h.consistent he
  exclusive := Exclusive.effect h.exclusive he
  contents := h.contents_effect hr ha ht he
  passing := h.passing_effect ht hl he

omit hr ha ht hl in
theorem foldl {moves : List (ProbeMove F)} (h : Sound p cfg s)
    (hr : cfg.reservedTenants = {probeTenantID}) (ha : ∀ m ∈ moves, m.Allowed cfg)
    (ht : s.KeepsTime p cfg moves)
    (hl : ∀ m ∈ moves, ∀ env, m.aging = some env → cfg.ttlFor env probeTenantID ≤ 2 ^ 53) :
    Sound p cfg (moves.foldl (step p cfg) s) := by
  induction moves generalizing s
  case nil => exact h
  case cons m moves hi =>
    have hs := h.effect hr (ha m (.head _)) ht.1 (hl m (.head _)) (step_effect p cfg s m)
    exact hi hs (fun m' hm => ha m' (.tail _ hm)) ht.2 fun m' hm => hl m' (.tail _ hm)

-- Once nobody is at work, nothing is left to be covered.
omit [GoFloat F] [Ieee754 F] hr ha ht hl in
theorem clean (h : Sound p cfg s)
    (hf : ∀ id req phase, s.runs.lookup id = some (req, phase) → ∃ result, phase = .finished result) :
    (∀ key r, key.tenant = probeTenantID → s.index.entryAt key r = none) ∧
      ∀ sk : StatsKey, sk.tenant = probeTenantID → s.index.stats.lookup sk = none := by
  have hn : ∀ model replicaID, ¬s.Covers model replicaID := by
    rintro model replicaID ⟨id, req, phase, hl, ha, _⟩
    obtain ⟨result, rfl⟩ := hf id req phase hl
    cases ha
  refine ⟨fun key r hk => ?_, fun sk hk => ?_⟩
  case refine_1 =>
    by_contra he
    exact hn _ _ (h.contents.entries hk he)
  case refine_2 =>
    by_contra he
    exact hn _ _ (h.contents.stats hk he)

end Sound

end ProbeState

section Completion

open ProbeState

variable {s s' : ProbeState F} {id : RunID} {phase : RunPhase} {n : Nat}

-- The moves that bring a run to its end, if no other run is in its way.
def completion (id : RunID) (now : Time) (env : Env) : List (ProbeMove F) :=
  [.lock id, .ingest id now env, .lookup id env, .route id env, .cleanup id now env, .unlock id]

def RunPhase.rank : RunPhase → Nat
  | .waiting => 0
  | .locked => 1
  | .ingested _ => 2
  | .landed _ => 3
  | .returning _ => 4
  | .cleaned _ => 5
  | .finished _ => 6

def Reached (s : ProbeState F) (id : RunID) (n : Nat) : Prop :=
  ∃ req phase, s.runs.lookup id = some (req, phase) ∧ n ≤ phase.rank

namespace Reached

omit [GoFloat F] in
theorem goOn (h : n ≤ phase.rank) : Reached (s.goOn id req phase) id n :=
  ⟨req, phase, Finmap.lookup_insert _, h⟩

omit [GoFloat F] in
theorem stay (hs : s' = s) (hp : s.runs.lookup id = some (req, phase)) (h : n ≤ phase.rank) :
    Reached s' id n :=
  hs ▸ ⟨req, phase, hp, h⟩

theorem lock (hp : s.runs.lookup id = some (req, phase))
    (hf : phase = .waiting → s.locks.lookup (lockKey req) = none) :
    Reached (s.step p cfg (.lock id)) id 1 := by
  cases phase
  case waiting =>
    simp only [step, hp, hf rfl]
    exact goOn le_rfl
  all_goals exact stay (by simp only [step, hp]) hp (by simp [RunPhase.rank])

theorem ingest (h : Reached s id 1) : Reached (s.step p cfg (.ingest id now env)) id 2 := by
  have ⟨req, phase, hp, hn⟩ := h
  cases phase
  case waiting => cases hn
  case locked =>
    simp only [step, hp]
    exact goOn le_rfl
  all_goals exact stay (by simp only [step, hp]) hp (by simp [RunPhase.rank])

theorem lookup (h : Reached s id 2) : Reached (s.step p cfg (.lookup id env)) id 3 := by
  have ⟨req, phase, hp, hn⟩ := h
  cases phase
  case waiting | locked => exact absurd hn (by simp [RunPhase.rank])
  case ingested =>
    simp only [step, hp]
    split
    case isTrue => exact goOn (by simp [RunPhase.rank])
    case isFalse => exact goOn le_rfl
  all_goals exact stay (by simp only [step, hp]) hp (by simp [RunPhase.rank])

theorem route (h : Reached s id 3) : Reached (s.step p cfg (.route id env)) id 4 := by
  have ⟨req, phase, hp, hn⟩ := h
  cases phase
  case waiting | locked | ingested => exact absurd hn (by simp [RunPhase.rank])
  case landed =>
    simp only [step, hp]
    exact goOn le_rfl
  all_goals exact stay (by simp only [step, hp]) hp (by simp [RunPhase.rank])

theorem cleanup (h : Reached s id 4) : Reached (s.step p cfg (.cleanup id now env)) id 5 := by
  have ⟨req, phase, hp, hn⟩ := h
  cases phase
  case waiting | locked | ingested | landed => exact absurd hn (by simp [RunPhase.rank])
  case returning =>
    simp only [step, hp]
    exact goOn le_rfl
  all_goals exact stay (by simp only [step, hp]) hp (by simp [RunPhase.rank])

theorem unlock (h : Reached s id 5) : Reached (s.step p cfg (.unlock id)) id 6 := by
  have ⟨req, phase, hp, hn⟩ := h
  cases phase
  case waiting | locked | ingested | landed | returning => exact absurd hn (by simp [RunPhase.rank])
  case cleaned =>
    simp only [step, hp]
    exact goOn le_rfl
  case finished => exact stay (by simp only [step, hp]) hp le_rfl

omit [GoFloat F] in
theorem finished (h : Reached s id 6) : ∃ req result, s.runs.lookup id = some (req, .finished result) := by
  have ⟨req, phase, hp, hn⟩ := h
  cases phase
  case finished result => exact ⟨req, result, hp⟩
  all_goals exact absurd hn (by simp [RunPhase.rank])

end Reached

theorem completion_finished (hp : s.runs.lookup id = some (req, phase))
    (hf : phase = .waiting → s.locks.lookup (lockKey req) = none) :
    ∃ req result, ((completion id now env).foldl (step p cfg) s).runs.lookup id =
      some (req, .finished result) := by
  have hl : Reached (s.step p cfg (.lock id)) id 1 := .lock hp hf
  simp only [completion, List.foldl_cons, List.foldl_nil]
  exact hl.ingest.lookup.route.cleanup.unlock.finished

end Completion

namespace ProbeState

omit [GoFloat F] in
theorem ttl_of_allowed {m : ProbeMove F} (hd : cfg.ttl = Config.defaultTTL) (ha : m.Allowed cfg)
    (hm : m.aging = some env) : cfg.ttlFor env probeTenantID ≤ 2 ^ 53 := by
  have hs : Served F env := by
    unfold ProbeMove.aging at hm
    split at hm
    case h_4 => cases hm
    all_goals cases hm
    case h_1 => exact ha
    case h_2 => exact ha
    case h_3 => exact ha.1
  rw [ttlFor_of_served hs, hd]
  decide

-- The index is the one of the server, with its TTL.
theorem probes_sound [Ieee754 F] (p : Prober) (cfg : Config F)
    (hr : cfg.reservedTenants = {probeTenantID}) (hd : cfg.ttl = Config.defaultTTL)
    (moves : List (ProbeMove F)) (ha : ∀ m ∈ moves, m.Allowed cfg) (ht : new.KeepsTime p cfg moves) :
    let s := run p cfg moves
    (∀ id req result, s.runs.lookup id = some (req, .finished result) →
      result.ingest = .ok ∧ result.routing = .ok) ∧
    ((∀ id req phase, s.runs.lookup id = some (req, phase) → ∃ result, phase = .finished result) →
      (∀ key r, key.tenant = probeTenantID → s.index.entryAt key r = none) ∧
        ∀ sk : StatsKey, sk.tenant = probeTenantID → s.index.stats.lookup sk = none) ∧
    ∀ id req phase, s.runs.lookup id = some (req, phase) →
      (phase = .waiting → s.locks.lookup (lockKey req) = none) → ∀ now env,
        ∃ req result, ((completion id now env).foldl (step p cfg) s).runs.lookup id =
          some (req, .finished result) := by
  have h : Sound p cfg (run p cfg moves) :=
    Sound.new.foldl hr ha ht fun m hm env he => ttl_of_allowed hd (ha m hm) he
  exact ⟨fun id req result hf => h.passing id req _ result hf rfl, h.clean,
    fun _ _ _ hp hf _ _ => completion_finished hp hf⟩

section

variable {s s' : ProbeState F} {m : ProbeMove F} {id id' : RunID} {phase : RunPhase}

-- All entries that runs rely on are of this time.
def SeenAt (s : ProbeState F) (t : Time) : Prop :=
  ∀ id req phase seen, s.runs.lookup id = some (req, phase) → phase.seen = some seen → seen = t

omit [GoFloat F] in
theorem SeenAt.goOn {t : Time} (h : s.SeenAt t) (hp : ∀ seen, phase.seen = some seen → seen = t) :
    (s.goOn id req phase).SeenAt t := by
  intro id' req' phase' seen hl hs
  obtain ⟨rfl, rfl, rfl⟩ | ⟨_, hl⟩ := lookup_goOn_cases hl
  case inl => exact hp seen hs
  case inr => exact h _ _ _ _ hl hs

theorem SeenAt.effect {t : Time} (h : s.SeenAt t) (ht : t ≠ 0)
    (hm : ∀ id now env, m = .ingest id now env → now = t) (he : ProbeEffect p cfg s m s') :
    s'.SeenAt t := by
  cases he
  case none => exact h
  case call => exact h
  case start => exact h.goOn nofun
  case miss => exact h.goOn nofun
  case route => exact h.goOn nofun
  case lock => exact SeenAt.goOn (s := { s with locks := _ }) h nofun
  case unlock => exact SeenAt.goOn (s := { s with locks := _ }) h nofun
  case cleanup => exact SeenAt.goOn (s := { s with index := _ }) h nofun
  case land hp => exact h.goOn fun seen hs => h _ _ _ _ hp hs
  case ingest req now env id hp =>
    obtain rfl := hm id now env rfl
    refine SeenAt.goOn (s := { s with index := _ }) h fun seen hs => ?_
    rw [← Option.some.inj hs]
    exact Update.seenAt_of_ne ht

-- With one time for all ingests, only that time has to be compared.
theorem keepsTime_of_seenAt {t : Time} {moves : List (ProbeMove F)} (h : s.SeenAt t) (ht : t ≠ 0)
    (hm : ∀ id now env, .ingest id now env ∈ moves → now = t)
    (ha : ∀ m ∈ moves, ∀ env, m.aging = some env →
      Time.sub (env.now 0) t < cfg.ttlFor env probeTenantID) : s.KeepsTime p cfg moves := by
  induction moves generalizing s
  case nil => trivial
  case cons m moves hi =>
    refine ⟨fun env he id req phase seen hl hs => ?_, ?_⟩
    case refine_1 => exact h _ _ _ _ hl hs ▸ ha m (.head _) env he
    case refine_2 =>
      have hs := h.effect ht (fun id now env he => hm id now env (he ▸ .head _)) (step_effect p cfg s m)
      exact hi hs (fun id now env he => hm id now env (.tail _ he)) fun m' he => ha m' (.tail _ he)

def probeOf : Prober where
  sha256 _ := [1]
  quote s  := s
  t2       := none

def serverIndex : Config Binary.Single :=
  .new 0 0 .default [probeTenantID]

def lmcacheProbe : ProbeRequest where
  backend     := utf8 "b"
  backendType := []
  model       := utf8 "m"
  hashScheme  := utf8 "s"

def policed (now : Time) : Env :=
  (PolicyStore.new (F := Binary.Single)).environment (.still now)

theorem served_policed {now : Time} : Served Binary.Single (policed now) :=
  ⟨.new, .still now, rfl, by simp [PolicyStore.new]⟩

-- What a run does after it has started, with an entry of time `1`.
def runAt (id : RunID) (now : Time) : List (ProbeMove Binary.Single) :=
  [.lock id, .ingest id 1 (policed now), .lookup id (policed now), .route id (policed now),
    .cleanup id now (policed now), .unlock id]

theorem runAt_allowed {cfg : Config Binary.Single} {id : RunID} {now : Time} :
    ∀ m ∈ runAt id now, m.Allowed cfg := by
  simp only [runAt, List.mem_cons, List.not_mem_nil, or_false, forall_eq_or_imp, forall_eq]
  exact ⟨trivial, served_policed, served_policed, served_policed, trivial, trivial⟩

theorem lmcacheProbe_complete : lmcacheProbe.Complete :=
  ⟨by decide +kernel, by decide +kernel, by decide +kernel⟩

-- Two runs for one backend, the second of which waits for the first.
def twoRuns : List (ProbeMove Binary.Single) :=
  .start 0 lmcacheProbe :: .start 1 lmcacheProbe :: .lock 0 :: runAt 1 2 ++ runAt 0 2 ++ runAt 1 2

theorem probes_sound_twoRuns :
    (∀ id ∈ [0, 1], (run probeOf serverIndex twoRuns).runs.lookup id =
      some (lmcacheProbe, .finished (Prober.passed lmcacheProbe .skipped []))) ∧
    (∀ id req result, (run probeOf serverIndex twoRuns).runs.lookup id = some (req, .finished result) →
      result.ingest = .ok ∧ result.routing = .ok) := by
  refine ⟨by decide +kernel, (probes_sound probeOf serverIndex (by decide) rfl twoRuns ?_ ?_).1⟩
  case refine_1 =>
    simp only [twoRuns, List.cons_append, List.forall_mem_cons, List.forall_mem_append]
    exact ⟨lmcacheProbe_complete, lmcacheProbe_complete, trivial,
      ⟨runAt_allowed, runAt_allowed⟩, runAt_allowed⟩
  case refine_2 =>
    refine keepsTime_of_seenAt (t := 1) ?_ (by decide) ?_ ?_
    case refine_1 => intro _ _ _ _ h; cases h
    case refine_2 =>
      intro id now env h
      simp only [twoRuns, runAt, List.mem_append, List.mem_cons, ProbeMove.ingest.injEq, reduceCtorEq,
        List.not_mem_nil, false_or, or_false] at h
      obtain (h | h) | h := h <;> exact h.2.1
    case refine_3 => simp [twoRuns, runAt, ProbeMove.aging]; decide

end

end ProbeState

end InferenceCache.Server
