import InferenceCache.Controller.Theorems.Coherence

-- The first event of a backend: once seen it counts for ever, and how long a timeout stands.
namespace InferenceCache.Controller

open Adapters (Library)

section Quiet

variable {lib : Library} {b : Backend} {s : Status} {w : World}

-- Not one of the two reasons that only the gate of the first event gives.
def Quiet (v : Verdict) : Prop :=
  v.reason ≠ .awaitingFirstKVEvent ∧ v.reason ≠ .noKVEventsObserved

-- Two conditions are handed on to `Ready`, with their reasons.
structure HandsOnQuiet (s : Status) : Prop where
  connector : ∀ c ∈ s.conditions.connectorReady, Quiet c.toVerdict
  probe     : ∀ c ∈ s.conditions.functionalProbeOK, Quiet c.toVerdict

theorem quiet_managedReadiness (dep : Deployment) : Quiet (managedReadiness dep) := by
  simp only [managedReadiness]
  split_ifs <;> exact ⟨nofun, nofun⟩

theorem quiet_managedRemote (ready : Verdict) (endpoint : GoString) : Quiet (managedRemote ready endpoint) := by
  simp only [managedRemote]
  split_ifs <;> exact ⟨nofun, nofun⟩

theorem quiet_lmCacheMPReadyBase {remote : Verdict} (h : Quiet remote) (hs : HandsOnQuiet s) :
    Quiet (lmCacheMPReadyBase b s remote) := by
  simp only [lmCacheMPReadyBase]
  split
  case isTrue => exact h
  case isFalse =>
    split
    case h_1 => exact ⟨nofun, nofun⟩
    case h_2 c hc =>
      split_ifs
      case pos => exact ⟨nofun, nofun⟩
      case pos => exact hs.connector c hc
      case pos => exact h
      case pos => exact ⟨nofun, nofun⟩
      case neg => exact ⟨nofun, nofun⟩

theorem quiet_managedBase {o : ManagedObserved} (hs : HandsOnQuiet w.status) : Quiet (managedBase b o w) := by
  simp only [managedBase]
  split
  case isTrue => exact quiet_lmCacheMPReadyBase (quiet_managedRemote _ _) hs
  case isFalse => exact quiet_managedReadiness _

theorem quiet_externalAcceptance : Quiet (externalAcceptance lib b) := by
  simp only [externalAcceptance]
  split
  case h_1 => exact ⟨nofun, nofun⟩
  case h_2 =>
    split
    case isTrue => exact ⟨nofun, nofun⟩
    case isFalse => split <;> exact ⟨nofun, nofun⟩

theorem quiet_externalReady (hs : HandsOnQuiet w.status) : Quiet (externalReady lib b w) := by
  have hr : Quiet (externalRemote lib b) := by
    simp only [externalRemote]
    split
    case isTrue => exact ⟨nofun, nofun⟩
    case isFalse => exact quiet_externalAcceptance
  simp only [externalReady]
  split
  case isTrue => exact quiet_lmCacheMPReadyBase hr hs
  case isFalse => exact quiet_externalAcceptance

theorem quiet_serverlessBase (hs : HandsOnQuiet w.status) : Quiet (serverlessBase b w) := by
  have ha : Quiet (serverlessActive b) := by
    simp only [serverlessActive]
    split <;> exact ⟨nofun, nofun⟩
  simp only [serverlessBase]
  split
  case isTrue => exact ha
  case isFalse => exact quiet_lmCacheMPReadyBase ha hs

theorem quiet_baseReadiness {v : Verdict} (h : Quiet v) : Quiet (baseReadiness v).ready :=
  h

theorem quiet_of_lastKVEventSeen {p : Option IndexParticipation} {ready : Verdict} {anchor now : Time}
    {freshWindow : Bool} (h : Quiet ready) (hs : lastKVEventSeen s p = true) :
    Quiet (evaluateKVEventReadiness b s p ready anchor now freshWindow).ready := by
  simp only [evaluateKVEventReadiness, hs, if_true]
  split
  case isTrue => exact quiet_baseReadiness h
  case isFalse => exact ⟨by simp, by simp⟩

theorem quiet_stageReasonAndMessage (result : ProbeResult) {st : ConditionStatus} :
    Quiet ⟨st, (stageReasonAndMessage lib result).1, (stageReasonAndMessage lib result).2⟩ := by
  simp only [stageReasonAndMessage]
  split_ifs <;> exact ⟨nofun, nofun⟩

-- A verdict of the probe that says nothing of the first event.
structure ProbeVerdict.Quiet (v : ProbeVerdict) : Prop where
  condition : ∀ c ∈ v.condition, Controller.Quiet c
  downgrade : ∀ d ∈ v.downgrade, ∀ st, Controller.Quiet ⟨st, d.1, d.2⟩

theorem quiet_inherited (hs : HandsOnQuiet s) : ∀ d ∈ inherited s, ∀ st, Quiet ⟨st, d.1, d.2⟩ := by
  intro d hd st
  simp only [inherited] at hd
  split at hd
  case h_1 c hc =>
    split at hd
    case isTrue =>
      cases hd
      exact hs.probe c hc
    case isFalse => cases hd
  case h_2 => cases hd

theorem quiet_probeCallVerdict {rateLimit : Duration} (hs : HandsOnQuiet s)
    (answer : Except GoString ProbeResult) : (probeCallVerdict lib s rateLimit answer).Quiet := by
  cases answer
  case error err =>
    simp only [probeCallVerdict]
    split
    case h_1 d hd => exact ⟨nofun, fun d' hd' => by cases hd'; exact quiet_inherited hs d hd⟩
    case h_2 => exact ⟨fun c hc => by cases hc; exact ⟨nofun, nofun⟩, nofun⟩
  case ok result =>
    simp only [probeCallVerdict]
    split
    case isTrue => exact ⟨fun c hc => by cases hc; exact ⟨nofun, nofun⟩, nofun⟩
    case isFalse =>
      refine ⟨fun c hc => ?_, fun d hd st => ?_⟩
      case refine_1 =>
        cases hc
        exact quiet_stageReasonAndMessage result
      case refine_2 =>
        cases hd
        exact quiet_stageReasonAndMessage result

theorem quiet_evaluateFunctionalProbe {g : KvReadiness} {probe : Option ProbeClient} {limiter : ProbeLimiter}
    {rateLimit : Duration} {now : Time} (hs : HandsOnQuiet s) :
    (evaluateFunctionalProbe lib b s g probe limiter rateLimit now).Quiet := by
  cases probe
  case none => exact ⟨by simp [evaluateFunctionalProbe], by simp [evaluateFunctionalProbe]⟩
  case some run =>
    simp only [evaluateFunctionalProbe]
    split
    case isTrue => exact ⟨by simp, by simp⟩
    case isFalse =>
      split
      case isTrue => exact ⟨fun c hc => by cases hc; exact ⟨by simp, by simp⟩, by simp⟩
      case isFalse =>
        split
        case isTrue => exact ⟨by simp, quiet_inherited hs⟩
        case isFalse => exact quiet_probeCallVerdict hs _

theorem quiet_downgradeReadyVerdict {g : KvReadiness} {v : ProbeVerdict} (hg : Quiet g.ready)
    (hv : v.Quiet) : Quiet (downgradeReadyVerdict g v).ready := by
  simp only [downgradeReadyVerdict]
  split
  case h_1 => exact hg
  case h_2 r m hd => exact hv.downgrade (r, m) hd .false

theorem quiet_downgradeKernelReadyVerdict {g : KvReadiness} {v : KernelHealthVerdict} (hg : Quiet g.ready) :
    Quiet (downgradeKernelReadyVerdict g v).ready := by
  simp only [downgradeKernelReadyVerdict]
  split
  case isTrue => exact ⟨by simp, by simp⟩
  case isFalse => exact hg

end Quiet

section Flap

def managedBackend (generation : Int) (timeout : Option Int64) : Backend where
  object := {
    key := ⟨utf8 "team", utf8 "cache"⟩
    spec := {
      engineSelector := none
      rest := {
        uid := utf8 "1"
        generation := generation
        runtime := .vllm
        type := .lmCache
        lmCache := some ⟨.podLocal, none, none, none⟩
        remoteStorage := some ⟨.redis, .managed, [], none, none⟩
        observation := none
        integration := none
        allowCrossNamespace := false
        remoteStorageEndpoint := none
      }
    }
  }
  annotations := ∅
  firstEventTimeout := timeout

def allSucceed : DispatchFacts :=
  ⟨true, true, true, true, true, true, true, true, true, true, true, true⟩

def reconcileAt (b : Backend) (seconds : Int) (lastEventAt : Option Time)
    (probe : Option ProbeClient := none) : Event :=
  .reconcile {
    backend := b
    facts := allSucceed
    observed := {
      now := seconds * 10 ^ 9
      participation := some { lastEventAt := lastEventAt }
      kernelPods := some []
      engineCompat := some []
      endpoint := utf8 "cache.team.svc:6379"
      deployment := ⟨1, some 1, 1, 1, 1⟩
      applyOK := true
      probe := probe
      rateLimit := 0
    }
    patched := true
  }

def oneEngine (b : Backend) : Event :=
  .refresh b (some ⟨1, 1, 1, 1, 1, 1, 1, false, false, false⟩) true

-- Ready from the first second on, and without an event for the five minutes of the default.
def timedOut : List Event :=
  [reconcileAt (managedBackend 1 none) 1 none, oneEngine (managedBackend 1 none),
    reconcileAt (managedBackend 1 none) 2 none, reconcileAt (managedBackend 1 none) 302 none]

-- A new timeout of one hour is a new generation, of which the connector is not observed at first.
def raiseTimeout : List Event :=
  [reconcileAt (managedBackend 2 (some 3600000000000)) 303 none,
    oneEngine (managedBackend 2 (some 3600000000000)),
    reconcileAt (managedBackend 2 (some 3600000000000)) 304 none]

end Flap

section Latch

variable {lib : Library} {w : World} {s : Status}

theorem quiet_podLocalVerdict (c : ConnectorCounts) : Quiet (podLocalVerdict c) := by
  simp only [podLocalVerdict]
  split_ifs <;> exact ⟨nofun, nofun⟩

theorem quiet_nodeLocalVerdict (c : ConnectorCounts) : Quiet (nodeLocalVerdict c) := by
  simp only [nodeLocalVerdict]
  split_ifs <;> exact ⟨nofun, nofun⟩

theorem handsOnQuiet_change (hc : Change lib w s) (hw : HandsOnQuiet w.status) : HandsOnQuiet s := by
  cases hc
  case none => exact hw
  case managed b o f =>
    refine ⟨fun c hc => hw.connector c (by simpa [managedStatus] using hc), fun c hc => ?_⟩
    have hp : (managedProbe lib b o w).Quiet := quiet_evaluateFunctionalProbe hw
    simp only [managedStatus, setRemoteStorageStatus_functionalProbeOK, settle] at hc
    split at hc
    case h_1 v hv =>
      cases hc
      exact hp.condition v hv
    case h_2 =>
      split at hc
      case isTrue => cases hc
      case isFalse => exact hw.probe c hc
  case external b f =>
    exact ⟨fun c hc => hw.connector c (by simpa [externalStatus] using hc), fun _ h => by cases h⟩
  case serverless b o f =>
    refine ⟨fun c hc => hw.connector c ?_, fun _ h => by cases h⟩
    simp only [serverlessStatus] at hc
    split at hc
    case isTrue => exact hc
    case isFalse => simpa using hc
  case unmanaged => exact ⟨(fun _ h => by cases h), (fun _ h => by cases h)⟩
  case connector v h =>
    refine ⟨fun c hc => ?_, hw.probe⟩
    cases h c hc
    case inl hv => exact hw.connector c (hv ▸ hc)
    case inr hv =>
      obtain ⟨counts, hv⟩ := hv
      cases hv
      case inl hv => exact hv ▸ quiet_podLocalVerdict counts
      case inr hv => exact hv ▸ quiet_nodeLocalVerdict counts

structure Latched (s : Status) : Prop extends HandsOnQuiet s where
  ready : s.firstKVEventObservedAt.isSome → ∀ c ∈ s.conditions.ready, Quiet c.toVerdict

theorem lastKVEventSeen_of_latch {p : Option IndexParticipation} (h : (latchFirstKVEvent p s).isSome) :
    lastKVEventSeen s p = true := by
  simp only [latchFirstKVEvent, lastKVEventSeen] at *
  cases hs : s.firstKVEventObservedAt
  case none => simpa [hs] using h
  case some t => rfl

theorem serverlessStatus_latch (b : Backend) (o : Observed) (w : World) :
    (serverlessStatus b o w).firstKVEventObservedAt = latchFirstKVEvent o.participation w.status := by
  simp only [serverlessStatus, latchFirstKVEvent]
  split <;> simp

theorem managedStatus_latch (lib : Library) (b : Backend) (o : ManagedObserved) (w : World) :
    (managedStatus lib b o w).firstKVEventObservedAt = latchFirstKVEvent o.participation w.status := by
  simp [managedStatus, latchFirstKVEvent]

theorem latched_change (hc : Change lib w s) (hw : Latched w.status) : Latched s := by
  refine ⟨handsOnQuiet_change hc hw.toHandsOnQuiet, ?_⟩
  have hs := hw.toHandsOnQuiet
  cases hc
  case none => exact hw.ready
  case managed b o f =>
    intro hl c hc
    have hseen := lastKVEventSeen_of_latch (managedStatus_latch lib b o w ▸ hl)
    cases hc
    exact quiet_downgradeKernelReadyVerdict <| quiet_downgradeReadyVerdict
      (quiet_of_lastKVEventSeen (quiet_managedBase hs) hseen) (quiet_evaluateFunctionalProbe hs)
  case external b f =>
    intro _ c hc
    cases hc
    exact quiet_externalReady hs
  case serverless b o f =>
    intro hl c hc
    have hseen := lastKVEventSeen_of_latch (serverlessStatus_latch b o w ▸ hl)
    cases hc
    exact quiet_downgradeKernelReadyVerdict (quiet_of_lastKVEventSeen (quiet_serverlessBase hs) hseen)
  case unmanaged => exact fun _ => nofun
  case connector v h => exact hw.ready

theorem latch_change {t : Time} (hc : Change lib w s) (hw : w.status.firstKVEventObservedAt = some t) :
    s.firstKVEventObservedAt = some t := by
  cases hc
  case none => exact hw
  case managed b o f => simp [managedStatus_latch, latchFirstKVEvent, hw]
  case external b f => simpa [externalStatus] using hw
  case serverless b o f => simp [serverlessStatus_latch, latchFirstKVEvent, hw]
  case unmanaged => exact hw
  case connector v h => exact hw

theorem first_event_stays (lib : Library) (events later : List Event) (t : Time)
    (h : (run lib {} events).status.firstKVEventObservedAt = some t) :
    (run lib {} (events ++ later)).status.firstKVEventObservedAt = some t ∧
      (run lib {} (events ++ later)).status.conditions.readyReason ≠ some .awaitingFirstKVEvent ∧
      (run lib {} (events ++ later)).status.conditions.readyReason ≠ some .noKVEventsObserved := by
  have hl : (run lib {} (events ++ later)).status.firstKVEventObservedAt = some t := by
    rw [run_append]
    exact run_invariant (p := fun s => s.firstKVEventObservedAt = some t) latch_change h
  have hq : Latched (run lib {} (events ++ later)).status :=
    run_invariant latched_change ⟨⟨nofun, nofun⟩, nofun⟩
  have hr := hq.ready (by rw [hl]; rfl)
  refine ⟨hl, fun he => ?_, fun he => ?_⟩
  case refine_1 =>
    have ⟨c, hc, hcr⟩ := Option.map_eq_some_iff.mp he
    exact (hr c hc).1 hcr
  case refine_2 =>
    have ⟨c, hc, hcr⟩ := Option.map_eq_some_iff.mp he
    exact (hr c hc).2 hcr

theorem first_event_stays_after_timeout :
    (run .plain {} (timedOut ++ [reconcileAt (managedBackend 1 none) 310 (some 309)])).status.firstKVEventObservedAt =
        some 309 ∧
      (run .plain {} (timedOut ++ [reconcileAt (managedBackend 1 none) 310 (some 309)] ++
        raiseTimeout)).status.firstKVEventObservedAt = some 309 :=
  ⟨by decide +kernel, (first_event_stays .plain _ raiseTimeout 309 (by decide +kernel)).1⟩

end Latch

section Timeout

variable {lib : Library} {b : Backend} {o : ManagedObserved} {w : World} {e : Event}

def Waiting (s : Status) : Prop :=
  s.conditions.readyReason = some .awaitingFirstKVEvent

-- A step in managed mode, with the gate and without an event. A reconcile may fail before the status.
def eventGated : Event → Bool
  | .reconcile r =>
    (dispatch r.backend r.facts = .managed || dispatch r.backend r.facts = .failed) &&
      kvEventGateEnabled r.backend && (currentLastEventAt r.observed.participation).isNone
  | .refresh ..  => true
  | .restart     => true

-- How long the workload has been available, as far as that is known.
def waited (o : ManagedObserved) (w : World) : Duration :=
  match w.status.firstAvailableAt with
  | some t => Time.sub o.now (if t = 0 then o.now else t)
  | none   => Time.sub o.now o.now

-- Where the workload is ready and the last verdict is no longer to be seen, it is reached again.
def TimeoutStands (w : World) : Event → Prop
  | .reconcile r =>
    dispatch r.backend r.facts = .managed → r.patched = true →
      (managedBase r.backend r.observed w).status = .true →
        w.status.conditions.readyReason = some .noKVEventsObserved ∨
          firstEventTimeout r.backend ≤ waited r.observed w ∨
          (evaluateEngineKernelHealth w.status r.observed.kernelPods).downgradeReady = true
  | .refresh ..  => True
  | .restart     => True

-- A world before the first event.
structure Unseen (w : World) : Prop extends HandsOnQuiet w.status where
  latch : w.status.firstKVEventObservedAt = none

section Gate

section Evaluate

variable {s : Status} {p : Option IndexParticipation} {ready : Verdict} {anchor now : Time}
variable (hk : kvEventGateEnabled b = true) (hs : lastKVEventSeen s p = false)

include hk hs in
theorem not_ready_of_not_seen : (evaluateKVEventReadiness b s p ready anchor now false).ready.status ≠ .true := by
  simp only [evaluateKVEventReadiness, hk, hs]
  generalize (if anchor = 0 then now else anchor) = start
  split
  case isTrue h => simpa [baseReadiness] using h
  case isFalse h => split_ifs <;> simp_all

include hk hs in
theorem waits_iff (hq : Quiet ready) :
    (evaluateKVEventReadiness b s p ready anchor now false).ready.reason = .awaitingFirstKVEvent ↔
      ready.status = .true ∧ s.conditions.readyReason ≠ some .noKVEventsObserved ∧
        Time.sub now (if anchor = 0 then now else anchor) < firstEventTimeout b := by
  simp only [evaluateKVEventReadiness, hk, hs]
  generalize (if anchor = 0 then now else anchor) = start
  by_cases hr : ready.status = .true
  case neg => simp [hr, baseReadiness, hq.1]
  case pos =>
    by_cases hn : s.conditions.readyReason = some .noKVEventsObserved
    case pos => simp [hr, hn]
    case neg =>
      by_cases ht : Time.sub now start < firstEventTimeout b
      case pos => simp [hr, hn, ht]
      case neg => simp [hr, hn, ht]

end Evaluate

variable (hw : Unseen w) (hk : kvEventGateEnabled b = true) (hp : currentLastEventAt o.participation = none)

include hw hp in
theorem not_seen_of_unseen : lastKVEventSeen w.status o.participation = false := by
  simp [lastKVEventSeen, hw.latch, hp]

include hw hk hp in
theorem managedGate_not_ready : (managedGate b o w).ready.status ≠ .true :=
  not_ready_of_not_seen hk (not_seen_of_unseen hw hp)

include hw hk hp in
theorem managedGate_waits_iff : (managedGate b o w).ready.reason = .awaitingFirstKVEvent ↔
    (managedBase b o w).status = .true ∧ w.status.conditions.readyReason ≠ some .noKVEventsObserved ∧
      waited o w < firstEventTimeout b := by
  rw [managedGate, waits_iff hk (not_seen_of_unseen hw hp) (quiet_managedBase hw.toHandsOnQuiet)]
  refine and_congr_right fun hb => and_congr_right fun _ => ?_
  cases hf : w.status.firstAvailableAt
  case none => simp [waited, hf, hb]
  case some t => simp [waited, hf]

include hw hk hp in
theorem managedVerdict_waits_iff : (managedVerdict lib b o w).ready.reason = .awaitingFirstKVEvent ↔
    (managedGate b o w).ready.reason = .awaitingFirstKVEvent ∧
      (evaluateEngineKernelHealth w.status o.kernelPods).downgradeReady = false := by
  have hd : (managedProbe lib b o w).downgrade = none := by
    by_contra hd
    exact managedGate_not_ready hw hk hp (ready_of_downgrade hd)
  have hu : downgradeReadyVerdict (managedGate b o w) (managedProbe lib b o w) = managedGate b o w := by
    simp [downgradeReadyVerdict, hd]
  rw [managedVerdict, hu, downgradeKernelReadyVerdict]
  cases (evaluateEngineKernelHealth w.status o.kernelPods).downgradeReady <;> simp

end Gate

theorem patchStatus_true (s s' : Status) :
    (patchStatus b true s s').1 = { s' with failOpen := some b.details.integrationFailOpen } := by
  simp only [patchStatus]
  split
  case isTrue h => exact h.symm
  case isFalse h => rfl

theorem patchStatus_false (s s' : Status) : (patchStatus b false s s').1 = s := by
  simp only [patchStatus]
  split <;> rfl

theorem unseen_step (hw : Unseen w) (he : eventGated e = true) : Unseen (step lib w e) := by
  refine ⟨handsOnQuiet_change change_step hw.toHandsOnQuiet, ?_⟩
  cases e
  case reconcile r =>
    simp only [eventGated, Bool.and_eq_true, Option.isNone_iff_eq_none] at he
    have hd : dispatch r.backend r.facts = .managed ∨ dispatch r.backend r.facts = .failed := by
      simpa using he.1.1
    cases hd
    case inl hd =>
      have hm : (managedStatus lib r.backend r.observed w).firstKVEventObservedAt = none := by
        rw [managedStatus_latch, latchFirstKVEvent, hw.latch, he.2]
        rfl
      rw [managed_status hd]
      cases patchStatus_cases r.backend r.patched w.status (managedStatus lib r.backend r.observed w)
      case inl hs => rw [hs, hw.latch]
      case inr hs =>
        obtain ⟨f, hf⟩ := hs
        rw [hf, hm]
    case inr hd =>
      rw [step, reconcile, hd]
      exact hw.latch
  case refresh b counts patched =>
    obtain ⟨v, _, hr⟩ := refresh_connector (w := w) b counts patched
    rw [step, hr]
    exact hw.latch
  case restart => exact hw.latch

theorem managed_waiting_iff {r : Reconcile} (hw : Unseen w) (he : eventGated (.reconcile r) = true)
    (hd : dispatch r.backend r.facts = .managed) (hp : r.patched = true) :
    Waiting (step lib w (.reconcile r)).status ↔
      (managedBase r.backend r.observed w).status = .true ∧
        w.status.conditions.readyReason ≠ some .noKVEventsObserved ∧
        waited r.observed w < firstEventTimeout r.backend ∧
        (evaluateEngineKernelHealth w.status r.observed.kernelPods).downgradeReady = false := by
  simp only [eventGated, Bool.and_eq_true, Option.isNone_iff_eq_none] at he
  have hs : Waiting (step lib w (.reconcile r)).status ↔
      (managedVerdict lib r.backend r.observed w).ready.reason = .awaitingFirstKVEvent := by
    rw [managed_status hd, hp, patchStatus_true]
    exact Option.some_inj
  rw [hs, managedVerdict_waits_iff hw he.1.2 he.2, managedGate_waits_iff hw he.1.2 he.2]
  simp only [and_assoc]

theorem timeoutStands_iff (hw : Unseen w) (he : eventGated e = true) (hq : ¬Waiting w.status) :
    ¬Waiting (step lib w e).status ↔ TimeoutStands w e := by
  cases e
  case reconcile r =>
    by_cases hd : dispatch r.backend r.facts = .managed
    case neg =>
      have hf : dispatch r.backend r.facts = .failed := by
        simp only [eventGated, Bool.and_eq_true] at he
        simpa [hd] using he.1.1
      simp only [step, reconcile, hf, TimeoutStands]
      exact iff_of_true hq (by simp)
    case pos =>
      cases hp : r.patched
      case false =>
        rw [managed_status hd, hp, patchStatus_false]
        exact iff_of_true hq fun _ h => by cases hp.symm.trans h
      case true =>
        rw [managed_waiting_iff hw he hd hp]
        simp only [TimeoutStands, hd, hp, true_implies, ← not_lt]
        grind
  case refresh b counts patched =>
    obtain ⟨v, _, hr⟩ := refresh_connector (w := w) b counts patched
    rw [step, hr]
    exact iff_of_true hq trivial
  case restart => exact iff_of_true hq trivial

theorem unseen_of_timeout {events : List Event}
    (h : (run lib {} events).status.conditions.readyReason = some .noKVEventsObserved) :
    Unseen (run lib {} events) := by
  have hl : Latched (run lib {} events).status := run_invariant latched_change ⟨⟨nofun, nofun⟩, nofun⟩
  have ⟨c, hc, hcr⟩ := Option.map_eq_some_iff.mp h
  refine ⟨hl.toHandsOnQuiet, ?_⟩
  by_contra hn
  exact (hl.ready (Option.isSome_iff_ne_none.mpr hn) c hc).2 hcr

theorem timeout_is_sticky_iff (lib : Library) (events later : List Event)
    (h : (run lib {} events).status.conditions.readyReason = some .noKVEventsObserved)
    (he : ∀ e ∈ later, eventGated e = true) :
    (∀ l, l <+: later → ¬Waiting (run lib {} (events ++ l)).status) ↔
      Along lib TimeoutStands (run lib {} events) later := by
  have hq : ¬Waiting (run lib {} events).status := by
    rw [Waiting, h]
    exact nofun
  simp only [run_append]
  exact along_iff (q := fun s => ¬Waiting s) (r := Unseen) unseen_step timeoutStands_iff
    (unseen_of_timeout h) he hq

theorem timeout_is_sticky_iff_again :
    (run .plain {} timedOut).status.conditions.readyReason = some .noKVEventsObserved ∧
      ((∀ l, l <+: [reconcileAt (managedBackend 1 none) 400 none] →
          ¬Waiting (run .plain {} (timedOut ++ l)).status) ↔
        Along .plain TimeoutStands (run .plain {} timedOut) [reconcileAt (managedBackend 1 none) 400 none]) :=
  ⟨by decide +kernel, timeout_is_sticky_iff .plain timedOut _ (by decide +kernel) (by decide +kernel)⟩

theorem raised_timeout_waits_again :
    (run .plain {} timedOut).status.conditions.readyReason = some .noKVEventsObserved ∧
      (∀ e ∈ raiseTimeout, eventGated e = true) ∧
      (run .plain {} (timedOut ++ raiseTimeout)).status.conditions.readyReason =
        some .awaitingFirstKVEvent := by
  decide +kernel

end Timeout

end InferenceCache.Controller
