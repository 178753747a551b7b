import InferenceCache.Controller.Reconciler

namespace InferenceCache.Controller

open Adapters (Library)

section Steps

variable {lib : Library} {w : World} {events events' : List Event} {e : Event} {s : Status}

inductive Change (lib : Library) (w : World) : Status → Prop
  | none : Change lib w w.status
  | managed (b : Backend) (o : ManagedObserved) (failOpen : Option Bool) :
    Change lib w { managedStatus lib b o w with failOpen := failOpen }
  | external (b : Backend) (failOpen : Option Bool) :
    Change lib w { externalStatus lib b w with failOpen := failOpen }
  | serverless (b : Backend) (o : Observed) (failOpen : Option Bool) :
    Change lib w { serverlessStatus b o w with failOpen := failOpen }
  | unmanaged (b : Backend) (failOpen : Option Bool) :
    Change lib w { unmanagedStatus b w with failOpen := failOpen }
  | connector (v : Option Condition)
      (h : ∀ c ∈ v, v = w.status.conditions.connectorReady ∨ ∃ counts, c.toVerdict = podLocalVerdict counts ∨
        c.toVerdict = nodeLocalVerdict counts) :
    Change lib w { w.status with conditions.connectorReady := v }

theorem patchStatus_cases (b : Backend) (patched : Bool) (s s' : Status) :
    (patchStatus b patched s s').1 = s ∨ ∃ f, (patchStatus b patched s s').1 = { s' with failOpen := f } := by
  simp only [patchStatus]
  split
  case isTrue => exact .inl rfl
  case isFalse =>
    split
    case isTrue => exact .inr ⟨_, rfl⟩
    case isFalse => exact .inl rfl

theorem change_reconcile (r : Reconcile) : Change lib w (reconcile lib r w).status := by
  have hp {s' : Status} (h : ∀ f, Change lib w { s' with failOpen := f }) :
      Change lib w (patchStatus r.backend r.patched w.status s').1 := by
    cases patchStatus_cases r.backend r.patched w.status s'
    case inl he =>
      rw [he]
      exact .none
    case inr he =>
      have ⟨f, hf⟩ := he
      rw [hf]
      exact h f
  simp only [reconcile]
  split
  case h_1 => exact .none
  case h_2 =>
    split
    case isTrue => exact hp (.unmanaged _)
    case isFalse => exact .none
  case h_3 => exact hp (.external _)
  case h_4 => exact hp (.serverless _ _)
  case h_5 => exact hp (.managed _ _)

-- A refresh leaves everything else alone.
theorem refresh_connector (b : Backend) (counts : Option ConnectorCounts) (patched : Bool) :
    ∃ v : Option Condition,
      (∀ c ∈ v, v = w.status.conditions.connectorReady ∨ ∃ counts, c.toVerdict = podLocalVerdict counts ∨
        c.toVerdict = nodeLocalVerdict counts) ∧
      refreshLMCacheMPConnectorStatus b counts patched w =
        { w with status := { w.status with conditions.connectorReady := v } } := by
  have hn : ∀ c ∈ w.status.conditions.connectorReady,
      w.status.conditions.connectorReady = w.status.conditions.connectorReady ∨
        ∃ counts, c.toVerdict = podLocalVerdict counts ∨ c.toVerdict = nodeLocalVerdict counts :=
    fun _ _ => .inl rfl
  simp only [refreshLMCacheMPConnectorStatus]
  split
  case isTrue => exact ⟨_, hn, rfl⟩
  case isFalse =>
    split
    case isTrue => exact ⟨none, nofun, rfl⟩
    case isFalse =>
      cases counts
      case none => exact ⟨_, hn, rfl⟩
      case some c =>
        refine ⟨_, fun v hv => .inr ⟨c, ?_⟩, rfl⟩
        cases hv
        split
        case isTrue => exact .inr rfl
        case isFalse => exact .inl rfl

theorem change_step : Change lib w (step lib w e).status := by
  cases e
  case reconcile r => exact change_reconcile r
  case refresh b counts patched =>
    have ⟨v, hv, he⟩ := refresh_connector (w := w) b counts patched
    rw [step, he]
    exact .connector v hv
  case restart => exact .none

theorem managed_status {r : Reconcile} (h : dispatch r.backend r.facts = .managed) :
    (step lib w (.reconcile r)).status =
      (patchStatus r.backend r.patched w.status (managedStatus lib r.backend r.observed w)).1 := by
  rw [step, reconcile, h]
  rfl

theorem run_append : run lib w (events ++ events') = run lib (run lib w events) events' :=
  List.foldl_append

-- A condition on every step of a run, each in the world that it starts from.
def Along (lib : Library) (p : World → Event → Prop) : World → List Event → Prop
  | _, []      => True
  | w, e :: es => p w e ∧ Along lib p (step lib w e) es

theorem run_invariant {p : Status → Prop} (h : ∀ {w s}, Change lib w s → p w.status → p s)
    (hw : p w.status) : p (run lib w events).status := by
  induction events generalizing w
  case nil => exact hw
  case cons e es hi => exact hi (h change_step hw)

-- If a condition on the steps says exactly when one step keeps `q`, then it says so for a run.
theorem along_iff {q : Status → Prop} {r : World → Prop} {p : World → Event → Prop} {ok : Event → Prop}
    (hr : ∀ {w e}, r w → ok e → r (step lib w e))
    (h : ∀ {w e}, r w → ok e → q w.status → (q (step lib w e).status ↔ p w e))
    (hw : r w) (he : ∀ e ∈ events, ok e) (hq : q w.status) :
    (∀ l, l <+: events → q (run lib w l).status) ↔ Along lib p w events := by
  induction events generalizing w
  case nil => exact ⟨fun _ => trivial, fun _ l hl => List.prefix_nil.mp hl ▸ hq⟩
  case cons e es hi =>
    have ho := he e (.head _)
    have hes : ∀ e ∈ es, ok e := fun e h => he e (.tail _ h)
    constructor
    case mp =>
      intro ha
      have hs : q (step lib w e).status := ha [e] (by simp)
      refine ⟨(h hw ho hq).mp hs, (hi (hr hw ho) hes hs).mp fun l hl => ?_⟩
      exact ha (e :: l) (List.cons_prefix_cons.mpr ⟨rfl, hl⟩)
    case mpr =>
      intro ⟨hp, ha⟩ l hl
      have hs := (h hw ho hq).mpr hp
      cases l
      case nil => exact hq
      case cons a l =>
        have ⟨hae, hle⟩ := List.cons_prefix_cons.mp hl
        cases hae
        exact (hi (hr hw ho) hes hs).mpr ha l hle

end Steps

section Coherence

variable {lib : Library} {b : Backend} {w : World} {g : KvReadiness}

def statusOf (c : Option Condition) : Option ConditionStatus :=
  c.map (·.status)

structure Coherent (c : Conditions) : Prop where
  ready       : statusOf c.ready = some .true →
                  statusOf c.progressing = some .false ∧ statusOf c.degraded ≠ some .true
  progressing : statusOf c.progressing = some .true →
                  statusOf c.ready ≠ some .true ∧ statusOf c.degraded ≠ some .true

-- What is degraded is neither ready nor on its way.
def Settled (g : KvReadiness) : Prop :=
  g.degraded.status = .true → g.ready.status ≠ .true ∧ (progressingFromReady g.ready).status ≠ .true

theorem progressing_of_ready {v : Verdict} (h : v.status = .true) :
    (progressingFromReady v).status = .false := by
  simp [progressingFromReady, h]

theorem not_ready_of_progressing {v : Verdict} (h : (progressingFromReady v).status = .true) :
    v.status ≠ .true := by
  intro hr
  rw [progressing_of_ready hr] at h
  cases h

theorem settled_of_notDegraded (h : g.degraded = notDegraded) : Settled g := by
  rw [Settled, h]
  exact nofun

theorem settled_baseReadiness (v : Verdict) : Settled (baseReadiness v) := by
  by_cases h : v.status = .false ∧ v.reason = .replicasUnavailable
  case pos => exact fun _ => by simp [baseReadiness, progressingFromReady, h.1, h.2]
  case neg => exact settled_of_notDegraded (by simp [baseReadiness, h])

theorem settled_evaluateKVEventReadiness {s : Status} {p : Option IndexParticipation} {ready : Verdict}
    {anchor now : Time} {freshWindow : Bool} :
    Settled (evaluateKVEventReadiness b s p ready anchor now freshWindow) := by
  simp only [evaluateKVEventReadiness]
  split
  case isTrue => exact settled_baseReadiness _
  case isFalse =>
    split
    case isTrue => exact settled_of_notDegraded rfl
    case isFalse =>
      split
      case isTrue => exact fun _ => ⟨nofun, nofun⟩
      case isFalse =>
        generalize (if anchor = 0 then now else anchor) = start
        split
        case isTrue => exact settled_of_notDegraded rfl
        case isFalse => exact fun _ => ⟨nofun, nofun⟩

-- The probe only speaks where nothing is wrong so far.
theorem ready_of_downgrade {s : Status} {probe : Option ProbeClient} {limiter : ProbeLimiter}
    {rateLimit : Duration} {now : Time}
    (h : (evaluateFunctionalProbe lib b s g probe limiter rateLimit now).downgrade ≠ none) :
    g.ready.status = .true := by
  by_contra hr
  cases probe <;> simp [evaluateFunctionalProbe, hr] at h

theorem settled_downgradeReadyVerdict {v : ProbeVerdict} (hg : Settled g)
    (h : v.downgrade ≠ none → g.ready.status = .true) : Settled (downgradeReadyVerdict g v) := by
  simp only [downgradeReadyVerdict]
  split
  case h_1 => exact hg
  case h_2 hd =>
    intro ht
    exact absurd (h (by simp [hd])) (hg ht).1

theorem settled_downgradeKernelReadyVerdict {v : KernelHealthVerdict} (hg : Settled g) :
    Settled (downgradeKernelReadyVerdict g v) := by
  simp only [downgradeKernelReadyVerdict]
  split
  case isTrue => exact fun _ => ⟨nofun, nofun⟩
  case isFalse => exact hg

theorem settled_managedVerdict (lib : Library) (b : Backend) (o : ManagedObserved) (w : World) :
    Settled (managedVerdict lib b o w) :=
  settled_downgradeKernelReadyVerdict <|
    settled_downgradeReadyVerdict settled_evaluateKVEventReadiness ready_of_downgrade

theorem settled_serverlessVerdict (b : Backend) (o : Observed) (w : World) :
    Settled (serverlessVerdict b o w) :=
  settled_downgradeKernelReadyVerdict settled_evaluateKVEventReadiness

theorem coherent_of_settled {c : Conditions} {generation : Int} (hg : Settled g)
    (hr : c.ready = some (g.ready.at generation)) (hd : c.degraded = some (g.degraded.at generation))
    (hp : c.progressing = some ((progressingFromReady g.ready).at generation)) : Coherent c where
  ready h := by
    have hr' : g.ready.status = .true := by simpa [statusOf, hr] using h
    refine ⟨by simpa [statusOf, hp] using progressing_of_ready hr', fun ht => ?_⟩
    exact (hg (by simpa [statusOf, hd] using ht)).1 hr'
  progressing h := by
    have hp' : (progressingFromReady g.ready).status = .true := by simpa [statusOf, hp] using h
    refine ⟨fun ht => ?_, fun ht => ?_⟩
    case refine_1 => exact not_ready_of_progressing hp' (by simpa [statusOf, hr] using ht)
    case refine_2 => exact (hg (by simpa [statusOf, hd] using ht)).2 hp'

theorem coherent_managedStatus (lib : Library) (b : Backend) (o : ManagedObserved) (w : World) :
    Coherent (managedStatus lib b o w).conditions :=
  coherent_of_settled (settled_managedVerdict lib b o w) rfl rfl rfl

theorem coherent_serverlessStatus (b : Backend) (o : Observed) (w : World) :
    Coherent (serverlessStatus b o w).conditions :=
  coherent_of_settled (settled_serverlessVerdict b o w) rfl rfl rfl

theorem coherent_externalStatus (lib : Library) (b : Backend) (w : World) :
    Coherent (externalStatus lib b w).conditions where
  ready h := by
    have hr : (externalReady lib b w).status = .true := by simpa [statusOf, externalStatus] using h
    refine ⟨?_, nofun⟩
    simpa [statusOf, externalStatus] using progressing_of_ready hr
  progressing h := by
    have hp : (progressingFromReady (externalReady lib b w)).status = .true := by
      simpa [statusOf, externalStatus] using h
    refine ⟨?_, nofun⟩
    simpa [statusOf, externalStatus] using not_ready_of_progressing hp

theorem coherent_empty : Coherent {} where
  ready := nofun
  progressing := nofun

theorem written_status_is_coherent (lib : Library) :
    (∀ b o w, Coherent (managedStatus lib b o w).conditions) ∧
      (∀ b w, Coherent (externalStatus lib b w).conditions) ∧
      (∀ b o w, Coherent (serverlessStatus b o w).conditions) ∧
      (∀ b w, Coherent (unmanagedStatus b w).conditions) ∧
      ∀ events, Coherent (run lib {} events).status.conditions := by
  refine ⟨coherent_managedStatus lib, coherent_externalStatus lib, coherent_serverlessStatus,
    fun _ _ => coherent_empty, fun events => ?_⟩
  refine run_invariant (p := fun s => Coherent s.conditions) (fun hc hw => ?_) coherent_empty
  cases hc
  case none           => exact hw
  case managed b o f  => exact coherent_managedStatus lib b o _
  case external b f   => exact coherent_externalStatus lib b _
  case serverless b o f => exact coherent_serverlessStatus b o _
  case unmanaged      => exact coherent_empty
  case connector v h  => exact ⟨hw.ready, hw.progressing⟩

end Coherence

end InferenceCache.Controller
