import InferenceCache.Controller.Theorems.EventGate

-- A probe that has failed is not forgotten.
namespace InferenceCache.Controller

open Adapters (Library)

variable {lib : Library} {b : Backend} {o : ManagedObserved} {w : World} {s : Status} {e : Event} {g : KvReadiness}

def ProbeFailed (s : Status) : Prop :=
  statusOf s.conditions.functionalProbeOK = some .false

section Ready

variable {probe : Option ProbeClient} {limiter : ProbeLimiter} {rateLimit : Duration} {now : Time}

def probeAfter (s : Status) (v : ProbeVerdict) (generation : Int) : Option Condition :=
  settle v.condition v.removeCondition generation s.conditions.functionalProbeOK

theorem inherited_of_probeFailed (h : ProbeFailed s) : inherited s ≠ none := by
  have ⟨c, hc, hs⟩ := Option.map_eq_some_iff.mp h
  simp [inherited, hc, hs]

theorem downgrade_of_probeCallVerdict {answer : Except GoString ProbeResult} {generation : Int}
    (h : statusOf (probeAfter s (probeCallVerdict lib s rateLimit answer) generation) = some .false) :
    (probeCallVerdict lib s rateLimit answer).downgrade ≠ none := by
  cases answer
  case error err =>
    simp only [probeCallVerdict] at *
    split
    case h_1 => simp
    case h_2 hi => simp [hi, probeAfter, settle, statusOf] at h
  case ok result =>
    simp only [probeCallVerdict] at *
    split
    case isTrue hp => simp [hp, probeAfter, settle, statusOf] at h
    case isFalse hp => simp

-- The backend is not ready, or it is downgraded.
theorem not_ready_of_probe_failed (generation : Int)
    (h : statusOf (probeAfter s (evaluateFunctionalProbe lib b s g probe limiter rateLimit now) generation) =
      some .false) :
    (downgradeReadyVerdict g (evaluateFunctionalProbe lib b s g probe limiter rateLimit now)).ready.status ≠
      .true := by
  have hd {v : ProbeVerdict} (h : v.downgrade ≠ none) : (downgradeReadyVerdict g v).ready.status ≠ .true := by
    have ⟨d, hd⟩ := Option.ne_none_iff_exists'.mp h
    simp [downgradeReadyVerdict, hd]
  cases probe
  case none =>
    cases hf : s.conditions.functionalProbeOK <;>
      simp [evaluateFunctionalProbe, probeAfter, settle, statusOf, hf] at h
  case some client =>
    by_cases hr : g.ready.status = .true
    case neg => simp [evaluateFunctionalProbe, hr, downgradeReadyVerdict]
    case pos =>
      simp only [evaluateFunctionalProbe, hr, ne_eq, not_true, if_false] at *
      split
      case isTrue hb => simp [hb, probeAfter, settle, statusOf] at h
      case isFalse hb =>
        simp only [hb] at h
        split
        case isTrue ha =>
          simp only [ha] at h
          exact hd (inherited_of_probeFailed h)
        case isFalse ha =>
          simp only [ha, if_false] at h
          exact hd (downgrade_of_probeCallVerdict h)

end Ready

section Exclusive

def Exclusive (s : Status) : Prop :=
  ¬(statusOf s.conditions.ready = some .true ∧ ProbeFailed s)

theorem exclusive_managedStatus (lib : Library) (b : Backend) (o : ManagedObserved) (w : World) :
    Exclusive (managedStatus lib b o w) := by
  intro ⟨hr, hp⟩
  have hv : (managedVerdict lib b o w).ready.status = .true := by simpa [statusOf, managedStatus] using hr
  have hf : (downgradeReadyVerdict (managedGate b o w) (managedProbe lib b o w)).ready.status ≠ .true := by
    refine not_ready_of_probe_failed (if o.applyOK then b.generation else w.status.observedGeneration) ?_
    simpa [ProbeFailed, managedStatus, probeAfter, managedProbe] using hp
  simp only [managedVerdict, downgradeKernelReadyVerdict] at hv
  split at hv
  case isTrue => cases hv
  case isFalse => exact hf hv

theorem exclusive_change (hc : Change lib w s) (hw : Exclusive w.status) : Exclusive s := by
  cases hc
  case none => exact hw
  case managed b o f => exact exclusive_managedStatus lib b o w
  case external b f => exact fun h => nomatch h.2
  case serverless b o f => exact fun h => nomatch h.2
  case unmanaged => exact fun h => nomatch h.2
  case connector v h => exact hw

end Exclusive

section Sticky

def callsProbe (b : Backend) (o : ManagedObserved) (w : World) : Prop :=
  (managedGate b o w).ready.status = .true ∧ w.limiter.allow o.now o.rateLimit = true

-- The steps that may end a failure.
def Releases (w : World) : Event → Prop
  | .reconcile r =>
    match dispatch r.backend r.facts with
    | .failed  => False
    | .managed =>
      r.observed.probe = none ∨ isProbeBypassed r.backend = true ∨
        callsProbe r.backend r.observed w ∧ ∃ client ∈ r.observed.probe, ∃ result,
          client (probeRequest r.backend) = .ok result ∧ result.allPassed = true
    | _        => True
  | .refresh ..  => False
  | .restart     => False

theorem probeFailed_managedStatus (hp : o.probe ≠ none) (hb : isProbeBypassed b ≠ true)
    (hc : ∀ client ∈ o.probe, callsProbe b o w →
      ∀ result, client (probeRequest b) = .ok result → result.allPassed ≠ true)
    (hw : ProbeFailed w.status) : ProbeFailed (managedStatus lib b o w) := by
  have ⟨client, hcl⟩ := Option.ne_none_iff_exists'.mp hp
  have ⟨d, hd⟩ := Option.ne_none_iff_exists'.mp (inherited_of_probeFailed hw)
  suffices hv : ∀ generation, statusOf (probeAfter w.status (managedProbe lib b o w) generation) = some .false by
    simpa [ProbeFailed, managedStatus, probeAfter] using hv _
  intro generation
  simp only [managedProbe, evaluateFunctionalProbe, hcl]
  split
  case isTrue => exact hw
  case isFalse hr =>
    split
    case isTrue => exact hw
    case isFalse ha =>
      have hcalls : callsProbe b o w := ⟨not_not.mp hr, not_not.mp ha⟩
      cases hx : client (probeRequest b)
      case error err =>
        simp only [probeCallVerdict, hd]
        exact hw
      case ok result =>
        have hn := hc client hcl hcalls result hx
        simp [probeCallVerdict, hn, probeAfter, settle, statusOf]

theorem probeFailed_step (he : ¬Releases w e) (hw : ProbeFailed w.status) :
    ProbeFailed (step lib w e).status := by
  cases e
  case reconcile r =>
    simp only [Releases] at he
    cases hd : dispatch r.backend r.facts <;> simp only [hd] at he
    case failed =>
      rw [step, reconcile, hd]
      exact hw
    case managed =>
      have hm : ProbeFailed (managedStatus lib r.backend r.observed w) := by
        refine probeFailed_managedStatus (fun h => he (.inl h)) (fun h => he (.inr (.inl h)))
          (fun client hc hcalls result hx ha => ?_) hw
        exact he (.inr (.inr ⟨hcalls, client, hc, result, hx, ha⟩))
      rw [managed_status hd]
      cases patchStatus_cases r.backend r.patched w.status (managedStatus lib r.backend r.observed w)
      case inl hs =>
        rw [hs]
        exact hw
      case inr hs =>
        obtain ⟨f, hf⟩ := hs
        rw [hf]
        exact hm
    all_goals exact absurd trivial he
  case refresh b counts patched =>
    obtain ⟨v, _, hr⟩ := refresh_connector (w := w) b counts patched
    rw [step, hr]
    exact hw
  case restart => exact hw

theorem probeFailed_run {events : List Event} (he : Along lib (fun w e => ¬Releases w e) w events)
    (hw : ProbeFailed w.status) : ProbeFailed (run lib w events).status := by
  induction events generalizing w
  case nil => exact hw
  case cons e es hi => exact hi he.2 (probeFailed_step he.1 hw)

end Sticky

section Slot

theorem commitMark_of_error {s : Status} {limiter : ProbeLimiter} {rateLimit : Duration} {now : Time}
    {client : ProbeClient} {err : GoString} (h : client (probeRequest b) = .error err) :
    (evaluateFunctionalProbe lib b s g (some client) limiter rateLimit now).commitMark = false := by
  simp only [evaluateFunctionalProbe, h, probeCallVerdict]
  split_ifs <;> try rfl
  split <;> rfl

-- A call of the probe that failed, or whose result could not be stored.
def Unrecorded (lib : Library) (r : Reconcile) (w : World) : Prop :=
  (∃ client ∈ r.observed.probe, ∃ err, client (probeRequest r.backend) = .error err) ∨
    (patchStatus r.backend r.patched w.status (managedStatus lib r.backend r.observed w)).2 = false

theorem limiter_of_unrecorded {r : Reconcile} (hd : dispatch r.backend r.facts = .managed)
    (h : Unrecorded lib r w) : (step lib w (.reconcile r)).limiter = w.limiter := by
  simp only [step, reconcile, hd, updateManagedStatus]
  cases h
  case inl h =>
    obtain ⟨client, hc, err, he⟩ := h
    have hm : (managedProbe lib r.backend r.observed w).commitMark = false := by
      rw [managedProbe, Option.mem_def.mp hc]
      exact commitMark_of_error he
    simp [hm]
  case inr h => simp [h]

end Slot

theorem failed_probe_is_sticky (lib : Library) :
    (∀ events, ¬(statusOf (run lib {} events).status.conditions.ready = some .true ∧
        ProbeFailed (run lib {} events).status)) ∧
      (∀ events later, ProbeFailed (run lib {} events).status →
        Along lib (fun w e => ¬Releases w e) (run lib {} events) later →
          ProbeFailed (run lib {} (events ++ later)).status) ∧
      ∀ w r, dispatch r.backend r.facts = .managed → Unrecorded lib r w →
        (step lib w (.reconcile r)).limiter = w.limiter := by
  refine ⟨fun events => ?_, fun events later hf he => ?_, fun w r hd h => limiter_of_unrecorded hd h⟩
  case refine_1 => exact run_invariant exclusive_change (p := Exclusive) (fun h => nomatch h.2)
  case refine_2 =>
    rw [run_append]
    exact probeFailed_run he hf

-- A failed probe, and then one that ends in an error.
def failedProbe : List Event :=
  [reconcileAt (managedBackend 1 none) 1 (some 1), oneEngine (managedBackend 1 none),
    reconcileAt (managedBackend 1 none) 2 (some 1) (some fun _ => .ok ⟨.ok, .failed, .skipped, []⟩)]

def brokenProbe : Event :=
  reconcileAt (managedBackend 1 none) 3 (some 1) (some fun _ => .error (utf8 "timeout"))

theorem failed_probe_is_sticky_broken :
    let w := run .plain {} (failedProbe ++ [brokenProbe])
    ProbeFailed w.status ∧ statusOf w.status.conditions.ready ≠ some .true ∧ w.limiter = some (2 * 10 ^ 9) := by
  have ⟨hn, hs, hl⟩ := failed_probe_is_sticky .plain
  have hw : statusOf (run .plain {} failedProbe).status.conditions.functionalProbeOK = some .false ∧
      (run .plain {} failedProbe).limiter = some (2 * 10 ^ 9) := by
    decide +kernel
  have hf : ProbeFailed (run .plain {} (failedProbe ++ [brokenProbe])).status := by
    refine hs failedProbe [brokenProbe] hw.1 ⟨?_, trivial⟩
    rintro (h | h | ⟨_, client, hc, result, ho, _⟩)
    case inl => cases h
    case inr.inl => exact absurd h (by decide +kernel)
    case inr.inr =>
      cases hc
      cases ho
  have hb : (step .plain (run .plain {} failedProbe) brokenProbe).limiter = (run .plain {} failedProbe).limiter := by
    refine hl _ _ ?managed ?unrecorded
    case managed    => rfl
    case unrecorded => exact .inl ⟨_, rfl, _, rfl⟩
  refine ⟨hf, fun hr => hn _ ⟨hr, hf⟩, ?_⟩
  rw [run_append]
  exact hb.trans hw.2

end InferenceCache.Controller
