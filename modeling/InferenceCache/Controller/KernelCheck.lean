import InferenceCache.Controller.FunctionalProbe

namespace InferenceCache.Controller

open Kube (Container)

section Pods

structure ContainerTerminated where
  exitCode : Int
  reason   : GoString
  message  : GoString

structure ContainerStatus where
  name           : GoString
  terminated     : Option ContainerTerminated
  lastTerminated : Option ContainerTerminated

structure EnginePod where
  initContainers        : List Container
  initContainerStatuses : List ContainerStatus

def lmCacheKernelCheckContainerName : GoString :=
  utf8 "lmcache-kernel-check"

def kernelCheckInSpec (pod : EnginePod) : Bool :=
  pod.initContainers.any (·.name = lmCacheKernelCheckContainerName)

def kernelCheckAdmittedStrict (pod : EnginePod) : Bool :=
  pod.initContainers.any fun c =>
    c.name = lmCacheKernelCheckContainerName ∧
      c.env.any fun e => e.name = utf8 "KERNEL_CHECK_STRICT" ∧ e.value = utf8 "1"

def findKernelCheckStatus (pod : EnginePod) : Option ContainerStatus :=
  pod.initContainerStatuses.find? (·.name = lmCacheKernelCheckContainerName)

end Pods

section Aggregate

inductive KernelCheckResult
  | pending
  | fail (message : GoString)
  | ok
  | error (detail : GoString)

-- In a crash loop there is only the previous termination.
def kernelCheckResult (pod : EnginePod) : KernelCheckResult :=
  match (findKernelCheckStatus pod).bind fun st => st.terminated <|> st.lastTerminated with
  | none      => .pending
  | some term =>
    let msg := term.message.trimSpace
    if msg.hasPrefix (utf8 "FAIL:") then .fail msg
    else if msg = utf8 "OK" ∧ term.exitCode = 0 then .ok
    else
      .error <| utf8 "exit " ++ GoString.formatInt term.exitCode ++
        (if term.reason ≠ [] then utf8 " " ++ term.reason else []) ++
        (if msg ≠ [] then utf8 ": " ++ msg else [])

structure KernelTally where
  seen       : Bool := false
  failMsg    : GoString := []
  errDetail  : GoString := []
  nFail      : Nat := 0
  nErr       : Nat := 0
  nPending   : Nat := 0
  nOK        : Nat := 0
  strictFail : Bool := false

def KernelTally.add (t : KernelTally) (pod : EnginePod) : KernelTally :=
  if ¬kernelCheckInSpec pod then t
  else
    let t := { t with seen := true }
    match kernelCheckResult pod with
    | .pending      => { t with nPending := t.nPending + 1 }
    | .fail msg     =>
      { t with
        nFail      := t.nFail + 1
        failMsg    := if t.failMsg = [] then msg else t.failMsg
        strictFail := t.strictFail || kernelCheckAdmittedStrict pod }
    | .ok           => { t with nOK := t.nOK + 1 }
    | .error detail =>
      { t with
        nErr      := t.nErr + 1
        errDetail := if t.errDetail = [] then detail else t.errDetail }

def onPods (before : String) (n : Nat) (after : GoString) : GoString :=
  truncateMessage (utf8 before ++ GoString.formatInt n ++ utf8 " engine pod(s)" ++ after)

def KernelTally.verdict (t : KernelTally) : Verdict :=
  if t.nFail > 0 then
    ⟨.false, .kernelLoadFailed,
      onPods "native vLLM/LMCache CUDA extensions failed to load on " t.nFail (utf8 ": " ++ t.failMsg)⟩
  else if t.nErr > 0 then
    ⟨.unknown, .kernelCheckError, onPods "kernel-check init container on " t.nErr
      (utf8 " terminated without a recognized result message (" ++ t.errDetail ++ utf8 ")")⟩
  else if t.nPending > 0 then
    ⟨.unknown, .kernelCheckPending, onPods "kernel-check init container has not completed on " t.nPending []⟩
  else
    ⟨.true, .kernelsHealthy, onPods "native vLLM/LMCache CUDA extensions loaded on " t.nOK []⟩

def aggregateKernelHealth (pods : List EnginePod) : KernelTally :=
  pods.foldl .add {}

end Aggregate

section Gate

structure KernelHealthVerdict where
  condition       : Option Verdict := none
  removeCondition : Bool := false
  downgradeReady  : Bool := false

def kernelReadyMessage : GoString :=
  utf8 "vLLM/LMCache CUDA extensions failed to load on one or more engine pods; in strict mode " ++
  utf8 "those pods stay in Init holding their GPU reservation without serving — fix the engine image's " ++
  utf8 "vLLM/LMCache/CUDA alignment or set inferencecache.io/lmcache-kernel-check=report-only"

-- Pods that could not be listed are not the same as no pods.
def evaluateEngineKernelHealth (s : Status) (pods : Option (List EnginePod)) : KernelHealthVerdict :=
  match pods with
  | none      => {}
  | some pods =>
    let t := aggregateKernelHealth pods
    if ¬t.seen then { removeCondition := s.conditions.engineKernelsHealthy.isSome }
    else
      { condition      := some t.verdict
        downgradeReady := t.verdict.status = .false && t.strictFail }

def downgradeKernelReadyVerdict (upstream : KvReadiness) (v : KernelHealthVerdict) : KvReadiness :=
  if v.downgradeReady then
    { upstream with ready := ⟨.false, .engineKernelDegraded, kernelReadyMessage⟩ }
  else upstream

end Gate

end InferenceCache.Controller
