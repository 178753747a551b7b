import InferenceCache.EndToEnd.Theorems
import InferenceCache.Index.Theorems.Interleaving
import InferenceCache.Index.Theorems.Idempotence
import InferenceCache.Server.Theorems.Credit
import InferenceCache.Server.Theorems.Evidence
import InferenceCache.Server.Theorems.DualInput
import InferenceCache.EndToEnd.InStep
import InferenceCache.Webhook.Theorems.Ownership
import InferenceCache.Server.Theorems.Auth
import InferenceCache.Server.Theorems.Probe
import InferenceCache.Server.Theorems.Overflow
import InferenceCache.Controller.Theorems.ProbeGate
import InferenceCache.Index.Theorems.Sweep
import InferenceCache.Index.Theorems.Removal
import InferenceCache.Server.Theorems.Affinity
import InferenceCache.Index.Theorems.Distinguishing
import InferenceCache.Index.Theorems.ExactChain
import InferenceCache.Server.Theorems.Tiers
import InferenceCache.Index.Theorems.Snapshot
import InferenceCache.Index.Theorems.Gauges
import InferenceCache.Controller.Theorems.TenantOwners
import InferenceCache.Controller.Theorems.Activity
import InferenceCache.Subscriber.Theorems.Events
import InferenceCache.Webhook.Theorems.Renderable
import InferenceCache.Webhook.Theorems.Grandfathering
import InferenceCache.Adapters.Theorems.HiCache
import InferenceCache.Controller.Theorems.Workload
import InferenceCache.Index.Theorems.Calibration
import InferenceCache.Controller.Theorems.Interrupted
import InferenceCache.Index.Theorems.Fallback
import InferenceCache.Webhook.Theorems.Handle
import InferenceCache.Controller.Theorems.OwnPods
import InferenceCache.Kube.Expansion
import InferenceCache.Webhook.OverrideValidation
import InferenceCache.Webhook.Theorems.OverrideValidation
