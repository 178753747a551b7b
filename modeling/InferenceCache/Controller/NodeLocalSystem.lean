import InferenceCache.Controller.NodeLocal
import InferenceCache.Lib.Runs

-- The controller of one backend in a cluster where engines come and go.
namespace InferenceCache.Controller.NodeLocal

open Kube Adapters EngineBinding

-- What does not change about a backend, whatever becomes of its spec.
structure Identity where
  key : Webhook.ObjectKey
  uid : GoString

def Owner.Is (o : Owner) (id : Identity) : Prop :=
  o.object.key = id.key ∧ o.uid = id.uid

namespace Identity

variable (id : Identity)

def Owns (label : GoString) (p : PodObject) : Prop :=
  p.controller = some id.uid ∧ p.key.inNamespace = id.key.inNamespace ∧ p.label label = utf8 "true" ∧
    p.label labelCacheBackendUID = id.uid

def Server (p : PodObject) : Prop :=
  id.Owns labelLMCacheNodeLocalServer p

def Cleanup (p : PodObject) : Prop :=
  id.Owns labelLMCacheNodeLocalCleanup p

instance {label : GoString} {p : PodObject} : Decidable (id.Owns label p) :=
  inferInstanceAs (Decidable (_ ∧ _))

instance {p : PodObject} : Decidable (id.Server p) :=
  inferInstanceAs (Decidable (id.Owns _ p))

instance {p : PodObject} : Decidable (id.Cleanup p) :=
  inferInstanceAs (Decidable (id.Owns _ p))

end Identity

section Passes

-- What a reconcile does about the Pods of the backend. `cleanup` is what it begins with if the backend is not
-- in the NodeLocal topology.
inductive Pass
  | reconcile (o : Owner) (binding : Option Binding) (now : PodObject → Time)
  | cleanup (o : Owner)
  | finalize (o : Owner) (e : Elsewhere)

namespace Pass

def owner : Pass → Owner
  | reconcile o _ _ => o
  | cleanup o       => o
  | finalize o _    => o

def program (s : Setup) : Pass → Api Unit
  | reconcile o binding now => reconcileLMCacheNodeLocalServerPods s o binding now
  | cleanup o               => cleanupLMCacheNodeLocalServerPods s o
  | finalize o e            => do
    let _ ← finalizeLMCacheNodeLocal s o e

end Pass

end Passes

section Outside

-- What the scheduler and the node make of a Pod. A Pod is not scheduled and does not start behind a gate, it
-- goes to the node that it has an affinity to, and once it has come to its end it stays as it is.
structure Continues (p p' : PodObject) : Prop where
  same     : p' = { p with nodeName := p'.nodeName, phase := p'.phase, containerStatuses := p'.containerStatuses }
  node     : p'.nodeName = p.nodeName ∨
    p.nodeName = [] ∧ p.schedulingGates = [] ∧ p.affinity = some (.exactNode p'.nodeName)
  gated    : p.schedulingGates ≠ [] → p'.phase = p.phase
  terminal : p.isTerminal = true → p' = p

-- What happens between the passes. The Pods of the backend are not created by others, and they only go once
-- they are marked. About all other Pods nothing is known.
structure Evolves (id : Identity) (pods pods' : List PodObject) : Prop where
  nodup : (pods'.map PodObject.key).Nodup
  from_ : ∀ p' ∈ pods', p'.controller = some id.uid → ∃ p ∈ pods, Continues p p'
  stays : ∀ p ∈ pods, p.controller = some id.uid → p.deleting = false → ∃ p' ∈ pods', Continues p p'

theorem Continues.refl {p : PodObject} : Continues p p :=
  ⟨rfl, .inl rfl, fun _ => rfl, fun _ => rfl⟩

theorem evolves_filter {id : Identity} {pods : List PodObject} (h : (pods.map PodObject.key).Nodup) :
    Evolves id pods (pods.filter fun p => p.controller = some id.uid) where
  nodup := h.sublist (List.filter_sublist.map _)
  from_ p hp _ := ⟨p, List.mem_of_mem_filter hp, .refl⟩
  stays p hp hc _ := ⟨p, List.mem_filter.mpr ⟨hp, decide_eq_true hc⟩, .refl⟩

end Outside

section Runs

inductive Label
  | pass (p : Pass) (fate : Nat → Outcome)
  | outside (pods : List PodObject)

inductive Step (s : Setup) (id : Identity) : Cluster → Label → Cluster → Prop
  | pass {c : Cluster} {p : Pass} {fate : Nat → Outcome} (h : p.owner.Is id) :
    Step s id c (.pass p fate) (p.program s { c with fate := fate }).2
  | outside {c : Cluster} {pods : List PodObject} (h : Evolves id c.pods pods) :
    Step s id c (.outside pods) (c.record .outside pods)

-- Nothing has happened yet, and the backend has no Pods.
structure Fresh (id : Identity) (c : Cluster) : Prop where
  nodup   : (c.pods.map PodObject.key).Nodup
  foreign : ∀ p ∈ c.pods, p.controller ≠ some id.uid
  history : c.history = []

-- The states that a pass or the surroundings may leave, if all of them meet a condition.
def Reached (s : Setup) (id : Identity) (ok : Cluster → Label → Prop) (c : Cluster) : Prop :=
  ∃ c₀ l, Fresh id c₀ ∧ Runs (fun c x c' => Step s id c x c' ∧ ok c x) c₀ l c

theorem Fresh.reached {s : Setup} {id : Identity} {ok : Cluster → Label → Prop} {c : Cluster} (h : Fresh id c) :
    Reached s id ok c :=
  ⟨c, [], h, .nil c⟩

theorem Reached.step {s : Setup} {id : Identity} {ok : Cluster → Label → Prop} {c c' : Cluster} {x : Label}
    (h : Reached s id ok c) (hs : Step s id c x c') (ho : ok c x) : Reached s id ok c' := by
  have ⟨c₀, l, hf, hr⟩ := h
  exact ⟨c₀, l ++ [x], hf, Runs.append_iff.mpr ⟨c, hr, Runs.singleton_iff.mpr ⟨hs, ho⟩⟩⟩

theorem Reached.induction {s : Setup} {id : Identity} {ok : Cluster → Label → Prop} {c : Cluster}
    {p : Cluster → Prop} (h : Reached s id ok c) (h₀ : ∀ c, Fresh id c → p c)
    (hs : ∀ {c x c'}, p c → Step s id c x c' → ok c x → p c') : p c := by
  have ⟨c₀, l, hf, hr⟩ := h
  exact Runs.invariant (fun hp hx => hs hp hx.1 hx.2) (h₀ c₀ hf) hr

end Runs

end InferenceCache.Controller.NodeLocal
