import InferenceCache.Kube.Core
import InferenceCache.Lib.Program
import InferenceCache.Webhook.Types

-- The Pods of a cluster, and the requests that a controller makes about them.
namespace InferenceCache.Kube

open Webhook (ObjectKey)

section Objects

inductive PodPhase
  | pending
  | running
  | succeeded
  | failed
  | unknown
  deriving DecidableEq

-- `terminated` is the exit code of a container that has come to its end.
structure ContainerStatus where
  name       : GoString
  terminated : Option Int

-- The affinity to one node by its name is the only one that is told apart.
inductive Affinity
  | exactNode (name : GoString)
  | other (affinity : Json)

-- `controller` is the UID of the owner that is the controller, and `deleting` stands for a deletion
-- timestamp.
structure PodObject where
  key                 : ObjectKey
  labels              : GoMap GoString GoString
  annotations         : GoMap GoString GoString
  controller          : Option GoString
  deleting            : Bool
  nodeName            : GoString
  affinity            : Option Affinity
  restartPolicy       : GoString
  schedulingGates     : List GoString
  spec                : PodSpec
  ephemeralContainers : List GoString
  phase               : PodPhase
  containerStatuses   : List ContainerStatus

namespace PodObject

variable (p : PodObject)

def label (name : GoString) : GoString :=
  (p.labels.lookup name).getD []

def annotation (name : GoString) : GoString :=
  (p.annotations.lookup name).getD []

def isControlledBy (uid : GoString) : Bool :=
  p.controller = some uid

def isTerminal : Bool :=
  p.phase = .succeeded ∨ p.phase = .failed

-- `hostPath.Path` of one of the volumes.
def usesHostPath (path : GoString) : Bool :=
  p.spec.volumes.any fun v => v.source.hostPath.any (·.path = path)

def marked : PodObject :=
  { p with deleting := true }

end PodObject

end Objects

section Cluster

inductive Event
  | create (pod : PodObject)
  | delete (pod : PodObject)
  | patch (before after : PodObject)
  | outside

-- What has happened, and the Pods right after it.
structure Moment where
  event : Event
  pods  : List PodObject

-- What becomes of a request. One that is answered by an error may have been carried out all the same, and
-- a Pod that is deleted may stay for some time with the mark that it is to go.
structure Outcome where
  err       : Option GoString := none
  effective : Bool := false
  stays     : Bool := false

-- The Pods in the order in which they are listed, all moments so far from the latest on, and what will
-- become of the requests to come.
structure Cluster where
  pods    : List PodObject
  history : List Moment
  fate    : Nat → Outcome

def Cluster.record (c : Cluster) (event : Event) (pods : List PodObject) : Cluster :=
  { c with pods := pods, history := ⟨event, pods⟩ :: c.history }

-- After one more request.
def Cluster.next (c : Cluster) : Cluster :=
  { c with fate := fun k => c.fate (k + 1) }

def Cluster.find (c : Cluster) (key : ObjectKey) : Option PodObject :=
  c.pods.find? (·.key = key)

inductive ApiError
  | notFound (name : GoString)
  | alreadyExists (name : GoString)
  | other (text : GoString)

def ApiError.text : ApiError → GoString
  | notFound name      => utf8 "pods \"" ++ name ++ utf8 "\" not found"
  | alreadyExists name => utf8 "pods \"" ++ name ++ utf8 "\" already exists"
  | other text         => text

abbrev Api (A : Type) := Program GoString Cluster A

namespace Api

variable {A : Type}

def request (act : Outcome → Cluster → Except ApiError A × Cluster) : Api (Except ApiError A) :=
  fun c =>
    let (r, c') := act (c.fate 0) c.next
    match (c.fate 0).err with
    | none      => (.ok r, c')
    | some text => (.ok (.error (.other text)), if (c.fate 0).effective then c' else c.next)

def list (p : PodObject → Bool) : Api (Except ApiError (List PodObject)) :=
  request fun _ c => (.ok (c.pods.filter p), c)

def get (key : ObjectKey) : Api (Except ApiError PodObject) :=
  request fun _ c =>
    match c.find key with
    | some p => (.ok p, c)
    | none   => (.error (.notFound key.name), c)

def create (pod : PodObject) : Api (Except ApiError Unit) :=
  request fun _ c =>
    match c.find pod.key with
    | some _ => (.error (.alreadyExists pod.key.name), c)
    | none   => (.ok (), c.record (.create pod) (c.pods ++ [pod]))

def delete (key : ObjectKey) : Api (Except ApiError Unit) :=
  request fun o c =>
    match c.find key with
    | some p =>
      (.ok (), c.record (.delete p)
        (if o.stays then c.pods.map fun p => if p.key = key then p.marked else p
          else c.pods.filter (·.key ≠ key)))
    | none => (.error (.notFound key.name), c)

-- With `client.MergeFrom`, what changes is put onto the object that is there.
def patch (key : ObjectKey) (change : PodObject → PodObject) : Api (Except ApiError Unit) :=
  request fun _ c =>
    match c.find key with
    | some p =>
      (.ok (), c.record (.patch p (change p)) (c.pods.map fun p => if p.key = key then change p else p))
    | none => (.error (.notFound key.name), c)

-- `if err != nil { return err }`
def orReturn (r : Except ApiError A) : Api A :=
  match r with
  | .ok a      => pure a
  | .error err => .fail err.text

-- `if err != nil { return fmt.Errorf("what: %w", err) }`
def orFail (what : GoString) (r : Except ApiError A) : Api A :=
  match r with
  | .ok a      => pure a
  | .error err => .fail (what ++ utf8 ": " ++ err.text)

-- `if err != nil && !apierrors.IsNotFound(err) { return fmt.Errorf("what: %w", err) }`
def unlessNotFound (what : GoString) (r : Except ApiError Unit) : Api Unit :=
  match r with
  | .error (.notFound _) => pure ()
  | r                    => orFail what r

end Api

end Cluster

section Rules

-- What remains of the Pods once one of them has been deleted.
def Deleted (key : ObjectKey) (pods pods' : List PodObject) : Prop :=
  pods' = pods.filter (·.key ≠ key) ∨ pods' = pods.map fun p => if p.key = key then p.marked else p

def changed (key : ObjectKey) (change : PodObject → PodObject) (pods : List PodObject) : List PodObject :=
  pods.map fun p => if p.key = key then change p else p

namespace Cluster

variable {c c' : Cluster} {key : ObjectKey} {p : PodObject}

theorem find_eq_some (h : c.find key = some p) : p ∈ c.pods ∧ p.key = key := by
  have hk := List.find?_some h
  exact ⟨List.mem_of_find?_eq_some h, of_decide_eq_true hk⟩

theorem find_eq_none (h : c.find key = none) : ∀ p ∈ c.pods, p.key ≠ key := by
  intro p hp hk
  have hn := List.find?_eq_none.mp h p hp
  exact hn (decide_eq_true hk)

-- No request will be answered by an error that is not about the objects.
def Reliable (c : Cluster) : Prop :=
  ∀ k, (c.fate k).err = none

theorem Reliable.next (h : c.Reliable) : c.next.Reliable :=
  fun k => h (k + 1)

theorem not_reliable (h : (c.fate 0).err ≠ none) : ¬c.Reliable :=
  fun hr => h (hr 0)

-- The effect of a request that writes nothing.
structure Idle (c c' : Cluster) : Prop where
  pods     : c'.pods = c.pods
  history  : c'.history = c.history
  reliable : c.Reliable → c'.Reliable

-- The effect of a request that writes once.
structure Wrote (c : Cluster) (event : Event) (after : List PodObject) (c' : Cluster) : Prop where
  pods     : c'.pods = after
  history  : c'.history = ⟨event, after⟩ :: c.history
  reliable : c.Reliable → c'.Reliable

theorem idle_next : Idle c c.next :=
  ⟨rfl, rfl, Reliable.next⟩

theorem wrote_record {event : Event} {pods : List PodObject} : Wrote c event pods (c.next.record event pods) :=
  ⟨rfl, rfl, Reliable.next⟩

theorem Idle.refl : Idle c c :=
  ⟨rfl, rfl, id⟩

theorem Idle.find (h : Idle c c') : c'.find key = c.find key := by
  rw [Cluster.find, Cluster.find, h.pods]

theorem Idle.trans {c'' : Cluster} (h : Idle c c') (h' : Idle c' c'') : Idle c c'' :=
  ⟨h'.pods.trans h.pods, h'.history.trans h.history, fun hr => h'.reliable (h.reliable hr)⟩

theorem Idle.wrote {c'' : Cluster} {event : Event} {pods : List PodObject} (h : Idle c c')
    (h' : Wrote c' event pods c'') : Wrote c event pods c'' :=
  ⟨h'.pods, h.history ▸ h'.history, fun hr => h'.reliable (h.reliable hr)⟩

theorem Wrote.idle {c'' : Cluster} {event : Event} {pods : List PodObject} (h : Wrote c event pods c')
    (h' : Idle c' c'') : Wrote c event pods c'' :=
  ⟨h'.pods.trans h.pods, h'.history.trans h.history, fun hr => h'.reliable (h.reliable hr)⟩

end Cluster

namespace Api

open Program Cluster

variable {A : Type} {c : Cluster} {e : Cluster → Prop} {key : ObjectKey} {what : GoString}

theorem wp_request {act : Outcome → Cluster → Except ApiError A × Cluster}
    {q : Except ApiError A → Cluster → Prop}
    (h : q (act (c.fate 0) c.next).1 (act (c.fate 0) c.next).2)
    (he : ∀ text, ¬c.Reliable →
      q (.error (.other text)) c.next ∧ q (.error (.other text)) (act (c.fate 0) c.next).2) :
    wp (request act) q e c := by
  cases ho : (c.fate 0).err
  case none =>
    simp only [wp, request, ho]
    exact h
  case some text =>
    have hn : ¬c.Reliable := by
      apply not_reliable
      rw [ho]
      exact Option.some_ne_none _
    simp only [wp, request, ho]
    split
    case isTrue => exact (he text hn).2
    case isFalse => exact (he text hn).1

section Read

theorem wp_list {p : PodObject → Bool} {q : List PodObject → Cluster → Prop}
    (h : ∀ c', Idle c c' → q (c.pods.filter p) c') (he : ∀ c', ¬c.Reliable → Idle c c' → e c') :
    wp (list p >>= orFail what) q e c := by
  rw [wp_bind]
  apply wp_request
  case h => exact h _ idle_next
  case he => exact fun _ hr => ⟨he _ hr idle_next, he _ hr idle_next⟩

theorem wp_list_orReturn {p : PodObject → Bool} {q : List PodObject → Cluster → Prop}
    (h : ∀ c', Idle c c' → q (c.pods.filter p) c') (he : ∀ c', ¬c.Reliable → Idle c c' → e c') :
    wp (list p >>= orReturn) q e c := by
  rw [wp_bind]
  apply wp_request
  case h => exact h _ idle_next
  case he => exact fun _ hr => ⟨he _ hr idle_next, he _ hr idle_next⟩

theorem wp_get {q : PodObject → Cluster → Prop} (h : ∀ p c', c.find key = some p → Idle c c' → q p c')
    (he : ∀ c', ¬c.Reliable ∨ c.find key = none → Idle c c' → e c') : wp (get key >>= orFail what) q e c := by
  have hf : c.next.find key = c.find key := rfl
  rw [wp_bind]
  apply wp_request
  case h =>
    rw [hf]
    cases ho : c.find key
    case none => exact he _ (.inr ho) idle_next
    case some p => exact h p _ ho idle_next
  case he =>
    intro text hr
    rw [hf]
    cases c.find key <;> exact ⟨he _ (.inl hr) idle_next, he _ (.inl hr) idle_next⟩

end Read

section Write

-- Whether or not the answer arrives, a Pod is only created under a name that is free.
theorem wp_create {pod : PodObject} {q : Except ApiError Unit → Cluster → Prop}
    (hc : ∀ c', c.find pod.key = none → Wrote c (.create pod) (c.pods ++ [pod]) c' → q (.ok ()) c')
    (hf : ∀ p name c', c.find pod.key = some p → Idle c c' → q (.error (.alreadyExists name)) c')
    (he : ∀ text c', ¬c.Reliable → Idle c c' → q (.error (.other text)) c')
    (hl : ∀ text c', ¬c.Reliable → c.find pod.key = none → Wrote c (.create pod) (c.pods ++ [pod]) c' →
      q (.error (.other text)) c') :
    wp (create pod) q e c := by
  have hn : c.next.find pod.key = c.find pod.key := rfl
  apply wp_request
  case h =>
    rw [hn]
    cases ho : c.find pod.key
    case none => exact hc _ ho wrote_record
    case some p => exact hf p _ _ ho idle_next
  case he =>
    intro text ht
    rw [hn]
    cases ho : c.find pod.key
    case none => exact ⟨he text _ ht idle_next, hl text _ ht ho wrote_record⟩
    case some p => exact ⟨he text _ ht idle_next, he text _ ht idle_next⟩

theorem wp_delete {q : Unit → Cluster → Prop} (hn : ∀ c', c.find key = none → Idle c c' → q () c')
    (hd : ∀ p pods c', c.find key = some p → Deleted key c.pods pods → Wrote c (.delete p) pods c' → q () c')
    (he : ∀ c', ¬c.Reliable → Idle c c' → e c')
    (hl : ∀ p pods c', ¬c.Reliable → c.find key = some p → Deleted key c.pods pods →
      Wrote c (.delete p) pods c' → e c') :
    wp (delete key >>= unlessNotFound what) q e c := by
  have hf : c.next.find key = c.find key := rfl
  have hr : ∀ b : Bool, Deleted key c.pods (if b then c.pods.map fun p => if p.key = key then p.marked else p
      else c.pods.filter (·.key ≠ key)) := by
    intro b
    cases b
    case false => exact .inl rfl
    case true => exact .inr rfl
  rw [wp_bind]
  apply wp_request
  case h =>
    rw [hf]
    cases ho : c.find key
    case none => exact hn _ ho idle_next
    case some p => exact hd p _ _ ho (hr _) wrote_record
  case he =>
    intro text ht
    rw [hf]
    cases ho : c.find key
    case none => exact ⟨he _ ht idle_next, he _ ht idle_next⟩
    case some p => exact ⟨he _ ht idle_next, hl p _ _ ht ho (hr _) wrote_record⟩

theorem wp_patch {change : PodObject → PodObject} {q : Unit → Cluster → Prop}
    (hp : ∀ p c', c.find key = some p → Wrote c (.patch p (change p)) (changed key change c.pods) c' → q () c')
    (he : ∀ c', ¬c.Reliable ∨ c.find key = none → Idle c c' → e c')
    (hl : ∀ p c', ¬c.Reliable → c.find key = some p →
      Wrote c (.patch p (change p)) (changed key change c.pods) c' → e c') :
    wp (patch key change >>= orFail what) q e c := by
  have hf : c.next.find key = c.find key := rfl
  rw [wp_bind]
  apply wp_request
  case h =>
    rw [hf]
    cases ho : c.find key
    case none => exact he _ (.inr ho) idle_next
    case some p => exact hp p _ ho wrote_record
  case he =>
    intro text ht
    rw [hf]
    cases ho : c.find key
    case none => exact ⟨he _ (.inl ht) idle_next, he _ (.inl ht) idle_next⟩
    case some p => exact ⟨he _ (.inl ht) idle_next, hl p _ ht ho wrote_record⟩

end Write

end Api

end Rules

section Lists

variable {key : ObjectKey} {pods pods' : List PodObject} {p : PodObject}

theorem Deleted.mem (h : Deleted key pods pods') (hp : p ∈ pods') :
    p ∈ pods ∧ p.key ≠ key ∨ ∃ x ∈ pods, x.key = key ∧ p = x.marked := by
  cases h
  case inl h =>
    subst h
    have ⟨hm, hk⟩ := List.mem_filter.mp hp
    exact .inl ⟨hm, of_decide_eq_true hk⟩
  case inr h =>
    subst h
    have ⟨x, hm, he⟩ := List.mem_map.mp hp
    split at he
    case isTrue hk => exact .inr ⟨x, hm, hk, he.symm⟩
    case isFalse hk => exact .inl ⟨he ▸ hm, he ▸ hk⟩

theorem Deleted.of_ne (h : Deleted key pods pods') (hp : p ∈ pods) (hk : p.key ≠ key) : p ∈ pods' := by
  cases h
  case inl h => exact h ▸ List.mem_filter.mpr ⟨hp, decide_eq_true hk⟩
  case inr h => exact h ▸ List.mem_map.mpr ⟨p, hp, if_neg hk⟩

theorem mem_changed {change : PodObject → PodObject} : p ∈ changed key change pods ↔
    p ∈ pods ∧ p.key ≠ key ∨ ∃ x ∈ pods, x.key = key ∧ p = change x := by
  rw [changed, List.mem_map]
  constructor
  case mp =>
    intro ⟨x, hm, he⟩
    split at he
    case isTrue hk => exact .inr ⟨x, hm, hk, he.symm⟩
    case isFalse hk => exact .inl ⟨he ▸ hm, he ▸ hk⟩
  case mpr =>
    intro h
    cases h
    case inl h => exact ⟨p, h.1, if_neg h.2⟩
    case inr h =>
      have ⟨x, hm, hk, he⟩ := h
      exact ⟨x, hm, (if_pos hk).trans he.symm⟩

theorem changed_keys {change : PodObject → PodObject} (h : ∀ p, (change p).key = p.key) :
    (changed key change pods).map PodObject.key = pods.map PodObject.key := by
  rw [changed, List.map_map]
  apply List.map_congr_left
  intro p _
  simp only [Function.comp_apply]
  split
  case isTrue => exact h p
  case isFalse => rfl

theorem Deleted.nodup (h : Deleted key pods pods') (hn : (pods.map PodObject.key).Nodup) :
    (pods'.map PodObject.key).Nodup := by
  cases h
  case inl h => exact h ▸ hn.sublist (List.filter_sublist.map _)
  case inr h =>
    have hk : (changed key PodObject.marked pods).map PodObject.key = pods.map PodObject.key :=
      changed_keys fun _ => rfl
    rw [h]
    exact hk ▸ hn

theorem eq_of_key {q : PodObject} (hn : (pods.map PodObject.key).Nodup) (hp : p ∈ pods) (hq : q ∈ pods)
    (hk : p.key = q.key) : p = q :=
  List.inj_on_of_nodup_map hn hp hq hk

theorem nodup_append_singleton (hn : (pods.map PodObject.key).Nodup) (hk : ∀ q ∈ pods, q.key ≠ p.key) :
    ((pods ++ [p]).map PodObject.key).Nodup := by
  rw [List.map_append, List.map_singleton, List.nodup_append]
  refine ⟨hn, List.nodup_singleton _, ?_⟩
  intro k hk' k' hs
  have ⟨q, hq, he⟩ := List.mem_map.mp hk'
  rw [List.mem_singleton.mp hs, ← he]
  exact hk q hq

theorem Cluster.find_of_mem {c : Cluster} (hn : (c.pods.map PodObject.key).Nodup) (hp : p ∈ c.pods) :
    c.find p.key = some p := by
  cases hf : c.find p.key
  case none => exact absurd rfl (find_eq_none hf p hp)
  case some q =>
    have ⟨hq, hk⟩ := find_eq_some hf
    rw [eq_of_key hn hq hp hk]

end Lists

end InferenceCache.Kube
