import InferenceCache.Api.Metadata
import InferenceCache.Adapters.Backend
import InferenceCache.Controller.Conditions
import InferenceCache.Controller.ControlPlane
import InferenceCache.Index.Snapshot
import InferenceCache.Kube.Cluster

-- The poller of the index, which projects a snapshot onto the status of backends and tenants.
namespace InferenceCache.Controller

open Kube Webhook EngineBinding

-- `NamespacedName.String`, which is also the label of a backend's series.
def fullName (key : ObjectKey) : GoString :=
  key.inNamespace ++ utf8 "/" ++ key.name

section Tenants

inductive TenantReason
  | observed
  | duplicateTenantID
  | notEffective
  | noQuota
  | withinBudget
  | overEntryBudget
  deriving DecidableEq

structure TenantCondition where
  status             : ConditionStatus
  reason             : TenantReason
  message            : GoString
  observedGeneration : Int
  deriving DecidableEq

-- The conditions are a list with one entry of each type in Go, of which the poller writes these two. The
-- time of the last transition is not compared.
structure CacheTenantStatus where
  observedGeneration : Int := 0
  indexEntries       : Option Int := none
  ready              : Option TenantCondition := none
  quotaExceeded      : Option TenantCondition := none
  deriving DecidableEq

structure TenantObject extends CacheTenant where
  generation : Int
  status     : CacheTenantStatus

def CacheTenant.key (ct : CacheTenant) : ObjectKey :=
  ⟨ct.inNamespace, ct.name⟩

def CacheTenant.maxIndexEntries (ct : CacheTenant) : Option Int64 :=
  ct.quota.bind (·.maxIndexEntries)

def tenantHasQuota (ct : CacheTenant) : Bool :=
  ct.tenantID ≠ [] ∧ ct.maxIndexEntries.isSome

def effectiveTenantOwners (items : List CacheTenant) : GoMap GoString ObjectKey :=
  (sortSlice (before CacheTenant.inNamespace CacheTenant.name) (items.filter tenantHasQuota)).foldl
    (fun owners ct => if ct.tenantID ∈ owners then owners else owners.insert ct.tenantID ct.key) ∅

variable {F : Type} (lib : Adapters.Library)

def buildCacheTenantStatus (ct : TenantObject) (obs : TenantSnapshot F) (shadowedBy : Option ObjectKey) :
    CacheTenantStatus :=
  match shadowedBy with
  | some owner =>
    { observedGeneration := ct.generation
      indexEntries := some obs.indexEntries
      ready := some
        ⟨.false, .duplicateTenantID,
          utf8 "spec.tenantID " ++ lib.quote ct.tenantID ++ utf8 " is also declared by CacheTenant " ++
            fullName owner ++ utf8 ", which is the effective owner; this CacheTenant is ignored", ct.generation⟩
      quotaExceeded := some
        ⟨.false, .notEffective,
          utf8 "not the effective owner of tenantID " ++ lib.quote ct.tenantID ++ utf8 " (CacheTenant " ++
            fullName owner ++ utf8 " is)", ct.generation⟩ }
  | none =>
    { observedGeneration := ct.generation
      indexEntries := some obs.indexEntries
      ready := some ⟨.true, .observed, utf8 "projected from the latest server snapshot read", ct.generation⟩
      quotaExceeded := some <|
        match ct.maxIndexEntries with
        | none        => ⟨.false, .noQuota, utf8 "no index-entry quota configured", ct.generation⟩
        | some budget =>
          if budget.toInt < obs.indexEntries then
            ⟨.true, .overEntryBudget, utf8 "index entries " ++ GoString.formatInt obs.indexEntries ++
              utf8 " exceed budget " ++ GoString.formatInt budget.toInt, ct.generation⟩
          else
            ⟨.false, .withinBudget, utf8 "index entries within budget " ++ GoString.formatInt budget.toInt,
              ct.generation⟩ }

def shadowedBy (owners : GoMap GoString ObjectKey) (ct : CacheTenant) : Option ObjectKey :=
  (owners.lookup ct.tenantID).filter (· ≠ ct.key)

def projectTenant [Zero F] (snap : Snapshot F) (owners : GoMap GoString ObjectKey) (ct : TenantObject) :
    CacheTenantStatus :=
  -- Of several rows with one ID, the last one counts. A tenant without a row holds nothing.
  let obs := (snap.tenants.reverse.find? (·.tenantID = ct.tenantID)).getD ⟨ct.tenantID, 0, 0, false, 0⟩
  buildCacheTenantStatus lib ct obs (shadowedBy owners ct.toCacheTenant)

-- `patch` is the error of a write, if there is one. A failed write does not stop the others.
def reconcileTenantStatuses [Zero F] (list : Except ApiError (List TenantObject))
    (patch : ObjectKey → Option GoString) (snap : Snapshot F) : Except GoString (List TenantObject × List GoString) :=
  match list with
  | .error (.notFound _) => .ok ([], [])
  | .error err           => .error (utf8 "list CacheTenants: " ++ err.text)
  | .ok items            =>
    let owners := effectiveTenantOwners (items.map TenantObject.toCacheTenant)
    let written := items.map fun ct =>
      let desired := projectTenant lib snap owners ct
      if ct.status = desired then (ct, none)
      else match patch ct.key with
        | none     => ({ ct with status := desired }, none)
        | some err =>
          (ct, some (utf8 "patch CacheTenant " ++ lib.quote (fullName ct.key) ++ utf8 " status: " ++ err))
    .ok (written.map Prod.fst, written.filterMap Prod.snd)

end Tenants

section Backends

deriving instance DecidableEq for IndexParticipation

structure CacheBackendIndexParticipation extends IndexParticipation where
  prefixCount : Int64
  hitRate     : Option GoString := none
  deriving DecidableEq

structure Participant (S : Type) extends CacheBackend S where
  participation : Option CacheBackendIndexParticipation

-- What a list request returns. No two objects have the same name in the same namespace, and the name of a
-- namespace is a DNS label.
structure Backends (S : Type) where
  items       : List (Participant S)
  nodup       : (items.map (·.key)).Nodup
  inNamespace : ∀ cb ∈ items, 0x2f ∉ cb.key.inNamespace

structure Pods where
  items : List PodObject
  nodup : (items.map PodObject.key).Nodup

variable {S F : Type}

-- A read of a Pod either fails, for a reason of its own, or finds what there is.
def Pods.get (pods : Pods) (fails : ObjectKey → Option GoString) (key : ObjectKey) : Except ApiError PodObject :=
  match fails key with
  | some err => .error (.other err)
  | none     =>
    match pods.items.find? (·.key = key) with
    | some pod => .ok pod
    | none     => .error (.notFound key.name)

-- A label that is absent is as good as an empty one here.
def matchLabelsSelects (want labels : GoMap GoString GoString) : Bool :=
  want.len ≠ 0 ∧ ∀ k ∈ want.keys, (labels.lookup k).getD [] = (want.lookup k).getD []

-- The backends that the map of the source has under a namespace.
def backendsByNS (items : List (Participant S)) (ns : GoString) : List (Participant S) :=
  sortSlice (fun a b => a.key.name < b.key.name)
    (items.filter fun cb => cb.spec.matchLabels.len ≠ 0 ∧ cb.key.inNamespace = ns)

-- Where the source has an index into the list of backends, there is the name here.
def attributePod (pod : PodObject) (nsBackends items : List (Participant S)) : Option ObjectKey :=
  let bySelector :=
    (nsBackends.find? fun cb => matchLabelsSelects cb.spec.matchLabels pod.labels).map (·.key)
  match (pod.annotation annotationInjectedBy).cut 0x2f with
  | none            => bySelector
  | some (ns, name) =>
    if ns = pod.key.inNamespace then
      -- There is no way back to the selectors if the backend is gone.
      if (⟨ns, name⟩ : ObjectKey) ∈ items.map (·.key) then some ⟨ns, name⟩ else none
    else bySelector

structure Agg where
  prefixCount   : Int64 := 0
  lastEventAt   : Time := 0
  t2HitTokens   : Int64 := 0
  t2QueryTokens : Int64 := 0

def Agg.add (a : Agg) (r : ReplicaSnapshot F) : Agg where
  prefixCount   := a.prefixCount + Int64.ofInt r.prefixCount
  lastEventAt   := if a.lastEventAt < r.lastEventAt then r.lastEventAt else a.lastEventAt
  t2HitTokens   := a.t2HitTokens + Int64.ofInt r.t2HitTokens
  t2QueryTokens := a.t2QueryTokens + Int64.ofInt r.t2QueryTokens

structure Attribution where
  perBackend        : GoMap ObjectKey Agg
  podAttrs          : GoMap ObjectKey (Option ObjectKey) := ∅
  taintedNamespaces : Finset GoString := ∅

namespace Attribution

def start (items : List (Participant S)) : Attribution where
  perBackend := items.foldl (fun m cb => m.insert cb.key {}) ∅

def credit (t : Attribution) (owner : Option ObjectKey) (r : ReplicaSnapshot F) : Attribution :=
  match owner with
  | none     => t
  | some key => { t with perBackend := t.perBackend.insert key (((t.perBackend.lookup key).getD {}).add r) }

def visit (items : List (Participant S)) (get : ObjectKey → Except ApiError PodObject) (t : Attribution)
    (r : ReplicaSnapshot F) : Attribution :=
  if r.tenant = [] ∨ r.replicaID = [] then t
  else if r.tenant ∈ t.taintedNamespaces then t
  else
    let key : ObjectKey := ⟨r.tenant, r.replicaID⟩
    match t.podAttrs.lookup key with
    | some owner => t.credit owner r
    | none       =>
      match get key with
      | .error (.notFound _) => { t with podAttrs := t.podAttrs.insert key none }
      | .error _             => { t with taintedNamespaces := insert r.tenant t.taintedNamespaces }
      | .ok pod              =>
        let owner := attributePod pod (backendsByNS items r.tenant) items
        { t with podAttrs := t.podAttrs.insert key owner }.credit owner r

end Attribution

end Backends

section Metrics

variable {F : Type} [GoFloat F]

def t2Ratio (a : Agg) : GoFloat.Double F :=
  let ratio : GoFloat.Double F := FloatFormat.ofInt a.t2HitTokens.toInt / FloatFormat.ofInt a.t2QueryTokens.toInt
  if FloatFormat.lt ratio 0 then 0 else if FloatFormat.lt 1 ratio then 1 else ratio

-- The two families of series, by label, and what the poller remembers of them. The counter is a `float64`
-- in Go.
@[ext]
structure Metrics (F : Type) [GoFloat F] where
  backendT2HitRate          : GoMap GoString (GoFloat.Double F) := ∅
  backendT2QueryTokensTotal : GoMap GoString Int := ∅
  lastT2QueryTokens         : GoMap ObjectKey Int64 := ∅
  t2SeriesTracked           : Finset ObjectKey := ∅

namespace Metrics

variable (m : Metrics F)

-- Nothing is added at first, nor if the sum has dropped.
def t2QueryDelta (key : ObjectKey) (current : Int64) : Int64 × Metrics F :=
  (match m.lastT2QueryTokens.lookup key with
    | none      => 0
    | some last => if current ≤ last then 0 else current - last,
    { m with lastT2QueryTokens := m.lastT2QueryTokens.insert key current })

-- A series that is not there starts at zero.
def addQueryTokens (label : GoString) (delta : Int64) : Metrics F :=
  { m with backendT2QueryTokensTotal :=
      m.backendT2QueryTokensTotal.insert label (m.backendT2QueryTokensTotal.count label + delta.toInt) }

def exercise (key : ObjectKey) (a : Agg) : Int64 × Metrics F :=
  let m := { m with backendT2HitRate := m.backendT2HitRate.insert (fullName key) (t2Ratio a) }
  let (delta, m) := m.t2QueryDelta key a.t2QueryTokens
  (delta, m.addQueryTokens (fullName key) delta)

def isStale (exercised present : Finset ObjectKey) (tainted : Finset GoString) (k : ObjectKey) : Bool :=
  k ∉ present ∨ k.inNamespace ∉ tainted ∧ k ∉ exercised

def reconcileBackendT2HitRateSeries (exercised present : Finset ObjectKey) (tainted : Finset GoString) :
    Metrics F :=
  let tracked := m.t2SeriesTracked ∪ exercised
  let stale   := tracked.filter (isStale exercised present tainted ·)
  let labels  := stale.image fullName
  { backendT2HitRate := m.backendT2HitRate.filter fun label _ => label ∉ labels
    backendT2QueryTokensTotal := m.backendT2QueryTokensTotal.filter fun label _ => label ∉ labels
    lastT2QueryTokens := m.lastT2QueryTokens.filter fun k _ => k ∉ stale
    t2SeriesTracked := tracked \ stale }

end Metrics

end Metrics

section Participation

variable {S F : Type} [GoFloat F] (format : F → GoString)

-- Without a query, nothing is said about the second tier.
def Agg.desired (a : Agg) : CacheBackendIndexParticipation where
  prefixCount := a.prefixCount
  lastEventAt := if a.lastEventAt = 0 then none else some a.lastEventAt
  t2HitRate   := if 0 < a.t2QueryTokens then some (format (GoFloat.narrow (t2Ratio a : GoFloat.Double F))) else none

def CacheBackendIndexParticipation.isZeroState (p : CacheBackendIndexParticipation) : Bool :=
  p.prefixCount = 0 ∧ p.lastEventAt = none ∧ p.hitRate = none ∧ p.t2HitRate = none

def CacheBackendIndexParticipation.stored (p : CacheBackendIndexParticipation) : CacheBackendIndexParticipation :=
  { p with lastEventAt := p.lastEventAt.map storedTime }

-- What a tick has done so far: the writes that went through, the metrics, the backends whose series were
-- set, and the arguments of the calls of the counter's `Add`.
@[ext]
structure Projection (F : Type) [GoFloat F] where
  written   : GoMap ObjectKey CacheBackendIndexParticipation := ∅
  metrics   : Metrics F
  exercised : Finset ObjectKey := ∅
  added     : GoMap ObjectKey Int64 := ∅

def Projection.exercise (p : Projection F) (key : ObjectKey) (a : Agg) : Projection F :=
  if 0 < a.t2QueryTokens then
    let (delta, metrics) := p.metrics.exercise key a
    { p with
      metrics   := metrics
      exercised := insert key p.exercised
      added     := p.added.insert key delta }
  else p

-- Whether the status of a backend is written, and not left as it is.
def isPublished (cb : Participant S) (desired : CacheBackendIndexParticipation) : Bool :=
  ¬(desired.isZeroState ∧ cb.spec.matchLabels.len = 0 ∧ cb.participation = none) ∧
    cb.participation ≠ some desired

def Projection.publish (tainted : Finset GoString) (patch : ObjectKey → Bool) (cb : Participant S) (a : Agg)
    (p : Projection F) : Projection F :=
  if cb.key.inNamespace ∈ tainted then p
  else
    let p := p.exercise cb.key a
    if isPublished cb (a.desired format) ∧ patch cb.key then
      { p with written := p.written.insert cb.key (a.desired format).stored }
    else p

-- `range` is the order of the loop over the backends, which go through a map.
def Attribution.publish (t : Attribution) (backends : Backends S) (patch : ObjectKey → Bool)
    (range : RangeOrder ObjectKey) (m : Metrics F) : Projection F :=
  (range.range t.perBackend).foldl (fun p x =>
    match backends.items.find? (·.key = x.1) with
    | none    => p
    | some cb => p.publish format t.taintedNamespaces patch cb x.2) { metrics := m }

def refreshCacheBackendParticipation (backends : Backends S) (get : ObjectKey → Except ApiError PodObject)
    (patch : ObjectKey → Bool) (range : RangeOrder ObjectKey) (m : Metrics F) (snap : Snapshot F) : Projection F :=
  if backends.items = [] then { metrics := m.reconcileBackendT2HitRateSeries ∅ ∅ ∅ }
  else
    let t := snap.replicas.foldl (Attribution.visit backends.items get) (Attribution.start backends.items)
    let p := t.publish format backends patch range m
    let present := (backends.items.map (·.key)).toFinset
    { p with metrics := p.metrics.reconcileBackendT2HitRateSeries p.exercised present t.taintedNamespaces }

def Projection.after (p : Projection F) (cb : Participant S) : Option CacheBackendIndexParticipation :=
  (p.written.lookup cb.key).or cb.participation

end Participation

end InferenceCache.Controller
