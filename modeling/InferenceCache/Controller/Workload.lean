import InferenceCache.Kube.Core
import InferenceCache.Lib.Merge

-- The template of the Deployment that serves a managed backend. What the reconciler neither reads nor sets is
-- one value `rest`, of a container and of the template each.
namespace InferenceCache.Controller.Workload

open Kube (Volume)

variable {R S : Type}

structure Container (R : Type) extends Kube.Container where
  rest : R

structure PodSpec (R S : Type) where
  containers                    : List (Container R)
  volumes                       : List Volume
  nodeSelector                  : GoMap GoString GoString
  affinity                      : Option Json
  tolerations                   : List Json
  topologySpreadConstraints     : List Json
  imagePullSecrets              : List GoString
  serviceAccountName            : GoString
  securityContext               : Option Json
  priorityClassName             : GoString
  schedulerName                 : GoString
  runtimeClassName              : Option GoString
  terminationGracePeriodSeconds : Option Int
  hostNetwork                   : Bool
  dnsPolicy                     : GoString
  rest                          : S

def dnsClusterFirst : GoString := utf8 "ClusterFirst"

-- Takes over the fields that adapters render. The others may have been defaulted by the API server.
def Container.adopt (live want : Container R) : Container R :=
  { live with
    image := want.image
    imagePullPolicy := want.imagePullPolicy
    command := want.command
    args := want.args
    env := want.env
    ports := want.ports
    resources := want.resources
    volumeMounts := want.volumeMounts
    readinessProbe := want.readinessProbe
    livenessProbe := want.livenessProbe
    startupProbe := want.startupProbe
    securityContext := want.securityContext }

def desiredNames (desired : List (Container R)) : GoMap GoString Nat :=
  desired.zipIdx.foldl (fun names x => names.insert x.1.name x.2) ∅

-- Containers that are not desired are dropped. Each desired one is then merged into the first that has its name,
-- or added to the end.
def reconcileManagedContainer (live desired : PodSpec R S) : PodSpec R S :=
  if desired.containers.length = 0 then live else
    let kept := filterInPlace (fun c => ((desiredNames desired.containers).lookup c.name).isSome) live.containers
    { live with containers := desired.containers.foldl (Keyed.merge (·.name) Container.adopt) kept }

def reconcileManagedPodSpec (live desired : PodSpec R S) : PodSpec R S :=
  { reconcileManagedContainer live desired with
    volumes := desired.volumes
    nodeSelector := desired.nodeSelector
    affinity := desired.affinity
    tolerations := desired.tolerations
    topologySpreadConstraints := desired.topologySpreadConstraints
    imagePullSecrets := desired.imagePullSecrets
    serviceAccountName := desired.serviceAccountName
    securityContext := desired.securityContext
    priorityClassName := desired.priorityClassName
    schedulerName := desired.schedulerName
    runtimeClassName := desired.runtimeClassName
    terminationGracePeriodSeconds := desired.terminationGracePeriodSeconds
    hostNetwork := desired.hostNetwork
    dnsPolicy := if desired.dnsPolicy = [] then dnsClusterFirst else desired.dnsPolicy }

end InferenceCache.Controller.Workload
