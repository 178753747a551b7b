import InferenceCache.Lib.GoMap
import InferenceCache.Lib.Json

-- The types of `k8s.io/api/core/v1` that engine pods are made of. A source of a volume that the adapters
-- only test for being there is kept as the JSON that it is decoded from.
namespace InferenceCache.Kube

inductive QuantityFormat
  | decimalExponent
  | binarySI
  | decimalSI
  deriving DecidableEq

-- `resource.Quantity`, by the number that it stands for.
structure Quantity where
  amount : ℚ
  format : QuantityFormat
  deriving DecidableEq

namespace Quantity

-- A sum is printed like its first summand, unless this is zero.
def add (q y : Quantity) : Quantity where
  amount := q.amount + y.amount
  format := if q.amount = 0 then y.format else q.format

-- What was parsed is at most `2^63 - 1`, so that this does not overflow.
def value (q : Quantity) : Int :=
  if 0 ≤ q.amount then ⌈q.amount⌉ else ⌊q.amount⌋

def gib (n : Nat) : Quantity :=
  ⟨n * 2 ^ 30, .binarySI⟩

def mib (n : Nat) : Quantity :=
  ⟨n * 2 ^ 20, .binarySI⟩

def milli (n : Nat) : Quantity :=
  ⟨n / 1000, .decimalSI⟩

end Quantity

structure ResourceClaim where
  name    : GoString
  request : GoString
  deriving DecidableEq

structure ResourceRequirements where
  limits   : GoMap GoString Quantity
  requests : GoMap GoString Quantity
  claims   : List ResourceClaim

section Env

structure ObjectFieldSelector where
  apiVersion : GoString
  fieldPath  : GoString
  deriving DecidableEq

structure ResourceFieldSelector where
  containerName : GoString
  resource      : GoString
  divisor       : Quantity
  deriving DecidableEq

-- Of a config map or a secret.
structure KeySelector where
  name     : GoString
  key      : GoString
  optional : Option Bool
  deriving DecidableEq

structure FileKeySelector where
  volumeName : GoString
  path       : GoString
  key        : GoString
  optional   : Option Bool
  deriving DecidableEq

structure EnvVarSource where
  fieldRef         : Option ObjectFieldSelector
  resourceFieldRef : Option ResourceFieldSelector
  configMapKeyRef  : Option KeySelector
  secretKeyRef     : Option KeySelector
  fileKeyRef       : Option FileKeySelector
  deriving DecidableEq

structure EnvVar where
  name      : GoString
  value     : GoString
  valueFrom : Option EnvVarSource
  deriving DecidableEq

namespace EnvVar

def ofValue (name value : GoString) : EnvVar :=
  ⟨name, value, none⟩

def ofField (name fieldPath : GoString) : EnvVar :=
  ⟨name, [], some ⟨some ⟨[], fieldPath⟩, none, none, none, none⟩⟩

def ofSecret (name : GoString) (ref : KeySelector) : EnvVar :=
  ⟨name, [], some ⟨none, none, none, some ref, none⟩⟩

end EnvVar

end Env

section Volumes

structure VolumeMount where
  name              : GoString
  mountPath         : GoString
  readOnly          : Bool := false
  recursiveReadOnly : Option GoString := none
  subPath           : GoString := []
  mountPropagation  : Option GoString := none
  subPathExpr       : GoString := []
  deriving DecidableEq

structure EmptyDirVolumeSource where
  medium    : GoString := []
  sizeLimit : Option Quantity := none
  deriving DecidableEq

structure HostPathVolumeSource where
  path : GoString
  type : Option GoString
  deriving DecidableEq

structure PersistentVolumeClaimVolumeSource where
  claimName : GoString
  readOnly  : Bool

structure CSIVolumeSource where
  driver   : GoString
  readOnly : Option Bool
  rest     : Json

structure NFSVolumeSource where
  server   : GoString
  path     : GoString
  readOnly : Bool

structure VolumeSource where
  hostPath              : Option HostPathVolumeSource := none
  emptyDir              : Option EmptyDirVolumeSource := none
  configMap             : Option Json := none
  secret                : Option Json := none
  downwardAPI           : Option Json := none
  projected             : Option Json := none
  persistentVolumeClaim : Option PersistentVolumeClaimVolumeSource := none
  csi                   : Option CSIVolumeSource := none
  nfs                   : Option NFSVolumeSource := none
  other                 : Option Json := none

structure Volume where
  name   : GoString
  source : VolumeSource

end Volumes

section Containers

structure ContainerPort where
  name          : GoString
  hostPort      : Int
  containerPort : Int
  protocol      : GoString

structure HTTPGetAction where
  path   : GoString
  port   : GoString
  scheme : GoString

structure Probe where
  httpGet          : Option HTTPGetAction
  periodSeconds    : Int
  failureThreshold : Int
  timeoutSeconds   : Int

structure SecurityContext where
  allowPrivilegeEscalation : Option Bool
  dropCapabilities         : List GoString
  seccompProfile           : Option GoString
  runAsNonRoot             : Option Bool
  runAsUser                : Option Int
  runAsGroup               : Option Int

-- The fields that some function of the adapters reads or sets.
structure Container where
  name            : GoString
  image           : GoString
  imagePullPolicy : GoString
  restartPolicy   : Option GoString
  command         : List GoString
  args            : List GoString
  env             : List EnvVar
  resources       : ResourceRequirements
  volumeMounts    : List VolumeMount
  ports           : List ContainerPort
  startupProbe    : Option Probe
  readinessProbe  : Option Probe
  livenessProbe   : Option Probe
  securityContext : Option SecurityContext

structure PodSpec where
  containers     : List Container
  initContainers : List Container
  volumes        : List Volume

-- `metadata` and `rest` are the fields of the object's metadata and of the object that nothing here reads.
structure Pod where
  inNamespace : GoString
  labels      : GoMap GoString GoString
  annotations : GoMap GoString GoString
  metadata    : List (GoString × Json)
  spec        : PodSpec
  rest        : List (GoString × Json)

end Containers

end InferenceCache.Kube
