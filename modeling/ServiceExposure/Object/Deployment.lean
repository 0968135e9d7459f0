import ServiceExposure.Object.NetworkPolicy
/-!
# Deployments

Of a Deployment only the number of pods that are ready matters.  What it says of its pods is read as well, as far as it
can make the whole unreadable.
-/
namespace ServiceExposure

open Format (may textFor numberFor listFor recordFor)

structure DeploymentStatus where
  readyReplicas : Option Int := none
  others : Dict Json := .empty
deriving DecidableEq

structure Deployment where
  metadata : Metadata
  status : Option DeploymentStatus := none
  others : Dict Json := .empty
deriving DecidableEq

namespace DeploymentStatus

def condition : Format :=
  .record
    [may "lastTransitionTime" .timestamp, may "lastUpdateTime" .timestamp, may "message" .text, may "reason" .text,
     textFor "status", textFor "type"]

/-- The fields that are kept. -/
def otherFields : List (String × Presence × Format) :=
  [may "availableReplicas" .int32, may "collisionCount" .int32, may "conditions" (.list condition),
   may "observedGeneration" .int64, may "replicas" .int32, may "terminatingReplicas" .int32,
   may "unavailableReplicas" .int32, may "updatedReplicas" .int32]

def ofJson? (j : Json) : Option DeploymentStatus := do
  let d ← Fields.ofJson? j
  return {
    readyReplicas := ← Fields.optional d "readyReplicas" Json.int32?
    others := ← Format.fields? otherFields d }

def toJson (s : DeploymentStatus) : Json :=
  Fields.object [("readyReplicas", s.readyReplicas.map .int)] s.others

end DeploymentStatus

/-! ## Pods -/

namespace Pod

/-- The format of a name with a value. -/
def pair : Format := .record [textFor "name", may "value" .text]

/-- The format of a reference to an entry of another object. -/
def entry : Format := .record [textFor "key", textFor "name", may "optional" .bool]

/-- The format of a reference to another object. -/
def source : Format := .record [textFor "name", may "optional" .bool]

def envVariable : Format :=
  .record
    [textFor "name", may "value" .text,
     may "valueFrom" (.record
       [may "configMapKeyRef" entry, may "fieldRef" (.record [may "apiVersion" .text, textFor "fieldPath"]),
        may "resourceFieldRef" (.record [may "containerName" .text, may "divisor" .text, textFor "resource"]),
        may "secretKeyRef" entry])]

/-- The fields of something that is done to a container. -/
def deeds : List (String × Presence × Format) :=
  [may "exec" (.record [may "command" .texts]),
   may "httpGet" (.record
     [may "host" .text, may "httpHeaders" (.list pair), may "path" .text,
      ("port", .standing (.int 0), .numberOrText), may "scheme" .text]),
   may "tcpSocket" (.record [may "host" .text, ("port", .standing (.int 0), .numberOrText)])]

def handler : Format := .record (may "sleep" (.record [("seconds", .standing (.int 0), .int64)]) :: deeds)

def probe : Format :=
  .record
    ([may "failureThreshold" .int32, may "grpc" (.record [numberFor "port", may "service" .text]),
      may "initialDelaySeconds" .int32, may "periodSeconds" .int32, may "successThreshold" .int32,
      may "terminationGracePeriodSeconds" .int64, may "timeoutSeconds" .int32] ++ deeds)

def resources : Format :=
  .record
    [may "claims" (.list (.record [textFor "name", may "request" .text])), may "limits" .textMap,
     may "requests" .textMap]

def container : Format :=
  .record
    [may "args" .texts, may "command" .texts, may "env" (.list envVariable),
     may "envFrom" (.list (.record [may "configMapRef" source, may "prefix" .text, may "secretRef" source])),
     may "image" .text, may "imagePullPolicy" .text,
     may "lifecycle" (.record [may "postStart" handler, may "preStop" handler, may "stopSignal" .text]),
     may "livenessProbe" probe, textFor "name",
     may "ports" (.list (.record
       [numberFor "containerPort", may "hostIP" .text, may "hostPort" .int32, may "name" .text,
        may "protocol" .text])),
     may "readinessProbe" probe,
     may "resizePolicy" (.list (.record [textFor "resourceName", textFor "restartPolicy"])),
     may "resources" resources, may "restartPolicy" .text, may "securityContext" (.map .any),
     may "startupProbe" probe, may "stdin" .bool, may "stdinOnce" .bool, may "terminationMessagePath" .text,
     may "terminationMessagePolicy" .text, may "tty" .bool,
     may "volumeDevices" (.list (.record [textFor "devicePath", textFor "name"])),
     may "volumeMounts" (.list (.record
       [textFor "mountPath", may "mountPropagation" .text, textFor "name", may "readOnly" .bool,
        may "recursiveReadOnly" .text, may "subPath" .text, may "subPathExpr" .text])),
     may "workingDir" .text]

def spec : Format :=
  .record
    [may "activeDeadlineSeconds" .int64, may "affinity" (.map .any), may "automountServiceAccountToken" .bool,
     listFor "containers" container,
     may "dnsConfig" (.record
       [may "nameservers" .texts, may "options" (.list (.record [may "name" .text, may "value" .text])),
        may "searches" .texts]),
     may "dnsPolicy" .text, may "enableServiceLinks" .bool, may "ephemeralContainers" (.list (.map .any)),
     may "hostAliases" (.list (.record [may "hostnames" .texts, textFor "ip"])), may "hostIPC" .bool,
     may "hostNetwork" .bool, may "hostPID" .bool, may "hostUsers" .bool, may "hostname" .text,
     may "imagePullSecrets" (.list (.record [textFor "name"])), may "initContainers" (.list container),
     may "nodeName" .text, may "nodeSelector" .textMap, may "os" (.record [textFor "name"]), may "overhead" .textMap,
     may "preemptionPolicy" .text, may "priority" .int32, may "priorityClassName" .text,
     may "readinessGates" (.list (.record [textFor "conditionType"])), may "resourceClaims" (.list (.map .any)),
     may "resources" resources, may "restartPolicy" .text, may "runtimeClassName" .text, may "schedulerName" .text,
     may "schedulingGates" (.list (.record [textFor "name"])), may "securityContext" (.map .any),
     may "serviceAccount" .text, may "serviceAccountName" .text, may "setHostnameAsFQDN" .bool,
     may "shareProcessNamespace" .bool, may "subdomain" .text, may "terminationGracePeriodSeconds" .int64,
     may "tolerations" (.list (.record
       [may "effect" .text, may "key" .text, may "operator" .text, may "tolerationSeconds" .int64,
        may "value" .text])),
     may "topologySpreadConstraints" (.list (.record
       [may "labelSelector" LabelSelector.format, may "matchLabelKeys" .texts, numberFor "maxSkew",
        may "minDomains" .int32, may "nodeAffinityPolicy" .text, may "nodeTaintsPolicy" .text, textFor "topologyKey",
        textFor "whenUnsatisfiable"])),
     may "volumes" (.list (.map .any))]

end Pod

namespace Deployment

def spec : Format :=
  .record
    [may "minReadySeconds" .int32, may "paused" .bool, may "progressDeadlineSeconds" .int32, may "replicas" .int32,
     may "revisionHistoryLimit" .int32, recordFor "selector" LabelSelector.format,
     may "strategy" (.record
       [may "rollingUpdate" (.record [may "maxSurge" .numberOrText, may "maxUnavailable" .numberOrText]),
        may "type" .text]),
     recordFor "template" (.record [may "metadata" Metadata.format, may "spec" Pod.spec])]

/-- The fields that are kept. -/
def otherFields : List (String × Presence × Format) := [may "spec" spec]

/-- A Deployment is ready when at least one of its pods is. -/
def isReady (d : Deployment) : Bool :=
  match d.status.bind (·.readyReplicas) with
  | some n => 0 < n
  | none => false

def ofFields? (d : Dict Json) : Option Deployment := do
  return {
    metadata := ← Fields.withDefault d "metadata" Metadata.ofJson? {}
    status := ← Fields.optional d "status" DeploymentStatus.ofJson?
    others := ← Format.fields? otherFields d }

def toFields (d : Deployment) : List (String × Option Json) × Dict Json :=
  ([("metadata", some d.metadata.toJson), ("status", d.status.map DeploymentStatus.toJson)], d.others)

end Deployment
end ServiceExposure
