import ServiceExposure.Object.Metadata
/-!
# Services and ConfigMaps

The parts of the core objects that this library works with, and the formats of the others.
-/
namespace ServiceExposure

open Format (may must textFor numberFor)

/-- A port by number or by name. -/
inductive PortRef where
  | number (n : Int)
  | named (name : String)
deriving DecidableEq

namespace PortRef

def ofJson? : Json → Option PortRef
  | .str s => some (.named s)
  | j => j.int32?.map .number

def toJson : PortRef → Json
  | .number n => .int n
  | .named s => .str s

end PortRef

/-- A port of a Service. -/
structure ServicePort where
  port : Int
  name : Option String := none
  protocol : Option String := none
  targetPort : Option PortRef := none
  /-- The port that the cluster has allocated on its nodes. -/
  nodePort : Option Int := none
  appProtocol : Option String := none
deriving DecidableEq

structure ServiceSpec where
  /-- How the Service is published. -/
  publishing : Option String := none
  selector : Option (Dict String) := none
  ports : Option (List ServicePort) := none
  others : Dict Json := .empty
deriving DecidableEq

structure Service where
  metadata : Metadata
  spec : Option ServiceSpec := none
  others : Dict Json := .empty
deriving DecidableEq

structure ConfigMap where
  metadata : Metadata
  data : Option (Dict String) := none
  others : Dict Json := .empty
deriving DecidableEq

namespace ServicePort

def ofJson? (j : Json) : Option ServicePort := do
  let d ← Fields.ofJson? j
  return {
    port := ← Fields.withDefault d "port" Json.int32? 0
    name := ← Fields.optional d "name" Json.text?
    protocol := ← Fields.optional d "protocol" Json.text?
    targetPort := ← Fields.optional d "targetPort" PortRef.ofJson?
    nodePort := ← Fields.optional d "nodePort" Json.int32?
    appProtocol := ← Fields.optional d "appProtocol" Json.text? }

def toJson (p : ServicePort) : Json :=
  Fields.object
    [("port", some (.int p.port)), ("name", p.name.map .str), ("protocol", p.protocol.map .str),
     ("targetPort", p.targetPort.map PortRef.toJson), ("nodePort", p.nodePort.map .int),
     ("appProtocol", p.appProtocol.map .str)] .empty

end ServicePort

namespace ServiceSpec

/-- The fields that are kept. -/
def otherFields : List (String × Presence × Format) :=
  [may "allocateLoadBalancerNodePorts" .bool, may "clusterIP" .text, may "clusterIPs" .texts,
   may "externalIPs" .texts, may "externalName" .text, may "externalTrafficPolicy" .text,
   may "healthCheckNodePort" .int32, may "internalTrafficPolicy" .text, may "ipFamilies" .texts,
   may "ipFamilyPolicy" .text, may "loadBalancerClass" .text, may "loadBalancerIP" .text,
   may "loadBalancerSourceRanges" .texts, may "publishNotReadyAddresses" .bool, may "sessionAffinity" .text,
   may "sessionAffinityConfig" (.record [may "clientIP" (.record [may "timeoutSeconds" .int32])]),
   may "trafficDistribution" .text]

def ofJson? (j : Json) : Option ServiceSpec := do
  let d ← Fields.ofJson? j
  return {
    publishing := ← Fields.optional d "type" Json.text?
    selector := ← Fields.optional d "selector" Fields.texts?
    ports := ← Fields.optional d "ports" (Fields.list? ServicePort.ofJson?)
    others := ← Format.fields? otherFields d }

def toJson (s : ServiceSpec) : Json :=
  Fields.object
    [("type", s.publishing.map .str), ("selector", s.selector.map Fields.ofTexts),
     ("ports", s.ports.map (Fields.ofList ServicePort.toJson))] s.others

end ServiceSpec

namespace Service

/-- The format of a condition that is observed of an object. -/
def condition : Format :=
  .record
    [must "lastTransitionTime" .timestamp, textFor "message", may "observedGeneration" .int64, textFor "reason",
     textFor "status", textFor "type"]

/-- The format of where a load balancer can be reached. -/
def entrance : Format :=
  .record
    [may "hostname" .text, may "ip" .text, may "ipMode" .text,
     may "ports" (.list (.record [may "error" .text, numberFor "port", textFor "protocol"]))]

/-- The fields that are kept. -/
def otherFields : List (String × Presence × Format) :=
  [may "status" (.record
    [may "conditions" (.list condition), may "loadBalancer" (.record [may "ingress" (.list entrance)])])]

/-- The ports that the Service lists. -/
def ports (s : Service) : List ServicePort := ((s.spec.bind (·.ports)).getD [])

def name (s : Service) : String := s.metadata.anyName

/-- The reference from an object that is generated for the Service; a Service that the cluster does not know has
none. -/
def ownerReference? (s : Service) : Option OwnerReference :=
  match s.metadata.name, s.metadata.uid with
  | some name, some uid =>
    some { apiVersion := "v1", kind := "Service", name, uid, controller := some true, others := .empty }
  | _, _ => none

def ofFields? (d : Dict Json) : Option Service := do
  return {
    metadata := ← Fields.withDefault d "metadata" Metadata.ofJson? {}
    spec := ← Fields.optional d "spec" ServiceSpec.ofJson?
    others := ← Format.fields? otherFields d }

def toFields (s : Service) : List (String × Option Json) × Dict Json :=
  ([("metadata", some s.metadata.toJson), ("spec", s.spec.map ServiceSpec.toJson)], s.others)

end Service

namespace ConfigMap

/-- The fields that are kept. -/
def otherFields : List (String × Presence × Format) := [may "binaryData" (.map .bytes), may "immutable" .bool]

def ofFields? (d : Dict Json) : Option ConfigMap := do
  return {
    metadata := ← Fields.withDefault d "metadata" Metadata.ofJson? {}
    data := ← Fields.optional d "data" Fields.texts?
    others := ← Format.fields? otherFields d }

def toFields (c : ConfigMap) : List (String × Option Json) × Dict Json :=
  ([("metadata", some c.metadata.toJson), ("data", c.data.map Fields.ofTexts)], c.others)

end ConfigMap

end ServiceExposure
