import ServiceExposure.Object.Service
/-!
# Network policies

A policy selects pods and says which traffic reaches them: some ingress rule must have a peer and a port that match.
A rule that names no peers matches every peer, a rule that names no ports every port.
-/
namespace ServiceExposure

open Format (may textFor)

/-- A selection of pods by their labels. -/
structure LabelSelector where
  matchLabels : Option (Dict String) := none
  matchExpressions : Option Json := none
deriving DecidableEq

/-- A port that a rule admits. -/
structure PolicyPort where
  port : Option PortRef := none
  protocol : Option String := none
  endPort : Option Int := none
deriving DecidableEq

/-- One ingress rule. -/
structure PolicyRule where
  /-- Who may come in. -/
  peers : Option (List Json) := none
  ports : Option (List PolicyPort) := none
deriving DecidableEq

structure PolicySpec where
  podSelector : LabelSelector := {}
  policyTypes : Option (List String) := none
  ingress : Option (List PolicyRule) := none
  egress : Option Json := none
deriving DecidableEq

structure NetworkPolicy where
  metadata : Metadata
  spec : Option PolicySpec := none
deriving DecidableEq

namespace LabelSelector

/-- The format of a condition on labels. -/
def expression : Format := .record [textFor "key", textFor "operator", may "values" .texts]

def format : Format := .record [may "matchExpressions" (.list expression), may "matchLabels" .textMap]

def ofJson? (j : Json) : Option LabelSelector := do
  let d ← Fields.ofJson? j
  return {
    matchLabels := ← Fields.optional d "matchLabels" Fields.texts?
    matchExpressions := ← Fields.optional d "matchExpressions" (Format.list expression).read? }

def toJson (s : LabelSelector) : Json :=
  Fields.object [("matchLabels", s.matchLabels.map Fields.ofTexts), ("matchExpressions", s.matchExpressions)] .empty

end LabelSelector

namespace PolicyPort

def format : Format := .record [may "endPort" .int32, may "port" .numberOrText, may "protocol" .text]

def ofJson? (j : Json) : Option PolicyPort := do
  let d ← Fields.ofJson? j
  return {
    port := ← Fields.optional d "port" PortRef.ofJson?
    protocol := ← Fields.optional d "protocol" Json.text?
    endPort := ← Fields.optional d "endPort" Json.int32? }

def toJson (p : PolicyPort) : Json :=
  Fields.object
    [("port", p.port.map PortRef.toJson), ("protocol", p.protocol.map .str), ("endPort", p.endPort.map .int)] .empty

end PolicyPort

namespace PolicyRule

/-- The format of those whom a rule lets in or out. -/
def peer : Format :=
  .record
    [may "ipBlock" (.record [textFor "cidr", may "except" .texts]), may "namespaceSelector" LabelSelector.format,
     may "podSelector" LabelSelector.format]

/-- The format of an egress rule. -/
def egress : Format := .record [may "ports" (.list PolicyPort.format), may "to" (.list peer)]

def ofJson? (j : Json) : Option PolicyRule := do
  let d ← Fields.ofJson? j
  return {
    peers := ← Fields.optional d "from" (Fields.list? peer.read?)
    ports := ← Fields.optional d "ports" (Fields.list? PolicyPort.ofJson?) }

def toJson (r : PolicyRule) : Json :=
  Fields.object [("from", r.peers.map Json.arr), ("ports", r.ports.map (Fields.ofList PolicyPort.toJson))] .empty

end PolicyRule

namespace PolicySpec

def ofJson? (j : Json) : Option PolicySpec := do
  let d ← Fields.ofJson? j
  return {
    podSelector := ← Fields.withDefault d "podSelector" LabelSelector.ofJson? {}
    policyTypes := ← Fields.optional d "policyTypes" (Fields.list? Json.text?)
    ingress := ← Fields.optional d "ingress" (Fields.list? PolicyRule.ofJson?)
    egress := ← Fields.optional d "egress" (Format.list PolicyRule.egress).read? }

def toJson (s : PolicySpec) : Json :=
  Fields.object
    [("podSelector", some s.podSelector.toJson), ("policyTypes", s.policyTypes.map (Fields.ofList .str)),
     ("ingress", s.ingress.map (Fields.ofList PolicyRule.toJson)), ("egress", s.egress)] .empty

end PolicySpec

namespace NetworkPolicy

def ofFields? (d : Dict Json) : Option NetworkPolicy := do
  return {
    metadata := ← Fields.withDefault d "metadata" Metadata.ofJson? {}
    spec := ← Fields.optional d "spec" PolicySpec.ofJson? }

def toFields (p : NetworkPolicy) : List (String × Option Json) × Dict Json :=
  ([("metadata", some p.metadata.toJson), ("spec", p.spec.map PolicySpec.toJson)], .empty)

end NetworkPolicy
end ServiceExposure
