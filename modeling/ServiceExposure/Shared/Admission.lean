import ServiceExposure.Shared.Resource
import ServiceExposure.Port.Ownership
/-!
# The policy that admits traffic to every exposed port

Only the numeric ports of the first ingress rule are merged; everything else in the policy belongs to whoever wrote it.
Who asked for which port is recorded per contributor in annotations of the policy, so a port that several contributors
share stays until the last of them gives it up.  A port of the rule that nobody has a record for was put there by
somebody else and is never adopted.
-/
namespace ServiceExposure

namespace PolicyPort

/-- The identity of a port of a rule; TCP where no protocol is said, 0 where no number is. -/
def id (p : PolicyPort) : PortId :=
  ⟨Protocol.ofName (p.protocol.getD "TCP"), match p.port with | some (.number n) => n | _ => 0⟩

/-- Tests whether a port is given by its number. -/
def isNumeric (p : PolicyPort) : Bool :=
  match p.port with
  | some (.number _) => true
  | _ => false

/-- The entry of a rule that admits an exposed port. -/
def ofExposed (p : ExposedPort) : PolicyPort := { port := some (.number p.port), protocol := some p.protocol.name }

end PolicyPort

/-- The policy that admits traffic to every exposed port. -/
structure Admission where
  name : String
  ns : String
  /-- The pods that receive the traffic. -/
  selector : Dict String
  records : OwnershipRecords

namespace Admission

/-- The policy before anything is admitted. -/
def closed (a : Admission) : NetworkPolicy :=
  { metadata := .named a.ns a.name
    spec := some
      { podSelector := { matchLabels := some a.selector }, policyTypes := some ["Ingress"], ingress := some [] } }

/-- The first rule of a list with other ports.  Without ports the rule is dropped, unless somebody named peers in it. -/
def withPorts (ports : List PolicyPort) : List PolicyRule → List PolicyRule
  | [] => if ports = [] then [] else [{ ports := some ports }]
  | rule :: rules =>
    if ports = [] then
      if rule.peers.getD [] = [] then rules else { rule with ports := none } :: rules
    else { rule with ports := some ports } :: rules

/-- The ports that nobody has a record for. -/
def unrecorded (entries : List PolicyPort) (prior others : List PortId) : List PortId :=
  (entries.map PolicyPort.id).filter (fun i => i ∉ prior && i ∉ others)

/-- The policy `next` after the contributor's part is replaced, with the records that it had before. -/
def revise (a : Admission) (next : NetworkPolicy) (contributor : Contributor) (wanted : ExposedPorts)
    (prior : ExposedPorts) (others : List PortId) : NetworkPolicy :=
  let spec := next.spec.getD {}
  let rules := spec.ingress.getD []
  let ports := (rules.head?.bind (·.ports)).getD []
  let entries := ports.filter PolicyPort.isNumeric
  let named := ports.filter (fun p => !p.isNumeric)
  let foreign := unrecorded entries prior.ids others
  let merged := merge PolicyPort.id entries (prior.toList.map .ofExposed) (wanted.toList.map .ofExposed)
    (others ++ foreign)
  let owned := (merged.owned.map PolicyPort.id).filter (· ∉ foreign)
  let recorded := wanted.filter (fun p => p.id ∈ owned)
  let annotations := a.records.write next.metadata.annotationSet contributor.name recorded
  { metadata := { next.metadata with annotations := annotations.nonEmpty? }
    spec := some { spec with ingress := some (withPorts (merged.entries ++ named) rules) } }

/-- What to write so that the policy admits what the contributor wants. -/
def plan (a : Admission) (current : Option NetworkPolicy) (contributor : Contributor) (desired : ExposedPorts) :
    Except ParseError (Change NetworkPolicy) :=
  let wanted := desired.forwardable
  if current = none ∧ wanted.isEmpty then .ok .unchanged
  else do
    let next := current.getD a.closed
    let prior ← a.records.read next.metadata.annotationSet contributor.name
    let others ← a.records.readOthers next.metadata.annotationSet contributor.name
    return .between current (some (a.revise next contributor wanted prior (others.flatMap ExposedPorts.ids)))

def resource (a : Admission) : SharedResource := ⟨.networkPolicy, a.name, a.plan⟩

end Admission
end ServiceExposure
