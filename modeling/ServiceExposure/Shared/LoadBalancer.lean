import ServiceExposure.Shared.Resource
/-!
# The Service that publishes every exposed port

A port of the load balancer belongs to the contributor that it is named after: `<service>-<port>` for TCP and
`<service>-<port>-udp` for UDP.  What the cluster has allocated for a port is kept as long as the port is.
-/
namespace ServiceExposure

namespace ServicePort

/-- The identity of a port; TCP where no protocol is said. -/
def id (p : ServicePort) : PortId := ⟨Protocol.ofName (p.protocol.getD "TCP"), p.port⟩

end ServicePort

/-- The Service that publishes every exposed port. -/
structure LoadBalancer where
  name : String
  ns : String
  /-- The pods that receive the traffic. -/
  selector : Dict String

namespace LoadBalancer

/-- The name of a contributor's port. -/
def portName (service : String) (port : PortId) : String :=
  match port.protocol with
  | .udp => service ++ "-" ++ toString port.port ++ "-udp"
  | _ => service ++ "-" ++ toString port.port

/-- Tests whether a port is named after a contributor. -/
def isNamedAfter (service name : String) : Bool :=
  match Text.dropStem (service ++ "-") name with
  | some rest => (Decimal.readUnsigned? 65535 ((Text.dropTail "-udp" rest).getD rest)).isSome
  | none => false

/-- Tests whether a port belongs to a contributor. -/
def owns (service : String) (p : ServicePort) : Bool :=
  match p.name with
  | some name => isNamedAfter service name
  | none => false

/-- The port that a contributor wants, with what was allocated for it before. -/
def wantedPort (service : String) (prior : List ServicePort) (p : ExposedPort) : ServicePort :=
  let port : ServicePort :=
    { name := some (portName service p.id)
      protocol := some p.protocol.name
      port := p.port
      targetPort := some (.number p.port) }
  match prior.find? (fun e => e.name = port.name ∧ e.id = p.id) with
  | some existing => { port with nodePort := existing.nodePort, appProtocol := existing.appProtocol }
  | none => port

/-- The load balancer with its first ports. -/
def opened (l : LoadBalancer) (ports : List ServicePort) : Service :=
  { metadata := .named l.ns l.name
    spec := some { publishing := some "LoadBalancer", selector := some l.selector, ports := some ports } }

/-- The ports after the contributor's are replaced. -/
def revise (entries : List ServicePort) (contributor : Contributor) (wanted : ExposedPorts) : List ServicePort :=
  let prior := entries.filter (owns contributor.name)
  let claimed := (entries.filter (fun p => !owns contributor.name p)).map ServicePort.id
  (merge ServicePort.id entries prior (wanted.toList.map (wantedPort contributor.name prior)) claimed).entries

/-- The load balancer with the given ports; one without ports is none. -/
def withPorts (l : LoadBalancer) (current : Option Service) (ports : List ServicePort) : Option Service :=
  if ports = [] then none
  else match current with
    | none => some (l.opened ports)
    | some s => some { s with spec := some { s.spec.getD {} with ports := some ports } }

/-- What to write so that the load balancer publishes what the contributor wants. -/
def plan (l : LoadBalancer) (current : Option Service) (contributor : Contributor) (desired : ExposedPorts) :
    Change Service :=
  let entries := (current.map Service.ports).getD []
  .between current (l.withPorts current (revise entries contributor desired.forwardable))

def resource (l : LoadBalancer) : SharedResource :=
  ⟨.service, l.name, fun current contributor desired => .ok (l.plan current contributor desired)⟩

end LoadBalancer
end ServiceExposure
