import ServiceExposure.Reconciler.Basic
import ServiceExposure.Shared.Admission
import ServiceExposure.Shared.LoadBalancer
import ServiceExposure.Shared.ForwardingTable
import ServiceExposure.Owned.PortRoutes
/-!
# Exposing the ports of a service

The exposed ports of a service go through three places, one after the other: the policy admits their traffic, the load
balancer publishes them, and the backend forwards them.  A service that is gone wants no ports.
-/
namespace ServiceExposure

namespace Service

/-- The ports that a service wants exposed.  Each must be a port of the service. -/
def exposedPorts (s : Service) : Except Error ExposedPorts :=
  match s.metadata.annotationSet.get? Annotation.exposedPorts with
  | none => .ok .empty
  | some text =>
    match ExposedPorts.parse Annotation.exposedPorts text with
    | .error e => .error (.parse e)
    | .ok ports =>
      match ports.toList.find? (fun p => p.port ∉ s.ports.map ServicePort.port) with
      | some p => .error (.undeclaredPort s.name p.port)
      | none => .ok ports

end Service

namespace Reconciler

/-- The policy that admits traffic to the exposed ports. -/
def admission (r : Reconciler) : Admission :=
  ⟨r.identity.exposedName, r.settings.ns, r.identity.selector, r.settings.ownership⟩

/-- The Service that publishes the exposed ports. -/
def loadBalancer (r : Reconciler) : LoadBalancer := ⟨r.identity.exposedName, r.settings.ns, r.identity.selector⟩

/-- The forwarding table for TCP. -/
def tcpTable (r : Reconciler) : ForwardingTable := ⟨r.settings.tcpServices, r.settings.ns, .tcp⟩

/-- The forwarding table for UDP. -/
def udpTable (r : Reconciler) : ForwardingTable := ⟨r.settings.udpServices, r.settings.ns, .udp⟩

/-- Forwards to the owner exactly those of the ports that can be forwarded. -/
def materialize (r : Reconciler) (owner : Contributor) (ports : ExposedPorts) : Action Unit := do
  let ports := ports.forwardable
  match r.backend with
  | .nginx =>
    r.tcpTable.resource.converge r.settings.retry owner ports
    r.udpTable.resource.converge r.settings.retry owner ports
  | .traefik =>
    PortRoutes.converge r.settings.ns r.settings.retry .tcp owner ports
    PortRoutes.converge r.settings.ns r.settings.retry .udp owner ports

/-- Forwards nothing to the owner any more. -/
def removePorts (r : Reconciler) (owner : Contributor) : Action Unit := r.materialize owner .empty

/-- Brings policy, load balancer and forwarding to hold exactly these ports on behalf of the contributor. -/
def convergePorts (r : Reconciler) (contributor : Contributor) (ports : ExposedPorts) : Action Unit := do
  r.admission.resource.converge r.settings.retry contributor ports
  r.loadBalancer.resource.converge r.settings.retry contributor ports
  r.materialize contributor ports

/-- The contributor that a service is. -/
def contributorOf (r : Reconciler) (s : Service) : Contributor := ⟨s.metadata.ns.getD r.settings.ns, s.name⟩

/-- Exposes exactly the ports that a service wants. -/
def expose (r : Reconciler) (s : Service) : Action Unit := do
  let ports ← ExceptT.mk (.done s.exposedPorts)
  r.convergePorts (r.contributorOf s) ports

/-- Takes back everything that a service contributed. -/
def unexpose (r : Reconciler) (contributor : Contributor) : Action Unit := r.convergePorts contributor .empty

end Reconciler
end ServiceExposure
