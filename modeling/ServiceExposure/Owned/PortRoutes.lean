import ServiceExposure.Owned.Apply
import ServiceExposure.Owned.Label
import ServiceExposure.Shared.Resource
/-!
# One route per exposed port

Where ports are forwarded by route objects, each port of a contributor has a route of its own from the entry point
`<protocol>-<port>`.  A route belongs to the service that its label names.  An entry point that a route of somebody
else starts from is left alone.
-/
namespace ServiceExposure

/-- What a route does: it leads an entry point to `<namespace>/<service>:<port>`. -/
structure RouteEntry where
  entryPoint : String
  target : String
deriving DecidableEq

namespace PortRoutes

/-- The kinds of routes, one for each protocol that can be forwarded. -/
inductive Transport where
  | tcp
  | udp
deriving DecidableEq

namespace Transport

def protocol : Transport → Protocol
  | .tcp => .tcp
  | .udp => .udp

/-- The protocol in small letters, as it occurs in the names of routes and entry points. -/
def name : Transport → String
  | .tcp => "tcp"
  | .udp => "udp"

def kind : Transport → Kind
  | .tcp => .tcpRoute
  | .udp => .udpRoute

/-- A route as an object of its kind. -/
def toObject : (t : Transport) → PortRoute → t.kind.Object
  | .tcp => fun r => r
  | .udp => fun r => r

/-- An object of the kind as a route. -/
def ofObject : (t : Transport) → t.kind.Object → PortRoute
  | .tcp => fun r => r
  | .udp => fun r => r

/-- Every TCP connection matches, whatever host it asks for; datagrams are not matched at all. -/
def criterion : Transport → Option String
  | .tcp => some "HostSNI(`*`)"
  | .udp => none

end Transport

/-- What a route does, unless it lacks an entry point or a service. -/
def entry? (r : PortRoute) : Option RouteEntry :=
  match r.entryPoints, r.service? with
  | entryPoint :: _, some service =>
    let ns := service.ns.getD (r.metadata.ns.getD "")
    some ⟨entryPoint, ns ++ "/" ++ service.name ++ ":" ++ toString service.port⟩
  | _, _ => none

/-- Tests whether a route was generated for a service. -/
def belongsTo (service : String) (r : PortRoute) : Bool := r.metadata.labelSet.get? Label.exposedService = some service

/-- The route of a contributor's port. -/
def route (t : Transport) (owner : Contributor) (port : ExposedPort) : PortRoute :=
  { metadata :=
      { Metadata.named owner.ns (owner.name ++ "-" ++ toString port.port ++ "-" ++ t.name) with
        labels := some (.ofList [(Label.exposedService, owner.name)]) }
    entryPoints := [t.name ++ "-" ++ toString port.port]
    rules := [{ criterion := t.criterion, services := [{ name := owner.name, port := port.targetPort }] }] }

/-- The routes that a contributor wants. -/
def wanted (t : Transport) (owner : Contributor) (ports : ExposedPorts) : List PortRoute :=
  (ports.withProtocol t.protocol).toList.map (route t owner)

/-- The wanted routes that the contributor may have, beside the `current` ones. -/
def granted (owner : Contributor) (current wanted : List PortRoute) : List PortRoute :=
  let entries := current.filterMap entry?
  let prior := (current.filter (belongsTo owner.name)).filterMap entry?
  let claimed := ((current.filter (fun r => !belongsTo owner.name r)).filterMap entry?).map RouteEntry.entryPoint
  let owned := (merge RouteEntry.entryPoint entries prior (wanted.filterMap entry?) claimed).owned
  wanted.filter (fun r => match entry? r with
    | some e => e ∈ owned
    | none => false)

/-- The names of the contributor's routes that are not among the kept ones. -/
def stale (owner : Contributor) (current kept : List PortRoute) : List String :=
  ((current.filter (belongsTo owner.name)).map (·.metadata.anyName)).filter
    (fun name => name ∉ kept.map (·.metadata.anyName))

/-- Brings the routes of one transport to forward exactly what the contributor wants.  Routes it no longer wants go
first. -/
def converge (ns : String) (retry : RetryPolicy) (t : Transport) (owner : Contributor) (ports : ExposedPorts) :
    Action Unit := do
  let objects : List t.kind.Object ← Action.request (.list t.kind Label.exposedService) ns
  let current := objects.map t.ofObject
  let kept := granted owner current (wanted t owner ports)
  Action.forEach (fun name => do let _ ← Owned.deleteIfExists t.kind name) (stale owner current kept)
  Action.forEach (fun r => do let _ ← Owned.apply retry t.kind (t.toObject r)) kept

end PortRoutes
end ServiceExposure
