import ServiceExposure.Port.Ownership
import ServiceExposure.Retry
/-!
# Settings

The names and paths that every reconciliation shares.
-/
namespace ServiceExposure

/-- The service that shows the maintenance page and the starting page. -/
structure StaticContent where
  service : String := "nginx-static"
  port : Int := 80
  maintenancePath : String := "/errors/503.html"
  startingPath : String := "/errors/starting.html"
deriving DecidableEq

/-- What every reconciliation shares. -/
structure Settings where
  /-- The namespace of the contributors and of the shared objects. -/
  ns : String := "ecosystem"
  ingressClass : String := "k8s-ecosystem-ces-service"
  staticContent : StaticContent := {}
  ownership : OwnershipRecords := .standard
  retry : RetryPolicy := .standard
  /-- The forwarding table for TCP. -/
  tcpServices : String := "tcp-services"
  /-- The forwarding table for UDP. -/
  udpServices : String := "udp-services"
  /-- The objects that redirect alternative host names. -/
  fqdnRedirect : String := "ces-alternative-fqdn-redirect"
deriving DecidableEq

end ServiceExposure
