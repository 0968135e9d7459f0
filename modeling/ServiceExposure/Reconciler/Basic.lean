import ServiceExposure.Error
import ServiceExposure.Settings
import ServiceExposure.Backend.Identity
/-!
# The reconciler

A reconciler brings the cluster in line with the annotations of services.  It knows the settings, the backend, and how
two questions about the cluster are answered: whether maintenance is going on, and whether a deployment is ready.
-/
namespace ServiceExposure

/-- How the questions about the cluster are answered; an answer may fail with a cause. -/
structure Questions where
  /-- Whether maintenance is going on. -/
  maintenance : Program (Except String Bool)
  /-- Whether the deployment behind a service has a ready pod. -/
  readiness : String → Program (Except String Bool)

/-- Everything needed to reconcile the services of one namespace. -/
structure Reconciler where
  settings : Settings
  backend : BackendKind
  questions : Questions

namespace Reconciler

def identity (r : Reconciler) : Identity := r.backend.identity

end Reconciler

namespace Annotation

/-- Lists the ports that a service wants exposed. -/
def exposedPorts : String := "ces-exposed-ports"

/-- Lists the HTTP paths of a service. -/
def cesServices : String := "ces-services"

/-- Holds annotations for the ingresses of a service. -/
def additionalIngressAnnotations : String := "additional-ingress-annotations"

end Annotation
end ServiceExposure
