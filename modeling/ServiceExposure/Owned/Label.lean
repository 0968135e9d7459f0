/-!
# Labels of generated objects

A generated object says in a label which service it was generated for.
-/
namespace ServiceExposure
namespace Label

/-- Names the service that a route or a middleware was generated for. -/
def exposedService : String := "k8s.cloudogu.com/exposed-service"

/-- Names the service that declared the path of an ingress. -/
def cesServiceOwner : String := "k8s.cloudogu.com/ces-service-owner"

end Label
end ServiceExposure
