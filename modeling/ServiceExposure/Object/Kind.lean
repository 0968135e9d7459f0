import ServiceExposure.Object.Deployment
import ServiceExposure.Object.Ingress
import ServiceExposure.Object.Traefik
/-!
# Kinds of objects

`Kind` lists the kinds of objects that are read or written, and `Kind.Object` is the type of the objects of a kind.
What all kinds have in common is said once here: their names, their metadata, and their JSON form.
-/
namespace ServiceExposure

inductive Kind where
  | service
  | configMap
  | networkPolicy
  | ingress
  | middleware
  | tcpRoute
  | udpRoute
  | deployment
deriving DecidableEq, Inhabited

namespace Kind

def all : List Kind :=
  [.service, .configMap, .networkPolicy, .ingress, .middleware, .tcpRoute, .udpRoute, .deployment]

def name : Kind → String
  | .service => "Service"
  | .configMap => "ConfigMap"
  | .networkPolicy => "NetworkPolicy"
  | .ingress => "Ingress"
  | .middleware => "Middleware"
  | .tcpRoute => "IngressRouteTCP"
  | .udpRoute => "IngressRouteUDP"
  | .deployment => "Deployment"

instance : ToString Kind := ⟨name⟩

/-- The version of the interface that a kind belongs to. -/
def apiVersion : Kind → String
  | .service | .configMap => "v1"
  | .deployment => "apps/v1"
  | .networkPolicy | .ingress => "networking.k8s.io/v1"
  | .middleware | .tcpRoute | .udpRoute => "traefik.io/v1alpha1"

def ofName? (n : String) : Option Kind := all.find? (fun k => k.name = n)

theorem ofName?_name (k : Kind) : ofName? k.name = some k := by cases k <;> decide

def Object : Kind → Type
  | .service => Service
  | .configMap => ConfigMap
  | .networkPolicy => NetworkPolicy
  | .ingress => Ingress
  | .middleware => Middleware
  | .tcpRoute | .udpRoute => PortRoute
  | .deployment => Deployment

instance : (k : Kind) → DecidableEq k.Object
  | .service => inferInstanceAs (DecidableEq Service)
  | .configMap => inferInstanceAs (DecidableEq ConfigMap)
  | .networkPolicy => inferInstanceAs (DecidableEq NetworkPolicy)
  | .ingress => inferInstanceAs (DecidableEq Ingress)
  | .middleware => inferInstanceAs (DecidableEq Middleware)
  | .tcpRoute => inferInstanceAs (DecidableEq PortRoute)
  | .udpRoute => inferInstanceAs (DecidableEq PortRoute)
  | .deployment => inferInstanceAs (DecidableEq Deployment)

def metadata : (k : Kind) → k.Object → Metadata
  | .service => Service.metadata
  | .configMap => ConfigMap.metadata
  | .networkPolicy => NetworkPolicy.metadata
  | .ingress => Ingress.metadata
  | .middleware => Middleware.metadata
  | .tcpRoute => PortRoute.metadata
  | .udpRoute => PortRoute.metadata
  | .deployment => Deployment.metadata

def withMetadata : (k : Kind) → k.Object → Metadata → k.Object
  | .service => fun o m => { o with metadata := m : Service }
  | .configMap => fun o m => { o with metadata := m : ConfigMap }
  | .networkPolicy => fun o m => { o with metadata := m : NetworkPolicy }
  | .ingress => fun o m => { o with metadata := m : Ingress }
  | .middleware => fun o m => { o with metadata := m : Middleware }
  | .tcpRoute => fun o m => { o with metadata := m : PortRoute }
  | .udpRoute => fun o m => { o with metadata := m : PortRoute }
  | .deployment => fun o m => { o with metadata := m : Deployment }

@[simp] theorem metadata_withMetadata (k : Kind) (o : k.Object) (m : Metadata) :
    k.metadata (k.withMetadata o m) = m := by cases k <;> rfl

@[simp] theorem withMetadata_metadata (k : Kind) (o : k.Object) : k.withMetadata o (k.metadata o) = o := by
  cases k <;> rfl

def nameOf (k : Kind) (o : k.Object) : String := (k.metadata o).anyName

def ofJson? (k : Kind) (j : Json) : Option k.Object :=
  (Fields.ofJson? j).bind fun d =>
    match k with
    | .service => Service.ofFields? d
    | .configMap => ConfigMap.ofFields? d
    | .networkPolicy => NetworkPolicy.ofFields? d
    | .ingress => Ingress.ofFields? d
    | .middleware => Middleware.ofFields? d
    | .tcpRoute => PortRoute.ofFields? RouteRule.ofTcpJson? d
    | .udpRoute => PortRoute.ofFields? RouteRule.ofUdpJson? d
    | .deployment => Deployment.ofFields? d

def toFields : (k : Kind) → k.Object → List (String × Option Json) × Dict Json
  | .service => Service.toFields
  | .configMap => ConfigMap.toFields
  | .networkPolicy => NetworkPolicy.toFields
  | .ingress => Ingress.toFields
  | .middleware => Middleware.toFields
  | .tcpRoute => PortRoute.toFields
  | .udpRoute => PortRoute.toFields
  | .deployment => Deployment.toFields

def toJson (k : Kind) (o : k.Object) : Json :=
  let (named, others) := k.toFields o
  Fields.object (("apiVersion", some (.str k.apiVersion)) :: ("kind", some (.str k.name)) :: named) others

end Kind

/-- An object together with its kind. -/
structure AnyObject where
  kind : Kind
  object : kind.Object

namespace AnyObject

def name (o : AnyObject) : String := o.kind.nameOf o.object

/-- Reads an object of the kind that it says it is. -/
def ofJson? (j : Json) : Option AnyObject := do
  let d ← Fields.ofJson? j
  let kind ← Kind.ofName? (← Fields.required d "kind" Json.text?)
  return ⟨kind, ← kind.ofJson? j⟩

end AnyObject
end ServiceExposure
