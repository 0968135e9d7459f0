import ServiceExposure.Text.Basic
import ServiceExposure.Dict
/-!
# Ingress backends

Ports are forwarded and routes are configured by one of two backends.  An `Identity` tells what is particular to a
backend: its name, its controller, the annotations it listens to and the labels of its pods.
-/
namespace ServiceExposure

/-- The ingress technology in use. -/
inductive BackendKind where
  /-- Forwards ports through two ConfigMaps. -/
  | nginx
  /-- Forwards ports through route objects. -/
  | traefik
deriving DecidableEq, Inhabited

/-- What is particular to a backend. -/
structure Identity where
  name : String
  /-- The controller of the backend's ingress class. -/
  controller : String
  /-- The annotation that replaces the path of a request. -/
  rewriteKey : String
  /-- The annotation for further configuration. -/
  additionalKey : String
  /-- The labels of the backend's own pods. -/
  selector : Dict String
deriving DecidableEq

namespace BackendKind

/-- The backend that is used unless another one is asked for. -/
def standard : BackendKind := .nginx

/-- The backend of a configured name; an unknown name means the standard one. -/
def ofConfig (value : String) : BackendKind :=
  let name := Text.lower (Text.trim value)
  if name = "nginx" || name = "nginx-ingress" then .nginx
  else if name = "traefik" then .traefik
  else standard

def identity : BackendKind → Identity
  | .nginx =>
    { name := "nginx-ingress"
      controller := "k8s.io/nginx-ingress"
      rewriteKey := "nginx.ingress.kubernetes.io/rewrite-target"
      additionalKey := "nginx.ingress.kubernetes.io/configuration-snippet"
      selector := .ofList [("dogu.name", "nginx-ingress")] }
  | .traefik =>
    { name := "traefik"
      controller := "traefik.io/ingress-controller"
      rewriteKey := "traefik.ingress.kubernetes.io/router.middlewares"
      additionalKey := "traefik.ingress.kubernetes.io/router.middlewares"
      selector := .ofList [("app.kubernetes.io/name", "traefik")] }

end BackendKind

namespace Identity

/-- The selector as `k=v` terms with commas between them. -/
def selectorText (i : Identity) : String := Text.join "," (i.selector.toList.map (fun p => p.1 ++ "=" ++ p.2))

/-- The name of the objects that all contributors share. -/
def exposedName (i : Identity) : String := i.name ++ "-exposed"

end Identity
end ServiceExposure
