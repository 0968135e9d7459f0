import ServiceExposure.Reconciler.Routes
import ServiceExposure.Http.Fqdn
import ServiceExposure.Text.Pattern
/-!
# Redirecting alternative hosts

An ingress receives the requests for the alternative hosts; an annotation, or a middleware that it refers to, turns its
routes into redirects to the primary host.  The ingress refers to the middleware, so the middleware comes first and
goes last.
-/
namespace ServiceExposure

namespace Redirect

/-- Matches any address on one of the hosts; the second group is what follows the host. -/
def pattern (hosts : List String) : Pattern :=
  Pattern.literal "http" ++ .optional 's' :: Pattern.literal "://" ++ [.oneOf hosts, .rest]

/-- Replaces the host of any address on one of the alternatives by the primary one and keeps what follows the host. -/
def regex (primary : String) (alternatives : List AlternativeFqdn) : RedirectRegex :=
  { regex := (pattern (AlternativeFqdn.hosts alternatives)).render
    replacement := "https://" ++ primary ++ "$\x7b2\x7d"
    permanent := true }

def tls (alternatives : List AlternativeFqdn) : List IngressTls :=
  (AlternativeFqdn.groups alternatives).map (fun g => { hosts := some g.2, secretName := g.1 })

/-- The ingress that receives the requests for the alternatives, if there are any.  It routes to the static content;
the annotations make redirects of its routes. -/
def ingress? (s : Settings) (alternatives : List AlternativeFqdn) (annotations : Dict String) : Option Ingress :=
  if alternatives = [] then none
  else some
    { metadata := { Metadata.named s.ns s.fqdnRedirect with annotations := annotations.nonEmpty? }
      spec := some
        { ingressClassName := some s.ingressClass
          tls := some (tls alternatives)
          rules := some ((AlternativeFqdn.hosts alternatives).map (fun host =>
            { host := some host, paths := some [.below "/" s.staticContent.service s.staticContent.port] })) } }

/-- The middleware that redirects the alternatives, if there are any. -/
def middleware? (s : Settings) (primary : String) (alternatives : List AlternativeFqdn) : Option Middleware :=
  if alternatives = [] then none
  else some
    { metadata := .named s.ns s.fqdnRedirect, spec := { redirectRegex := some (regex primary alternatives) } }

/-- The annotations that make redirects of the routes of an ingress by themselves. -/
def plainAnnotations (primary : String) : Dict String :=
  .ofList
    [("nginx.ingress.kubernetes.io/permanent-redirect", "https://" ++ primary ++ "$request_uri"),
     ("nginx.ingress.kubernetes.io/permanent-redirect-code", "308")]

end Redirect

namespace Reconciler

/-- The annotations of the ingress that redirects to the primary host. -/
def redirectAnnotations (r : Reconciler) (primary : String) : Dict String :=
  match r.backend with
  | .nginx => Redirect.plainAnnotations primary
  | .traefik => .ofList [(r.identity.additionalKey, r.middlewareRef r.settings.fqdnRedirect)]

/-- The ingress that redirects to the primary host, if there are alternatives. -/
def redirectIngress? (r : Reconciler) (primary : String) (alternatives : List AlternativeFqdn) : Option Ingress :=
  Redirect.ingress? r.settings alternatives (r.redirectAnnotations primary)

/-- Redirects the alternatives to the primary host; without alternatives the redirect is removed. -/
def redirect (r : Reconciler) (primary : String) (alternatives : List AlternativeFqdn) : Action Unit := do
  let s := r.settings
  match r.backend, r.redirectIngress? primary alternatives, Redirect.middleware? s primary alternatives with
  | .nginx, some ingress, _ =>
    let _ ← Owned.apply s.retry .ingress ingress
  | .nginx, none, _ =>
    let _ ← Owned.deleteIfExists .ingress s.fqdnRedirect
  | .traefik, some ingress, some middleware =>
    let _ ← Owned.apply s.retry .middleware middleware
    let _ ← Owned.apply s.retry .ingress ingress
  | .traefik, _, _ =>
    let _ ← Owned.deleteIfExists .ingress s.fqdnRedirect
    let _ ← Owned.deleteIfExists .middleware s.fqdnRedirect

end Reconciler
end ServiceExposure
