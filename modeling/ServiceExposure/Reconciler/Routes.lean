import ServiceExposure.Reconciler.Basic
import ServiceExposure.Http.CesService
import ServiceExposure.Owned.Apply
import ServiceExposure.Owned.Label
/-!
# Configuring the route of an ingress

A route can have its path replaced or rewritten and can ask for uncompressed responses.  One backend is told
so in annotations of the ingress.  The other one takes it from middlewares, up to three for each ingress, which an
annotation of the ingress refers to.
-/
namespace ServiceExposure

/-- How requests of one route are changed. -/
structure RouteConfig where
  /-- The path that replaces the request's. -/
  rewriteTarget : Option String := none
  /-- Whether servers are asked for uncompressed responses. -/
  identityEncoding : Bool := false
  rewrite : Option ServiceRewrite := none
deriving DecidableEq

/-- What a middleware of a route is for. -/
inductive MiddlewarePurpose where
  | headers
  | pathRegex
  | replacePath
deriving DecidableEq

namespace MiddlewarePurpose

/-- All purposes, in the order in which a route refers to its middlewares. -/
def all : List MiddlewarePurpose := [.headers, .pathRegex, .replacePath]

/-- The name of the middleware of an ingress. -/
def middlewareName (ingress : String) : MiddlewarePurpose → String
  | .headers => ingress ++ "-headers"
  | .pathRegex => ingress ++ "-path-regex"
  | .replacePath => ingress ++ "-replace-path"

/-- What the middleware does for a route, if the route needs it. -/
def spec? (c : RouteConfig) : MiddlewarePurpose → Option MiddlewareSpec
  | .headers => if c.identityEncoding then some { headers := some (.ofList [("Accept-Encoding", "identity")]) } else none
  | .pathRegex => c.rewrite.map (fun w => { replacePathRegex := some ⟨w.pathRegex, w.pathReplacement⟩ })
  | .replacePath => c.rewriteTarget.map (fun path => { replacePath := some path })

end MiddlewarePurpose

namespace Reconciler

/-- Asks servers for uncompressed responses. -/
def identityEncodingDirective : String := "proxy_set_header Accept-Encoding \"identity\";"

/-- The annotations that configure a route by themselves. -/
def plainAnnotations (i : Identity) (c : RouteConfig) : Dict String :=
  let snippet := (if c.identityEncoding then [identityEncodingDirective] else []) ++
    (c.rewrite.map ServiceRewrite.nginxDirective).toList
  .ofList ((c.rewriteTarget.map (fun path => (i.rewriteKey, path))).toList ++
    if snippet = [] then [] else [(i.additionalKey, Text.join "\n" snippet)])

/-- How an ingress refers to a middleware. -/
def middlewareRef (r : Reconciler) (name : String) : String := r.settings.ns ++ "-" ++ name ++ "@kubernetescrd"

/-- The middleware of an ingress of a service. -/
def routeMiddleware (r : Reconciler) (owner : Service) (name : String) (spec : MiddlewareSpec) : Middleware :=
  { metadata :=
      { Metadata.named r.settings.ns name with
        labels := some (.ofList [(Label.exposedService, owner.name)])
        ownerReferences := owner.ownerReference?.map (fun o => [o]) }
    spec }

/-- Writes the middleware of one purpose, or deletes it where the route does not need it; gives the reference to it. -/
def applyMiddleware (r : Reconciler) (owner : Service) (ingress : String) (c : RouteConfig) (p : MiddlewarePurpose) :
    Action (List String) := do
  let name := p.middlewareName ingress
  match p.spec? c with
  | none =>
    let _ ← Owned.deleteIfExists .middleware name
    return []
  | some spec =>
    let _ ← Owned.apply r.settings.retry .middleware (r.routeMiddleware owner name spec)
    return [r.middlewareRef name]

/-- Writes the middlewares that a route needs and deletes the others; gives the references. -/
def applyMiddlewares (r : Reconciler) (owner : Service) (ingress : String) (c : RouteConfig) :
    List MiddlewarePurpose → Action (List String)
  | [] => return []
  | p :: ps => do
    let ref ← r.applyMiddleware owner ingress c p
    let refs ← r.applyMiddlewares owner ingress c ps
    return ref ++ refs

/-- The annotations of the ingress of a service that has its route configured so. -/
def routeAnnotations (r : Reconciler) (owner : Service) (ingress : String) (c : RouteConfig) :
    Action (Dict String) :=
  match r.backend with
  | .nginx => return plainAnnotations r.identity c
  | .traefik => do
    let refs ← r.applyMiddlewares owner ingress c MiddlewarePurpose.all
    return if refs = [] then .empty else .ofList [(r.identity.additionalKey, Text.join "," refs)]

/-- Removes what a route has besides the annotations of its ingress. -/
def removeRoute (r : Reconciler) (ingress : String) : Action Unit :=
  match r.backend with
  | .nginx => return ()
  | .traefik =>
    Action.forEach (fun (p : MiddlewarePurpose) => do
      let _ ← Owned.deleteIfExists .middleware (p.middlewareName ingress)) MiddlewarePurpose.all

end Reconciler
end ServiceExposure
