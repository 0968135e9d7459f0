import ServiceExposure.Reconciler.Routes
/-!
# The ingresses of a service

Every HTTP path that a service declares becomes an ingress named after it.  During maintenance, and until the
deployment behind the service is ready, the ingress leads to a static page; afterwards it leads to the service.  What
every path needs is worked out before anything is written, so a malformed path leaves everything as it is.
-/
namespace ServiceExposure

/-- Where the ingresses of a service lead. -/
inductive RoutingState where
  | maintenance
  | starting
  | ready
deriving DecidableEq, Inhabited

/-- The ingress of a path, before it has its annotations. -/
structure PlannedIngress where
  path : CesService
  /-- The service that requests go to. -/
  target : String
  port : Int
  config : RouteConfig
deriving DecidableEq

namespace Reconciler

/-- Asks a question and reports a failure as `error` says. -/
def ask (p : Program (Except String Bool)) (error : String → Error) : Action Bool :=
  ExceptT.mk (p >>= fun answer => .done (answer.mapError error))

/-- Where the ingresses of a service lead.  The static content stays reachable during maintenance, for it shows the
maintenance page. -/
def state (r : Reconciler) (service : String) : Action RoutingState := do
  let maintenance ←
    if service = r.settings.staticContent.service then pure false
    else ask r.questions.maintenance .maintenance
  if maintenance then return .maintenance
  else
    let ready ← ask (r.questions.readiness service) (.readiness service)
    return if ready then .ready else .starting

/-- The ingress that shows a static page in place of a path. -/
def staticPage (r : Reconciler) (path : CesService) (page : String) : PlannedIngress :=
  let static := r.settings.staticContent
  { path, target := static.service, port := static.port, config := { rewriteTarget := some page } }

/-- The ingress that a path needs in a state. -/
def plan (r : Reconciler) (state : RoutingState) (service : String) (path : CesService) :
    Except ParseError PlannedIngress :=
  match state with
  | .maintenance => .ok (r.staticPage path r.settings.staticContent.maintenancePath)
  | .starting => .ok (r.staticPage path r.settings.staticContent.startingPath)
  | .ready => do
    let rewrite ← path.serviceRewrite
    return {
      path
      target := service
      port := path.port
      config :=
        { rewriteTarget := if path.needsRewriteTarget then some path.pass else none
          identityEncoding := true
          rewrite } }

/-- The ingress of a path of a service. -/
def ingressOf (r : Reconciler) (owner : Service) (p : PlannedIngress) (annotations : Dict String) : Ingress :=
  { metadata :=
      { Metadata.named r.settings.ns p.path.name with
        labels := some (.ofList [(Label.cesServiceOwner, owner.name)])
        annotations := annotations.nonEmpty?
        ownerReferences := owner.ownerReference?.map (fun o => [o]) }
    spec := some
      { ingressClassName := some r.settings.ingressClass
        rules := some [{ paths := some [.below p.path.location p.target p.port] }] } }

/-- Configures the route of a planned ingress and writes the ingress, with further annotations. -/
def applyIngress (r : Reconciler) (owner : Service) (further : Dict String) (p : PlannedIngress) : Action Unit := do
  let annotations ← r.routeAnnotations owner p.path.name p.config
  let _ ← Owned.apply r.settings.retry .ingress (r.ingressOf owner p (annotations.union further))

/-- Deletes an ingress with everything that its route has.  The ingress goes last, so that a failure on the way is
made up for. -/
def dropIngress (r : Reconciler) (name : String) : Action Unit := do
  r.removeRoute name
  let _ ← Owned.deleteIfExists .ingress name

/-- The HTTP paths that a service declares. -/
def pathsOf (s : Service) : Except ParseError (List CesService) :=
  match s.metadata.annotationSet.get? Annotation.cesServices with
  | some text => CesService.parseList Annotation.cesServices text
  | none => .ok []

/-- The annotations that a service wants on its ingresses. -/
def furtherAnnotationsOf (s : Service) : Except ParseError (Dict String) :=
  match s.metadata.annotationSet.get? Annotation.additionalIngressAnnotations with
  | some text =>
    match textMap? text with
    | some d => .ok d
    | none => .error (.malformed Annotation.additionalIngressAnnotations)
  | none => .ok .empty

/-- The ingresses that the paths of a service need, and the further annotations that they get. -/
def planAll (r : Reconciler) (s : Service) (paths : List CesService) (further : Dict String) :
    Action (List PlannedIngress × Dict String) :=
  if paths = [] then return ([], .empty)
  else do
    let state ← r.state s.name
    let planned ← Action.ofParse (paths.mapM (r.plan state s.name))
    return (planned, if state = .ready then further else .empty)

/-- Selects the ingresses that a service owns. -/
def ownedSelector (service : String) : String := Label.cesServiceOwner ++ "=" ++ service

/-- Writes the ingresses of a service and deletes those that it no longer declares. -/
def updateIngresses (r : Reconciler) (s : Service) : Action Unit := do
  let paths ← Action.ofParse (pathsOf s)
  let further ← Action.ofParse (furtherAnnotationsOf s)
  let (planned, further) ← r.planAll s paths further
  Action.forEach (r.applyIngress s further) planned
  let existing : List Ingress ← Action.request (.list .ingress (ownedSelector s.name)) (ownedSelector s.name)
  Action.forEach r.dropIngress
    ((existing.map (·.metadata.anyName)).filter (fun name => name ∉ paths.map CesService.name))

end Reconciler
end ServiceExposure
