import ServiceExposure.Watch.GlobalConfig
import ServiceExposure.Watch.Update
import ServiceExposure.Reconciler.Basic
/-!
# The index

The index follows the services, the deployments and the global configuration of a namespace.  It keeps the latest
version of each and tells which updates a change calls for: `Index.observe` gives the new index and the updates in
order.  A change of nothing that matters calls for no update.  The shared load balancer is a Service too, but it is
written by the reconciler and never counts.
-/
namespace ServiceExposure

/-- What is known of a namespace. -/
structure Index where
  ns : String
  /-- The name of the ConfigMap with the global configuration. -/
  globalConfig : String
  /-- The name of the shared load balancer. -/
  exposedService : String
  services : Dict Service := .empty
  /-- Whether the deployments are ready. -/
  ready : Dict Bool := .empty
  config : GlobalConfig := {}
deriving DecidableEq

/-- A change in the namespace. -/
inductive Observation where
  | service (s : Service)
  | serviceGone (name : String)
  | deployment (d : Deployment)
  | deploymentGone (name : String)
  | configMap (c : ConfigMap)
  | configMapGone (name : String)
deriving DecidableEq

namespace Index

def service? (i : Index) (name : String) : Option Service := i.services.get? name

/-- The primary host name and the alternatives that are redirected to it. -/
def redirect (i : Index) : String × List AlternativeFqdn := i.config.redirect

/-- Tests whether a service declares HTTP paths. -/
def declaresPaths (s : Service) : Bool := s.metadata.annotationSet.contains Annotation.cesServices

/-- Tests whether the service of a name declares HTTP paths. -/
def hasPaths (i : Index) (name : String) : Bool := ((i.service? name).map declaresPaths).getD false

/-- The names of the services that declare HTTP paths, in order. -/
def servicesWithPaths (i : Index) : List String := i.services.keys.filter i.hasPaths

/-- The parts of a service that drive its reconciliation. -/
def relevant (s : Service) : Dict String × Option (List ServicePort) :=
  (s.metadata.annotationSet, s.spec.bind (·.ports))

/-- Takes note of a service. -/
def observeService (i : Index) (s : Service) : Index × List Update :=
  if s.name = i.exposedService then (i, [])
  else
    ({ i with services := i.services.insert s.name s },
      if (i.service? s.name).map relevant = some (relevant s) then [] else [.exposure s.name])

/-- Takes note that a service is gone. -/
def forgetService (i : Index) (name : String) : Index × List Update :=
  ({ i with services := i.services.erase name }, if i.services.contains name then [.exposure name] else [])

/-- Takes note of whether a deployment is ready; `none` when it is gone. -/
def observeReadiness (i : Index) (name : String) (ready : Option Bool) : Index × List Update :=
  ({ i with ready := match ready with
      | some b => i.ready.insert name b
      | none => i.ready.erase name },
    if i.ready.get? name = ready then [] else if i.hasPaths name then [.ingresses name] else [])

def observeConfig (i : Index) (config : GlobalConfig) : Index × List Update :=
  ({ i with config },
    (if i.config.maintenance = config.maintenance then [] else i.servicesWithPaths.map .ingresses) ++
      if i.config.redirect = config.redirect then [] else [.redirect])

def observe (i : Index) : Observation → Index × List Update
  | .service s => i.observeService s
  | .serviceGone name => i.forgetService name
  | .deployment d => i.observeReadiness d.metadata.anyName (some d.isReady)
  | .deploymentGone name => i.observeReadiness name none
  | .configMap c => if c.metadata.anyName = i.globalConfig then i.observeConfig (.ofConfigMap c) else (i, [])
  | .configMapGone name => if name = i.globalConfig then i.observeConfig {} else (i, [])

/-- The updates that reconcile everything in the index. -/
def everything (i : Index) : List Update := i.services.keys.map .exposure ++ [.redirect]

end Index
end ServiceExposure
