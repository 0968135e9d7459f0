import ServiceExposure.Reconciler.Basic
import ServiceExposure.Watch.GlobalConfig
/-!
# Answers from the cluster

Whether maintenance is going on is read from the global configuration; without one there is no maintenance.  Whether a
deployment is ready is read from the deployment; a service without a deployment of its own counts as ready.
-/
namespace ServiceExposure
namespace Questions

/-- Reads the maintenance flag from the global configuration of a name. -/
def clusterMaintenance (globalConfig : String) : Program (Except String Bool) :=
  .call (.get .configMap globalConfig) (fun reply => .done (match reply with
    | .ok none => .ok false
    | .ok (some (c : ConfigMap)) => .ok (GlobalConfig.ofConfigMap c).maintenance
    | .error why => .error why.message))

/-- Reads the readiness of a deployment. -/
def clusterReadiness (deployment : String) : Program (Except String Bool) :=
  .call (.get .deployment deployment) (fun reply => .done (match reply with
    | .ok none => .ok true
    | .ok (some (d : Deployment)) => .ok d.isReady
    | .error why => if why = Refusal.notFound then .ok true else .error why.message))

/-- Both answers, read from the cluster. -/
def ofCluster (globalConfig : String) : Questions := ⟨clusterMaintenance globalConfig, clusterReadiness⟩

end Questions
end ServiceExposure
