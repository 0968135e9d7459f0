import ServiceExposure.CommandLine.LogFilter
import ServiceExposure.CommandLine.SocketAddress
import ServiceExposure.Text.Duration
/-!
# Options

What can be said on the command line: how services are exposed, how the cluster is reached, what is logged, and where
the controller can be asked about itself.  Every option has a default.  `Options.set` reads the value of one option.
-/
namespace ServiceExposure

inductive LogFormat where
  | plain
  | json
deriving DecidableEq

namespace LogFormat

def name : LogFormat → String
  | .plain => "plain"
  | .json => "json"

def ofName? (n : String) : Option LogFormat := [LogFormat.plain, .json].find? (fun f => f.name = n)

end LogFormat

/-- How the cluster is reached; what is not said is found out on the spot. -/
structure Connection where
  /-- The file that describes clusters and their users. -/
  kubeconfig : Option String := none
  cluster : Option String := none
  context : Option String := none
  user : Option String := none
  /-- The user on whose behalf requests are made. -/
  onBehalfOfUser : Option String := none
  /-- The group on whose behalf requests are made. -/
  onBehalfOfGroup : Option String := none
  /-- How long it may take until an answer begins. -/
  headersTimeoutNs : Int := 9000000000
deriving DecidableEq

structure Options where
  /-- The namespace of the services and of the shared objects. -/
  ns : String := "ecosystem"
  ingressBackend : String := "nginx"
  ingressClass : String := "k8s-ecosystem-ces-service"
  /-- The ConfigMap with the global configuration. -/
  globalConfig : String := "global-config"
  staticContentService : String := "nginx-static"
  staticContentPort : Int := 80
  maintenancePath : String := "/errors/503.html"
  startingPath : String := "/errors/starting.html"
  /-- How often a write is attempted that keeps losing races. -/
  conflictRetries : Nat := 5
  reconcileTimeoutMs : Nat := 10000
  requeueDelayMs : Nat := 5000
  logLevel : LogFilter := [{ target := some "exposure_controller", level := .info }, { level := .warn }]
  logFormat : LogFormat := .plain
  connection : Connection := {}
  /-- Where the controller answers questions about itself. -/
  adminAddress : SocketAddress := ⟨.ipv4 #v[0, 0, 0, 0], 8080⟩
deriving DecidableEq

inductive UsageError where
  /-- A word is neither an option nor the value of one. -/
  | unknownArgument
  | missingValue
  | repeated
  /-- An option does not take this value. -/
  | badValue
deriving DecidableEq

namespace UsageError

def message : UsageError → String
  | .unknownArgument => "unknown argument"
  | .missingValue => "an option has no value"
  | .repeated => "an option is given twice"
  | .badValue => "an option does not take its value"

end UsageError

inductive OptionName where
  | ns
  | ingressBackend
  | ingressClass
  | globalConfig
  | staticContentService
  | staticContentPort
  | maintenancePath
  | startingPath
  | conflictRetries
  | reconcileTimeoutMs
  | requeueDelayMs
  | logLevel
  | logFormat
  | kubeconfig
  | cluster
  | context
  | user
  | onBehalfOfUser
  | onBehalfOfGroup
  | headersTimeout
  | adminAddress
deriving DecidableEq

namespace OptionName

def all : List OptionName :=
  [.ns, .ingressBackend, .ingressClass, .globalConfig, .staticContentService, .staticContentPort, .maintenancePath,
   .startingPath, .conflictRetries, .reconcileTimeoutMs, .requeueDelayMs, .logLevel, .logFormat, .kubeconfig, .cluster,
   .context, .user, .onBehalfOfUser, .onBehalfOfGroup, .headersTimeout, .adminAddress]

/-- How an option is written, after the two hyphens. -/
def written : OptionName → String
  | .ns => "namespace"
  | .ingressBackend => "ingress-backend"
  | .ingressClass => "ingress-class"
  | .globalConfig => "global-config"
  | .staticContentService => "static-content-service"
  | .staticContentPort => "static-content-port"
  | .maintenancePath => "maintenance-path"
  | .startingPath => "starting-path"
  | .conflictRetries => "conflict-retries"
  | .reconcileTimeoutMs => "reconcile-timeout-ms"
  | .requeueDelayMs => "requeue-delay-ms"
  | .logLevel => "log-level"
  | .logFormat => "log-format"
  | .kubeconfig => "kubeconfig"
  | .cluster => "cluster"
  | .context => "context"
  | .user => "user"
  | .onBehalfOfUser => "as"
  | .onBehalfOfGroup => "as-group"
  | .headersTimeout => "kube-api-response-headers-timeout"
  | .adminAddress => "admin-addr"

def ofWritten? (name : String) : Option OptionName := all.find? (fun o => o.written = name)

theorem ofWritten?_written (o : OptionName) : ofWritten? o.written = some o := by cases o <;> decide

end OptionName

namespace Connection

/-- The connection by a file; a file has a name. -/
def withKubeconfig (c : Connection) (path : String) : Except UsageError Connection :=
  if path = "" then .error .missingValue else .ok { c with kubeconfig := some path }

end Connection

namespace Options

/-- A value that has been read; a value that cannot be read is a bad one. -/
def accepted {α : Type} : Option α → Except UsageError α
  | some a => .ok a
  | none => .error .badValue

/-- The options with one of them set. -/
def set (o : Options) (name : OptionName) (value : String) : Except UsageError Options :=
  match name with
  | .ns => .ok { o with ns := value }
  | .ingressBackend => .ok { o with ingressBackend := value }
  | .ingressClass => .ok { o with ingressClass := value }
  | .globalConfig => .ok { o with globalConfig := value }
  | .staticContentService => .ok { o with staticContentService := value }
  | .staticContentPort => do
    let n ← accepted (Decimal.readSigned? Int32.minValue.toInt Int32.maxValue.toInt value)
    return { o with staticContentPort := n }
  | .maintenancePath => .ok { o with maintenancePath := value }
  | .startingPath => .ok { o with startingPath := value }
  | .conflictRetries => do
    let n ← accepted (Decimal.readSigned? 0 (UInt32.size - 1) value)
    return { o with conflictRetries := n.toNat }
  | .reconcileTimeoutMs => do
    return { o with reconcileTimeoutMs := ← accepted (Decimal.readUnsigned? (UInt64.size - 1) value) }
  | .requeueDelayMs => do
    return { o with requeueDelayMs := ← accepted (Decimal.readUnsigned? (UInt64.size - 1) value) }
  | .logLevel => do return { o with logLevel := ← accepted (LogFilter.ofText? value) }
  | .logFormat => do return { o with logFormat := ← accepted (LogFormat.ofName? value) }
  | .kubeconfig => do return { o with connection := ← o.connection.withKubeconfig value }
  | .cluster => .ok { o with connection.cluster := some value }
  | .context => .ok { o with connection.context := some value }
  | .user => .ok { o with connection.user := some value }
  | .onBehalfOfUser => .ok { o with connection.onBehalfOfUser := some value }
  | .onBehalfOfGroup => .ok { o with connection.onBehalfOfGroup := some value }
  | .headersTimeout => do
    return { o with connection.headersTimeoutNs := ← accepted (Duration.ofText? value) }
  | .adminAddress => do return { o with adminAddress := ← accepted (SocketAddress.ofText? value) }

end Options
end ServiceExposure
