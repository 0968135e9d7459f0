import ServiceExposure.CommandLine
/-!
# The program

Reads the command line and shows the options that it stands for.  A command line that cannot be used ends the program
with code 2.
-/

namespace ServiceExposure

/-- What is said about the connection, one thing per line. -/
def Connection.shown (c : Connection) : List String :=
  let said := [("kubeconfig", c.kubeconfig), ("cluster", c.cluster), ("context", c.context), ("user", c.user),
    ("on behalf of user", c.onBehalfOfUser), ("on behalf of group", c.onBehalfOfGroup)]
  said.filterMap (fun p => p.2.map (fun value => p.1 ++ ": " ++ value)) ++
    ["headers timeout: " ++ toString c.headersTimeoutNs ++ " ns"]

/-- The options, one per line. -/
def Options.shown (o : Options) : List String :=
  ["namespace: " ++ o.ns, "ingress backend: " ++ o.ingressBackend, "ingress class: " ++ o.ingressClass,
   "global config: " ++ o.globalConfig,
   "static content: " ++ o.staticContentService ++ ":" ++ toString o.staticContentPort,
   "maintenance path: " ++ o.maintenancePath, "starting path: " ++ o.startingPath,
   "conflict retries: " ++ toString o.conflictRetries,
   "reconcile timeout: " ++ toString o.reconcileTimeoutMs ++ " ms",
   "requeue delay: " ++ toString o.requeueDelayMs ++ " ms",
   "log level: " ++ o.logLevel.text, "log format: " ++ o.logFormat.name,
   "admin address: " ++ o.adminAddress.text] ++ o.connection.shown

end ServiceExposure

open ServiceExposure

def main (args : List String) : IO UInt32 := do
  match CommandLine.parse args with
  | .ok o =>
    for line in o.shown do
      IO.println line
    return 0
  | .error e =>
    IO.eprintln e.message
    return 2
