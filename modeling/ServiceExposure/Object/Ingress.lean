import ServiceExposure.Object.Metadata
/-!
# Ingresses

An ingress routes requests by host and path to services.
-/
namespace ServiceExposure

open Format (may textFor numberFor)

/-- A port of a service, by its number or its name. -/
structure IngressPort where
  number : Option Int := none
  name : Option String := none
deriving DecidableEq

structure IngressService where
  name : String
  port : Option IngressPort := none
deriving DecidableEq

structure IngressBackend where
  service : Option IngressService := none
  resource : Option Json := none
deriving DecidableEq

/-- A path and where its requests are routed to. -/
structure IngressPath where
  path : Option String := none
  pathType : String
  backend : IngressBackend
deriving DecidableEq

/-- The paths of a host. -/
structure IngressRule where
  host : Option String := none
  paths : Option (List IngressPath) := none
deriving DecidableEq

/-- Hosts that are served with the certificate of a secret. -/
structure IngressTls where
  hosts : Option (List String) := none
  secretName : Option String := none
deriving DecidableEq

structure IngressSpec where
  ingressClassName : Option String := none
  rules : Option (List IngressRule) := none
  tls : Option (List IngressTls) := none
  defaultBackend : Option IngressBackend := none
deriving DecidableEq

structure Ingress where
  metadata : Metadata
  spec : Option IngressSpec := none
  /-- What is observed of the ingress; others write it. -/
  status : Option Json := none
deriving DecidableEq

namespace IngressPort

def ofJson? (j : Json) : Option IngressPort := do
  let d ← Fields.ofJson? j
  return {
    number := ← Fields.optional d "number" Json.int32?
    name := ← Fields.optional d "name" Json.text? }

def toJson (p : IngressPort) : Json :=
  Fields.object [("number", p.number.map .int), ("name", p.name.map .str)] .empty

end IngressPort

namespace IngressService

def ofJson? (j : Json) : Option IngressService := do
  let d ← Fields.ofJson? j
  return {
    name := ← Fields.withDefault d "name" Json.text? ""
    port := ← Fields.optional d "port" IngressPort.ofJson? }

def toJson (s : IngressService) : Json :=
  Fields.object [("name", some (.str s.name)), ("port", s.port.map IngressPort.toJson)] .empty

end IngressService

namespace IngressBackend

/-- The format of a reference to another object. -/
def reference : Format := .record [may "apiGroup" .text, textFor "kind", textFor "name"]

def ofJson? (j : Json) : Option IngressBackend := do
  let d ← Fields.ofJson? j
  return {
    service := ← Fields.optional d "service" IngressService.ofJson?
    resource := ← Fields.optional d "resource" reference.read? }

def toJson (b : IngressBackend) : Json :=
  Fields.object [("service", b.service.map IngressService.toJson), ("resource", b.resource)] .empty

end IngressBackend

namespace IngressPath

/-- The requests below `path`, routed to a port of a service. -/
def below (path service : String) (port : Int) : IngressPath :=
  { path := some path
    pathType := "Prefix"
    backend := { service := some { name := service, port := some { number := some port } } } }

def ofJson? (j : Json) : Option IngressPath := do
  let d ← Fields.ofJson? j
  return {
    path := ← Fields.optional d "path" Json.text?
    pathType := ← Fields.withDefault d "pathType" Json.text? ""
    backend := ← Fields.withDefault d "backend" IngressBackend.ofJson? {} }

def toJson (p : IngressPath) : Json :=
  Fields.object
    [("path", p.path.map .str), ("pathType", some (.str p.pathType)), ("backend", some p.backend.toJson)] .empty

end IngressPath

namespace IngressRule

def paths? (j : Json) : Option (List IngressPath) := do
  let d ← Fields.ofJson? j
  Fields.withDefault d "paths" (Fields.list? IngressPath.ofJson?) []

def ofJson? (j : Json) : Option IngressRule := do
  let d ← Fields.ofJson? j
  return {
    host := ← Fields.optional d "host" Json.text?
    paths := ← Fields.optional d "http" paths? }

def toJson (r : IngressRule) : Json :=
  Fields.object
    [("host", r.host.map .str),
     ("http", r.paths.map (fun ps => Fields.object [("paths", some (Fields.ofList IngressPath.toJson ps))] .empty))]
    .empty

end IngressRule

namespace IngressTls

def ofJson? (j : Json) : Option IngressTls := do
  let d ← Fields.ofJson? j
  return {
    hosts := ← Fields.optional d "hosts" (Fields.list? Json.text?)
    secretName := ← Fields.optional d "secretName" Json.text? }

def toJson (t : IngressTls) : Json :=
  Fields.object [("hosts", t.hosts.map (Fields.ofList .str)), ("secretName", t.secretName.map .str)] .empty

end IngressTls

namespace IngressSpec

def ofJson? (j : Json) : Option IngressSpec := do
  let d ← Fields.ofJson? j
  return {
    ingressClassName := ← Fields.optional d "ingressClassName" Json.text?
    rules := ← Fields.optional d "rules" (Fields.list? IngressRule.ofJson?)
    tls := ← Fields.optional d "tls" (Fields.list? IngressTls.ofJson?)
    defaultBackend := ← Fields.optional d "defaultBackend" IngressBackend.ofJson? }

def toJson (s : IngressSpec) : Json :=
  Fields.object
    [("ingressClassName", s.ingressClassName.map .str), ("rules", s.rules.map (Fields.ofList IngressRule.toJson)),
     ("tls", s.tls.map (Fields.ofList IngressTls.toJson)),
     ("defaultBackend", s.defaultBackend.map IngressBackend.toJson)] .empty

end IngressSpec

namespace Ingress

/-- The format of where an ingress can be reached. -/
def entrance : Format :=
  .record
    [may "hostname" .text, may "ip" .text,
     may "ports" (.list (.record [may "error" .text, numberFor "port", textFor "protocol"]))]

def observed : Format := .record [may "loadBalancer" (.record [may "ingress" (.list entrance)])]

def ofFields? (d : Dict Json) : Option Ingress := do
  return {
    metadata := ← Fields.withDefault d "metadata" Metadata.ofJson? {}
    spec := ← Fields.optional d "spec" IngressSpec.ofJson?
    status := ← Fields.optional d "status" observed.read? }

def toFields (i : Ingress) : List (String × Option Json) × Dict Json :=
  ([("metadata", some i.metadata.toJson), ("spec", i.spec.map IngressSpec.toJson), ("status", i.status)], .empty)

end Ingress
end ServiceExposure
