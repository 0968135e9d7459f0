import ServiceExposure.Object.Metadata
/-!
# Traefik's routes and middlewares

A port route passes the connections of an entry point on to a service; there is one kind for TCP, whose rules say which
connections they match, and one for UDP.  A middleware transforms requests before they are routed.
-/
namespace ServiceExposure

/-- The service that a route leads to. -/
structure RouteService where
  name : String
  /-- The namespace, where it is not the route's. -/
  ns : Option String := none
  port : Int
deriving DecidableEq

structure RouteRule where
  /-- Which connections the rule matches; said for TCP only. -/
  criterion : Option String := none
  services : List RouteService
deriving DecidableEq

/-- A route from entry points to services. -/
structure PortRoute where
  metadata : Metadata
  entryPoints : List String
  rules : List RouteRule
deriving DecidableEq

/-- A redirect of the addresses that match a regular expression. -/
structure RedirectRegex where
  regex : String
  replacement : String
  permanent : Bool := false
deriving DecidableEq

/-- A replacement of the paths that match a regular expression. -/
structure ReplacePathRegex where
  regex : String
  replacement : String
deriving DecidableEq

/-- What a middleware should do; each of the four is optional. -/
structure MiddlewareSpec where
  redirectRegex : Option RedirectRegex := none
  /-- The path that replaces the request's. -/
  replacePath : Option String := none
  replacePathRegex : Option ReplacePathRegex := none
  /-- Headers that are set on requests. -/
  headers : Option (Dict String) := none
deriving DecidableEq

structure Middleware where
  metadata : Metadata
  spec : MiddlewareSpec
deriving DecidableEq

namespace RouteService

def ofJson? (j : Json) : Option RouteService := do
  let d ← Fields.ofRecord? ["name", "namespace", "port"] j
  return {
    name := ← Fields.required d "name" Json.text?
    ns := ← Fields.optional d "namespace" Json.text?
    port := ← Fields.required d "port" Json.int32? }

def toJson (s : RouteService) : Json :=
  Fields.object [("name", some (.str s.name)), ("namespace", s.ns.map .str), ("port", some (.int s.port))] .empty

end RouteService

namespace RouteRule

def ofTcpJson? (j : Json) : Option RouteRule := do
  let d ← Fields.ofRecord? ["match", "services"] j
  return {
    criterion := some (← Fields.required d "match" Json.text?)
    services := ← Fields.required d "services" (Fields.list? RouteService.ofJson?) }

def ofUdpJson? (j : Json) : Option RouteRule := do
  let d ← Fields.ofRecord? ["services"] j
  return { services := ← Fields.required d "services" (Fields.list? RouteService.ofJson?) }

def toJson (r : RouteRule) : Json :=
  Fields.object
    [("match", r.criterion.map .str), ("services", some (Fields.ofList RouteService.toJson r.services))] .empty

end RouteRule

namespace PortRoute

/-- The first service of the first rule. -/
def service? (r : PortRoute) : Option RouteService := r.rules.head?.bind (·.services.head?)

/-- Reads a route with its kind of rules from its fields. -/
def ofFields? (rule? : Json → Option RouteRule) (d : Dict Json) : Option PortRoute := do
  let spec ← Fields.required d "spec" (Fields.ofRecord? ["entryPoints", "routes"])
  return {
    metadata := ← Fields.required d "metadata" Metadata.ofJson?
    entryPoints := ← Fields.required spec "entryPoints" (Fields.list? Json.text?)
    rules := ← Fields.required spec "routes" (Fields.list? rule?) }

def toFields (r : PortRoute) : List (String × Option Json) × Dict Json :=
  ([("metadata", some r.metadata.toJson),
    ("spec", some (Fields.object
      [("entryPoints", some (Fields.ofList .str r.entryPoints)),
       ("routes", some (Fields.ofList RouteRule.toJson r.rules))] .empty))], .empty)

end PortRoute

namespace RedirectRegex

def ofJson? (j : Json) : Option RedirectRegex := do
  let d ← Fields.ofRecord? ["regex", "replacement", "permanent"] j
  return {
    regex := ← Fields.required d "regex" Json.text?
    replacement := ← Fields.required d "replacement" Json.text?
    permanent := ← Fields.filled d "permanent" Fields.bool? false }

def toJson (r : RedirectRegex) : Json :=
  Fields.object
    [("regex", some (.str r.regex)), ("replacement", some (.str r.replacement)),
     ("permanent", some (.bool r.permanent))] .empty

end RedirectRegex

namespace MiddlewareSpec

def replacePath? (j : Json) : Option String := do
  Fields.required (← Fields.ofRecord? ["path"] j) "path" Json.text?

def replacePathRegex? (j : Json) : Option ReplacePathRegex := do
  let d ← Fields.ofRecord? ["regex", "replacement"] j
  return {
    regex := ← Fields.required d "regex" Json.text?
    replacement := ← Fields.required d "replacement" Json.text? }

def headers? (j : Json) : Option (Dict String) := do
  let d ← Fields.ofRecord? ["customRequestHeaders"] j
  Fields.filled d "customRequestHeaders" Fields.texts? .empty

def ofJson? (j : Json) : Option MiddlewareSpec := do
  let d ← Fields.ofRecord? ["redirectRegex", "replacePath", "replacePathRegex", "headers"] j
  return {
    redirectRegex := ← Fields.optional d "redirectRegex" RedirectRegex.ofJson?
    replacePath := ← Fields.optional d "replacePath" replacePath?
    replacePathRegex := ← Fields.optional d "replacePathRegex" replacePathRegex?
    headers := ← Fields.optional d "headers" headers? }

def toJson (s : MiddlewareSpec) : Json :=
  Fields.object
    [("redirectRegex", s.redirectRegex.map RedirectRegex.toJson),
     ("replacePath", s.replacePath.map (fun p => Fields.object [("path", some (.str p))] .empty)),
     ("replacePathRegex", s.replacePathRegex.map (fun r =>
       Fields.object [("regex", some (.str r.regex)), ("replacement", some (.str r.replacement))] .empty)),
     ("headers", s.headers.map (fun h =>
       Fields.object [("customRequestHeaders", h.nonEmpty?.map Fields.ofTexts)] .empty))] .empty

end MiddlewareSpec

namespace Middleware

def ofFields? (d : Dict Json) : Option Middleware := do
  return {
    metadata := ← Fields.required d "metadata" Metadata.ofJson?
    spec := ← Fields.required d "spec" MiddlewareSpec.ofJson? }

def toFields (m : Middleware) : List (String × Option Json) × Dict Json :=
  ([("metadata", some m.metadata.toJson), ("spec", some m.spec.toJson)], .empty)

end Middleware
end ServiceExposure
