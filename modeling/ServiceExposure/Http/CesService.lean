import ServiceExposure.Port.Exposed
/-!
# HTTP paths of a service

A service lists its externally routable paths as JSON records: a name, a port, the public location, the internal path
and, if need be, a rewrite.  The rewrite is itself the text of a JSON record, read on its own when it is needed.
-/
namespace ServiceExposure

structure CesService where
  name : String
  port : Int
  location : String
  pass : String
  /-- The text of a rewrite. -/
  rewrite : Option String
deriving DecidableEq, Inhabited

/-- A rewrite of the paths below `/pattern` to paths below `rewrite`. -/
structure ServiceRewrite where
  pattern : String
  rewrite : String
deriving DecidableEq, Inhabited

namespace ServiceRewrite

/-- Reads a record: an object with the two members, or a list of the two values. -/
def ofJson? : Json → Option ServiceRewrite
  | .obj members => do
    return ⟨← (← Json.sole? "pattern" members).text?, ← (← Json.sole? "rewrite" members).text?⟩
  | .arr [pattern, rewrite] => do
    return ⟨← pattern.text?, ← rewrite.text?⟩
  | _ => none

/-- The regular expression for the paths that are rewritten; its second group is what follows the pattern. -/
def pathRegex (r : ServiceRewrite) : String := "^/" ++ r.pattern ++ "(/|$)(.*)"

/-- What a path that matches `pathRegex` is replaced by. -/
def pathReplacement (r : ServiceRewrite) : String := r.rewrite ++ "/$\x7b2\x7d"

/-- The rewrite as a directive of the nginx configuration. -/
def nginxDirective (r : ServiceRewrite) : String := "rewrite " ++ r.pathRegex ++ " " ++ r.rewrite ++ "/$2 break;"

end ServiceRewrite

namespace CesService

/-- A text or, where nothing is said, nothing. -/
def optionalText? : Json → Option (Option String)
  | .null => some none
  | .str s => some (some s)
  | _ => none

/-- Reads a record: an object with the members, or a list of the values, where the rewrite may be left out. -/
def ofJson? : Json → Option CesService
  | .obj members => do
    let name ← (← Json.sole? "name" members).text?
    let port ← (← Json.sole? "port" members).int32?
    let location ← (← Json.sole? "location" members).text?
    let pass ← (← Json.sole? "pass" members).text?
    let rewrite ← optionalText? (← Json.soleOrNull? "rewrite" members)
    return ⟨name, port, location, pass, rewrite⟩
  | .arr [name, port, location, pass] => do
    return ⟨← name.text?, ← port.int32?, ← location.text?, ← pass.text?, none⟩
  | .arr [name, port, location, pass, rewrite] => do
    return ⟨← name.text?, ← port.int32?, ← location.text?, ← pass.text?, ← optionalText? rewrite⟩
  | _ => none

/-- Reads the text of the annotation of that name. -/
def parseList (origin text : String) : Except ParseError (List CesService) :=
  let services := match Json.parse? text with
    | some (.arr items) => items.mapM ofJson?
    | _ => none
  match services with
  | some services => .ok services
  | none => .error (.malformed origin)

/-- The path has to be replaced only where the public one differs from the internal one. -/
def needsRewriteTarget (s : CesService) : Bool := s.pass ≠ s.location

/-- The rewrite of a path; a blank text is none. -/
def serviceRewrite (s : CesService) : Except ParseError (Option ServiceRewrite) :=
  match s.rewrite.map Text.trim with
  | none | some "" => .ok none
  | some text =>
    match (Json.parse? text).bind ServiceRewrite.ofJson? with
    | some r => .ok (some r)
    | none => .error (.malformed ("rewrite of ces-service " ++ s.name))

end CesService

/-- Reads a JSON object of texts; of several members with one name the last counts. -/
def textMap? (text : String) : Option (Dict String) :=
  match Json.parse? text with
  | some (.obj members) => (members.mapM (fun (m : String × Json) => m.2.text?.map (fun v => (m.1, v)))).map Dict.ofList
  | _ => none

end ServiceExposure
