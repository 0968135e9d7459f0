import ServiceExposure.Port.Protocol
import ServiceExposure.Latest
import ServiceExposure.Json.Reader
import ServiceExposure.Json.Writer
/-!
# Exposed ports

A contributor lists the ports it wants exposed as JSON records of protocol, port and target port.  `ExposedPorts` holds
at most one of them for each protocol and port; of several the last counts, at the place of the first
(`ExposedPorts.ofList`).  `ExposedPorts.parse` reads the text of an annotation: first the whole text as records, then
the range of every port in it.
-/
namespace ServiceExposure

/-- What identifies a port within a shared object. -/
structure PortId where
  protocol : Protocol
  port : Int
deriving DecidableEq, Inhabited

instance : ToString PortId := ⟨fun i => toString i.port ++ "/" ++ i.protocol.name⟩

/-- A port that a contributor wants exposed, and the port of the contributor that it leads to. -/
structure ExposedPort where
  protocol : Protocol
  port : Int
  targetPort : Int
deriving DecidableEq, Inhabited

/-- Why the text of an annotation cannot be used. -/
inductive ParseError where
  /-- The text is not the JSON that the annotation should hold. -/
  | malformed (origin : String)
  /-- A port is not in 1..=65535. -/
  | portRange (origin : String) (port : Int)
deriving DecidableEq

namespace ParseError

def message : ParseError → String
  | .malformed a => "invalid " ++ a ++ " annotation"
  | .portRange a p => "port " ++ toString p ++ " in " ++ a ++ " annotation is out of range"

end ParseError

/-- Tests for the numbers that a port can have. -/
def isPortNumber (n : Int) : Bool := 1 ≤ n && n ≤ 65535

namespace ExposedPort

/-- The identity of a port: protocol and number. -/
def id (p : ExposedPort) : PortId := ⟨p.protocol, p.port⟩

/-- Reads a record: an object with the three members, or a list of the three values. -/
def ofJson? : Json → Option ExposedPort
  | .obj members => do
    let protocol ← (← Json.sole? "protocol" members).text?
    let port ← (← Json.sole? "port" members).int32?
    let target ← (← Json.sole? "targetPort" members).int32?
    return ⟨.ofName protocol, port, target⟩
  | .arr [protocol, port, target] => do
    return ⟨.ofName (← protocol.text?), ← port.int32?, ← target.int32?⟩
  | _ => none

/-- The record of a port. -/
def toJson (p : ExposedPort) : Json :=
  .obj [("protocol", .str p.protocol.name), ("port", .int p.port), ("targetPort", .int p.targetPort)]

/-- The first number of a port that is out of range. -/
def outOfRange? (p : ExposedPort) : Option Int :=
  if !isPortNumber p.port then some p.port
  else if !isPortNumber p.targetPort then some p.targetPort
  else none

end ExposedPort

/-- Ports with different identities, in order. -/
structure ExposedPorts where
  toList : List ExposedPort
  nodup : (toList.map ExposedPort.id).Nodup
deriving DecidableEq

namespace ExposedPorts

def empty : ExposedPorts := ⟨[], .nil⟩

instance : Inhabited ExposedPorts := ⟨empty⟩

/-- Collects ports; of several with one identity the last counts, at the place of the first. -/
def ofList (ports : List ExposedPort) : ExposedPorts :=
  ⟨Latest.latest ExposedPort.id ports, Latest.nodup_latest ExposedPort.id ports⟩

def isEmpty (ps : ExposedPorts) : Bool := ps.toList.isEmpty

def filter (ps : ExposedPorts) (keep : ExposedPort → Bool) : ExposedPorts :=
  ⟨ps.toList.filter keep, ps.nodup.sublist (List.filter_sublist.map _)⟩

def withProtocol (ps : ExposedPorts) (protocol : Protocol) : ExposedPorts := ps.filter (fun p => p.protocol = protocol)

/-- The ports that can be forwarded. -/
def forwardable (ps : ExposedPorts) : ExposedPorts := ps.filter (fun p => p.protocol.isForwardable)

/-- The ports that cannot be forwarded. -/
def ignored (ps : ExposedPorts) : List ExposedPort := ps.toList.filter (fun p => !p.protocol.isForwardable)

def ids (ps : ExposedPorts) : List PortId := ps.toList.map ExposedPort.id

/-- The records that a text lists. -/
def records? (text : String) : Option (List ExposedPort) :=
  match Json.parse? text with
  | some (.arr items) => items.mapM ExposedPort.ofJson?
  | _ => none

/-- Reads the text of the annotation of that name. -/
def parse (origin text : String) : Except ParseError ExposedPorts :=
  match records? text with
  | none => .error (.malformed origin)
  | some records =>
    match records.findSome? ExposedPort.outOfRange? with
    | some port => .error (.portRange origin port)
    | none => .ok (ofList records)

def toJson (ps : ExposedPorts) : Json := .arr (ps.toList.map ExposedPort.toJson)

/-- The text that records the ports in an annotation. -/
def render (ps : ExposedPorts) : String := ps.toJson.render

end ExposedPorts
end ServiceExposure
