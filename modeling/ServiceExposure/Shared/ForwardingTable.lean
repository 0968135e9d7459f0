import ServiceExposure.Shared.Resource
/-!
# Forwarding tables

A ConfigMap leads the ports of one protocol to `<namespace>/<service>:<port>`.  An entry belongs to the contributor that
it leads to.  A table is never deleted, even when it is empty.
-/
namespace ServiceExposure

/-- An entry of a forwarding table. -/
structure TableEntry where
  /-- The port in decimal digits. -/
  port : String
  target : String
deriving DecidableEq

/-- The ConfigMap that leads the ports of one protocol to services. -/
structure ForwardingTable where
  name : String
  ns : String
  protocol : Protocol

namespace ForwardingTable

/-- The entries of the data of a ConfigMap. -/
def entriesOf (data : Dict String) : List TableEntry := data.toList.map (fun p => ⟨p.1, p.2⟩)

/-- The data of a ConfigMap with these entries. -/
def dataOf (entries : List TableEntry) : Dict String := .ofList (entries.map (fun e => (e.port, e.target)))

/-- The entries that a contributor wants. -/
def wanted (t : ForwardingTable) (contributor : Contributor) (desired : ExposedPorts) : List TableEntry :=
  (desired.withProtocol t.protocol).toList.map (fun p => ⟨toString p.port, contributor.forwardTarget p.targetPort⟩)

/-- The entries after the contributor's are replaced. -/
def revise (contributor : Contributor) (entries wanted : List TableEntry) : List TableEntry :=
  let prior := entries.filter (fun e => contributor.ownsForwardTarget e.target)
  let claimed := (entries.filter (fun e => !contributor.ownsForwardTarget e.target)).map TableEntry.port
  (merge TableEntry.port entries prior wanted claimed).entries

/-- What to write so that the table forwards what the contributor wants. -/
def plan (t : ForwardingTable) (current : Option ConfigMap) (contributor : Contributor) (desired : ExposedPorts) :
    Change ConfigMap :=
  let wanted := t.wanted contributor desired
  match current with
  | none =>
    if wanted = [] then .unchanged else .create { metadata := .named t.ns t.name, data := some (dataOf wanted) }
  | some c =>
    let data := dataOf (revise contributor (entriesOf (c.data.getD .empty)) wanted)
    let next := if c.data.isSome || !data.isEmpty then { c with data := some data } else c
    .between (some c) (some next)

def resource (t : ForwardingTable) : SharedResource :=
  ⟨.configMap, t.name, fun current contributor desired => .ok (t.plan current contributor desired)⟩

end ForwardingTable
end ServiceExposure
