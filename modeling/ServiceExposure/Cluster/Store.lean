import ServiceExposure.Cluster.Request
import ServiceExposure.Text.Basic
/-!
# The cluster's objects

The cluster keeps the objects of each kind by name and counts the versions of all objects together: whatever is stored
gets the next number as its resource version.  `Cluster.serve` answers requests.  Creating needs a free name, replacing
needs the version that is stored, deleting needs an object; a request that is refused changes nothing.
-/
namespace ServiceExposure

structure Cluster where
  /-- How many versions have been stored. -/
  version : Nat := 0
  services : Dict Service := .empty
  configMaps : Dict ConfigMap := .empty
  networkPolicies : Dict NetworkPolicy := .empty
  ingresses : Dict Ingress := .empty
  middlewares : Dict Middleware := .empty
  tcpRoutes : Dict PortRoute := .empty
  udpRoutes : Dict PortRoute := .empty
  deployments : Dict Deployment := .empty
deriving DecidableEq

namespace Selector

/-- Tests one term of a selector: `k=v` asks for a value, `k` for any value. -/
def termMatches (labels : Dict String) (term : String) : Bool :=
  match Text.cutAt '=' term with
  | some (k, v) => labels.get? k = some v
  | none => labels.contains term

/-- Tests a selector, which is terms with commas between them. -/
def matchesLabels (selector : String) (labels : Dict String) : Bool :=
  ((Text.fields ',' selector).filter (· ≠ "")).all (termMatches labels)

end Selector

namespace Cluster

def table (c : Cluster) : (kind : Kind) → Dict kind.Object
  | .service => c.services
  | .configMap => c.configMaps
  | .networkPolicy => c.networkPolicies
  | .ingress => c.ingresses
  | .middleware => c.middlewares
  | .tcpRoute => c.tcpRoutes
  | .udpRoute => c.udpRoutes
  | .deployment => c.deployments

def withTable (c : Cluster) : (kind : Kind) → Dict kind.Object → Cluster
  | .service => fun t => { c with services := t }
  | .configMap => fun t => { c with configMaps := t }
  | .networkPolicy => fun t => { c with networkPolicies := t }
  | .ingress => fun t => { c with ingresses := t }
  | .middleware => fun t => { c with middlewares := t }
  | .tcpRoute => fun t => { c with tcpRoutes := t }
  | .udpRoute => fun t => { c with udpRoutes := t }
  | .deployment => fun t => { c with deployments := t }

@[simp] theorem table_withTable_self (c : Cluster) (kind : Kind) (t : Dict kind.Object) :
    (c.withTable kind t).table kind = t := by cases kind <;> rfl

theorem table_withTable_ne (c : Cluster) {kind other : Kind} (t : Dict kind.Object) (h : other ≠ kind) :
    (c.withTable kind t).table other = c.table other := by
  cases kind <;> cases other <;> first | rfl | exact absurd rfl h

@[simp] theorem version_withTable (c : Cluster) (kind : Kind) (t : Dict kind.Object) :
    (c.withTable kind t).version = c.version := by cases kind <;> rfl

def get? (c : Cluster) (kind : Kind) (name : String) : Option kind.Object := (c.table kind).get? name

/-- The resource version that the next object gets. -/
def nextVersion (c : Cluster) : String := toString (c.version + 1)

def stamped (kind : Kind) (o : kind.Object) (version : String) : kind.Object :=
  kind.withMetadata o { kind.metadata o with resourceVersion := some version }

/-- Stores an object under a name, whatever was there. -/
def put (c : Cluster) (kind : Kind) (name : String) (o : kind.Object) : Cluster :=
  { c.withTable kind ((c.table kind).insert name (stamped kind o c.nextVersion)) with version := c.version + 1 }

def remove (c : Cluster) (kind : Kind) (name : String) : Cluster :=
  c.withTable kind ((c.table kind).erase name)

/-- Answers a request. -/
def serve (c : Cluster) : (r : Request) → Except Refusal r.Reply × Cluster
  | .get kind name => (.ok (c.get? kind name), c)
  | .list kind selector =>
    (.ok ((c.table kind).values.filter (fun o => Selector.matchesLabels selector (kind.metadata o).labelSet)), c)
  | .create kind o =>
    match c.get? kind (kind.nameOf o) with
    | some _ => (.error Refusal.conflict, c)
    | none => (.ok (), c.put kind (kind.nameOf o) o)
  | .replace kind name o =>
    match c.get? kind name with
    | none => (.error Refusal.notFound, c)
    | some stored =>
      if (kind.metadata o).resourceVersion = (kind.metadata stored).resourceVersion then
        (.ok (), c.put kind name o)
      else (.error Refusal.conflict, c)
  | .delete kind name =>
    match c.get? kind name with
    | none => (.error Refusal.notFound, c)
    | some _ => (.ok (), c.remove kind name)

theorem get?_put_self (c : Cluster) (kind : Kind) (name : String) (o : kind.Object) :
    (c.put kind name o).get? kind name = some (stamped kind o c.nextVersion) := by
  cases kind <;> exact Dict.get?_insert_self _ _ _

theorem get?_put_ne (c : Cluster) (kind : Kind) {name other : String} (o : kind.Object) (h : other ≠ name) :
    (c.put kind name o).get? kind other = c.get? kind other := by
  cases kind <;> exact Dict.get?_insert_ne _ _ h

theorem get?_remove_self (c : Cluster) (kind : Kind) (name : String) : (c.remove kind name).get? kind name = none := by
  rw [get?, remove, table_withTable_self, Dict.get?_erase_self]

theorem get?_remove_ne (c : Cluster) (kind : Kind) {name other : String} (h : other ≠ name) :
    (c.remove kind name).get? kind other = c.get? kind other := by
  rw [get?, remove, table_withTable_self, Dict.get?_erase_ne _ h, get?]

end Cluster

namespace Program

/-- Runs a program with nobody else around. -/
def runOn {α : Type} (p : Program α) (c : Cluster) : α × Cluster := p.run (fun r c => c.serve r) c

end Program
end ServiceExposure
