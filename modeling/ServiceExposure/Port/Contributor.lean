import ServiceExposure.Text.Decimal
/-!
# Contributors

A contributor is the service whose annotations ask for something.  In a forwarding table its entries are known by
their targets, `<namespace>/<name>:<port>`.
-/
namespace ServiceExposure

/-- A service, by namespace and name. -/
structure Contributor where
  ns : String
  name : String
deriving DecidableEq, Inhabited

namespace Contributor

instance : ToString Contributor := ⟨fun c => c.ns ++ "/" ++ c.name⟩

/-- The forwarding target for a port. -/
def forwardTarget (c : Contributor) (port : Int) : String := c.ns ++ "/" ++ c.name ++ ":" ++ toString port

/-- Tests whether a forwarding target leads to this contributor. -/
def ownsForwardTarget (c : Contributor) (target : String) : Bool :=
  match Text.dropStem (c.ns ++ "/" ++ c.name ++ ":") target with
  | some port => (Decimal.readUnsigned? 65535 port).isSome
  | none => false

end Contributor
end ServiceExposure
