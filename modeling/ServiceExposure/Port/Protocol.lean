import ServiceExposure.Text.Basic
/-!
# Protocols

TCP and UDP are recognised in any case; every other name is kept as it is written, so that a port of such a protocol
can be passed over instead of spoiling the record it stands in.
-/
namespace ServiceExposure

inductive Protocol where
  | tcp
  | udp
  | other (name : String)
deriving DecidableEq, Inhabited

namespace Protocol

def ofName (name : String) : Protocol :=
  if Text.sameIgnoringCase name "tcp" then .tcp
  else if Text.sameIgnoringCase name "udp" then .udp
  else .other name

def name : Protocol → String
  | .tcp => "TCP"
  | .udp => "UDP"
  | .other n => n

/-- Only TCP and UDP can be forwarded. -/
def isForwardable : Protocol → Bool
  | .tcp | .udp => true
  | .other _ => false

instance : ToString Protocol := ⟨name⟩

end Protocol
end ServiceExposure
