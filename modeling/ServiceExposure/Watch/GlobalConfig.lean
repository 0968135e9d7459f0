import ServiceExposure.Http.Fqdn
import ServiceExposure.Object.Service
/-!
# The global configuration

A ConfigMap says for the whole cluster what its primary host name is, which alternatives it answers to, and whether
maintenance is going on.  Blank values count as missing.  Any value for the maintenance other than `false` means that it
is going on.
-/
namespace ServiceExposure

structure GlobalConfig where
  fqdn : Option String := none
  alternatives : List AlternativeFqdn := []
  maintenance : Bool := false
deriving DecidableEq

namespace GlobalConfig

/-- The trimmed value under a key, unless it is blank. -/
def value? (data : Dict String) (key : String) : Option String :=
  ((data.get? key).map Text.trim).filter (· ≠ "")

/-- Reads the settings from the data of a ConfigMap. -/
def ofData (data : Dict String) : GlobalConfig :=
  { fqdn := value? data "fqdn"
    alternatives := ((value? data "alternativeFQDNs").map AlternativeFqdn.parseList).getD []
    maintenance := match value? data "maintenance" with
      | some v => !Text.sameIgnoringCase v "false"
      | none => false }

/-- Reads the settings from a ConfigMap; without data they are the usual ones. -/
def ofConfigMap (c : ConfigMap) : GlobalConfig := (c.data.map ofData).getD {}

/-- The primary host name and the alternatives that are redirected to it.  Without a primary one there is nothing to
redirect to. -/
def redirect (g : GlobalConfig) : String × List AlternativeFqdn :=
  match g.fqdn with
  | some fqdn => (fqdn, g.alternatives)
  | none => ("", [])

end GlobalConfig
end ServiceExposure
