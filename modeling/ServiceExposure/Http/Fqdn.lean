import ServiceExposure.Text.Basic
import ServiceExposure.Dict
import ServiceExposure.Latest
/-!
# Alternative host names

Besides its primary host name the cluster answers to alternatives, each served with the certificate of a secret or with
the default one.  `AlternativeFqdn.parseList` reads the list that an administrator writes, `AlternativeFqdn.groups`
collects the hosts of each certificate.
-/
namespace ServiceExposure

/-- A host name besides the primary one, and the secret that holds its certificate. -/
structure AlternativeFqdn where
  fqdn : String
  certificate : Option String
deriving DecidableEq, Inhabited

namespace AlternativeFqdn

/-- Reads one item, `fqdn` or `fqdn:secret`; a blank secret is none. -/
def ofItem (item : String) : AlternativeFqdn :=
  match Text.cutAt ':' item with
  | some (fqdn, secret) => ⟨Text.trim fqdn, if Text.trim secret = "" then none else some (Text.trim secret)⟩
  | none => ⟨item, none⟩

/-- Reads items with commas between them; blank items are left out. -/
def parseList (value : String) : List AlternativeFqdn :=
  (((Text.fields ',' value).map Text.trim).filter (· ≠ "")).map ofItem

/-- The different hosts in the order of their first occurrence. -/
def hosts (alternatives : List AlternativeFqdn) : List String := Latest.latest id (alternatives.map fqdn)

/-- The different certificates: the default one first, then the secrets in order. -/
def certificates (alternatives : List AlternativeFqdn) : List (Option String) :=
  (if alternatives.any (fun a => a.certificate = none) then [none] else []) ++
    (Dict.ofList (alternatives.filterMap (fun a => a.certificate.map (fun s => (s, ()))))).keys.map some

/-- The hosts of each certificate. -/
def groups (alternatives : List AlternativeFqdn) : List (Option String × List String) :=
  (certificates alternatives).map (fun c => (c, hosts (alternatives.filter (fun a => a.certificate = c))))

end AlternativeFqdn
end ServiceExposure
