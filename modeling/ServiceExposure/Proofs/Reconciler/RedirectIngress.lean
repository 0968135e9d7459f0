import ServiceExposure.Proofs.Http.Fqdn
import ServiceExposure.Reconciler.Redirect
/-!
# The ingress that is redirected

The rules of the ingress come from the hosts of the alternatives, its certificates from their groups.  Both name the same
hosts, and no pair of host and certificate is lost or repeated (`Redirect.ingress?_takesIn`), however often hosts, secrets
and pairs come in the list.
-/
namespace ServiceExposure

/-- The alternatives that are served with a certificate. -/
def IngressTls.pairs (t : IngressTls) : List AlternativeFqdn := (t.hosts.getD []).map (fun host => ⟨host, t.secretName⟩)

namespace Redirect

open AlternativeFqdn (CertificateBefore)

variable {alternatives : List AlternativeFqdn} {t : IngressTls} {host : String}

/-- Rules and certificates that take in a list of alternatives. -/
structure TakesIn (s : Settings) (alternatives : List AlternativeFqdn) (rules : List IngressRule)
    (tls : List IngressTls) : Prop where
  /-- Each host has one rule, at the place where the host comes first. -/
  hosts : rules.map (·.host) = (alternatives.map (·.fqdn)).eraseDups.map some
  /-- Whatever is below `/` goes to the static content. -/
  routes : ∀ rule ∈ rules, ∃ path, rule.paths = some [path] ∧ path.path = some "/" ∧ path.pathType = "Prefix" ∧
    path.backend.service = some { name := s.staticContent.service, port := some { number := some s.staticContent.port } }
  distinct : (tls.map (·.secretName)).Nodup
  /-- The default certificate comes first, the secrets in the order of their bytes. -/
  ordered : (tls.map (·.secretName)).Pairwise CertificateBefore
  certificates : ∀ c, c ∈ tls.map (·.secretName) ↔ c ∈ alternatives.map (·.certificate)
  /-- The hosts of a certificate are in the order in which they come with it first. -/
  served : ∀ t ∈ tls, t.hosts = some ((alternatives.filter (·.certificate = t.secretName)).map (·.fqdn)).eraseDups
  paired : ∀ t ∈ tls, ∀ host, host ∈ t.hosts.getD [] ↔ ⟨host, t.secretName⟩ ∈ alternatives
  /-- No alternative is lost, and none is repeated. -/
  once : (tls.flatMap IngressTls.pairs).Perm alternatives.eraseDups
  /-- The hosts that have a rule are those that are served with a certificate. -/
  agree : ∀ host, some host ∈ rules.map (·.host) ↔ ∃ t ∈ tls, host ∈ t.hosts.getD []

theorem mem_tls : t ∈ tls alternatives ↔ ∃ c ∈ alternatives.map (·.certificate),
    t = { hosts := some (AlternativeFqdn.hosts (alternatives.filter (·.certificate = c))), secretName := c } := by
  unfold tls AlternativeFqdn.groups
  simp only [List.map_map, List.mem_map (l := AlternativeFqdn.certificates _), AlternativeFqdn.mem_certificates,
    Function.comp_apply, eq_comm (b := t)]

theorem map_secretName_tls (alternatives : List AlternativeFqdn) :
    (tls alternatives).map (·.secretName) = AlternativeFqdn.certificates alternatives := by
  unfold tls AlternativeFqdn.groups
  rw [List.map_map, List.map_map]
  exact List.map_id' _

theorem flatMap_pairs_tls (alternatives : List AlternativeFqdn) :
    (tls alternatives).flatMap IngressTls.pairs = (AlternativeFqdn.groups alternatives).flatMap AlternativeFqdn.pairs :=
  List.flatMap_map _ _ _

theorem mem_hosts_of_mem_tls (h : t ∈ tls alternatives) :
    host ∈ t.hosts.getD [] ↔ ⟨host, t.secretName⟩ ∈ alternatives := by
  obtain ⟨c, -, rfl⟩ := mem_tls.1 h
  exact AlternativeFqdn.mem_group

/-- **The ingress takes in every alternative**, whatever the annotations are. -/
theorem ingress?_takesIn (s : Settings) (annotations : Dict String) (h : alternatives ≠ []) :
    ∃ i spec rules tls, ingress? s alternatives annotations = some i ∧ i.spec = some spec ∧
      spec.rules = some rules ∧ spec.tls = some tls ∧ TakesIn s alternatives rules tls := by
  refine ⟨_, _, _, _, if_neg h, rfl, rfl, rfl, ?_⟩
  constructor
  case hosts =>
    rw [List.map_map, AlternativeFqdn.hosts_eq_eraseDups]
    rfl
  case routes =>
    intro rule hrule
    obtain ⟨host, -, rfl⟩ := List.mem_map.1 hrule
    exact ⟨_, rfl, rfl, rfl, rfl⟩
  case distinct =>
    rw [map_secretName_tls]
    exact AlternativeFqdn.nodup_certificates alternatives
  case ordered =>
    rw [map_secretName_tls]
    exact AlternativeFqdn.ordered_certificates alternatives
  case certificates =>
    intro c
    rw [map_secretName_tls]
    exact AlternativeFqdn.mem_certificates
  case served =>
    intro t ht
    obtain ⟨c, -, rfl⟩ := mem_tls.1 ht
    rw [AlternativeFqdn.hosts_eq_eraseDups]
  case paired => exact fun t ht host => mem_hosts_of_mem_tls ht
  case once =>
    rw [flatMap_pairs_tls]
    exact AlternativeFqdn.perm_groups alternatives
  case agree =>
    intro host
    rw [List.map_map]
    constructor
    · intro hrule
      obtain ⟨_, hhost, ⟨⟩⟩ := List.mem_map.1 hrule
      obtain ⟨a, ha, rfl⟩ := AlternativeFqdn.mem_hosts.1 hhost
      exact ⟨_, mem_tls.2 ⟨a.certificate, List.mem_map_of_mem ha, rfl⟩, AlternativeFqdn.mem_group.2 ha⟩
    · rintro ⟨t, ht, hhost⟩
      have ha := (mem_hosts_of_mem_tls ht).1 hhost
      exact List.mem_map_of_mem (AlternativeFqdn.mem_hosts.2 ⟨_, ha, rfl⟩)

/-- Hosts that share certificates, certificates that share hosts, and a pair that comes twice. -/
theorem ingress?_takesIn_shared_hosts :
    let alternatives : List AlternativeFqdn :=
      [⟨"b.example.com", some "z-cert"⟩, ⟨"a.example.com", none⟩, ⟨"b.example.com", some "a-cert"⟩,
        ⟨"b.example.com", some "z-cert"⟩, ⟨"a.example.com", some "z-cert"⟩]
    alternatives ≠ [] ∧ ∃ i spec rules tls, ingress? {} alternatives .empty = some i ∧ i.spec = some spec ∧
      spec.rules = some rules ∧ spec.tls = some tls ∧ TakesIn {} alternatives rules tls ∧
      rules.map (·.host) = [some "b.example.com", some "a.example.com"] ∧
      tls = [{ hosts := some ["a.example.com"], secretName := none },
        { hosts := some ["b.example.com"], secretName := some "a-cert" },
        { hosts := some ["b.example.com", "a.example.com"], secretName := some "z-cert" }] := by
  intro alternatives
  have hne : alternatives ≠ [] := List.cons_ne_nil _ _
  obtain ⟨i, spec, rules, tls, hi, hspec, hrules, htls, htakes⟩ := ingress?_takesIn {} .empty hne
  refine ⟨hne, i, spec, rules, tls, hi, hspec, hrules, htls, htakes, ?_, ?_⟩
  · have hhosts : (alternatives.map (·.fqdn)).eraseDups = ["b.example.com", "a.example.com"] := by decide +kernel
    rw [htakes.hosts, hhosts]
    rfl
  · have hbuilt : (((ingress? {} alternatives .empty).bind (·.spec)).bind (·.tls)) =
        some [{ hosts := some ["a.example.com"], secretName := none },
          { hosts := some ["b.example.com"], secretName := some "a-cert" },
          { hosts := some ["b.example.com", "a.example.com"], secretName := some "z-cert" }] := by
      decide +kernel
    rw [hi, Option.bind_some, hspec, Option.bind_some, htls] at hbuilt
    exact Option.some.inj hbuilt

end Redirect
end ServiceExposure
