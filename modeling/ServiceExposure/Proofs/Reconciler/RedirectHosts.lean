import ServiceExposure.Proofs.Http.Fqdn
import ServiceExposure.Proofs.Text.Pattern
import ServiceExposure.Reconciler.Redirect
import ServiceExposure.Watch.GlobalConfig
/-!
# The hosts that are redirected

A redirect names its hosts three times: in the rules of its ingress, in the certificates of the ingress, and in the
expression that addresses are matched with.  All of them are the hosts of the alternatives (`Redirect.concerns_iff`).  So
whatever the global configuration says, they have no blanks around them, and they are hosts unless an item of the list
begins with a colon: then, and only then, the redirect catches every address (`Redirect.catches_hosts_iff`).
-/
namespace ServiceExposure

namespace Ingress

/-- The hosts that the rules are for; a rule that names none is for every host. -/
def ruleHosts (i : Ingress) : List (Option String) := ((i.spec.bind (·.rules)).getD []).map (·.host)

/-- The hosts that are served with certificates. -/
def tlsHosts (i : Ingress) : List String := ((i.spec.bind (·.tls)).getD []).flatMap (fun t => t.hosts.getD [])

end Ingress

namespace GlobalConfig

/-- There is a primary host name, and an item of the list of alternatives has no host. -/
def LacksHost (data : Dict String) : Prop :=
  value? data "fqdn" ≠ none ∧ ∃ list, value? data "alternativeFQDNs" = some list ∧
    ∃ item ∈ Text.fields ',' list, AlternativeFqdn.LacksHost item

theorem ne_empty_of_value? {data : Dict String} {key v : String} (h : value? data key = some v) : v ≠ "" := by
  have hv := (Option.filter_eq_some_iff.1 h).2
  exact of_decide_eq_true hv

theorem primary_ne_empty {data : Dict String} (h : (ofData data).redirect.2 ≠ []) : (ofData data).redirect.1 ≠ "" := by
  have hconfig : (ofData data).fqdn = value? data "fqdn" := rfl
  unfold redirect at h ⊢
  cases hfqdn : value? data "fqdn" with
  | none =>
    rw [hconfig, hfqdn] at h
    exact absurd rfl h
  | some fqdn =>
    rw [hconfig, hfqdn]
    exact ne_empty_of_value? hfqdn

theorem mem_redirect {data : Dict String} {a : AlternativeFqdn} : a ∈ (ofData data).redirect.2 ↔
    value? data "fqdn" ≠ none ∧ ∃ list, value? data "alternativeFQDNs" = some list ∧ a ∈ AlternativeFqdn.parseList list := by
  unfold redirect ofData
  cases value? data "fqdn" <;> cases value? data "alternativeFQDNs" <;> simp

theorem exists_empty_iff (data : Dict String) : (∃ a ∈ (ofData data).redirect.2, a.fqdn = "") ↔ LacksHost data := by
  simp only [mem_redirect, LacksHost, ← AlternativeFqdn.empty_fqdn_iff]
  constructor
  · rintro ⟨a, ⟨hprimary, list, hlist, ha⟩, hempty⟩
    exact ⟨hprimary, list, hlist, a, ha, hempty⟩
  · rintro ⟨hprimary, list, hlist, a, ha, hempty⟩
    exact ⟨a, ⟨hprimary, list, hlist, ha⟩, hempty⟩

end GlobalConfig

namespace Redirect

variable {s : Settings} {annotations : Dict String} {alternatives : List AlternativeFqdn} {P : String → Prop}

/-- Every host that the redirect of alternatives names has a property. -/
structure Concerns (P : String → Prop) (s : Settings) (annotations : Dict String)
    (alternatives : List AlternativeFqdn) : Prop where
  rules : ∀ i, ingress? s alternatives annotations = some i → ∀ h ∈ i.ruleHosts, ∃ host, h = some host ∧ P host
  certificates : ∀ i, ingress? s alternatives annotations = some i → ∀ host ∈ i.tlsHosts, P host
  branches : ∀ host ∈ AlternativeFqdn.hosts alternatives, P host

theorem mem_ruleHosts {i : Ingress} (hi : ingress? s alternatives annotations = some i) {h : Option String} :
    h ∈ i.ruleHosts ↔ ∃ a ∈ alternatives, h = some a.fqdn := by
  unfold ingress? at hi
  split at hi
  · cases hi
  · cases hi
    simp only [Ingress.ruleHosts, Option.bind_some, Option.getD_some, List.map_map, List.mem_map, Function.comp_apply,
      AlternativeFqdn.mem_hosts]
    constructor
    · rintro ⟨_, ⟨a, ha, rfl⟩, rfl⟩
      exact ⟨a, ha, rfl⟩
    · rintro ⟨a, ha, rfl⟩
      exact ⟨_, ⟨a, ha, rfl⟩, rfl⟩

theorem exists_of_mem_tlsHosts {i : Ingress} (hi : ingress? s alternatives annotations = some i) {host : String}
    (h : host ∈ i.tlsHosts) : ∃ a ∈ alternatives, a.fqdn = host := by
  unfold ingress? at hi
  split at hi
  · cases hi
  · cases hi
    simp only [Ingress.tlsHosts, tls, AlternativeFqdn.groups, Option.bind_some, Option.getD_some, List.mem_flatMap,
      List.mem_map] at h
    obtain ⟨_, ⟨_, ⟨c, -, rfl⟩, rfl⟩, hhost⟩ := h
    obtain ⟨a, ha, rfl⟩ := AlternativeFqdn.mem_hosts.1 hhost
    exact ⟨a, List.mem_of_mem_filter ha, rfl⟩

/-- **The hosts that a redirect names** are the hosts of the alternatives. -/
theorem concerns_iff : Concerns P s annotations alternatives ↔ ∀ a ∈ alternatives, P a.fqdn := by
  constructor
  · exact fun h a ha => h.branches a.fqdn (AlternativeFqdn.mem_hosts.2 ⟨a, ha, rfl⟩)
  · intro h
    refine ⟨fun i hi host? hhost => ?_, fun i hi host hhost => ?_, fun host hhost => ?_⟩
    · obtain ⟨a, ha, rfl⟩ := (mem_ruleHosts hi).1 hhost
      exact ⟨a.fqdn, rfl, h a ha⟩
    · obtain ⟨a, ha, rfl⟩ := exists_of_mem_tlsHosts hi hhost
      exact h a ha
    · obtain ⟨a, ha, rfl⟩ := AlternativeFqdn.mem_hosts.1 hhost
      exact h a ha

theorem regex_eq (primary : String) (alternatives : List AlternativeFqdn) : (regex primary alternatives).regex =
    "^https?://(" ++ Text.join "|" ((AlternativeFqdn.hosts alternatives).map Pattern.escape) ++ ")(.*)" := by
  refine String.toList_inj.1 ?_
  simp [regex, pattern, Pattern.render, Pattern.literal, Pattern.renderPart, Pattern.escapeChar, Pattern.specialChars,
    Text.join]

/-- **The match that is preferred** is that of the first host that stands after the scheme; the second group is what
follows it, as far as it is on one line. -/
theorem captures?_pattern {scheme : String} (hscheme : scheme = "http" ∨ scheme = "https") (hosts : List String)
    (rest : String) :
    Pattern.captures? (pattern hosts) (scheme ++ "://" ++ rest) = hosts.findSome? (fun host =>
      (Text.dropStem host rest).map (fun left => [host, String.ofList (left.toList.takeWhile (· ≠ '\n'))])) := by
  have hscheme : Pattern.captures (pattern hosts) (scheme ++ "://" ++ rest).toList =
      Pattern.captures [.oneOf hosts, .rest] rest.toList := by
    rcases hscheme with rfl | rfl <;>
      simp [pattern, Pattern.literal, Pattern.captures, Pattern.takes, List.isPrefixOf?]
  rw [Pattern.captures?, hscheme, Pattern.head?_captures_oneOf]
  simp only [Text.dropStem, Pattern.head?_captures_rest]
  congr 1
  funext host
  cases host.toList.isPrefixOf? rest.toList with
  | none => rfl
  | some left => simp

/-- An address is redirected if one of the hosts stands after the scheme. -/
theorem isSome_captures?_iff {hosts : List String} {rest : String} :
    (Pattern.captures? (pattern hosts) ("https://" ++ rest)).isSome ↔ ∃ host ∈ hosts, host.toList <+: rest.toList := by
  rw [show "https://" ++ rest = "https" ++ "://" ++ rest from rfl, captures?_pattern (.inr rfl), List.findSome?_isSome_iff]
  simp only [Option.isSome_map, Option.isSome_iff_exists, Text.dropStem_eq_some_iff]
  constructor
  · rintro ⟨host, hhost, left, rfl⟩
    exact ⟨host, hhost, left.toList, by simp⟩
  · rintro ⟨host, hhost, left, hleft⟩
    refine ⟨host, hhost, String.ofList left, String.toList_inj.1 ?_⟩
    rw [← hleft]
    simp

/-- A redirect catches every address if and only if one of its hosts is empty. -/
theorem catches_all_iff {hosts : List String} :
    (∀ rest, (Pattern.captures? (pattern hosts) ("https://" ++ rest)).isSome) ↔ "" ∈ hosts := by
  simp only [isSome_captures?_iff]
  constructor
  · intro h
    obtain ⟨host, hhost, hprefix⟩ := h ""
    have hempty : host = "" := String.toList_inj.1 (List.prefix_nil.1 hprefix)
    exact hempty ▸ hhost
  · exact fun h rest => ⟨"", h, List.nil_prefix⟩

/-- **What is redirected by the global configuration.**  Alternatives are only taken up where there is a primary host name.
The hosts that the redirect names have no blanks around them.  They are hosts, and the redirect does not catch every
address, exactly if every item of the list has a host. -/
theorem catches_hosts_iff (s : Settings) (annotations data : Dict String) :
    let primary := (GlobalConfig.ofData data).redirect.1
    let alternatives := (GlobalConfig.ofData data).redirect.2
    let hosts := AlternativeFqdn.hosts alternatives
    (alternatives ≠ [] → primary ≠ "") ∧
      (regex primary alternatives).regex = "^https?://(" ++ Text.join "|" (hosts.map Pattern.escape) ++ ")(.*)" ∧
      Concerns (fun host => Text.trim host = host) s annotations alternatives ∧
      (Concerns (· ≠ "") s annotations alternatives ↔ ¬ GlobalConfig.LacksHost data) ∧
      ((∀ rest, (Pattern.captures? (pattern hosts) ("https://" ++ rest)).isSome) ↔ GlobalConfig.LacksHost data) := by
  refine ⟨GlobalConfig.primary_ne_empty, regex_eq _ _, concerns_iff.2 (fun a ha => ?_), ?_, ?_⟩
  · obtain ⟨-, list, -, hmem⟩ := GlobalConfig.mem_redirect.1 ha
    exact AlternativeFqdn.trim_fqdn_of_mem hmem
  · rw [concerns_iff, ← GlobalConfig.exists_empty_iff]
    simp
  · rw [catches_all_iff, AlternativeFqdn.mem_hosts, GlobalConfig.exists_empty_iff]

/-- An item that is only a secret makes a rule for every host, and an expression that matches every address. -/
theorem secret_alone_catches_all :
    let alternatives := (GlobalConfig.ofData
      (.ofList [("fqdn", "ces.example.com"), ("alternativeFQDNs", "alt.example.com, :alt-cert")])).redirect.2
    (ingress? {} alternatives .empty).map (fun i => (i.ruleHosts, i.tlsHosts)) =
        some ([some "alt.example.com", some ""], ["alt.example.com", ""]) ∧
      (regex "ces.example.com" alternatives).regex = "^https?://(alt\\.example\\.com|)(.*)" ∧
      Pattern.captures? (pattern (AlternativeFqdn.hosts alternatives)) "https://www.example.org/" =
        some ["", "www.example.org/"] := by
  decide +kernel

end Redirect
end ServiceExposure
