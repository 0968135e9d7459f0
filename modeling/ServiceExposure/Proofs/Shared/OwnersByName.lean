import Mathlib.Data.Set.Function
import ServiceExposure.Proofs.Port.Targets
import ServiceExposure.Proofs.Shared.PublishedPorts
/-!
# Owners by name

Nothing but its name says whose a port on the load balancer is, and nothing but its target whose an entry of a
forwarding table is.  Both tell their owner (`TellsOwner`, `names_tell_owners`): the name of a service may end in what looks
like a port of another one, but only what follows its last hyphen, the one of `-udp` apart, is read as the port.
-/
namespace ServiceExposure

/-- A convention that tells whose a name is: whatever an owner names is its own, and of the owners in `among` a name has
one at most. -/
structure TellsOwner {ω κ : Type} (owns : ω → String → Bool) (nameOf : ω → κ → String) (among : Set ω) (keys : Set κ) :
    Prop where
  owned : ∀ owner, ∀ key ∈ keys, owns owner (nameOf owner key) = true
  unique : ∀ name, {owner | owner ∈ among ∧ owns owner name = true}.Subsingleton

/-- Where each owner gives different names to the keys, all names are different. -/
theorem TellsOwner.injOn {ω κ : Type} {owns : ω → String → Bool} {nameOf : ω → κ → String} {among : Set ω}
    {keys : Set κ} (h : TellsOwner owns nameOf among keys) (chosen : Set κ) (hsub : ∀ key ∈ chosen, key ∈ keys)
    (hinj : ∀ owner, chosen.InjOn (nameOf owner)) :
    {p : ω × κ | p.1 ∈ among ∧ p.2 ∈ chosen}.InjOn (fun p => nameOf p.1 p.2) := by
  rintro ⟨owner, key⟩ ⟨ho, hk⟩ ⟨owner', key'⟩ ⟨ho', hk'⟩ hname
  change nameOf owner key = nameOf owner' key' at hname
  have hown : owns owner' (nameOf owner key) = true := hname ▸ h.owned owner' key' (hsub key' hk')
  obtain rfl : owner = owner' := h.unique (nameOf owner key) ⟨ho, h.owned owner key (hsub key hk)⟩ ⟨ho', hown⟩
  exact congrArg (Prod.mk owner) (hinj owner hk hk' hname)

theorem LoadBalancer.tellsOwner :
    TellsOwner LoadBalancer.isNamedAfter LoadBalancer.portName Set.univ {id | isPortNumber id.port = true} where
  owned := fun service _ hid => isNamedAfter_portName service hid
  unique := fun _ _ h _ h' => isNamedAfter_unique h.2 h'.2

namespace Contributor

/-- The namespace is what precedes the first slash. -/
theorem eq_of_ownsForwardTarget {c c' : Contributor} {target : String} (hc : '/' ∉ c.ns.toList)
    (hc' : '/' ∉ c'.ns.toList) (h : c.ownsForwardTarget target = true) (h' : c'.ownsForwardTarget target = true) :
    c = c' := by
  have hpath := path_eq_of_ownsForwardTarget h h'
  have hcut : Text.cutAt '/' (c.ns ++ "/" ++ c.name) = some (c.ns, c.name) := Text.cutAt_eq_some_iff.2 ⟨rfl, hc⟩
  have hcut' : Text.cutAt '/' (c.ns ++ "/" ++ c.name) = some (c'.ns, c'.name) := Text.cutAt_eq_some_iff.2 ⟨hpath, hc'⟩
  obtain ⟨hns, hname⟩ := Prod.mk.inj (Option.some.inj (hcut.symm.trans hcut'))
  obtain ⟨ns, name⟩ := c
  exact congrArg₂ mk hns hname

theorem tellsOwner :
    TellsOwner ownsForwardTarget forwardTarget {c | '/' ∉ c.ns.toList} {port | isPortNumber port = true} where
  owned := fun c _ hport => ownsForwardTarget_forwardTarget c hport
  unique := fun _ _ h _ h' => eq_of_ownsForwardTarget h.1 h'.1 h.2 h'.2

end Contributor

/-- **Names tell their owners**: a port's name belongs to one service only, whatever the names of the services are, and
different ports of TCP and UDP have different names; a target leads to one contributor only, as long as no namespace has
a slash in it. -/
theorem names_tell_owners :
    TellsOwner LoadBalancer.isNamedAfter LoadBalancer.portName Set.univ {id | isPortNumber id.port = true} ∧
      {p : String × PortId | p.2.protocol.isForwardable = true ∧ isPortNumber p.2.port = true}.InjOn
        (fun p => LoadBalancer.portName p.1 p.2) ∧
      TellsOwner Contributor.ownsForwardTarget Contributor.forwardTarget {c | '/' ∉ c.ns.toList}
        {port | isPortNumber port = true} := by
  refine ⟨LoadBalancer.tellsOwner, ?_, Contributor.tellsOwner⟩
  have hinj := LoadBalancer.tellsOwner.injOn {id | id.protocol.isForwardable = true ∧ isPortNumber id.port = true}
    (fun _ hid => hid.2) (fun _ _ hid _ hid' => LoadBalancer.portName_inj hid.1 hid'.1 hid.2 hid'.2)
  exact fun p hp q hq hname => hinj ⟨Set.mem_univ p.1, hp⟩ ⟨Set.mem_univ q.1, hq⟩ hname

/-- A service whose own name ends like a port of another one. -/
theorem names_tell_owners_nested :
    LoadBalancer.portName "dns-53" ⟨.udp, 53⟩ = "dns-53-53-udp" ∧
      (∀ service, LoadBalancer.isNamedAfter service "dns-53-53-udp" = true ↔ service = "dns-53") ∧
      (∀ c : Contributor, '/' ∉ c.ns.toList →
        (c.ownsForwardTarget "ecosystem/dns-53:53" = true ↔ c = ⟨"ecosystem", "dns-53"⟩)) := by
  obtain ⟨hports, -, htargets⟩ := names_tell_owners
  have hname : LoadBalancer.portName "dns-53" ⟨.udp, 53⟩ = "dns-53-53-udp" := by decide
  have htarget : Contributor.forwardTarget ⟨"ecosystem", "dns-53"⟩ 53 = "ecosystem/dns-53:53" := by decide
  have hown : LoadBalancer.isNamedAfter "dns-53" "dns-53-53-udp" = true := hname ▸ hports.owned "dns-53" ⟨.udp, 53⟩ rfl
  have hown' : Contributor.ownsForwardTarget ⟨"ecosystem", "dns-53"⟩ "ecosystem/dns-53:53" = true :=
    htarget ▸ htargets.owned ⟨"ecosystem", "dns-53"⟩ 53 rfl
  refine ⟨hname, fun service => ⟨fun h => ?_, fun h => h ▸ hown⟩, fun c hc => ⟨fun h => ?_, fun h => h ▸ hown'⟩⟩
  · exact hports.unique _ ⟨trivial, h⟩ ⟨trivial, hown⟩
  · exact htargets.unique _ ⟨hc, h⟩ ⟨by decide, hown'⟩

/-- With a slash in its namespace another contributor has the same targets. -/
example : Contributor.ownsForwardTarget ⟨"a/b", "c"⟩ "a/b/c:1" = true ∧
    Contributor.ownsForwardTarget ⟨"a", "b/c"⟩ "a/b/c:1" = true := by decide

end ServiceExposure
