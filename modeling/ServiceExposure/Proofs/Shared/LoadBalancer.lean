import ServiceExposure.Proofs.Cluster.Commit
import ServiceExposure.Proofs.Port.Names
import ServiceExposure.Proofs.Shared.Holdings
import ServiceExposure.Proofs.Shared.Plans
/-!
# What the load balancer holds

The load balancer writes the holdings of all protocols down as ports that are named after their holders.  A plan keeps
the ports of the others as they are (`LoadBalancer.filter_others_revise`) and takes one step of the holdings
(`LoadBalancer.shows_commit`); a load balancer without ports is none (`LoadBalancer.absent_iff_commit`).
-/
namespace ServiceExposure

namespace LoadBalancer

/-- The ports that the load balancer has in a cluster. -/
def portsIn (l : LoadBalancer) (c : Cluster) : List ServicePort :=
  ((c.get? .service l.name).map Service.ports).getD []

/-- The ports of one service on the load balancer. -/
def portsOf (l : LoadBalancer) (service : String) (c : Cluster) : List ServicePort := (l.portsIn c).filter (owns service)

theorem portsIn_congr {l : LoadBalancer} {c c' : Cluster} (h : c'.get? .service l.name = c.get? .service l.name) :
    l.portsIn c' = l.portsIn c := congrArg (fun o : Option Service => (o.map Service.ports).getD []) h

theorem portsIn_commit (l : LoadBalancer) (c : Cluster) (contributor : Contributor) (desired : ExposedPorts) :
    l.portsIn (c.commit .service l.name (l.plan (c.get? .service l.name) contributor desired)) =
      revise (l.portsIn c) contributor desired.forwardable := by
  refine (@Cluster.view_commit .service _ (fun o => (o.map Service.ports).getD []) (fun _ _ => rfl) c l.name
    (l.withPorts (c.get? .service l.name) (revise (l.portsIn c) contributor desired.forwardable))).trans ?_
  generalize revise (l.portsIn c) contributor desired.forwardable = ports
  generalize c.get? .service l.name = current
  unfold withPorts
  by_cases hp : ports = []
  · rw [if_pos hp, hp]
    rfl
  · rw [if_neg hp]
    cases current <;> rfl

/-- **The ports of the others stay** when a contributor's are replaced. -/
theorem filter_others_revise (entries : List ServicePort) {contributor : Contributor} {wanted : ExposedPorts}
    (hp : ∀ p ∈ wanted.toList, isPortNumber p.port = true) :
    (revise entries contributor wanted).filter (fun p => !owns contributor.name p) =
      entries.filter (fun p => !owns contributor.name p) := by
  refine filter_merge ServicePort.id _ _ (fun e he hk => ?_) (fun d hd => ?_)
  · exact List.mem_map_of_mem (List.mem_filter.2 ⟨he, hk⟩)
  · obtain ⟨p, hmem, rfl⟩ := List.mem_map.1 hd
    rw [owns_wantedPort _ _ (hp p hmem)]
    rfl

/-- Each of the others has the ports that it had. -/
theorem filter_revise (entries : List ServicePort) {contributor : Contributor} {wanted : ExposedPorts}
    (hv : wanted.Valid) {other : String} (hne : contributor.name ≠ other) :
    (revise entries contributor wanted).filter (owns other) = entries.filter (owns other) := by
  have hothers : ∀ ports : List ServicePort,
      ports.filter (owns other) = (ports.filter (fun p => !owns contributor.name p)).filter (owns other) := fun ports => by
    rw [List.filter_filter]
    refine List.filter_congr (fun p _ => ?_)
    cases ho : owns other p with
    | false => rfl
    | true =>
      cases hc : owns contributor.name p with
      | false => rfl
      | true => exact absurd (owns_unique hc ho) hne
  rw [hothers, filter_others_revise entries (fun p hp => (hv p hp).1), ← hothers]

/-! ## The load balancer as a ledger -/

/-- The port of a holder, before anything is allocated for it. -/
def portFor (id : PortId) (service : String) : ServicePort :=
  { name := some (portName service id)
    protocol := some id.protocol.name
    port := id.port
    targetPort := some (.number id.port) }

/-- How the load balancer writes down who holds what. -/
def ledger : Ledger ServicePort PortId where
  key := ServicePort.id
  entry id h := portFor id h.service
  covers _ := true
  owns := owns

theorem id_portFor {id : PortId} (h : id.protocol.isForwardable = true) (service : String) :
    (portFor id service).id = id := by
  unfold ServicePort.id portFor
  dsimp only
  rw [Option.getD_some, Protocol.ofName_name_of_isForwardable h]

theorem owns_portFor {id : PortId} (h : isPortNumber id.port = true) (service other : String) :
    owns other (portFor id service) = true ↔ service = other := by
  have hself : owns service (portFor id service) = true := isNamedAfter_portName service h
  constructor
  · exact fun ho => owns_unique hself ho
  · rintro rfl
    exact hself

theorem ledger_sound : ledger.Sound where
  key_inj := by
    rintro id h id' h' ⟨-, hp, -⟩ ⟨-, hp', -⟩ hk
    rw [← id_portFor hp h.service, ← id_portFor hp' h'.service]
    exact hk
  key_entry := by
    rintro id h h' ⟨-, hp, -⟩ -
    exact (id_portFor hp h.service).trans (id_portFor hp h'.service).symm
  owns_entry := fun service hf => owns_portFor hf.2.2.1 _ service

/-- Nothing was allocated for a port that is written down, so a contributor gets no more than that. -/
theorem wantedPort_eq {m : Holdings} {entries : List ServicePort} (h : ledger.Shows m entries) (service : String)
    (p : ExposedPort) : wantedPort service (entries.filter (owns service)) p = portFor p.id service := by
  unfold wantedPort
  dsimp only
  split
  case h_2 => rfl
  case h_1 existing hfind =>
    obtain ⟨id, holding, -, -, rfl⟩ := (h.mem_iff existing).1 (List.mem_filter.1 (List.mem_of_find?_eq_some hfind)).1
    rfl

theorem shows_revise {m : Holdings} (hm : m.Valid) {ns service : String} {desired : ExposedPorts} (hd : desired.Valid)
    {entries : List ServicePort} (h : ledger.Shows m entries) :
    ledger.Shows (m.step service desired) (revise entries ⟨ns, service⟩ desired.forwardable) := by
  have hwanted : desired.forwardable.toList.map (wantedPort service (entries.filter (owns service))) =
      ledger.wanted service desired := by
    have hall : desired.forwardable.toList.filter (fun p => ledger.covers p.id) = desired.forwardable.toList :=
      List.filter_eq_self.2 (fun _ _ => rfl)
    unfold Ledger.wanted
    rw [hall]
    exact List.map_congr_left (fun p _ => wantedPort_eq h service p)
  unfold revise
  dsimp only
  rw [hwanted]
  exact Ledger.merge_shows ledger_sound hm hd h (Ledger.shows_wanted ledger_sound service hd)

/-- **A plan takes one step of the holdings.** -/
theorem shows_commit {l : LoadBalancer} {m : Holdings} (hm : m.Valid) {ns service : String} {desired : ExposedPorts}
    (hd : desired.Valid) {c : Cluster} (h : ledger.Shows m (l.portsIn c)) :
    ledger.Shows (m.step service desired)
      (l.portsIn (c.commit .service l.name (l.plan (c.get? .service l.name) ⟨ns, service⟩ desired))) := by
  rw [portsIn_commit]
  exact shows_revise hm hd h

theorem withPorts_eq_none_iff {l : LoadBalancer} {current : Option Service} {ports : List ServicePort} :
    l.withPorts current ports = none ↔ ports = [] := by
  unfold withPorts
  split
  case isTrue hp => exact ⟨fun _ => hp, fun _ => rfl⟩
  case isFalse hp =>
    constructor
    · intro h
      cases current <;> cases h
    · exact fun h => absurd h hp

/-- A load balancer without ports is none. -/
theorem absent_iff_commit (l : LoadBalancer) (c : Cluster) (contributor : Contributor) (desired : ExposedPorts) :
    (c.commit .service l.name (l.plan (c.get? .service l.name) contributor desired)).get? .service l.name = none ↔
      l.portsIn (c.commit .service l.name (l.plan (c.get? .service l.name) contributor desired)) = [] := by
  rw [portsIn_commit]
  have hseen := @Cluster.view_commit .service _ Option.isNone (fun _ _ => rfl) c l.name
    (l.withPorts (c.get? .service l.name) (revise (l.portsIn c) contributor desired.forwardable))
  rw [← Option.isNone_iff_eq_none]
  exact (Bool.eq_iff_iff.1 hseen).trans (Option.isNone_iff_eq_none.trans withPorts_eq_none_iff)

end LoadBalancer
end ServiceExposure
