import ServiceExposure.Proofs.Shared.Admission
import ServiceExposure.Proofs.Shared.Converge
import ServiceExposure.Proofs.Shared.LoadBalancer
import ServiceExposure.Proofs.Shared.Tables
import ServiceExposure.Reconciler.Ports
/-!
# The places that exposed ports go through

Behind nginx the exposed ports go through four shared objects (`Place`).  While no two services ask for one port, each of
them shows what every service asked for last (`Reconciler.Shows`): an effect of one service changes what it asked for
(`Reconciler.shows_effect`), and an object that is gone shows that nobody asked for anything (`Reconciler.shows_absent`).
So the part of a service is exactly what it asked for last (`Reconciler.Shows.carries_iff`).
-/
namespace ServiceExposure

/-! ## Nobody competes -/

namespace Wishes

/-- No two contributors ask for one port. -/
def Apart (w : Wishes) : Prop := ∀ ⦃n n' id⦄, id ∈ (w n).ids → id ∈ (w n').ids → n = n'

end Wishes

namespace Holdings

variable {m : Holdings} {w : Wishes} {name : String} {desired : ExposedPorts}

/-- Everybody holds exactly what it asked for. -/
def Meets (m : Holdings) (w : Wishes) : Prop := ∀ ⦃id h⦄, m id = some h ↔ claim h.service (w h.service) id = some h

theorem meets_none : none.Meets Wishes.none := by
  intro id h
  constructor
  · exact fun hid => nomatch hid
  · intro hclaim
    obtain ⟨p, hp, -, -⟩ := claim_eq_some.1 hclaim
    cases hp

theorem Meets.valid {members : String → Prop} (hm : m.Meets w) (hw : w.Legal members) : m.Valid :=
  fun _ _ hid => valid_claim (hw.valid _) (hm.1 hid)

theorem service_of_claim {id : PortId} {h : Holding} (hc : claim name desired id = some h) : h.service = name := by
  obtain ⟨p, -, -, rfl⟩ := claim_eq_some.1 hc
  rfl

theorem mem_ids_of_claim {id : PortId} {h : Holding} (hc : claim name desired id = some h) :
    id ∈ desired.forwardable.ids := by
  obtain ⟨p, hp, rfl, -⟩ := claim_eq_some.1 hc
  exact List.mem_map_of_mem hp

/-- **Whoever asks for other ports gets them**, for nobody else has asked for them. -/
theorem Meets.step {members : String → Prop} (hm : m.Meets w) (hw : w.Legal members) (ha : (w.set name desired).Apart) :
    (m.step name desired).Meets (w.set name desired) := by
  have hself : (w.set name desired) name = desired.forwardable := if_pos rfl
  have hrest : ∀ {n}, n ≠ name → (w.set name desired) n = w n := fun hne => if_neg hne
  intro id h
  rw [step_eq_some]
  by_cases hs : h.service = name
  · rw [hs, hself, claim_forwardable]
    constructor
    · rintro (⟨-, hne⟩ | ⟨hclaim, -⟩)
      · exact absurd rfl hne
      · exact hclaim
    · intro hclaim
      refine .inr ⟨hclaim, fun h' hid => ?_⟩
      apply Classical.byContradiction
      intro hne
      have hother : id ∈ (w.set name desired h'.service).ids := by
        rw [hrest hne, ← (hw.forwardable _).forwardable_eq]
        exact mem_ids_of_claim (hm.1 hid)
      have hmine : id ∈ (w.set name desired name).ids := by
        rw [hself]
        exact mem_ids_of_claim hclaim
      exact hne (ha hother hmine)
  · rw [hrest hs, ← hm]
    constructor
    · rintro (⟨hid, -⟩ | ⟨hclaim, -⟩)
      · exact hid
      · exact absurd (service_of_claim hclaim) hs
    · exact fun hid => .inl ⟨hid, hs⟩

end Holdings

/-! ## The part of one service -/

namespace Ledger

variable {ε κ : Type} (l : Ledger ε κ)

/-- The entries show what everybody asked for. -/
def Records (w : Wishes) (entries : List ε) : Prop := ∃ m : Holdings, m.Meets w ∧ l.Shows m entries

/-- The entries of a service are exactly those for what it wants. -/
def Carries (service : String) (ports : ExposedPorts) (entries : List ε) : Prop :=
  ∀ e, (e ∈ entries ∧ l.owns service e = true) ↔ e ∈ l.wanted service ports

/-- Two wishes of a service come to the same entries. -/
def Agree (service : String) (ports ports' : ExposedPorts) : Prop :=
  ∀ e, e ∈ l.wanted service ports ↔ e ∈ l.wanted service ports'

variable {l} {w : Wishes} {members : String → Prop} {entries : List ε} {name : String} {desired : ExposedPorts}

theorem records_nil : l.Records Wishes.none [] := by
  refine ⟨.none, Holdings.meets_none, .nil, fun e => ⟨(fun h => nomatch h), ?_⟩⟩
  rintro ⟨id, h, -, hid, -⟩
  cases hid

theorem Records.carries (hl : l.Sound) (hw : w.Legal members) (h : l.Records w entries) (service : String) :
    l.Carries service (w service) entries := by
  obtain ⟨m, hm, hshows⟩ := h
  have hvalid := hm.valid hw
  intro e
  rw [(shows_wanted hl service (hw.valid service)).mem_iff, hshows.mem_iff]
  constructor
  · rintro ⟨⟨id, holding, hcov, hid, rfl⟩, hown⟩
    have hs := (hl.owns_entry service (fits_of_valid hvalid hcov hid)).1 hown
    rw [← hs]
    exact ⟨id, holding, hcov, hm.1 hid, rfl⟩
  · rintro ⟨id, holding, hcov, hclaim, rfl⟩
    have hs := Holdings.service_of_claim hclaim
    rw [← hs] at hclaim
    have hid := hm.2 hclaim
    exact ⟨⟨id, holding, hcov, hid, rfl⟩, (hl.owns_entry service (fits_of_valid hvalid hcov hid)).2 hs⟩

theorem Carries.iff_agree {ports ports' : ExposedPorts} (h : l.Carries name ports entries) :
    l.Carries name ports' entries ↔ l.Agree name ports ports' :=
  ⟨fun h' e => (h e).symm.trans (h' e), fun h' e => (h e).trans (h' e)⟩

end Ledger

namespace Admission

/-- The record of a service is exactly the ports that it wants. -/
def Carries (a : Admission) (service : String) (ports : ExposedPorts) (current : Option NetworkPolicy) : Prop :=
  ∃ record, a.records.read (current.getD a.closed).metadata.annotationSet service = .ok record ∧
    ∀ p, p ∈ record.toList ↔ p ∈ ports.forwardable.toList

variable {a : Admission} {w : Wishes} {members : String → Prop} {name : String} {current : Option NetworkPolicy}

theorem Follows.carries_iff (hs : a.records.Separates members) (hw : w.Legal members) (hn : members name)
    (h : a.Follows w current) (ports : ExposedPorts) :
    a.Carries name ports current ↔ ∀ p, p ∈ (w name).toList ↔ p ∈ ports.forwardable.toList := by
  have hread := OwnershipRecords.read_of_hold hs hw hn h.records
  constructor
  · rintro ⟨record, hrecord, hp⟩
    rw [hread] at hrecord
    cases hrecord
    exact hp
  · exact fun hp => ⟨w name, hread, hp⟩

end Admission

/-! ## Four places -/

/-- A shared object that exposed ports go through. -/
inductive Place where
  | policy
  | balancer
  | tcp
  | udp
deriving DecidableEq

/-- What is asked for at a place on behalf of a service. -/
def Place.wants : Place → ExposedPorts → ExposedPorts
  | .policy, ports | .balancer, ports => ports
  | .tcp, ports | .udp, ports => ports.forwardable

namespace Reconciler

/-- The object at a place. -/
def objectAt (r : Reconciler) : Place → SharedResource
  | .policy => r.admission.resource
  | .balancer => r.loadBalancer.resource
  | .tcp => r.tcpTable.resource
  | .udp => r.udpTable.resource

/-- A place shows what the services of a namespace asked for last. -/
def Shows (r : Reconciler) (ns : String) (place : Place) (w : Wishes) (c : Cluster) : Prop :=
  match place with
  | .policy => r.admission.Follows w (c.get? .networkPolicy r.admission.name)
  | .balancer => LoadBalancer.ledger.Records w (r.loadBalancer.portsIn c)
  | .tcp => (r.tcpTable.ledger ns).Records w (r.tcpTable.entriesIn c)
  | .udp => (r.udpTable.ledger ns).Records w (r.udpTable.entriesIn c)

/-- The part of a service at a place is exactly the ports that it wants: its record in the policy, its ports on the load
balancer, or the entries of a table that lead to it. -/
def Carries (r : Reconciler) (ns : String) (place : Place) (service : String) (ports : ExposedPorts) (c : Cluster) :
    Prop :=
  match place with
  | .policy => r.admission.Carries service ports (c.get? .networkPolicy r.admission.name)
  | .balancer => LoadBalancer.ledger.Carries service ports (r.loadBalancer.portsIn c)
  | .tcp => (r.tcpTable.ledger ns).Carries service ports (r.tcpTable.entriesIn c)
  | .udp => (r.udpTable.ledger ns).Carries service ports (r.udpTable.entriesIn c)

/-- Two wishes of a service make no difference at a place. -/
def Agree (r : Reconciler) (ns : String) (place : Place) (service : String) (ports ports' : ExposedPorts) : Prop :=
  match place with
  | .policy => ∀ p, p ∈ ports.forwardable.toList ↔ p ∈ ports'.forwardable.toList
  | .balancer => LoadBalancer.ledger.Agree service ports ports'
  | .tcp => (r.tcpTable.ledger ns).Agree service ports ports'
  | .udp => (r.udpTable.ledger ns).Agree service ports ports'

variable {r : Reconciler} {ns name : String} {w : Wishes} {members : String → Prop} {c c' : Cluster}
  {desired : ExposedPorts}

theorem guarded_objectAt (r : Reconciler) : ∀ place, (r.objectAt place).Guarded
  | .policy => r.admission.guarded
  | .balancer => r.loadBalancer.guarded
  | .tcp => r.tcpTable.guarded
  | .udp => r.udpTable.guarded

/-- An object that is gone shows that nobody asked for anything. -/
theorem shows_absent {place : Place} (h : c.get? (r.objectAt place).kind (r.objectAt place).name = none) :
    r.Shows ns place .none c := by
  have htable : ∀ {t : ForwardingTable}, c.get? .configMap t.name = none →
      (t.ledger ns).Records .none (t.entriesIn c) := fun {t} ht => by
    have hnil : t.entriesIn c = [] := congrArg
      (fun o : Option ConfigMap => ForwardingTable.entriesOf ((o.bind ConfigMap.data).getD .empty)) ht
    rw [hnil]
    exact Ledger.records_nil
  cases place with
  | policy =>
    change r.admission.Follows .none (c.get? .networkPolicy r.admission.name)
    have hnone : c.get? .networkPolicy r.admission.name = none := h
    rw [hnone]
    exact r.admission.follows_none
  | balancer =>
    have hnil : r.loadBalancer.portsIn c = [] :=
      congrArg (fun o : Option Service => (o.map Service.ports).getD []) h
    change LoadBalancer.ledger.Records .none (r.loadBalancer.portsIn c)
    rw [hnil]
    exact Ledger.records_nil
  | tcp => exact htable h
  | udp => exact htable h

/-- Only the object at a place matters there. -/
theorem Shows.congr {place : Place} (h : r.Shows ns place w c)
    (hsame : c'.get? (r.objectAt place).kind (r.objectAt place).name =
      c.get? (r.objectAt place).kind (r.objectAt place).name) : r.Shows ns place w c' := by
  have htable : ∀ {t : ForwardingTable}, c'.get? .configMap t.name = c.get? .configMap t.name →
      (t.ledger ns).Records w (t.entriesIn c) → (t.ledger ns).Records w (t.entriesIn c') := fun {t} ht h => by
    rw [ForwardingTable.entriesIn_congr ht]
    exact h
  cases place with
  | policy =>
    have heq : c'.get? .networkPolicy r.admission.name = c.get? .networkPolicy r.admission.name := hsame
    change r.admission.Follows w (c'.get? .networkPolicy r.admission.name)
    rw [heq]
    exact h
  | balancer =>
    change LoadBalancer.ledger.Records w (r.loadBalancer.portsIn c')
    rw [LoadBalancer.portsIn_congr hsame]
    exact h
  | tcp => exact htable hsame h
  | udp => exact htable hsame h

/-- **An effect of a service changes what it asked for.** -/
theorem shows_effect (hs : r.settings.ownership.Separates members) (hw : w.Legal members) (hn : members name)
    (hd : desired.Valid) (ha : (w.set name desired).Apart) {place : Place} (h : r.Shows ns place w c)
    (he : (r.objectAt place).Effect ⟨ns, name⟩ (place.wants desired) c c') :
    r.Shows ns place (w.set name desired) c' := by
  have htable : ∀ {t : ForwardingTable}, t.protocol.isForwardable = true →
      (t.ledger ns).Records w (t.entriesIn c) → t.resource.Effect ⟨ns, name⟩ desired.forwardable c c' →
      (t.ledger ns).Records (w.set name desired) (t.entriesIn c') := by
    rintro t ht ⟨m, hm, hshows⟩ ⟨change, hp, rfl⟩
    cases hp
    refine ⟨m.step name desired, hm.step hw ha, ?_⟩
    rw [← m.step_forwardable]
    exact ForwardingTable.shows_commit ht hd.forwardable (hm.valid hw) hshows
  cases place with
  | policy =>
    obtain ⟨change, hp, rfl⟩ := he
    obtain ⟨change', hp', hf⟩ := Admission.follows_commit hs hw hn h ns desired
    cases hp'.symm.trans hp
    exact hf
  | balancer =>
    obtain ⟨change, hp, rfl⟩ := he
    obtain ⟨m, hm, hshows⟩ := h
    cases hp
    exact ⟨m.step name desired, hm.step hw ha, LoadBalancer.shows_commit (hm.valid hw) hd hshows⟩
  | tcp => exact htable rfl h he
  | udp => exact htable rfl h he

theorem agree_refl (r : Reconciler) (ns : String) (place : Place) (service : String) (ports : ExposedPorts) :
    r.Agree ns place service ports ports := by
  cases place <;> exact fun _ => Iff.rfl

/-- Only the ports that can be forwarded make a difference. -/
theorem agree_forwardable (r : Reconciler) (ns : String) (place : Place) (service : String)
    (ports ports' : ExposedPorts) :
    r.Agree ns place service ports.forwardable ports' ↔ r.Agree ns place service ports ports' := by
  have hledger : ∀ {ε κ : Type} (l : Ledger ε κ),
      l.Agree service ports.forwardable ports' ↔ l.Agree service ports ports' := by
    intro ε κ l
    unfold Ledger.Agree Ledger.wanted
    rw [ports.forwardable_forwardable]
  cases place with
  | policy =>
    unfold Agree
    rw [ports.forwardable_forwardable]
  | balancer => exact hledger _
  | tcp => exact hledger _
  | udp => exact hledger _

/-- **The part of a service** is what it wants exactly if that comes to what it asked for last. -/
theorem Shows.carries_iff (hs : r.settings.ownership.Separates members) (hw : w.Legal members) (hn : members name)
    {place : Place} (h : r.Shows ns place w c) (ports : ExposedPorts) :
    r.Carries ns place name ports c ↔ r.Agree ns place name (w name) ports := by
  cases place with
  | policy =>
    have hagree := Admission.Follows.carries_iff hs hw hn h ports
    rw [← (hw.forwardable name).forwardable_eq] at hagree
    exact hagree
  | balancer => exact (Ledger.Records.carries LoadBalancer.ledger_sound hw h name).iff_agree
  | tcp => exact (Ledger.Records.carries (r.tcpTable.ledger_sound ns) hw h name).iff_agree
  | udp => exact (Ledger.Records.carries (r.udpTable.ledger_sound ns) hw h name).iff_agree

end Reconciler
end ServiceExposure
