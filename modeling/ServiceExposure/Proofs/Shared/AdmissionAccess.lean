import ServiceExposure.Proofs.Shared.AdmissionFrame
/-!
# Who gets in when a contributor withdraws

A rule that names no peers matches every peer, and one that names no ports every port.  A plan that asks for nothing
takes out a first rule that is left without ports and peers, which would let in everybody.  Peers that somebody named in
the rule keep it: it stays without ports, and from then on it lets its peers in on every port.  That is the one way in
which a withdrawal lets anybody in (`Admission.opens_iff`), and it does happen (`Admission.withdrawal_opens`).
-/
namespace ServiceExposure

/-- What policies refer to without saying what it is. -/
structure Surroundings (Source : Type) where
  /-- A source is among those that an item in a rule selects. -/
  selects : Json → Source → Prop
  /-- A name stands for a port of a protocol. -/
  named : String → String → Int → Prop

structure Traffic (Source : Type) where
  source : Source
  protocol : String
  port : Int

variable {Source : Type} {s : Surroundings Source} {t : Traffic Source}

namespace PolicyPort

/-- A port of a rule matches traffic of its protocol, which is TCP where none is said, to its number, to a number from
there to the end, to what its name stands for, or to any port where it gives none. -/
def Matches (s : Surroundings Source) (e : PolicyPort) (t : Traffic Source) : Prop :=
  e.protocol.getD "TCP" = t.protocol ∧
    match e.port, e.endPort with
    | none, _ => True
    | some (.number n), none => t.port = n
    | some (.number n), some last => n ≤ t.port ∧ t.port ≤ last
    | some (.named name), _ => s.named name t.protocol t.port

end PolicyPort

namespace PolicyRule

/-- A rule matches the source of traffic, as every source where it names no peers. -/
def MatchesSource (s : Surroundings Source) (rule : PolicyRule) (t : Traffic Source) : Prop :=
  rule.peers.getD [] = [] ∨ ∃ peer ∈ rule.peers.getD [], s.selects peer t.source

/-- A rule lets traffic in; where it names no ports it does so on every port. -/
def LetsIn (s : Surroundings Source) (rule : PolicyRule) (t : Traffic Source) : Prop :=
  rule.MatchesSource s t ∧ (rule.ports.getD [] = [] ∨ ∃ e ∈ rule.ports.getD [], e.Matches s t)

/-- Fewer ports let in less, as long as there are any. -/
theorem letsIn_of_subset {rule : PolicyRule} {ports : List PolicyPort} (hne : ports ≠ [])
    (hsub : ∀ e ∈ ports, e ∈ rule.ports.getD []) (h : LetsIn s { rule with ports := some ports } t) :
    rule.LetsIn s t := by
  obtain ⟨hsource, hport⟩ := h
  obtain ⟨e, he, hmatch⟩ := hport.resolve_left hne
  exact ⟨hsource, .inr ⟨e, hsub e he, hmatch⟩⟩

/-- Without ports a rule with peers lets in whatever comes from them. -/
theorem letsIn_withoutPorts_iff {rule : PolicyRule} (hpeers : rule.peers.getD [] ≠ []) :
    LetsIn s { rule with ports := none } t ↔ ∃ peer ∈ rule.peers.getD [], s.selects peer t.source := by
  constructor
  · rintro ⟨hsource, -⟩
    exact hsource.resolve_left hpeers
  · exact fun hpeer => ⟨.inr hpeer, .inl rfl⟩

end PolicyRule

namespace Admission

/-- A policy lets traffic in by any of its rules. -/
def LetsIn (s : Surroundings Source) (p : NetworkPolicy) (t : Traffic Source) : Prop :=
  ∃ rule ∈ rulesOf p, rule.LetsIn s t

/-- **Taking ports out of the first rule** lets traffic in only where none of its ports are left, but peers are. -/
theorem letsIn_withPorts_iff {rules : List PolicyRule} {ports : List PolicyPort}
    (hsub : ∀ e ∈ ports, e ∈ (rules.head?.bind (·.ports)).getD []) (hclosed : ¬ ∃ rule ∈ rules, rule.LetsIn s t) :
    (∃ rule ∈ withPorts ports rules, rule.LetsIn s t) ↔ ports = [] ∧ ∃ rule ∈ rules.head?, rule.ports.getD [] ≠ [] ∧
      ∃ peer ∈ rule.peers.getD [], s.selects peer t.source := by
  cases rules with
  | nil =>
    have hports : ports = [] := List.eq_nil_iff_forall_not_mem.2 fun e he => List.not_mem_nil (hsub e he)
    rw [hports]
    simp [withPorts]
  | cons rule rest =>
    simp only [List.head?_cons, Option.mem_def, Option.some.injEq, exists_eq_left']
    -- the other rules stay, and they do not let the traffic in
    have hrest : ¬ ∃ r ∈ rest, r.LetsIn s t := by
      rintro ⟨r, hr, hin⟩
      exact hclosed ⟨r, List.mem_cons_of_mem _ hr, hin⟩
    have hfirst : ¬ rule.LetsIn s t := fun h => hclosed ⟨rule, List.mem_cons_self, h⟩
    have hcons : ∀ first : PolicyRule, (∃ r ∈ first :: rest, r.LetsIn s t) ↔ first.LetsIn s t := fun first =>
      (List.exists_mem_cons_iff _ first rest).trans (or_iff_left hrest)
    by_cases hports : ports = []
    · by_cases hpeers : rule.peers.getD [] = []
      · have hdropped : withPorts ports (rule :: rest) = rest := by rw [withPorts, if_pos hports, if_pos hpeers]
        rw [hdropped, hpeers]
        refine iff_of_false hrest ?_
        rintro ⟨-, -, peer, hpeer, -⟩
        cases hpeer
      · have hkept : withPorts ports (rule :: rest) = { rule with ports := none } :: rest := by
          rw [withPorts, if_pos hports, if_neg hpeers]
        rw [hkept, hcons, PolicyRule.letsIn_withoutPorts_iff hpeers]
        -- a rule that had no ports before would have let its peers in
        exact ⟨fun hpeer => ⟨hports, fun hnone => hfirst ⟨.inr hpeer, .inl hnone⟩, hpeer⟩, fun h => h.2.2⟩
    · have hkept : withPorts ports (rule :: rest) = { rule with ports := some ports } :: rest := by
        rw [withPorts, if_neg hports]
      rw [hkept, hcons]
      exact iff_of_false (fun h => hfirst (PolicyRule.letsIn_of_subset hports hsub h)) (fun h => hports h.1)

/-- No port is left where all of them are numbered ports that the contributor alone has on record. -/
theorem portsAfter_eq_nil_iff {p : NetworkPolicy} {wanted prior : ExposedPorts} {others : List PortId}
    (hw : wanted.isEmpty = true) (hprior : ∀ q ∈ prior.toList, Protocol.ofName q.protocol.name = q.protocol) :
    portsAfter p wanted prior others = [] ↔
      ∀ e ∈ portsOf p, e.isNumeric = true ∧ e.id ∈ prior.ids ∧ e.id ∉ others := by
  rw [portsAfter_of_isEmpty hw hprior, List.append_eq_nil_iff, List.filter_eq_nil_iff, namedPortsOf,
    List.filter_eq_nil_iff]
  constructor
  · rintro ⟨hnumeric, hnamed⟩ e he
    have hn : e.isNumeric = true := by simpa using hnamed e he
    have hrecord := hnumeric e (List.mem_filter.2 ⟨he, hn⟩)
    rw [decide_eq_true_eq, not_or, not_not] at hrecord
    exact ⟨hn, hrecord⟩
  · intro h
    constructor
    · intro e he
      obtain ⟨-, hid, hothers⟩ := h e (List.mem_filter.1 he).1
      rw [decide_eq_true_eq, not_or, not_not]
      exact ⟨hid, hothers⟩
    · intro e he
      rw [(h e he).1]
      decide

theorem portsOf_of_head? {p : NetworkPolicy} {rule : PolicyRule} (h : (rulesOf p).head? = some rule) :
    portsOf p = rule.ports.getD [] := by
  unfold portsOf
  unfold rulesOf at h
  rw [h]
  rfl

/-- **A withdrawal lets traffic in** exactly if the contributor alone has all ports of the first rule on record, and the
traffic comes from a peer that the rule names. -/
theorem opens_iff (a : Admission) (p : NetworkPolicy) (contributor : Contributor) (desired : ExposedPorts)
    (change : Change NetworkPolicy) (hplan : a.plan (some p) contributor desired = .ok change)
    (hdesired : desired.forwardable.isEmpty = true) :
    ∃ next prior others, change.result (some p) = some next ∧
      a.records.read p.metadata.annotationSet contributor.name = .ok prior ∧
      a.records.readOthers p.metadata.annotationSet contributor.name = .ok others ∧
      ∀ (Source : Type) (s : Surroundings Source) (t : Traffic Source), ¬ LetsIn s p t →
        (LetsIn s next t ↔ ∃ rule ∈ (rulesOf p).head?, rule.ports.getD [] ≠ [] ∧
          (∀ e ∈ rule.ports.getD [], e.isNumeric = true ∧ e.id ∈ prior.ids ∧ e.id ∉ others.flatMap ExposedPorts.ids) ∧
          ∃ peer ∈ rule.peers.getD [], s.selects peer t.source) := by
  rcases plan_eq_ok hplan with ⟨hnone, -, -⟩ | ⟨prior, others, hread, hothers, rfl⟩
  · cases hnone
  · rw [Option.getD_some] at hread hothers
    obtain ⟨-, hprior⟩ := OwnershipRecords.of_read hread
    refine ⟨_, prior, others, Change.result_between _ _, hread, hothers, fun Source s t hclosed => ?_⟩
    have hsub : ∀ e ∈ portsAfter p desired.forwardable prior (others.flatMap ExposedPorts.ids), e ∈ portsOf p := by
      intro e he
      rcases mem_portsAfter he with he | ⟨q, hq, -⟩
      · exact he
      · rw [ExposedPorts.isEmpty_iff.1 hdesired] at hq
        cases hq
    refine (letsIn_withPorts_iff hsub hclosed).trans ?_
    rw [portsAfter_eq_nil_iff hdesired hprior]
    constructor
    · rintro ⟨hall, rule, hrule, hne, hpeer⟩
      have hports := portsOf_of_head? hrule
      exact ⟨rule, hrule, hne, hports ▸ hall, hpeer⟩
    · rintro ⟨rule, hrule, hne, hall, hpeer⟩
      have hports := portsOf_of_head? hrule
      exact ⟨hports ▸ hall, rule, hrule, hne, hpeer⟩

/-- Where the first rule has somebody else's ports, a withdrawal lets nobody in. -/
theorem opens_iff_editedPolicy :
    let a : Admission := ⟨"nginx-ingress-exposed", "ecosystem", .empty, .standard⟩
    ExposedPorts.empty.forwardable.isEmpty = true ∧
      ∃ change next, a.plan (some editedPolicy) ⟨"ecosystem", "scm"⟩ .empty = .ok change ∧
        change.result (some editedPolicy) = some next ∧
        ∀ (Source : Type) (s : Surroundings Source) (t : Traffic Source), LetsIn s next t → LetsIn s editedPolicy t := by
  intro a
  have hok : (a.plan (some editedPolicy) ⟨"ecosystem", "scm"⟩ .empty).toBool = true := by decide +kernel
  cases hplan : a.plan (some editedPolicy) ⟨"ecosystem", "scm"⟩ .empty with
  | error e =>
    rw [hplan] at hok
    cases hok
  | ok change =>
    obtain ⟨next, prior, others, hnext, -, -, hopens⟩ :=
      opens_iff a editedPolicy ⟨"ecosystem", "scm"⟩ .empty change hplan rfl
    refine ⟨rfl, change, next, rfl, hnext, fun Source s t hin => Classical.byContradiction fun hclosed => ?_⟩
    obtain ⟨rule, hrule, -, hall, -⟩ := (hopens Source s t hclosed).1 hin
    cases hrule
    have hnamed := (hall { port := some (.named "https") } (by decide)).1
    cases hnamed

/-- A policy that lets the hosts of one network in on the port of one contributor. -/
def networkPolicy : NetworkPolicy where
  metadata := { Metadata.named "ecosystem" "nginx-ingress-exposed" with
    annotations := some (.ofList
      [("k8s.cloudogu.com/ces-exposed-ports-ldap", (ExposedPorts.ofList [⟨.tcp, 389, 389⟩]).render)]) }
  spec := some { policyTypes := some ["Ingress"], ingress := some [
    { peers := some [.obj [("ipBlock", .obj [("cidr", .str "10.0.0.0/8")])]], ports := some [.ofId ⟨.tcp, 389⟩] }] }

/-- The policy after the contributor withdrew: the rule has its peers, but no ports. -/
def openedPolicy : NetworkPolicy where
  metadata := Metadata.named "ecosystem" "nginx-ingress-exposed"
  spec := some { policyTypes := some ["Ingress"], ingress := some [
    { peers := some [.obj [("ipBlock", .obj [("cidr", .str "10.0.0.0/8")])]] }] }

/-- Sources are addresses, and the network is known by its first number. -/
def addresses : Surroundings (Nat × Nat × Nat × Nat) where
  selects peer source := peer = .obj [("ipBlock", .obj [("cidr", .str "10.0.0.0/8")])] ∧ source.1 = 10
  named _ _ _ := False

/-- **A withdrawal that opens every port**: port 22 was shut to the network, and is open when port 389 was given up. -/
theorem withdrawal_opens :
    let a : Admission := ⟨"nginx-ingress-exposed", "ecosystem", .empty, .standard⟩
    let ssh : Traffic (Nat × Nat × Nat × Nat) := ⟨(10, 1, 2, 3), "TCP", 22⟩
    a.plan (some networkPolicy) ⟨"ecosystem", "ldap"⟩ .empty = .ok (.replace openedPolicy) ∧
      ¬ LetsIn addresses networkPolicy ssh ∧ LetsIn addresses openedPolicy ssh := by
  intro a ssh
  refine ⟨by decide +kernel, ?_, ?_⟩
  · rintro ⟨rule, hrule, -, hport⟩
    cases List.mem_singleton.1 hrule
    obtain ⟨e, he, -, hnumber⟩ := hport.resolve_left (List.cons_ne_nil _ _)
    cases List.mem_singleton.1 he
    have hsame : (22 : Int) = 389 := hnumber
    exact absurd hsame (by decide)
  · exact ⟨_, List.mem_cons_self, .inr ⟨_, List.mem_cons_self, rfl, rfl⟩, .inl rfl⟩

end Admission
end ServiceExposure
