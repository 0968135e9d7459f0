import ServiceExposure.Proofs.Owned.Routes
import ServiceExposure.Proofs.Shared.Admission
import ServiceExposure.Proofs.Shared.Alone
import ServiceExposure.Proofs.Shared.LoadBalancer
import ServiceExposure.Proofs.Shared.Tables
import ServiceExposure.Reconciler.Ports
/-!
# Contributions, one after the other

Services ask for ports and withdraw, one after the other on a cluster that was empty.  Who holds which port is decided by
`Holdings.step` alone, and after every contribution the cluster presents these holdings (`Reconciler.Presents`): the
forwarding tables or the routes are the holdings, the load balancer has a port for each, and the policy admits them all.
The policy follows what was asked for, not what is held, so the invariant (`Reconciler.Settled`) carries both.  A
contribution needs less than that: whatever the service itself has left behind does not matter (`Reconciler.Halfway`).
-/
namespace ServiceExposure

/-- What is asked of a reconciler. -/
inductive Contribution where
  | expose (s : Service)
  | unexpose (contributor : Contributor)

namespace Contribution

def action (r : Reconciler) : Contribution → Action Unit
  | .expose s => r.expose s
  | .unexpose contributor => r.unexpose contributor

/-- On whose behalf it is asked. -/
def contributor (r : Reconciler) : Contribution → Contributor
  | .expose s => r.contributorOf s
  | .unexpose contributor => contributor

/-- The ports that are asked for, unless they cannot be read. -/
def desired : Contribution → Except Error ExposedPorts
  | .expose s => s.exposedPorts
  | .unexpose _ => .ok .empty

theorem action_eq {r : Reconciler} {x : Contribution} {ports : ExposedPorts} (h : x.desired = .ok ports) :
    x.action r = r.convergePorts (x.contributor r) ports := by
  cases x with
  | unexpose contributor =>
    cases h
    rfl
  | expose s =>
    have hread : s.exposedPorts = .ok ports := h
    change r.expose s = _
    unfold Reconciler.expose
    rw [hread]
    rfl

/-- Nothing happens on behalf of a service whose ports cannot be read. -/
theorem action_eq_error {r : Reconciler} {x : Contribution} {e : Error} (h : x.desired = .error e) :
    x.action r = ExceptT.mk (.done (.error e)) := by
  cases x with
  | unexpose contributor => cases h
  | expose s =>
    have hread : s.exposedPorts = .error e := h
    change r.expose s = _
    unfold Reconciler.expose
    rw [hread]
    rfl

theorem valid_desired {x : Contribution} {ports : ExposedPorts} (h : x.desired = .ok ports) : ports.Valid := by
  cases x with
  | unexpose contributor =>
    cases h
    exact ExposedPorts.valid_empty
  | expose s => exact Service.valid_of_exposedPorts h

end Contribution

namespace Reconciler

/-- Contributions one after the other, and what comes of each. -/
def perform (r : Reconciler) : List Contribution → Cluster → List (Except Error Unit) × Cluster
  | [], c => ([], c)
  | x :: xs, c =>
    let first := (x.action r).alone c
    let others := r.perform xs first.2
    (first.1 :: others.1, others.2)

/-- Who holds which port after a contribution; one whose ports cannot be read changes nothing. -/
def hold (r : Reconciler) (m : Holdings) (x : Contribution) : Holdings :=
  match x.desired with
  | .ok ports => m.step (x.contributor r).name ports
  | .error _ => m

/-- Who holds which port after contributions, where nobody held any before. -/
def holdings (r : Reconciler) (xs : List Contribution) : Holdings := xs.foldl r.hold .none

end Reconciler

namespace Reconciler

/-- The backend forwards exactly what the services of a namespace hold. -/
def Forwards (r : Reconciler) (ns : String) (m : Holdings) (c : Cluster) : Prop :=
  match r.backend with
  | .nginx =>
    (r.tcpTable.ledger ns).Shows m (r.tcpTable.entriesIn c) ∧ (r.udpTable.ledger ns).Shows m (r.udpTable.entriesIn c)
  | .traefik => PortRoutes.Leads .tcp ns m c ∧ PortRoutes.Leads .udp ns m c

/-- The cluster presents the holdings of the services of a namespace. -/
structure Presents (r : Reconciler) (ns : String) (m : Holdings) (c : Cluster) : Prop where
  forwards : r.Forwards ns m c
  /-- Each port of the load balancer is held and named after its holder. -/
  balancer : LoadBalancer.ledger.Shows m (r.loadBalancer.portsIn c)
  absent : c.get? .service r.loadBalancer.name = none ↔ ∀ id, m id = none
  admitted : ∀ {id h}, m id = some h → PolicyPort.ofId id ∈ r.admission.portsIn c

/-- What holds between contributions. -/
structure Settled (r : Reconciler) (ns : String) (w : Wishes) (m : Holdings) (c : Cluster) : Prop where
  named : c.Named
  valid : m.Valid
  follows : r.admission.Follows w (c.get? .networkPolicy r.admission.name)
  /-- Whoever holds a port has asked for it. -/
  wished : ∀ {id h}, m id = some h → id ∈ (w h.service).ids
  balancer : LoadBalancer.ledger.Shows m (r.loadBalancer.portsIn c)
  absent : c.get? .service r.loadBalancer.name = none ↔ r.loadBalancer.portsIn c = []
  forwards : r.Forwards ns m c

/-- The backend forwards what the services of a namespace hold, but for what one of them holds. -/
def ForwardsBut (r : Reconciler) (ns service : String) (m : Holdings) (c : Cluster) : Prop :=
  match r.backend with
  | .nginx =>
    m.ButFor service (fun m' => (r.tcpTable.ledger ns).Shows m' (r.tcpTable.entriesIn c)) ∧
    m.ButFor service (fun m' => (r.udpTable.ledger ns).Shows m' (r.udpTable.entriesIn c))
  | .traefik =>
    m.ButFor service (fun m' => PortRoutes.Leads .tcp ns m' c) ∧
    m.ButFor service (fun m' => PortRoutes.Leads .udp ns m' c)

/-- What holds between contributions, but for whatever one service has. -/
structure Halfway (r : Reconciler) (members : String → Prop) (ns service : String) (w : Wishes) (m : Holdings)
    (c : Cluster) : Prop where
  named : c.Named
  policy : ∃ w', w'.Legal members ∧ w.Beside service w' ∧
    r.admission.Follows w' (c.get? .networkPolicy r.admission.name)
  balancer : m.ButFor service (fun m' => LoadBalancer.ledger.Shows m' (r.loadBalancer.portsIn c))
  backend : r.ForwardsBut ns service m c

/-! ## Forwarding -/

variable {r : Reconciler} {ns service : String} {m : Holdings} {w : Wishes} {c : Cluster} {desired : ExposedPorts}

theorem forwards_none (r : Reconciler) (ns : String) : r.Forwards ns .none {} := by
  have hshows : ∀ t : ForwardingTable, (t.ledger ns).Shows .none (t.entriesIn {}) := fun t => by
    refine ⟨.nil, fun e => ⟨(fun h => nomatch h), ?_⟩⟩
    rintro ⟨id, h, -, hid, -⟩
    cases hid
  have hleads : ∀ t, PortRoutes.Leads t ns .none {} := fun t name route => by
    constructor
    · intro h
      cases t <;> cases h
    · rintro ⟨id, h, -, hid, -⟩
      cases hid
  unfold Forwards
  cases r.backend with
  | nginx => exact ⟨hshows _, hshows _⟩
  | traefik => exact ⟨hleads _, hleads _⟩

theorem Forwards.but (h : r.Forwards ns m c) (hm : m.Valid) (service : String) : r.ForwardsBut ns service m c := by
  unfold Forwards at h
  unfold ForwardsBut
  cases hb : r.backend with
  | nginx =>
    rw [hb] at h
    exact ⟨.of hm h.1 service, .of hm h.2 service⟩
  | traefik =>
    rw [hb] at h
    exact ⟨.of hm h.1 service, .of hm h.2 service⟩

/-- Only objects of the backend matter for forwarding. -/
theorem ForwardsBut.congr {c' : Cluster} (h : r.ForwardsBut ns service m c)
    (hsame : ∀ {kind n}, kind ≠ .service → kind ≠ .networkPolicy → c'.get? kind n = c.get? kind n) :
    r.ForwardsBut ns service m c' := by
  have hentries : ∀ t : ForwardingTable, t.entriesIn c' = t.entriesIn c := fun t =>
    ForwardingTable.entriesIn_congr (hsame (by decide) (by decide))
  have hroutes : ∀ t m', PortRoutes.Leads t ns m' c → PortRoutes.Leads t ns m' c' := fun t _ hl =>
    hl.congr (hsame (by cases t <;> decide) (by cases t <;> decide))
  unfold ForwardsBut at h ⊢
  cases hb : r.backend with
  | nginx =>
    rw [hb] at h
    rw [hentries, hentries]
    exact h
  | traefik =>
    rw [hb] at h
    exact ⟨h.1.imp (hroutes _), h.2.imp (hroutes _)⟩

/-- A table alone takes one step of the holdings. -/
theorem alone_table {t : ForwardingTable} (ht : t.protocol.isForwardable = true) (retry : RetryPolicy) (hc : c.Named)
    (hd : desired.Valid) (h : m.ButFor service (fun m' => (t.ledger ns).Shows m' (t.entriesIn c))) :
    ∃ c', (t.resource.converge retry ⟨ns, service⟩ desired).alone c = (.ok (), c') ∧ c'.Named ∧
      (∀ {kind n}, kind ≠ .configMap ∨ n ≠ t.name → c'.get? kind n = c.get? kind n) ∧
      (t.ledger ns).Shows (m.step service desired) (t.entriesIn c') := by
  obtain ⟨m', hm, hb, hshows⟩ := h
  rw [← hb.step_eq desired]
  have hplan : t.resource.plan (c.get? t.resource.kind t.resource.name) ⟨ns, service⟩ desired =
    .ok (t.plan (c.get? .configMap t.name) ⟨ns, service⟩ desired) := rfl
  exact ⟨_, SharedResource.alone_converge t.guarded retry hc hplan, SharedResource.named_commit t.guarded hc hplan,
    fun hne => c.get?_commit_ne _ hne, ForwardingTable.shows_commit ht hd hm hshows⟩

/-- The routes of a transport alone take one step of the holdings. -/
theorem alone_routes {t : PortRoutes.Transport} (reported : String) (retry : RetryPolicy) (hc : c.Named)
    (hd : desired.Valid) (h : m.ButFor service (fun m' => PortRoutes.Leads t ns m' c)) :
    ∃ c', (PortRoutes.converge reported retry t ⟨ns, service⟩ desired).alone c = (.ok (), c') ∧ c'.Named ∧
      (∀ {other n}, other ≠ t.kind → c'.get? other n = c.get? other n) ∧
      PortRoutes.Leads t ns (m.step service desired) c' := by
  obtain ⟨m', hm, hb, hleads⟩ := h
  rw [← hb.step_eq desired]
  exact PortRoutes.alone_converge hleads hm hc hd reported retry service

/-- **Forwarding takes one step of the holdings.** -/
theorem alone_materialize (htables : r.settings.tcpServices ≠ r.settings.udpServices) (hc : c.Named)
    (hd : desired.Valid) (h : r.ForwardsBut ns service m c) :
    ∃ c', (r.materialize ⟨ns, service⟩ desired).alone c = (.ok (), c') ∧ c'.Named ∧
      (∀ {kind n}, kind = .service ∨ kind = .networkPolicy → c'.get? kind n = c.get? kind n) ∧
      r.Forwards ns (m.step service desired) c' := by
  unfold materialize
  rw [← m.step_forwardable]
  have hf := hd.forwardable
  generalize desired.forwardable = ports at hf ⊢
  unfold ForwardsBut at h
  unfold Forwards
  cases hb : r.backend with
  | nginx =>
    rw [hb] at h
    obtain ⟨c₁, hrun₁, hc₁, hrest₁, htcp⟩ := alone_table rfl r.settings.retry hc hf h.1
    have hudp : r.udpTable.entriesIn c₁ = r.udpTable.entriesIn c :=
      ForwardingTable.entriesIn_congr (hrest₁ (.inr htables.symm))
    obtain ⟨c₂, hrun₂, hc₂, hrest₂, hudp⟩ := alone_table (c := c₁) rfl r.settings.retry hc₁ hf (by
      rw [hudp]
      exact h.2)
    refine ⟨c₂, (Action.alone_bind_ok hrun₁ _).trans hrun₂, hc₂, ?_, ?_, hudp⟩
    · rintro kind n (rfl | rfl)
      · rw [hrest₂ (.inl (by decide)), hrest₁ (.inl (by decide))]
      · rw [hrest₂ (.inl (by decide)), hrest₁ (.inl (by decide))]
    · rw [ForwardingTable.entriesIn_congr (hrest₂ (.inr htables))]
      exact htcp
  | traefik =>
    rw [hb] at h
    obtain ⟨c₁, hrun₁, hc₁, hrest₁, htcp⟩ := alone_routes r.settings.ns r.settings.retry hc hf h.1
    obtain ⟨c₂, hrun₂, hc₂, hrest₂, hudp⟩ := alone_routes r.settings.ns r.settings.retry hc₁ hf
      (h.2.imp (fun _ hl => hl.congr (hrest₁ (by decide))))
    refine ⟨c₂, (Action.alone_bind_ok hrun₁ _).trans hrun₂, hc₂, ?_, htcp.congr (hrest₂ (by decide)), hudp⟩
    rintro kind n (rfl | rfl)
    · rw [hrest₂ (by decide), hrest₁ (by decide)]
    · rw [hrest₂ (by decide), hrest₁ (by decide)]

/-! ## One contribution -/

variable {members : String → Prop} {name : String}

theorem settled_none (r : Reconciler) (ns : String) : r.Settled ns .none .none {} where
  named := Cluster.named_empty
  valid := Holdings.valid_none
  follows := r.admission.follows_none
  wished := fun h => nomatch h
  balancer := by
    refine ⟨.nil, fun e => ⟨(fun h => nomatch h), ?_⟩⟩
    rintro ⟨id, h, -, hid, -⟩
    cases hid
  absent := ⟨fun _ => rfl, fun _ => rfl⟩
  forwards := r.forwards_none ns

theorem wished_step (h : ∀ {id h}, m id = some h → id ∈ (w h.service).ids) {id : PortId} {holding : Holding}
    (hid : m.step name desired id = some holding) : id ∈ (w.set name desired holding.service).ids := by
  unfold Wishes.set
  rcases Holdings.step_eq_some.1 hid with ⟨hid, hne⟩ | ⟨hclaim, -⟩
  · rw [if_neg hne]
    exact h hid
  · obtain ⟨p, hp, rfl, rfl⟩ := Holdings.claim_eq_some.1 hclaim
    rw [if_pos rfl]
    exact List.mem_map_of_mem hp

/-- The policy alone follows the new wish. -/
theorem alone_admission {a : Admission} (hs : a.records.Separates members) (hn : members name) (hw : w.Legal members)
    (retry : RetryPolicy) (hc : c.Named) (h : a.Follows w (c.get? .networkPolicy a.name)) (ns : String)
    (desired : ExposedPorts) :
    ∃ c', (a.resource.converge retry ⟨ns, name⟩ desired).alone c = (.ok (), c') ∧ c'.Named ∧
      (∀ {kind n}, kind ≠ .networkPolicy → c'.get? kind n = c.get? kind n) ∧
      a.Follows (w.set name desired) (c'.get? .networkPolicy a.name) := by
  obtain ⟨change, hplan, hfollows⟩ := Admission.follows_commit hs hw hn h ns desired
  exact ⟨_, SharedResource.alone_converge a.guarded retry hc hplan, SharedResource.named_commit a.guarded hc hplan,
    fun hne => @Cluster.get?_commit_ne .networkPolicy c _ _ _ change (.inl hne), hfollows⟩

/-- The load balancer alone takes one step of the holdings. -/
theorem alone_loadBalancer {l : LoadBalancer} (retry : RetryPolicy) (hc : c.Named) (hd : desired.Valid)
    (h : m.ButFor name (fun m' => LoadBalancer.ledger.Shows m' (l.portsIn c))) (ns : String) :
    ∃ c', (l.resource.converge retry ⟨ns, name⟩ desired).alone c = (.ok (), c') ∧ c'.Named ∧
      (∀ {kind n}, kind ≠ .service → c'.get? kind n = c.get? kind n) ∧
      LoadBalancer.ledger.Shows (m.step name desired) (l.portsIn c') ∧
      (c'.get? .service l.name = none ↔ l.portsIn c' = []) := by
  obtain ⟨m', hm, hb, hshows⟩ := h
  rw [← hb.step_eq desired]
  have hplan : l.resource.plan (c.get? l.resource.kind l.resource.name) ⟨ns, name⟩ desired =
    .ok (l.plan (c.get? .service l.name) ⟨ns, name⟩ desired) := rfl
  exact ⟨_, SharedResource.alone_converge l.guarded retry hc hplan, SharedResource.named_commit l.guarded hc hplan,
    fun hne => @Cluster.get?_commit_ne .service c _ _ _ (l.plan (c.get? .service l.name) ⟨ns, name⟩ desired) (.inl hne),
    LoadBalancer.shows_commit hm hd hshows, l.absent_iff_commit c ⟨ns, name⟩ desired⟩

theorem Settled.halfway (h : r.Settled ns w m c) (hw : w.Legal members) (service : String) :
    r.Halfway members ns service w m c where
  named := h.named
  policy := ⟨w, hw, w.beside_refl service, h.follows⟩
  balancer := .of h.valid h.balancer service
  backend := h.forwards.but h.valid service

/-- **One contribution**: policy, load balancer and forwarding take one step each, whatever the service has left behind. -/
theorem alone_convergePorts (hs : r.settings.ownership.Separates members) (hn : members name)
    (htables : r.settings.tcpServices ≠ r.settings.udpServices) (hd : desired.Valid) (hm : m.Valid)
    (hwished : ∀ {id h}, m id = some h → id ∈ (w h.service).ids) (h : r.Halfway members ns name w m c) :
    ∃ c', (r.convergePorts ⟨ns, name⟩ desired).alone c = (.ok (), c') ∧
      r.Settled ns (w.set name desired) (m.step name desired) c' := by
  obtain ⟨w', hw', hbeside, hpolicy⟩ := h.policy
  obtain ⟨c₁, hrun₁, hc₁, hrest₁, hfollows⟩ := alone_admission hs hn hw' r.settings.retry h.named hpolicy ns desired
  rw [hbeside.set_eq] at hfollows
  have hports : r.loadBalancer.portsIn c₁ = r.loadBalancer.portsIn c := LoadBalancer.portsIn_congr (hrest₁ (by decide))
  obtain ⟨c₂, hrun₂, hc₂, hrest₂, hbalancer, habsent⟩ := alone_loadBalancer (c := c₁) r.settings.retry hc₁ hd (by
    rw [hports]
    exact h.balancer) ns
  obtain ⟨c₃, hrun₃, hc₃, hrest₃, hforwards⟩ := alone_materialize htables hc₂ hd
    (h.backend.congr (fun hne hne' => by rw [hrest₂ hne, hrest₁ hne']))
  refine ⟨c₃, (Action.alone_bind_ok hrun₁ _).trans ((Action.alone_bind_ok hrun₂ _).trans hrun₃), ?_⟩
  constructor
  · exact hc₃
  · exact hm.step hd
  · rw [hrest₃ (.inr rfl), hrest₂ (by decide)]
    exact hfollows
  · exact wished_step hwished
  · rw [LoadBalancer.portsIn_congr (hrest₃ (.inl rfl))]
    exact hbalancer
  · rw [LoadBalancer.portsIn_congr (hrest₃ (.inl rfl)), hrest₃ (.inl rfl)]
    exact habsent
  · exact hforwards

/-- A contribution succeeds exactly if its ports can be read, and changes nothing if they cannot. -/
theorem alone_action (hs : r.settings.ownership.Separates members) (hw : w.Legal members)
    (htables : r.settings.tcpServices ≠ r.settings.udpServices) {x : Contribution} (hns : (x.contributor r).ns = ns)
    (hn : members (x.contributor r).name) (h : r.Settled ns w m c) :
    ∃ c' w', (x.action r).alone c = (x.desired.map (fun _ => ()), c') ∧ w'.Legal members ∧
      r.Settled ns w' (r.hold m x) c' := by
  unfold hold
  cases hread : x.desired with
  | error e =>
    rw [Contribution.action_eq_error hread]
    exact ⟨c, w, rfl, hw, h⟩
  | ok ports =>
    have hd := Contribution.valid_desired hread
    obtain ⟨c', hrun, hsettled⟩ := alone_convergePorts hs hn htables hd h.valid h.wished (h.halfway hw _)
    rw [Contribution.action_eq hread]
    rw [← hns] at hrun
    exact ⟨c', _, hrun, hw.set hn hd, hsettled⟩

/-! ## All contributions -/

theorem perform_settled (hs : r.settings.ownership.Separates members)
    (htables : r.settings.tcpServices ≠ r.settings.udpServices) : ∀ {xs : List Contribution} {w : Wishes} {m : Holdings}
    {c : Cluster}, (∀ x ∈ xs, (x.contributor r).ns = ns ∧ members (x.contributor r).name) → w.Legal members →
    r.Settled ns w m c → ∃ c' w', r.perform xs c = (xs.map (fun x => x.desired.map (fun _ => ())), c') ∧
      w'.Legal members ∧ r.Settled ns w' (xs.foldl r.hold m) c'
  | [], w, _, c, _, hw, h => ⟨c, w, rfl, hw, h⟩
  | x :: xs, w, m, c, hx, hw, h => by
    obtain ⟨hns, hn⟩ := hx x List.mem_cons_self
    obtain ⟨c₁, w₁, hrun, hw₁, h₁⟩ := alone_action hs hw htables hns hn h
    obtain ⟨c₂, w₂, hruns, hw₂, h₂⟩ := perform_settled hs htables (fun x' hx' => hx x' (List.mem_cons_of_mem x hx')) hw₁ h₁
    refine ⟨c₂, w₂, ?_, hw₂, h₂⟩
    unfold perform
    dsimp only
    rw [hrun, hruns]
    rfl

theorem presents_of_settled (h : r.Settled ns w m c) : r.Presents ns m c := by
  refine ⟨h.forwards, h.balancer, h.absent.trans ?_, ?_⟩
  · constructor
    · intro hnil id
      cases hid : m id with
      | none => rfl
      | some holding =>
        have hmem := (h.balancer.mem_iff _).2 ⟨id, holding, rfl, hid, rfl⟩
        rw [hnil] at hmem
        cases hmem
    · intro hnone
      refine List.eq_nil_iff_forall_not_mem.2 (fun e he => ?_)
      obtain ⟨id, holding, -, hid, -⟩ := (h.balancer.mem_iff e).1 he
      rw [hnone] at hid
      cases hid
  · intro id holding hid
    exact (h.follows.mem_portsIn _).2 ⟨id, ⟨holding.service, h.wished hid⟩, rfl⟩

/-- **After any contributions the cluster presents who holds which port.**  A contribution succeeds exactly if its ports
can be read, and its caller's name needs to begin with a letter or digit only. -/
theorem perform_presents (r : Reconciler) {ns : String} {xs : List Contribution}
    (hns : ∀ x ∈ xs, (x.contributor r).ns = ns)
    (hnames : ∀ x ∈ xs, OwnershipRecords.BeginsAlphanum (x.contributor r).name)
    (hkeys : ∀ x ∈ xs, ∀ y ∈ xs, r.settings.ownership.key (x.contributor r).name =
      r.settings.ownership.key (y.contributor r).name → (x.contributor r).name = (y.contributor r).name)
    (htables : r.settings.tcpServices ≠ r.settings.udpServices) :
    ∃ c, r.perform xs {} = (xs.map (fun x => x.desired.map (fun _ => ())), c) ∧
      r.Presents ns (r.holdings xs) c := by
  have hs : r.settings.ownership.Separates (fun n => ∃ x ∈ xs, n = (x.contributor r).name) := by
    refine ⟨?_, ?_⟩
    · rintro _ ⟨x, hx, rfl⟩
      exact hnames x hx
    · rintro _ _ ⟨x, hx, rfl⟩ ⟨y, hy, rfl⟩ hk
      exact hkeys x hx y hy hk
  obtain ⟨c, w, hrun, -, hsettled⟩ := perform_settled hs htables (fun x hx => ⟨hns x hx, x, hx, rfl⟩)
    (Wishes.legal_none _) (r.settled_none ns)
  exact ⟨c, hrun, presents_of_settled hsettled⟩

/-- Two services want one port; the first one changes where it leads and gives another port up. -/
def competition : List Contribution :=
  [.expose (.wanting "scm" [⟨.tcp, 2222, 22⟩, ⟨.udp, 53, 53⟩]), .expose (.wanting "ldap" [⟨.tcp, 2222, 389⟩]),
    .expose (.wanting "scm" [⟨.tcp, 2222, 2022⟩])]

theorem perform_presents_competition :
    let r : Reconciler := ⟨{}, .traefik, ⟨.done (.ok false), fun _ => .done (.ok true)⟩⟩
    r.holdings competition ⟨.tcp, 2222⟩ = some ⟨"scm", 2022⟩ ∧
      ∃ c, r.perform competition {} = ([.ok (), .ok (), .ok ()], c) ∧
        r.Presents "ecosystem" (r.holdings competition) c := by
  intro r
  have hread : ∀ x ∈ competition, x.desired.toBool = true := by decide +kernel
  have hall : competition.map (fun x => x.desired.map (fun _ => ())) = [.ok (), .ok (), .ok ()] := by
    refine Eq.trans (b := competition.map (fun _ => Except.ok ())) (List.map_congr_left (fun x hx => ?_)) rfl
    cases hd : x.desired with
    | ok ports => rfl
    | error e => exact absurd (hd ▸ hread x hx) nofun
  rw [← hall]
  exact ⟨by decide +kernel, perform_presents r (by decide +kernel) (by decide +kernel) (by decide +kernel)
    (by decide +kernel)⟩

end Reconciler
end ServiceExposure
