import ServiceExposure.Proofs.Owned.Cut
import ServiceExposure.Proofs.Reconciler.Contributions
/-!
# Contributions that are cut off

A contribution may be cut off between any two of its calls.  Whatever it has done until then concerns the ports of its
own service (`Reconciler.maintains_convergePorts`), so another contribution of the service leads to where it would have
led without the first one (`Reconciler.perform_cut`): a half-written port is never taken for somebody else's.
-/
namespace ServiceExposure

namespace Reconciler

/-- Two clusters show the same of exposed ports: what the policy admits and has on record, what the load balancer
publishes, and what the backend forwards where. -/
structure Alike (r : Reconciler) (c c' : Cluster) : Prop where
  admitted : ∀ e, e ∈ r.admission.portsIn c ↔ e ∈ r.admission.portsIn c'
  recorded : r.admission.annotationsIn c = r.admission.annotationsIn c'
  published : ∀ p, p ∈ r.loadBalancer.portsIn c ↔ p ∈ r.loadBalancer.portsIn c'
  forwarded :
    match r.backend with
    | .nginx => (∀ e, e ∈ r.tcpTable.entriesIn c ↔ e ∈ r.tcpTable.entriesIn c') ∧
      ∀ e, e ∈ r.udpTable.entriesIn c ↔ e ∈ r.udpTable.entriesIn c'
    | .traefik => ∀ t name, PortRoutes.routeIn t c name = PortRoutes.routeIn t c' name

variable {r : Reconciler} {members : String → Prop} {ns name : String} {w : Wishes} {m : Holdings} {c c' : Cluster}
  {desired : ExposedPorts}

/-! ## What one contribution maintains -/

theorem Halfway.of_backend (h : r.Halfway members ns name w m c) (hc : c'.Named)
    (hrest : ∀ {kind n}, kind = .service ∨ kind = .networkPolicy → c'.get? kind n = c.get? kind n)
    (hbackend : r.ForwardsBut ns name m c') : r.Halfway members ns name w m c' where
  named := hc
  policy := by
    rw [hrest (.inr rfl)]
    exact h.policy
  balancer := by
    rw [LoadBalancer.portsIn_congr (hrest (.inl rfl))]
    exact h.balancer
  backend := hbackend

theorem maintains_admission (hs : r.settings.ownership.Separates members) (hn : members name) (hd : desired.Valid)
    (h : r.Halfway members ns name w m c) :
    (r.admission.resource.converge r.settings.retry ⟨ns, name⟩ desired).run.Maintains
      (r.Halfway members ns name w m) c := by
  refine SharedResource.maintains_converge r.admission.guarded r.settings.retry (fun _ h => h.named) ?_ h
  intro c change h hp
  have hrest : ∀ {kind n}, kind ≠ .networkPolicy →
      (c.commit .networkPolicy r.admission.name change).get? kind n = c.get? kind n := fun hne =>
    @Cluster.get?_commit_ne .networkPolicy c _ _ _ change (.inl hne)
  obtain ⟨w', hw', hbeside, hpolicy⟩ := h.policy
  obtain ⟨change', hplan, hfollows⟩ := Admission.follows_commit hs hw' hn hpolicy ns desired
  obtain rfl := Except.ok.inj (hplan.symm.trans hp)
  constructor
  · exact SharedResource.named_commit r.admission.guarded h.named hp
  · exact ⟨_, hw'.set hn hd, hbeside.trans (w'.beside_set name desired), hfollows⟩
  · refine h.balancer.imp (fun m' hshows => ?_)
    have hports : r.loadBalancer.portsIn (c.commit .networkPolicy r.admission.name change') = r.loadBalancer.portsIn c :=
      LoadBalancer.portsIn_congr (hrest (by decide))
    exact hports ▸ hshows
  · exact h.backend.congr (fun _ hne => hrest hne)

theorem maintains_loadBalancer (hd : desired.Valid) (h : r.Halfway members ns name w m c) :
    (r.loadBalancer.resource.converge r.settings.retry ⟨ns, name⟩ desired).run.Maintains
      (r.Halfway members ns name w m) c := by
  refine SharedResource.maintains_converge r.loadBalancer.guarded r.settings.retry (fun _ h => h.named) ?_ h
  intro c change h hp
  have hrest : ∀ {kind n}, kind ≠ .service →
      (c.commit .service r.loadBalancer.name change).get? kind n = c.get? kind n := fun hne =>
    @Cluster.get?_commit_ne .service c _ _ _ change (.inl hne)
  constructor
  · exact SharedResource.named_commit r.loadBalancer.guarded h.named hp
  · change ∃ w', w'.Legal members ∧ w.Beside name w' ∧
      r.admission.Follows w' ((c.commit .service r.loadBalancer.name change).get? .networkPolicy r.admission.name)
    rw [hrest (by decide)]
    exact h.policy
  · cases hp
    exact h.balancer.keep hd (fun _ hm hshows => LoadBalancer.shows_commit hm hd hshows)
  · exact h.backend.congr (fun hne _ => hrest hne)

/-- A table of the backend, where another one stays as it is. -/
theorem maintains_table {t : ForwardingTable} (ht : t.protocol.isForwardable = true) (hd : desired.Valid)
    (hshows : ∀ {c}, r.ForwardsBut ns name m c → m.ButFor name (fun m' => (t.ledger ns).Shows m' (t.entriesIn c)))
    (hkeep : ∀ {c c' : Cluster}, r.ForwardsBut ns name m c →
      (∀ {kind n}, kind ≠ .configMap ∨ n ≠ t.name → c'.get? kind n = c.get? kind n) →
      m.ButFor name (fun m' => (t.ledger ns).Shows m' (t.entriesIn c')) → r.ForwardsBut ns name m c')
    (h : r.Halfway members ns name w m c) :
    (t.resource.converge r.settings.retry ⟨ns, name⟩ desired).run.Maintains (r.Halfway members ns name w m) c := by
  refine SharedResource.maintains_converge t.guarded r.settings.retry (fun _ h => h.named) ?_ h
  intro c change h hp
  have hrest : ∀ {kind n}, kind ≠ .configMap ∨ n ≠ t.name →
      (c.commit .configMap t.name change).get? kind n = c.get? kind n := fun hne =>
    @Cluster.get?_commit_ne .configMap c _ _ _ change hne
  refine h.of_backend (SharedResource.named_commit t.guarded h.named hp) ?_ (hkeep h.backend hrest ?_)
  · rintro kind n (rfl | rfl)
    · exact hrest (.inl (by decide))
    · exact hrest (.inl (by decide))
  · cases hp
    exact (hshows h.backend).keep hd (fun _ hm hs => ForwardingTable.shows_commit ht hd hm hs)

/-- The routes of one transport, where those of the other one stay as they are. -/
theorem maintains_routes {t : PortRoutes.Transport} (hb : r.backend = .traefik) (hd : desired.Valid)
    (h : r.Halfway members ns name w m c) :
    (PortRoutes.converge r.settings.ns r.settings.retry t ⟨ns, name⟩ desired).run.Maintains
      (r.Halfway members ns name w m) c := by
  have hleads : ∀ c, r.ForwardsBut ns name m c ↔ ∀ t, m.ButFor name (fun m' => PortRoutes.Leads t ns m' c) := by
    intro c
    unfold ForwardsBut
    rw [hb]
    constructor
    · intro h t
      cases t with
      | tcp => exact h.1
      | udp => exact h.2
    · exact fun h => ⟨h .tcp, h .udp⟩
  refine PortRoutes.maintains_converge hd (fun c h => ⟨h.named, (hleads c).1 h.backend t⟩) ?_ _ _ h
  intro c c' h hc hrest ht
  refine h.of_backend hc ?_ ((hleads c').2 (fun t' => ?_))
  · rintro kind n (rfl | rfl)
    · exact hrest (by cases t <;> decide)
    · exact hrest (by cases t <;> decide)
  · by_cases he : t' = t
    · rw [he]
      exact ht
    · refine ((hleads c).1 h.backend t').imp (fun m' hl => hl.congr (hrest ?_))
      cases t <;> cases t' <;> first | decide | exact absurd rfl he

theorem maintains_materialize (htables : r.settings.tcpServices ≠ r.settings.udpServices) (hd : desired.Valid)
    (h : r.Halfway members ns name w m c) :
    (r.materialize ⟨ns, name⟩ desired).run.Maintains (r.Halfway members ns name w m) c := by
  unfold materialize
  have hf := hd.forwardable
  generalize desired.forwardable = ports at hf ⊢
  cases hb : r.backend with
  | nginx =>
    have hshows : ∀ c, r.ForwardsBut ns name m c ↔
        m.ButFor name (fun m' => (r.tcpTable.ledger ns).Shows m' (r.tcpTable.entriesIn c)) ∧
        m.ButFor name (fun m' => (r.udpTable.ledger ns).Shows m' (r.udpTable.entriesIn c)) := fun c => by
      unfold ForwardsBut
      rw [hb]
    refine Action.maintains_bind (maintains_table rfl hf (fun h => ((hshows _).1 h).1) ?_ h)
      (fun _ c h => maintains_table rfl hf (fun h => ((hshows _).1 h).2) ?_ h) h
    · intro c c' hc hrest htcp
      refine (hshows c').2 ⟨htcp, ?_⟩
      rw [ForwardingTable.entriesIn_congr (hrest (.inr htables.symm))]
      exact ((hshows c).1 hc).2
    · intro c c' hc hrest hudp
      refine (hshows c').2 ⟨?_, hudp⟩
      rw [ForwardingTable.entriesIn_congr (hrest (.inr htables))]
      exact ((hshows c).1 hc).1
  | traefik => exact Action.maintains_bind (maintains_routes hb hf h) (fun _ _ h => maintains_routes hb hf h) h

/-- **Wherever a contribution is cut off**, the others have what they had. -/
theorem maintains_convergePorts (hs : r.settings.ownership.Separates members) (hn : members name)
    (htables : r.settings.tcpServices ≠ r.settings.udpServices) (hd : desired.Valid)
    (h : r.Halfway members ns name w m c) :
    (r.convergePorts ⟨ns, name⟩ desired).run.Maintains (r.Halfway members ns name w m) c :=
  Action.maintains_bind (maintains_admission hs hn hd h)
    (fun _ _ h => Action.maintains_bind (maintains_loadBalancer hd h)
      (fun _ _ h => maintains_materialize htables hd h) h) h

/-! ## What comes after -/

theorem Settled.halfway_cut (hs : r.settings.ownership.Separates members) (hw : w.Legal members)
    (htables : r.settings.tcpServices ≠ r.settings.udpServices) {x : Contribution} (hns : (x.contributor r).ns = ns)
    (hn : members (x.contributor r).name) (h : r.Settled ns w m c) (failures : List (Option Refusal)) :
    r.Halfway members ns (x.contributor r).name w m ((x.action r).run.cut failures c) := by
  have hhalfway := h.halfway hw (x.contributor r).name
  cases hread : x.desired with
  | error e =>
    -- no call is made at all
    rw [Contribution.action_eq_error hread]
    cases failures <;> exact hhalfway
  | ok ports =>
    rw [Contribution.action_eq hread]
    subst hns
    exact (maintains_convergePorts hs hn htables (Contribution.valid_desired hread) hhalfway).cut hhalfway

/-- **What the cluster shows is settled** by what was asked for and who holds what. -/
theorem Settled.alike (h : r.Settled ns w m c) (h' : r.Settled ns w m c') : r.Alike c c' where
  admitted e := (h.follows.mem_portsIn e).trans (h'.follows.mem_portsIn e).symm
  recorded := OwnershipRecords.eq_of_hold h.follows.hold_annotationsIn h'.follows.hold_annotationsIn
  published p := (h.balancer.mem_iff p).trans (h'.balancer.mem_iff p).symm
  forwarded := by
    have hforwards := h.forwards
    have hforwards' := h'.forwards
    unfold Forwards at hforwards hforwards'
    cases hb : r.backend with
    | nginx =>
      rw [hb] at hforwards hforwards'
      exact ⟨fun e => (hforwards.1.mem_iff e).trans (hforwards'.1.mem_iff e).symm,
        fun e => (hforwards.2.mem_iff e).trans (hforwards'.2.mem_iff e).symm⟩
    | traefik =>
      rw [hb] at hforwards hforwards'
      intro t name
      refine Option.ext (fun route => ?_)
      cases t with
      | tcp => exact (hforwards.1 name route).trans (hforwards'.1 name route).symm
      | udp => exact (hforwards.2 name route).trans (hforwards'.2 name route).symm

/-- **A contribution makes up for one that was cut off**: after any contributions, and after part of another one by the
same service, it succeeds and leads to what it would have led to without that part. -/
theorem perform_cut (r : Reconciler) {ns : String} {xs : List Contribution} {x₁ x₂ : Contribution}
    (hsame : x₁.contributor r = x₂.contributor r) (hns : ∀ x ∈ x₂ :: xs, (x.contributor r).ns = ns)
    (hnames : ∀ x ∈ x₂ :: xs, OwnershipRecords.BeginsAlphanum (x.contributor r).name)
    (hkeys : ∀ x ∈ x₂ :: xs, ∀ y ∈ x₂ :: xs, r.settings.ownership.key (x.contributor r).name =
      r.settings.ownership.key (y.contributor r).name → (x.contributor r).name = (y.contributor r).name)
    (htables : r.settings.tcpServices ≠ r.settings.udpServices) {ports : ExposedPorts} (hread : x₂.desired = .ok ports)
    (failures : List (Option Refusal)) :
    ∃ c c', (x₂.action r).alone ((x₁.action r).run.cut failures (r.perform xs {}).2) = (.ok (), c) ∧
      (x₂.action r).alone (r.perform xs {}).2 = (.ok (), c') ∧ r.Alike c c' := by
  have hs : r.settings.ownership.Separates (fun n => ∃ x ∈ x₂ :: xs, n = (x.contributor r).name) := by
    refine ⟨?_, ?_⟩
    · rintro _ ⟨x, hx, rfl⟩
      exact hnames x hx
    · rintro _ _ ⟨x, hx, rfl⟩ ⟨y, hy, rfl⟩ hk
      exact hkeys x hx y hy hk
  obtain ⟨c₀, w, hrun, hw, h⟩ := perform_settled hs htables
    (fun x hx => ⟨hns x (List.mem_cons_of_mem x₂ hx), x, List.mem_cons_of_mem x₂ hx, rfl⟩)
    (Wishes.legal_none _) (r.settled_none ns)
  have hlast : (r.perform xs {}).2 = c₀ := congrArg Prod.snd hrun
  have hn : ∃ x ∈ x₂ :: xs, (x₂.contributor r).name = (x.contributor r).name := ⟨x₂, List.mem_cons_self, rfl⟩
  obtain rfl : (x₂.contributor r).ns = ns := hns x₂ List.mem_cons_self
  have hcut := h.halfway_cut (x := x₁) hs hw htables (congrArg Contributor.ns hsame) (by rw [hsame]; exact hn) failures
  rw [hsame] at hcut
  have hd := Contribution.valid_desired hread
  -- both ways lead to clusters that are settled by the same wishes and holdings
  obtain ⟨c, hagain, hc⟩ := alone_convergePorts hs hn htables hd h.valid h.wished hcut
  obtain ⟨c', halone, hc'⟩ := alone_convergePorts hs hn htables hd h.valid h.wished (h.halfway hw _)
  rw [hlast, Contribution.action_eq hread]
  exact ⟨c, c', hagain, halone, hc.alike hc'⟩

/-- A service that moves to another port is cut off when its old route is deleted, and moves elsewhere then. -/
theorem perform_cut_moved :
    let r : Reconciler := ⟨{}, .traefik, ⟨.done (.ok false), fun _ => .done (.ok true)⟩⟩
    let xs : List Contribution :=
      [.expose (.wanting "ldap" [⟨.tcp, 389, 389⟩]), .expose (.wanting "scm" [⟨.tcp, 2222, 22⟩])]
    let x₁ : Contribution := .expose (.wanting "scm" [⟨.tcp, 2022, 22⟩])
    let x₂ : Contribution := .expose (.wanting "scm" [⟨.tcp, 2222, 2022⟩])
    let failures : List (Option Refusal) := List.replicate 6 none ++ [some .unreadable]
    let cut := (x₁.action r).run.cut failures (r.perform xs {}).2
    (PolicyPort.ofId ⟨.tcp, 2022⟩ ∈ r.admission.portsIn cut ∧
      (PortRoutes.listed .tcp cut).map (·.metadata.anyName) = ["ldap-389-tcp"]) ∧
    ∃ c c', (x₂.action r).alone cut = (.ok (), c) ∧ (x₂.action r).alone (r.perform xs {}).2 = (.ok (), c') ∧
      r.Alike c c' := by
  intro r xs x₁ x₂ failures cut
  have hns : ∀ x ∈ x₂ :: xs, (x.contributor r).ns = "ecosystem" := by decide +kernel
  have hread : x₂.desired.toBool = true := by decide +kernel
  obtain ⟨ports, hports⟩ : ∃ ports, x₂.desired = .ok ports := by
    cases hd : x₂.desired with
    | ok ports => exact ⟨ports, rfl⟩
    | error e => exact absurd (hd ▸ hread) nofun
  exact ⟨by decide +kernel, perform_cut r (by decide +kernel) hns (by decide +kernel) (by decide +kernel)
    (by decide +kernel) hports failures⟩

end Reconciler
end ServiceExposure
