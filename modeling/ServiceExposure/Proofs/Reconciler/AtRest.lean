import ServiceExposure.Proofs.Owned.AtRest
import ServiceExposure.Proofs.Reconciler.Contributions
import ServiceExposure.Proofs.Shared.AtRest
/-!
# Contributions made twice

A contribution that has just succeeded finds everything in order when it is made again, and writes nothing
(`Reconciler.perform_again`).  Load balancer and tables may hold whatever others have put there; policy and routes are
the contributors' own.  That much is kept by every contribution (`Reconciler.Orderly`).
-/
namespace ServiceExposure
namespace Reconciler

/-- What contributors of a namespace find and leave. -/
structure Orderly (r : Reconciler) (ns : String) (c : Cluster) : Prop where
  named : c.Named
  policy : r.admission.Tidy c
  balancer : ((r.loadBalancer.portsIn c).map ServicePort.id).Nodup
  routes : r.backend = .traefik → ∃ m : Holdings, m.Valid ∧ ∀ t, PortRoutes.Leads t ns m c

variable {r : Reconciler} {ns service : String} {c : Cluster} {desired : ExposedPorts}

/-- The policy is brought about and at rest then, or nothing happens. -/
theorem admission_atRest {a : Admission} (retry : RetryPolicy) (hc : c.Named) (ht : a.Tidy c) (hd : desired.Valid)
    (who : Contributor) :
    (∃ e, (a.resource.converge retry who desired).alone c = (.error e, c)) ∨
    ∃ c', (a.resource.converge retry who desired).alone c = (.ok (), c') ∧ c'.Named ∧
      (∀ {kind n}, kind ≠ .networkPolicy → c'.get? kind n = c.get? kind n) ∧ a.Tidy c' ∧
      a.resource.AtRest who desired c' := by
  -- somebody's record may be unreadable, which fails the plan before anything is written
  cases hplan : a.plan (c.get? .networkPolicy a.name) who desired with
  | error e => exact .inl ⟨_, SharedResource.alone_converge_error (s := a.resource) retry hplan⟩
  | ok change =>
    obtain ⟨hrest, htidy⟩ := Admission.atRest_commit ht hd hplan
    exact .inr ⟨_, SharedResource.alone_converge a.guarded retry hc hplan, SharedResource.named_commit a.guarded hc hplan,
      fun hne => @Cluster.get?_commit_ne .networkPolicy c _ _ _ change (.inl hne), htidy, hrest⟩

/-- The load balancer is brought about, and is at rest then. -/
theorem loadBalancer_atRest {l : LoadBalancer} (retry : RetryPolicy) (hc : c.Named)
    (hn : ((l.portsIn c).map ServicePort.id).Nodup) (hd : desired.Valid) (who : Contributor) :
    ∃ c', (l.resource.converge retry who desired).alone c = (.ok (), c') ∧ c'.Named ∧
      (∀ {kind n}, kind ≠ .service → c'.get? kind n = c.get? kind n) ∧ ((l.portsIn c').map ServicePort.id).Nodup ∧
      l.resource.AtRest who desired c' := by
  have hplan : l.resource.plan (c.get? l.resource.kind l.resource.name) who desired =
    .ok (l.plan (c.get? .service l.name) who desired) := rfl
  refine ⟨_, SharedResource.alone_converge l.guarded retry hc hplan, SharedResource.named_commit l.guarded hc hplan,
    fun hne => @Cluster.get?_commit_ne .service c _ _ _ (l.plan (c.get? .service l.name) who desired) (.inl hne), ?_,
    LoadBalancer.atRest_commit hn hd⟩
  have hports := l.portsIn_commit c who desired
  exact hports ▸ nodup_merge ServicePort.id _ _ _ hn

theorem table_atRest {t : ForwardingTable} (retry : RetryPolicy) (hc : c.Named)
    (hd : desired.Valid) (who : Contributor) :
    ∃ c', (t.resource.converge retry who desired).alone c = (.ok (), c') ∧ c'.Named ∧
      (∀ {kind n}, kind ≠ .configMap ∨ n ≠ t.name → c'.get? kind n = c.get? kind n) ∧
      t.resource.AtRest who desired c' := by
  have hplan : t.resource.plan (c.get? t.resource.kind t.resource.name) who desired =
    .ok (t.plan (c.get? .configMap t.name) who desired) := rfl
  exact ⟨_, SharedResource.alone_converge t.guarded retry hc hplan, SharedResource.named_commit t.guarded hc hplan,
    fun hne => c.get?_commit_ne _ hne, ForwardingTable.atRest_commit hd c⟩

/-- **The backend is brought about**, and is only read the next time. -/
theorem materialize_again (htables : r.settings.tcpServices ≠ r.settings.udpServices) (hc : c.Named)
    (hroutes : r.backend = .traefik → ∃ m : Holdings, m.Valid ∧ ∀ t, PortRoutes.Leads t ns m c) (hd : desired.Valid)
    (service : String) :
    ∃ c', (r.materialize ⟨ns, service⟩ desired).alone c = (.ok (), c') ∧ c'.Named ∧
      (∀ {kind n}, kind = .service ∨ kind = .networkPolicy → c'.get? kind n = c.get? kind n) ∧
      (r.backend = .traefik → ∃ m : Holdings, m.Valid ∧ ∀ t, PortRoutes.Leads t ns m c') ∧
      (r.materialize ⟨ns, service⟩ desired).OnlyReads () c' := by
  unfold materialize
  have hf := hd.forwardable
  generalize desired.forwardable = ports at hf ⊢
  cases hb : r.backend with
  | nginx =>
    obtain ⟨c₁, hrun₁, hc₁, hrest₁, htcp⟩ := table_atRest (t := r.tcpTable) r.settings.retry hc hf ⟨ns, service⟩
    obtain ⟨c₂, hrun₂, hc₂, hrest₂, hudp⟩ := table_atRest (t := r.udpTable) r.settings.retry hc₁ hf ⟨ns, service⟩
    have htcp : r.tcpTable.resource.AtRest ⟨ns, service⟩ ports c₂ := htcp.congr (hrest₂ (.inr htables))
    refine ⟨c₂, (Action.alone_bind_ok hrun₁ _).trans hrun₂, hc₂, ?_, (fun h => nomatch h),
      (htcp.onlyReads r.settings.retry).bind (hudp.onlyReads r.settings.retry)⟩
    rintro kind n (rfl | rfl)
    · rw [hrest₂ (.inl (by decide)), hrest₁ (.inl (by decide))]
    · rw [hrest₂ (.inl (by decide)), hrest₁ (.inl (by decide))]
  | traefik =>
    obtain ⟨m, hm, hleads⟩ := hroutes hb
    obtain ⟨c₁, hrun₁, hc₁, hrest₁, htcp⟩ :=
      PortRoutes.alone_converge (hleads .tcp) hm hc hf r.settings.ns r.settings.retry service
    have hudp : PortRoutes.Leads .udp ns m c₁ := (hleads .udp).congr (hrest₁ (by decide))
    obtain ⟨c₂, hrun₂, hc₂, hrest₂, hudp⟩ :=
      PortRoutes.alone_converge hudp hm hc₁ hf r.settings.ns r.settings.retry service
    have htcp : PortRoutes.Leads .tcp ns (m.step service ports) c₂ := htcp.congr (hrest₂ (by decide))
    have hm' : (m.step service ports).Valid := hm.step hf
    have hstep : (m.step service ports).step service ports = m.step service ports :=
      (m.beside_step service ports).step_eq ports
    refine ⟨c₂, (Action.alone_bind_ok hrun₁ _).trans hrun₂, hc₂, ?_,
      fun _ => ⟨m.step service ports, hm', fun t => ?_⟩,
      (PortRoutes.onlyReads_converge htcp hm' hf hstep _ _).bind (PortRoutes.onlyReads_converge hudp hm' hf hstep _ _)⟩
    · rintro kind n (rfl | rfl)
      · rw [hrest₂ (by decide), hrest₁ (by decide)]
      · rw [hrest₂ (by decide), hrest₁ (by decide)]
    · cases t with
      | tcp => exact htcp
      | udp => exact hudp

/-- **Policy, load balancer and backend are brought about** and in order, and if that succeeded they are only read the
next time. -/
theorem convergePorts_again (htables : r.settings.tcpServices ≠ r.settings.udpServices) (h : r.Orderly ns c)
    (hd : desired.Valid) (service : String) :
    ∃ result c', (r.convergePorts ⟨ns, service⟩ desired).alone c = (result, c') ∧ r.Orderly ns c' ∧
      (result = .ok () → (r.convergePorts ⟨ns, service⟩ desired).OnlyReads () c') := by
  unfold convergePorts
  rcases admission_atRest r.settings.retry h.named h.policy hd ⟨ns, service⟩ with
    ⟨e, hrun⟩ | ⟨c₁, hrun₁, hc₁, hrest₁, hpolicy, hadmission⟩
  · refine ⟨.error e, c, ?_, h, (fun hok => nomatch hok)⟩
    rw [Action.alone_bind, hrun]
  · have hports : ((r.loadBalancer.portsIn c₁).map ServicePort.id).Nodup := by
      rw [LoadBalancer.portsIn_congr (hrest₁ (by decide))]
      exact h.balancer
    obtain ⟨c₂, hrun₂, hc₂, hrest₂, hnodup, hbalancer⟩ :=
      loadBalancer_atRest r.settings.retry hc₁ hports hd ⟨ns, service⟩
    have hroutes : r.backend = .traefik → ∃ m : Holdings, m.Valid ∧ ∀ t, PortRoutes.Leads t ns m c₂ := fun hb => by
      obtain ⟨m, hm, hleads⟩ := h.routes hb
      have hsame : ∀ (t : PortRoutes.Transport) {n}, c₂.get? t.kind n = c.get? t.kind n := fun t n => by
        rw [hrest₂ (by cases t <;> decide), hrest₁ (by cases t <;> decide)]
      exact ⟨m, hm, fun t => (hleads t).congr (hsame t)⟩
    obtain ⟨c₃, hrun₃, hc₃, hrest₃, hroutes, hbackend⟩ := materialize_again htables hc₂ hroutes hd service
    have hservice : c₃.get? .service r.loadBalancer.name = c₂.get? .service r.loadBalancer.name := hrest₃ (.inl rfl)
    have hstays : c₃.get? .networkPolicy r.admission.name = c₁.get? .networkPolicy r.admission.name := by
      rw [hrest₃ (.inr rfl), hrest₂ (by decide)]
    refine ⟨.ok (), c₃, (Action.alone_bind_ok hrun₁ _).trans ((Action.alone_bind_ok hrun₂ _).trans hrun₃), ?_, fun _ => ?_⟩
    · refine ⟨hc₃, fun p hp => hpolicy p (hstays ▸ hp), ?_, hroutes⟩
      rw [LoadBalancer.portsIn_congr hservice]
      exact hnodup
    · exact ((hadmission.congr hstays).onlyReads _).bind (((hbalancer.congr hservice).onlyReads _).bind hbackend)

/-- One contribution keeps the order, and if it succeeded it only reads the next time. -/
theorem action_again (htables : r.settings.tcpServices ≠ r.settings.udpServices) (h : r.Orderly ns c)
    {x : Contribution} (hns : (x.contributor r).ns = ns) :
    ∃ result c', (x.action r).alone c = (result, c') ∧ r.Orderly ns c' ∧
      (result = .ok () → (x.action r).OnlyReads () c') := by
  subst hns
  cases hread : x.desired with
  | error e =>
    rw [Contribution.action_eq_error hread]
    exact ⟨.error e, c, rfl, h, (fun hok => nomatch hok)⟩
  | ok ports =>
    rw [Contribution.action_eq hread]
    exact convergePorts_again htables h (Contribution.valid_desired hread) (x.contributor r).name

theorem orderly_perform (htables : r.settings.tcpServices ≠ r.settings.udpServices) : ∀ {xs : List Contribution}
    {c : Cluster}, (∀ x ∈ xs, (x.contributor r).ns = ns) → r.Orderly ns c → r.Orderly ns (r.perform xs c).2
  | [], _, _, h => h
  | x :: xs, c, hns, h => by
    obtain ⟨result, c', hrun, hc', -⟩ := action_again htables h (hns x List.mem_cons_self)
    have hfirst : ((x.action r).alone c).2 = c' := congrArg Prod.snd hrun
    unfold perform
    dsimp only
    rw [hfirst]
    exact orderly_perform htables (fun y hy => hns y (List.mem_cons_of_mem x hy)) hc'

/-- **A contribution that has just succeeded writes nothing when it is made again**, after any contributions on a cluster
that had neither the policy nor routes. -/
theorem perform_again (r : Reconciler) {ns : String} {c : Cluster} (hc : c.Named)
    (hpolicy : c.get? .networkPolicy r.admission.name = none)
    (hroutes : ∀ (t : PortRoutes.Transport) (name : String), c.get? t.kind name = none)
    (hports : ((r.loadBalancer.portsIn c).map ServicePort.id).Nodup)
    (htables : r.settings.tcpServices ≠ r.settings.udpServices) {xs : List Contribution} {x : Contribution}
    (hns : ∀ y ∈ x :: xs, (y.contributor r).ns = ns) {c' : Cluster}
    (hok : (x.action r).alone (r.perform xs c).2 = (.ok (), c')) : (x.action r).OnlyReads () c' := by
  have hleads : ∀ t, PortRoutes.Leads t ns .none c := by
    intro t name route
    unfold PortRoutes.routeIn
    rw [hroutes t name]
    constructor
    · exact fun h => nomatch h
    · rintro ⟨id, holding, -, hid, -⟩
      cases hid
  have horderly : r.Orderly ns c :=
    ⟨hc, (fun p hp => nomatch hpolicy.symm.trans hp), hports, fun _ => ⟨.none, Holdings.valid_none, hleads⟩⟩
  have hafter := orderly_perform htables (fun y hy => hns y (List.mem_cons_of_mem x hy)) horderly
  obtain ⟨result, c₁, hrun, -, hagain⟩ := action_again htables hafter (hns x List.mem_cons_self)
  rw [hok] at hrun
  cases hrun
  exact hagain rfl

/-- A load balancer and a table that somebody else has put something into. -/
def furnished : Cluster :=
  (Cluster.put {} .service "nginx-ingress-exposed"
    { metadata := .named "ecosystem" "nginx-ingress-exposed"
      spec := some { ports := some [{ port := 443, name := some "https", nodePort := some 30443 }] } : Service }).put
    .configMap "tcp-services"
    { metadata := .named "ecosystem" "tcp-services"
      data := some (.ofList [("2222", "elsewhere/gitlab:22")]) : ConfigMap }

/-- The port that is wanted twice is somebody else's in the table. -/
theorem perform_again_furnished :
    let r : Reconciler := ⟨{}, .nginx, ⟨.done (.ok false), fun _ => .done (.ok true)⟩⟩
    let xs : List Contribution := [.expose (.wanting "ldap" [⟨.udp, 53, 53⟩])]
    let x : Contribution := .expose (.wanting "scm" [⟨.tcp, 2222, 2022⟩])
    ∃ c', (x.action r).alone (r.perform xs furnished).2 = (.ok (), c') ∧ (x.action r).OnlyReads () c' := by
  intro r xs x
  have hc : furnished.Named := Cluster.Named.put (Cluster.Named.put Cluster.named_empty (by rfl)) (by rfl)
  have hroutes : ∀ (t : PortRoutes.Transport) (name : String), furnished.get? t.kind name = none := by
    intro t name
    cases t <;> rfl
  have hread : ((x.action r).alone (r.perform xs furnished).2).1.toBool = true := by decide +kernel
  have hpair : ∀ p : Except Error Unit × Cluster, p.1.toBool = true → p = (.ok (), p.2) := by
    rintro ⟨e | u, c'⟩ h
    · cases h
    · rfl
  have hns : ∀ y ∈ x :: xs, (y.contributor r).ns = "ecosystem" := by decide +kernel
  have hok := hpair _ hread
  exact ⟨_, hok, perform_again r hc (by decide +kernel) hroutes (by decide +kernel) (by decide +kernel) hns hok⟩

end Reconciler
end ServiceExposure
