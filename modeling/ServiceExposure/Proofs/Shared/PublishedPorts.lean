import ServiceExposure.Proofs.Shared.AtRest
/-!
# What a plan leaves on the load balancer

Ports belong to services by their names, and are told apart by protocol and number.  A plan keeps the ports of the
others and publishes every desired port whose identity none of them has; what was allocated for a port stays with it, as
long as it keeps its name and its identity (`LoadBalancer.Publishes`).  Identities, names and node ports that were different
stay different, because a port only ever takes over what was allocated for the one port that had its identity
(`LoadBalancer.republished_revise`).
-/
namespace ServiceExposure

/-! ## Values that occur once -/

section Optional

variable {α β : Type} {f : α → Option β} {xs : List α}

theorem eq_of_nodup_filterMap (h : (xs.filterMap f).Nodup) {a b : α} (ha : a ∈ xs) (hb : b ∈ xs) {v : β}
    (hva : f a = some v) (hvb : f b = some v) : a = b := by
  have hpairs : xs.Pairwise (fun a b => ∀ v, f a = some v → f b = some v → a = b) :=
    (List.pairwise_filterMap.1 h).imp (fun hne v hva hvb => absurd rfl (hne v hva v hvb))
  have hall := List.Pairwise.forall_of_forall_of_flip (fun _ _ _ _ _ => rfl) hpairs
    (hpairs.imp (fun hab v hvb hva => (hab v hva hvb).symm))
  exact hall ha hb v hva hvb

theorem nodup_filterMap_of_eq (hn : xs.Nodup) (h : ∀ a ∈ xs, ∀ b ∈ xs, ∀ v, f a = some v → f b = some v → a = b) :
    (xs.filterMap f).Nodup := by
  refine List.pairwise_filterMap.2 (hn.pairwise_of_forall_ne (fun a ha b hb hne v hva w hvb => ?_))
  rintro rfl
  exact hne (h a ha b hb v hva hvb)

end Optional

namespace LoadBalancer

variable {contributor : Contributor} {desired : ExposedPorts} {before after : List ServicePort} {service : String}

/-- A service's ports have different names. -/
theorem portName_inj {id id' : PortId} (hf : id.protocol.isForwardable = true) (hf' : id'.protocol.isForwardable = true)
    (hp : isPortNumber id.port = true) (hp' : isPortNumber id'.port = true)
    (h : portName service id = portName service id') : id = id' := by
  have hu : ∀ {n : Int}, isPortNumber n = true → ∀ s, toString n ≠ s ++ "-udp" := fun hn s he => by
    refine Decimal.not_mem_of_readUnsigned? (Decimal.isSome_readUnsigned?_port hn) (c := 'u') (by decide) (by decide) ?_
    rw [he]
    simp
  obtain ⟨protocol, n⟩ := id
  obtain ⟨protocol', n'⟩ := id'
  cases protocol <;> cases protocol' <;> simp only [Protocol.isForwardable, Bool.false_eq_true] at hf hf'
  case tcp.tcp =>
    exact congrArg (PortId.mk .tcp) (Decimal.toString_inj ((String.append_right_inj _).1 h))
  case udp.udp =>
    exact congrArg (PortId.mk .udp)
      (Decimal.toString_inj ((String.append_right_inj _).1 ((String.append_left_inj _).1 h)))
  case tcp.udp =>
    simp only [portName, String.append_assoc] at h
    exact absurd ((String.append_right_inj _).1 ((String.append_right_inj _).1 h)) (hu hp _)
  case udp.tcp =>
    simp only [portName, String.append_assoc] at h
    exact absurd ((String.append_right_inj _).1 ((String.append_right_inj _).1 h)).symm (hu hp' _)

/-! ## One port -/

/-- A port publishes a desired port of a service, with whatever was allocated for the port that had its name and identity
before. -/
structure Publishes (service : String) (before : List ServicePort) (d : ExposedPort) (p : ServicePort) : Prop where
  id : p.id = d.id
  name : p.name = some (portName service d.id)
  protocol : p.protocol = some d.protocol.name
  targetPort : p.targetPort = some (.number d.port)
  kept : ∀ e ∈ before, e.name = p.name → e.id = p.id → p.nodePort = e.nodePort ∧ p.appProtocol = e.appProtocol
  fresh : (∀ e ∈ before, e.name = p.name → e.id ≠ p.id) → p.nodePort = none ∧ p.appProtocol = none

/-- Somebody else has a port with an identity. -/
def Taken (service : String) (before : List ServicePort) (id : PortId) : Prop :=
  ∃ e ∈ before, owns service e = false ∧ e.id = id

theorem taken_iff {id : PortId} : Taken service before id ↔ id ∈ othersKeys ServicePort.id (owns service) before :=
  mem_othersKeys.symm

theorem owns_congr {p q : ServicePort} (h : p.name = q.name) : owns service p = owns service q := by
  unfold owns
  rw [h]

/-- A wanted port takes over what was allocated for the port of its name and identity, if there was one. -/
theorem wantedPort_cases {d : ExposedPort} (hp : isPortNumber d.port = true) (before : List ServicePort) :
    (∃ e ∈ before, e.name = some (portName service d.id) ∧ e.id = d.id ∧
      wantedPort service (before.filter (owns service)) d =
        { portFor d.id service with nodePort := e.nodePort, appProtocol := e.appProtocol }) ∨
    (∀ e ∈ before, e.name = some (portName service d.id) → e.id ≠ d.id) ∧
      wantedPort service (before.filter (owns service)) d = portFor d.id service := by
  rw [wantedPort_eq_portFor]
  cases hfind : (before.filter (owns service)).find? (fun e => e.name = some (portName service d.id) ∧ e.id = d.id) with
  | some e =>
    have he : e.name = some (portName service d.id) ∧ e.id = d.id := by simpa using List.find?_some hfind
    exact .inl ⟨e, (List.mem_filter.1 (List.mem_of_find?_eq_some hfind)).1, he.1, he.2, rfl⟩
  | none =>
    refine .inr ⟨fun e he hname hid => ?_, rfl⟩
    have howns : owns service e = true := by
      unfold owns
      rw [hname]
      exact isNamedAfter_portName service hp
    exact List.find?_eq_none.1 hfind e (List.mem_filter.2 ⟨he, howns⟩) (decide_eq_true ⟨hname, hid⟩)

theorem publishes_wantedPort (hn : (before.map ServicePort.id).Nodup) {d : ExposedPort}
    (hf : d.protocol.isForwardable = true) (hp : isPortNumber d.port = true) :
    Publishes service before d (wantedPort service (before.filter (owns service)) d) := by
  have hid := id_wantedPort hf service (before.filter (owns service))
  have hname := name_wantedPort service (before.filter (owns service)) d
  rcases @wantedPort_cases service d hp before with ⟨e, he, hen, hei, heq⟩ | ⟨hnone, heq⟩
  · refine ⟨hid, hname, by rw [heq]; rfl, by rw [heq]; rfl, fun e' he' _ hid' => ?_, fun hfresh => ?_⟩
    · -- only one port had the identity
      have hsame : e' = e := List.inj_on_of_nodup_map hn he' he (hid'.trans (hid.trans hei.symm))
      rw [hsame, heq]
      exact ⟨rfl, rfl⟩
    · exact absurd (hei.trans hid.symm) (hfresh e he (hen.trans hname.symm))
  · refine ⟨hid, hname, by rw [heq]; rfl, by rw [heq]; rfl, fun e' he' hname' hid' => ?_, fun _ => ?_⟩
    · exact absurd (hid'.trans hid) (hnone e' he' (hname'.trans hname))
    · rw [heq]
      exact ⟨rfl, rfl⟩

/-! ## All ports -/

/-- The ports `after` are those of `before` with the contributor's part replaced by what it desires. -/
structure Republished (contributor : Contributor) (desired : ExposedPorts) (before after : List ServicePort) : Prop where
  /-- The ports of the others stay, in their order. -/
  others : after.filter (fun p => !owns contributor.name p) = before.filter (fun p => !owns contributor.name p)
  /-- Every desired port is published once, unless somebody else has its identity. -/
  granted : ∀ d ∈ desired.toList, d.protocol.isForwardable = true → ¬ Taken contributor.name before d.id →
    ∃ p ∈ after, Publishes contributor.name before d p ∧ ∀ q ∈ after, q.id = d.id → q = p
  /-- The contributor has no other ports. -/
  mine : ∀ p ∈ after, owns contributor.name p = true → ∃ d ∈ desired.toList, d.protocol.isForwardable = true ∧
    ¬ Taken contributor.name before d.id ∧ Publishes contributor.name before d p
  ids : (after.map ServicePort.id).Nodup
  names : (before.filterMap ServicePort.name).Nodup → (after.filterMap ServicePort.name).Nodup
  nodePorts : (before.filterMap ServicePort.nodePort).Nodup → (after.filterMap ServicePort.nodePort).Nodup

theorem mem_revise_iff (hn : (before.map ServicePort.id).Nodup) {p : ServicePort} :
    p ∈ revise before contributor desired.forwardable ↔ p ∈ before ∧ owns contributor.name p = false ∨
      ∃ d ∈ desired.toList, d.protocol.isForwardable = true ∧ ¬ Taken contributor.name before d.id ∧
        p = wantedPort contributor.name (before.filter (owns contributor.name)) d := by
  have hmem : p ∈ revise before contributor desired.forwardable ↔ _ :=
    mem_mergeOwn_iff hn (nodup_wantedPort contributor.name (before.filter (owns contributor.name)) desired)
  rw [hmem, ← taken_iff]
  refine or_congr_right ?_
  constructor
  · rintro ⟨hp, hfree⟩
    obtain ⟨d, hd, rfl⟩ := List.mem_map.1 hp
    obtain ⟨hd, hf⟩ := List.mem_filter.1 hd
    rw [id_wantedPort hf] at hfree
    exact ⟨d, hd, hf, hfree, rfl⟩
  · rintro ⟨d, hd, hf, hfree, rfl⟩
    rw [id_wantedPort hf]
    exact ⟨List.mem_map_of_mem (List.mem_filter.2 ⟨hd, hf⟩), hfree⟩

/-- **A port has its node port from the port that had its identity.** -/
theorem origin_of_nodePort (hn : (before.map ServicePort.id).Nodup)
    (hd : ∀ p ∈ desired.toList, isPortNumber p.port = true) {p : ServicePort}
    (hp : p ∈ revise before contributor desired.forwardable) {n : Int} (hnode : p.nodePort = some n) :
    ∃ e ∈ before, e.id = p.id ∧ e.nodePort = some n := by
  rcases (mem_revise_iff hn).1 hp with ⟨hmem, -⟩ | ⟨d, hd', hf, -, rfl⟩
  · exact ⟨p, hmem, rfl, hnode⟩
  · rw [id_wantedPort hf]
    rcases @wantedPort_cases contributor.name d (hd d hd') before with ⟨e, he, -, hid, heq⟩ | ⟨-, heq⟩
    · rw [heq] at hnode
      exact ⟨e, he, hid, hnode⟩
    · rw [heq] at hnode
      cases hnode

theorem nodup_revise (hn : (before.map ServicePort.id).Nodup) (contributor : Contributor) (desired : ExposedPorts) :
    ((revise before contributor desired.forwardable).map ServicePort.id).Nodup := nodup_merge ServicePort.id _ _ _ hn

theorem publishes_of_mem_revise (hn : (before.map ServicePort.id).Nodup)
    (hd : ∀ p ∈ desired.toList, isPortNumber p.port = true) {p : ServicePort}
    (hp : p ∈ revise before contributor desired.forwardable) (ho : owns contributor.name p = true) :
    ∃ d ∈ desired.toList, d.protocol.isForwardable = true ∧ ¬ Taken contributor.name before d.id ∧
      Publishes contributor.name before d p := by
  rcases (mem_revise_iff hn).1 hp with ⟨-, hother⟩ | ⟨d, hd', hf, hfree, rfl⟩
  · rw [ho] at hother
    cases hother
  · exact ⟨d, hd', hf, hfree, publishes_wantedPort hn hf (hd d hd')⟩

theorem nodup_names_revise (hn : (before.map ServicePort.id).Nodup)
    (hd : ∀ p ∈ desired.toList, isPortNumber p.port = true) (h : (before.filterMap ServicePort.name).Nodup) :
    ((revise before contributor desired.forwardable).filterMap ServicePort.name).Nodup := by
  have hids := nodup_revise hn contributor desired
  refine nodup_filterMap_of_eq (List.Nodup.of_map _ hids) (fun p hp q hq name hpn hqn => ?_)
  have hsame : owns contributor.name p = owns contributor.name q := owns_congr (hpn.trans hqn.symm)
  cases ho : owns contributor.name p with
  | true =>
    obtain ⟨d, hdp, hf, -, hpub⟩ := publishes_of_mem_revise hn hd hp ho
    obtain ⟨d', hdq, hf', -, hpub'⟩ := publishes_of_mem_revise hn hd hq (hsame.symm.trans ho)
    have hid : d.id = d'.id := portName_inj hf hf' (hd d hdp) (hd d' hdq)
      (Option.some.inj (hpub.name.symm.trans ((hpn.trans hqn.symm).trans hpub'.name)))
    exact List.inj_on_of_nodup_map hids hp hq (hpub.id.trans (hid.trans hpub'.id.symm))
  | false =>
    have hkept : ∀ r ∈ revise before contributor desired.forwardable, owns contributor.name r = false → r ∈ before :=
      fun r hr hother => by
        rcases (mem_revise_iff hn).1 hr with ⟨hr, -⟩ | ⟨d, hd', -, -, rfl⟩
        · exact hr
        · rw [owns_wantedPort _ _ (hd d hd')] at hother
          cases hother
    exact eq_of_nodup_filterMap h (hkept p hp ho) (hkept q hq (hsame.symm.trans ho)) hpn hqn

theorem nodup_nodePorts_revise (hn : (before.map ServicePort.id).Nodup)
    (hd : ∀ p ∈ desired.toList, isPortNumber p.port = true) (h : (before.filterMap ServicePort.nodePort).Nodup) :
    ((revise before contributor desired.forwardable).filterMap ServicePort.nodePort).Nodup := by
  have hids := nodup_revise hn contributor desired
  refine nodup_filterMap_of_eq (List.Nodup.of_map _ hids) (fun p hp q hq n hpn hqn => ?_)
  obtain ⟨e, he, hid, hen⟩ := origin_of_nodePort hn hd hp hpn
  obtain ⟨e', he', hid', hen'⟩ := origin_of_nodePort hn hd hq hqn
  have hsame : e = e' := eq_of_nodup_filterMap h he he' hen hen'
  exact List.inj_on_of_nodup_map hids hp hq (by rw [← hid, ← hid', hsame])

/-- **What comes of a contributor's merge.** -/
theorem republished_revise (hn : (before.map ServicePort.id).Nodup)
    (hd : ∀ p ∈ desired.toList, isPortNumber p.port = true) :
    Republished contributor desired before (revise before contributor desired.forwardable) where
  others := filter_others_revise before (fun p hp => hd p (List.mem_filter.1 hp).1)
  granted := by
    intro d hd' hf hfree
    have hp := (mem_revise_iff hn).2 (.inr ⟨d, hd', hf, hfree, rfl⟩)
    refine ⟨_, hp, publishes_wantedPort hn hf (hd d hd'), fun q hq hid => ?_⟩
    exact List.inj_on_of_nodup_map (nodup_revise hn contributor desired) hq hp
      (hid.trans (id_wantedPort hf contributor.name _).symm)
  mine := fun _ hp ho => publishes_of_mem_revise hn hd hp ho
  ids := nodup_revise hn contributor desired
  names := nodup_names_revise hn hd
  nodePorts := nodup_nodePorts_revise hn hd

/-! ## The whole Service -/

/-- **What a plan leaves on the load balancer**: the ports of the others and the desired ones that nobody else has.
Nothing else of the Service changes, it is deleted if and only if no port is left, and planning once more changes
nothing. -/
theorem plan_republishes (l : LoadBalancer) (current : Option Service) (contributor : Contributor)
    (desired : ExposedPorts) (hn : (((current.map Service.ports).getD []).map ServicePort.id).Nodup)
    (hd : ∀ p ∈ desired.toList, isPortNumber p.port = true) :
    ∃ after, Republished contributor desired ((current.map Service.ports).getD []) after ∧
      (l.plan current contributor desired = .delete ↔ current.isSome ∧ after = []) ∧
      (∀ s, current = some s → after ≠ [] → (l.plan current contributor desired).result current =
        some { s with spec := some { s.spec.getD {} with ports := some after } }) ∧
      (current = none →
        (l.plan current contributor desired).result current = if after = [] then none else some (l.opened after)) ∧
      l.plan ((l.plan current contributor desired).result current) contributor desired = .unchanged := by
  obtain ⟨after, hafter⟩ : ∃ after, after =
    revise ((current.map Service.ports).getD []) contributor desired.forwardable := ⟨_, rfl⟩
  have hplan : l.plan current contributor desired = .between current (l.withPorts current after) := by
    rw [hafter]
    rfl
  have hresult : (l.plan current contributor desired).result current = l.withPorts current after := by
    rw [hplan, Change.result_between]
  refine ⟨after, ?_, ?_, fun s hs hne => ?_, fun hnone => ?_, ?_⟩
  · rw [hafter]
    exact republished_revise hn hd
  · rw [hplan, Change.between_eq_delete_iff, withPorts_eq_none_iff]
  · rw [hresult, hs]
    exact if_neg hne
  · rw [hresult, hnone]
    rfl
  · rw [hresult]
    obtain ⟨v, hv⟩ := Kind.service.exists_map_atVersion (l.withPorts current after)
    have hagain : revise after contributor desired.forwardable = after := by
      rw [hafter]
      exact revise_revise hn hd
    exact (congrArg (fun o => l.plan o contributor desired) hv).symm.trans (plan_withPorts hagain current v)

/-- A load balancer with a port of somebody else, one without a name, and three of the contributor: one that stays, one
under a name that it was not given for its identity, and one that is given up. -/
def sharedLoadBalancer : Service where
  metadata := .named "ecosystem" "exposed"
  spec := some
    { publishing := some "LoadBalancer"
      ports := some [
        { port := 22, name := some "git-22", protocol := some "TCP", nodePort := some 30022 },
        { port := 8080 },
        { port := 2222, name := some "scm-2222", protocol := some "TCP", nodePort := some 30222,
          appProtocol := some "ssh" },
        { port := 53, name := some "scm-53", protocol := some "UDP", nodePort := some 30053 },
        { port := 80, name := some "scm-80", nodePort := some 30080 }] }

theorem plan_republishes_sharedLoadBalancer :
    let l : LoadBalancer := ⟨"exposed", "ecosystem", .empty⟩
    let scm : Contributor := ⟨"ecosystem", "scm"⟩
    let desired : ExposedPorts := .ofList [⟨.tcp, 22, 2222⟩, ⟨.udp, 53, 5353⟩, ⟨.tcp, 2222, 22⟩]
    let after : List ServicePort := [
      { port := 22, name := some "git-22", protocol := some "TCP", nodePort := some 30022 },
      { port := 8080 },
      { port := 2222, name := some "scm-2222", protocol := some "TCP", targetPort := some (.number 2222),
        nodePort := some 30222, appProtocol := some "ssh" },
      { port := 53, name := some "scm-53-udp", protocol := some "UDP", targetPort := some (.number 53) }]
    (sharedLoadBalancer.ports.map ServicePort.id).Nodup ∧
      Republished scm desired sharedLoadBalancer.ports after ∧
      ∃ s, (l.plan (some sharedLoadBalancer) scm desired).result (some sharedLoadBalancer) = some s ∧
        s.ports = after ∧ l.plan (some s) scm desired = .unchanged := by
  intro l scm desired after
  have hn : (sharedLoadBalancer.ports.map ServicePort.id).Nodup := by decide
  obtain ⟨after', hrepublished, hdelete, hkept, -, hagain⟩ :=
    plan_republishes l (some sharedLoadBalancer) scm desired hn (by decide)
  have hplan : (l.plan (some sharedLoadBalancer) scm desired).result (some sharedLoadBalancer) = some
      { sharedLoadBalancer with spec := some { sharedLoadBalancer.spec.getD {} with ports := some after } } := by
    decide +kernel
  have hne : after' ≠ [] := fun he => by
    rw [hdelete.2 ⟨rfl, he⟩] at hplan
    cases hplan
  have hsame := (hkept sharedLoadBalancer rfl hne).symm.trans hplan
  obtain rfl : after' = after := by simpa using hsame
  rw [hplan] at hagain
  exact ⟨hn, hrepublished, _, hplan, rfl, hagain⟩

end LoadBalancer
end ServiceExposure
