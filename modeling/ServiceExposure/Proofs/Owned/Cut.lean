import ServiceExposure.Proofs.Owned.Chores
/-!
# Routes that are cut off

Bringing the routes of a contributor about deletes some and writes others, one after the other.  Wherever it is cut off,
the routes are those of some holdings in which the others hold what they held (`PortRoutes.maintains_converge`): each
single call gives up or takes a port of the contributor's own (`PortRoutes.Leads.put`).
-/
namespace ServiceExposure

variable {I : Cluster → Prop} {c : Cluster}

namespace PortRoutes

variable {t : Transport} {ns service : String} {m : Holdings} {desired : ExposedPorts}

/-- **Another holding of one port**, or none: just the route of that port is another one. -/
theorem Leads.put {c' : Cluster} (h : Leads t ns m c) (hm : m.Valid) {id : PortId} (hp : id.protocol = t.protocol)
    (hport : isPortNumber id.port = true) {x : Option Holding} (hmine : ∀ h', m id = some h' → h'.service = service)
    (hx : ∀ h', x = some h' → h'.service = service)
    (hroute : routeIn t c' (routeName t service id.port) = x.map (routeOf t ns id))
    (hrest : ∀ n, n ≠ routeName t service id.port → routeIn t c' n = routeIn t c n) : Leads t ns (m.put id x) c' := by
  intro name r
  by_cases hn : name = routeName t service id.port
  · subst hn
    rw [hroute, Option.map_eq_some_iff]
    constructor
    · rintro ⟨holding, rfl, rfl⟩
      exact ⟨id, holding, hp, m.put_self id _, rfl, by rw [anyName_routeOf, hx holding rfl]⟩
    · rintro ⟨id', holding, hp', hid', rfl, hname⟩
      by_cases he : id' = id
      · subst he
        rw [Holdings.put_self] at hid'
        exact ⟨holding, hid', rfl⟩
      · rw [Holdings.put_ne m x he] at hid'
        exact absurd (eq_of_port hp' hp (routeName_inj hport (hm hid').2.1 hname).2.symm) he
  · rw [hrest name hn, h name r]
    have hother : ∀ {id' : PortId} {holding : Holding}, name = (routeOf t ns id' holding).metadata.anyName →
        holding.service = service → id' ≠ id := by
      rintro id' holding hname hs rfl
      rw [anyName_routeOf, hs] at hname
      exact hn hname
    constructor
    · rintro ⟨id', holding, hp', hid', rfl, hname⟩
      have hne : id' ≠ id := fun he => hother hname (hmine holding (he ▸ hid')) he
      exact ⟨id', holding, hp', (m.put_ne x hne).trans hid', rfl, hname⟩
    · rintro ⟨id', holding, hp', hid', rfl, hname⟩
      have hne : id' ≠ id := by
        intro he
        rw [he, Holdings.put_self] at hid'
        exact hother hname (hx holding hid') he
      exact ⟨id', holding, hp', (m.put_ne x hne).symm.trans hid', rfl, hname⟩

/-- A route that is given up leaves the routes of the others. -/
theorem leads_remove {id : PortId} (hp : id.protocol = t.protocol) (hport : isPortNumber id.port = true)
    (h : m.ButFor service (fun m' => Leads t ns m' c)) {o : t.kind.Object}
    (hget : c.get? t.kind (routeName t service id.port) = some o) :
    m.ButFor service (fun m' => Leads t ns m' (c.remove t.kind (routeName t service id.port))) := by
  obtain ⟨m', hm, hb, hleads⟩ := h
  have hstored : routeIn t c (routeName t service id.port) = some (t.ofObject o).unversioned := by
    unfold routeIn
    rw [hget]
    rfl
  -- whatever stands under the name is the service's own
  have hmine : ∀ h', m' id = some h' → h'.service = service := by
    obtain ⟨id', holding, hp', hid', hr, hname⟩ := (hleads _ _).1 hstored
    rw [hr, anyName_routeOf] at hname
    obtain ⟨hs, hn⟩ := routeName_inj hport (hm hid').2.1 hname
    obtain rfl := eq_of_port hp hp' hn
    intro h' hid
    rw [hid'] at hid
    cases hid
    exact hs.symm
  have hnone : ∀ h', (none : Option Holding) = some h' → h'.service = service := fun _ h => nomatch h
  refine ⟨m'.put id none, hm.put (fun _ h => nomatch h), hb.trans (Holdings.beside_put hmine hnone), ?_⟩
  refine hleads.put hm hp hport hmine hnone ?_ (fun n hn => ?_)
  · unfold routeIn
    rw [Cluster.get?_remove_self]
    rfl
  · unfold routeIn
    rw [c.get?_remove_ne t.kind hn]

/-- A route that is written stands there, whatever stood there before. -/
theorem Leads.routeIn_put (h : Leads t ns m c) (id : PortId) (holding : Holding) :
    routeIn t (c.put t.kind (routeName t holding.service id.port)
      (Owned.wantedOver t.kind (t.toObject (routeOf t ns id holding))
        (c.get? t.kind (routeName t holding.service id.port)))) (routeName t holding.service id.port) =
      some (routeOf t ns id holding) := by
  have hwritten := unversioned_wantedOver (t := t) (c := c) (r := routeOf t ns id holding) rfl (fun stored hstored => by
    obtain ⟨id', holding', -, -, rfl, hname⟩ := (h _ _).1 hstored
    exact covers_routeOf hname)
  unfold routeIn
  rw [Cluster.get?_put_self, Option.map_some, ← ofObject_unversioned, Kind.unversioned_stamped, ofObject_unversioned]
  exact congrArg some hwritten

/-- A route that is written for a port that nobody else holds leaves the routes of the others. -/
theorem leads_apply {id : PortId} {holding : Holding} (hp : id.protocol = t.protocol)
    (hv : id.protocol.isForwardable = true ∧ isPortNumber id.port = true ∧ isPortNumber holding.target = true)
    (hs : holding.service = service) (hfree : ∀ h', m id = some h' → h'.service = service)
    (h : m.ButFor service (fun m' => Leads t ns m' c)) :
    m.ButFor service (fun m' => Leads t ns m' (c.put t.kind (routeName t service id.port)
      (Owned.wantedOver t.kind (t.toObject (routeOf t ns id holding)) (c.get? t.kind (routeName t service id.port))))) := by
  subst hs
  obtain ⟨m', hm, hb, hleads⟩ := h
  have hmine : ∀ h', m' id = some h' → h'.service = holding.service := (hb.mine_iff id).2 hfree
  have hself : ∀ h', some holding = some h' → h'.service = holding.service := fun h' h => by
    cases h
    rfl
  refine ⟨m'.put id (some holding), hm.put (fun h' h => by cases h; exact hv),
    hb.trans (Holdings.beside_put hmine hself), ?_⟩
  refine hleads.put hm hp hv.2.1 hmine hself (hleads.routeIn_put id holding) (fun n hn => ?_)
  unfold routeIn
  rw [c.get?_put_ne t.kind _ hn]

/-- **Wherever it is cut off**, a contributor has touched its own routes only. -/
theorem maintains_converge (hd : desired.Valid)
    (hI : ∀ c, I c → c.Named ∧ m.ButFor service (fun m' => Leads t ns m' c))
    (hkeep : ∀ {c c' : Cluster}, I c → c'.Named → (∀ {other n}, other ≠ t.kind → c'.get? other n = c.get? other n) →
      m.ButFor service (fun m' => Leads t ns m' c') → I c')
    (reported : String) (retry : RetryPolicy) (h : I c) :
    (converge reported retry t ⟨ns, service⟩ desired).run.Maintains I c := by
  obtain ⟨-, m', hm, hb, hleads⟩ := hI c h
  refine Action.maintains_list ?_ h
  dsimp only
  rw [hleads.list_eq]
  refine Action.maintains_bind (Action.maintains_forEach (fun name hname c h => ?_) h)
    (fun _ c h => Action.maintains_forEach (fun r hr c h => ?_) h) h
  -- which routes are deleted and written was settled when they were listed, where the service held what `m'` says
  · obtain ⟨⟨id, holding, hp, hid, rfl, rfl⟩, -⟩ := (mem_stale_iff hleads service _ name).1 hname
    refine Action.maintains_bind (Owned.maintains_delete h (fun o hget => ?_)) (fun _ _ _ => trivial) h
    exact hkeep h ((hI c h).1.remove t.kind _) (fun hne => c.get?_remove_kind _ hne _)
      (leads_remove hp (hm hid).2.1 (hI c h).2 hget)
  · obtain ⟨id, holding, hp, hstep, hs, rfl⟩ := (mem_granted_iff hleads hm hd).1 hr
    have hv := hm.step hd hstep
    have hfree : ∀ h', m id = some h' → h'.service = service := by
      rcases Holdings.step_eq_some.1 hstep with ⟨-, hne⟩ | ⟨-, hmine⟩
      · exact absurd hs hne
      · exact (hb.mine_iff id).1 hmine
    refine Action.maintains_bind (Owned.maintains_apply retry (fun c h => (hI c h).1) (fun c h => ?_) h)
      (fun _ _ _ => trivial) h
    have hnamed := (hI c h).1.put (Owned.nameOf_wantedOver (hI c h).1 (t.toObject (routeOf t ns id holding)))
    rw [nameOf_toObject, anyName_routeOf, hs] at hnamed ⊢
    exact hkeep h hnamed (fun hne => c.get?_put_kind _ _ hne _) (leads_apply hp hv hs hfree (hI c h).2)

end PortRoutes
end ServiceExposure
