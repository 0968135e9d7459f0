import ServiceExposure.Proofs.Cluster.Reading
import ServiceExposure.Proofs.Owned.Routes
/-!
# Owned objects at rest

An object that has its wanted form is only read (`Owned.onlyReads_apply`).  So are the routes of a contributor that has
all that it wants and may have, and nothing else (`PortRoutes.onlyReads_converge`).
-/
namespace ServiceExposure

/-- **An object in its wanted form** is only read. -/
theorem Owned.onlyReads_apply (retry : RetryPolicy) {kind : Kind} {desired o : kind.Object} {c : Cluster}
    (hget : c.get? kind (kind.nameOf desired) = some o) (hform : form kind desired o = o) :
    (apply retry kind desired).OnlyReads false c := by
  have hcycle : (cycle kind desired).OnlyReads false c := by
    refine (Action.onlyReads_get kind (kind.nameOf desired) (kind.nameOf desired) c).bind ?_
    rw [hget]
    dsimp only
    rw [if_pos hform]
    exact Action.onlyReads_done false c
  exact hcycle.onConflict retry

namespace PortRoutes

variable {t : Transport} {ns service : String} {m : Holdings} {c : Cluster} {desired : ExposedPorts}

/-- The form of a route that is stored already. -/
theorem form_eq_self {r : PortRoute} {o : t.kind.Object} (h : (t.ofObject o).unversioned = r) :
    Owned.form t.kind (t.toObject r) o = o := by
  subst h
  cases t <;> rfl

/-- **The routes of whoever has what it wants** are only read. -/
theorem onlyReads_converge (h : Leads t ns m c) (hm : m.Valid) (hd : desired.Valid)
    (hstep : m.step service desired = m) (reported : String) (retry : RetryPolicy) :
    (converge reported retry t ⟨ns, service⟩ desired).OnlyReads () c := by
  obtain ⟨kept, hkept⟩ : ∃ kept, kept = granted ⟨ns, service⟩ (listed t c) (wanted t ⟨ns, service⟩ desired) := ⟨_, rfl⟩
  have hmem : ∀ {r}, r ∈ kept ↔ ∃ id holding, id.protocol = t.protocol ∧ m id = some holding ∧
      holding.service = service ∧ r = routeOf t ns id holding := by
    rw [hkept, ← hstep]
    exact mem_granted_iff (hstep ▸ h) (hstep ▸ hm) hd
  have hstale : stale ⟨ns, service⟩ (listed t c) kept = [] := by
    refine List.eq_nil_iff_forall_not_mem.2 (fun name hn => ?_)
    obtain ⟨⟨id, holding, hp, hid, hs, rfl⟩, hnot⟩ := (mem_stale_iff h service kept name).1 hn
    exact hnot (List.mem_map_of_mem (hmem.2 ⟨id, holding, hp, hid, hs, rfl⟩))
  refine (Action.onlyReads_list t.kind Label.exposedService reported c).bind ?_
  dsimp only
  rw [h.list_eq, ← hkept, hstale]
  refine (Action.onlyReads_done () c).bind (Action.onlyReads_forEach (fun r hr => ?_))
  obtain ⟨id, holding, hp, hid, -, rfl⟩ := hmem.1 hr
  obtain ⟨o, hget, ho⟩ := Option.map_eq_some_iff.1 ((h _ _).2 ⟨id, holding, hp, hid, rfl, rfl⟩)
  rw [← nameOf_toObject] at hget
  exact (Owned.onlyReads_apply retry hget (form_eq_self ho)).bind (Action.onlyReads_done () c)

end PortRoutes
end ServiceExposure
