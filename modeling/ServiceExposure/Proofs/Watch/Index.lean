import ServiceExposure.Reconciler.Ports
import ServiceExposure.Watch.Index
/-!
# The exposed ports in the index

Whenever an event changes what the index says about the ports of a service, it calls for an update of that service
(`Index.portsOf_observeService`, `Index.portsOf_forgetService`).
-/
namespace ServiceExposure

/-- What drives the reconciliation of a service decides which ports it wants. -/
theorem Service.exposedPorts_congr {s s' : Service} (hname : s.name = s'.name)
    (h : Index.relevant s = Index.relevant s') : s.exposedPorts = s'.exposedPorts := by
  obtain ⟨hannotations, hports⟩ := Prod.mk.inj h
  unfold exposedPorts ports
  rw [hannotations, hports, hname]

namespace Index

/-- The ports that a service wants by the index: none if it is gone, or if they cannot be read. -/
def portsOf (i : Index) (name : String) : ExposedPorts :=
  match (i.service? name).map Service.exposedPorts with
  | some (.ok ports) => ports
  | _ => .empty

/-- The services in the index stand under their names, and all of them were seen. -/
def Holds (i : Index) (seen : Service → Prop) : Prop := ∀ ⦃name s⦄, i.service? name = some s → s.name = name ∧ seen s

variable {i : Index} {seen : Service → Prop} {s : Service} {name : String}

theorem portsOf_congr {i' : Index} (h : i'.service? name = i.service? name) : i'.portsOf name = i.portsOf name := by
  unfold portsOf
  rw [h]

theorem portsOf_of_none (h : i.service? name = none) : i.portsOf name = .empty := by
  unfold portsOf
  rw [h]
  rfl

theorem portsOf_of_ok {ports : ExposedPorts} (h : i.service? name = some s) (hp : s.exposedPorts = .ok ports) :
    i.portsOf name = ports := by
  unfold portsOf
  rw [h, Option.map_some, hp]

/-- What a service wants is nothing, or what the version in the index says. -/
theorem portsOf_cases (i : Index) (name : String) : i.portsOf name = .empty ∨
    ∃ s ports, i.service? name = some s ∧ s.exposedPorts = .ok ports ∧ i.portsOf name = ports := by
  cases hs : i.service? name with
  | none => exact .inl (portsOf_of_none hs)
  | some s =>
    cases hp : s.exposedPorts with
    | ok ports => exact .inr ⟨s, ports, rfl, hp, portsOf_of_ok hs hp⟩
    | error e =>
      refine .inl ?_
      unfold portsOf
      rw [hs, Option.map_some, hp]

theorem service?_observeService (i : Index) (s : Service) (name : String) :
    (i.observeService s).1.service? name =
      if s.name ≠ i.exposedService ∧ name = s.name then some s else i.service? name := by
  by_cases hs : s.name = i.exposedService
  · have hindex : (i.observeService s).1 = i := by rw [observeService, if_pos hs]
    rw [hindex, if_neg (fun h => h.1 hs)]
  · have hindex : (i.observeService s).1 = { i with services := i.services.insert s.name s } := by
      rw [observeService, if_neg hs]
    rw [hindex]
    by_cases hn : name = s.name
    · rw [if_pos ⟨hs, hn⟩, hn]
      exact Dict.get?_insert_self _ _ _
    · rw [if_neg (fun h => hn h.2)]
      exact Dict.get?_insert_ne _ _ hn

theorem service?_forgetService (i : Index) (gone name : String) :
    (i.forgetService gone).1.service? name = if name = gone then none else i.service? name := by
  by_cases hn : name = gone
  · rw [if_pos hn, hn]
    exact Dict.get?_erase_self _ _
  · rw [if_neg hn]
    exact Dict.get?_erase_ne _ hn

/-- **A new version of a service** calls for an update of it where it wants other ports. -/
theorem portsOf_observeService (h : i.Holds seen) (s : Service) (name : String) :
    (i.observeService s).1.portsOf name = i.portsOf name ∨ .exposure name ∈ (i.observeService s).2 := by
  have hservice := service?_observeService i s name
  by_cases hs : s.name ≠ i.exposedService ∧ name = s.name
  · obtain ⟨hs, rfl⟩ := hs
    rw [if_pos ⟨hs, rfl⟩] at hservice
    by_cases hr : (i.service? s.name).map relevant = some (relevant s)
    · refine .inl ?_
      obtain ⟨old, hold, hrelevant⟩ := Option.map_eq_some_iff.1 hr
      unfold portsOf
      rw [hservice, hold, Option.map_some, Option.map_some, Service.exposedPorts_congr (h hold).1 hrelevant]
    · refine .inr ?_
      unfold observeService
      rw [if_neg hs]
      dsimp only
      rw [if_neg hr]
      exact List.mem_cons_self
  · rw [if_neg hs] at hservice
    exact .inl (portsOf_congr hservice)

/-- **A service that is gone** calls for an update of it, if it was known. -/
theorem portsOf_forgetService (i : Index) (gone name : String) :
    (i.forgetService gone).1.portsOf name = i.portsOf name ∨ .exposure name ∈ (i.forgetService gone).2 := by
  have hservice := service?_forgetService i gone name
  by_cases hn : name = gone
  · subst hn
    rw [if_pos rfl] at hservice
    cases hold : i.service? name with
    | none => exact .inl (portsOf_congr (hservice.trans hold.symm))
    | some s =>
      refine .inr ?_
      have hcontains : i.services.contains name = true := Option.isSome_iff_exists.2 ⟨s, hold⟩
      unfold forgetService
      dsimp only
      rw [if_pos hcontains]
      exact List.mem_cons_self
  · rw [if_neg hn] at hservice
    exact .inl (portsOf_congr hservice)

theorem holds_observeService (h : i.Holds seen) (hs : s.name ≠ i.exposedService → seen s) :
    (i.observeService s).1.Holds seen := by
  intro name s' hs'
  rw [service?_observeService] at hs'
  split at hs'
  case isTrue hnew =>
    cases hs'
    exact ⟨hnew.2.symm, hs hnew.1⟩
  case isFalse => exact h hs'

theorem holds_forgetService (h : i.Holds seen) (gone : String) : (i.forgetService gone).1.Holds seen := by
  intro name s' hs'
  rw [service?_forgetService] at hs'
  split at hs'
  case isTrue => cases hs'
  case isFalse => exact h hs'

/-- Events about services call for updates of services that were seen. -/
theorem mem_observeService {u : Update} (h : u ∈ (i.observeService s).2) :
    u = .exposure s.name ∧ s.name ≠ i.exposedService := by
  unfold observeService at h
  split at h
  case isTrue => cases h
  case isFalse hs =>
    dsimp only at h
    split at h
    · cases h
    · exact ⟨List.mem_singleton.1 h, hs⟩

theorem mem_forgetService {u : Update} {gone : String} (h : u ∈ (i.forgetService gone).2) :
    u = .exposure gone ∧ ∃ s, i.service? gone = some s := by
  unfold forgetService at h
  dsimp only at h
  split at h
  case isTrue hc =>
    exact ⟨List.mem_singleton.1 h, Option.isSome_iff_exists.1 hc⟩
  case isFalse => cases h

end Index
end ServiceExposure
