import ServiceExposure.Shared.Admission
import ServiceExposure.Shared.ForwardingTable
import ServiceExposure.Shared.LoadBalancer
/-!
# Plans as wanted objects

Each plan is the change between the object that was read and the object that is wanted in its place
(`ForwardingTable.plan_eq`, `LoadBalancer.plan`, `Admission.plan_eq`), so the plans of all shared resources are guarded by
what was read in the same way (`SharedResource.Guarded`).
-/
namespace ServiceExposure

namespace Change

/-- An object that is wanted is not deleted. -/
theorem between_some_ne_delete {α : Type} [DecidableEq α] (current : Option α) (d : α) :
    between current (some d) ≠ .delete := by
  intro h
  cases current with
  | none => cases h
  | some c =>
    simp only [between] at h
    split at h <;> cases h

theorem between_eq_delete_iff {α : Type} [DecidableEq α] {current next : Option α} :
    between current next = .delete ↔ current.isSome ∧ next = none := by
  cases next with
  | none => cases current <;> simp [between]
  | some d => exact iff_of_false (between_some_ne_delete current d) (fun h => Option.some_ne_none d h.2)

end Change

namespace Metadata

/-- An object may be written under a name where another one was read: as a new object of that name, or as a new version
of the one that was read. -/
def Fits (m : Metadata) (name : String) : Option Metadata → Prop
  | none => m.anyName = name
  | some read => m.resourceVersion = read.resourceVersion ∧ m.anyName = read.anyName

end Metadata

namespace SharedResource

/-- What is planned fits what was read. -/
structure Guarded (s : SharedResource) : Prop where
  create : ∀ {current contributor desired o}, s.plan current contributor desired = .ok (.create o) →
    current = none ∧ s.kind.nameOf o = s.name
  replace : ∀ {current contributor desired o}, s.plan current contributor desired = .ok (.replace o) →
    ∃ read, current = some read ∧ (s.kind.metadata o).resourceVersion = (s.kind.metadata read).resourceVersion ∧
      s.kind.nameOf o = s.kind.nameOf read
  delete : ∀ {current contributor desired}, s.plan current contributor desired = .ok .delete →
    ∃ read, current = some read

theorem guarded_of_between {s : SharedResource}
    (h : ∀ current contributor desired change, s.plan current contributor desired = .ok change →
      ∃ next, change = .between current next ∧
        ∀ o, next = some o → (s.kind.metadata o).Fits s.name (current.map s.kind.metadata)) : s.Guarded := by
  constructor
  · intro current contributor desired o hp
    obtain ⟨next, hc, hf⟩ := h _ _ _ _ hp
    cases next with
    | none => cases current <;> cases hc
    | some o' =>
      cases current with
      | none =>
        cases hc
        exact ⟨rfl, hf o rfl⟩
      | some r =>
        simp only [Change.between] at hc
        split at hc <;> cases hc
  · intro current contributor desired o hp
    obtain ⟨next, hc, hf⟩ := h _ _ _ _ hp
    cases next with
    | none => cases current <;> cases hc
    | some o' =>
      cases current with
      | none => cases hc
      | some r =>
        simp only [Change.between] at hc
        split at hc
        · cases hc
        · cases hc
          exact ⟨r, rfl, hf o rfl⟩
  · intro current contributor desired hp
    obtain ⟨next, hc, -⟩ := h _ _ _ _ hp
    cases current with
    | some r => exact ⟨r, rfl⟩
    | none => cases next <;> cases hc

end SharedResource

namespace ForwardingTable

/-- The table that is wanted in place of the one that was read. -/
def next (t : ForwardingTable) (contributor : Contributor) (desired : ExposedPorts) : Option ConfigMap → Option ConfigMap
  | none =>
    if t.wanted contributor desired = [] then none
    else some { metadata := .named t.ns t.name, data := some (dataOf (t.wanted contributor desired)) }
  | some c =>
    let data := dataOf (revise contributor (entriesOf (c.data.getD .empty)) (t.wanted contributor desired))
    some (if c.data.isSome || !data.isEmpty then { c with data := some data } else c)

theorem plan_eq (t : ForwardingTable) (current : Option ConfigMap) (contributor : Contributor) (desired : ExposedPorts) :
    t.plan current contributor desired = .between current (t.next contributor desired current) := by
  unfold plan next
  cases current with
  | none =>
    by_cases hw : t.wanted contributor desired = []
    · simp only [hw, if_pos, Change.between]
    · simp only [if_neg hw, Change.between]
  | some c => rfl

theorem fits_next {t : ForwardingTable} {contributor : Contributor} {desired : ExposedPorts}
    {current : Option ConfigMap} {o : ConfigMap} (h : t.next contributor desired current = some o) :
    o.metadata.Fits t.name (current.map ConfigMap.metadata) := by
  unfold next at h
  cases current with
  | none =>
    dsimp only at h
    split at h <;> cases h
    rfl
  | some c =>
    cases h
    split <;> exact ⟨rfl, rfl⟩

theorem guarded (t : ForwardingTable) : t.resource.Guarded := by
  apply SharedResource.guarded_of_between
  intro current contributor desired change hp
  cases hp
  exact ⟨_, t.plan_eq current contributor desired, fun o ho => fits_next ho⟩

theorem plan_ne_delete (t : ForwardingTable) (current : Option ConfigMap) (contributor : Contributor)
    (desired : ExposedPorts) : t.plan current contributor desired ≠ .delete := by
  rw [t.plan_eq]
  cases hn : t.next contributor desired current with
  | some o => exact Change.between_some_ne_delete current o
  | none =>
    cases current with
    | none => exact fun h => by cases h
    | some c => cases hn

end ForwardingTable

namespace LoadBalancer

theorem fits_withPorts {l : LoadBalancer} {current : Option Service} {ports : List ServicePort} {o : Service}
    (h : l.withPorts current ports = some o) : o.metadata.Fits l.name (current.map Service.metadata) := by
  unfold withPorts at h
  split at h
  · cases h
  · cases current with
    | none =>
      cases h
      rfl
    | some s =>
      cases h
      exact ⟨rfl, rfl⟩

theorem guarded (l : LoadBalancer) : l.resource.Guarded := by
  apply SharedResource.guarded_of_between
  intro current contributor desired change hp
  cases hp
  exact ⟨_, rfl, fun o ho => fits_withPorts ho⟩

end LoadBalancer

namespace Admission

/-- A plan of the policy leaves a missing policy that nobody needs alone, and else replaces the contributor's part by
the records. -/
theorem plan_eq_ok {a : Admission} {current : Option NetworkPolicy} {contributor : Contributor}
    {desired : ExposedPorts} {change : Change NetworkPolicy} (h : a.plan current contributor desired = .ok change) :
    current = none ∧ desired.forwardable.isEmpty ∧ change = .unchanged ∨
    ∃ prior others, a.records.read (current.getD a.closed).metadata.annotationSet contributor.name = .ok prior ∧
      a.records.readOthers (current.getD a.closed).metadata.annotationSet contributor.name = .ok others ∧
      change = .between current (some (a.revise (current.getD a.closed) contributor desired.forwardable prior
        (others.flatMap ExposedPorts.ids))) := by
  unfold plan at h
  dsimp only at h
  split at h
  case isTrue hn =>
    cases h
    exact .inl ⟨hn.1, hn.2, rfl⟩
  case isFalse =>
    cases hr : a.records.read (current.getD a.closed).metadata.annotationSet contributor.name with
    | error e =>
      rw [hr] at h
      cases h
    | ok prior =>
      cases ho : a.records.readOthers (current.getD a.closed).metadata.annotationSet contributor.name with
      | error e =>
        rw [hr, ho] at h
        cases h
      | ok others =>
        rw [hr, ho] at h
        cases h
        exact .inr ⟨prior, others, rfl, rfl, rfl⟩

theorem guarded (a : Admission) : a.resource.Guarded := by
  apply SharedResource.guarded_of_between
  intro current contributor desired change hp
  rcases plan_eq_ok hp with ⟨hn, -, hc⟩ | ⟨prior, others, -, -, hc⟩
  · rw [hn, hc]
    exact ⟨none, rfl, fun o ho => by cases ho⟩
  · refine ⟨_, hc, fun o ho => ?_⟩
    cases ho
    cases current with
    | none => rfl
    | some p => exact ⟨rfl, rfl⟩

theorem plan_ne_delete (a : Admission) (current : Option NetworkPolicy) (contributor : Contributor)
    (desired : ExposedPorts) : a.plan current contributor desired ≠ .ok .delete := by
  intro h
  rcases plan_eq_ok h with ⟨-, -, hc⟩ | ⟨prior, others, -, -, hc⟩
  · cases hc
  · exact Change.between_some_ne_delete current _ hc.symm

end Admission
end ServiceExposure
