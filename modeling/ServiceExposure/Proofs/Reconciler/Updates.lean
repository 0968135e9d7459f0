import ServiceExposure.Proofs.Dict
import ServiceExposure.Proofs.Reconciler.Chores
import ServiceExposure.Proofs.Reconciler.Situation
/-!
# Updating ingresses with nobody else around

What was planned is carried out in two rows of chores: first the ingresses that are declared, then those that the selector
picks and nobody declares (`Reconciler.undeclared`).  The chores are about different objects, so in the end all of them
are done and nothing else is touched (`Reconciler.alone_carryOut`); and since nothing undeclared is picked then, carrying
the same out again changes nothing (`Reconciler.Carried.again`).
-/
namespace ServiceExposure
namespace Reconciler

variable {r : Reconciler} {s : Service} {c c' : Cluster} {paths : List CesService}
  {planned : List PlannedIngress × Dict String}

/-- The ingresses that are listed as those of a service and are not declared. -/
def undeclared (s : Service) (paths : List CesService) (c : Cluster) : List String :=
  ((c.ingresses.values.filter (fun i => Selector.matchesLabels (ownedSelector s.name) i.metadata.labelSet)).map
    (·.metadata.anyName)).filter (fun name => name ∉ paths.map CesService.name)

/-- An ingress is listed as one of a service. -/
def Picked (s : Service) (name : String) (c : Cluster) : Prop :=
  ∃ i : Ingress, c.get? .ingress name = some i ∧
    Selector.matchesLabels (ownedSelector s.name) i.metadata.labelSet = true

theorem mem_undeclared (hc : c.Named) {name : String} :
    name ∈ undeclared s paths c ↔ name ∉ paths.map CesService.name ∧ Picked s name c := by
  unfold undeclared Picked
  simp only [List.mem_filter, List.mem_map, decide_eq_true_eq]
  constructor
  · rintro ⟨⟨i, ⟨hi, hpicked⟩, rfl⟩, hnot⟩
    obtain ⟨⟨key, j⟩, hmem, rfl⟩ := List.mem_map.1 hi
    have hget : c.get? .ingress key = some j := Dict.mem_toList_iff.1 hmem
    have hname : j.metadata.anyName = key := hc hget
    exact ⟨hnot, j, hname ▸ hget, hpicked⟩
  · rintro ⟨hnot, i, hget, hpicked⟩
    have hname : i.metadata.anyName = name := hc hget
    exact ⟨⟨i, ⟨List.mem_map.2 ⟨(name, i), Dict.mem_toList_iff.2 hget, rfl⟩, hpicked⟩, hname⟩, hnot⟩

theorem nodup_undeclared (hc : c.Named) : (undeclared s paths c).Nodup := by
  have hnames : c.ingresses.values.map (·.metadata.anyName) = c.ingresses.toList.map Prod.fst := by
    unfold Dict.values
    rw [List.map_map]
    refine List.map_congr_left (fun p hp => ?_)
    have hget : c.get? .ingress p.1 = some p.2 := Dict.mem_toList_iff.1 hp
    exact hc hget
  unfold undeclared
  refine List.Nodup.sublist (List.filter_sublist.trans (List.filter_sublist.map _)) ?_
  rw [hnames]
  exact c.ingresses.nodup_keys

theorem carryOut_eq (r : Reconciler) (s : Service) (paths : List CesService)
    (planned : List PlannedIngress × Dict String) {c c₁ : Cluster}
    (h : (Action.forEach (r.applyIngress s planned.2) planned.1).alone c = (.ok (), c₁)) :
    (r.carryOut s paths planned).alone c = (Action.forEach r.dropIngress (undeclared s paths c₁)).alone c₁ :=
  (Action.alone_bind_ok h _).trans (Action.alone_bind_ok (Action.alone_list .ingress _ _ c₁) _)

/-- What was planned was carried out, from one cluster to another. -/
structure Carried (r : Reconciler) (s : Service) (paths : List CesService) (planned : List PlannedIngress × Dict String)
    (c c' : Cluster) : Prop where
  named : c'.Named
  written : ∀ p ∈ planned.1, ∀ chore ∈ r.ingressChores s planned.2 p, chore.Done c'
  dropped : ∀ {name}, name ∉ paths.map CesService.name → Picked s name c → ∀ chore ∈ r.dropChores name, chore.Done c'
  rest : ∀ {kind n}, (∀ name, name ∈ paths.map CesService.name ∨ Picked s name c → (kind, n) ∉ r.places name) →
    c'.get? kind n = c.get? kind n

/-- **What was planned is carried out**, one ingress for each path. -/
theorem alone_carryOut (hc : c.Named) (hplanned : planned.1.map PlannedIngress.path = paths)
    (hnodup : (paths.map CesService.name).Nodup) :
    ∃ c', (r.carryOut s paths planned).alone c = (.ok (), c') ∧ r.Carried s paths planned c c' := by
  have hwritten : (planned.1.flatMap (r.ingressChores s planned.2)).map Chore.place =
      (paths.map CesService.name).flatMap r.places := by
    rw [← hplanned, List.map_flatMap, List.map_map, List.flatMap_map]
    exact congrArg (fun f => planned.1.flatMap f) (funext (r.places_ingressChores s planned.2))
  have hdropped : ∀ names : List String, (names.flatMap r.dropChores).map Chore.place = names.flatMap r.places := by
    intro names
    rw [List.map_flatMap]
    exact congrArg (fun f => names.flatMap f) (funext r.places_dropChores)
  obtain ⟨c₁, hrun₁, hc₁, hrest₁, hdone₁⟩ :=
    (Action.settles_forEach (fun p (_ : p ∈ planned.1) => r.settles_applyIngress s planned.2 p)).settles hc
  obtain ⟨c₂, hrun₂, hc₂, hrest₂, hdone₂⟩ :=
    (Action.settles_forEach (fun name (_ : name ∈ undeclared s paths c₁) => r.settles_dropIngress name)).settles hc₁
  rw [hwritten] at hrest₁ hdone₁
  rw [hdropped] at hrest₂ hdone₂
  -- writing what is declared does not change what is picked and undeclared
  have hpicked : ∀ {name}, name ∉ paths.map CesService.name → (Picked s name c₁ ↔ Picked s name c) := by
    intro name hnot
    have hsame : c₁.get? .ingress name = c.get? .ingress name := hrest₁ (fun hmem => by
      obtain ⟨other, hother, hplace⟩ := List.mem_flatMap.1 hmem
      rcases mem_places hplace with ⟨hkind, -⟩ | ⟨-, rfl⟩
      · cases hkind
      · exact hnot hother)
    unfold Picked
    rw [hsame]
  refine ⟨c₂, (carryOut_eq r s paths planned hrun₁).trans hrun₂, hc₂, fun p hp chore hchore => ?_,
    fun {name} hnot hname chore hchore => ?_, fun {kind n} hapart => ?_⟩
  · have hmem : chore ∈ planned.1.flatMap (r.ingressChores s planned.2) := List.mem_flatMap.2 ⟨p, hp, hchore⟩
    refine (hdone₁ (nodup_flatMap_places hnodup) chore hmem).congr (hrest₂ (fun hlater => ?_))
    obtain ⟨name, hname, hplace⟩ := List.mem_flatMap.1 hlater
    have hown : chore.place ∈ r.places p.path.name := by
      rw [← r.places_ingressChores s planned.2 p]
      exact List.mem_map_of_mem hchore
    have hdeclared : p.path.name ∈ paths.map CesService.name := by
      rw [← hplanned]
      exact List.mem_map_of_mem (List.mem_map_of_mem hp)
    exact ((mem_undeclared hc₁).1 hname).1 (eq_of_mem_places hown hplace ▸ hdeclared)
  · have hmem : name ∈ undeclared s paths c₁ := (mem_undeclared hc₁).2 ⟨hnot, (hpicked hnot).2 hname⟩
    exact hdone₂ (nodup_flatMap_places (nodup_undeclared hc₁)) chore (List.mem_flatMap.2 ⟨name, hmem, hchore⟩)
  · refine (hrest₂ (fun hmem => ?_)).trans (hrest₁ (fun hmem => ?_))
    · obtain ⟨name, hname, hplace⟩ := List.mem_flatMap.1 hmem
      obtain ⟨hnot, hpick⟩ := (mem_undeclared hc₁).1 hname
      exact hapart name (.inr ((hpicked hnot).1 hpick)) hplace
    · obtain ⟨name, hname, hplace⟩ := List.mem_flatMap.1 hmem
      exact hapart name (.inl hname) hplace

namespace Carried

/-- An ingress that is neither declared nor picked is as it was. -/
theorem untouched (h : r.Carried s paths planned c c') {name : String} (hnot : name ∉ paths.map CesService.name)
    (hpicked : ¬ Picked s name c) : c'.get? .ingress name = c.get? .ingress name := by
  refine h.rest (fun other hother hplace => ?_)
  rcases mem_places hplace with ⟨hkind, -⟩ | ⟨-, rfl⟩
  · cases hkind
  · exact hother.elim hnot hpicked

theorem gone (h : r.Carried s paths planned c c') {name : String} (hnot : name ∉ paths.map CesService.name)
    (hpicked : Picked s name c) : c'.get? .ingress name = none :=
  h.dropped hnot hpicked (.drop .ingress name) (List.mem_append_right _ List.mem_cons_self)

/-- Nothing undeclared is picked any more. -/
theorem not_picked (h : r.Carried s paths planned c c') {name : String} (hnot : name ∉ paths.map CesService.name) :
    ¬ Picked s name c' := by
  rintro ⟨i, hi, hlabels⟩
  by_cases hpicked : Picked s name c
  · cases (h.gone hnot hpicked).symm.trans hi
  · exact hpicked ⟨i, (h.untouched hnot hpicked).symm.trans hi, hlabels⟩

/-- **Carrying the same out again** changes nothing. -/
theorem again (h : r.Carried s paths planned c c') : (r.carryOut s paths planned).alone c' = (.ok (), c') := by
  have hwritten := (Action.settles_forEach
    (fun p (_ : p ∈ planned.1) => r.settles_applyIngress s planned.2 p)).again (c := c') (fun chore hmem => by
      obtain ⟨p, hp, hchore⟩ := List.mem_flatMap.1 hmem
      exact h.written p hp chore hchore)
  have hnone : undeclared s paths c' = [] := List.eq_nil_iff_forall_not_mem.2 (fun name hmem => by
    obtain ⟨hnot, hpicked⟩ := (mem_undeclared h.named).1 hmem
    exact h.not_picked hnot hpicked)
  rw [carryOut_eq r s paths planned hwritten, hnone]
  rfl

end Carried
end Reconciler
end ServiceExposure
