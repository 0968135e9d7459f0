import ServiceExposure.Proofs.Watch.Index
/-!
# Which changes call for which updates

A change calls for an update of a service exactly if it changes what drives the reconciliation of the service
(`Index.exposure_mem_observe_iff`).  For the ingresses and for the redirect it is told what may have changed without an
update (`Index.Covers`), from one version of the index to the next (`Index.covers_observe`) and from there over any number
of changes (`Index.Covers.trans`).  The shared load balancer is never in the index, and no update names it
(`Index.service?_ne_of_mem_observe`).
-/
namespace ServiceExposure
namespace Index

variable {i j k : Index} {name : String} {u : Update} {us vs : List Update}

/-- What drives the reconciliation of the service of a name, if there is one. -/
def relevant? (i : Index) (name : String) : Option (Dict String × Option (List ServicePort)) :=
  (i.service? name).map relevant

theorem relevant?_congr (h : j.service? name = i.service? name) : j.relevant? name = i.relevant? name :=
  congrArg (Option.map relevant) h

theorem relevant?_eq_none_iff : i.relevant? name = none ↔ i.service? name = none := Option.map_eq_none_iff

theorem hasPaths_eq_true_iff : i.hasPaths name = true ↔ ∃ s, i.service? name = some s ∧ declaresPaths s = true := by
  unfold hasPaths
  cases i.service? name <;> simp

/-- Whether a service declares HTTP paths is a matter of what drives its reconciliation. -/
theorem hasPaths_congr (h : j.relevant? name = i.relevant? name) : j.hasPaths name = i.hasPaths name := by
  have hpaths : ∀ i : Index, i.hasPaths name =
      ((i.relevant? name).map (fun r => r.1.contains Annotation.cesServices)).getD false := by
    intro i
    unfold hasPaths relevant?
    rw [Option.map_map]
    rfl
  rw [hpaths, hpaths, h]

theorem mem_servicesWithPaths : name ∈ i.servicesWithPaths ↔ i.hasPaths name = true := by
  unfold servicesWithPaths
  rw [List.mem_filter, Dict.mem_keys_iff]
  refine and_iff_right_of_imp (fun h => ?_)
  obtain ⟨s, hs, -⟩ := hasPaths_eq_true_iff.1 h
  exact Option.isSome_iff_exists.2 ⟨s, hs⟩

/-- **What an observation comes to**: one of four kinds of news, or none. -/
theorem observe_induction {motive : Index × List Update → Prop} (i : Index)
    (service : ∀ s, motive (i.observeService s)) (gone : ∀ n, motive (i.forgetService n))
    (readiness : ∀ n ready, motive (i.observeReadiness n ready)) (config : ∀ c, motive (i.observeConfig c))
    (nothing : motive (i, [])) : ∀ o, motive (i.observe o)
  | .service s => service s
  | .serviceGone n => gone n
  | .deployment d => readiness d.metadata.anyName (some d.isReady)
  | .deploymentGone n => readiness n none
  | .configMap c => by
    change motive (if _ then _ else _)
    split
    · exact config _
    · exact nothing
  | .configMapGone n => by
    change motive (if _ then _ else _)
    split
    · exact config _
    · exact nothing

/-- What an observation makes of the service of a name. -/
theorem service?_observe (i : Index) (name : String) : ∀ o, (i.observe o).1.service? name = match o with
    | .service s => if s.name ≠ i.exposedService ∧ name = s.name then some s else i.service? name
    | .serviceGone gone => if name = gone then none else i.service? name
    | _ => i.service? name
  | .service s => service?_observeService i s name
  | .serviceGone gone => service?_forgetService i gone name
  | .deployment _ => rfl
  | .deploymentGone _ => rfl
  | .configMap _ => by
    change (if _ then _ else _ : Index × List Update).1.service? name = _
    split <;> rfl
  | .configMapGone _ => by
    change (if _ then _ else _ : Index × List Update).1.service? name = _
    split <;> rfl

/-! ## Updates of services -/

theorem exposure_mem_observeService_iff {s : Service} : .exposure name ∈ (i.observeService s).2 ↔
    (i.observeService s).1.relevant? name ≠ i.relevant? name := by
  have hservice := service?_observeService i s name
  have hrelevant : ∀ {n}, (i.service? n).map relevant = i.relevant? n := rfl
  by_cases hs : s.name ≠ i.exposedService ∧ name = s.name
  · obtain ⟨hs, rfl⟩ := hs
    rw [if_pos ⟨hs, rfl⟩] at hservice
    have hnew : (i.observeService s).1.relevant? s.name = some (relevant s) := by
      unfold relevant?
      rw [hservice, Option.map_some]
    rw [hnew]
    unfold observeService
    rw [if_neg hs]
    dsimp only
    rw [hrelevant]
    by_cases hsame : i.relevant? s.name = some (relevant s)
    · simp [hsame]
    · simp [hsame, Ne.symm hsame]
  · rw [if_neg hs] at hservice
    refine iff_of_false (fun hmem => ?_) (not_not_intro (relevant?_congr hservice))
    obtain ⟨hu, hne⟩ := mem_observeService hmem
    exact hs ⟨hne, Update.exposure.inj hu⟩

theorem exposure_mem_forgetService_iff {gone : String} : .exposure name ∈ (i.forgetService gone).2 ↔
    (i.forgetService gone).1.relevant? name ≠ i.relevant? name := by
  have hservice := service?_forgetService i gone name
  by_cases hn : name = gone
  · subst hn
    rw [if_pos rfl] at hservice
    rw [relevant?_eq_none_iff.2 hservice, ne_comm, Ne, relevant?_eq_none_iff, ← Ne, Option.ne_none_iff_isSome]
    have hcontains : i.services.contains name = (i.service? name).isSome := rfl
    unfold forgetService
    dsimp only
    rw [hcontains]
    cases i.service? name <;> simp
  · rw [if_neg hn] at hservice
    refine iff_of_false (fun hmem => ?_) (not_not_intro (relevant?_congr hservice))
    exact hn (Update.exposure.inj (mem_forgetService hmem).1)

/-- **A change calls for an update of a service** exactly if it changes what drives the reconciliation of the service. -/
theorem exposure_mem_observe_iff (o : Observation) : .exposure name ∈ (i.observe o).2 ↔
    (i.observe o).1.relevant? name ≠ i.relevant? name := by
  refine observe_induction (motive := fun p => .exposure name ∈ p.2 ↔ p.1.relevant? name ≠ i.relevant? name) i
    (fun s => exposure_mem_observeService_iff) (fun n => exposure_mem_forgetService_iff) (fun n ready => ?_)
    (fun c => ?_) ?_ o
  · refine iff_of_false ?_ (not_not_intro rfl)
    unfold observeReadiness
    dsimp only
    split
    · exact List.not_mem_nil
    · split <;> simp
  · refine iff_of_false ?_ (not_not_intro rfl)
    unfold observeConfig
    dsimp only
    rw [List.mem_append, not_or]
    constructor <;> split <;> simp
  · exact iff_of_false List.not_mem_nil (not_not_intro rfl)

/-! ## What may have changed without an update -/

/-- What has not changed between two versions of the index if certain updates have not been called for in between. -/
structure Covers (i j : Index) (us : List Update) (name : String) : Prop where
  /-- Neither whether the service is there, nor its annotations, nor its ports. -/
  exposure : .exposure name ∉ us → j.relevant? name = i.relevant? name
  /-- For a service with HTTP paths, neither the readiness of its deployment nor the maintenance. -/
  ingresses : j.hasPaths name = true → .exposure name ∉ us → .ingresses name ∉ us →
    j.ready.get? name = i.ready.get? name ∧ j.config.maintenance = i.config.maintenance
  redirect : .redirect ∉ us → j.redirect = i.redirect

theorem Covers.refl (i : Index) (name : String) : i.Covers i [] name :=
  ⟨fun _ => rfl, fun _ _ _ => ⟨rfl, rfl⟩, fun _ => rfl⟩

theorem Covers.trans (h : i.Covers j us name) (h' : j.Covers k vs name) : i.Covers k (us ++ vs) name where
  exposure hnot := by
    rw [List.mem_append, not_or] at hnot
    exact (h'.exposure hnot.2).trans (h.exposure hnot.1)
  ingresses hpaths hnot hnot' := by
    rw [List.mem_append, not_or] at hnot hnot'
    -- without an update of the exposure, the service has had its paths all the time
    have hbefore : j.hasPaths name = true := by rw [← hasPaths_congr (h'.exposure hnot.2), hpaths]
    obtain ⟨hready', hmaintenance'⟩ := h'.ingresses hpaths hnot.2 hnot'.2
    obtain ⟨hready, hmaintenance⟩ := h.ingresses hbefore hnot.1 hnot'.1
    exact ⟨hready'.trans hready, hmaintenance'.trans hmaintenance⟩
  redirect hnot := by
    rw [List.mem_append, not_or] at hnot
    exact (h'.redirect hnot.2).trans (h.redirect hnot.1)

theorem readiness_of_not_mem {n : String} {ready : Option Bool} (hpaths : i.hasPaths name = true)
    (hnot : .ingresses name ∉ (i.observeReadiness n ready).2) :
    (i.observeReadiness n ready).1.ready.get? name = i.ready.get? name := by
  have hready : (i.observeReadiness n ready).1.ready.get? name = if name = n then ready else i.ready.get? name := by
    unfold observeReadiness
    cases ready with
    | none => exact Dict.get?_erase _ _ _
    | some b => exact Dict.get?_insert _ _ _ _
  rw [hready]
  split
  case isFalse => rfl
  case isTrue hn =>
    subst hn
    refine Classical.byContradiction (fun hchanged => hnot ?_)
    unfold observeReadiness
    dsimp only
    rw [if_neg (Ne.symm hchanged), if_pos hpaths]
    exact List.mem_singleton_self _

theorem maintenance_of_not_mem {c : GlobalConfig} (hpaths : i.hasPaths name = true)
    (hnot : .ingresses name ∉ (i.observeConfig c).2) : c.maintenance = i.config.maintenance := by
  refine Classical.byContradiction (fun hchanged => hnot (List.mem_append_left _ ?_))
  rw [if_neg (Ne.symm hchanged)]
  exact List.mem_map_of_mem (mem_servicesWithPaths.2 hpaths)

theorem redirect_of_not_mem {c : GlobalConfig} (hnot : .redirect ∉ (i.observeConfig c).2) :
    c.redirect = i.config.redirect := by
  refine Classical.byContradiction (fun hchanged => hnot (List.mem_append_right _ ?_))
  rw [if_neg (Ne.symm hchanged)]
  exact List.mem_singleton_self _

/-- **What one change does** is covered by the updates that it calls for. -/
theorem covers_observe (i : Index) (o : Observation) (name : String) :
    i.Covers (i.observe o).1 (i.observe o).2 name := by
  have hexposure : .exposure name ∉ (i.observe o).2 → (i.observe o).1.relevant? name = i.relevant? name :=
    fun hnot => Classical.not_not.1 (mt (exposure_mem_observe_iff o).2 hnot)
  revert hexposure
  refine observe_induction (motive := fun p => (.exposure name ∉ p.2 → p.1.relevant? name = i.relevant? name) →
    i.Covers p.1 p.2 name) i (fun s h => ?_) (fun n h => ?_) (fun n ready h => ?_) (fun c h => ?_) (fun _ => .refl i name) o
  · have hrest : (i.observeService s).1.ready = i.ready ∧ (i.observeService s).1.config = i.config := by
      unfold observeService
      split <;> exact ⟨rfl, rfl⟩
    exact ⟨h, fun _ _ _ => ⟨by rw [hrest.1], by rw [hrest.2]⟩, fun _ => congrArg GlobalConfig.redirect hrest.2⟩
  · exact ⟨h, fun _ _ _ => ⟨rfl, rfl⟩, fun _ => rfl⟩
  · exact ⟨h, fun hpaths _ hnot => ⟨readiness_of_not_mem hpaths hnot, rfl⟩, fun _ => rfl⟩
  · exact ⟨h, fun hpaths _ hnot => ⟨rfl, maintenance_of_not_mem hpaths hnot⟩, redirect_of_not_mem⟩

/-! ## The shared load balancer -/

/-- Services stand under their names, and the shared load balancer is not among them. -/
def Orderly (i : Index) : Prop := i.Holds (fun s => s.name ≠ i.exposedService)

theorem Orderly.observe (h : i.Orderly) (o : Observation) : (i.observe o).1.Orderly := by
  refine observe_induction (motive := fun p => p.1.Orderly) i (fun s => ?_) (fun n => ?_) (fun _ _ => h) (fun _ => h) h o
  · have hsame : (i.observeService s).1.exposedService = i.exposedService := by
      unfold observeService
      split <;> rfl
    unfold Orderly
    rw [hsame]
    exact holds_observeService h id
  · exact holds_forgetService h n

theorem Orderly.ne_of_service? (h : i.Orderly) {s : Service} (hs : i.service? name = some s) :
    name ≠ i.exposedService := by
  obtain ⟨hname, hne⟩ := h hs
  exact hname ▸ hne

theorem exposedService_observe (i : Index) (o : Observation) : (i.observe o).1.exposedService = i.exposedService := by
  refine observe_induction (motive := fun p => p.1.exposedService = i.exposedService) i (fun s => ?_) (fun _ => rfl)
    (fun _ _ => rfl) (fun _ => rfl) rfl o
  unfold observeService
  split <;> rfl

/-- **No update names the shared load balancer.** -/
theorem service?_ne_of_mem_observe (h : i.Orderly) (o : Observation) (hu : u ∈ (i.observe o).2) :
    u.service? ≠ some i.exposedService := by
  have hpaths : ∀ {n}, i.hasPaths n = true → (Update.ingresses n).service? ≠ some i.exposedService := by
    intro n hn heq
    obtain ⟨s, hs, -⟩ := hasPaths_eq_true_iff.1 hn
    exact h.ne_of_service? hs (Option.some.inj heq)
  revert hu
  refine observe_induction (motive := fun p => u ∈ p.2 → u.service? ≠ some i.exposedService) i (fun s hu => ?_)
    (fun n hu => ?_) (fun n ready hu => ?_) (fun c hu => ?_) (fun hu => nomatch hu) o
  · obtain ⟨rfl, hne⟩ := mem_observeService hu
    exact fun heq => hne (Option.some.inj heq)
  · obtain ⟨rfl, s, hs⟩ := mem_forgetService hu
    exact fun heq => h.ne_of_service? hs (Option.some.inj heq)
  · unfold observeReadiness at hu
    dsimp only at hu
    split at hu
    · cases hu
    · split at hu
      case isTrue hn =>
        cases List.mem_singleton.1 hu
        exact hpaths hn
      case isFalse => cases hu
  · rcases List.mem_append.1 hu with hu | hu
    · split at hu
      · cases hu
      · obtain ⟨n, hn, rfl⟩ := List.mem_map.1 hu
        exact hpaths (mem_servicesWithPaths.1 hn)
    · split at hu
      · cases hu
      · cases List.mem_singleton.1 hu
        nofun

end Index
end ServiceExposure
