import ServiceExposure.Proofs.Reconciler.Failures
import ServiceExposure.Proofs.Reconciler.Rejections
import ServiceExposure.Proofs.Watch.History
/-!
# Versions that call for no update

A new version of a service calls for no update if nothing has changed that drives the reconciliation.  What is then done
for the new version is what was done for the old one (`Reconciler.reconcile_congr`), with one exception: whatever is
generated for a path refers to the service as its owner, by its uid, and the uid does not count as a change.  So what was
generated is out of date exactly if the service gets ingresses and the reference to it has changed
(`Reconciler.quiet_version_iff`).
-/
namespace ServiceExposure

/-- **A version that calls for no update** has in it what drives the reconciliation of the one before. -/
theorem Index.relevant_eq_of_quiet {i : Index} (hi : i.Orderly) {old new : Service}
    (hold : i.service? old.name = some old) (hname : new.name = old.name) (hquiet : (i.observe (.service new)).2 = []) :
    relevant new = relevant old := by
  have hnew : (i.observe (.service new)).1.service? old.name = some new :=
    (i.service?_observe old.name (.service new)).trans (if_pos ⟨hname ▸ hi.ne_of_service? hold, hname.symm⟩)
  have hsame : (i.observe (.service new)).1.relevant? old.name = i.relevant? old.name := by
    refine Classical.byContradiction (fun hchanged => ?_)
    have hmem := (exposure_mem_observe_iff (.service new)).2 hchanged
    rw [hquiet] at hmem
    cases hmem
  unfold relevant? at hsame
  rw [hnew, hold] at hsame
  exact Option.some.inj hsame

theorem exists_ok_of_not_error {ε α : Type} {x : Except ε α} (h : ¬ ∃ e, x = .error e) : ∃ a, x = .ok a := by
  cases x with
  | error e => exact absurd ⟨e, rfl⟩ h
  | ok a => exact ⟨a, rfl⟩

theorem Action.done_bind_congr {α β : Type} {x : Except Error α} {f g : α → Action β} (h : ∀ a, x = .ok a → f a = g a) :
    (ExceptT.mk (.done x) >>= f : Action β) = ExceptT.mk (.done x) >>= g := by
  cases x with
  | ok a => exact h a rfl
  | error e => rfl

theorem Action.ofParse_bind_congr {α β : Type} {x : Except ParseError α} {f g : α → Action β}
    (h : ∀ a, x = .ok a → f a = g a) : ofParse x >>= f = ofParse x >>= g := by
  cases x with
  | ok a => exact h a rfl
  | error e => rfl

/-- Two versions of a service are alike in all that its reconciliation reads but the reference to it. -/
structure Service.Alike (s s' : Service) : Prop where
  name : s.name = s'.name
  ns : s.metadata.ns = s'.metadata.ns
  relevant : Index.relevant s = Index.relevant s'

theorem Service.Alike.annotationSet {s s' : Service} (h : s.Alike s') :
    s.metadata.annotationSet = s'.metadata.annotationSet := congrArg Prod.fst h.relevant

namespace Reconciler

/-- What is done for a service that is there: its ports are exposed and its ingresses written. -/
def reconcile (r : Reconciler) (s : Service) : Action Unit := do
  r.expose s
  r.updateIngresses s

variable {r : Reconciler} {σ : Situation} {s s' : Service} {state : RoutingState} {paths : List CesService}
  {further : Dict String}

/-! ## What is read of a service -/

theorem expose_congr (r : Reconciler) (h : s.Alike s') : r.expose s = r.expose s' := by
  have hwho : r.contributorOf s = r.contributorOf s' := by
    unfold contributorOf
    rw [h.name, h.ns]
  unfold expose
  rw [Service.exposedPorts_congr h.name h.relevant, hwho]

theorem pathsOf_congr (h : s.Alike s') : pathsOf s = pathsOf s' := by
  unfold pathsOf
  rw [h.annotationSet]

theorem furtherAnnotationsOf_congr (h : s.Alike s') : furtherAnnotationsOf s = furtherAnnotationsOf s' := by
  unfold furtherAnnotationsOf
  rw [h.annotationSet]

theorem declared_congr (h : s.Alike s') : declared s = declared s' := by
  unfold declared
  rw [pathsOf_congr h]

theorem planAll_congr (r : Reconciler) (hname : s.name = s'.name) : r.planAll s = r.planAll s' := by
  funext paths further
  unfold planAll
  rw [hname]

section Generated

variable (r : Reconciler) (hname : s.name = s'.name) (howner : s.ownerReference? = s'.ownerReference?)
include hname howner

theorem applyMiddleware_congr : r.applyMiddleware s = r.applyMiddleware s' := by
  have hmiddleware : r.routeMiddleware s = r.routeMiddleware s' := by
    funext name spec
    unfold routeMiddleware
    rw [hname, howner]
  funext ingress c p
  unfold applyMiddleware
  rw [hmiddleware]

theorem applyMiddlewares_congr (ingress : String) (c : RouteConfig) : ∀ ps : List MiddlewarePurpose,
    r.applyMiddlewares s ingress c ps = r.applyMiddlewares s' ingress c ps
  | [] => rfl
  | p :: ps => by
    unfold applyMiddlewares
    rw [applyMiddleware_congr r hname howner, applyMiddlewares_congr ingress c ps]

theorem applyIngress_congr : r.applyIngress s = r.applyIngress s' := by
  have hroute : r.routeAnnotations s = r.routeAnnotations s' := by
    funext ingress c
    unfold routeAnnotations
    rw [applyMiddlewares_congr r hname howner]
  have hingress : r.ingressOf s = r.ingressOf s' := by
    funext p annotations
    unfold ingressOf
    rw [hname, howner]
  funext further p
  unfold applyIngress
  rw [hroute, hingress]

end Generated

/-- **An update of ingresses** is the same where the reference is, and where nothing is generated. -/
theorem updateIngresses_congr (r : Reconciler) (h : s.Alike s') (howner : ∀ {paths further}, pathsOf s' = .ok paths →
    furtherAnnotationsOf s' = .ok further → paths ≠ [] → s.ownerReference? = s'.ownerReference?) :
    r.updateIngresses s = r.updateIngresses s' := by
  rw [updateIngresses_eq, updateIngresses_eq, pathsOf_congr h, furtherAnnotationsOf_congr h, planAll_congr r h.name]
  refine Action.ofParse_bind_congr (fun paths hpaths => Action.ofParse_bind_congr (fun further hfurther => ?_))
  by_cases hnil : paths = []
  · -- nothing is generated, so nothing reads the reference
    have hplan : r.planAll s' paths further = pure ([], .empty) := if_pos hnil
    rw [hplan, pure_bind, pure_bind]
    unfold carryOut Action.forEach
    rw [h.name]
  · have hcarry : r.carryOut s = r.carryOut s' := by
      funext paths planned
      unfold carryOut
      rw [applyIngress_congr r h.name (howner hpaths hfurther hnil), h.name]
    rw [hcarry]

/-- The service says nothing malformed, and it declares an ingress. -/
def GetsIngresses (s : Service) : Prop := ¬ IsMalformed s ∧ declared s ≠ []

theorem getsIngresses_congr (h : s.Alike s') : GetsIngresses s ↔ GetsIngresses s' := by
  unfold GetsIngresses IsMalformed
  rw [Service.exposedPorts_congr h.name h.relevant, pathsOf_congr h, furtherAnnotationsOf_congr h, declared_congr h]

/-- **What is done for a service** is the same for two versions that are alike, unless ingresses are generated and the
versions are referred to differently. -/
theorem reconcile_congr (r : Reconciler) (h : s.Alike s')
    (howner : GetsIngresses s' → s.ownerReference? = s'.ownerReference?) : r.reconcile s = r.reconcile s' := by
  unfold reconcile
  rw [expose_congr r h]
  unfold expose
  rw [bind_assoc, bind_assoc]
  refine Action.done_bind_congr (fun ports hports => ?_)
  rw [updateIngresses_congr r h (fun hpaths hfurther hne => howner ⟨?_, ?_⟩)]
  · rintro (⟨e, he⟩ | ⟨e, he⟩ | ⟨e, he⟩)
    · cases hports.symm.trans he
    · cases hpaths.symm.trans he
    · cases hfurther.symm.trans he
  · rw [declared_of_ok hpaths]
    exact mt List.map_eq_nil_iff.1 hne

/-! ## What shows the reference -/

/-- There is nothing, maintenance is going on, and no service is ready. -/
def upkeep : Situation := ⟨{}, Cluster.named_empty, .ok true, fun _ => .ok false⟩

theorem routing_upkeep (r : Reconciler) (service : String) :
    ∃ state, r.routing upkeep service = .ok state ∧ state ≠ .ready := by
  unfold routing upkeep
  by_cases hstatic : service = r.settings.staticContent.service
  · exact ⟨.starting, by simp [hstatic], nofun⟩
  · exact ⟨.maintenance, by simp [hstatic], nofun⟩

theorem plans_of_ne_ready (hstate : r.routing σ s.name = .ok state) (hready : state ≠ .ready) :
    ∃ planned, r.plans σ s paths further = .ok planned := by
  unfold plans
  split
  · exact ⟨_, rfl⟩
  · rw [hstate]
    dsimp only
    cases hmap : paths.mapM (r.plan state s.name) with
    | ok planned => exact ⟨_, rfl⟩
    | error e =>
      obtain ⟨p, -, hp⟩ := mapM_fails_iff.1 ⟨e, hmap⟩
      exact absurd (plan_fails_iff.1 hp).1 hready

theorem agenda_upkeep (r : Reconciler) (hpaths : pathsOf s = .ok paths) (hfurther : furtherAnnotationsOf s = .ok further) :
    ∃ planned, r.agenda upkeep s = .ok (paths, planned) := by
  obtain ⟨state, hstate, hready⟩ := r.routing_upkeep s.name
  obtain ⟨planned, hplans⟩ : ∃ planned, r.plans upkeep s paths further = .ok planned := plans_of_ne_ready hstate hready
  refine ⟨planned, ?_⟩
  unfold agenda
  rw [hpaths, hfurther]
  dsimp only
  rw [hplans]
  rfl

theorem exposed_in_upkeep (r : Reconciler) {ports : ExposedPorts} (hports : s.exposedPorts = .ok ports) :
    ∃ c, ((r.within upkeep).expose s).alone upkeep.cluster = (.ok (), c) ∧ c.Named := by
  have hexpose : (r.within upkeep).expose s = (ExceptT.mk (.done s.exposedPorts) >>= fun ports =>
    r.convergePorts (r.contributorOf s) ports : Action Unit) := rfl
  rw [hexpose, Action.alone_bind, Action.alone_done, hports]
  rcases r.convergePorts_outcome (r.contributorOf s) ports upkeep.named with ⟨⟨p, hp, -⟩, -⟩ | ⟨-, hrun⟩
  · -- there is no policy that could have a malformed record
    cases hp
  · exact hrun

/-- **During maintenance** a service that gets ingresses has all of them written. -/
theorem written_in_upkeep (r : Reconciler) (h : GetsIngresses s) :
    ∃ c, ((r.within upkeep).reconcile s).alone upkeep.cluster = (.ok (), c) ∧ ∀ name ∈ declared s, Written s name c := by
  obtain ⟨hports, hrest⟩ := not_or.1 h.1
  obtain ⟨hpaths, hfurther⟩ := not_or.1 hrest
  obtain ⟨ports, hports⟩ := exists_ok_of_not_error hports
  obtain ⟨paths, hpaths⟩ := exists_ok_of_not_error hpaths
  obtain ⟨further, hfurther⟩ := exists_ok_of_not_error hfurther
  obtain ⟨c₁, hexposed, hc₁⟩ := r.exposed_in_upkeep hports
  obtain ⟨planned, hagenda⟩ := agenda_upkeep r hpaths hfurther
  obtain ⟨⟨⟩, c₂, hcarried, -⟩ := r.succeeds_carryOut s paths planned hc₁
  have hupdated : ((r.within upkeep).updateIngresses s).alone c₁ = (.ok (), c₂) := by
    rw [alone_updateIngresses, hagenda]
    exact hcarried
  have hwritten := secures_written (r := r.within upkeep) (s := s) ⟨trivial, fun _ => trivial⟩ hc₁
  have hhonest : ∀ k : Call, k.failure = none → k.Honest := fun k hserved => .of_ne (by simp [hserved])
  exact ⟨c₂, (Action.alone_bind_ok hexposed _).trans hupdated, hwritten.alone hhonest hupdated⟩

/-- Two runs end the same: they come to the same result and leave the same objects behind, but for their versions. -/
def SameEnd (a b : Except Error Unit × Cluster) : Prop := a.1 = b.1 ∧ ∀ kind name, a.2.sight kind name = b.2.sight kind name

theorem Written.eq_of_sight {name : String} {c c' : Cluster} (h : Written s name c) (h' : Written s' name c')
    (hsight : c.sight .ingress name = c'.sight .ingress name) : s.ownerReference? = s'.ownerReference? := by
  obtain ⟨i, hi, -, howner⟩ := h
  obtain ⟨j, hj, -, howner'⟩ := h'
  have hseen : c.sight .ingress name = some (Kind.ingress.unversioned i) := congrArg (Option.map Kind.ingress.unversioned) hi
  have hseen' : c'.sight .ingress name = some (Kind.ingress.unversioned j) := congrArg (Option.map Kind.ingress.unversioned) hj
  rw [hseen, hseen'] at hsight
  have hrefs : i.metadata.ownerReferences = j.metadata.ownerReferences :=
    congrArg (fun o : Option Ingress => o.bind (·.metadata.ownerReferences)) hsight
  rw [howner, howner'] at hrefs
  exact Option.map_injective (fun _ _ h => (List.cons.inj h).1) hrefs

/-- **A version that calls for no update** leads to the same end as the version before, wherever it is reconciled, exactly
if no ingresses are generated for the service or the reference to it is still the same. -/
theorem quiet_version_iff (r : Reconciler) (ns globalConfig exposedService : String) (queue : UpdateQueue)
    (events : List Watcher.Event) {old new : Service}
    (hold : ((Watcher.start ns globalConfig exposedService queue).run events).index.service? old.name = some old)
    (hquiet : (((Watcher.start ns globalConfig exposedService queue).run events).index.observe (.service new)).2 = [])
    (hname : new.name = old.name) (hns : new.metadata.ns = old.metadata.ns) :
    (∀ σ : Situation, SameEnd (((r.within σ).reconcile new).alone σ.cluster)
        (((r.within σ).reconcile old).alone σ.cluster)) ↔
      (GetsIngresses old → new.ownerReference? = old.ownerReference?) := by
  have horderly := Watcher.orderly_run events (Watcher.orderly_start ns globalConfig exposedService queue)
  have halike : new.Alike old := ⟨hname, hns, Index.relevant_eq_of_quiet horderly hold hname hquiet⟩
  constructor
  · -- both versions get through in the same situation, and an ingress of each shows its reference
    intro hsame hgets
    obtain ⟨c, hrun, hwritten⟩ := r.written_in_upkeep hgets
    obtain ⟨c', hrun', hwritten'⟩ := r.written_in_upkeep ((getsIngresses_congr halike).2 hgets)
    obtain ⟨name, hdeclared⟩ := List.exists_mem_of_ne_nil _ hgets.2
    have hend := hsame upkeep
    rw [hrun, hrun'] at hend
    exact (hwritten' name (declared_congr halike ▸ hdeclared)).eq_of_sight (hwritten name hdeclared) (hend.2 .ingress name)
  · intro howner σ
    rw [reconcile_congr (r.within σ) halike howner]
    exact ⟨rfl, fun _ _ => rfl⟩

/-- A service with a path, under the uid that the cluster gave it. -/
def wiki (uid : String) : Service :=
  let s := serving "wiki" "[[\"wiki\",8080,\"/wiki\",\"/wiki\"]]"
  { s with metadata := { s.metadata with uid := some uid } }

/-- The service gets a label and keeps its uid: the update that is not called for would have changed nothing. -/
theorem quiet_version_iff_relabelled :
    let r : Reconciler := ⟨{}, .traefik, .ofCluster "global-config"⟩
    let old := wiki "5b1d0c1e"
    let new : Service := { old with metadata := { old.metadata with labels := some (.ofList [("app", "ces")]) } }
    let events : List Watcher.Event := [.observed (.service old), .worked []]
    let i := ((Watcher.start "ecosystem" "global-config" "traefik-exposed" { capacity := 1 }).run events).index
    i.service? old.name = some old ∧ (i.observe (.service new)).2 = [] ∧ new ≠ old ∧
      ∀ σ : Situation, SameEnd (((r.within σ).reconcile new).alone σ.cluster)
        (((r.within σ).reconcile old).alone σ.cluster) := by
  intro r old new events i
  have hold : i.service? old.name = some old := by decide +kernel
  have hquiet : (i.observe (.service new)).2 = [] := by decide +kernel
  have hsame := quiet_version_iff r "ecosystem" "global-config" "traefik-exposed" { capacity := 1 } events hold hquiet rfl rfl
  exact ⟨hold, hquiet, by decide +kernel, hsame.2 (fun _ => rfl)⟩

/-- The service is made anew with the same annotations, and no update is called for.  What would be generated for it now
refers to the new uid. -/
theorem recreated_service_outdated :
    let r : Reconciler := ⟨{}, .nginx, .ofCluster "global-config"⟩
    let σ : Situation := ⟨{}, Cluster.named_empty, .ok false, fun _ => .ok true⟩
    let old := wiki "5b1d0c1e"
    let new := wiki "c3a97f42"
    let events : List Watcher.Event := [.observed (.service old), .worked []]
    let i := ((Watcher.start "ecosystem" "global-config" "nginx-ingress-exposed" { capacity := 1 }).run events).index
    i.service? old.name = some old ∧ (i.observe (.service new)).2 = [] ∧ new.name = old.name ∧
      new.metadata.ns = old.metadata.ns ∧
      ¬ SameEnd (((r.within σ).reconcile new).alone σ.cluster) (((r.within σ).reconcile old).alone σ.cluster) := by
  intro r σ old new events i
  have hdiffer : (((r.within σ).reconcile new).alone σ.cluster).2.sight .ingress "wiki" ≠
      (((r.within σ).reconcile old).alone σ.cluster).2.sight .ingress "wiki" := by decide +kernel
  exact ⟨by decide +kernel, by decide +kernel, rfl, rfl, fun hend => hdiffer (hend.2 .ingress "wiki")⟩

end Reconciler
end ServiceExposure
