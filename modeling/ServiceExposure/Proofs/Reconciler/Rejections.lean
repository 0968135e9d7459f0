import ServiceExposure.Proofs.Port.Valid
import ServiceExposure.Proofs.Reconciler.Chores
import ServiceExposure.Proofs.Reconciler.Situation
import ServiceExposure.Proofs.Shared.Alone
/-!
# What makes a reconciliation fail for good

With nobody else around and no failure of the cluster, exposing the ports of a service and updating its ingresses fails
permanently for three reasons (`Reconciler.failsForGood_iff`).  The service says something malformed; or the policy has a
malformed record, whoever it belongs to; or a rewrite is malformed and the service is ready, for only then is it read.
The first is a matter of the service alone, the others pass without a change to it.
-/
namespace ServiceExposure

theorem mapM_fails_iff {α β ε : Type} {f : α → Except ε β} : ∀ {xs : List α},
    (∃ e, xs.mapM f = .error e) ↔ ∃ x ∈ xs, ∃ e, f x = .error e
  | [] => by simp [pure, Except.pure]
  | x :: xs => by
    have hrest := @mapM_fails_iff _ _ _ f xs
    simp only [List.mapM_cons, List.mem_cons, exists_eq_or_imp, ← hrest]
    cases f x <;> cases xs.mapM f <;> simp [bind, Except.bind, pure, Except.pure]

/-- Among annotations is a record that cannot be read, the contributor's own or somebody else's. -/
def OwnershipRecords.Spoiled (records : OwnershipRecords) (annotations : Dict String) (contributor : String) : Prop :=
  ∃ key text, annotations.get? key = some text ∧ (key = records.key contributor ∨ records.isKey key = true) ∧
    ∃ e, ExposedPorts.parse key text = .error e

theorem OwnershipRecords.fails_iff {records : OwnershipRecords} {annotations : Dict String} {contributor : String} :
    (∃ e, records.read annotations contributor = .error e) ∨ (∃ e, records.readOthers annotations contributor = .error e) ↔
      records.Spoiled annotations contributor := by
  unfold read readOthers
  rw [mapM_fails_iff]
  constructor
  · rintro (⟨e, he⟩ | ⟨⟨key, text⟩, hmem, he⟩)
    · split at he
      case h_1 text htext => exact ⟨_, text, htext, .inl rfl, e, he⟩
      case h_2 => cases he
    · obtain ⟨hmem, hkey⟩ := List.mem_filter.1 hmem
      simp only [Bool.and_eq_true] at hkey
      exact ⟨key, text, Dict.mem_toList_iff.1 hmem, .inr hkey.2, he⟩
  · rintro ⟨key, text, htext, hkey, e, he⟩
    by_cases hown : key = records.key contributor
    · subst hown
      rw [htext]
      exact .inl ⟨e, he⟩
    · refine .inr ⟨(key, text), List.mem_filter.2 ⟨Dict.mem_toList_iff.2 htext, ?_⟩, e, he⟩
      simp [hown, hkey.resolve_left hown]

/-- **The part of a contributor in the policy** cannot be planned where a record of the policy cannot be read. -/
theorem Admission.plan_fails_iff {a : Admission} {current : Option NetworkPolicy} {who : Contributor}
    {desired : ExposedPorts} : (∃ e, a.plan current who desired = .error e) ↔
      ∃ p, current = some p ∧ a.records.Spoiled p.metadata.annotationSet who.name := by
  unfold plan
  cases current with
  | none =>
    have hread : a.records.read a.closed.metadata.annotationSet who.name = .ok .empty := rfl
    have hothers : a.records.readOthers a.closed.metadata.annotationSet who.name = .ok [] := rfl
    simp only [Option.getD_none, hread, hothers]
    constructor
    · rintro ⟨e, he⟩
      split at he <;> cases he
    · rintro ⟨p, hp, -⟩
      cases hp
  | some p =>
    simp only [reduceCtorEq, false_and, if_false, Option.getD_some, Option.some.injEq, exists_eq_left']
    rw [← OwnershipRecords.fails_iff]
    cases a.records.read p.metadata.annotationSet who.name <;>
      cases a.records.readOthers p.metadata.annotationSet who.name <;> simp [bind, Except.bind, pure, Except.pure]

/-! ## Where nothing is rejected, everything succeeds -/

theorem PortRoutes.succeeds_converge (ns : String) (retry : RetryPolicy) (t : Transport) (owner : Contributor)
    (ports : ExposedPorts) : (converge ns retry t owner ports).Succeeds := by
  refine (Action.succeeds_list _ _ _).bind (fun objects => ?_)
  refine (Action.Settles.succeeds (Action.settles_forEach
    (fun name _ => Owned.settles_deleteIfExists t.kind name ()))).bind (fun _ => ?_)
  exact Action.Settles.succeeds (Action.settles_forEach (fun r _ => Owned.settles_apply retry (t.toObject r) ()))

theorem SharedResource.succeeds_converge {s : SharedResource} (hg : s.Guarded) (retry : RetryPolicy) (who : Contributor)
    {desired : ExposedPorts} (hplan : ∀ current, ∃ change, s.plan current who desired = .ok change) :
    (s.converge retry who desired).Succeeds := fun c hc => by
  obtain ⟨change, hchange⟩ := hplan (c.get? s.kind s.name)
  exact ⟨(), _, alone_converge hg retry hc hchange, named_commit hg hc hchange⟩

namespace Reconciler

variable {r : Reconciler} {σ : Situation} {s : Service}

theorem succeeds_materialize (r : Reconciler) (owner : Contributor) (ports : ExposedPorts) :
    (r.materialize owner ports).Succeeds := by
  unfold materialize
  cases r.backend with
  | nginx =>
    exact (SharedResource.succeeds_converge r.tcpTable.guarded _ _ (fun _ => ⟨_, rfl⟩)).bind
      (fun _ => SharedResource.succeeds_converge r.udpTable.guarded _ _ (fun _ => ⟨_, rfl⟩))
  | traefik =>
    exact (PortRoutes.succeeds_converge _ _ _ _ _).bind (fun _ => PortRoutes.succeeds_converge _ _ _ _ _)

theorem convergePorts_outcome (r : Reconciler) (who : Contributor) (ports : ExposedPorts) {c : Cluster} (hc : c.Named) :
    (∃ p, c.get? .networkPolicy r.admission.name = some p ∧
        r.settings.ownership.Spoiled p.metadata.annotationSet who.name) ∧
      (∃ e, (r.convergePorts who ports).alone c = (.error (.parse e), c)) ∨
    (¬ ∃ p, c.get? .networkPolicy r.admission.name = some p ∧
        r.settings.ownership.Spoiled p.metadata.annotationSet who.name) ∧
      ∃ c', (r.convergePorts who ports).alone c = (.ok (), c') ∧ c'.Named := by
  have hfails := @Admission.plan_fails_iff r.admission (c.get? .networkPolicy r.admission.name) who ports
  unfold convergePorts
  cases hplan : r.admission.plan (c.get? .networkPolicy r.admission.name) who ports with
  | error e =>
    refine .inl ⟨hfails.1 ⟨e, hplan⟩, e, ?_⟩
    rw [Action.alone_bind, SharedResource.alone_converge_error (s := r.admission.resource) _ hplan]
  | ok change =>
    refine .inr ⟨fun hspoiled => ?_, ?_⟩
    · obtain ⟨e, he⟩ := hfails.2 hspoiled
      cases hplan.symm.trans he
    · have hrest : (r.loadBalancer.resource.converge r.settings.retry who ports >>= fun _ =>
          r.materialize who ports).Succeeds :=
        (SharedResource.succeeds_converge r.loadBalancer.guarded _ _ (fun _ => ⟨_, rfl⟩)).bind
          (fun _ => r.succeeds_materialize who ports)
      have hpolicy := SharedResource.alone_converge r.admission.guarded r.settings.retry hc hplan
      obtain ⟨⟨⟩, c', hrun, hc'⟩ := hrest (SharedResource.named_commit r.admission.guarded hc hplan)
      exact ⟨c', (Action.alone_bind_ok hpolicy _).trans hrun, hc'⟩

theorem succeeds_carryOut (r : Reconciler) (s : Service) (paths : List CesService)
    (planned : List PlannedIngress × Dict String) : (r.carryOut s paths planned).Succeeds := by
  refine (Action.Settles.succeeds (Action.settles_forEach
    (fun p _ => r.settles_applyIngress s planned.2 p))).bind (fun _ => ?_)
  exact (Action.succeeds_list _ _ _).bind
    (fun _ => Action.Settles.succeeds (Action.settles_forEach (fun name _ => r.settles_dropIngress name)))

/-! ## Failing for good -/

/-- Exposing the ports of a service and updating its ingresses fails in a situation with a permanent error. -/
def FailsForGood (r : Reconciler) (s : Service) (σ : Situation) : Prop :=
  ∃ e, ((do (r.within σ).expose s; (r.within σ).updateIngresses s : Action Unit).alone σ.cluster).1 = .error e ∧
    e.isPermanent = true

instance (r : Reconciler) (s : Service) (σ : Situation) : Decidable (r.FailsForGood s σ) :=
  decidable_of_iff ((match ((do (r.within σ).expose s; (r.within σ).updateIngresses s : Action Unit).alone σ.cluster).1 with
    | .ok _ => false
    | .error e => e.isPermanent) = true) (by
      unfold FailsForGood
      split <;> simp_all)

/-- An annotation of the service is malformed, or it exposes a port that it does not have. -/
def IsMalformed (s : Service) : Prop :=
  (∃ e, s.exposedPorts = .error e) ∨ (∃ e, pathsOf s = .error e) ∨ ∃ e, furtherAnnotationsOf s = .error e

/-- The policy has a record that cannot be read. -/
def RecordSpoiled (r : Reconciler) (s : Service) (σ : Situation) : Prop :=
  ∃ p, σ.cluster.get? .networkPolicy r.admission.name = some p ∧
    r.settings.ownership.Spoiled p.metadata.annotationSet s.name

/-- The service is ready, and one of its paths has a malformed rewrite. -/
def RewriteSpoiled (r : Reconciler) (s : Service) (σ : Situation) : Prop :=
  r.routing σ s.name = .ok .ready ∧ ∃ paths, pathsOf s = .ok paths ∧ ∃ p ∈ paths, ∃ e, p.serviceRewrite = .error e

theorem plan_fails_iff {state : RoutingState} {service : String} {p : CesService} :
    (∃ e, r.plan state service p = .error e) ↔ state = .ready ∧ ∃ e, p.serviceRewrite = .error e := by
  cases state with
  | maintenance | starting => simp [plan]
  | ready => cases hrewrite : p.serviceRewrite <;> simp [plan, hrewrite, bind, Except.bind, pure, Except.pure]

/-- What cannot be planned fails for good, unless it is the answer to a question that is missing. -/
theorem agenda_fails_iff : (∃ e, r.agenda σ s = .error e ∧ e.isPermanent = true) ↔
    (∃ e, pathsOf s = .error e) ∨ (∃ e, furtherAnnotationsOf s = .error e) ∨ r.RewriteSpoiled s σ := by
  unfold agenda RewriteSpoiled
  cases hpaths : pathsOf s with
  | error e => simp [Error.isPermanent]
  | ok paths =>
    cases hfurther : furtherAnnotationsOf s with
    | error e => simp [Error.isPermanent]
    | ok further =>
      unfold plans
      by_cases hnil : paths = []
      · simp [hnil, Except.map]
      · cases hstate : r.routing σ s.name with
        | error e => simp [hnil, Except.map, not_isPermanent_of_routing hstate]
        | ok state =>
          have hplan := @mapM_fails_iff _ _ _ (r.plan state s.name) paths
          simp only [plan_fails_iff] at hplan
          cases hmap : paths.mapM (r.plan state s.name) with
          | error e =>
            obtain ⟨p, hp, rfl, hrewrite⟩ := hplan.1 ⟨e, hmap⟩
            refine ⟨fun _ => .inr (.inr ⟨rfl, paths, rfl, p, hp, hrewrite⟩), fun _ => ⟨.parse e, ?_, rfl⟩⟩
            simp [hnil, hmap, Except.map]
          | ok planned =>
            constructor
            · rintro ⟨e, he, -⟩
              simp [hnil, hmap, Except.map] at he
            · rintro (⟨e, he⟩ | ⟨e, he⟩ | ⟨hready, declared, hdeclared, p, hp, hrewrite⟩)
              · cases he
              · cases he
              · cases hready
                cases hdeclared
                obtain ⟨e, he⟩ := hplan.2 ⟨p, hp, rfl, hrewrite⟩
                cases hmap.symm.trans he

theorem isPermanent_of_exposedPorts {e : Error} (h : s.exposedPorts = .error e) : e.isPermanent = true := by
  unfold Service.exposedPorts at h
  split at h
  · cases h
  · split at h
    · cases h
      rfl
    · split at h
      · cases h
        rfl
      · cases h

/-- **What makes a reconciliation fail for good.** -/
theorem failsForGood_iff (r : Reconciler) (s : Service) (σ : Situation) :
    r.FailsForGood s σ ↔ IsMalformed s ∨ r.RecordSpoiled s σ ∨ r.RewriteSpoiled s σ := by
  have hexpose : (r.within σ).expose s = (ExceptT.mk (.done s.exposedPorts) >>= fun ports =>
      r.convergePorts (r.contributorOf s) ports : Action Unit) := rfl
  unfold FailsForGood IsMalformed
  rw [Action.alone_bind, hexpose, Action.alone_bind, Action.alone_done]
  cases hports : s.exposedPorts with
  | error e => simp [isPermanent_of_exposedPorts hports]
  | ok ports =>
    dsimp only
    rcases r.convergePorts_outcome (r.contributorOf s) ports σ.named with
      ⟨hspoiled, e, hrun⟩ | ⟨hfine, c', hrun, hc'⟩
    · have hspoiled : r.RecordSpoiled s σ := hspoiled
      simp [hrun, hspoiled, Error.isPermanent]
    · have hfine : ¬ r.RecordSpoiled s σ := hfine
      have hrest : (∃ e, (((r.within σ).updateIngresses s).alone c').1 = .error e ∧ e.isPermanent = true) ↔
          ∃ e, r.agenda σ s = .error e ∧ e.isPermanent = true := by
        rw [alone_updateIngresses]
        cases r.agenda σ s with
        | error e => simp
        | ok planned =>
          obtain ⟨⟨⟩, _, hdone, -⟩ := r.succeeds_carryOut s planned.1 planned.2 hc'
          simp [hdone]
      rw [hrun, hrest, agenda_fails_iff]
      simp [hfine, or_assoc]

/-! ## Failing everywhere -/

/-- A policy with a record that is no JSON. -/
def spoiledPolicy (r : Reconciler) (s : Service) : NetworkPolicy :=
  { metadata :=
      { Metadata.named r.settings.ns r.admission.name with
        annotations := some (.ofList [(r.settings.ownership.key s.name, "nope")]) } }

/-- The policy has a record that is no JSON, and nothing else is known. -/
def spoiled (r : Reconciler) (s : Service) : Situation where
  cluster := Cluster.put {} .networkPolicy r.admission.name (r.spoiledPolicy s)
  named := Cluster.named_empty.put rfl
  maintenance := .error ""
  readiness _ := .error ""

/-- There is nothing, and nobody answers. -/
def void : Situation := ⟨{}, Cluster.named_empty, .error "", fun _ => .error ""⟩

theorem recordSpoiled_spoiled (r : Reconciler) (s : Service) : r.RecordSpoiled s (r.spoiled s) := by
  have hrecords : ExposedPorts.records? "nope" = none := by decide +kernel
  have hparse : ∀ key, ExposedPorts.parse key "nope" = .error (.malformed key) := fun key => by
    unfold ExposedPorts.parse
    rw [hrecords]
  exact ⟨_, Cluster.get?_put_self _ _ _ _, r.settings.ownership.key s.name, "nope", Dict.get?_insert_self _ _ _,
    .inl rfl, _, hparse _⟩

theorem not_rewriteSpoiled_void (r : Reconciler) (s : Service) : ¬ r.RewriteSpoiled s void := by
  rintro ⟨hready, -⟩
  unfold routing void at hready
  by_cases hstatic : s.name = r.settings.staticContent.service <;> simp [hstatic] at hready

/-- **Failing for good is a matter of the service alone exactly where the service says something malformed.**  Otherwise
it also depends on the records of the policy, and on whether the service is ready when one of its rewrites is malformed. -/
theorem failsForGood_everywhere_iff (r : Reconciler) (s : Service) :
    (∀ σ, r.FailsForGood s σ ↔ IsMalformed s ∨ r.RecordSpoiled s σ ∨ r.RewriteSpoiled s σ) ∧
      ((∀ σ τ, r.FailsForGood s σ → r.FailsForGood s τ) ↔ IsMalformed s) := by
  refine ⟨r.failsForGood_iff s, fun hall => ?_, fun hs σ τ _ => (r.failsForGood_iff s τ).2 (.inl hs)⟩
  have hfails := hall (r.spoiled s) void ((r.failsForGood_iff s _).2 (.inr (.inl (r.recordSpoiled_spoiled s))))
  rcases (r.failsForGood_iff s void).1 hfails with hs | ⟨p, hp, -⟩ | hrewrite
  · exact hs
  · cases hp
  · exact absurd hrewrite (r.not_rewriteSpoiled_void s)

/-- Somebody else's record is no JSON, and a service that says nothing malformed fails for good.  Without the record it
would not. -/
theorem failsForGood_passes :
    let r : Reconciler := ⟨{}, .nginx, .ofCluster "global-config"⟩
    let ldap : Service := .wanting "ldap" [⟨.tcp, 389, 389⟩]
    let policy : NetworkPolicy :=
      { metadata :=
          { Metadata.named "ecosystem" "nginx-ingress-exposed" with
            annotations := some (.ofList [("k8s.cloudogu.com/ces-exposed-ports-scm", "nope")]) } }
    let calm (c : Cluster) (hc : c.Named) : Situation := ⟨c, hc, .ok false, fun _ => .ok true⟩
    r.FailsForGood ldap (calm (Cluster.put {} .networkPolicy "nginx-ingress-exposed" policy) (Cluster.named_empty.put rfl)) ∧
      ¬ r.FailsForGood ldap (calm {} Cluster.named_empty) := by
  decide +kernel

end Reconciler
end ServiceExposure
