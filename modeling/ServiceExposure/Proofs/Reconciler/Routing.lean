import ServiceExposure.Proofs.Reconciler.Updates
/-!
# Where the ingresses of a service lead

An update that succeeds with nobody else around leaves, for each path that the service declares, an ingress that leads to
a static page or to the service, as the answers say (`Reconciler.Serves`), and no other ingress of the service.
-/
namespace ServiceExposure

theorem mapM_eq_ok {α β ε : Type} {f : α → Except ε β} {g : β → α} (hg : ∀ {x y}, f x = .ok y → g y = x) :
    ∀ {xs : List α} {ys : List β}, xs.mapM f = .ok ys → ys.map g = xs ∧ ∀ x ∈ xs, ∃ y ∈ ys, f x = .ok y
  | [], ys, h => by
    cases h
    exact ⟨rfl, nofun⟩
  | x :: xs, ys, h => by
    rw [List.mapM_cons] at h
    cases hx : f x with
    | error e =>
      rw [hx] at h
      cases h
    | ok y =>
      cases hxs : xs.mapM f with
      | error e =>
        rw [hx, hxs] at h
        cases h
      | ok rest =>
        rw [hx, hxs] at h
        cases h
        obtain ⟨hmap, hmem⟩ := mapM_eq_ok hg hxs
        refine ⟨by rw [List.map_cons, hmap, hg hx], fun z hz => ?_⟩
        rcases List.mem_cons.1 hz with rfl | hz
        · exact ⟨y, List.mem_cons_self, hx⟩
        · obtain ⟨w, hw, hz⟩ := hmem z hz
          exact ⟨w, List.mem_cons_of_mem y hw, hz⟩

namespace Reconciler

variable {r : Reconciler} {σ : Situation} {s : Service} {c : Cluster} {paths : List CesService} {p : CesService}
  {further : Dict String}

/-! ## Ingresses that a service owns -/

/-- An ingress of that name says that it belongs to the service. -/
def Labelled (s : Service) (name : String) (c : Cluster) : Prop :=
  ∃ i : Ingress, c.get? .ingress name = some i ∧ i.metadata.labelSet.get? Label.cesServiceOwner = some s.name

instance (s : Service) (name : String) (c : Cluster) : Decidable (Labelled s name c) :=
  match h : c.get? .ingress name with
  | none => isFalse (fun ⟨_, hi, _⟩ => nomatch h.symm.trans hi)
  | some (i : Ingress) => decidable_of_iff (i.metadata.labelSet.get? Label.cesServiceOwner = some s.name)
    ⟨fun hlabel => ⟨i, h, hlabel⟩, fun ⟨_, hi, hlabel⟩ => by
      cases h.symm.trans hi
      exact hlabel⟩

/-- An ingress of that name is labelled for the service, and refers to the service as its owner. -/
def Written (s : Service) (name : String) (c : Cluster) : Prop :=
  ∃ i : Ingress, c.get? .ingress name = some i ∧ i.metadata.labelSet.get? Label.cesServiceOwner = some s.name ∧
    i.metadata.ownerReferences = s.ownerReference?.map (fun o => [o])

theorem Written.labelled {name : String} (h : Written s name c) : Labelled s name c := by
  obtain ⟨i, hi, hlabel, -⟩ := h
  exact ⟨i, hi, hlabel⟩

/-- **The selector picks what says that it belongs to the service**, unless its name parts the selector. -/
theorem matchesLabels_ownedSelector {service : String} (h : ',' ∉ service.toList) (labels : Dict String) :
    Selector.matchesLabels (ownedSelector service) labels = true ↔
      labels.get? Label.cesServiceOwner = some service := by
  have hchars : (ownedSelector service).toList = Label.cesServiceOwner.toList ++ '=' :: service.toList := by
    unfold ownedSelector
    simp
  have hfields : Text.fields ',' (ownedSelector service) = [ownedSelector service] := by
    unfold Text.fields
    rw [List.splitOn_eq_singleton, List.map_singleton, String.ofList_toList]
    rw [hchars]
    simp [Label.cesServiceOwner, h]
  have hcut : Text.cutAt '=' (ownedSelector service) = some (Label.cesServiceOwner, service) := by
    have hparts : Text.cutChars '=' (ownedSelector service).toList =
        some (Label.cesServiceOwner.toList, service.toList) :=
      Text.cutChars_eq_some_iff.2 ⟨hchars, by decide⟩
    unfold Text.cutAt
    rw [hparts, Option.map_some, String.ofList_toList, String.ofList_toList]
  have hne : ownedSelector service ≠ "" := by
    intro he
    rw [he] at hchars
    simp at hchars
  unfold Selector.matchesLabels Selector.termMatches
  simp [hfields, hcut, hne]

theorem picked_iff_labelled (h : ',' ∉ s.name.toList) {name : String} : Picked s name c ↔ Labelled s name c := by
  unfold Picked Labelled
  simp only [matchesLabels_ownedSelector h]

/-! ## What was planned -/

/-- What the middleware of that name does, if there is one. -/
def middlewareSpec (c : Cluster) (name : String) : Option MiddlewareSpec :=
  (c.get? .middleware name).map Middleware.spec

/-- The ingress of a path leads its requests to a port of a service, and they are changed on the way as configured: by
annotations of the ingress itself or, where these refer to middlewares, by middlewares that do just that. -/
structure Leads (r : Reconciler) (p : CesService) (target : String) (port : Int) (config : RouteConfig)
    (further : Dict String) (c : Cluster) : Prop where
  ingress : ∃ i : Ingress, c.get? .ingress p.name = some i ∧
    i.spec = some
      { ingressClassName := some r.settings.ingressClass
        rules := some [{ paths := some [
          { path := some p.location
            pathType := "Prefix"
            backend := { service := some { name := target, port := some { number := some port } } } }] }] } ∧
    i.metadata.annotationSet = (r.generated p.name config).union further
  rewritten : r.backend = .nginx →
    (r.generated p.name config).get? "nginx.ingress.kubernetes.io/rewrite-target" = config.rewriteTarget
  middlewares : r.backend = .traefik → ∀ q : MiddlewarePurpose,
    middlewareSpec c (q.middlewareName p.name) = q.spec? config

/-- Where a path of a service leads in a state.  Only the service itself gets the further annotations. -/
def Serves (r : Reconciler) (s : Service) (further : Dict String) (p : CesService) (c : Cluster) : RoutingState → Prop
  | .maintenance =>
    r.Leads p r.settings.staticContent.service r.settings.staticContent.port
      { rewriteTarget := some r.settings.staticContent.maintenancePath } .empty c
  | .starting =>
    r.Leads p r.settings.staticContent.service r.settings.staticContent.port
      { rewriteTarget := some r.settings.staticContent.startingPath } .empty c
  | .ready => ∃ rewrite, p.serviceRewrite = .ok rewrite ∧
    r.Leads p s.name p.port
      { rewriteTarget := if p.pass = p.location then none else some p.pass, identityEncoding := true, rewrite } further c

theorem path_of_plan {state : RoutingState} {service : String} {planned : PlannedIngress}
    (h : r.plan state service p = .ok planned) : planned.path = p := by
  cases state with
  | maintenance | starting =>
    cases h
    rfl
  | ready =>
    unfold plan at h
    cases hrewrite : p.serviceRewrite with
    | error e =>
      rw [hrewrite] at h
      cases h
    | ok rewrite =>
      rw [hrewrite] at h
      cases h
      rfl

theorem nonEmpty?_getD (d : Dict String) : d.nonEmpty?.getD .empty = d := by
  unfold Dict.nonEmpty?
  split
  case isTrue h => exact (Dict.isEmpty_iff.1 h).symm
  case isFalse => rfl

theorem generated_rewriteTarget (hb : r.backend = .nginx) (ingress : String) (config : RouteConfig) :
    (r.generated ingress config).get? "nginx.ingress.kubernetes.io/rewrite-target" = config.rewriteTarget := by
  have hkeys : r.identity.rewriteKey = "nginx.ingress.kubernetes.io/rewrite-target" ∧
      "nginx.ingress.kubernetes.io/rewrite-target" ≠ r.identity.additionalKey := by
    unfold identity
    rw [hb]
    decide
  unfold generated plainAnnotations
  rw [hb]
  dsimp only
  generalize (if config.identityEncoding then [identityEncodingDirective] else []) ++
    (config.rewrite.map ServiceRewrite.nginxDirective).toList = snippet
  cases config.rewriteTarget <;> by_cases hs : snippet = [] <;>
    simp [hs, Dict.ofList, Dict.get?_insert, hkeys]

/-- **What is written** leads where it was planned to lead. -/
theorem leads_of_done {planned : PlannedIngress} (h : ∀ chore ∈ r.ingressChores s further planned, chore.Done c) :
    r.Leads planned.path planned.target planned.port planned.config further c := by
  constructor
  · obtain ⟨i, hget, hform⟩ := h _ (List.mem_append_right _ List.mem_cons_self)
    refine ⟨i, hget, ?_, ?_⟩
    · rw [← hform]
      rfl
    · rw [← hform]
      exact nonEmpty?_getD _
  · exact fun hb => generated_rewriteTarget hb _ _
  · intro hb q
    have hmem : r.middlewareChore s planned.path.name planned.config q ∈ r.ingressChores s further planned := by
      refine List.mem_append_left _ ?_
      unfold routeChores
      rw [hb]
      exact List.mem_map_of_mem q.mem_all
    have hdone := h _ hmem
    unfold middlewareChore at hdone
    cases hspec : q.spec? planned.config with
    | none =>
      rw [hspec] at hdone
      exact Option.map_eq_none_iff.2 hdone
    | some spec =>
      rw [hspec] at hdone
      obtain ⟨m, hget, hform⟩ := hdone
      refine Option.map_eq_some_iff.2 ⟨m, hget, ?_⟩
      rw [← hform]
      rfl

theorem written_of_done {planned : PlannedIngress} (h : ∀ chore ∈ r.ingressChores s further planned, chore.Done c) :
    Written s planned.path.name c := by
  obtain ⟨i, hget, hform⟩ := h _ (List.mem_append_right _ List.mem_cons_self)
  refine ⟨i, hget, ?_, ?_⟩
  · rw [← hform]
    exact Dict.get?_insert_self _ _ _
  · rw [← hform]
    rfl

theorem serves_of_plan {state : RoutingState} {planned : PlannedIngress} (h : r.plan state s.name p = .ok planned)
    (hdone : ∀ chore ∈ r.ingressChores s (if state = .ready then further else .empty) planned, chore.Done c) :
    r.Serves s further p c state := by
  have hleads := leads_of_done hdone
  cases state with
  | maintenance | starting =>
    cases h
    exact hleads
  | ready =>
    unfold plan at h
    cases hrewrite : p.serviceRewrite with
    | error e =>
      rw [hrewrite] at h
      cases h
    | ok rewrite =>
      rw [hrewrite] at h
      cases h
      refine ⟨rewrite, hrewrite, ?_⟩
      by_cases hpass : p.pass = p.location
      · simpa [CesService.needsRewriteTarget, hpass] using hleads
      · simpa [CesService.needsRewriteTarget, hpass] using hleads

/-! ## After an update -/

/-- An update that succeeded. -/
structure Updated (r : Reconciler) (σ : Situation) (s : Service) (paths : List CesService) (c : Cluster) : Prop where
  carried : ∃ planned, r.Carried s paths planned σ.cluster c
  again : ((r.within σ).updateIngresses s).alone c = (.ok (), c)
  labelled : ∀ name ∈ paths.map CesService.name, Labelled s name c
  serves : ∀ p ∈ paths, ∃ state further, r.routing σ s.name = .ok state ∧ furtherAnnotationsOf s = .ok further ∧
    r.Serves s further p c state

theorem updated_of_ok (hpaths : pathsOf s = .ok paths) (hnodup : (paths.map CesService.name).Nodup)
    (hok : ((r.within σ).updateIngresses s).alone σ.cluster = (.ok (), c)) : r.Updated σ s paths c := by
  have hrun := fun c => alone_updateIngresses r σ s c
  cases hagenda : r.agenda σ s with
  | error e =>
    rw [hrun, hagenda] at hok
    cases hok
  | ok agenda =>
    obtain ⟨declared, planned⟩ := agenda
    obtain ⟨hdeclared, further, hfurther, hplans⟩ := agenda_eq_ok hagenda
    cases hpaths.symm.trans hdeclared
    -- there is one planned ingress for each path
    have hplanned : planned.1.map PlannedIngress.path = paths ∧ ∀ p ∈ paths, ∃ ingress ∈ planned.1, ∃ state,
        r.routing σ s.name = .ok state ∧ r.plan state s.name p = .ok ingress ∧
          planned.2 = if state = .ready then further else .empty := by
      rcases plans_eq_ok hplans with ⟨rfl, rfl⟩ | ⟨state, hstate, hmap, hextra⟩
      · exact ⟨rfl, nofun⟩
      · obtain ⟨hmap, hmem⟩ := mapM_eq_ok path_of_plan hmap
        refine ⟨hmap, fun p hp => ?_⟩
        obtain ⟨ingress, hingress, hplan⟩ := hmem p hp
        exact ⟨ingress, hingress, state, hstate, hplan, hextra⟩
    obtain ⟨c', hcarry, hcarried⟩ := alone_carryOut σ.named hplanned.1 hnodup
    rw [hrun, hagenda] at hok
    cases hcarry.symm.trans hok
    refine ⟨⟨planned, hcarried⟩, ?_, fun name hname => ?_, fun p hp => ?_⟩
    · rw [hrun, hagenda]
      exact hcarried.again
    · obtain ⟨p, hp, rfl⟩ := List.mem_map.1 hname
      obtain ⟨ingress, hingress, state, -, hplan, -⟩ := hplanned.2 p hp
      have hlabelled := (written_of_done (hcarried.written ingress hingress)).labelled
      rw [path_of_plan hplan] at hlabelled
      exact hlabelled
    · obtain ⟨ingress, hingress, state, hstate, hplan, hextra⟩ := hplanned.2 p hp
      refine ⟨state, further, hstate, hfurther, serves_of_plan hplan ?_⟩
      rw [← hextra]
      exact hcarried.written ingress hingress

/-- **After an update that succeeds** the ingresses of a service are those that it declares, each leads where the answers
say, all others are untouched, and the same update again changes nothing. -/
theorem ingresses_after_update {r : Reconciler} {σ : Situation} {s : Service} (hname : ',' ∉ s.name.toList)
    {paths : List CesService} (hpaths : pathsOf s = .ok paths) (hnodup : (paths.map CesService.name).Nodup) {c : Cluster}
    (hok : ((r.within σ).updateIngresses s).alone σ.cluster = (.ok (), c)) :
    (∀ name, Labelled s name c ↔ name ∈ paths.map CesService.name) ∧
    (∀ p ∈ paths, ∃ state further, r.routing σ s.name = .ok state ∧ furtherAnnotationsOf s = .ok further ∧
      r.Serves s further p c state) ∧
    (∀ name, name ∉ paths.map CesService.name → ¬ Labelled s name σ.cluster →
      c.get? .ingress name = σ.cluster.get? .ingress name) ∧
    ((r.within σ).updateIngresses s).alone c = (.ok (), c) := by
  have h := updated_of_ok hpaths hnodup hok
  obtain ⟨planned, hcarried⟩ := h.carried
  refine ⟨fun name => ⟨fun hlabelled => ?_, h.labelled name⟩, h.serves, fun name hnot hlabelled => ?_, h.again⟩
  · apply Classical.byContradiction
    intro hnot
    exact hcarried.not_picked hnot ((picked_iff_labelled hname).2 hlabelled)
  · exact hcarried.untouched hnot (mt (picked_iff_labelled hname).1 hlabelled)

theorem eq_ok_of_toOption {ε α : Type} {x : Except ε α} {a : α} (h : x.toOption = some a) : x = .ok a := by
  cases x with
  | error e => cases h
  | ok b =>
    cases h
    rfl

/-- A service with two paths, one of them rewritten, and an annotation of its own for its ingresses. -/
def scm : Service where
  metadata :=
    { Metadata.named "ecosystem" "scm" with
      annotations := some ((Dict.empty.insert Annotation.cesServices
        "[[\"scm\",8080,\"/scm\",\"/scm\"],[\"scm-api\",8081,\"/api\",\"/scm/api\",\"[\\\"v1\\\",\\\"v2\\\"]\"]]").insert
        Annotation.additionalIngressAnnotations "\x7b\"example.com/timeout\":\"60\"\x7d") }

theorem pathsOf_scm : pathsOf scm = .ok [⟨"scm", 8080, "/scm", "/scm", none⟩,
    ⟨"scm-api", 8081, "/api", "/scm/api", some "[\"v1\",\"v2\"]"⟩] := eq_ok_of_toOption (by decide +kernel)

/-- The ingresses of an earlier time: one that the service no longer declares, and one of somebody else. -/
def leftovers : Cluster :=
  (Cluster.put {} .ingress "scm-old"
    { metadata := { Metadata.named "ecosystem" "scm-old" with
        labels := some (.ofList [(Label.cesServiceOwner, "scm")]) } : Ingress }).put
    .ingress "ldap" { metadata := .named "ecosystem" "ldap" : Ingress }

theorem named_leftovers : leftovers.Named := Cluster.Named.put (Cluster.Named.put Cluster.named_empty (by rfl)) (by rfl)

theorem alone_eq_ok {x : Except Error Unit × Cluster} (h : x.1.toOption = some ()) : x = (.ok (), x.2) :=
  congrArg (·, x.2) (eq_ok_of_toOption h)

/-- The service is ready.  What it no longer declares is deleted, and what is somebody else's stays. -/
theorem ingresses_after_update_scm :
    let r : Reconciler := ⟨{}, .nginx, .ofCluster "global-config"⟩
    let σ : Situation := ⟨leftovers, named_leftovers, .ok false, fun _ => .ok true⟩
    ∃ c, ((r.within σ).updateIngresses scm).alone σ.cluster = (.ok (), c) ∧
      (∀ name, Labelled scm name c ↔ name ∈ ["scm", "scm-api"]) ∧
      c.get? .ingress "ldap" = leftovers.get? .ingress "ldap" ∧
      ((r.within σ).updateIngresses scm).alone c = (.ok (), c) := by
  intro r σ
  have hname : ',' ∉ scm.name.toList := by decide +kernel
  have hok := alone_eq_ok (x := ((r.within σ).updateIngresses scm).alone σ.cluster) (by decide +kernel)
  obtain ⟨hlabelled, -, huntouched, hagain⟩ := ingresses_after_update hname pathsOf_scm (by decide +kernel) hok
  exact ⟨_, hok, hlabelled, huntouched "ldap" (by decide +kernel) (by decide +kernel), hagain⟩

end Reconciler
end ServiceExposure
