import ServiceExposure.Proofs.Reconciler.Routing
/-!
# The middlewares of ingresses

Where routes are configured by middlewares, an update that succeeds leaves for each path exactly those that the path needs
in the state of its service, and the ingress refers to exactly those, in a fixed order (`Reconciler.Equipped`).  An ingress
that is deleted leaves none.
-/
namespace ServiceExposure

/-- What the names of the middlewares of an ingress end in, in the order of the references. -/
def MiddlewarePurpose.endings : List String := ["-headers", "-path-regex", "-replace-path"]

namespace Reconciler

variable {r : Reconciler} {σ : Situation} {s : Service} {c : Cluster} {paths : List CesService} {p : CesService}
  {further : Dict String} {config : RouteConfig}

def middlewaresKey : String := "traefik.ingress.kubernetes.io/router.middlewares"

/-- The references to those middlewares of an ingress that exist. -/
def presentRefs (r : Reconciler) (ingress : String) (c : Cluster) : List String :=
  (MiddlewarePurpose.endings.filter (fun ending => (c.get? .middleware (ingress ++ ending)).isSome)).map
    (fun ending => r.settings.ns ++ "-" ++ (ingress ++ ending) ++ "@kubernetescrd")

/-- The middlewares of a path are those that its configuration asks for, and its ingress refers to them, unless the
further annotations say otherwise. -/
structure Equipped (r : Reconciler) (p : CesService) (config : RouteConfig) (further : Dict String) (c : Cluster) :
    Prop where
  headers : middlewareSpec c (p.name ++ "-headers") =
    if config.identityEncoding then some { headers := some (.ofList [("Accept-Encoding", "identity")]) } else none
  pathRegex : middlewareSpec c (p.name ++ "-path-regex") =
    config.rewrite.map (fun w => { replacePathRegex := some ⟨"^/" ++ w.pattern ++ "(/|$)(.*)", w.rewrite ++ "/$\x7b2\x7d"⟩ })
  replacePath : middlewareSpec c (p.name ++ "-replace-path") =
    config.rewriteTarget.map (fun path => { replacePath := some path })
  refs : ∃ i : Ingress, c.get? .ingress p.name = some i ∧ i.metadata.annotationSet.get? middlewaresKey =
    (further.get? middlewaresKey).or
      (if r.presentRefs p.name c = [] then none else some (Text.join "," (r.presentRefs p.name c)))

theorem presentRefs_eq (h : ∀ q : MiddlewarePurpose, middlewareSpec c (q.middlewareName p.name) = q.spec? config) :
    r.presentRefs p.name c = r.routeRefs p.name config MiddlewarePurpose.all := by
  have hends : MiddlewarePurpose.endings = MiddlewarePurpose.all.map MiddlewarePurpose.ending := rfl
  unfold presentRefs routeRefs
  rw [hends, List.filter_map, List.map_map]
  have hfilter : MiddlewarePurpose.all.filter ((fun ending => (c.get? .middleware (p.name ++ ending)).isSome) ∘
      MiddlewarePurpose.ending) = MiddlewarePurpose.all.filter (fun q => (q.spec? config).isSome) := by
    refine List.filter_congr (fun q _ => ?_)
    rw [← h q, q.middlewareName_eq]
    exact (Option.isSome_map).symm
  rw [hfilter]
  exact List.map_congr_left (fun q _ => by rw [q.middlewareName_eq]; rfl)

theorem get?_generated (hb : r.backend = .traefik) (ingress : String) (config : RouteConfig) :
    (r.generated ingress config).get? middlewaresKey =
      if r.routeRefs ingress config MiddlewarePurpose.all = [] then none
      else some (Text.join "," (r.routeRefs ingress config MiddlewarePurpose.all)) := by
  have hkey : r.identity.additionalKey = middlewaresKey := by
    unfold identity
    rw [hb]
    rfl
  unfold generated
  rw [hb, hkey]
  dsimp only
  split
  · rfl
  · exact Dict.get?_insert_self _ _ _

/-- **A path that leads somewhere** has just the middlewares for it. -/
theorem equipped_of_leads (hb : r.backend = .traefik) {target : String} {port : Int}
    (h : r.Leads p target port config further c) : r.Equipped p config further c := by
  obtain ⟨⟨i, hget, -, hannotations⟩, -, hmiddlewares⟩ := h
  have hspec := hmiddlewares hb
  refine ⟨hspec .headers, hspec .pathRegex, hspec .replacePath, i, hget, ?_⟩
  rw [hannotations, Dict.get?_union, get?_generated hb, presentRefs_eq hspec]

/-- **After an update that succeeds** each path has just the middlewares that it needs in the state of the service, and an
ingress that was deleted has left none. -/
theorem middlewares_after_update {r : Reconciler} (hb : r.backend = .traefik) {σ : Situation} {s : Service}
    {paths : List CesService} (hpaths : pathsOf s = .ok paths) (hnodup : (paths.map CesService.name).Nodup) {c : Cluster}
    (hok : ((r.within σ).updateIngresses s).alone σ.cluster = (.ok (), c)) :
    (∀ p ∈ paths, ∃ state further, r.routing σ s.name = .ok state ∧ furtherAnnotationsOf s = .ok further ∧
      match state with
      | .maintenance =>
        r.Equipped p { rewriteTarget := some r.settings.staticContent.maintenancePath } .empty c
      | .starting =>
        r.Equipped p { rewriteTarget := some r.settings.staticContent.startingPath } .empty c
      | .ready => ∃ rewrite, p.serviceRewrite = .ok rewrite ∧
        r.Equipped p
          { rewriteTarget := if p.pass = p.location then none else some p.pass, identityEncoding := true, rewrite }
          further c) ∧
    ∀ name, (σ.cluster.get? .ingress name).isSome → c.get? .ingress name = none →
      ∀ ending ∈ MiddlewarePurpose.endings, c.get? .middleware (name ++ ending) = none := by
  have h := updated_of_ok hpaths hnodup hok
  constructor
  · intro p hp
    obtain ⟨state, further, hstate, hfurther, hserves⟩ := h.serves p hp
    refine ⟨state, further, hstate, hfurther, ?_⟩
    cases state with
    | maintenance => exact equipped_of_leads hb hserves
    | starting => exact equipped_of_leads hb hserves
    | ready =>
      obtain ⟨rewrite, hrewrite, hleads⟩ := hserves
      exact ⟨rewrite, hrewrite, equipped_of_leads hb hleads⟩
  · intro name hbefore hafter ending hending
    obtain ⟨planned, hcarried⟩ := h.carried
    have hnot : name ∉ paths.map CesService.name := fun hmem => by
      obtain ⟨i, hi, -⟩ := h.labelled name hmem
      cases hafter.symm.trans hi
    have hpicked : Picked s name σ.cluster := Classical.byContradiction (fun hpicked => by
      rw [← hcarried.untouched hnot hpicked, hafter] at hbefore
      cases hbefore)
    obtain ⟨q, -, rfl⟩ : ∃ q ∈ MiddlewarePurpose.all, q.ending = ending := List.mem_map.1 hending
    refine hcarried.dropped hnot hpicked (.drop .middleware (name ++ q.ending)) (List.mem_append_left _ ?_)
    rw [hb, ← q.middlewareName_eq]
    exact List.mem_map_of_mem q.mem_all

/-- A route of an earlier time that the service no longer declares, with a middleware. -/
def leftoverRoute : Cluster :=
  leftovers.put .middleware "scm-old-headers"
    { metadata := .named "ecosystem" "scm-old-headers", spec := { headers := some (.ofList [("Accept-Encoding", "identity")]) } :
      Middleware }

/-- The service is ready. -/
theorem middlewares_after_update_scm :
    let r : Reconciler := ⟨{}, .traefik, .ofCluster "global-config"⟩
    let σ : Situation := ⟨leftoverRoute, named_leftovers.put (by rfl), .ok false, fun _ => .ok true⟩
    ∃ c, ((r.within σ).updateIngresses scm).alone σ.cluster = (.ok (), c) ∧
      (∀ p ∈ [(⟨"scm", 8080, "/scm", "/scm", none⟩ : CesService),
          ⟨"scm-api", 8081, "/api", "/scm/api", some "[\"v1\",\"v2\"]"⟩], ∃ rewrite, p.serviceRewrite = .ok rewrite ∧
        middlewareSpec c (p.name ++ "-path-regex") = rewrite.map (fun w =>
          { replacePathRegex := some ⟨"^/" ++ w.pattern ++ "(/|$)(.*)", w.rewrite ++ "/$\x7b2\x7d"⟩ })) ∧
      c.get? .ingress "scm-old" = none ∧ c.get? .middleware "scm-old-headers" = none := by
  intro r σ
  have hok := alone_eq_ok (x := ((r.within σ).updateIngresses scm).alone σ.cluster) (by decide +kernel)
  obtain ⟨hequipped, hgone⟩ := middlewares_after_update rfl pathsOf_scm (by decide +kernel) hok
  have hdeleted : (((r.within σ).updateIngresses scm).alone σ.cluster).2.get? .ingress "scm-old" = none :=
    Option.isNone_iff_eq_none.1 (by decide +kernel)
  refine ⟨_, hok, fun p hp => ?_, hdeleted, hgone "scm-old" (by decide +kernel) hdeleted "-headers" (by decide)⟩
  obtain ⟨state, further, hstate, -, hstates⟩ := hequipped p hp
  have hready : r.routing σ scm.name = .ok .ready := eq_ok_of_toOption (by decide +kernel)
  cases hready.symm.trans hstate
  obtain ⟨rewrite, hrewrite, h⟩ := hstates
  exact ⟨rewrite, hrewrite, h.pathRegex⟩

end Reconciler
end ServiceExposure
