import ServiceExposure.Proofs.Owned.Chores
import ServiceExposure.Reconciler.Ingresses
/-!
# The chores of ingresses

Writing an ingress means putting or dropping each middleware of its route and then putting the ingress; dropping one means
dropping the middlewares and then the ingress.  All these objects are named after the ingress, and those of different
ingresses never meet (`Reconciler.nodup_places`).
-/
namespace ServiceExposure

namespace MiddlewarePurpose

/-- What the name of an ingress is extended by. -/
def ending : MiddlewarePurpose → String
  | .headers => "-headers"
  | .pathRegex => "-path-regex"
  | .replacePath => "-replace-path"

theorem middlewareName_eq (p : MiddlewarePurpose) (ingress : String) : p.middlewareName ingress = ingress ++ p.ending := by
  cases p <;> rfl

/-- **Middlewares of different ingresses never meet**, nor do those of one. -/
theorem middlewareName_injective {p q : MiddlewarePurpose} {a b : String}
    (h : p.middlewareName a = q.middlewareName b) : p = q ∧ a = b := by
  rw [middlewareName_eq, middlewareName_eq] at h
  have hchars : a.toList ++ p.ending.toList = b.toList ++ q.ending.toList := by
    rw [← String.toList_append, ← String.toList_append, h]
  -- the endings differ in their last characters
  have hlast := congrArg List.getLast? hchars
  have hpq : p = q := by
    rw [List.getLast?_append, List.getLast?_append] at hlast
    cases p <;> cases q <;> simp [ending] at hlast ⊢
  subst hpq
  exact ⟨rfl, String.toList_inj.1 (List.append_cancel_right hchars)⟩

theorem mem_all (p : MiddlewarePurpose) : p ∈ all := by cases p <;> decide

end MiddlewarePurpose

namespace Reconciler

variable {r : Reconciler} {owner : Service} {ingress : String} {c : RouteConfig}

/-- What becomes of the middleware of one purpose. -/
def middlewareChore (r : Reconciler) (owner : Service) (ingress : String) (c : RouteConfig) (p : MiddlewarePurpose) :
    Chore :=
  match p.spec? c with
  | none => .drop .middleware (p.middlewareName ingress)
  | some spec => .put .middleware (r.routeMiddleware owner (p.middlewareName ingress) spec)

/-- The references to the middlewares that a route needs. -/
def routeRefs (r : Reconciler) (ingress : String) (c : RouteConfig) (ps : List MiddlewarePurpose) : List String :=
  (ps.filter (fun p => (p.spec? c).isSome)).map (fun p => r.middlewareRef (p.middlewareName ingress))

/-- The annotations that are generated for a route. -/
def generated (r : Reconciler) (ingress : String) (c : RouteConfig) : Dict String :=
  match r.backend with
  | .nginx => plainAnnotations r.identity c
  | .traefik =>
    let refs := r.routeRefs ingress c MiddlewarePurpose.all
    if refs = [] then .empty else .ofList [(r.identity.additionalKey, Text.join "," refs)]

def routeChores (r : Reconciler) (owner : Service) (ingress : String) (c : RouteConfig) : List Chore :=
  match r.backend with
  | .nginx => []
  | .traefik => MiddlewarePurpose.all.map (r.middlewareChore owner ingress c)

def ingressChores (r : Reconciler) (owner : Service) (further : Dict String) (p : PlannedIngress) : List Chore :=
  r.routeChores owner p.path.name p.config ++
    [.put .ingress (r.ingressOf owner p ((r.generated p.path.name p.config).union further))]

def dropChores (r : Reconciler) (name : String) : List Chore :=
  (match r.backend with
    | .nginx => []
    | .traefik => MiddlewarePurpose.all.map (fun p => .drop .middleware (p.middlewareName name))) ++ [.drop .ingress name]

theorem settles_applyMiddleware (r : Reconciler) (owner : Service) (ingress : String) (c : RouteConfig)
    (p : MiddlewarePurpose) : (r.applyMiddleware owner ingress c p).Settles (r.routeRefs ingress c [p])
      [r.middlewareChore owner ingress c p] := by
  unfold applyMiddleware middlewareChore
  cases hspec : p.spec? c with
  | none =>
    have hrefs : r.routeRefs ingress c [p] = [] := by simp [routeRefs, hspec]
    rw [hrefs]
    exact Owned.settles_deleteIfExists _ _ _
  | some spec =>
    have hrefs : r.routeRefs ingress c [p] = [r.middlewareRef (p.middlewareName ingress)] := by simp [routeRefs, hspec]
    rw [hrefs]
    exact Owned.settles_apply _ _ _

theorem settles_applyMiddlewares (r : Reconciler) (owner : Service) (ingress : String) (c : RouteConfig) :
    ∀ ps : List MiddlewarePurpose, (r.applyMiddlewares owner ingress c ps).Settles (r.routeRefs ingress c ps)
      (ps.map (r.middlewareChore owner ingress c))
  | [] => Action.settles_pure []
  | p :: ps => by
    have hrefs : r.routeRefs ingress c (p :: ps) = r.routeRefs ingress c [p] ++ r.routeRefs ingress c ps := by
      unfold routeRefs
      rw [← List.map_append, ← List.filter_append, List.singleton_append]
    have hrest := (settles_applyMiddlewares r owner ingress c ps).bind (f := fun refs => pure (r.routeRefs ingress c [p] ++ refs))
      (Action.settles_pure _)
    rw [List.append_nil] at hrest
    rw [hrefs]
    exact (r.settles_applyMiddleware owner ingress c p).bind hrest

theorem settles_routeAnnotations (r : Reconciler) (owner : Service) (ingress : String) (c : RouteConfig) :
    (r.routeAnnotations owner ingress c).Settles (r.generated ingress c) (r.routeChores owner ingress c) := by
  unfold routeAnnotations generated routeChores
  cases r.backend with
  | nginx => exact Action.settles_pure _
  | traefik =>
    have h := (r.settles_applyMiddlewares owner ingress c MiddlewarePurpose.all).bind
      (f := fun refs => pure (if refs = [] then Dict.empty else Dict.ofList [(r.identity.additionalKey, Text.join "," refs)]))
      (Action.settles_pure _)
    rw [List.append_nil] at h
    exact h

theorem settles_applyIngress (r : Reconciler) (owner : Service) (further : Dict String) (p : PlannedIngress) :
    (r.applyIngress owner further p).Settles () (r.ingressChores owner further p) :=
  (r.settles_routeAnnotations owner p.path.name p.config).bind (Owned.settles_apply _ _ ())

theorem settles_dropIngress (r : Reconciler) (name : String) : (r.dropIngress name).Settles () (r.dropChores name) := by
  refine Action.Settles.bind (a := ()) ?_ (Owned.settles_deleteIfExists .ingress name ())
  unfold removeRoute
  cases r.backend with
  | nginx => exact Action.settles_pure ()
  | traefik =>
    exact Action.settles_forEach (fun (p : MiddlewarePurpose) _ =>
      Owned.settles_deleteIfExists .middleware (p.middlewareName name) ())

/-! ## Where the chores are -/

/-- The objects of an ingress. -/
def places (r : Reconciler) (name : String) : List (Kind × String) :=
  (match r.backend with
    | .nginx => []
    | .traefik => MiddlewarePurpose.all.map (fun p => (.middleware, p.middlewareName name))) ++ [(.ingress, name)]

theorem places_ingressChores (r : Reconciler) (owner : Service) (further : Dict String) (p : PlannedIngress) :
    (r.ingressChores owner further p).map Chore.place = r.places p.path.name := by
  have hplace : ∀ q, (r.middlewareChore owner p.path.name p.config q).place = (.middleware, q.middlewareName p.path.name) := by
    intro q
    unfold middlewareChore
    cases q.spec? p.config <;> rfl
  unfold ingressChores routeChores places
  cases r.backend with
  | nginx => rfl
  | traefik =>
    simp only [List.map_append, List.map_map, List.map_cons, List.map_nil]
    exact congrArg (· ++ _) (List.map_congr_left (fun q _ => hplace q))

theorem places_dropChores (r : Reconciler) (name : String) : (r.dropChores name).map Chore.place = r.places name := by
  unfold dropChores places
  cases r.backend <;> rfl

theorem mem_places {name n : String} {kind : Kind} (h : (kind, n) ∈ r.places name) :
    (kind = .middleware ∧ ∃ p : MiddlewarePurpose, n = p.middlewareName name) ∨ kind = .ingress ∧ n = name := by
  rcases List.mem_append.1 h with h | h
  · cases hb : r.backend with
    | nginx => simp [hb] at h
    | traefik =>
      simp only [hb] at h
      obtain ⟨p, -, hp⟩ := List.mem_map.1 h
      cases hp
      exact .inl ⟨rfl, p, rfl⟩
  · cases List.mem_singleton.1 h
    exact .inr ⟨rfl, rfl⟩

theorem eq_of_mem_places {a b n : String} {kind : Kind} (ha : (kind, n) ∈ r.places a) (hb : (kind, n) ∈ r.places b) :
    a = b := by
  rcases mem_places ha with ⟨rfl, p, rfl⟩ | ⟨rfl, rfl⟩
  · rcases mem_places hb with ⟨-, q, hq⟩ | ⟨hk, -⟩
    · exact (MiddlewarePurpose.middlewareName_injective hq).2
    · cases hk
  · rcases mem_places hb with ⟨hk, -⟩ | ⟨-, rfl⟩
    · cases hk
    · rfl

theorem nodup_places (r : Reconciler) (name : String) : (r.places name).Nodup := by
  unfold places
  cases r.backend with
  | nginx => simp
  | traefik =>
    have hne : ∀ p q : MiddlewarePurpose, p ≠ q → p.middlewareName name ≠ q.middlewareName name := fun p q hpq h =>
      hpq (MiddlewarePurpose.middlewareName_injective h).1
    simp [MiddlewarePurpose.all, hne]

/-- **The objects of different ingresses** are different. -/
theorem nodup_flatMap_places : ∀ {names : List String}, names.Nodup → (names.flatMap r.places).Nodup := by
  intro names hn
  refine List.pairwise_flatMap.2 ⟨fun name _ => r.nodup_places name, hn.imp ?_⟩
  rintro a b hab ⟨kind, n⟩ ha _ hb rfl
  exact hab (eq_of_mem_places ha hb)

end Reconciler
end ServiceExposure
