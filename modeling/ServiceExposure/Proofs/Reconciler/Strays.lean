import ServiceExposure.Proofs.Reconciler.Failures
/-!
# Middlewares that are left behind

An update finds the routes that are no longer declared by their ingresses.  The middlewares of a route are written before
its ingress and dropped before it, so a route that is on its way out is found again (`Reconciler.Fading`).  One that is on
its way in is not: where the update fails before the ingress is written, the route has strayed (`Reconciler.Stray`).  A
later update makes up for that if it declares the same name.  Otherwise the middlewares stay
(`Reconciler.tidy_after_update_iff`).
-/
namespace ServiceExposure
namespace Reconciler

variable {r : Reconciler} {s : Service} {c c' c₁ c₂ : Cluster} {name other : String}

/-- There is a middleware of that name, and it says that it belongs to the service. -/
def Exposes (s : Service) (n : String) (c : Cluster) : Prop :=
  ∃ m : Middleware, c.get? .middleware n = some m ∧ m.metadata.labelSet.get? Label.exposedService = some s.name

instance (s : Service) (n : String) (c : Cluster) : Decidable (Exposes s n c) :=
  decidable_of_iff ((c.get? .middleware n).bind (fun (m : Middleware) => m.metadata.labelSet.get? Label.exposedService) =
    some s.name) Option.bind_eq_some_iff

/-- A route has a middleware of the service, but no ingress of the service leads to it. -/
def Stray (s : Service) (name : String) (c : Cluster) : Prop :=
  (∃ p : MiddlewarePurpose, Exposes s (p.middlewareName name) c) ∧ ¬ Labelled s name c

/-- Every middleware of the service belongs to a route that it declares. -/
def Tidy (s : Service) (c : Cluster) : Prop :=
  ∀ n, Exposes s n c → ∃ name ∈ declared s, ∃ p : MiddlewarePurpose, n = p.middlewareName name

/-! ## Routes that fade -/

/-- A route is as it was or on its way out: its middlewares may be gone, and its ingress may have changed once all of them
are gone. -/
structure Fading (name : String) (c c' : Cluster) : Prop where
  named : c'.Named
  middlewares : ∀ p : MiddlewarePurpose, c'.get? .middleware (p.middlewareName name) =
    c.get? .middleware (p.middlewareName name) ∨ c'.get? .middleware (p.middlewareName name) = none
  ingress : c'.get? .ingress name = c.get? .ingress name ∨
    ∀ p : MiddlewarePurpose, c'.get? .middleware (p.middlewareName name) = none

namespace Fading

theorem refl (hc : c.Named) : Fading name c c := ⟨hc, fun _ => .inl rfl, .inl rfl⟩

theorem elsewhere (hb : r.backend = .traefik) (h : Fading name c c₁) (honly : Cluster.Only (r.places other) c₁ c₂)
    (hne : name ≠ other) : Fading name c c₂ := by
  have hmiddleware : ∀ p : MiddlewarePurpose, c₂.get? .middleware (p.middlewareName name) =
      c₁.get? .middleware (p.middlewareName name) := fun p => get?_elsewhere honly hne (middleware_mem_places hb name p)
  have hingress : c₂.get? .ingress name = c₁.get? .ingress name := get?_elsewhere honly hne (r.ingress_mem_places name)
  refine ⟨honly.1, fun p => ?_, ?_⟩
  · rw [hmiddleware]
    exact h.middlewares p
  · simp only [hingress, hmiddleware]
    exact h.ingress

theorem remove_middleware (h : Fading name c c₁) (n : String) : Fading name c (c₁.remove .middleware n) := by
  have hgone : ∀ p : MiddlewarePurpose, (c₁.remove .middleware n).get? .middleware (p.middlewareName name) =
      c₁.get? .middleware (p.middlewareName name) ∨
      (c₁.remove .middleware n).get? .middleware (p.middlewareName name) = none := by
    intro p
    by_cases hn : p.middlewareName name = n
    · rw [hn]
      exact .inr (c₁.get?_remove_self .middleware n)
    · exact .inl (c₁.get?_remove_ne .middleware hn)
  refine ⟨h.named.remove .middleware n, fun p => ?_, ?_⟩
  · rcases hgone p with hsame | hnone
    · rw [hsame]
      exact h.middlewares p
    · exact .inr hnone
  · rw [c₁.get?_remove_kind n (by decide)]
    exact h.ingress.imp_right (fun hnone p => (hgone p).elim (fun hsame => hsame.trans (hnone p)) id)

/-- **A route that has strayed was astray before.** -/
theorem stray (h : Fading name c c') (hstray : Stray s name c') : Stray s name c := by
  obtain ⟨⟨p, m, hm, hlabel⟩, hingress⟩ := hstray
  refine ⟨⟨p, m, ?_, hlabel⟩, fun hlabelled => hingress ?_⟩
  · rcases h.middlewares p with hsame | hnone
    · exact hsame.symm.trans hm
    · cases hnone.symm.trans hm
  · obtain ⟨i, hi, howner⟩ := hlabelled
    rcases h.ingress with hsame | hnone
    · exact ⟨i, hsame.trans hi, howner⟩
    · cases (hnone p).symm.trans hm

end Fading

/-- **Dropping an ingress** drops all its middlewares first. -/
theorem dropIngress_fades (hb : r.backend = .traefik) (h : Fading name c c₁) :
    (r.dropIngress name).Secures Call.Honest (Fading name c) (fun _ _ => True) c₁ := by
  have hroute : (r.removeRoute name).Secures Call.Honest (Fading name c)
      (fun _ c' => ∀ p : MiddlewarePurpose, p ∉ [] → c'.get? .middleware (p.middlewareName name) = none) c₁ := by
    unfold removeRoute
    rw [hb]
    refine Action.secures_forEach (J := fun rest c' => ∀ p : MiddlewarePurpose, p ∉ rest →
      c'.get? .middleware (p.middlewareName name) = none) (fun p rest c₂ h₂ hgone => ?_) h (fun p hp => absurd p.mem_all hp)
    -- the middlewares that are gone stay gone
    have hdelete : (Owned.deleteIfExists .middleware (p.middlewareName name)).Secures Call.Honest
        (fun c' => Fading name c c' ∧ ∀ q : MiddlewarePurpose, q ∉ p :: rest →
          c'.get? .middleware (q.middlewareName name) = none)
        (fun _ c' => (∀ k : Call, k.Honest → k.Honest) → (Chore.drop .middleware (p.middlewareName name)).Done c') c₂ :=
      Owned.secures_deleteIfExists (fun _ _ => ⟨h₂.remove_middleware _, fun q hq =>
        Option.eq_none_iff_forall_ne_some.2 (fun m hm => by
          cases (hgone q hq).symm.trans (Cluster.get?_of_get?_remove hm))⟩) ⟨h₂, hgone⟩
    refine Action.Secures.bind (Q := fun _ c' => ∀ q : MiddlewarePurpose, q ∉ rest →
      c'.get? .middleware (q.middlewareName name) = none)
      (hdelete.imp (fun _ h => h.1) (fun _ c' h' hdone q hq => ?_) ⟨h₂, hgone⟩)
      (fun _ _ _ hrest => Action.secures_pure hrest) h₂
    by_cases hqp : q = p
    · rw [hqp]
      exact hdone (fun _ h => h)
    · exact h'.2 q (fun hmem => (List.mem_cons.1 hmem).elim hqp hq)
  refine hroute.bind (fun _ c₂ h₂ hgone => ?_) h
  have hlast : (Owned.deleteIfExists .ingress name).run.Maintains (Fading name c) c₂ := by
    refine Owned.maintains_delete h₂ (fun _ _ => ?_)
    have hnone : ∀ p : MiddlewarePurpose, (c₂.remove .ingress name).get? .middleware (p.middlewareName name) = none := by
      intro p
      rw [c₂.get?_remove_kind name (by decide)]
      exact hgone p List.not_mem_nil
    exact ⟨h₂.named.remove .ingress name, fun p => .inr (hnone p), .inr hnone⟩
  exact (Action.secures_of_maintains hlast).bind (fun _ _ _ _ => Action.secures_pure trivial) h₂

/-- **A route that is not declared** can only fade, whichever calls fail. -/
theorem secures_fading (hq : r.questions.OnlyAsk) (hb : r.backend = .traefik) (hc : c.Named) (hnot : name ∉ declared s) :
    (r.updateIngresses s).Secures Call.Honest (Fading name c) (fun _ _ => True) c := by
  refine secures_updateIngresses (J := fun _ _ => True) (K := fun _ _ => True) hq (fun _ h => h.named) ?_
    (fun _ _ _ _ _ => trivial) ?_ (.refl hc) trivial
  · intro further p rest c₁ hp h _
    refine (r.secures_applyIngress s further p h.named).imp (fun c₂ honly => h.elsewhere hb honly ?_)
      (fun _ _ _ _ => trivial) (.refl h.named)
    rintro rfl
    exact hnot hp
  · intro other rest c₁ h _
    by_cases hne : name = other
    · rw [← hne]
      exact dropIngress_fades hb h
    · exact (r.secures_dropIngress other h.named).imp (fun c₂ honly => h.elsewhere hb honly hne)
        (fun _ _ _ _ => trivial) (.refl h.named)

/-- Every middleware of the service is named after some route. -/
def Proper (s : Service) (c : Cluster) : Prop :=
  ∀ n, Exposes s n c → ∃ name, ∃ p : MiddlewarePurpose, n = p.middlewareName name

theorem Proper.only (h : Proper s c₁) (honly : Cluster.Only (r.places other) c₁ c₂) : Proper s c₂ := by
  intro n hexposes
  by_cases hmem : (Kind.middleware, n) ∈ r.places other
  · rcases mem_places hmem with ⟨-, p, hp⟩ | ⟨hkind, -⟩
    · exact ⟨other, p, hp⟩
    · cases hkind
  · obtain ⟨m, hm, hlabel⟩ := hexposes
    exact h n ⟨m, (honly.2 hmem).symm.trans hm, hlabel⟩

/-- **Middlewares are named after routes**, whichever calls fail. -/
theorem secures_proper {F : Call → Prop} {t : Service} (hq : r.questions.OnlyAsk) (h : c.Named ∧ Proper t c) :
    (r.updateIngresses s).Secures F (fun c => c.Named ∧ Proper t c) (fun _ _ => True) c := by
  refine secures_updateIngresses (J := fun _ _ => True) (K := fun _ _ => True) hq (fun _ h => h.1) ?_
    (fun _ _ _ _ _ => trivial) ?_ h trivial
  · exact fun further p _ c₁ _ h _ => (r.secures_applyIngress s further p h.1).imp (fun _ honly => ⟨honly.1, h.2.only honly⟩)
      (fun _ _ _ _ => trivial) (.refl h.1)
  · exact fun other _ c₁ h _ => (r.secures_dropIngress other h.1).imp (fun _ honly => ⟨honly.1, h.2.only honly⟩)
      (fun _ _ _ _ => trivial) (.refl h.1)

/-! ## Rows of updates -/

/-- An update of the ingresses of a service, how questions are answered then, and what becomes of its calls. -/
structure UpdateAttempt where
  service : Service
  questions : Questions
  failures : List (Option Refusal)

namespace UpdateAttempt

/-- The attempt of a reconciler with the settings and the backend of `r`. -/
def attempt (r : Reconciler) (u : UpdateAttempt) : Attempt :=
  ⟨({ r with questions := u.questions } : Reconciler).updateIngresses u.service, u.failures⟩

/-- An update on behalf of a service, where questions are answered without writing anything. -/
structure Of (s : Service) (u : UpdateAttempt) : Prop where
  name : u.service.name = s.name
  asks : u.questions.OnlyAsk

end UpdateAttempt

theorem Stray.congr {t : Service} (h : t.name = s.name) (hstray : Stray s name c) : Stray t name c := by
  unfold Stray Exposes Labelled at hstray ⊢
  rw [h]
  exact hstray

/-- **Where a stray route stems from**: it was astray in the beginning, or an attempt that declared it did not succeed, and
no later one declared it. -/
theorem stray_stems (hb : r.backend = .traefik) : ∀ (us : List UpdateAttempt) {c : Cluster}, c.Named → (∀ u ∈ us, u.Of s) →
    (∀ k ∈ Attempt.sent (us.map (·.attempt r)) c, k.Honest) → Stray s name (Attempt.after (us.map (·.attempt r)) c) →
    (Stray s name c ∧ ∀ u ∈ us, name ∉ declared u.service) ∨
    ∃ vs v ws, us = vs ++ v :: ws ∧ name ∈ declared v.service ∧
      ¬ (v.attempt r).Succeeds (Attempt.after (vs.map (·.attempt r)) c) ∧ ∀ w ∈ ws, name ∉ declared w.service
  | [], _, _, _, _, hstray => .inl ⟨hstray, fun _ h => nomatch h⟩
  | u :: us, c, hc, hof, hfair, hstray => by
    have hasks := (hof u List.mem_cons_self).asks
    have hcalls : ∀ k ∈ (u.attempt r).calls c, k.Honest := fun k hk => hfair k (List.mem_append_left _ hk)
    have hnamed : ((u.attempt r).leaves c).Named :=
      ((secures_labelled (r := { r with questions := u.questions }) hasks hc).cut hc hcalls)
    rcases stray_stems hb us hnamed (fun v hv => hof v (List.mem_cons_of_mem u hv))
      (fun k hk => hfair k (List.mem_append_right _ hk)) hstray with ⟨hleft, hnone⟩ | ⟨vs, v, ws, rfl, hv, hfailed, hws⟩
    · by_cases hdeclared : name ∈ declared u.service
      · refine .inr ⟨[], u, us, rfl, hdeclared, fun hok => ?_, hnone⟩
        -- had it succeeded, the route would have its ingress
        have hlabelled :=
          (secures_labelled (r := { r with questions := u.questions }) hasks hc).ends hcalls hok name hdeclared
        exact (hleft.congr (hof u List.mem_cons_self).name).2 hlabelled
      · refine .inl ⟨?_, List.forall_mem_cons.2 ⟨hdeclared, hnone⟩⟩
        have hfading := (secures_fading (r := { r with questions := u.questions }) hasks hb hc hdeclared).cut
          (.refl hc) hcalls
        exact hfading.stray hleft
    · exact .inr ⟨u :: vs, v, ws, rfl, hv, hfailed, hws⟩

theorem proper_after {us : List UpdateAttempt} (hof : ∀ u ∈ us, u.Of s) (h : c.Named ∧ Proper s c) :
    (Attempt.after (us.map (·.attempt r)) c).Named ∧ Proper s (Attempt.after (us.map (·.attempt r)) c) := by
  refine Attempt.secured_after (F := fun _ => True) (I := fun c => c.Named ∧ Proper s c) (Q := fun _ _ => True) _ ?_ h
    (fun _ _ => trivial)
  intro x hx c hc
  obtain ⟨u, hu, rfl⟩ := List.mem_map.1 hx
  exact secures_proper (r := { r with questions := u.questions }) (hof u hu).asks hc

/-- **One update that succeeds** leaves middlewares of declared routes only, if it declares the routes that are astray. -/
theorem tidy_iff {q : Reconciler} (hb : q.backend = .traefik) (hq : q.questions.OnlyAsk) (hname : ',' ∉ s.name.toList)
    (h : c.Named ∧ Proper s c) {failures : List (Option Refusal)}
    (hfair : ∀ k ∈ (q.updateIngresses s).run.sent failures c, k.Honest)
    (hok : (q.updateIngresses s).run.outcome? failures c = some (.ok ())) :
    Tidy s ((q.updateIngresses s).run.cut failures c) ↔ ∀ name, Stray s name c → name ∈ declared s := by
  -- what is neither declared nor listed has the middlewares that it had
  have hsame : ∀ {name}, name ∉ declared s → ¬ Labelled s name c → ∀ p : MiddlewarePurpose,
      ((q.updateIngresses s).run.cut failures c).get? .middleware (p.middlewareName name) =
        c.get? .middleware (p.middlewareName name) := fun hnot hlabelled p =>
    ((secures_untouched hq h.1 hnot (mt (picked_iff_labelled hname).1 hlabelled)).cut ⟨h.1, fun _ => rfl⟩ hfair).2
      (middleware_mem_places hb _ p)
  constructor
  · rintro htidy name ⟨⟨p, m, hm, hlabel⟩, hingress⟩
    apply Classical.byContradiction
    intro hnot
    obtain ⟨name', hdeclared, p', hp'⟩ := htidy _ ⟨m, (hsame hnot hingress p).trans hm, hlabel⟩
    rw [(MiddlewarePurpose.middlewareName_injective hp').2] at hnot
    exact hnot hdeclared
  · intro hall n hexposes
    have hproper : Proper s ((q.updateIngresses s).run.cut failures c) :=
      ((secures_proper (F := fun _ => True) hq h).cut h (fun _ _ => trivial)).2
    obtain ⟨name, p, rfl⟩ := hproper n hexposes
    refine ⟨name, ?_, p, rfl⟩
    apply Classical.byContradiction
    intro hnot
    obtain ⟨m, hm, hlabel⟩ := hexposes
    by_cases hlabelled : Labelled s name c
    · have hgone := (secures_dropped hq h.1 hnot ((picked_iff_labelled hname).2 hlabelled)).ends hfair hok
        (middleware_mem_places hb name p)
      cases hgone.symm.trans hm
    · exact hnot (hall name ⟨⟨p, m, (hsame hnot hlabelled p).symm.trans hm, hlabel⟩, hlabelled⟩)

/-- **What a successful update leaves.**  Where a cluster begins without middlewares of a service and updates were tried on
behalf of it, an update that succeeds leaves no middleware but those of the routes that it declares if and only if it
declares every route that has strayed.  Each of these was declared by an attempt that did not succeed, and by none after
it. -/
theorem tidy_after_update_iff {r : Reconciler} (hb : r.backend = .traefik) {us : List UpdateAttempt} {u : UpdateAttempt}
    (hname : ',' ∉ u.service.name.toList) (hof : ∀ v ∈ us ++ [u], v.Of u.service) {c : Cluster} (hc : c.Named)
    (hbare : ∀ n, ¬ Exposes u.service n c) (hfair : ∀ k ∈ Attempt.sent ((us ++ [u]).map (·.attempt r)) c, k.Honest)
    (hok : (u.attempt r).Succeeds (Attempt.after (us.map (·.attempt r)) c)) :
    (Tidy u.service (Attempt.after ((us ++ [u]).map (·.attempt r)) c) ↔
      ∀ name, Stray u.service name (Attempt.after (us.map (·.attempt r)) c) → name ∈ declared u.service) ∧
    ∀ name, Stray u.service name (Attempt.after (us.map (·.attempt r)) c) →
      ∃ vs v ws, us = vs ++ v :: ws ∧ name ∈ declared v.service ∧
        ¬ (v.attempt r).Succeeds (Attempt.after (vs.map (·.attempt r)) c) ∧ ∀ w ∈ ws, name ∉ declared w.service := by
  rw [List.map_append, Attempt.sent_append] at hfair
  rw [List.map_append, Attempt.after_append]
  have hus : ∀ v ∈ us, v.Of u.service := fun v hv => hof v (List.mem_append_left _ hv)
  have hlast : u.Of u.service := hof u (List.mem_append_right us List.mem_cons_self)
  have hbefore := proper_after (r := r) hus ⟨hc, fun n hn => absurd hn (hbare n)⟩
  refine ⟨?_, fun name hstray => ?_⟩
  · refine tidy_iff (q := { r with questions := u.questions }) hb hlast.asks hname hbefore (fun k hk => ?_) hok
    exact hfair k (List.mem_append_right _ (List.mem_append_left _ hk))
  · rcases stray_stems hb us hc hus (fun k hk => hfair k (List.mem_append_left _ hk)) hstray with ⟨hfirst, -⟩ | hstems
    · obtain ⟨⟨p, hexposes⟩, -⟩ := hfirst
      exact absurd hexposes (hbare _)
    · exact hstems

/-- The first update fails when it writes the ingress, and a later one that declares the same route makes up for it. -/
theorem tidy_after_update_resumed :
    let q : Questions := ⟨.done (.ok false), fun _ => .done (.ok true)⟩
    let r : Reconciler := ⟨{}, .traefik, q⟩
    let u₁ : UpdateAttempt :=
      ⟨serving "scm" "[[\"old\",8080,\"/old\",\"/old\"]]", q, [none, none, none, none, none, some (.status 500)]⟩
    let u₂ : UpdateAttempt :=
      ⟨serving "scm" "[[\"new\",8080,\"/new\",\"/\"],[\"old\",8080,\"/old\",\"/old\"]]", q, List.replicate 20 none⟩
    let before := Attempt.after ([u₁].map (·.attempt r)) {}
    ¬ (u₁.attempt r).Succeeds {} ∧ Stray u₂.service "old" before ∧ (u₂.attempt r).Succeeds before ∧
      Tidy u₂.service (Attempt.after (([u₁] ++ [u₂]).map (·.attempt r)) {}) := by
  intro q r u₁ u₂ before
  have hasks : q.OnlyAsk := ⟨trivial, fun _ => trivial⟩
  have hof : ∀ v ∈ [u₁] ++ [u₂], v.Of u₂.service :=
    List.forall_mem_cons.2 ⟨⟨rfl, hasks⟩, List.forall_mem_cons.2 ⟨⟨rfl, hasks⟩, fun _ h => nomatch h⟩⟩
  have hfair : ∀ x ∈ ([u₁] ++ [u₂]).map (·.attempt r), some .notFound ∉ x.failures :=
    List.forall_mem_cons.2 ⟨by decide, List.forall_mem_cons.2 ⟨by decide, fun _ h => nomatch h⟩⟩
  have hbare : ∀ n, ¬ Exposes u₂.service n {} := fun n ⟨m, hm, _⟩ => nomatch hm
  have hok : (u₂.attempt r).Succeeds before := by decide +kernel
  obtain ⟨hiff, hstems⟩ := tidy_after_update_iff rfl (by decide +kernel) hof Cluster.named_empty hbare
    (Attempt.honest_of_not_mem hfair) hok
  refine ⟨by decide +kernel, ⟨⟨.headers, by decide +kernel⟩, by decide +kernel⟩, hok, hiff.2 (fun name hstray => ?_)⟩
  obtain ⟨vs, v, ws, hus, hv, -⟩ := hstems name hstray
  obtain rfl : v = u₁ := List.mem_singleton.1 (hus ▸ List.mem_append_right vs List.mem_cons_self)
  have hsub : ∀ name ∈ declared u₁.service, name ∈ declared u₂.service := by decide +kernel
  exact hsub name hv

/-- The first update fails when it writes the ingress, and the next one declares another route: the middleware of the
first route stays. -/
theorem stray_stays :
    let q : Questions := ⟨.done (.ok false), fun _ => .done (.ok true)⟩
    let r : Reconciler := ⟨{}, .traefik, q⟩
    let u₁ : UpdateAttempt :=
      ⟨serving "scm" "[[\"old\",8080,\"/old\",\"/old\"]]", q, [none, none, none, none, none, some (.status 500)]⟩
    let u₂ : UpdateAttempt := ⟨serving "scm" "[[\"new\",8080,\"/new\",\"/new\"]]", q, List.replicate 20 none⟩
    (u₂.attempt r).Succeeds (Attempt.after ([u₁].map (·.attempt r)) {}) ∧
      ¬ Tidy u₂.service (Attempt.after ([u₁, u₂].map (·.attempt r)) {}) := by
  intro q r u₁ u₂
  refine ⟨by decide +kernel, fun htidy => ?_⟩
  obtain ⟨name, hname, p, hp⟩ := htidy "old-headers" (by decide +kernel)
  have hold : MiddlewarePurpose.headers.middlewareName "old" = p.middlewareName name := hp
  rw [← (MiddlewarePurpose.middlewareName_injective hold).2] at hname
  exact absurd hname (by decide +kernel)

end Reconciler
end ServiceExposure
