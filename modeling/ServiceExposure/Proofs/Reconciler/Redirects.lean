import ServiceExposure.Proofs.Owned.Chores
import ServiceExposure.Reconciler.Redirect
/-!
# Redirects that stand and go

The redirect of the alternative hosts is one object or two: an ingress, and where the backend has middlewares one that it
refers to.  Bringing the redirect about settles them (`Reconciler.settles_redirect`), so after a success they are exactly
what is wanted, or gone, and there is nothing left to do.  On the way the ingress is written last and deleted first, so it
never stands without its middleware, whichever calls fail (`Reconciler.secures_linked`).
-/
namespace ServiceExposure
namespace Reconciler

variable {r : Reconciler} {c : Cluster} {primary : String} {alternatives : List AlternativeFqdn}

/-- The redirect is as it is wanted: it has the specifications and the annotations that are worked out for the
alternatives, and it does not exist without alternatives. -/
structure Redirects (r : Reconciler) (primary : String) (alternatives : List AlternativeFqdn) (c : Cluster) : Prop where
  ingress : alternatives ≠ [] → ∃ i o : Ingress, r.redirectIngress? primary alternatives = some i ∧
    c.get? .ingress r.settings.fqdnRedirect = some o ∧ o.spec = i.spec ∧ o.metadata.annotations = i.metadata.annotations
  middleware : r.backend = .traefik → alternatives ≠ [] → ∃ m o : Middleware,
    Redirect.middleware? r.settings primary alternatives = some m ∧
    c.get? .middleware r.settings.fqdnRedirect = some o ∧ o.spec = m.spec ∧ o.metadata.annotations = m.metadata.annotations
  noIngress : alternatives = [] → c.get? .ingress r.settings.fqdnRedirect = none
  noMiddleware : r.backend = .traefik → alternatives = [] → c.get? .middleware r.settings.fqdnRedirect = none

/-- The ingress of the redirect stands only if its middleware does. -/
def Linked (r : Reconciler) (c : Cluster) : Prop :=
  (c.get? .ingress r.settings.fqdnRedirect).isSome → (c.get? .middleware r.settings.fqdnRedirect).isSome

/-- What is to be done for the redirect. -/
def redirectChores (r : Reconciler) (primary : String) (alternatives : List AlternativeFqdn) : List Chore :=
  match r.backend, r.redirectIngress? primary alternatives, Redirect.middleware? r.settings primary alternatives with
  | .nginx, some ingress, _ => [.put .ingress ingress]
  | .nginx, none, _ => [.drop .ingress r.settings.fqdnRedirect]
  | .traefik, some ingress, some middleware => [.put .middleware middleware, .put .ingress ingress]
  | .traefik, _, _ => [.drop .ingress r.settings.fqdnRedirect, .drop .middleware r.settings.fqdnRedirect]

theorem settles_redirect (r : Reconciler) (primary : String) (alternatives : List AlternativeFqdn) :
    (r.redirect primary alternatives).Settles () (r.redirectChores primary alternatives) := by
  have hdrop : (do
      let _ ← Owned.deleteIfExists .ingress r.settings.fqdnRedirect
      let _ ← Owned.deleteIfExists .middleware r.settings.fqdnRedirect : Action Unit).Settles ()
      [.drop .ingress r.settings.fqdnRedirect, .drop .middleware r.settings.fqdnRedirect] :=
    (Owned.settles_deleteIfExists _ _ ()).andThen (Owned.settles_deleteIfExists _ _ ())
  unfold redirect redirectChores
  dsimp only
  generalize r.redirectIngress? primary alternatives = ingress?
  generalize Redirect.middleware? r.settings primary alternatives = middleware?
  cases r.backend with
  | nginx =>
    cases ingress? with
    | none => exact Owned.settles_deleteIfExists _ _ ()
    | some ingress => exact Owned.settles_apply _ _ ()
  | traefik =>
    cases ingress? with
    | none => exact hdrop
    | some ingress =>
      cases middleware? with
      | none => exact hdrop
      | some middleware => exact (Owned.settles_apply _ _ ()).andThen (Owned.settles_apply _ _ ())

/-- Where there are alternatives, the objects of the redirect are worked out, under the name that they share. -/
theorem exists_redirect (r : Reconciler) (primary : String) (h : alternatives ≠ []) : ∃ i m,
    r.redirectIngress? primary alternatives = some i ∧ Redirect.middleware? r.settings primary alternatives = some m ∧
      Kind.nameOf .ingress i = r.settings.fqdnRedirect ∧ Kind.nameOf .middleware m = r.settings.fqdnRedirect :=
  ⟨_, _, if_neg h, if_neg h, rfl, rfl⟩

theorem nodup_redirectChores (r : Reconciler) (primary : String) (alternatives : List AlternativeFqdn) :
    ((r.redirectChores primary alternatives).map Chore.place).Nodup := by
  unfold redirectChores
  generalize r.redirectIngress? primary alternatives = ingress?
  generalize Redirect.middleware? r.settings primary alternatives = middleware?
  cases r.backend <;> cases ingress? <;> cases middleware? <;> simp [Chore.place]

/-- **What is done for the redirect** makes it as it is wanted. -/
theorem redirects_of_done (h : ∀ chore ∈ r.redirectChores primary alternatives, chore.Done c) :
    r.Redirects primary alternatives c := by
  by_cases halternatives : alternatives = []
  · subst halternatives
    have hingress : c.get? .ingress r.settings.fqdnRedirect = none := by
      refine h (.drop .ingress r.settings.fqdnRedirect) ?_
      unfold redirectChores
      cases r.backend <;> exact List.mem_cons_self
    refine ⟨fun hne => absurd rfl hne, fun _ hne => absurd rfl hne, fun _ => hingress, fun hb _ => ?_⟩
    refine h (.drop .middleware r.settings.fqdnRedirect) ?_
    unfold redirectChores
    rw [hb]
    exact List.mem_cons_of_mem _ List.mem_cons_self
  · obtain ⟨i, m, hi, hm, hiname, hmname⟩ := r.exists_redirect primary halternatives
    refine ⟨fun _ => ?_, fun hb _ => ?_, fun hnil => absurd hnil halternatives, fun _ hnil => absurd hnil halternatives⟩
    · obtain ⟨o, ho, hform⟩ := h (.put .ingress i) (by unfold redirectChores; rw [hi, hm]; cases r.backend <;> simp)
      rw [hiname] at ho
      exact ⟨i, o, hi, ho, by rw [← hform]; rfl, by rw [← hform]; rfl⟩
    · obtain ⟨o, ho, hform⟩ := h (.put .middleware m) (by unfold redirectChores; rw [hi, hm, hb]; simp)
      rw [hmname] at ho
      exact ⟨m, o, hm, ho, by rw [← hform]; rfl, by rw [← hform]; rfl⟩

/-- **The ingress of the redirect never stands without its middleware**: it is written last and deleted first. -/
theorem secures_linked (hb : r.backend = .traefik) (primary : String) (alternatives : List AlternativeFqdn)
    (h : c.Named ∧ r.Linked c) :
    (r.redirect primary alternatives).Secures Call.Honest (fun c => c.Named ∧ r.Linked c) (fun _ _ => True) c := by
  by_cases halternatives : alternatives = []
  · subst halternatives
    have hrun : r.redirect primary [] = (do
        let _ ← Owned.deleteIfExists .ingress r.settings.fqdnRedirect
        let _ ← Owned.deleteIfExists .middleware r.settings.fqdnRedirect) := by
      unfold redirect
      rw [hb]
      rfl
    have hfirst : (Owned.deleteIfExists .ingress r.settings.fqdnRedirect).Secures Call.Honest
        (fun c => c.Named ∧ r.Linked c)
        (fun _ c' => (∀ k : Call, k.Honest → k.Honest) → (Chore.drop .ingress r.settings.fqdnRedirect).Done c') c := by
      refine Owned.secures_deleteIfExists (fun _ _ => ⟨h.1.remove _ _, fun hi => ?_⟩) h
      rw [c.get?_remove_self] at hi
      cases hi
    rw [hrun]
    refine hfirst.bind (fun _ c' h' hgone => ?_) h
    -- the ingress is gone, so the middleware may go
    have hsecond : (Owned.deleteIfExists .middleware r.settings.fqdnRedirect).run.Maintains
        (fun c => c.Named ∧ r.Linked c) c' := by
      refine Owned.maintains_delete h' (fun _ _ => ⟨h'.1.remove _ _, fun hi => ?_⟩)
      have hnone : c'.get? .ingress r.settings.fqdnRedirect = none := hgone (fun _ h => h)
      rw [c'.get?_remove_kind _ (by decide), hnone] at hi
      cases hi
    exact (Action.secures_of_maintains hsecond).bind (fun _ _ _ _ => Action.secures_pure trivial) h'
  · obtain ⟨i, m, hi, hm, hiname, hmname⟩ := r.exists_redirect primary halternatives
    have hrun : r.redirect primary alternatives = (do
        let _ ← Owned.apply r.settings.retry .middleware m
        let _ ← Owned.apply r.settings.retry .ingress i) := by
      unfold redirect
      dsimp only
      rw [hb, hi, hm]
    have hfirst : (Owned.apply r.settings.retry .middleware m).Secures Call.Honest
        (fun c => c.Named ∧ r.Linked c) (fun _ => (Chore.put .middleware m).Done) c := by
      refine Owned.secures_apply _ (fun _ h => h.1) (fun c' h' => ⟨h'.1.put (Owned.nameOf_wantedOver h'.1 _), fun _ => ?_⟩) h
      rw [hmname, c'.get?_put_self]
      rfl
    rw [hrun]
    refine hfirst.bind (fun _ c' h' hdone => ?_) h
    -- the middleware stands, and writing the ingress does not touch it
    obtain ⟨o, ho, -⟩ := hdone
    rw [hmname] at ho
    have hstands : c'.Named ∧ (c'.get? .middleware r.settings.fqdnRedirect).isSome := ⟨h'.1, by rw [ho]; rfl⟩
    have hsecond : (Owned.apply r.settings.retry .ingress i).run.Maintains
        (fun c => c.Named ∧ (c.get? .middleware r.settings.fqdnRedirect).isSome) c' := by
      refine Owned.maintains_apply _ (fun _ h => h.1) (fun c₁ h₁ => ⟨h₁.1.put (Owned.nameOf_wantedOver h₁.1 _), ?_⟩) hstands
      rw [c₁.get?_put_kind _ _ (by decide)]
      exact h₁.2
    have hlinked := (Action.secures_of_maintains (F := Call.Honest) hsecond).imp (J := fun c => c.Named ∧ r.Linked c)
      (R := fun _ _ => True) (fun _ h => ⟨h.1, fun _ => h.2⟩) (fun _ _ _ _ => trivial) hstands
    exact hlinked.bind (fun _ _ _ _ => Action.secures_pure trivial) h'

/-- **The redirect stands or goes as a whole**, whichever calls fail, as long as no deletion fails as if an object were
missing that is there.  Once it was brought about it is as it is wanted, and bringing it about again changes nothing,
whatever fails then.  Where the backend has middlewares, its ingress never stands without its middleware after any row of
attempts, which may ask for different redirects, fail, or be cut off anywhere. -/
theorem redirect_whole {r : Reconciler} {c : Cluster} (hc : c.Named) :
    (∀ (primary : String) (alternatives : List AlternativeFqdn) (failures : List (Option Refusal)),
      let x : Attempt := ⟨r.redirect primary alternatives, failures⟩
      (∀ k ∈ x.calls c, k.Honest) → x.Succeeds c →
        r.Redirects primary alternatives (x.leaves c) ∧
        (r.redirect primary alternatives).alone (x.leaves c) = (.ok (), x.leaves c) ∧
        ∀ failures', Attempt.leaves ⟨r.redirect primary alternatives, failures'⟩ (x.leaves c) = x.leaves c) ∧
    (r.backend = .traefik → r.Linked c → ∀ xs : List Attempt,
      (∀ x ∈ xs, ∃ primary alternatives, x.action = r.redirect primary alternatives) →
      (∀ k ∈ Attempt.sent xs c, k.Honest) → r.Linked (Attempt.after xs c)) := by
  constructor
  · intro primary alternatives failures x hfair hok
    have hsettles := r.settles_redirect primary alternatives
    have hdone := ((hsettles.amid hc).ends hfair hok).2 (fun _ h => h) (r.nodup_redirectChores primary alternatives)
    exact ⟨redirects_of_done hdone, hsettles.again hdone,
      fun failures' => (hsettles.still hdone).cut rfl (fun _ _ => trivial)⟩
  · intro hb hlinked xs hxs hfair
    have hafter := Attempt.secured_after xs (Q := fun _ _ => True) (I := fun c => c.Named ∧ r.Linked c) (fun x hx c h => by
      obtain ⟨primary, alternatives, hx⟩ := hxs x hx
      rw [hx]
      exact secures_linked hb primary alternatives h) ⟨hc, hlinked⟩ hfair
    exact hafter.2

/-- A redirect takes over what an earlier one left, after a lost race; the next attempts fail before the middleware is
deleted, and are cut off before the ingress is written. -/
theorem redirect_whole_leftover :
    let r : Reconciler := ⟨{}, .traefik, ⟨.done (.ok false), fun _ => .done (.ok true)⟩⟩
    let n := r.settings.fqdnRedirect
    let hosts : List AlternativeFqdn := [⟨"old.example.org", none⟩, ⟨"older.example.org", some "older-tls"⟩]
    let c : Cluster := (({} : Cluster).put .middleware n { metadata := .named "ecosystem" n, spec := {} }).put .ingress n
      { metadata := .named "ecosystem" n, status := some (.obj [("loadBalancer", .null)]) }
    let x : Attempt := ⟨r.redirect "ces.example.org" hosts, [none, some .conflict, none, none, none, none]⟩
    let xs : List Attempt := [x, ⟨r.redirect "ces.example.org" [], [none, some (.status 500)]⟩,
      ⟨r.redirect "ces.example.com" hosts, [none, none]⟩]
    (r.Redirects "ces.example.org" hosts (x.leaves c) ∧
      (r.redirect "ces.example.org" hosts).alone (x.leaves c) = (.ok (), x.leaves c) ∧
      ((x.leaves c).get? .ingress n).bind Ingress.status = some (.obj [("loadBalancer", .null)])) ∧
    r.Linked (Attempt.after xs c) ∧ (Attempt.after xs c).get? .ingress n = none := by
  intro r n hosts c x xs
  have hc : c.Named := by
    refine Cluster.Named.put (Cluster.Named.put Cluster.named_empty ?_) ?_ <;> rfl
  obtain ⟨hstands, hagain, -⟩ := (redirect_whole (r := r) hc).1 "ces.example.org" hosts x.failures
    (Program.honest_of_not_mem (by decide)) (by decide +kernel)
  have hxs : ∀ x ∈ xs, (∃ primary alternatives, x.action = r.redirect primary alternatives) ∧
      some .notFound ∉ x.failures := by
    refine List.forall_mem_cons.2 ⟨⟨⟨"ces.example.org", hosts, rfl⟩, by decide⟩, ?_⟩
    refine List.forall_mem_cons.2 ⟨⟨⟨"ces.example.org", [], rfl⟩, by decide⟩, ?_⟩
    exact List.forall_mem_cons.2 ⟨⟨⟨"ces.example.com", hosts, rfl⟩, by decide⟩, fun _ h => nomatch h⟩
  have hlinked : r.Linked c := fun _ => by decide +kernel
  exact ⟨⟨hstands, hagain, by decide +kernel⟩, (redirect_whole hc).2 rfl hlinked xs (fun x hx => (hxs x hx).1)
    (Attempt.honest_of_not_mem (fun x hx => (hxs x hx).2)), by decide +kernel⟩

end Reconciler
end ServiceExposure
