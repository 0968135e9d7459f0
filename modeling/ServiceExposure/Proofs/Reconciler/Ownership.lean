import ServiceExposure.Proofs.Reconciler.Failures
/-!
# Whose ingresses an update touches

An ingress says in a label which service it belongs to, but it has the name that the service declares for it.  Ingresses
are listed by the label and written by the name.  So an update never drops what belongs to another service, and takes it
over exactly if it declares the same name (`Reconciler.foreign_ingress_kept_iff`).
-/
namespace ServiceExposure
namespace Reconciler

/-- Only one service is named by the label of an ingress. -/
theorem Labelled.name_eq {a b : Service} {name : String} {c : Cluster} (ha : Labelled a name c) (hb : Labelled b name c) :
    a.name = b.name := by
  obtain ⟨i, hi, hlabel⟩ := ha
  obtain ⟨j, hj, hlabel'⟩ := hb
  cases hi.symm.trans hj
  exact Option.some.inj (hlabel.symm.trans hlabel')

variable {r : Reconciler} {a : Service} {F : Call → Prop} {c : Cluster} {name : String}

/-- Writing an ingress deletes none. -/
theorem applyIngress_deletes_none (r : Reconciler) (a : Service) (further : Dict String) (p : PlannedIngress)
    (h : c.Named ∧ (c.get? .ingress name).isSome) : (r.applyIngress a further p).Secures F
      (fun c => c.Named ∧ (c.get? .ingress name).isSome) (fun _ _ => True) c := by
  have hmiddlewares : (Kind.ingress, name) ∉ (r.routeChores a p.path.name p.config).map Chore.place := by
    unfold routeChores middlewareChore
    cases r.backend with
    | nginx => exact List.not_mem_nil
    | traefik =>
      rw [List.map_map, List.mem_map]
      rintro ⟨q, -, hq⟩
      cases hspec : q.spec? p.config <;> simp [hspec, Chore.place] at hq
  have hroute : (r.routeAnnotations a p.path.name p.config).Secures F
      (fun c => c.Named ∧ (c.get? .ingress name).isSome) (fun _ _ => True) c :=
    ((r.settles_routeAnnotations a p.path.name p.config).amid h.1).imp
      (fun c' honly => ⟨honly.1, by rw [honly.2 hmiddlewares]; exact h.2⟩) (fun _ _ _ _ => trivial) (.refl h.1)
  refine hroute.bind (fun annotations c' h' _ => ?_) h
  refine Action.Secures.bind (Q := fun _ _ => True) (Action.secures_of_maintains ?_)
    (fun _ _ _ _ => Action.secures_pure trivial) h'
  refine Owned.maintains_apply _ (fun _ h => h.1) (fun c₁ h₁ => ⟨h₁.1.put (Owned.nameOf_wantedOver h₁.1 _), ?_⟩) h'
  by_cases hname : name = Kind.nameOf .ingress (r.ingressOf a p (annotations.union further))
  · rw [hname, c₁.get?_put_self]
    rfl
  · rw [c₁.get?_put_ne .ingress _ hname]
    exact h₁.2

/-- **What is not listed is not deleted**, whichever calls fail. -/
theorem updateIngresses_deletes_listed (hq : r.questions.OnlyAsk) (hpicked : ¬ Picked a name c)
    (h : c.Named ∧ (c.get? .ingress name).isSome) : (r.updateIngresses a).Secures F
      (fun c => c.Named ∧ (c.get? .ingress name).isSome) (fun _ _ => True) c := by
  by_cases hdeclared : name ∈ declared a
  · refine (secures_updateIngresses (J := fun _ _ => True) (K := fun rest _ => name ∉ rest) hq (fun _ h => h.1)
      (fun further p _ _ _ h _ => r.applyIngress_deletes_none a further p h)
      (fun names _ _ _ hnames hmem => ((hnames name).1 hmem).1 hdeclared) ?_ h trivial).imp (fun _ h => h)
      (fun _ _ _ _ => trivial) h
    intro other rest c₁ h₁ hrest
    have hne : name ≠ other := fun he => hrest (he ▸ List.mem_cons_self)
    refine (r.secures_dropIngress other h₁.1).imp (fun c₂ honly => ⟨honly.1, ?_⟩)
      (fun _ _ _ _ hmem => hrest (List.mem_cons_of_mem other hmem)) (.refl h₁.1)
    rw [get?_elsewhere honly hne (r.ingress_mem_places name)]
    exact h₁.2
  · refine (secures_untouched hq h.1 hdeclared hpicked).imp (fun c' h' => ⟨h'.1, ?_⟩) (fun _ _ _ _ => trivial)
      ⟨h.1, fun _ => rfl⟩
    rw [h'.2 (r.ingress_mem_places name)]
    exact h.2

/-- **An ingress of another service** is never deleted, and unless its name is declared it is not changed either,
whichever calls fail and wherever the update is cut off.  An update that succeeds leaves it as it was only if its name is
not declared. -/
theorem foreign_ingress_kept_iff {r : Reconciler} (hq : r.questions.OnlyAsk) {a b : Service} (hab : a.name ≠ b.name)
    (hname : ',' ∉ a.name.toList) {c : Cluster} (hc : c.Named) {name : String} (hb : Labelled b name c) {x : Attempt}
    (hx : x.action = r.updateIngresses a) :
    ((x.leaves c).get? .ingress name).isSome ∧
    (name ∉ declared a → (x.leaves c).get? .ingress name = c.get? .ingress name) ∧
    ((∀ k ∈ x.calls c, k.Honest) → x.Succeeds c →
      ((x.leaves c).get? .ingress name = c.get? .ingress name ↔ name ∉ declared a)) := by
  obtain ⟨action, failures⟩ := x
  obtain rfl : action = r.updateIngresses a := hx
  have hpicked : ¬ Picked a name c := fun hpicked => hab (((picked_iff_labelled hname).1 hpicked).name_eq hb)
  have hexists : c.Named ∧ (c.get? .ingress name).isSome := by
    obtain ⟨i, hi, -⟩ := hb
    exact ⟨hc, by rw [hi]; rfl⟩
  have hkept : name ∉ declared a →
      (Attempt.leaves ⟨r.updateIngresses a, failures⟩ c).get? .ingress name = c.get? .ingress name := fun hnot =>
    ((secures_untouched (F := fun _ => True) hq hc hnot hpicked).cut ⟨hc, fun _ => rfl⟩ (fun _ _ => trivial)).2
      (r.ingress_mem_places name)
  refine ⟨((updateIngresses_deletes_listed (F := fun _ => True) hq hpicked hexists).cut hexists (fun _ _ => trivial)).2,
    hkept, fun hfair hok => ⟨fun hsame hdeclared => ?_, hkept⟩⟩
  -- what is declared belongs to the service that declares it in the end
  obtain ⟨i, hi, hlabel⟩ := (secures_labelled hq hc).ends hfair hok name hdeclared
  exact hab (Labelled.name_eq ⟨i, hsame.symm.trans hi, hlabel⟩ hb)

/-- A portal declares one of the two names of a wiki.  After a lost race it takes that ingress over; the other one stays. -/
theorem foreign_ingress_kept_portal :
    let r : Reconciler := ⟨{}, .nginx, ⟨.done (.ok false), fun _ => .done (.ok true)⟩⟩
    let wiki := serving "wiki" ""
    let portal := serving "portal" "[[\"docs\",80,\"/docs\",\"/\"]]"
    let ofWiki : String → Ingress := fun name =>
      { metadata := { Metadata.named "ecosystem" name with labels := some (.ofList [(Label.cesServiceOwner, "wiki")]) } }
    let c := (Cluster.put {} .ingress "guide" (ofWiki "guide")).put .ingress "docs" (ofWiki "docs")
    let x : Attempt := ⟨r.updateIngresses portal, [none, some .conflict, none, none, none]⟩
    x.Succeeds c ∧ (Labelled wiki "guide" c ∧ (x.leaves c).get? .ingress "guide" = c.get? .ingress "guide") ∧
      Labelled wiki "docs" c ∧ ((x.leaves c).get? .ingress "docs").isSome ∧
      (x.leaves c).get? .ingress "docs" ≠ c.get? .ingress "docs" := by
  intro r wiki portal ofWiki c x
  have hc : c.Named := Cluster.Named.put (Cluster.Named.put Cluster.named_empty (by rfl)) (by rfl)
  have hq : r.questions.OnlyAsk := ⟨trivial, fun _ => trivial⟩
  have hok : x.Succeeds c := by decide +kernel
  have hguide : Labelled wiki "guide" c := by decide +kernel
  have hdocs : Labelled wiki "docs" c := by decide +kernel
  have hkept := foreign_ingress_kept_iff (x := x) hq (by decide : portal.name ≠ wiki.name) (by decide +kernel) hc hguide rfl
  obtain ⟨hexists, -, hiff⟩ := foreign_ingress_kept_iff (x := x) hq (by decide : portal.name ≠ wiki.name) (by decide +kernel)
    hc hdocs rfl
  exact ⟨hok, ⟨hguide, hkept.2.1 (by decide +kernel)⟩, hdocs, hexists,
    fun hsame => (hiff (Program.honest_of_not_mem (by decide)) hok).1 hsame (by decide +kernel)⟩

/-- Two services declare one name.  The update of the second one takes the ingress of the first one away from it. -/
theorem foreign_ingress_taken :
    let r : Reconciler := ⟨{}, .nginx, ⟨.done (.ok false), fun _ => .done (.ok true)⟩⟩
    let wiki := serving "wiki" "[[\"docs\",8080,\"/docs\",\"/docs\"]]"
    let portal := serving "portal" "[[\"docs\",80,\"/docs\",\"/\"]]"
    let c := ((r.updateIngresses wiki).alone {}).2
    portal.name ≠ wiki.name ∧ Labelled wiki "docs" c ∧ ((r.updateIngresses portal).alone c).1.toOption = some () ∧
      ((r.updateIngresses portal).alone c).2.get? .ingress "docs" ≠ c.get? .ingress "docs" ∧
      ¬ Labelled wiki "docs" ((r.updateIngresses portal).alone c).2 := by decide +kernel

end Reconciler
end ServiceExposure
