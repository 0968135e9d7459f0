import ServiceExposure.Proofs.Reconciler.Routing
/-!
# Updates whose calls fail

An update of ingresses reads first, then writes the ingresses that are declared, and then drops those that are listed and
not declared.  What it secures when calls fail can be said phase by phase (`Reconciler.secures_updateIngresses`): what
holds while some ingresses are left to write, and what holds while some are left to drop.
-/
namespace ServiceExposure
namespace Reconciler

variable {r : Reconciler} {s : Service} {F : Call → Prop} {I : Cluster → Prop} {c : Cluster}

/-- The names of the ingresses that a service declares. -/
def declared (s : Service) : List String :=
  match pathsOf s with
  | .ok paths => paths.map CesService.name
  | .error _ => []

theorem declared_of_ok {paths : List CesService} (h : pathsOf s = .ok paths) : declared s = paths.map CesService.name := by
  unfold declared
  rw [h]

/-- A service whose annotation lists HTTP paths. -/
def serving (name paths : String) : Service where
  metadata := { Metadata.named "ecosystem" name with annotations := some (Dict.empty.insert Annotation.cesServices paths) }

/-! ## One ingress -/

theorem ingress_mem_places (r : Reconciler) (name : String) : (Kind.ingress, name) ∈ r.places name :=
  List.mem_append_right _ List.mem_cons_self

theorem middleware_mem_places (hb : r.backend = .traefik) (name : String) (p : MiddlewarePurpose) :
    (Kind.middleware, p.middlewareName name) ∈ r.places name := by
  unfold places
  rw [hb]
  exact List.mem_append_left _ (List.mem_map_of_mem p.mem_all)

theorem drop_mem_dropChores {name n : String} {kind : Kind} (h : (kind, n) ∈ r.places name) :
    Chore.drop kind n ∈ r.dropChores name := by
  unfold places at h
  unfold dropChores
  cases hb : r.backend with
  | nginx => simpa [hb] using h
  | traefik => simpa [hb, eq_comm] using h

theorem get?_elsewhere {c' : Cluster} {name other n : String} {kind : Kind} (h : Cluster.Only (r.places name) c c')
    (hne : other ≠ name) (hmem : (kind, n) ∈ r.places other) : c'.get? kind n = c.get? kind n :=
  h.2 (fun hplace => hne (eq_of_mem_places hmem hplace))

/-- **Writing an ingress** touches its own objects only, and leaves it written if it succeeds. -/
theorem secures_applyIngress (r : Reconciler) (s : Service) (further : Dict String) (p : PlannedIngress) (hc : c.Named) :
    (r.applyIngress s further p).Secures F (Cluster.Only (r.places p.path.name) c)
      (fun _ c' => (∀ k, F k → k.Honest) → Written s p.path.name c') c := by
  have h := (r.settles_applyIngress s further p).amid hc (F := F)
  rw [r.places_ingressChores s further p] at h
  exact h.imp (fun _ h => h) (fun _ _ _ hdone hF => written_of_done (hdone.2 hF (r.nodup_places _))) (.refl hc)

/-- **Dropping an ingress** touches its own objects only, and leaves none of them if it succeeds. -/
theorem secures_dropIngress (r : Reconciler) (name : String) (hc : c.Named) :
    (r.dropIngress name).Secures F (Cluster.Only (r.places name) c)
      (fun _ c' => (∀ k, F k → k.Honest) → ∀ {kind n}, (kind, n) ∈ r.places name → c'.get? kind n = none) c := by
  have h := (r.settles_dropIngress name).amid hc (F := F)
  rw [r.places_dropChores name] at h
  refine h.imp (fun _ h => h) (fun _ c' _ hdone hF kind n hmem => ?_) (.refl hc)
  exact hdone.2 hF (r.nodup_places name) (.drop kind n) (drop_mem_dropChores hmem)

/-! ## A whole update -/

/-- Planning only reads, and there is one planned ingress for each path. -/
theorem secures_after_planAll {α : Type} {Q : α → Cluster → Prop} (hq : r.questions.OnlyAsk) {paths : List CesService}
    {further : Dict String} {f : List PlannedIngress × Dict String → Action α}
    (hf : ∀ planned, planned.1.map PlannedIngress.path = paths → (f planned).Secures F I Q c) (h : I c) :
    (r.planAll s paths further >>= f).Secures F I Q c := by
  unfold planAll
  split
  case isTrue hnil => exact hf ([], .empty) hnil.symm
  case isFalse =>
    rw [bind_assoc]
    refine Action.secures_after_reads (reads_state hq s.name) (fun state => ?_) h
    rw [bind_assoc]
    exact Action.secures_after_ofParse (fun planned hplanned => hf _ (mapM_eq_ok path_of_plan hplanned).1)

/-- **What an update secures**: `J` holds while the ingresses of some names are left to write, and `K` while those of some
names are left to drop. -/
theorem secures_updateIngresses {J K : List String → Cluster → Prop} (hq : r.questions.OnlyAsk)
    (hnamed : ∀ c, I c → c.Named)
    (hwrite : ∀ further p rest c, p.path.name ∈ declared s → I c → J (p.path.name :: rest) c →
      (r.applyIngress s further p).Secures F I (fun _ => J rest) c)
    (hlist : ∀ names c, I c → J [] c → (∀ name, name ∈ names ↔ name ∉ declared s ∧ Picked s name c) → K names c)
    (hdrop : ∀ name rest c, I c → K (name :: rest) c → (r.dropIngress name).Secures F I (fun _ => K rest) c)
    (h : I c) (hJ : J (declared s) c) : (r.updateIngresses s).Secures F I (fun _ => K []) c := by
  rw [updateIngresses_eq]
  refine Action.secures_after_ofParse (fun paths hpaths => Action.secures_after_ofParse (fun further _ => ?_))
  refine secures_after_planAll hq (fun planned hplanned => ?_) h
  have hdeclared : declared s = planned.1.map (fun p => p.path.name) := by
    rw [declared_of_ok hpaths, ← hplanned, List.map_map]
    rfl
  rw [hdeclared] at hJ
  have hwriting : (Action.forEach (r.applyIngress s planned.2) planned.1).Secures F I (fun _ => J []) c := by
    refine (Action.secures_forEach (J := fun rest c => (∀ p ∈ rest, p ∈ planned.1) ∧ J (rest.map (fun p => p.path.name)) c)
      (fun p rest c h hJ => ?_) h ⟨fun _ hp => hp, hJ⟩).imp (fun _ h => h) (fun _ _ _ hJ => hJ.2) h
    have hp : p.path.name ∈ declared s := by
      rw [hdeclared]
      exact List.mem_map_of_mem (hJ.1 p List.mem_cons_self)
    exact (hwrite planned.2 p _ c hp h hJ.2).imp (fun _ h => h)
      (fun _ _ _ hrest => ⟨fun q hq => hJ.1 q (List.mem_cons_of_mem p hq), hrest⟩) h
  refine hwriting.bind (fun _ c₁ h₁ hJ₁ => Action.secures_read rfl ?_ h₁) h
  refine Action.secures_forEach hdrop h₁ (hlist _ c₁ h₁ hJ₁ (fun name => ?_))
  rw [declared_of_ok hpaths]
  exact mem_undeclared (hnamed c₁ h₁)

/-- **What is neither declared nor listed** is not touched, nor are the objects that go with it. -/
theorem secures_untouched (hq : r.questions.OnlyAsk) (hc : c.Named) {name : String} (hnot : name ∉ declared s)
    (hpicked : ¬ Picked s name c) : (r.updateIngresses s).Secures F
      (fun c' => c'.Named ∧ ∀ {kind n}, (kind, n) ∈ r.places name → c'.get? kind n = c.get? kind n) (fun _ _ => True) c := by
  have helsewhere : ∀ {c₁ c₂ : Cluster} {other}, Cluster.Only (r.places other) c₁ c₂ → name ≠ other →
      (c₁.Named ∧ ∀ {kind n}, (kind, n) ∈ r.places name → c₁.get? kind n = c.get? kind n) →
      c₂.Named ∧ ∀ {kind n}, (kind, n) ∈ r.places name → c₂.get? kind n = c.get? kind n := fun honly hne h =>
    ⟨honly.1, fun hmem => (get?_elsewhere honly hne hmem).trans (h.2 hmem)⟩
  have hsame : c.Named ∧ ∀ {kind n}, (kind, n) ∈ r.places name → c.get? kind n = c.get? kind n := ⟨hc, fun _ => rfl⟩
  refine (secures_updateIngresses (J := fun _ _ => True) (K := fun rest _ => name ∉ rest) hq (fun _ h => h.1) ?_ ?_ ?_
    hsame trivial).imp (fun _ h => h) (fun _ _ _ _ => trivial) hsame
  · intro further p rest c₁ hp h _
    refine (r.secures_applyIngress s further p h.1).imp (fun c₂ honly => helsewhere honly ?_ h) (fun _ _ _ _ => trivial)
      (.refl h.1)
    rintro rfl
    exact hnot hp
  · intro names c₁ h _ hnames hmem
    obtain ⟨-, i, hi, hlabels⟩ := (hnames name).1 hmem
    exact hpicked ⟨i, (h.2 (r.ingress_mem_places name)).symm.trans hi, hlabels⟩
  · intro other rest c₁ h hrest
    have hne : name ≠ other := fun he => hrest (he ▸ List.mem_cons_self)
    exact (r.secures_dropIngress other h.1).imp (fun c₂ honly => helsewhere honly hne h)
      (fun _ _ _ _ hmem => hrest (List.mem_cons_of_mem other hmem)) (.refl h.1)

/-- **What is listed and not declared** is dropped with all that goes with it, if the update succeeds. -/
theorem secures_dropped (hq : r.questions.OnlyAsk) (hc : c.Named) {name : String} (hnot : name ∉ declared s)
    (hpicked : Picked s name c) : (r.updateIngresses s).Secures Call.Honest Cluster.Named
      (fun _ c' => ∀ {kind n}, (kind, n) ∈ r.places name → c'.get? kind n = none) c := by
  have h : (r.updateIngresses s).Secures Call.Honest Cluster.Named (fun _ c' => name ∈ [] ∨
      ∀ {kind n}, (kind, n) ∈ r.places name → c'.get? kind n = none) c := by
    refine secures_updateIngresses (J := fun _ c' => Picked s name c') (K := fun rest c' => name ∈ rest ∨
      ∀ {kind n}, (kind, n) ∈ r.places name → c'.get? kind n = none) hq (fun _ h => h) ?_ ?_ ?_ hc hpicked
    · intro further p rest c₁ hp hc₁ hpicked
      refine (r.secures_applyIngress s further p hc₁).imp (fun _ h => h.1) (fun _ c₂ honly _ => ?_) (.refl hc₁)
      obtain ⟨i, hi, hlabels⟩ := hpicked
      refine ⟨i, (get?_elsewhere honly ?_ (r.ingress_mem_places name)).trans hi, hlabels⟩
      rintro rfl
      exact hnot hp
    · exact fun names c₁ _ hpicked hnames => .inl ((hnames name).2 ⟨hnot, hpicked⟩)
    · intro other rest c₁ hc₁ hK
      refine (r.secures_dropIngress other hc₁).imp (fun _ h => h.1) (fun _ c₂ honly hgone => ?_) (.refl hc₁)
      by_cases hne : name = other
      · subst hne
        exact .inr (hgone (fun _ h => h))
      · exact hK.imp (fun hmem => (List.mem_cons.1 hmem).resolve_left hne)
          (fun hnone _ _ hmem => (get?_elsewhere honly hne hmem).trans (hnone hmem))
  exact h.imp (fun _ h => h) (fun _ _ _ h => h.resolve_left List.not_mem_nil) hc

/-- **After an update that succeeds** every ingress that is declared is written, however often it is declared. -/
theorem secures_written (hq : r.questions.OnlyAsk) (hc : c.Named) :
    (r.updateIngresses s).Secures Call.Honest Cluster.Named (fun _ c' => ∀ name ∈ declared s, Written s name c') c := by
  have hkeep : ∀ {c c' : Cluster} {name other}, Cluster.Only (r.places other) c c' → name ≠ other → Written s name c →
      Written s name c' := fun honly hne ⟨i, hi, hsays⟩ =>
    ⟨i, (get?_elsewhere honly hne (r.ingress_mem_places _)).trans hi, hsays⟩
  have h : (r.updateIngresses s).Secures Call.Honest Cluster.Named (fun _ c' => (∀ name ∈ [], name ∉ declared s) ∧
      ∀ name ∈ declared s, Written s name c') c := by
    refine secures_updateIngresses (J := fun rest c => ∀ name ∈ declared s, name ∉ rest → Written s name c)
      (K := fun rest c => (∀ name ∈ rest, name ∉ declared s) ∧ ∀ name ∈ declared s, Written s name c) hq
      (fun _ h => h) ?_ ?_ ?_ hc (fun _ hname hnot => absurd hname hnot)
    · intro further p rest c _ hc hJ
      refine (r.secures_applyIngress s further p hc).imp (fun _ h => h.1) (fun _ c' honly hwritten name hname hnot => ?_)
        (.refl hc)
      by_cases hp : name = p.path.name
      · rw [hp]
        exact hwritten (fun _ h => h)
      · exact hkeep honly hp (hJ name hname (fun hmem => (List.mem_cons.1 hmem).elim hp hnot))
    · intro names c hc hJ hnames
      exact ⟨fun name hname => ((hnames name).1 hname).1, fun name hname => hJ name hname List.not_mem_nil⟩
    · intro name rest c hc hK
      refine (r.secures_dropIngress name hc).imp (fun _ h => h.1) (fun _ c' honly _ => ?_) (.refl hc)
      refine ⟨fun n hn => hK.1 n (List.mem_cons_of_mem name hn), fun n hn => hkeep honly ?_ (hK.2 n hn)⟩
      rintro rfl
      exact hK.1 n List.mem_cons_self hn
  exact h.imp (fun _ h => h) (fun _ _ _ h => h.2) hc

theorem secures_labelled (hq : r.questions.OnlyAsk) (hc : c.Named) :
    (r.updateIngresses s).Secures Call.Honest Cluster.Named (fun _ c' => ∀ name ∈ declared s, Labelled s name c') c :=
  (secures_written hq hc).imp (fun _ h => h) (fun _ _ _ h name hname => (h name hname).labelled) hc

end Reconciler
end ServiceExposure
