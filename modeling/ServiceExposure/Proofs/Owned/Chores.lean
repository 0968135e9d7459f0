import ServiceExposure.Proofs.Cluster.Failures
import ServiceExposure.Proofs.Owned.AtRest
/-!
# Chores

What a row of writes and deletions of owned objects comes to can be said object by object: each is to stand as wanted, or
to be gone (`Chore`).  An action settles a list of chores when it succeeds with nobody else around, leaves them all done,
touches nothing else, and changes nothing where they were done before (`Action.Settles`); where calls fail, it still
touches nothing else, and if it succeeds all chores are done.  Chores of different objects do not undo each other, so one
action after the other settles what both of them settle (`Action.Settles.bind`).
-/
namespace ServiceExposure

/-- One object that is to stand as wanted, or to be gone. -/
inductive Chore where
  | put (kind : Kind) (desired : kind.Object)
  | drop (kind : Kind) (name : String)

namespace Chore

/-- The object that a chore is about. -/
def place : Chore → Kind × String
  | .put kind desired => (kind, kind.nameOf desired)
  | .drop kind name => (kind, name)

/-- Nothing is left to do. -/
def Done (c : Cluster) : Chore → Prop
  | .put kind desired => ∃ o, c.get? kind (kind.nameOf desired) = some o ∧ Owned.form kind desired o = o
  | .drop kind name => c.get? kind name = none

theorem Done.congr {c c' : Cluster} : ∀ {chore : Chore}, chore.Done c →
    c'.get? chore.place.1 chore.place.2 = c.get? chore.place.1 chore.place.2 → chore.Done c'
  | .put _ _, ⟨o, ho, hform⟩, hsame => ⟨o, hsame.trans ho, hform⟩
  | .drop _ _, hnone, hsame => hsame.trans hnone

end Chore

namespace Owned

theorem form_unversioned (kind : Kind) (desired o : kind.Object) :
    form kind desired (kind.unversioned o) = kind.unversioned (form kind desired o) := by cases kind <;> rfl

theorem eq_of_unversioned {kind : Kind} {o w : kind.Object} (h : kind.unversioned o = kind.unversioned w)
    (hv : (kind.metadata o).resourceVersion = (kind.metadata w).resourceVersion) : o = w := by
  have hback : ∀ x : kind.Object, kind.withMetadata (kind.unversioned x)
      { kind.metadata (kind.unversioned x) with resourceVersion := (kind.metadata x).resourceVersion } = x := by
    intro x
    cases kind <;> rfl
  rw [← hback o, ← hback w, h, hv]

theorem form_eq_self {kind : Kind} {desired o w : kind.Object} (h : kind.unversioned o = kind.unversioned w)
    (hw : form kind desired w = w) : form kind desired o = o := by
  refine eq_of_unversioned ?_ (resourceVersion_form kind desired o)
  rw [← form_unversioned, h, form_unversioned, hw]

theorem form_wantedOver (kind : Kind) (desired : kind.Object) (current : Option kind.Object) :
    form kind desired (wantedOver kind desired current) = wantedOver kind desired current := by
  cases current <;> cases kind <;> rfl

/-! ## Calls that fail -/

variable {F : Call → Prop} {I : Cluster → Prop} {c : Cluster}

theorem nameOf_wantedOver (hc : c.Named) {kind : Kind} (desired : kind.Object) :
    kind.nameOf (wantedOver kind desired (c.get? kind (kind.nameOf desired))) = kind.nameOf desired := by
  cases hget : c.get? kind (kind.nameOf desired) with
  | none => rfl
  | some current => exact (nameOf_form kind desired current).trans (hc hget)

/-- An object that was written in its wanted form needs no more. -/
theorem done_put (c : Cluster) (kind : Kind) (desired : kind.Object) (current : Option kind.Object) :
    (Chore.put kind desired).Done (c.put kind (kind.nameOf desired) (wantedOver kind desired current)) :=
  ⟨_, c.get?_put_self kind _ _, form_eq_self (kind.unversioned_stamped _ _) (form_wantedOver kind desired current)⟩

/-- **Applying an object** keeps what holds with the object in its wanted form, and leaves it so if it succeeds. -/
theorem secures_apply (retry : RetryPolicy) {kind : Kind} {desired : kind.Object} (hnamed : ∀ c, I c → c.Named)
    (hput : ∀ c, I c → I (c.put kind (kind.nameOf desired)
      (wantedOver kind desired (c.get? kind (kind.nameOf desired))))) (h : I c) :
    (apply retry kind desired).Secures F I (fun _ => (Chore.put kind desired).Done) c := by
  refine Action.secures_onConflict retry (fun c h => Action.secures_read rfl ?_ h) h
  have hwritten := hput c h
  cases hget : c.get? kind (kind.nameOf desired) with
  | none =>
    rw [hget] at hwritten
    have hserve : c.serve (.create kind desired) = (.ok (), c.put kind (kind.nameOf desired) desired) := by
      simp only [Cluster.serve, hget]
    have hcreate : (Action.request (.create kind desired) (kind.nameOf desired)).Secures F I
        (fun _ => (Chore.put kind desired).Done) c := by
      refine Action.secures_request h ?_ (fun _ _ => ?_)
      · rw [hserve]
        exact hwritten
      · rw [hserve]
        exact done_put c kind desired none
    exact hcreate.bind (fun _ _ _ hdone => hdone) h
  | some current =>
    rw [hget] at hwritten
    dsimp only
    by_cases hform : form kind desired current = current
    · rw [if_pos hform]
      exact ⟨current, hget, hform⟩
    · rw [if_neg hform]
      have hname : kind.nameOf (form kind desired current) = kind.nameOf desired := by
        rw [nameOf_form, hnamed c h hget]
      have hserve : c.serve (.replace kind (kind.nameOf desired) (form kind desired current)) =
          (.ok (), c.put kind (kind.nameOf desired) (form kind desired current)) := by
        simp only [Cluster.serve, hget, resourceVersion_form, if_true]
      have hreplace : (Action.request (.replace kind (kind.nameOf (form kind desired current)) (form kind desired current))
          (kind.nameOf desired)).Secures F I (fun _ => (Chore.put kind desired).Done) c := by
        rw [hname]
        refine Action.secures_request h ?_ (fun _ _ => ?_)
        · rw [hserve]
          exact hwritten
        · rw [hserve]
          exact done_put c kind desired (some current)
      exact hreplace.bind (fun _ _ _ hdone => hdone) h

theorem maintains_apply (retry : RetryPolicy) {kind : Kind} {desired : kind.Object} (hnamed : ∀ c, I c → c.Named)
    (hput : ∀ c, I c → I (c.put kind (kind.nameOf desired)
      (wantedOver kind desired (c.get? kind (kind.nameOf desired))))) (h : I c) :
    (apply retry kind desired).run.Maintains I c := (secures_apply retry hnamed hput h).maintains

/-- **Deleting an object** keeps what holds without the object, and leaves none if it succeeds and was not lied to. -/
theorem secures_deleteIfExists {kind : Kind} {name : String}
    (hremove : ∀ o, c.get? kind name = some o → I (c.remove kind name)) (h : I c) :
    (deleteIfExists kind name).Secures F I (fun _ c' => (∀ k, F k → k.Honest) → (Chore.drop kind name).Done c') c := by
  intro failure hfair
  cases failure with
  | some why =>
    refine ⟨h, ?_⟩
    by_cases hwhy : why = Refusal.notFound
    · simp only [Call.reply, if_pos hwhy]
      exact fun hF => hF _ hfair kind name rfl (congrArg some hwhy)
    · simp only [Call.reply, if_neg hwhy]
      trivial
  | none =>
    simp only [Call.after, Call.reply, Cluster.serve]
    cases hget : c.get? kind name with
    | none => exact ⟨h, fun _ => hget⟩
    | some o => exact ⟨hremove o hget, fun _ => c.get?_remove_self kind name⟩

theorem maintains_delete {kind : Kind} {name : String} (h : I c)
    (hremove : ∀ o, c.get? kind name = some o → I (c.remove kind name)) : (deleteIfExists kind name).run.Maintains I c :=
  (secures_deleteIfExists hremove h).maintains

end Owned

namespace Action

variable {α β : Type} {a : α} {b : β} {x : Action α} {f : α → Action β} {xs ys : List Chore}

/-- The action does the chores and nothing else. -/
structure Settles (x : Action α) (a : α) (chores : List Chore) : Prop where
  /-- With nobody else around it does all of them. -/
  settles : ∀ {c : Cluster}, c.Named → ∃ c', x.alone c = (.ok a, c') ∧ c'.Named ∧
    (∀ {kind n}, (kind, n) ∉ chores.map Chore.place → c'.get? kind n = c.get? kind n) ∧
    ((chores.map Chore.place).Nodup → ∀ chore ∈ chores, chore.Done c')
  /-- Where they are done already nothing changes. -/
  again : ∀ {c : Cluster}, (∀ chore ∈ chores, chore.Done c) → x.alone c = (.ok a, c)
  /-- Whichever calls fail, nothing else is touched, and if it succeeds without being lied to it has done all of them. -/
  amid : ∀ {F : Call → Prop} {c : Cluster}, c.Named → x.Secures F (Cluster.Only (chores.map Chore.place) c)
    (fun b c' => b = a ∧ ((∀ k, F k → k.Honest) → (chores.map Chore.place).Nodup → ∀ chore ∈ chores, chore.Done c')) c
  /-- Whichever calls fail, nothing changes where they are done already. -/
  still : ∀ {c : Cluster}, (∀ chore ∈ chores, chore.Done c) → x.Secures (fun _ => True) (fun c' => c' = c)
    (fun b _ => b = a) c

theorem settles_pure (a : α) : (pure a : Action α).Settles a [] where
  settles hc := ⟨_, rfl, hc, fun _ => rfl, fun _ _ h => nomatch h⟩
  again _ := rfl
  amid _ := secures_pure ⟨rfl, fun _ _ _ h => nomatch h⟩
  still _ := secures_pure rfl

/-- What was done before chores of other objects stays done. -/
theorem done_append {c₁ c₂ : Cluster} (hdone₁ : (xs.map Chore.place).Nodup → ∀ chore ∈ xs, chore.Done c₁)
    (hrest : ∀ {kind n}, (kind, n) ∉ ys.map Chore.place → c₂.get? kind n = c₁.get? kind n)
    (hdone₂ : (ys.map Chore.place).Nodup → ∀ chore ∈ ys, chore.Done c₂) (hnodup : ((xs ++ ys).map Chore.place).Nodup) :
    ∀ chore ∈ xs ++ ys, chore.Done c₂ := by
  intro chore hmem
  rw [List.map_append, List.nodup_append] at hnodup
  obtain ⟨hxs, hys, hapart⟩ := hnodup
  rcases List.mem_append.1 hmem with hmem | hmem
  · -- what comes later is about other objects
    refine (hdone₁ hxs chore hmem).congr (hrest (fun hlater => ?_))
    exact hapart _ (List.mem_map_of_mem hmem) _ hlater rfl
  · exact hdone₂ hys chore hmem

/-- **One after the other.** -/
theorem Settles.bind (hx : x.Settles a xs) (hf : (f a).Settles b ys) : (x >>= f).Settles b (xs ++ ys) where
  settles {c} hc := by
    obtain ⟨c₁, hrun₁, hc₁, hrest₁, hdone₁⟩ := hx.settles hc
    obtain ⟨c₂, hrun₂, hc₂, hrest₂, hdone₂⟩ := hf.settles hc₁
    refine ⟨c₂, (alone_bind_ok hrun₁ f).trans hrun₂, hc₂, fun {kind n} hn => ?_,
      done_append hdone₁ (fun {kind n} => @hrest₂ kind n) hdone₂⟩
    rw [List.map_append, List.mem_append, not_or] at hn
    rw [hrest₂ hn.2, hrest₁ hn.1]
  again h := (alone_bind_ok (hx.again (fun chore hmem => h chore (List.mem_append_left ys hmem))) f).trans
    (hf.again (fun chore hmem => h chore (List.mem_append_right xs hmem)))
  amid {F} {c} hc := by
    have hleft : xs.map Chore.place ⊆ (xs ++ ys).map Chore.place := List.map_subset _ (List.subset_append_left xs ys)
    have hright : ys.map Chore.place ⊆ (xs ++ ys).map Chore.place := List.map_subset _ (List.subset_append_right xs ys)
    have hfirst := (hx.amid hc (F := F)).imp (R := fun b c₁ => Cluster.Only (xs.map Chore.place) c c₁ ∧ b = a ∧
      ((∀ k, F k → k.Honest) → (xs.map Chore.place).Nodup → ∀ chore ∈ xs, chore.Done c₁)) (fun c₁ h => h.mono hleft)
      (fun _ _ h hq => ⟨h, hq⟩) (.refl hc)
    refine hfirst.bind (fun b c₁ _ hq => ?_) (.refl hc)
    obtain ⟨honly₁, rfl, hdone₁⟩ := hq
    refine (hf.amid honly₁.1).imp (fun c₂ h => (honly₁.mono hleft).trans (h.mono hright)) (fun _ c₂ honly₂ hq => ?_)
      (.refl honly₁.1)
    exact ⟨hq.1, fun hF => done_append (hdone₁ hF) (fun {kind n} => @honly₂.2 kind n) (hq.2 hF)⟩
  still {c} h := by
    refine (hx.still (fun chore hmem => h chore (List.mem_append_left ys hmem))).bind (fun b c₁ hc₁ hb => ?_) rfl
    subst hb hc₁
    exact hf.still (fun chore hmem => h chore (List.mem_append_right xs hmem))

/-- One after the other, where nothing comes of the first but its chores. -/
theorem Settles.andThen {γ : Type} {x : Action γ} {y : Action β} (hx : (x >>= fun _ => pure ()).Settles () xs)
    (hy : y.Settles b ys) : (x >>= fun _ => y).Settles b (xs ++ ys) := by
  have h := hx.bind (f := fun _ => y) hy
  rwa [bind_assoc] at h

theorem settles_forEach {γ : Type} {f : γ → Action Unit} {chores : γ → List Chore} :
    ∀ {ys : List γ}, (∀ y ∈ ys, (f y).Settles () (chores y)) → (forEach f ys).Settles () (ys.flatMap chores)
  | [], _ => settles_pure ()
  | y :: _, h => by
    rw [List.flatMap_cons]
    exact (h y List.mem_cons_self).bind (settles_forEach (fun z hz => h z (List.mem_cons_of_mem y hz)))

/-- With nobody else around the action succeeds, and objects stay under their own names. -/
def Succeeds (x : Action α) : Prop := ∀ ⦃c : Cluster⦄, c.Named → ∃ a c', x.alone c = (.ok a, c') ∧ c'.Named

theorem Settles.succeeds (h : x.Settles a xs) : x.Succeeds := fun c hc => by
  obtain ⟨c', hrun, hc', -⟩ := h.settles hc
  exact ⟨a, c', hrun, hc'⟩

theorem Succeeds.bind (hx : x.Succeeds) (hf : ∀ a, (f a).Succeeds) : (x >>= f).Succeeds := fun c hc => by
  obtain ⟨a, c₁, hrun₁, hc₁⟩ := hx hc
  obtain ⟨b, c₂, hrun₂, hc₂⟩ := hf a hc₁
  exact ⟨b, c₂, (alone_bind_ok hrun₁ f).trans hrun₂, hc₂⟩

theorem succeeds_list (kind : Kind) (selector reported : String) : (request (.list kind selector) reported).Succeeds :=
  fun c hc => ⟨_, c, alone_list kind selector reported c, hc⟩

end Action

namespace Owned

variable {α : Type}

theorem settles_apply (retry : RetryPolicy) {kind : Kind} (desired : kind.Object) (a : α) :
    (apply retry kind desired >>= fun _ => pure a).Settles a [.put kind desired] where
  settles {c} hc := by
    obtain ⟨b, c', hrun, hc', hbeside, hsight⟩ := alone_apply retry desired hc
    refine ⟨c', Action.alone_bind_ok hrun _, hc', (Cluster.Only.of_beside List.mem_cons_self hc' hbeside).2,
      fun _ chore hmem => ?_⟩
    obtain rfl := List.mem_singleton.1 hmem
    obtain ⟨o, ho, hsame⟩ := Option.map_eq_some_iff.1 hsight
    exact ⟨o, ho, form_eq_self hsame (form_wantedOver kind desired _)⟩
  again {c} h := by
    obtain ⟨o, ho, hform⟩ := h _ List.mem_cons_self
    exact Action.alone_bind_ok (onlyReads_apply retry ho hform).alone _
  amid {F} {c} hc := by
    have happly : (apply retry kind desired).Secures F (Cluster.Only [(kind, kind.nameOf desired)] c)
        (fun _ => (Chore.put kind desired).Done) c :=
      secures_apply retry (fun _ h => h.1) (fun c' h => h.trans (.of_beside List.mem_cons_self
        (h.1.put (nameOf_wantedOver h.1 desired)) (c'.beside_put kind _ _))) (.refl hc)
    refine happly.bind (fun _ c' _ hdone => Action.secures_pure ⟨rfl, fun _ _ chore hmem => ?_⟩) (.refl hc)
    obtain rfl := List.mem_singleton.1 hmem
    exact hdone
  still {c} h := by
    obtain ⟨o, ho, hform⟩ := h _ List.mem_cons_self
    have hcycle : ∀ c', c' = c → (cycle kind desired).Secures (fun _ => True) (fun c' => c' = c) (fun _ _ => True) c' := by
      rintro _ rfl
      refine Action.secures_read rfl ?_ rfl
      rw [ho]
      dsimp only
      rw [if_pos hform]
      trivial
    exact (Action.secures_onConflict retry hcycle rfl).bind (fun _ _ _ _ => Action.secures_pure rfl) rfl

theorem settles_deleteIfExists (kind : Kind) (name : String) (a : α) :
    (deleteIfExists kind name >>= fun _ => pure a).Settles a [.drop kind name] where
  settles {c} hc := by
    obtain ⟨b, c', hrun, hc', hbeside, hsight⟩ := alone_deleteIfExists kind name hc
    refine ⟨c', Action.alone_bind_ok hrun _, hc', (Cluster.Only.of_beside List.mem_cons_self hc' hbeside).2,
      fun _ chore hmem => ?_⟩
    obtain rfl := List.mem_singleton.1 hmem
    exact Option.map_eq_none_iff.1 hsight
  again {c} h := Action.alone_bind_ok (delete_missing (h _ List.mem_cons_self)) _
  amid {F} {c} hc := by
    have hdelete : (deleteIfExists kind name).Secures F (Cluster.Only [(kind, name)] c)
        (fun _ c' => (∀ k, F k → k.Honest) → (Chore.drop kind name).Done c') c :=
      secures_deleteIfExists (fun _ _ => .of_beside List.mem_cons_self (hc.remove kind name) (c.beside_remove kind name))
        (.refl hc)
    refine hdelete.bind (fun _ c' _ hdone => Action.secures_pure ⟨rfl, fun hF _ chore hmem => ?_⟩) (.refl hc)
    obtain rfl := List.mem_singleton.1 hmem
    exact hdone hF
  still {c} h := by
    have hnone : c.get? kind name = none := h _ List.mem_cons_self
    have hdelete : (deleteIfExists kind name).run.Maintains (fun c' => c' = c) c :=
      maintains_delete rfl (fun o ho => absurd (hnone.symm.trans ho) nofun)
    exact (Action.secures_of_maintains hdelete).bind (fun _ _ _ _ => Action.secures_pure rfl) rfl

end Owned
end ServiceExposure
