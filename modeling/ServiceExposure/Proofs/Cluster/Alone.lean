import ServiceExposure.Owned.Apply
import ServiceExposure.Proofs.Cluster.Commit
/-!
# Actions that run alone

With nobody else around an action does its parts one after the other (`Action.alone_bind`), no race is lost, and a
request finds what the one before it left.  Objects stay under their own names (`Cluster.Named`), so what is read under a
name is also written under it.  An action that writes or deletes one object touches no other one (`Cluster.Beside`).
-/
namespace ServiceExposure

namespace Action

variable {α β : Type} {c c' : Cluster}

/-- What comes of an action with nobody else around. -/
def alone (x : Action α) (c : Cluster) : Except Error α × Cluster := x.run.runOn c

@[simp] theorem alone_done (a : Except Error α) (c : Cluster) : alone (ExceptT.mk (.done a)) c = (a, c) := rfl

theorem alone_bind (x : Action α) (f : α → Action β) (c : Cluster) :
    (x >>= f).alone c = match x.alone c with
      | (.ok a, c') => (f a).alone c'
      | (.error e, c') => (.error e, c') := by
  unfold alone
  rw [ExceptT.run_bind]
  unfold Program.runOn
  rw [Program.run_bind]
  cases h : x.run.run (fun r c => c.serve r) c with
  | mk a c' => cases a <;> rfl

theorem alone_bind_ok {x : Action α} {a : α} (h : x.alone c = (.ok a, c')) (f : α → Action β) :
    (x >>= f).alone c = (f a).alone c' := by rw [alone_bind, h]

theorem alone_get (kind : Kind) (name reported : String) (c : Cluster) :
    (request (.get kind name) reported).alone c = (.ok (c.get? kind name), c) := rfl

theorem alone_list (kind : Kind) (selector reported : String) (c : Cluster) :
    (request (.list kind selector) reported).alone c =
      (.ok ((c.table kind).values.filter (fun o => Selector.matchesLabels selector (kind.metadata o).labelSet)), c) := rfl

theorem alone_request {r : Request} {reply : r.Reply} (h : c.serve r = (.ok reply, c')) (reported : String) :
    (request r reported).alone c = (.ok reply, c') := by
  change ((c.serve r).1.mapError _, (c.serve r).2) = _
  rw [h]
  rfl

theorem alone_create {kind : Kind} {o : kind.Object} (h : c.get? kind (kind.nameOf o) = none) (reported : String) :
    (request (.create kind o) reported).alone c = (.ok (), c.put kind (kind.nameOf o) o) := by
  have hserve : c.serve (.create kind o) = (.ok (), c.put kind (kind.nameOf o) o) := by simp only [Cluster.serve, h]
  exact alone_request hserve reported

theorem alone_replace {kind : Kind} {name : String} {o stored : kind.Object} (h : c.get? kind name = some stored)
    (hv : (kind.metadata o).resourceVersion = (kind.metadata stored).resourceVersion) (reported : String) :
    (request (.replace kind name o) reported).alone c = (.ok (), c.put kind name o) := by
  have hserve : c.serve (.replace kind name o) = (.ok (), c.put kind name o) := by simp only [Cluster.serve, h, hv, if_true]
  exact alone_request hserve reported

/-- A cycle that does not lose its race is run once. -/
theorem alone_onConflict (policy : RetryPolicy) {x : Action α} {a : Except Error α} (h : x.alone c = (a, c'))
    (hc : ∀ e, a = .error e → e.isConflict = false) :
    alone (ExceptT.mk (Retry.onConflict policy Error.isConflict (fun _ => x.run))) c = (a, c') := by
  unfold Retry.onConflict
  cases policy.attempts - 1 with
  | zero => exact h
  | succ more =>
    have hrun : x.run.run (fun r c => c.serve r) c = (a, c') := h
    change (Retry.attempt Error.isConflict (fun _ => x.run) 1 (more + 1)).run (fun r c => c.serve r) c = (a, c')
    rw [Retry.attempt, Program.run_bind, hrun]
    cases a with
    | ok a => rfl
    | error e =>
      simp only [hc e rfl]
      rfl

end Action

namespace Cluster

/-- Every object is stored under its own name. -/
def Named (c : Cluster) : Prop := ∀ ⦃kind name o⦄, c.get? kind name = some o → kind.nameOf o = name

/-- No object but one differs between two clusters. -/
def Beside (kind : Kind) (name : String) (c c' : Cluster) : Prop :=
  ∀ ⦃other n⦄, other ≠ kind ∨ n ≠ name → c'.get? other n = c.get? other n

theorem named_empty : Named {} := fun kind name o h => by cases kind <;> cases h

theorem nameOf_stamped (kind : Kind) (o : kind.Object) (v : String) : kind.nameOf (stamped kind o v) = kind.nameOf o := by
  unfold Kind.nameOf stamped
  rw [Kind.metadata_withMetadata]
  rfl

theorem Named.put {c : Cluster} (h : c.Named) {kind : Kind} {name : String} {o : kind.Object}
    (ho : kind.nameOf o = name) : (c.put kind name o).Named := by
  intro other n x hx
  by_cases hk : other = kind
  · subst hk
    by_cases hn : n = name
    · subst hn
      rw [get?_put_self] at hx
      cases hx
      rw [nameOf_stamped, ho]
    · rw [get?_put_ne c other o hn] at hx
      exact h hx
  · rw [get?_put_kind c name o hk] at hx
    exact h hx

theorem Named.remove {c : Cluster} (h : c.Named) (kind : Kind) (name : String) : (c.remove kind name).Named :=
  fun _ _ _ hx => h (get?_of_get?_remove hx)

theorem beside_refl {kind : Kind} {name : String} (c : Cluster) : c.Beside kind name c := fun _ _ _ => rfl

theorem beside_put (c : Cluster) (kind : Kind) (name : String) (o : kind.Object) :
    Beside kind name c (c.put kind name o) := by
  intro other n hne
  by_cases hk : other = kind
  · subst hk
    exact get?_put_ne c other o (hne.resolve_left (fun h => h rfl))
  · exact get?_put_kind c name o hk n

theorem beside_remove (c : Cluster) (kind : Kind) (name : String) : Beside kind name c (c.remove kind name) := by
  intro other n hne
  by_cases hk : other = kind
  · subst hk
    exact get?_remove_ne c other (hne.resolve_left (fun h => h rfl))
  · exact get?_remove_kind c name hk n

/-- A write that changes one object changes no other one. -/
theorem Write.get?_of_changed {c c' : Cluster} (w : c.Write c') {kind other : Kind} {name n : String}
    (h : c'.get? kind name ≠ c.get? kind name) (hne : other ≠ kind ∨ n ≠ name) : c'.get? other n = c.get? other n := by
  have hplace : ∀ {kind' name'}, c.Beside kind' name' c' → c'.get? other n = c.get? other n := by
    intro kind' name' hb
    refine hb ?_
    by_cases hk : kind = kind'
    · subst hk
      by_cases hn : name = name'
      · exact hn ▸ hne
      · exact absurd (hb (.inr hn)) h
    · exact absurd (hb (.inl hk)) h
  cases w with
  | put kind' name' o => exact hplace (c.beside_put kind' name' o)
  | remove kind' name' => exact hplace (c.beside_remove kind' name')

/-- A request touches no object but the one that it is about. -/
theorem beside_serve (c : Cluster) {r : Request} {name : String} (h : r.name? = some name) :
    Beside r.kind name c (c.serve r).2 := by
  cases r with
  | get kind n => exact c.beside_refl
  | list kind selector => cases h
  | create kind o =>
    cases h
    simp only [serve]
    split
    · exact c.beside_refl
    · exact c.beside_put kind _ o
  | replace kind n o =>
    cases h
    simp only [serve]
    split
    · exact c.beside_refl
    · split
      · exact c.beside_put kind _ o
      · exact c.beside_refl
  | delete kind n =>
    cases h
    simp only [serve]
    split
    · exact c.beside_refl
    · exact c.beside_remove kind _

/-- Two clusters differ in the objects of some places only. -/
def Only (places : List (Kind × String)) (c c' : Cluster) : Prop :=
  c'.Named ∧ ∀ {kind n}, (kind, n) ∉ places → c'.get? kind n = c.get? kind n

namespace Only

variable {xs ys : List (Kind × String)} {c c₁ c₂ : Cluster}

theorem refl (hc : c.Named) : Only xs c c := ⟨hc, fun _ => rfl⟩

theorem mono (h : Only xs c c₁) (hsub : xs ⊆ ys) : Only ys c c₁ := ⟨h.1, fun hn => h.2 (fun hmem => hn (hsub hmem))⟩

theorem trans (h : Only xs c c₁) (h' : Only xs c₁ c₂) : Only xs c c₂ := ⟨h'.1, fun hn => (h'.2 hn).trans (h.2 hn)⟩

theorem of_beside {kind : Kind} {name : String} (hmem : (kind, name) ∈ xs) (hc : c₁.Named) (h : c.Beside kind name c₁) :
    Only xs c c₁ := by
  refine ⟨hc, fun {other n} hn => h ?_⟩
  by_cases hk : other = kind
  · exact .inr (fun hname => hn (by rw [hk, hname]; exact hmem))
  · exact .inl hk

end Only

end Cluster

end ServiceExposure
