import ServiceExposure.Owned.Apply
import ServiceExposure.Proofs.Cluster.Alone
/-!
# Owned objects with nobody else around

Applying an object alone succeeds and leaves it in its wanted form (`Owned.alone_apply`), deleting one alone succeeds and
leaves none (`Owned.alone_deleteIfExists`), and neither touches another object.
-/
namespace ServiceExposure

/-- The object without its version. -/
def Kind.unversioned (kind : Kind) (o : kind.Object) : kind.Object :=
  kind.withMetadata o { kind.metadata o with resourceVersion := none }

/-- An object as it stands in the cluster, without its version. -/
def Cluster.sight (c : Cluster) (kind : Kind) (name : String) : Option kind.Object :=
  (c.get? kind name).map kind.unversioned

@[simp] theorem Kind.unversioned_stamped (kind : Kind) (o : kind.Object) (v : String) :
    kind.unversioned (Cluster.stamped kind o v) = kind.unversioned o := by cases kind <;> rfl

namespace Owned

theorem nameOf_form (kind : Kind) (desired current : kind.Object) :
    kind.nameOf (form kind desired current) = kind.nameOf current := by cases kind <;> rfl

theorem resourceVersion_form (kind : Kind) (desired current : kind.Object) :
    (kind.metadata (form kind desired current)).resourceVersion = (kind.metadata current).resourceVersion := by
  cases kind <;> rfl

/-- The object that is wanted where another one stands, or none. -/
def wantedOver (kind : Kind) (desired : kind.Object) : Option kind.Object → kind.Object
  | none => desired
  | some current => form kind desired current

/-- **Applying an object** leaves it in its wanted form. -/
theorem alone_apply (retry : RetryPolicy) {kind : Kind} (desired : kind.Object) {c : Cluster} (hc : c.Named) :
    ∃ b c', (apply retry kind desired).alone c = (.ok b, c') ∧ c'.Named ∧ c.Beside kind (kind.nameOf desired) c' ∧
      c'.sight kind (kind.nameOf desired) =
        some (kind.unversioned (wantedOver kind desired (c.get? kind (kind.nameOf desired)))) := by
  have hstart : ∀ {b c'}, (cycle kind desired).alone c = (.ok b, c') →
      (apply retry kind desired).alone c = (.ok b, c') := fun h =>
    Action.alone_onConflict retry h (fun e he => by cases he)
  have hsight : ∀ o : kind.Object, (c.put kind (kind.nameOf desired) o).sight kind (kind.nameOf desired) =
      some (kind.unversioned o) := by
    intro o
    unfold Cluster.sight
    rw [Cluster.get?_put_self, Option.map_some, Kind.unversioned_stamped]
  have hcycle : (cycle kind desired).alone c = (_ : Action Bool).alone c :=
    Action.alone_bind_ok (Action.alone_get kind (kind.nameOf desired) (kind.nameOf desired) c) _
  cases hcur : c.get? kind (kind.nameOf desired) with
  | none =>
    refine ⟨true, c.put kind (kind.nameOf desired) desired, hstart (hcycle.trans ?_), hc.put rfl,
      Cluster.beside_put _ _ _ _, hsight desired⟩
    rw [hcur]
    exact Action.alone_bind_ok (Action.alone_create hcur _) _
  | some current =>
    have hname : kind.nameOf (form kind desired current) = kind.nameOf desired := by
      rw [nameOf_form, hc hcur]
    by_cases hform : form kind desired current = current
    · refine ⟨false, c, hstart (hcycle.trans ?_), hc, Cluster.beside_refl c, ?_⟩
      · rw [hcur]
        dsimp only
        rw [if_pos hform]
        rfl
      · unfold Cluster.sight wantedOver
        dsimp only
        rw [hcur, hform]
        rfl
    · refine ⟨true, c.put kind (kind.nameOf desired) (form kind desired current), hstart (hcycle.trans ?_),
        hc.put hname, Cluster.beside_put _ _ _ _, hsight _⟩
      rw [hcur]
      dsimp only
      rw [if_neg hform, hname]
      exact Action.alone_bind_ok (Action.alone_replace hcur (resourceVersion_form kind desired current) _) _

theorem deleteIfExists_eq (kind : Kind) (name : String) (c : Cluster) :
    (deleteIfExists kind name).alone c =
      (match (c.serve (.delete kind name)).1 with
        | .ok _ => .ok true
        | .error why => if why = Refusal.notFound then .ok false else .error (.api .delete kind name why),
        (c.serve (.delete kind name)).2) := rfl

theorem delete_missing {kind : Kind} {name : String} {c : Cluster} (h : c.get? kind name = none) :
    (deleteIfExists kind name).alone c = (.ok false, c) := by
  have hserve : c.serve (.delete kind name) = (.error .notFound, c) := by simp only [Cluster.serve, h]
  rw [deleteIfExists_eq, hserve]
  rfl

theorem delete_present {kind : Kind} {name : String} {c : Cluster} {o : kind.Object} (h : c.get? kind name = some o) :
    (deleteIfExists kind name).alone c = (.ok true, c.remove kind name) := by
  have hserve : c.serve (.delete kind name) = (.ok (), c.remove kind name) := by simp only [Cluster.serve, h]
  rw [deleteIfExists_eq, hserve]

/-- **Deleting an object** leaves none. -/
theorem alone_deleteIfExists (kind : Kind) (name : String) {c : Cluster} (hc : c.Named) :
    ∃ b c', (deleteIfExists kind name).alone c = (.ok b, c') ∧ c'.Named ∧ c.Beside kind name c' ∧
      c'.sight kind name = none := by
  cases hcur : c.get? kind name with
  | none =>
    refine ⟨false, c, delete_missing hcur, hc, Cluster.beside_refl c, ?_⟩
    unfold Cluster.sight
    rw [hcur]
    rfl
  | some o =>
    refine ⟨true, c.remove kind name, delete_present hcur, hc.remove kind name, Cluster.beside_remove _ _ _, ?_⟩
    unfold Cluster.sight
    rw [Cluster.get?_remove_self]
    rfl

/-- Deleting several objects leaves none of them, and all others. -/
theorem alone_deleteAll (kind : Kind) : ∀ (names : List String) {c : Cluster}, c.Named →
    ∃ c', (Action.forEach (fun name => do let _ ← deleteIfExists kind name) names).alone c = (.ok (), c') ∧ c'.Named ∧
      (∀ {other n}, other ≠ kind ∨ n ∉ names → c'.get? other n = c.get? other n) ∧
      ∀ n ∈ names, c'.sight kind n = none
  | [], c, hc => ⟨c, rfl, hc, fun _ => rfl, fun _ h => nomatch h⟩
  | name :: names, c, hc => by
    obtain ⟨b, c₁, hrun, hc₁, hbeside, hnone⟩ := alone_deleteIfExists kind name hc
    obtain ⟨c₂, hrun', hc₂, hrest, hnone'⟩ := alone_deleteAll kind names hc₁
    refine ⟨c₂, ?_, hc₂, ?_, ?_⟩
    · exact (Action.alone_bind_ok (Action.alone_bind_ok hrun _) _).trans hrun'
    · intro other n hne
      have hnot : other ≠ kind ∨ n ≠ name ∧ n ∉ names := hne.imp_right (fun h => not_or.1 (mt List.mem_cons.2 h))
      rw [hrest (hnot.imp_right And.right), hbeside (hnot.imp_right And.left)]
    · intro n hn
      by_cases hmem : n ∈ names
      · exact hnone' n hmem
      · obtain rfl := (List.mem_cons.1 hn).resolve_right hmem
        unfold Cluster.sight
        rw [hrest (.inr hmem)]
        exact hnone

end Owned
end ServiceExposure
