import ServiceExposure.Merge
import ServiceExposure.Proofs.Cluster.Versions
/-!
# Changes of one object

A planned change is made in the cluster (`Cluster.commit`).  What can be seen of an object beside its version is then
what was wanted, and the other objects are as they were.
-/
namespace ServiceExposure
namespace Cluster

variable {kind : Kind}

/-- The cluster after a change of one object. -/
def commit (c : Cluster) (kind : Kind) (name : String) : Change kind.Object → Cluster
  | .unchanged => c
  | .create o | .replace o => c.put kind name o
  | .delete => c.remove kind name

theorem get?_commit_ne (c : Cluster) {other : Kind} {name n : String} (change : Change kind.Object)
    (h : other ≠ kind ∨ n ≠ name) : (c.commit kind name change).get? other n = c.get? other n := by
  cases change with
  | unchanged => rfl
  | create o | replace o =>
    by_cases hk : other = kind
    · subst hk
      exact get?_put_ne c other o (h.resolve_left (fun hne => hne rfl))
    · exact get?_put_kind c name o hk n
  | delete =>
    by_cases hk : other = kind
    · subst hk
      exact get?_remove_ne c other (h.resolve_left (fun hne => hne rfl))
    · exact get?_remove_kind c name hk n

/-- **After a change the wanted object stands there**, as far as can be seen without looking at its version. -/
theorem view_commit {β : Type} {view : Option kind.Object → β}
    (hv : ∀ o v, view (some (stamped kind o v)) = view (some o)) (c : Cluster) (name : String)
    (next : Option kind.Object) :
    view ((c.commit kind name (.between (c.get? kind name) next)).get? kind name) = view next := by
  cases hc : c.get? kind name with
  | none =>
    cases next with
    | none =>
      change view (c.get? kind name) = _
      rw [hc]
    | some o =>
      change view ((c.put kind name o).get? kind name) = _
      rw [get?_put_self, hv]
  | some stored =>
    cases next with
    | none =>
      change view ((c.remove kind name).get? kind name) = _
      rw [get?_remove_self]
    | some o =>
      have hb : Change.between (some stored) (some o) = if stored = o then .unchanged else .replace o := rfl
      rw [hb]
      by_cases he : stored = o
      · rw [if_pos he]
        change view (c.get? kind name) = _
        rw [hc, he]
      · rw [if_neg he]
        change view ((c.put kind name o).get? kind name) = _
        rw [get?_put_self, hv]

end Cluster
end ServiceExposure
