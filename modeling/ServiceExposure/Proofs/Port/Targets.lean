import ServiceExposure.Port.Contributor
import ServiceExposure.Proofs.Port.Names
/-!
# Forwarding targets

A target is `<namespace>/<service>:<port>`.  No number has a colon in it, so the service can be told from the target.
-/
namespace ServiceExposure

namespace Decimal

theorem repr_inj {n m : Nat} (h : n.repr = m.repr) : n = m := by
  have hn : readUnsigned? (max n m) n.repr = some n := readUnsigned?_repr (Nat.le_max_left n m)
  have hm : readUnsigned? (max n m) m.repr = some m := readUnsigned?_repr (Nat.le_max_right n m)
  rw [h, hm] at hn
  exact (Option.some.inj hn).symm

theorem repr_ne_minus (n : Nat) (s : String) : n.repr ≠ "-" ++ s := by
  intro h
  have hread : (readUnsigned? n n.repr).isSome = true := by
    rw [readUnsigned?_repr (Nat.le_refl n)]
    rfl
  refine not_mem_of_readUnsigned? hread (c := '-') (by decide) (by decide) ?_
  rw [h]
  simp

/-- Different numbers are written differently. -/
theorem toString_inj : ∀ {n m : Int}, toString n = toString m → n = m
  | .ofNat _, .ofNat _, h => congrArg Int.ofNat (repr_inj h)
  | .ofNat n, .negSucc _, h => absurd h (repr_ne_minus n _)
  | .negSucc _, .ofNat m, h => absurd h.symm (repr_ne_minus m _)
  | .negSucc n, .negSucc m, h => by
    have hsucc : n.succ = m.succ := repr_inj ((String.append_right_inj _).1 h)
    rw [Nat.succ.inj hsucc]

end Decimal

namespace Contributor

theorem ownsForwardTarget_eq_true_iff {c : Contributor} {target : String} : c.ownsForwardTarget target = true ↔
    ∃ port, (Decimal.readUnsigned? 65535 port).isSome = true ∧ target = c.ns ++ "/" ++ c.name ++ ":" ++ port := by
  unfold ownsForwardTarget
  constructor
  · intro h
    split at h
    case h_1 port hport => exact ⟨port, h, Text.dropStem_eq_some_iff.1 hport⟩
    case h_2 => cases h
  · rintro ⟨port, hport, rfl⟩
    rw [Text.dropStem_eq_some_iff.2 rfl]
    exact hport

/-- Contributors that own a target have the same namespace and name, written one after the other. -/
theorem path_eq_of_ownsForwardTarget {c c' : Contributor} {target : String} (h : c.ownsForwardTarget target = true)
    (h' : c'.ownsForwardTarget target = true) : c.ns ++ "/" ++ c.name = c'.ns ++ "/" ++ c'.name := by
  obtain ⟨port, hport, rfl⟩ := ownsForwardTarget_eq_true_iff.1 h
  obtain ⟨port', hport', htarget⟩ := ownsForwardTarget_eq_true_iff.1 h'
  have hcolon := Decimal.not_mem_of_readUnsigned? hport (c := ':') (by decide) (by decide)
  have hcolon' := Decimal.not_mem_of_readUnsigned? hport' (c := ':') (by decide) (by decide)
  exact String.toList_inj.1 (Text.cut_at_last hcolon hcolon' (by simpa using congrArg String.toList htarget)).1

/-- The target for a port is the contributor's own. -/
theorem ownsForwardTarget_forwardTarget (c : Contributor) {port : Int} (h : isPortNumber port = true) :
    c.ownsForwardTarget (c.forwardTarget port) = true :=
  ownsForwardTarget_eq_true_iff.2 ⟨toString port, Decimal.isSome_readUnsigned?_port h, rfl⟩

/-- A target leads to a service exactly if the service owns it. -/
theorem ownsForwardTarget_iff {ns service other : String} {port : Int} (h : isPortNumber port = true) :
    ownsForwardTarget ⟨ns, service⟩ (forwardTarget ⟨ns, other⟩ port) = true ↔ other = service := by
  constructor
  · intro ho
    have hpath := path_eq_of_ownsForwardTarget (ownsForwardTarget_forwardTarget ⟨ns, other⟩ h) ho
    exact (String.append_right_inj _).1 hpath
  · rintro rfl
    exact ownsForwardTarget_forwardTarget ⟨ns, other⟩ h

end Contributor
end ServiceExposure
