import Mathlib.Data.ENat.Lattice
import ServiceExposure.Retry
/-!
# How often a cycle is run

A cycle is run until it ends in something else than a conflict, and no more often than the policy allows
(`Retry.onConflict_calls`).  The number of an attempt is never above that of the attempts allowed.  So it can be kept
in 32 bits, although these would wrap: `Retry.counted` does so and runs the same attempts
(`Retry.counted_eq_onConflict`).
-/
namespace ServiceExposure

namespace Retry

variable {m : Type → Type} [Monad m] {ε α : Type} {isConflict : ε → Bool}

/-! ## The number of the attempt in 32 bits -/

theorem toNat_succ_of_lt {number attempts : UInt32} (h : number < attempts) :
    (number + 1).toNat = number.toNat + 1 := by
  have hlt : number.toNat < attempts.toNat := h
  have hfits : attempts.toNat < 2 ^ 32 := attempts.toNat_lt_size
  rw [UInt32.toNat_add, UInt32.toNat_one]
  exact Nat.mod_eq_of_lt (by omega)

/-- Runs attempts with their number in 32 bits: after a conflict there is a further one as long as the number is below
that of the attempts allowed. -/
def counted (isConflict : ε → Bool) (op : UInt32 → m (Except ε α)) (attempts number : UInt32) : m (Except ε α) := do
  match ← op number with
  | .ok a => return .ok a
  | .error e =>
    if h : isConflict e = true ∧ number < attempts then counted isConflict op attempts (number + 1)
    else return .error e
termination_by attempts.toNat - number.toNat
decreasing_by
  have hlt : number.toNat < attempts.toNat := h.2
  rw [toNat_succ_of_lt h.2]
  omega

/-- The number does not wrap, because there is no further attempt once it is that of the attempts allowed. -/
theorem counted_eq_attempt [LawfulMonad m] (op : Nat → m (Except ε α)) (attempts : UInt32) :
    ∀ (more : Nat) (number : UInt32), number.toNat + more = attempts.toNat →
      counted isConflict (fun number => op number.toNat) attempts number = attempt isConflict op number.toNat more
  | 0, number, h => by
    have hend : ¬ number < attempts := fun hlt => by
      have : number.toNat < attempts.toNat := hlt
      omega
    rw [counted, attempt]
    simp only [hend, and_false, dite_false]
    refine Eq.trans (bind_congr (fun outcome => ?_)) (bind_pure (op number.toNat))
    cases outcome <;> rfl
  | more + 1, number, h => by
    have hlt : number < attempts := UInt32.lt_iff_toNat_lt.2 (by omega)
    have hnext := counted_eq_attempt op attempts more (number + 1) (by rw [toNat_succ_of_lt hlt]; omega)
    rw [toNat_succ_of_lt hlt] at hnext
    rw [counted, attempt]
    refine bind_congr (fun outcome => ?_)
    cases outcome with
    | ok a => rfl
    | error e => simp only [hlt, and_true, hnext, dite_eq_ite]

/-- **Counting in 32 bits** makes no difference to the attempts. -/
theorem counted_eq_onConflict [LawfulMonad m] (policy : RetryPolicy) (op : Nat → m (Except ε α)) :
    counted isConflict (fun number => op number.toNat) (UInt32.ofNat policy.attempts) 1 =
      onConflict policy isConflict op := by
  refine counted_eq_attempt op (UInt32.ofNat policy.attempts) (policy.attempts - 1) 1 ?_
  rw [UInt32.toNat_ofNat_of_lt' policy.fits, UInt32.toNat_one]
  exact Nat.add_sub_cancel' policy.pos

/-! ## The calls -/

/-- An outcome is a conflict. -/
def Lost (isConflict : ε → Bool) : Except ε α → Prop
  | .ok _ => False
  | .error e => isConflict e = true

/-- The position, from 1, of the first outcome that is not a conflict; infinite if all are. -/
noncomputable def firstOther (isConflict : ε → Bool) (outcomes : Nat → Except ε α) : ℕ∞ :=
  ⨅ (i : Nat) (_ : ¬ Lost isConflict (outcomes i)), ((i + 1 : Nat) : ℕ∞)

/-- The operation whose calls end in the given outcomes, one after the other.  It notes the number that each call is
told. -/
def scripted (outcomes : Nat → Except ε α) (number : Nat) : StateM (List Nat) (Except ε α) := fun told =>
  (outcomes told.length, told ++ [number])

variable {outcomes : Nat → Except ε α} {told : List Nat}

theorem run_scripted (outcomes : Nat → Except ε α) (number : Nat) (told : List Nat) :
    (scripted outcomes number).run told = (outcomes told.length, told ++ [number]) := rfl

theorem run_attempt_of_lost (h : Lost isConflict (outcomes told.length)) (number more : Nat) :
    (attempt isConflict (scripted outcomes) number (more + 1)).run told =
      (attempt isConflict (scripted outcomes) (number + 1) more).run (told ++ [number]) := by
  rw [attempt, StateT.run_bind, run_scripted]
  cases houtcome : outcomes told.length with
  | ok a => exact (houtcome ▸ h : Lost isConflict (.ok a)).elim
  | error e =>
    have hlost : isConflict e = true := (houtcome ▸ h : Lost isConflict (.error e))
    change StateT.run (if isConflict e = true then _ else _) _ = _
    rw [if_pos hlost]

theorem run_attempt_of_not_lost (h : ¬ Lost isConflict (outcomes told.length)) (number : Nat) : ∀ more : Nat,
    (attempt isConflict (scripted outcomes) number more).run told = (outcomes told.length, told ++ [number])
  | 0 => rfl
  | more + 1 => by
    rw [attempt, StateT.run_bind, run_scripted]
    cases houtcome : outcomes told.length with
    | ok a => rfl
    | error e =>
      have hother : ¬ isConflict e = true := fun hlost => h (houtcome ▸ (hlost : Lost isConflict (.error e)))
      change StateT.run (if isConflict e = true then _ else _) _ = _
      rw [if_neg hother]
      rfl

/-- Attempts end with the first outcome that is not a conflict, or when no more are left. -/
theorem run_attempt (isConflict : ε → Bool) (outcomes : Nat → Except ε α) :
    ∀ (more number : Nat) (told : List Nat), ∃ last ≤ more,
      (∀ i < last, Lost isConflict (outcomes (told.length + i))) ∧
        (last = more ∨ ¬ Lost isConflict (outcomes (told.length + last))) ∧
        (attempt isConflict (scripted outcomes) number more).run told =
          (outcomes (told.length + last), told ++ List.range' number (last + 1))
  | 0, number, told => ⟨0, Nat.le_refl 0, fun i hi => absurd hi (Nat.not_lt_zero i), .inl rfl, rfl⟩
  | more + 1, number, told => by
    by_cases h : Lost isConflict (outcomes told.length)
    · obtain ⟨last, hle, hlost, hend, hrun⟩ := run_attempt isConflict outcomes more (number + 1) (told ++ [number])
      -- the call that was made counts among those before the outcomes to come
      have hshift : ∀ i, (told ++ [number]).length + i = told.length + (i + 1) := fun i => by
        rw [List.length_append, List.length_singleton, Nat.add_assoc, Nat.add_comm 1 i]
      simp only [hshift] at hlost hend hrun
      refine ⟨last + 1, Nat.succ_le_succ hle, fun i hi => ?_, hend.imp_left (congrArg Nat.succ), ?_⟩
      · cases i with
        | zero => exact h
        | succ i => exact hlost i (Nat.lt_of_succ_lt_succ hi)
      · rw [run_attempt_of_lost h, hrun, List.range'_succ (s := number), List.append_assoc, List.singleton_append]
    · refine ⟨0, Nat.zero_le _, fun i hi => absurd hi (Nat.not_lt_zero i), .inr h, ?_⟩
      exact run_attempt_of_not_lost h number (more + 1)

/-- The last call is at the first outcome that is not a conflict, or at the end of the attempts allowed. -/
theorem eq_min_firstOther {last more : Nat} (hle : last ≤ more) (hlost : ∀ i < last, Lost isConflict (outcomes i))
    (hend : last = more ∨ ¬ Lost isConflict (outcomes last)) :
    ((last + 1 : Nat) : ℕ∞) = min ((more + 1 : Nat) : ℕ∞) (firstOther isConflict outcomes) := by
  refine le_antisymm (le_min ?_ (le_iInf₂ (fun i hi => ?_))) ?_
  · exact Nat.cast_le.2 (Nat.succ_le_succ hle)
  · exact Nat.cast_le.2 (Nat.succ_le_succ (Nat.le_of_not_lt (fun hlt => hi (hlost i hlt))))
  · rcases hend with rfl | hother
    · exact min_le_left _ _
    · exact (min_le_right _ _).trans (iInf₂_le last hother)

/-- **How often a cycle is run**: up to the first outcome that is not a conflict, and no more often than is allowed.
What comes of it is the outcome of the last call.  The calls are told their numbers in order, none of them above the
number of attempts allowed, and with the number in 32 bits everything stays the same. -/
theorem onConflict_calls (n : UInt32) (isConflict : ε → Bool) (outcomes : Nat → Except ε α) :
    ∃ last : Nat,
      ((last + 1 : Nat) : ℕ∞) = min ((max n.toNat 1 : Nat) : ℕ∞) (firstOther isConflict outcomes) ∧
      (onConflict (.ofAttempts n) isConflict (scripted outcomes)).run [] =
        (outcomes last, List.range' 1 (last + 1)) ∧
      (∀ number ∈ List.range' 1 (last + 1), number ≤ max n.toNat 1 ∧ number < UInt32.size) ∧
      counted isConflict (fun number => scripted outcomes number.toNat) (UInt32.ofNat (max n.toNat 1)) 1 =
        onConflict (.ofAttempts n) isConflict (scripted outcomes) := by
  have hpos := (RetryPolicy.ofAttempts n).pos
  have hfits := (RetryPolicy.ofAttempts n).fits
  have hattempts : (RetryPolicy.ofAttempts n).attempts = max n.toNat 1 := rfl
  obtain ⟨last, hle, hlost, hend, hrun⟩ :=
    run_attempt isConflict outcomes ((RetryPolicy.ofAttempts n).attempts - 1) 1 []
  simp only [List.length_nil, Nat.zero_add, List.nil_append] at hlost hend hrun
  have hmin := eq_min_firstOther hle hlost hend
  rw [Nat.sub_add_cancel hpos, hattempts] at hmin
  refine ⟨last, hmin, hrun, fun number hnumber => ?_, counted_eq_onConflict (.ofAttempts n) (scripted outcomes)⟩
  have hbounds := List.mem_range'_1.1 hnumber
  omega

/-- Two conflicts, then a success. -/
example : (onConflict (.ofAttempts 3) (· == "conflict")
    (scripted (fun i => if i < 2 then .error "conflict" else .ok 42))).run [] = (.ok 42, [1, 2, 3]) := rfl

end Retry
end ServiceExposure
