import Mathlib.Data.List.Induction
import ServiceExposure.Proofs.Shared.Admission
/-!
# The policy after any plans

Contributors plan one after the other, each on what the one before it left, where there was no policy before
(`Admission.after`).  No plan fails, and the policy that comes of them admits exactly what everybody asked for last
(`Admission.after_admits`); a port that several contributors share stays until the last of them gives it up.
-/
namespace ServiceExposure

/-! ## What was asked for last -/

namespace Wishes

/-- The ports that each contributor asked for last, as far as they can be forwarded. -/
def last (steps : List (Contributor × ExposedPorts)) : Wishes := fun n =>
  match steps.reverse.find? (fun s => s.1.name = n) with
  | some s => s.2.forwardable
  | .none => .empty

theorem last_append (steps : List (Contributor × ExposedPorts)) (s : Contributor × ExposedPorts) :
    last (steps ++ [s]) = (last steps).set s.1.name s.2 := by
  funext n
  unfold last Wishes.set
  rw [List.reverse_append, List.reverse_singleton, List.singleton_append, List.find?_cons]
  by_cases hn : n = s.1.name
  · simp [hn]
  · simp [hn, Ne.symm hn]

end Wishes

namespace Admission

/-- The policy after a contributor's plan. -/
def advance (a : Admission) (current : Option NetworkPolicy) (s : Contributor × ExposedPorts) :
    Except ParseError (Option NetworkPolicy) := (a.plan current s.1 s.2).map (·.result current)

/-- The policy after plans one after the other, where there was none before. -/
def after (a : Admission) (steps : List (Contributor × ExposedPorts)) : Except ParseError (Option NetworkPolicy) :=
  steps.foldlM a.advance none

/-- The ingress rules of a policy. -/
def rulesOf (p : NetworkPolicy) : List PolicyRule := (p.spec.getD {}).ingress.getD []

/-- A policy comes about by the first plan that desires a port, and never goes. -/
theorem result_eq_none_iff {a : Admission} {current : Option NetworkPolicy} {contributor : Contributor}
    {desired : ExposedPorts} {change : Change NetworkPolicy} (h : a.plan current contributor desired = .ok change) :
    change.result current = none ↔ current = none ∧ desired.forwardable.isEmpty = true := by
  by_cases hmissing : current = none ∧ desired.forwardable.isEmpty = true
  · unfold plan at h
    dsimp only at h
    rw [if_pos hmissing] at h
    cases h
    exact ⟨fun _ => hmissing, fun _ => hmissing.1⟩
  · rcases plan_eq_ok h with ⟨hnone, hempty, -⟩ | ⟨prior, others, -, -, rfl⟩
    · exact absurd ⟨hnone, hempty⟩ hmissing
    · rw [Change.result_between]
      exact ⟨(fun hn => nomatch hn), fun hn => absurd hn hmissing⟩

variable {members : String → Prop} {w : Wishes}

/-- **One plan** succeeds, and the policy follows the new wish. -/
theorem advance_follows {a : Admission} (hs : a.records.Separates members) (hw : w.Legal members)
    {current : Option NetworkPolicy} (h : a.Follows w current) {s : Contributor × ExposedPorts} (hn : members s.1.name) :
    ∃ next, a.advance current s = .ok next ∧ a.Follows (w.set s.1.name s.2) next ∧
      (next = none ↔ current = none ∧ s.2.forwardable.isEmpty = true) := by
  obtain ⟨next, hplan, hnext⟩ := follows_plan hs hw hn h s.1.ns s.2
  have hnone := result_eq_none_iff hplan
  rw [Change.result_between] at hnone
  refine ⟨next, ?_, hnext, hnone⟩
  have hplan' : a.plan current s.1 s.2 = .ok (.between current next) := hplan
  unfold advance
  rw [hplan', Except.map, Change.result_between]

/-- **Any plans** succeed, and the policy follows what was asked for last. -/
theorem after_follows {a : Admission} (hs : a.records.Separates members) (steps : List (Contributor × ExposedPorts))
    (hsteps : ∀ s ∈ steps, members s.1.name ∧ s.2.Valid) :
    ∃ policy, a.after steps = .ok policy ∧ (Wishes.last steps).Legal members ∧ a.Follows (Wishes.last steps) policy ∧
      (policy = none ↔ ∀ s ∈ steps, s.2.forwardable.isEmpty = true) := by
  induction steps using List.reverseRecOn with
  | nil => exact ⟨none, rfl, Wishes.legal_none members, a.follows_none, by simp⟩
  | append_singleton steps s ih =>
    obtain ⟨current, hrun, hw, hfollows, hnone⟩ := ih (fun s' hs' => hsteps s' (List.mem_append_left _ hs'))
    obtain ⟨hn, hd⟩ := hsteps s (List.mem_append_right _ List.mem_cons_self)
    obtain ⟨next, hstep, hnext, hnone'⟩ := advance_follows hs hw hfollows hn
    refine ⟨next, ?_, ?_, ?_, ?_⟩
    · unfold after at hrun ⊢
      rw [List.foldlM_append, hrun]
      change (a.advance current s >>= fun p => pure p) = _
      rw [hstep]
      rfl
    · rw [Wishes.last_append]
      exact hw.set hn hd
    · rw [Wishes.last_append]
      exact hnext
    · rw [hnone', hnone, List.forall_mem_append, List.forall_mem_singleton]

/-- The rules of a policy that admits what is asked for. -/
theorem rules_of_admits {r : OwnershipRecords} {p : NetworkPolicy} (h : Admits r w p) :
    ((∀ id, ¬ w.Wants id) → rulesOf p = []) ∧
    ((∃ id, w.Wants id) → ∃ entries, rulesOf p = [{ ports := some entries }] ∧ Lists w entries) := by
  obtain ⟨entries, hrules, hlists⟩ := h.rules
  have hnil : entries = [] ↔ ∀ id, ¬ w.Wants id := by
    constructor
    · rintro rfl id hid
      exact nomatch (hlists.mem_iff _).2 ⟨id, hid, rfl⟩
    · intro hnone
      refine List.eq_nil_iff_forall_not_mem.2 (fun e he => ?_)
      obtain ⟨id, hid, -⟩ := (hlists.mem_iff e).1 he
      exact hnone id hid
  have hshape : rulesOf p = if entries = [] then [] else [{ ports := some entries }] := hrules
  constructor
  · intro hnone
    rw [hshape, if_pos (hnil.2 hnone)]
  · rintro ⟨id, hid⟩
    refine ⟨entries, ?_, hlists⟩
    rw [hshape, if_neg (fun hn => hnil.1 hn id hid)]

/-- **After any plans the policy admits exactly what everybody asked for last**, and says who asked for it. -/
theorem after_admits (a : Admission) {members : String → Prop} (hs : a.records.Separates members)
    {steps : List (Contributor × ExposedPorts)} (hsteps : ∀ s ∈ steps, members s.1.name ∧ s.2.Valid) :
    ∃ policy, a.after steps = .ok policy ∧
      (policy = none ↔ ∀ s ∈ steps, s.2.forwardable.isEmpty = true) ∧
      ∀ p, policy = some p →
        ((∀ id, ¬ (Wishes.last steps).Wants id) → rulesOf p = []) ∧
        ((∃ id, (Wishes.last steps).Wants id) → ∃ entries, rulesOf p = [{ ports := some entries }] ∧
          (entries.map PolicyPort.id).Nodup ∧
          ∀ e, e ∈ entries ↔ ∃ id, (Wishes.last steps).Wants id ∧ e = .ofId id) ∧
        ∀ n, members n → a.records.read p.metadata.annotationSet n = .ok (Wishes.last steps n) := by
  obtain ⟨policy, hrun, hw, hfollows, hnone⟩ := after_follows hs steps hsteps
  refine ⟨policy, hrun, hnone, ?_⟩
  rintro p rfl
  obtain ⟨hempty, hentries⟩ := rules_of_admits hfollows
  refine ⟨hempty, fun hwants => ?_, fun n hn => OwnershipRecords.read_of_hold hs hw hn hfollows.records⟩
  obtain ⟨entries, hrules, hlists⟩ := hentries hwants
  exact ⟨entries, hrules, hlists.nodup, hlists.mem_iff⟩

/-- Two services ask for one port, and the first one gives it up. -/
def sharedPort : List (Contributor × ExposedPorts) :=
  [(⟨"ecosystem", "scm"⟩, .ofList [⟨.tcp, 2222, 22⟩, ⟨.udp, 53, 53⟩]), (⟨"ecosystem", "ldap"⟩, .ofList [⟨.tcp, 2222, 389⟩]),
    (⟨"ecosystem", "scm"⟩, .empty)]

/-- The shared port is still admitted. -/
theorem after_admits_sharedPort :
    let a : Admission := ⟨"nginx-ingress-exposed", "ecosystem", .empty, .standard⟩
    ∃ p, a.after sharedPort = .ok (some p) ∧
      (∃ entries, rulesOf p = [{ ports := some entries }] ∧ PolicyPort.ofId ⟨.tcp, 2222⟩ ∈ entries) ∧
      a.records.read p.metadata.annotationSet "scm" = .ok .empty := by
  intro a
  have hs : a.records.Separates (fun n => n = "scm" ∨ n = "ldap") := by
    constructor
    · rintro n (rfl | rfl) <;> decide
    · rintro n n' (rfl | rfl) (rfl | rfl) hk
      · rfl
      · exact absurd hk (by decide +kernel)
      · exact absurd hk (by decide +kernel)
      · rfl
  have hwants : (Wishes.last sharedPort).Wants ⟨.tcp, 2222⟩ := ⟨"ldap", by decide⟩
  have hsteps : ∀ s ∈ sharedPort, (s.1.name = "scm" ∨ s.1.name = "ldap") ∧ s.2.Valid := by decide +kernel
  obtain ⟨policy, hrun, hnone, hall⟩ := after_admits a hs hsteps
  cases policy with
  | none => exact absurd (hnone.1 rfl) (by decide)
  | some p =>
    obtain ⟨-, hrules, hread⟩ := hall p rfl
    obtain ⟨entries, he, -, hmem⟩ := hrules ⟨_, hwants⟩
    exact ⟨p, hrun, ⟨entries, he, (hmem _).2 ⟨_, hwants, rfl⟩⟩, hread "scm" (.inl rfl)⟩

end Admission
end ServiceExposure
