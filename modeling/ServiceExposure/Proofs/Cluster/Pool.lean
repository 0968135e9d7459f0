import Mathlib.Data.List.Induction
import ServiceExposure.Proofs.Cluster.Conduct
/-!
# A pool of programs

Programs run at the same time on one cluster: they are started at any time, make their requests one at a time in any
order, and others come in between with writes of their own (`Pool.Move`).  What one program of the pool has called is a
list (`Pool.calls`).  A program that keeps to a conduct on its own keeps to it among the others (`Pool.follows_run`).
-/
namespace ServiceExposure

/-- A cluster, and what is left of each program that was started on it. -/
structure Pool where
  cluster : Cluster := {}
  programs : List (Action Unit) := []

namespace Pool

/-- Whether a program was started and has succeeded. -/
instance decidableSucceeded (p : Option (Action Unit)) : Decidable (p = some (.done (.ok ()))) :=
  match p with
  | none | some (.call _ _) | some (.done (.error _)) => isFalse nofun
  | some (.done (.ok ())) => isTrue rfl

/-- What can happen next; programs are given by their position. -/
inductive Move where
  /-- Another program is started. -/
  | start (p : Action Unit)
  /-- A program makes its next request, which may fail without reaching the cluster. -/
  | turn (i : Nat) (failure : Option Refusal)
  /-- Somebody else stores an object. -/
  | put (kind : Kind) (name : String) (o : kind.Object)
  /-- Somebody else takes an object out. -/
  | remove (kind : Kind) (name : String)

/-- The call that a move is. -/
def call? (p : Pool) : Move → Option Call
  | .turn i failure =>
    match p.programs[i]? with
    | some (.call r _) => some ⟨r, failure, p.cluster⟩
    | _ => none
  | _ => none

/-- One move.  A program that is done stays as it is. -/
def step (p : Pool) : Move → Pool
  | .start q => { p with programs := p.programs ++ [q] }
  | .turn i failure =>
    match p.programs[i]? with
    | some (.call r next) =>
      ⟨Call.after ⟨r, failure, p.cluster⟩, p.programs.set i (next (Call.reply ⟨r, failure, p.cluster⟩))⟩
    | _ => p
  | .put kind name o => { p with cluster := p.cluster.put kind name o }
  | .remove kind name => { p with cluster := p.cluster.remove kind name }

def run (p : Pool) (ms : List Move) : Pool := ms.foldl step p

/-- Whose turn a move is. -/
def Move.turn? : Move → Option Nat
  | .turn i _ => some i
  | _ => none

/-- The calls that one program makes during a run, the earliest first. -/
def calls (i : Nat) (p : Pool) : List Move → List Call
  | [] => []
  | m :: ms => (if m.turn? = some i then (p.call? m).toList else []) ++ calls i (p.step m) ms

/-- Program `i` is in a phase of its conduct, and what it knows is true. -/
structure Follows (P : Conduct (Except Error Unit)) (i : Nat) (φ : P.Phase) (p : Pool) : Prop where
  versioned : p.cluster.Versioned
  keeps : ∃ (rest : Action Unit) (K : Knowledge), p.programs[i]? = some rest ∧ rest.run.Keeps P φ K ∧ K.Holds p.cluster

/-! ## What a move does -/

@[simp] theorem run_nil (p : Pool) : p.run [] = p := rfl

@[simp] theorem run_cons (p : Pool) (m : Move) (ms : List Move) : p.run (m :: ms) = (p.step m).run ms := rfl

theorem cluster_step (p : Pool) (m : Move) :
    (p.step m).cluster = p.cluster ∨ p.cluster.Write (p.step m).cluster := by
  cases m with
  | start q => exact .inl rfl
  | turn i failure =>
    simp only [step]
    split
    · exact Call.quiet_or_write _
    · exact .inl rfl
  | put kind name o => exact .inr (.put _ _ _ _)
  | remove kind name => exact .inr (.remove _ _ _)

theorem versioned_step {p : Pool} (h : p.cluster.Versioned) (m : Move) : (p.step m).cluster.Versioned := by
  rcases p.cluster_step m with e | w
  · rw [e]
    exact h
  · exact h.write w

theorem versioned_run {p : Pool} (h : p.cluster.Versioned) : ∀ ms, (p.run ms).cluster.Versioned := by
  intro ms
  induction ms generalizing p with
  | nil => exact h
  | cons m ms ih => exact ih (versioned_step h m)

/-- A program changes in its own turns only. -/
theorem programs_step {p : Pool} {i : Nat} {q : Action Unit} {m : Move} (hi : p.programs[i]? = some q)
    (hm : m.turn? ≠ some i) : (p.step m).programs[i]? = some q := by
  cases m with
  | start q' =>
    obtain ⟨hlt, -⟩ := List.getElem?_eq_some_iff.1 hi
    exact (List.getElem?_append_left hlt).trans hi
  | turn j failure =>
    have hij : j ≠ i := fun e => hm (by rw [e]; rfl)
    simp only [step]
    split
    · exact (List.getElem?_set_ne hij).trans hi
    · exact hi
  | put kind name o => exact hi
  | remove kind name => exact hi

theorem cluster_step_of_call {p : Pool} {m : Move} {k : Call} (h : p.call? m = some k) :
    k.before = p.cluster ∧ (p.step m).cluster = k.after := by
  cases m with
  | turn i failure =>
    match hi : p.programs[i]? with
    | some (.call r next) =>
      simp only [call?, hi] at h
      cases h
      exact ⟨rfl, by simp only [step, hi]⟩
    | some (.done a) =>
      simp only [call?, hi] at h
      cases h
    | none =>
      simp only [call?, hi] at h
      cases h
  | start q => cases h
  | put kind name o => cases h
  | remove kind name => cases h

theorem lt_length_of_call {p : Pool} {i : Nat} {failure : Option Refusal} {k : Call}
    (h : p.call? (.turn i failure) = some k) : i < p.programs.length := by
  apply Classical.byContradiction
  intro hlt
  have hi : p.programs[i]? = none := List.getElem?_eq_none (Nat.le_of_not_lt hlt)
  simp only [call?, hi] at h
  cases h

theorem step_of_no_call {p : Pool} {i : Nat} {failure : Option Refusal} (h : p.call? (.turn i failure) = none) :
    p.step (.turn i failure) = p := by
  match hi : p.programs[i]? with
  | some (.call r next) =>
    simp only [call?, hi] at h
    cases h
  | some (.done a) => simp only [step, hi]
  | none => simp only [step, hi]

theorem length_step (p : Pool) (m : Move) : p.programs.length ≤ (p.step m).programs.length := by
  cases m with
  | start q => simp [step]
  | turn i failure =>
    simp only [step]
    split <;> simp
  | put kind name o => exact Nat.le_refl _
  | remove kind name => exact Nat.le_refl _

theorem length_run (ms : List Move) : ∀ p : Pool, p.programs.length ≤ (p.run ms).programs.length := by
  induction ms with
  | nil => exact fun p => Nat.le_refl _
  | cons m ms ih => exact fun p => Nat.le_trans (p.length_step m) (ih _)

/-! ## The calls of a run -/

theorem run_append (p : Pool) (ms ms' : List Move) : p.run (ms ++ ms') = (p.run ms).run ms' := List.foldl_append

theorem calls_append (i : Nat) (ms ms' : List Move) : ∀ p : Pool,
    p.calls i (ms ++ ms') = p.calls i ms ++ (p.run ms).calls i ms' := by
  induction ms with
  | nil => exact fun p => rfl
  | cons m ms ih =>
    intro p
    rw [List.cons_append, calls, calls, ih, run_cons, List.append_assoc]

theorem calls_turn {p : Pool} {i : Nat} {failure : Option Refusal} {k : Call}
    (h : p.call? (.turn i failure) = some k) : p.calls i [.turn i failure] = [k] := by
  simp only [calls, Move.turn?, if_true, h, Option.toList_some, List.append_nil]

theorem calls_cons_of_idle {i : Nat} {p : Pool} (h : ∀ r next, p.programs[i]? ≠ some (.call r next)) (m : Move)
    (ms : List Move) : p.calls i (m :: ms) = (p.step m).calls i ms := by
  rw [calls]
  split
  · rename_i hm
    cases m with
    | turn j failure =>
      cases hm
      match hi : p.programs[i]? with
      | some (.call r next) => exact absurd hi (h r next)
      | some (.done a) => simp only [call?, hi, Option.toList_none, List.nil_append]
      | none => simp only [call?, hi, Option.toList_none, List.nil_append]
    | start | put | remove => cases hm
  · rfl

/-- Whoever has not been started makes no call. -/
theorem calls_eq_nil {i : Nat} : ∀ {ms : List Move} {p : Pool}, (p.run ms).programs.length ≤ i → p.calls i ms = []
  | [], _, _ => rfl
  | m :: ms, p, h => by
    have hnone : p.programs[i]? = none := List.getElem?_eq_none (Nat.le_trans (length_run (m :: ms) p) h)
    rw [calls_cons_of_idle (fun r next hi => nomatch hnone.symm.trans hi)]
    exact calls_eq_nil h

/-- A call is a move of the run. -/
theorem mem_calls {i : Nat} {k : Call} : ∀ {ms : List Move} {p : Pool}, k ∈ p.calls i ms →
    ∃ us m vs, ms = us ++ m :: vs ∧ (p.run us).call? m = some k
  | [], _, hk => nomatch hk
  | m :: ms, p, hk => by
    rcases List.mem_append.1 hk with hk | hk
    · split at hk
      · exact ⟨[], m, ms, rfl, Option.mem_toList.1 hk⟩
      · cases hk
    · obtain ⟨us, m', vs, rfl, hcall⟩ := mem_calls hk
      exact ⟨m :: us, m', vs, rfl, hcall⟩

/-! ## A program among others -/

variable {P : Conduct (Except Error Unit)}

theorem Follows.of_others {p : Pool} {i : Nat} {φ : P.Phase} {m : Move} (h : p.Follows P i φ) (hm : m.turn? ≠ some i) :
    (p.step m).Follows P i φ := by
  obtain ⟨rest, K, hi, hk, hK⟩ := h.keeps
  refine ⟨versioned_step h.versioned m, rest, K, programs_step hi hm, hk, ?_⟩
  rcases p.cluster_step m with e | w
  · rw [e]
    exact hK
  · exact K.lasts w hK

/-- **A turn of the program** takes it to the next phase by the call that it makes; one that is done makes none. -/
theorem Follows.turn {p : Pool} {i : Nat} {φ : P.Phase} (h : p.Follows P i φ) (failure : Option Refusal) :
    ∃ ψ, P.Path φ (p.call? (.turn i failure)).toList ψ ∧ (p.step (.turn i failure)).Follows P i ψ := by
  obtain ⟨rest, K, hi, hk, hK⟩ := h.keeps
  cases rest with
  | done a =>
    have hs : p.step (.turn i failure) = p := by simp only [step, hi]
    have hc : p.call? (.turn i failure) = none := by simp only [call?, hi]
    rw [hs, hc]
    exact ⟨φ, rfl, h⟩
  | call r next =>
    obtain ⟨ψ, K', hψ, hK', hn⟩ := hk failure p.cluster h.versioned hK
    have hs : p.step (.turn i failure) =
        ⟨Call.after ⟨r, failure, p.cluster⟩, p.programs.set i (next (Call.reply ⟨r, failure, p.cluster⟩))⟩ := by
      simp only [step, hi]
    have hc : p.call? (.turn i failure) = some ⟨r, failure, p.cluster⟩ := by simp only [call?, hi]
    have hv := versioned_step h.versioned (.turn i failure)
    obtain ⟨hlt, -⟩ := List.getElem?_eq_some_iff.1 hi
    rw [hs] at hv ⊢
    rw [hc]
    exact ⟨ψ, ⟨ψ, hψ, rfl⟩, hv, _, K', List.getElem?_set_self hlt, hn, hK'⟩

/-- **A program that keeps to a conduct keeps to it among others.** -/
theorem follows_run {i : Nat} : ∀ (ms : List Move) {p : Pool} {φ : P.Phase}, p.Follows P i φ →
    ∃ ψ, P.Path φ (p.calls i ms) ψ ∧ (p.run ms).Follows P i ψ
  | [], _, φ, h => ⟨φ, rfl, h⟩
  | m :: ms, p, φ, h => by
    by_cases hm : m.turn? = some i
    · cases m with
      | turn j failure =>
        cases hm
        obtain ⟨ψ, hψ, hs⟩ := h.turn failure
        obtain ⟨χ, hχ, hr⟩ := follows_run ms hs
        refine ⟨χ, ?_, hr⟩
        simp only [calls, Move.turn?, if_pos]
        exact hψ.append hχ
      | start q => cases hm
      | put kind name o => cases hm
      | remove kind name => cases hm
    · obtain ⟨ψ, hψ, hr⟩ := follows_run ms (h.of_others hm)
      refine ⟨ψ, ?_, hr⟩
      simp only [calls, if_neg hm, List.nil_append]
      exact hψ

/-- A program that is done ended as its conduct allows. -/
theorem Follows.ended {p : Pool} {i : Nat} {φ : P.Phase} {a : Except Error Unit} (h : p.Follows P i φ)
    (hi : p.programs[i]? = some (.done a)) : P.End φ a := by
  obtain ⟨rest, K, hr, hk, -⟩ := h.keeps
  rw [hi] at hr
  cases hr
  exact hk

theorem follows_started {p : Pool} {q : Action Unit} {φ : P.Phase} (hp : p.cluster.Versioned)
    (hq : q.run.Keeps P φ .nothing) : (p.step (.start q)).Follows P p.programs.length φ :=
  ⟨hp, q, .nothing, by simp [step], hq, trivial⟩

/-- **Programs that keep to conducts of their own** on their own keep to them together. -/
theorem follows_all {ι : Type} {P : ι → Conduct (Except Error Unit)} {φ : (x : ι) → (P x).Phase} {c : Cluster}
    (hc : c.Versioned) {ms : List Move} (hstart : ∀ q, .start q ∈ ms → ∃ x, q.run.Keeps (P x) (φ x) .nothing) {i : Nat}
    (hi : i < (run ⟨c, []⟩ ms).programs.length) :
    ∃ x ψ, (P x).Path (φ x) (calls i ⟨c, []⟩ ms) ψ ∧ (run ⟨c, []⟩ ms).Follows (P x) i ψ := by
  induction ms using List.reverseRecOn generalizing i with
  | nil => cases hi
  | append_singleton ms m ih =>
    rw [run_append] at hi ⊢
    rw [calls_append]
    by_cases hlt : i < (run ⟨c, []⟩ ms).programs.length
    · obtain ⟨x, ψ, hpath, hf⟩ := ih (fun q hq => hstart q (List.mem_append_left _ hq)) hlt
      obtain ⟨χ, hχ, hfχ⟩ := follows_run [m] hf
      exact ⟨x, χ, hpath.append hχ, hfχ⟩
    -- the last move can only have started it
    · rw [calls_eq_nil (Nat.le_of_not_lt hlt), List.nil_append]
      cases m with
      | start q =>
        obtain ⟨x, hx⟩ := hstart q (List.mem_append_right ms List.mem_cons_self)
        obtain rfl : i = (run ⟨c, []⟩ ms).programs.length := by
          simp only [run_cons, run_nil, step, List.length_append, List.length_singleton] at hi
          omega
        exact ⟨x, φ x, rfl, follows_started (versioned_run hc ms) hx⟩
      | turn j failure =>
        simp only [run_cons, run_nil, step] at hi
        split at hi
        · rw [List.length_set] at hi
          exact absurd hi hlt
        · exact absurd hi hlt
      | put kind name o => exact absurd hi hlt
      | remove kind name => exact absurd hi hlt

end Pool
end ServiceExposure
