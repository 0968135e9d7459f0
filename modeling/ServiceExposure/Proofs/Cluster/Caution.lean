import ServiceExposure.Proofs.Cluster.Pool
import ServiceExposure.Proofs.Cluster.Sending
/-!
# Caution: endings that come before any write

A program is cautious about an ending when it never comes to it after a write of its own that was served
(`Program.Cautious`), whatever it is answered on the way, so whatever is stored, fails or is written by others.  Where it
comes to such an ending, none of its calls has changed anything (`Pool.quiet_of_cautious`).  What reads only is cautious
about everything, and what never comes to an ending at all (`Program.Avoids`) is cautious about it.
-/
namespace ServiceExposure

theorem Cluster.serve_of_reads (c : Cluster) {q : Request} (hq : q.verb.isWrite = false) : (c.serve q).2 = c := by
  cases q with
  | get | list => rfl
  | create | replace | delete => cases hq

namespace Program

variable {α β : Type} {D E : α → Prop}

/-- The program asks for no write, whatever it is answered. -/
abbrev Reads (p : Program α) : Prop := p.Asks (fun _ _ => True) (fun q => q.verb.isWrite = false)

/-- The program never ends so, whatever it is answered. -/
def Avoids (E : α → Prop) : Program α → Prop
  | .done a => ¬ E a
  | .call _ next => ∀ reply, (next reply).Avoids E

/-- The program never ends so after a write of its own was served. -/
def Cautious (E : α → Prop) : Program α → Prop
  | .done _ => True
  | .call r next => ∀ reply, (next reply).Cautious E ∧
      (r.verb.isWrite = true → ∀ a, reply = .ok a → (next reply).Avoids E)

theorem Avoids.cautious : ∀ {p : Program α}, p.Avoids E → p.Cautious E
  | .done _, _ => trivial
  | .call _ _, h => fun reply => ⟨(h reply).cautious, fun _ _ _ => h reply⟩

theorem cautious_of_reads : ∀ {p : Program α}, p.Reads → p.Cautious E
  | .done _, _ => trivial
  | .call _ _, ⟨hr, hn⟩ => fun reply => ⟨cautious_of_reads (hn reply trivial), fun hw => absurd (hr.symm.trans hw) nofun⟩

theorem Avoids.imp (hE : ∀ a, E a → D a) : ∀ {p : Program α}, p.Avoids D → p.Avoids E
  | .done a, h => mt (hE a) h
  | .call _ _, h => fun reply => (h reply).imp hE

theorem Cautious.imp (hE : ∀ a, E a → D a) : ∀ {p : Program α}, p.Cautious D → p.Cautious E
  | .done _, _ => trivial
  | .call _ _, h => fun reply => ⟨(h reply).1.imp hE, fun hw a ha => ((h reply).2 hw a ha).imp hE⟩

theorem Avoids.bind {E : β → Prop} {f : α → Program β} (hf : ∀ a, ¬ D a → (f a).Avoids E) :
    ∀ {p : Program α}, p.Avoids D → (p >>= f).Avoids E
  | .done a, h => hf a h
  | .call _ _, h => fun reply => (h reply).bind hf

/-- **One program after the other**: where the first may have written, the second avoids the ending. -/
theorem Cautious.bind {E : β → Prop} {f : α → Program β} (hf : ∀ a, (f a).Cautious E)
    (hlate : ∀ a, ¬ D a → (f a).Avoids E) : ∀ {p : Program α}, p.Cautious D → (p >>= f).Cautious E
  | .done a, _ => hf a
  | .call _ _, h => fun reply => ⟨(h reply).1.bind hf hlate, fun hw a ha => ((h reply).2 hw a ha).bind hlate⟩

end Program

namespace Action

variable {α β : Type}

/-- The action fails so. -/
def Fails (E : Error → Prop) : Except Error α → Prop
  | .ok _ => False
  | .error e => E e

/-- The action never fails so, whatever it is answered. -/
abbrev Avoids (E : Error → Prop) (x : Action α) : Prop := x.run.Avoids (Fails E)

/-- The action fails so only before a write of its own was served. -/
abbrev Cautious (E : Error → Prop) (x : Action α) : Prop := x.run.Cautious (Fails E)

variable {E : Error → Prop}

theorem avoids_pure (a : α) : (pure a : Action α).Avoids E := id

theorem avoids_bind {x : Action α} {f : α → Action β} (hx : x.Avoids E) (hf : ∀ a, (f a).Avoids E) :
    (x >>= f).Avoids E := by
  unfold Avoids
  rw [ExceptT.run_bind]
  refine Program.Avoids.bind (fun a ha => ?_) hx
  cases a with
  | ok a => exact hf a
  | error e => exact ha

theorem cautious_bind {x : Action α} {f : α → Action β} (hx : x.Cautious E) (hf : ∀ a, (f a).Avoids E) :
    (x >>= f).Cautious E := by
  unfold Cautious
  rw [ExceptT.run_bind]
  refine Program.Cautious.bind (D := Fails E) (fun a => ?_) (fun a ha => ?_) hx
  · cases a with
    | ok a => exact (hf a).cautious
    | error e => trivial
  · cases a with
    | ok a => exact hf a
    | error e => exact ha

theorem cautious_after_reads {x : Action α} {f : α → Action β} (hx : x.run.Reads) (hf : ∀ a, (f a).Cautious E) :
    (x >>= f).Cautious E := by
  unfold Cautious
  rw [ExceptT.run_bind]
  refine Program.Cautious.bind (D := fun _ => True) (fun a => ?_) (fun a ha => absurd trivial ha)
    (Program.cautious_of_reads hx)
  cases a with
  | ok a => exact hf a
  | error e => trivial

theorem avoids_request {r : Request} {reported : String}
    (hE : ∀ why, ¬ E (.api r.verb r.kind reported why)) : (request r reported).Avoids E := by
  intro reply
  cases reply with
  | ok a => exact id
  | error why => exact hE why

/-- Whatever a request is refused for, it is not served then. -/
theorem cautious_request (r : Request) (reported : String) : (request r reported).Cautious E := by
  intro reply
  refine ⟨trivial, fun _ a ha => ?_⟩
  subst ha
  exact id

theorem avoids_forEach {f : α → Action Unit} (hf : ∀ a, (f a).Avoids E) : ∀ xs : List α, (forEach f xs).Avoids E
  | [] => id
  | x :: xs => avoids_bind (hf x) (fun _ => avoids_forEach hf xs)

theorem avoids_onConflict {x : Action α} (policy : RetryPolicy) (hx : x.Avoids E) :
    Avoids E (ExceptT.mk (Retry.onConflict policy Error.isConflict (fun _ => x.run))) := by
  change Program.Avoids (Fails E) (Retry.attempt Error.isConflict (fun _ => x.run) 1 (policy.attempts - 1))
  generalize policy.attempts - 1 = more
  generalize 1 = n
  induction more generalizing n with
  | zero => exact hx
  | succ more ih =>
    refine Program.Avoids.bind (D := Fails E) (fun a ha => ?_) hx
    cases a with
    | ok a => exact id
    | error e =>
      dsimp only
      split
      · exact ih (n + 1)
      · exact ha

/-- **Attempts of a cycle whose write comes last**: once the write was served there is no other attempt. -/
theorem cautious_onConflict {x : Action α} (policy : RetryPolicy) (hx : x.Cautious (fun _ => True)) :
    Cautious E (ExceptT.mk (Retry.onConflict policy Error.isConflict (fun _ => x.run))) := by
  change Program.Cautious (Fails E) (Retry.attempt Error.isConflict (fun _ => x.run) 1 (policy.attempts - 1))
  generalize policy.attempts - 1 = more
  generalize 1 = n
  induction more generalizing n with
  | zero =>
    refine Program.Cautious.imp (fun a ha => ?_) hx
    cases a with
    | ok b => exact ha
    | error e => trivial
  | succ more ih =>
    refine Program.Cautious.bind (D := Fails (fun _ => True)) (fun a => ?_) (fun a ha => ?_) hx
    · cases a with
      | ok b => trivial
      | error e =>
        dsimp only
        split
        · exact ih (n + 1)
        · trivial
    · cases a with
      | ok b => exact id
      | error e => exact absurd trivial ha

end Action

/-! ## Among others -/

namespace Call

theorem quiet_or_served (k : Call) : k.Quiet ∨ k.request.verb.isWrite = true ∧ ∃ a, k.reply = .ok a := by
  obtain ⟨r, failure, c⟩ := k
  cases failure with
  | some why => exact .inl rfl
  | none =>
    cases r with
    | get kind name | list kind selector => exact .inl rfl
    | create kind o =>
      simp only [Quiet, after, reply, Cluster.serve]
      split
      · exact .inl rfl
      · exact .inr ⟨rfl, (), rfl⟩
    | replace kind name o =>
      simp only [Quiet, after, reply, Cluster.serve]
      split
      · exact .inl rfl
      · split
        · exact .inr ⟨rfl, (), rfl⟩
        · exact .inl rfl
    | delete kind name =>
      simp only [Quiet, after, reply, Cluster.serve]
      split
      · exact .inl rfl
      · exact .inr ⟨rfl, (), rfl⟩

end Call

namespace Pool

variable {E : Except Error Unit → Prop} {i : Nat}

/-- Whether a program was started and has failed with that error. -/
instance decidableFailed (p : Option (Action Unit)) (e : Error) : Decidable (p = some (.done (.error e))) :=
  match p with
  | none | some (.call _ _) | some (.done (.ok ())) => isFalse nofun
  | some (.done (.error e')) => if h : e' = e then isTrue (by rw [h]) else isFalse (fun he => by cases he; exact h rfl)

theorem programs_run_done {a : Except Error Unit} : ∀ (ms : List Move) {p : Pool}, p.programs[i]? = some (.done a) →
    (p.run ms).programs[i]? = some (.done a) ∧ p.calls i ms = []
  | [], _, h => ⟨h, rfl⟩
  | m :: ms, p, h => by
    have hstep : (p.step m).programs[i]? = some (.done a) := by
      by_cases hm : m.turn? = some i
      · cases m with
        | turn j failure =>
          cases hm
          simp only [step, h]
        | start | put | remove => cases hm
      · exact programs_step h hm
    have hidle : ∀ r next, p.programs[i]? ≠ some (.call r next) := by
      intro r next hi
      rw [h] at hi
      cases hi
    obtain ⟨hrun, hcalls⟩ := programs_run_done ms hstep
    exact ⟨hrun, (calls_cons_of_idle hidle m ms).trans hcalls⟩

theorem turn_call {p : Pool} {r : Request} {next : Except Refusal r.Reply → Action Unit} (failure : Option Refusal)
    (h : p.programs[i]? = some (.call r next)) :
    p.call? (.turn i failure) = some ⟨r, failure, p.cluster⟩ ∧
      (p.step (.turn i failure)).programs[i]? = some (next (Call.reply ⟨r, failure, p.cluster⟩)) := by
  obtain ⟨hlt, -⟩ := List.getElem?_eq_some_iff.1 h
  refine ⟨by simp only [call?, h], ?_⟩
  simp only [step, h]
  exact List.getElem?_set_self hlt

theorem not_ends_of_avoids : ∀ (ms : List Move) {p : Pool} {q : Action Unit}, p.programs[i]? = some q → q.run.Avoids E →
    ∀ {a}, (p.run ms).programs[i]? = some (.done a) → ¬ E a
  | [], p, q, hi, hq, a, ha => by
    obtain rfl := Option.some.inj (hi.symm.trans ha)
    exact hq
  | m :: ms, p, q, hi, hq, a, ha => by
    by_cases hm : m.turn? = some i
    · cases m with
      | start | put | remove => cases hm
      | turn j failure =>
        cases hm
        match q, hq with
        | .done b, hq =>
          cases ((programs_run_done (.turn i failure :: ms) hi).1.symm.trans ha)
          exact hq
        | .call r next, hq => exact not_ends_of_avoids ms (turn_call failure hi).2 (hq _) ha
    · exact not_ends_of_avoids ms (programs_step hi hm) hq ha

/-- **A program that ends as it is cautious about has changed nothing**, whatever else happens in the pool. -/
theorem quiet_of_cautious : ∀ (ms : List Move) {p : Pool} {q : Action Unit}, p.programs[i]? = some q →
    q.run.Cautious E → ∀ {a}, (p.run ms).programs[i]? = some (.done a) → E a → ∀ k ∈ p.calls i ms, k.Quiet
  | [], _, _, _, _, _, _, _ => fun k hk => nomatch hk
  | m :: ms, p, q, hi, hq, a, ha, he => by
    intro k hk
    by_cases hm : m.turn? = some i
    · cases m with
      | start | put | remove => cases hm
      | turn j failure =>
        cases hm
        match q, hq with
        | .done b, hq =>
          rw [(programs_run_done (.turn i failure :: ms) hi).2] at hk
          cases hk
        | .call r next, hq =>
          obtain ⟨hcall, hnext⟩ := turn_call failure hi
          rw [calls, Move.turn?, if_pos rfl, hcall, Option.toList_some, List.singleton_append] at hk
          obtain ⟨hcautious, havoids⟩ := hq (Call.reply ⟨r, failure, p.cluster⟩)
          rcases List.mem_cons.1 hk with rfl | hk
          · rcases Call.quiet_or_served ⟨r, failure, p.cluster⟩ with hquiet | ⟨hw, b, hb⟩
            · exact hquiet
            · exact absurd he (not_ends_of_avoids ms hnext (havoids hw b hb) ha)
          · exact quiet_of_cautious ms hnext hcautious ha he k hk
    · rw [calls, if_neg hm, List.nil_append] at hk
      exact quiet_of_cautious ms (programs_step hi hm) hq ha he k hk

end Pool
end ServiceExposure
