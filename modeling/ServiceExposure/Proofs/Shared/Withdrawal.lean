import ServiceExposure.Proofs.Shared.Converge
import ServiceExposure.Proofs.Shared.LoadBalancer
/-!
# Contributors that withdraw from the load balancer

Whoever revises the load balancer keeps the ports of the others (`LoadBalancer.filter_revise`).  But whoever has seen no
port that it would keep deletes the Service, and does so without regard to what stands there by then.  So the ports of a
contributor stay until another one's deletion is served, and are lost with it (`LoadBalancer.others_keep_ports_iff`).
-/
namespace ServiceExposure

/-- Deletes an object, whatever stands there. -/
def Call.Deletes (k : Call) (kind : Kind) (name : String) : Prop := k.request = .delete kind name ∧ k.failure = none

namespace Pool

/-- The calls of all programs during a run, the earliest first. -/
def history : Pool → List Move → List Call
  | _, [] => []
  | p, m :: ms => (p.call? m).toList ++ history (p.step m) ms

end Pool

namespace LoadBalancer

/-! ## One call of another contributor -/

theorem portsOf_effect {l : LoadBalancer} {contributor : Contributor} {desired : ExposedPorts} {c c' : Cluster}
    (hv : desired.Valid) (h : l.resource.Effect contributor desired c c') {other : String}
    (hne : contributor.name ≠ other) : l.portsOf other c' = l.portsOf other c := by
  obtain ⟨change, hp, rfl⟩ := h
  cases hp
  unfold portsOf
  rw [← filter_revise (l.portsIn c) hv.forwardable hne, ← portsIn_commit]
  rfl

theorem portsOf_deletes {l : LoadBalancer} {k : Call} (h : k.Deletes .service l.name) (service : String) :
    l.portsOf service k.after = [] := by
  obtain ⟨r, failure, c⟩ := k
  obtain ⟨rfl, rfl⟩ : r = .delete .service l.name ∧ failure = none := h
  have hnone : (Call.after ⟨.delete .service l.name, none, c⟩).get? .service l.name = none := by
    cases hg : c.get? .service l.name with
    | none => simp only [Call.after, Cluster.serve, hg]
    | some o => simp only [Call.after, Cluster.serve, hg, Cluster.get?_remove_self]
  unfold portsOf portsIn
  rw [hnone]
  rfl

/-- **A call of another contributor** keeps the ports of a service, unless it deletes the load balancer. -/
theorem portsOf_call {l : LoadBalancer} {contributor : Contributor} {desired : ExposedPorts} (hv : desired.Valid)
    {φ ψ : SharedResource.Progress} {k : Call} (h : l.resource.ConvergeStep contributor desired φ k ψ) {other : String}
    (hne : contributor.name ≠ other) (hd : ¬ k.Deletes .service l.name) :
    l.portsOf other k.after = l.portsOf other k.before := by
  cases h with
  | quiet hq => rw [hq]
  | effect he => exact portsOf_effect hv he hne
  | delete read hp hr =>
    obtain ⟨r, failure, c⟩ := k
    cases failure with
    | some why => rfl
    | none => exact absurd ⟨hr, rfl⟩ hd

/-! ## Contributors at the same time -/

/-- What contributors do: one comes in with the ports that it desires, or makes its next call. -/
inductive Turn where
  | enter (contributor : Contributor) (desired : ExposedPorts)
  | call (i : Nat) (failure : Option Refusal)

namespace Turn

def move (l : LoadBalancer) (retry : RetryPolicy) : Turn → Pool.Move
  | .enter contributor desired => .start (l.resource.converge retry contributor desired)
  | .call i failure => .turn i failure

def entrant? : Turn → Option (Contributor × ExposedPorts)
  | .enter contributor desired => some (contributor, desired)
  | .call _ _ => none

end Turn

/-- Who comes in, in order. -/
def entrants (ts : List Turn) : List (Contributor × ExposedPorts) := ts.filterMap Turn.entrant?

theorem entrants_cons (t : Turn) (ts : List Turn) : entrants (t :: ts) = t.entrant?.toList ++ entrants ts := by
  cases t <;> rfl

/-- Every program of a pool is the convergence of the contributor in its place. -/
structure Crew (l : LoadBalancer) (p : Pool) (crew : List (Contributor × ExposedPorts)) : Prop where
  size : p.programs.length = crew.length
  versioned : p.cluster.Versioned
  follows : ∀ {i m}, crew[i]? = some m → ∃ φ, p.Follows (l.resource.conduct m.1 m.2) i φ

theorem Crew.step {l : LoadBalancer} {retry : RetryPolicy} {p : Pool} {crew : List (Contributor × ExposedPorts)}
    (h : l.Crew p crew) (t : Turn) : l.Crew (p.step (t.move l retry)) (crew ++ t.entrant?.toList) := by
  cases t with
  | enter contributor desired =>
    refine ⟨by simp [Turn.move, Turn.entrant?, Pool.step, h.size], h.versioned, fun {i m} hi => ?_⟩
    simp only [Turn.entrant?, Option.toList_some] at hi
    by_cases hlt : i < crew.length
    · rw [List.getElem?_append_left hlt] at hi
      obtain ⟨φ, hf⟩ := h.follows hi
      exact ⟨φ, hf.of_others (fun e => by cases e)⟩
    · obtain ⟨hlt', -⟩ := List.getElem?_eq_some_iff.1 hi
      have hlast : i = p.programs.length := by
        rw [List.length_append, List.length_singleton] at hlt'
        rw [h.size]
        omega
      rw [hlast, h.size, List.getElem?_append_right (Nat.le_refl _), Nat.sub_self] at hi
      cases hi
      rw [hlast]
      exact ⟨_, SharedResource.follows_start l.guarded retry h.versioned⟩
  | call i failure =>
    have hsize : (p.step (.turn i failure)).programs.length = p.programs.length := by
      simp only [Pool.step]
      split <;> simp
    refine ⟨by simp [Turn.move, Turn.entrant?, hsize, h.size], Pool.versioned_step h.versioned _, fun {j m} hj => ?_⟩
    simp only [Turn.entrant?, Option.toList_none, List.append_nil] at hj
    obtain ⟨φ, hf⟩ := h.follows hj
    by_cases hij : i = j
    · subst hij
      obtain ⟨ψ, -, hψ⟩ := hf.turn failure
      exact ⟨ψ, hψ⟩
    · exact ⟨φ, hf.of_others (fun e => hij (Option.some.inj e))⟩

/-- Only others than a service make calls, and none of them desires an invalid port. -/
structure Aside (service : String) (crew : List (Contributor × ExposedPorts)) (ts : List Turn) : Prop where
  valid : ∀ m ∈ crew ++ entrants ts, m.2.Valid
  others : ∀ {i failure m}, Turn.call i failure ∈ ts → (crew ++ entrants ts)[i]? = some m →
    m.1.name ≠ service

theorem Aside.tail {service : String} {crew : List (Contributor × ExposedPorts)} {t : Turn} {ts : List Turn}
    (h : Aside service crew (t :: ts)) : Aside service (crew ++ t.entrant?.toList) ts := by
  have hcrew : crew ++ entrants (t :: ts) = crew ++ t.entrant?.toList ++ entrants ts := by
    rw [entrants_cons, List.append_assoc]
  exact ⟨hcrew ▸ h.valid, fun ht hi => h.others (List.mem_cons_of_mem t ht) (hcrew ▸ hi)⟩

/-- A turn of another contributor keeps the ports of a service, unless it deletes the load balancer. -/
theorem portsOf_turn {l : LoadBalancer} {retry : RetryPolicy} {service : String} {p : Pool}
    {crew : List (Contributor × ExposedPorts)} {t : Turn} {ts : List Turn} (hc : l.Crew p crew)
    (ha : Aside service crew (t :: ts)) (hd : ∀ k ∈ p.call? (t.move l retry), ¬ k.Deletes .service l.name) :
    l.portsOf service (p.step (t.move l retry)).cluster = l.portsOf service p.cluster := by
  cases t with
  | enter contributor desired => rfl
  | call i failure =>
    cases hk : p.call? (.turn i failure) with
    | none => exact congrArg (fun q : Pool => l.portsOf service q.cluster) (Pool.step_of_no_call hk)
    | some k =>
      obtain ⟨hb, hafter⟩ := Pool.cluster_step_of_call hk
      obtain ⟨m, hm⟩ : ∃ m, crew[i]? = some m := by
        refine ⟨_, List.getElem?_eq_getElem ?_⟩
        rw [← hc.size]
        exact Pool.lt_length_of_call hk
      have hm' : (crew ++ entrants (.call i failure :: ts))[i]? = some m := by
        obtain ⟨hlt, -⟩ := List.getElem?_eq_some_iff.1 hm
        rw [List.getElem?_append_left hlt, hm]
      obtain ⟨φ, hf⟩ := hc.follows hm
      obtain ⟨ψ, hpath, -⟩ := hf.turn failure
      rw [hk] at hpath
      obtain ⟨_, hstep, rfl⟩ := hpath
      change l.portsOf service (p.step (.turn i failure)).cluster = _
      rw [hafter, ← hb]
      exact portsOf_call (ha.valid m (List.mem_of_getElem? hm')) hstep (ha.others List.mem_cons_self hm') (hd k hk)

/-- **The ports of a service while only others make calls**: they stay as they are, unless there were none or the load
balancer is deleted. -/
theorem portsOf_run {l : LoadBalancer} (retry : RetryPolicy) {service : String} :
    ∀ {ts : List Turn} {p : Pool} {crew : List (Contributor × ExposedPorts)}, l.Crew p crew → Aside service crew ts →
      ((∀ k ∈ p.history (ts.map (Turn.move l retry)), ¬ k.Deletes .service l.name) →
        l.portsOf service (p.run (ts.map (Turn.move l retry))).cluster = l.portsOf service p.cluster) ∧
      ((∃ k ∈ p.history (ts.map (Turn.move l retry)), k.Deletes .service l.name) ∨ l.portsOf service p.cluster = [] →
        l.portsOf service (p.run (ts.map (Turn.move l retry))).cluster = [])
  | [], p, _, _, _ => by
    refine ⟨fun _ => rfl, fun h => ?_⟩
    rcases h with ⟨k, hk, -⟩ | h
    · cases hk
    · exact h
  | t :: ts, p, crew, hc, ha => by
    obtain ⟨hkeep, hlose⟩ := portsOf_run retry (hc.step t) ha.tail
    simp only [List.map_cons, Pool.history, Pool.run_cons, List.mem_append, Option.mem_toList]
    constructor
    · intro hd
      rw [hkeep (fun k hk => hd k (.inr hk)), portsOf_turn hc ha (fun k hk => hd k (.inl hk))]
    · intro h
      apply hlose
      by_cases hd : ∃ k ∈ p.call? (t.move l retry), k.Deletes .service l.name
      · obtain ⟨k, hk, hd⟩ := hd
        rw [(Pool.cluster_step_of_call hk).2]
        exact .inr (portsOf_deletes hd service)
      · have hd : ∀ k ∈ p.call? (t.move l retry), ¬ k.Deletes .service l.name := fun k hk h => hd ⟨k, hk, h⟩
        rcases h with ⟨k, hk | hk, hk'⟩ | h
        · exact absurd hk' (hd k hk)
        · exact .inl ⟨k, hk, hk'⟩
        · rw [portsOf_turn hc ha hd]
          exact .inr h

theorem crew_run {l : LoadBalancer} {retry : RetryPolicy} : ∀ {ts : List Turn} {p : Pool}
    {crew : List (Contributor × ExposedPorts)}, l.Crew p crew →
      l.Crew (p.run (ts.map (Turn.move l retry))) (crew ++ entrants ts)
  | [], _, crew, h => by
    rw [entrants, List.filterMap_nil, List.append_nil]
    exact h
  | t :: ts, p, crew, h => by
    rw [entrants_cons, ← List.append_assoc]
    exact crew_run (h.step t)

/-- **When the ports of a service outlast the others.**  Contributors came in and made calls in any order, on any
cluster.  From then on, while the service makes no call, its ports on the load balancer stay as they are exactly if it
had none or nobody's deletion of the load balancer is served. -/
theorem others_keep_ports_iff (l : LoadBalancer) (retry : RetryPolicy) (service : String) {c : Cluster}
    (hc : c.Versioned) (before after : List Turn) (ha : Aside service (entrants before) after) :
    let p := Pool.run ⟨c, []⟩ (before.map (Turn.move l retry))
    l.portsOf service (p.run (after.map (Turn.move l retry))).cluster = l.portsOf service p.cluster ↔
      l.portsOf service p.cluster = [] ∨
      ∀ k ∈ p.history (after.map (Turn.move l retry)), ¬ k.Deletes .service l.name := by
  intro p
  have hcrew : l.Crew p (entrants before) := by
    have h0 : l.Crew ⟨c, []⟩ [] := ⟨rfl, hc, fun hi => by cases hi⟩
    exact crew_run h0
  obtain ⟨hkeep, hlose⟩ := portsOf_run retry hcrew ha
  constructor
  · intro h
    apply Classical.byContradiction
    intro hn
    rw [not_or] at hn
    obtain ⟨k, hk⟩ := Classical.not_forall.1 hn.2
    obtain ⟨hk, hd⟩ := Classical.not_imp.1 hk
    exact hn.1 (h.symm.trans (hlose (.inl ⟨k, hk, Classical.not_not.1 hd⟩)))
  · rintro (h | h)
    · rw [hlose (.inr h), h]
    · exact hkeep h

/-- A load balancer to try things on. -/
def sample : LoadBalancer := ⟨"nginx-ingress-exposed", "ecosystem", .empty⟩

/-- A contributor with one port comes in and is done. -/
def arrival (i : Nat) (service : String) (port : Int) : List Turn :=
  [.enter ⟨"ecosystem", service⟩ (.ofList [⟨.tcp, port, port⟩]), .call i none, .call i none]

/-- The ports of a service outlast the arrival of another one. -/
theorem arrival_keeps_ports :
    let p := Pool.run ⟨{}, []⟩ ((arrival 0 "scm" 2222).map (Turn.move sample .standard))
    sample.portsOf "scm" p.cluster ≠ [] ∧
      sample.portsOf "scm" (p.run ((arrival 1 "ldap" 389).map (Turn.move sample .standard))).cluster =
        sample.portsOf "scm" p.cluster := by
  have ha : Aside "scm" (entrants (arrival 0 "scm" 2222)) (arrival 1 "ldap" 389) := by
    refine ⟨by decide, fun {i failure m} ht hm => ?_⟩
    have hi : i = 1 := by
      simp only [arrival, List.mem_cons, Turn.call.injEq, reduceCtorEq, List.not_mem_nil, false_or, or_false] at ht
      omega
    subst hi
    cases hm
    decide
  have hcalls : ((Pool.run ⟨{}, []⟩ ((arrival 0 "scm" 2222).map (Turn.move sample .standard))).history
      ((arrival 1 "ldap" 389).map (Turn.move sample .standard))).map (·.request.verb) = [.get, .replace] := by
    decide +kernel
  refine ⟨by decide +kernel, (others_keep_ports_iff sample .standard "scm" Cluster.versioned_empty
    (arrival 0 "scm" 2222) (arrival 1 "ldap" 389) ha).2 (.inr fun k hk hd => ?_)⟩
  have hverb : k.request.verb ∈ [Verb.get, .replace] := hcalls ▸ List.mem_map_of_mem hk
  rw [hd.1] at hverb
  exact absurd hverb (by decide)

/-- A contributor reads the load balancer, on which it finds only the port that it withdraws; then another one comes
in. -/
def lateWithdrawal : List Turn :=
  arrival 0 "scm" 2222 ++ [.enter ⟨"ecosystem", "scm"⟩ .empty, .call 1 none] ++ arrival 2 "ldap" 389

/-- **A late withdrawal takes the port of the other contributor along**, which is done and makes no call any more. -/
theorem lateWithdrawal_loses_port :
    let p := Pool.run {} (lateWithdrawal.map (Turn.move sample .standard))
    let q := p.run ([.call 1 none].map (Turn.move sample .standard))
    p.programs[2]? = some (.done (.ok ())) ∧ (sample.portsOf "ldap" p.cluster).map (·.name) = [some "ldap-389"] ∧
      q.programs[1]? = some (.done (.ok ())) ∧ sample.portsOf "ldap" q.cluster = [] :=
  ⟨by decide +kernel, by decide +kernel, by decide +kernel, by decide +kernel⟩

end LoadBalancer
end ServiceExposure
