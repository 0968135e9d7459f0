import ServiceExposure.Proofs.Cluster.Alone
/-!
# Actions that only read

What a program asks for with nobody else around is a list (`Program.requests`).  An action that finds everything in
order asks for no write and leaves the cluster as it is (`Action.OnlyReads`); so does a row of such actions, and an
attempt that succeeds at once.
-/
namespace ServiceExposure

namespace Program

variable {α β : Type}

/-- The requests that a program makes with nobody else around, the earliest first. -/
def requests : Program α → Cluster → List Request
  | .done _, _ => []
  | .call r next, c => r :: (next (c.serve r).1).requests (c.serve r).2

theorem requests_bind : ∀ (p : Program α) (f : α → Program β) (c : Cluster),
    (p >>= f).requests c = p.requests c ++ (f (p.runOn c).1).requests (p.runOn c).2
  | .done _, _, _ => rfl
  | .call r next, f, c => congrArg (r :: ·) (requests_bind (next (c.serve r).1) f (c.serve r).2)

end Program

namespace Action

variable {α β : Type} {a : α} {b : β} {c : Cluster}

/-- Alone on a cluster the action succeeds, and nothing is written on the way. -/
structure OnlyReads (x : Action α) (a : α) (c : Cluster) : Prop where
  alone : x.alone c = (.ok a, c)
  reads : ∀ q ∈ x.run.requests c, q.verb.isWrite = false

theorem onlyReads_done (a : α) (c : Cluster) : OnlyReads (ExceptT.mk (.done (.ok a))) a c :=
  ⟨rfl, fun _ h => nomatch h⟩

/-- A request that reads is answered, and nothing else happens. -/
theorem onlyReads_request {r : Request} {reply : r.Reply} (hr : r.verb.isWrite = false)
    (h : c.serve r = (.ok reply, c)) (reported : String) : (request r reported).OnlyReads reply c where
  alone := alone_request h reported
  reads q hq := by
    obtain rfl := List.mem_singleton.1 hq
    exact hr

theorem onlyReads_get (kind : Kind) (name reported : String) (c : Cluster) :
    (request (.get kind name) reported).OnlyReads (c.get? kind name) c := onlyReads_request rfl rfl reported

theorem onlyReads_list (kind : Kind) (selector reported : String) (c : Cluster) :
    (request (.list kind selector) reported).OnlyReads
      ((c.table kind).values.filter (fun o => Selector.matchesLabels selector (kind.metadata o).labelSet)) c :=
  onlyReads_request rfl rfl reported

/-- **One after the other.** -/
theorem OnlyReads.bind {x : Action α} {f : α → Action β} (hx : x.OnlyReads a c) (hf : (f a).OnlyReads b c) :
    (x >>= f).OnlyReads b c where
  alone := (alone_bind_ok hx.alone f).trans hf.alone
  reads q hq := by
    have hrun : x.run.runOn c = (.ok a, c) := hx.alone
    rw [ExceptT.run_bind, Program.requests_bind, hrun] at hq
    exact (List.mem_append.1 hq).elim (hx.reads q) (hf.reads q)

theorem onlyReads_forEach {f : α → Action Unit} : ∀ {xs : List α}, (∀ x ∈ xs, (f x).OnlyReads () c) →
    (forEach f xs).OnlyReads () c
  | [], _ => onlyReads_done () c
  | x :: _, h => (h x List.mem_cons_self).bind (onlyReads_forEach (fun y hy => h y (List.mem_cons_of_mem x hy)))

/-- The first attempt is the only one. -/
theorem OnlyReads.onConflict (policy : RetryPolicy) {x : Action α} (h : x.OnlyReads a c) :
    OnlyReads (ExceptT.mk (Retry.onConflict policy Error.isConflict (fun _ => x.run))) a c where
  alone := alone_onConflict policy h.alone (by rintro _ ⟨⟩)
  reads := by
    change ∀ q ∈ (Retry.onConflict policy Error.isConflict (fun _ => x.run)).requests c, q.verb.isWrite = false
    unfold Retry.onConflict
    cases policy.attempts - 1 with
    | zero => exact h.reads
    | succ more =>
      have hrun : x.run.runOn c = (.ok a, c) := h.alone
      intro q hq
      rw [Retry.attempt, Program.requests_bind, hrun] at hq
      exact (List.mem_append.1 hq).elim (h.reads q) (fun hq => absurd hq List.not_mem_nil)

end Action
end ServiceExposure
