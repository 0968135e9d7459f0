import ServiceExposure.Proofs.Cluster.Alone
import ServiceExposure.Proofs.Cluster.Conduct
/-!
# Programs that are cut off

A program may be cut off between any two of its calls, and calls may fail before that (`Program.cut`).  What holds of the
cluster then is what the program maintains: it holds in the beginning and after every call, served or failed
(`Program.Maintains.cut`).  One program after the other maintains what both maintain, and so do attempts and loops.
-/
namespace ServiceExposure

variable {α β : Type} {I : Cluster → Prop} {c : Cluster}

namespace Program

/-- The cluster after some calls of a program, each of which is served or fails.  Of what comes after them nobody hears
any more. -/
def cut : List (Option Refusal) → Program α → Cluster → Cluster
  | [], _, c => c
  | _ :: _, .done _, c => c
  | failure :: failures, .call r next, c =>
    (next (Call.reply ⟨r, failure, c⟩)).cut failures (Call.after ⟨r, failure, c⟩)

/-- After every call of the program `I` holds of the cluster, whichever calls fail. -/
def Maintains (I : Cluster → Prop) : Program α → Cluster → Prop
  | .done _, _ => True
  | .call r next, c => ∀ failure : Option Refusal, I (Call.after ⟨r, failure, c⟩) ∧
      (next (Call.reply ⟨r, failure, c⟩)).Maintains I (Call.after ⟨r, failure, c⟩)

/-- **What is maintained holds wherever the program is cut off.** -/
theorem Maintains.cut : ∀ {failures : List (Option Refusal)} {p : Program α} {c : Cluster}, p.Maintains I c → I c →
    I (p.cut failures c)
  | [], _, _, _, h => h
  | _ :: _, .done _, _, _, h => h
  | failure :: _, .call _ _, _, hp, _ => (hp failure).2.cut (hp failure).1

theorem Maintains.bind {f : α → Program β} (hf : ∀ a c, I c → (f a).Maintains I c) : ∀ {p : Program α} {c : Cluster},
    p.Maintains I c → I c → (p >>= f).Maintains I c
  | .done a, c, _, h => hf a c h
  | .call _ _, _, hp, _ => fun failure => ⟨(hp failure).1, Maintains.bind hf (hp failure).2 (hp failure).1⟩

theorem Maintains.attempt {ε : Type} {op : Nat → Program (Except ε α)} (hop : ∀ n c, I c → (op n).Maintains I c)
    (isConflict : ε → Bool) : ∀ more n {c : Cluster}, I c → (Retry.attempt isConflict op n more).Maintains I c
  | 0, n, c, h => hop n c h
  | more + 1, n, c, h => by
    refine Maintains.bind (fun a c' h' => ?_) (hop n c h) h
    match a with
    | .ok a => trivial
    | .error e =>
      dsimp only
      split
      · exact Maintains.attempt hop isConflict more (n + 1) h'
      · trivial

/-- A program of one call. -/
theorem maintains_call {r : Request} {g : Except Refusal r.Reply → α} (h : I c) (hs : I (c.serve r).2) :
    Program.Maintains I (.call r (fun reply => .done (g reply))) c := by
  intro failure
  cases failure with
  | none => exact ⟨hs, trivial⟩
  | some why => exact ⟨h, trivial⟩

end Program

namespace Action

theorem maintains_bind {x : Action α} {f : α → Action β} (hx : x.run.Maintains I c)
    (hf : ∀ a c, I c → (f a).run.Maintains I c) (h : I c) : (x >>= f).run.Maintains I c := by
  rw [ExceptT.run_bind]
  refine Program.Maintains.bind (fun a c' h' => ?_) hx h
  cases a with
  | ok a => exact hf a c' h'
  | error e => trivial

/-- Whatever follows a request that only reads knows what was read. -/
theorem maintains_read {r : Request} {reply : r.Reply} (hr : c.serve r = (.ok reply, c)) {reported : String}
    {f : r.Reply → Action α} (hf : (f reply).run.Maintains I c) (h : I c) :
    (request r reported >>= f).run.Maintains I c := by
  intro failure
  cases failure with
  | none =>
    have hreply : Call.reply ⟨r, none, c⟩ = .ok reply := congrArg Prod.fst hr
    have hafter : Call.after ⟨r, none, c⟩ = c := congrArg Prod.snd hr
    rw [hreply, hafter]
    exact ⟨h, hf⟩
  | some why => exact ⟨h, trivial⟩

theorem maintains_get {kind : Kind} {name reported : String} {f : Option kind.Object → Action α}
    (hf : (f (c.get? kind name)).run.Maintains I c) (h : I c) :
    (request (.get kind name) reported >>= f).run.Maintains I c := by
  have hr : c.serve (.get kind name) = (.ok (c.get? kind name), c) := rfl
  exact maintains_read hr hf h

theorem maintains_list {kind : Kind} {selector reported : String} {f : List kind.Object → Action α}
    (hf : (f ((c.table kind).values.filter
      (fun o => Selector.matchesLabels selector (kind.metadata o).labelSet))).run.Maintains I c) (h : I c) :
    (request (.list kind selector) reported >>= f).run.Maintains I c := by
  have hr : c.serve (.list kind selector) = (.ok ((c.table kind).values.filter
    (fun o => Selector.matchesLabels selector (kind.metadata o).labelSet)), c) := rfl
  exact maintains_read hr hf h

theorem maintains_forEach {f : α → Action Unit} : ∀ {xs : List α}, (∀ x ∈ xs, ∀ c, I c → (f x).run.Maintains I c) →
    ∀ {c}, I c → (forEach f xs).run.Maintains I c
  | [], _, _, _ => trivial
  | x :: _, hf, c, h => maintains_bind (hf x List.mem_cons_self c h)
      (fun _ _ h' => maintains_forEach (fun y hy => hf y (List.mem_cons_of_mem x hy)) h') h

theorem maintains_onConflict (policy : RetryPolicy) {x : Action α} (hx : ∀ c, I c → x.run.Maintains I c) (h : I c) :
    (ExceptT.mk (Retry.onConflict policy Error.isConflict (fun _ => x.run))).run.Maintains I c :=
  Program.Maintains.attempt (fun _ => hx) Error.isConflict _ _ h

end Action
end ServiceExposure
