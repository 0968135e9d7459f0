import ServiceExposure.Error
import ServiceExposure.Retry
import ServiceExposure.Proofs.Cluster.Versions
/-!
# Conduct: what a program does while others write

A program that runs beside others finds another cluster at each of its requests.  A `Conduct` says in phases what the
program may do to the cluster nevertheless: which calls it may make, and how it may end.  The program can only rely on
`Knowledge`, which is what stays true whatever others write (`Program.Keeps`).  `Keeps.bind` puts programs together whose
phases are phases of one conduct.  A program may make its change at once, with the last of its calls
(`Conduct.AtOnce.path_cases`).
-/
namespace ServiceExposure

/-- A request that was made: the cluster served it, or it failed and changed nothing. -/
structure Call where
  request : Request
  /-- Why it failed, where it did not reach the cluster. -/
  failure : Option Refusal
  before : Cluster

namespace Call

def reply (k : Call) : Except Refusal k.request.Reply :=
  match k.failure with
  | none => (k.before.serve k.request).1
  | some why => .error why

/-- The cluster after the call. -/
def after (k : Call) : Cluster :=
  match k.failure with
  | none => (k.before.serve k.request).2
  | some _ => k.before

/-- Nothing was changed. -/
def Quiet (k : Call) : Prop := k.after = k.before

theorem Quiet.of_failure (r : Request) (why : Refusal) (c : Cluster) : (⟨r, some why, c⟩ : Call).Quiet := rfl

theorem quiet_or_write (k : Call) : k.Quiet ∨ k.before.Write k.after := by
  unfold Quiet after
  cases k.failure with
  | none => exact k.before.serve_eq_or_write k.request
  | some why => exact .inl rfl

theorem versioned_after {k : Call} (h : k.before.Versioned) : k.after.Versioned := by
  rcases k.quiet_or_write with hq | hw
  · rw [hq]
    exact h
  · exact h.write hw

end Call

/-- Something about the cluster that stays true whatever anybody writes. -/
structure Knowledge where
  Holds : Cluster → Prop
  lasts : ∀ {c c' : Cluster}, c.Write c' → Holds c → Holds c'

namespace Knowledge

def nothing : Knowledge := ⟨fun _ => True, fun _ _ => trivial⟩

/-- An object was read. -/
def read (kind : Kind) (name : String) (o : kind.Object) : Knowledge :=
  ⟨Cluster.Recalls kind name o, fun w h => h.write w⟩

end Knowledge

/-- What a program may do to the cluster, in phases. -/
structure Conduct (α : Type) where
  Phase : Type
  /-- Which calls may be made in a phase, and which phase comes next. -/
  Step : Phase → Call → Phase → Prop
  /-- How the program may end in a phase. -/
  End : Phase → α → Prop

namespace Conduct

/-- A row of calls, made one after the other from one phase to another. -/
def Path {α : Type} (P : Conduct α) : P.Phase → List Call → P.Phase → Prop
  | φ, [], χ => φ = χ
  | φ, k :: ks, χ => ∃ ψ, P.Step φ k ψ ∧ P.Path ψ ks χ

theorem Path.append {α : Type} {P : Conduct α} : ∀ {ks ks' : List Call} {φ ψ χ : P.Phase}, P.Path φ ks ψ →
    P.Path ψ ks' χ → P.Path φ (ks ++ ks') χ
  | [], _, _, _, _, rfl, h' => h'
  | _ :: _, _, _, _, _, ⟨ψ, hs, h⟩, h' => ⟨ψ, hs, h.append h'⟩

/-- The last call of a row. -/
theorem Path.last {α : Type} {P : Conduct α} : ∀ {ks : List Call} {k : Call} {φ χ : P.Phase}, P.Path φ (ks ++ [k]) χ →
    ∃ ψ, P.Path φ ks ψ ∧ P.Step ψ k χ
  | [], _, φ, _, ⟨_, hs, rfl⟩ => ⟨φ, rfl, hs⟩
  | _ :: _, _, _, _, ⟨ψ, hs, h⟩ =>
    let ⟨ω, h, hl⟩ := h.last
    ⟨ω, ⟨ψ, hs, h⟩, hl⟩

/-- What is changed is changed at once: up to some call nothing is changed, and after it nothing is called. -/
structure AtOnce {α : Type} (P : Conduct α) (first : P.Phase) : Prop where
  only : ∀ {φ k ψ}, P.Step φ k ψ → φ = first
  quiet : ∀ {k}, P.Step first k first → k.Quiet

theorem AtOnce.path_eq_nil {α : Type} {P : Conduct α} {first φ χ : P.Phase} (h : P.AtOnce first) (hφ : φ ≠ first) :
    ∀ {ks : List Call}, P.Path φ ks χ → ks = [] ∧ χ = φ
  | [], hpath => ⟨rfl, hpath.symm⟩
  | _ :: _, ⟨_, hs, _⟩ => absurd (h.only hs) hφ

/-- **Only the last call matters**: whatever comes before it changes nothing. -/
theorem AtOnce.path_cases {α : Type} {P : Conduct α} {first χ : P.Phase} (h : P.AtOnce first) :
    ∀ {ks : List Call}, P.Path first ks χ → (∀ k ∈ ks, k.Quiet) ∧ χ = first ∨
      ∃ xs k, ks = xs ++ [k] ∧ (∀ x ∈ xs, x.Quiet) ∧ P.Step first k χ ∧ χ ≠ first
  | [], hpath => .inl ⟨List.forall_mem_nil _, hpath.symm⟩
  | k :: ks, ⟨ψ, hs, hpath⟩ => by
    by_cases hψ : ψ = first
    · subst hψ
      rcases h.path_cases hpath with ⟨hks, hχ⟩ | ⟨xs, k', rfl, hxs, hk', hχ⟩
      · exact .inl ⟨List.forall_mem_cons.2 ⟨h.quiet hs, hks⟩, hχ⟩
      · exact .inr ⟨k :: xs, k', rfl, List.forall_mem_cons.2 ⟨h.quiet hs, hxs⟩, hk', hχ⟩
    · obtain ⟨rfl, rfl⟩ := h.path_eq_nil hψ hpath
      exact .inr ⟨[], k, rfl, List.forall_mem_nil _, hs, hψ⟩

/-- A conduct of one phase: all calls are of one kind. -/
def always (α : Type) (A : Call → Prop) : Conduct α := ⟨Unit, fun _ k _ => A k, fun _ _ => True⟩

end Conduct

namespace Program

variable {α β : Type} {P : Conduct α} {R : Conduct β}

/-- The program keeps to a conduct from a phase on, knowing something about the cluster. -/
def Keeps (P : Conduct α) : Program α → P.Phase → Knowledge → Prop
  | .done a, φ, _ => P.End φ a
  | .call r next, φ, K => ∀ (failure : Option Refusal) (c : Cluster), c.Versioned → K.Holds c →
      ∃ (ψ : P.Phase) (K' : Knowledge), P.Step φ ⟨r, failure, c⟩ ψ ∧ K'.Holds (Call.after ⟨r, failure, c⟩) ∧
        (next (Call.reply ⟨r, failure, c⟩)).Keeps P ψ K'

theorem Keeps.of_nothing {p : Program α} {φ : P.Phase} (h : p.Keeps P φ .nothing) (K : Knowledge) : p.Keeps P φ K := by
  cases p with
  | done a => exact h
  | call r next => exact fun failure c hc _ => h failure c hc trivial

/-- **One program after the other**, where the phases of the first are phases of the whole. -/
theorem Keeps.bind (lift : P.Phase → R.Phase)
    (hstep : ∀ {φ k ψ}, P.Step φ k ψ → R.Step (lift φ) k (lift ψ)) {f : α → Program β}
    (hnext : ∀ {φ a}, P.End φ a → (f a).Keeps R (lift φ) .nothing) :
    ∀ {p : Program α} {φ : P.Phase} {K : Knowledge}, p.Keeps P φ K → (p >>= f).Keeps R (lift φ) K
  | .done _, _, K, h => (hnext h).of_nothing K
  | .call _ next, _, _, h => by
    intro failure c hc hK
    obtain ⟨ψ, K', hs, hK', hn⟩ := h failure c hc hK
    exact ⟨lift ψ, K', hstep hs, hK', Keeps.bind lift hstep hnext hn⟩

/-- **Attempts of one operation**, where a failure leads back to the phase in which it was begun. -/
theorem Keeps.attempt {P : Conduct (Except Error α)} {φ₀ : P.Phase} {op : Nat → Program (Except Error α)}
    (hop : ∀ n, (op n).Keeps P φ₀ .nothing) (hfail : ∀ {φ e}, P.End φ (.error e) → φ = φ₀)
    (isConflict : Error → Bool) : ∀ more n, (Retry.attempt isConflict op n more).Keeps P φ₀ .nothing
  | 0, n => hop n
  | more + 1, n => by
    refine Keeps.bind id id ?_ (hop n)
    intro φ a ha
    match a with
    | .ok a => exact ha
    | .error e =>
      dsimp only
      split
      · rw [hfail ha]
        exact Keeps.attempt hop hfail isConflict more (n + 1)
      · exact ha

/-- **A conduct is kept** by whoever keeps to one that allows no more. -/
theorem Keeps.imp {R : Conduct α} (lift : P.Phase → R.Phase)
    (hstep : ∀ {φ k ψ}, P.Step φ k ψ → R.Step (lift φ) k (lift ψ)) (hend : ∀ {φ a}, P.End φ a → R.End (lift φ) a) :
    ∀ {p : Program α} {φ : P.Phase} {K : Knowledge}, p.Keeps P φ K → p.Keeps R (lift φ) K
  | .done _, _, _, h => hend h
  | .call _ _, _, _, h => fun failure c hc hK =>
    let ⟨ψ, K', hs, hK', hn⟩ := h failure c hc hK
    ⟨lift ψ, K', hstep hs, hK', hn.imp lift hstep hend⟩

/-- Calls that are all of one kind may be calls of a phase. -/
theorem Keeps.of_always {A : Call → Prop} {φ : P.Phase} (hstep : ∀ k, A k → P.Step φ k φ) (hend : ∀ a, P.End φ a)
    {p : Program α} {K : Knowledge} (h : p.Keeps (.always α A) () K) : p.Keeps P φ K :=
  Keeps.imp (P := .always α A) (fun _ => φ) (fun {_ k _} ha => hstep k ha) (fun {_ a} _ => hend a) h

end Program

namespace Action

variable {α β : Type} {P : Conduct (Except Error α)} {R : Conduct (Except Error β)} {K : Knowledge} {A : Call → Prop}

/-- **One action after the other**, where the phases of the first are phases of the whole. -/
theorem keeps_bind (lift : P.Phase → R.Phase) (hstep : ∀ {φ k ψ}, P.Step φ k ψ → R.Step (lift φ) k (lift ψ))
    {x : Action α} {f : α → Action β} (hnext : ∀ {φ a}, P.End φ (.ok a) → (f a).run.Keeps R (lift φ) .nothing)
    (hfail : ∀ {φ e}, P.End φ (.error e) → R.End (lift φ) (.error e)) {φ : P.Phase} (hx : x.run.Keeps P φ K) :
    (x >>= f).run.Keeps R (lift φ) K := by
  rw [ExceptT.run_bind]
  refine Program.Keeps.bind lift hstep (fun {φ a} ha => ?_) hx
  cases a with
  | ok a => exact hnext ha
  | error e => exact hfail ha

/-- **A request and what follows**, where a failed request changes nothing. -/
theorem keeps_request {r : Request} {reported : String} {f : r.Reply → Action β} {φ : R.Phase}
    (hquiet : ∀ k : Call, k.Quiet → R.Step φ k φ) (hfail : ∀ e, R.End φ (.error e))
    (hserved : ∀ c reply, c.Versioned → K.Holds c → (c.serve r).1 = .ok reply → ∃ (ψ : R.Phase) (K' : Knowledge),
      R.Step φ ⟨r, none, c⟩ ψ ∧ K'.Holds (c.serve r).2 ∧ (f reply).run.Keeps R ψ K') :
    (request r reported >>= f).run.Keeps R φ K := by
  intro failure c hc hK
  cases failure with
  | some why => exact ⟨φ, .nothing, hquiet _ (.of_failure r why c), trivial, hfail _⟩
  | none =>
    have hreply : Call.reply ⟨r, none, c⟩ = (c.serve r).1 := rfl
    rw [hreply]
    cases hrun : (c.serve r).1 with
    | ok reply => exact hserved c reply hc hK hrun
    | error why => exact ⟨φ, .nothing, hquiet _ (c.serve_of_error hrun), trivial, hfail _⟩

/-- **One action after the other**, where the calls of the first may be calls of the phase in which the other begins. -/
theorem keeps_after_always {φ : R.Phase} (hstep : ∀ k, A k → R.Step φ k φ) (hfail : ∀ e, R.End φ (.error e))
    {x : Action α} {f : α → Action β} (hx : x.run.Keeps (.always _ A) () K)
    (hnext : ∀ a, (f a).run.Keeps R φ .nothing) : (x >>= f).run.Keeps R φ K :=
  keeps_bind (P := .always _ A) (fun _ => φ) (fun {_ k _} h => hstep k h) (fun {_ a} _ => hnext a)
    (fun {_ e} _ => hfail e) hx

theorem keeps_forEach {f : α → Action Unit} : ∀ {xs : List α},
    (∀ x ∈ xs, (f x).run.Keeps (.always _ A) () .nothing) → (forEach f xs).run.Keeps (.always _ A) () .nothing
  | [], _ => trivial
  | x :: _, h => keeps_after_always (fun _ => id) (fun _ => trivial) (h x List.mem_cons_self)
      (fun _ => keeps_forEach (fun x' hx => h x' (List.mem_cons_of_mem x hx)))

/-- **An action that is repeated**, where a failed attempt ends as it began. -/
theorem keeps_onConflict (policy : RetryPolicy) {x : Action α} {φ : P.Phase} (hx : x.run.Keeps P φ .nothing)
    (hfail : ∀ ψ e, P.End ψ (.error e) → ψ = φ) :
    (Retry.onConflict policy Error.isConflict (fun _ => x.run)).Keeps P φ .nothing :=
  Program.Keeps.attempt (fun _ => hx) (fun {ψ e} => hfail ψ e) _ _ _

end Action
end ServiceExposure
