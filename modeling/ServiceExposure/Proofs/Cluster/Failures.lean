import ServiceExposure.Proofs.Cluster.Caution
import ServiceExposure.Proofs.Cluster.Cut
/-!
# Programs whose calls fail

Some calls of a program are served and others fail, each for a reason of its own.  Whichever these are, the program
secures an invariant after every call and a result at its end (`Program.Secures`), so the invariant holds wherever it is
cut off, and the result if it comes to its end (`Secures.cut`, `Secures.ends`).  The one thing that cannot be made up for
is a lie: a deletion must not be answered that there is no such object while there is one (`Call.Honest`).  Attempts that
are made one after the other, whether they succeed, fail or are cut off, are a row (`Attempt.after`).
-/
namespace ServiceExposure

namespace Call

/-- A deletion does not fail as if the object were missing, unless it is. -/
def Honest (k : Call) : Prop :=
  ∀ kind name, k.request = .delete kind name → k.failure = some .notFound → k.before.get? kind name = none

theorem Honest.of_ne {k : Call} (h : k.failure ≠ some .notFound) : k.Honest := fun _ _ _ hfail => absurd hfail h

end Call

variable {α β : Type} {F : Call → Prop} {I : Cluster → Prop} {c : Cluster}

namespace Program

/-- The calls that a program makes until it is cut off. -/
def sent : List (Option Refusal) → Program α → Cluster → List Call
  | [], _, _ => []
  | _ :: _, .done _, _ => []
  | failure :: failures, .call r next, c =>
    ⟨r, failure, c⟩ :: (next (Call.reply ⟨r, failure, c⟩)).sent failures (Call.after ⟨r, failure, c⟩)

/-- What a program ends with, unless it is cut off before. -/
def outcome? : List (Option Refusal) → Program α → Cluster → Option α
  | _, .done a, _ => some a
  | [], .call _ _, _ => none
  | failure :: failures, .call r next, c =>
    (next (Call.reply ⟨r, failure, c⟩)).outcome? failures (Call.after ⟨r, failure, c⟩)

theorem failure_of_sent : ∀ {failures : List (Option Refusal)} {p : Program α} {c : Cluster} {k : Call},
    k ∈ p.sent failures c → k.failure ∈ failures
  | [], _, _, _, h => nomatch h
  | _ :: _, .done _, _, _, h => nomatch h
  | failure :: failures, .call r next, c, k, h => by
    rcases List.mem_cons.1 h with rfl | h
    · exact List.mem_cons_self
    · exact List.mem_cons_of_mem failure (failure_of_sent h)

theorem honest_of_not_mem {failures : List (Option Refusal)} (h : some .notFound ∉ failures) {p : Program α} :
    ∀ k ∈ p.sent failures c, k.Honest :=
  fun _ hk => .of_ne (fun hfail => h (hfail ▸ failure_of_sent hk))

/-- Whichever calls fail, as far as `F` allows, `I` holds of the cluster after every call and `Q` of what the program ends
with. -/
def Secures (F : Call → Prop) (I : Cluster → Prop) (Q : α → Cluster → Prop) : Program α → Cluster → Prop
  | .done a, c => Q a c
  | .call r next, c => ∀ failure : Option Refusal, F ⟨r, failure, c⟩ → I (Call.after ⟨r, failure, c⟩) ∧
      (next (Call.reply ⟨r, failure, c⟩)).Secures F I Q (Call.after ⟨r, failure, c⟩)

namespace Secures

variable {Q R : α → Cluster → Prop}

/-- **The invariant holds wherever the program is cut off.** -/
theorem cut : ∀ {failures : List (Option Refusal)} {p : Program α} {c : Cluster}, p.Secures F I Q c → I c →
    (∀ k ∈ p.sent failures c, F k) → I (p.cut failures c)
  | [], _, _, _, h, _ => h
  | _ :: _, .done _, _, _, h, _ => h
  | failure :: _, .call _ _, _, hp, _, hF =>
    have hnow := hp failure (hF _ List.mem_cons_self)
    hnow.2.cut hnow.1 (fun k hk => hF k (List.mem_cons_of_mem _ hk))

/-- **What a program ends with** is as it was secured. -/
theorem ends : ∀ {failures : List (Option Refusal)} {p : Program α} {c : Cluster} {a : α}, p.Secures F I Q c →
    (∀ k ∈ p.sent failures c, F k) → p.outcome? failures c = some a → Q a (p.cut failures c)
  | [], .done _, _, _, h, _, ha => by
    cases ha
    exact h
  | _ :: _, .done _, _, _, h, _, ha => by
    cases ha
    exact h
  | [], .call _ _, _, _, _, _, ha => nomatch ha
  | failure :: _, .call _ _, _, _, hp, hF, ha =>
    (hp failure (hF _ List.mem_cons_self)).2.ends (fun k hk => hF k (List.mem_cons_of_mem _ hk)) ha

/-- **With nobody else around** no call fails, and the program ends as it was secured. -/
theorem runOn (hF : ∀ k : Call, k.failure = none → F k) : ∀ {p : Program α} {c : Cluster}, p.Secures F I Q c →
    Q (p.runOn c).1 (p.runOn c).2
  | .done _, _, hp => hp
  | .call _ _, _, hp => (hp none (hF _ rfl)).2.runOn hF

theorem imp {J : Cluster → Prop} (hJ : ∀ c, I c → J c) (hQ : ∀ a c, I c → Q a c → R a c) : ∀ {p : Program α} {c : Cluster},
    p.Secures F I Q c → I c → p.Secures F J R c
  | .done a, c, hp, h => hQ a c h hp
  | .call _ _, _, hp, _ => fun failure hF =>
    have hnow := hp failure hF
    ⟨hJ _ hnow.1, hnow.2.imp hJ hQ hnow.1⟩

theorem bind {R : β → Cluster → Prop} {f : α → Program β} (hf : ∀ a c, I c → Q a c → (f a).Secures F I R c) :
    ∀ {p : Program α} {c : Cluster}, p.Secures F I Q c → I c → (p >>= f).Secures F I R c
  | .done a, c, hp, h => hf a c h hp
  | .call _ _, _, hp, _ => fun failure hF =>
    have hnow := hp failure hF
    ⟨hnow.1, hnow.2.bind hf hnow.1⟩

theorem maintains : ∀ {p : Program α} {c : Cluster}, p.Secures (fun _ => True) I Q c → p.Maintains I c
  | .done _, _, _ => trivial
  | .call _ _, _, hp => fun failure => ⟨(hp failure trivial).1, (hp failure trivial).2.maintains⟩

theorem of_maintains (hQ : ∀ a c, Q a c) : ∀ {p : Program α} {c : Cluster}, p.Maintains I c → p.Secures F I Q c
  | .done a, c, _ => hQ a c
  | .call _ _, _, hp => fun failure _ => ⟨(hp failure).1, of_maintains hQ (hp failure).2⟩

/-- **Attempts of one operation** secure what each of them does. -/
theorem attempt {ε : Type} {Q : Except ε α → Cluster → Prop} {op : Nat → Program (Except ε α)}
    (hop : ∀ n c, I c → (op n).Secures F I Q c) (isConflict : ε → Bool) :
    ∀ more n {c : Cluster}, I c → (Retry.attempt isConflict op n more).Secures F I Q c
  | 0, n, c, h => hop n c h
  | more + 1, n, c, h => by
    refine bind (fun a c' h' ha => ?_) (hop n c h) h
    match a with
    | .ok a => exact ha
    | .error e =>
      dsimp only
      split
      · exact attempt hop isConflict more (n + 1) h'
      · exact ha

theorem of_reads : ∀ {p : Program α}, p.Reads → I c → (∀ a, Q a c) → p.Secures F I Q c
  | .done a, _, _, hQ => hQ a
  | .call r next, ⟨hr, hnext⟩, h, hQ => fun failure _ => by
    have hafter : Call.after ⟨r, failure, c⟩ = c := by
      cases failure with
      | none => exact c.serve_of_reads hr
      | some why => rfl
    rw [hafter]
    exact ⟨h, of_reads (hnext _ trivial) h hQ⟩

end Secures
end Program

namespace Action

variable {Q : α → Cluster → Prop} {R : β → Cluster → Prop}

/-- What is said of an action that succeeds. -/
def Ends (Q : α → Cluster → Prop) : Except Error α → Cluster → Prop
  | .ok a, c => Q a c
  | .error _, _ => True

/-- Whichever calls fail, as far as `F` allows, `I` holds of the cluster after every call, and `Q` if the action
succeeds. -/
abbrev Secures (F : Call → Prop) (I : Cluster → Prop) (Q : α → Cluster → Prop) (x : Action α) (c : Cluster) : Prop :=
  x.run.Secures F I (Ends Q) c

theorem secures_pure {a : α} (h : Q a c) : (pure a : Action α).Secures F I Q c := h

theorem Secures.imp {x : Action α} {J : Cluster → Prop} {R : α → Cluster → Prop} (hx : x.Secures F I Q c)
    (hJ : ∀ c, I c → J c) (hQ : ∀ a c, I c → Q a c → R a c) (h : I c) : x.Secures F J R c :=
  Program.Secures.imp hJ (fun
    | .ok a, c, h, ha => hQ a c h ha
    | .error _, _, _, _ => trivial) hx h

theorem Secures.alone {x : Action α} (hx : x.Secures F I Q c) (hF : ∀ k : Call, k.failure = none → F k) {a : α} {c' : Cluster}
    (h : x.alone c = (.ok a, c')) : Q a c' := by
  have hends := Program.Secures.runOn hF hx
  have hrun : x.run.runOn c = (.ok a, c') := h
  rw [hrun] at hends
  exact hends

theorem secures_of_maintains {x : Action α} (h : x.run.Maintains I c) : x.Secures F I (fun _ _ => True) c :=
  Program.Secures.of_maintains (fun
    | .ok _, _ => trivial
    | .error _, _ => trivial) h

/-- **One after the other.** -/
theorem Secures.bind {x : Action α} {f : α → Action β} (hx : x.Secures F I Q c)
    (hf : ∀ a c, I c → Q a c → (f a).Secures F I R c) (h : I c) : (x >>= f).Secures F I R c := by
  unfold Secures
  rw [ExceptT.run_bind]
  refine Program.Secures.bind (fun a c' h' ha => ?_) hx h
  cases a with
  | ok a => exact hf a c' h' ha
  | error e => trivial

/-- Whatever comes after reading comes to the cluster as it was. -/
theorem secures_after_reads {x : Action α} {f : α → Action β} (hx : x.run.Reads) (hf : ∀ a, (f a).Secures F I R c)
    (h : I c) : (x >>= f).Secures F I R c := by
  have hreads : x.Secures F I (fun _ c' => c' = c) c := Program.Secures.of_reads hx h (fun
    | .ok _ => rfl
    | .error _ => trivial)
  refine hreads.bind (fun a c' _ hc => ?_) h
  subst hc
  exact hf a

theorem secures_after_ofParse {x : Except ParseError α} {f : α → Action β} (hf : ∀ a, x = .ok a → (f a).Secures F I R c) :
    (ofParse x >>= f).Secures F I R c := by
  cases x with
  | ok a => exact hf a rfl
  | error e => trivial

/-- **One element after the other**, where `J` says what holds while some of them are left. -/
theorem secures_forEach {f : α → Action Unit} {J : List α → Cluster → Prop}
    (hf : ∀ x xs c, I c → J (x :: xs) c → (f x).Secures F I (fun _ => J xs) c) :
    ∀ {xs : List α} {c : Cluster}, I c → J xs c → (forEach f xs).Secures F I (fun _ => J []) c
  | [], _, _, hJ => hJ
  | x :: xs, c, h, hJ => (hf x xs c h hJ).bind (fun _ _ h' hJ' => secures_forEach hf h' hJ') h

theorem secures_onConflict (policy : RetryPolicy) {x : Action α} (hx : ∀ c, I c → x.Secures F I Q c) (h : I c) :
    Secures F I Q (ExceptT.mk (Retry.onConflict policy Error.isConflict (fun _ => x.run))) c :=
  Program.Secures.attempt (fun _ => hx) Error.isConflict _ _ h

theorem secures_read {r : Request} {reply : r.Reply} (hr : c.serve r = (.ok reply, c)) {reported : String}
    {f : r.Reply → Action α} (hf : (f reply).Secures F I Q c) (h : I c) :
    (request r reported >>= f).Secures F I Q c := by
  intro failure _
  cases failure with
  | none =>
    have hreply : Call.reply ⟨r, none, c⟩ = .ok reply := congrArg Prod.fst hr
    have hafter : Call.after ⟨r, none, c⟩ = c := congrArg Prod.snd hr
    rw [hreply, hafter]
    exact ⟨h, hf⟩
  | some why => exact ⟨h, trivial⟩

theorem secures_request {r : Request} {reported : String} {Q : r.Reply → Cluster → Prop} (h : I c) (hs : I (c.serve r).2)
    (hQ : ∀ reply, (c.serve r).1 = .ok reply → Q reply (c.serve r).2) : (request r reported).Secures F I Q c := by
  intro failure _
  cases failure with
  | some why => exact ⟨h, trivial⟩
  | none =>
    refine ⟨hs, ?_⟩
    have hreply : Call.reply ⟨r, none, c⟩ = (c.serve r).1 := rfl
    rw [hreply]
    cases hrun : (c.serve r).1 with
    | ok reply => exact hQ reply hrun
    | error why => trivial

end Action

/-! ## Rows of attempts -/

/-- An action, and what becomes of its calls; it is cut off where nothing is said of the next one. -/
structure Attempt where
  action : Action Unit
  failures : List (Option Refusal)

namespace Attempt

def calls (x : Attempt) (c : Cluster) : List Call := x.action.run.sent x.failures c

def leaves (x : Attempt) (c : Cluster) : Cluster := x.action.run.cut x.failures c

/-- The attempt comes to its end and succeeds. -/
def Succeeds (x : Attempt) (c : Cluster) : Prop := x.action.run.outcome? x.failures c = some (.ok ())

instance (x : Attempt) (c : Cluster) : Decidable (x.Succeeds c) :=
  decidable_of_iff ((x.action.run.outcome? x.failures c).bind Except.toOption = some ()) <| by
    unfold Succeeds
    rcases x.action.run.outcome? x.failures c with _ | _ | _ <;> simp [Except.toOption]

/-- The cluster after a row of attempts. -/
def after : List Attempt → Cluster → Cluster
  | [], c => c
  | x :: xs, c => after xs (x.leaves c)

def sent : List Attempt → Cluster → List Call
  | [], _ => []
  | x :: xs, c => x.calls c ++ sent xs (x.leaves c)

theorem after_append : ∀ (xs ys : List Attempt) (c : Cluster), after (xs ++ ys) c = after ys (after xs c)
  | [], _, _ => rfl
  | x :: xs, ys, c => after_append xs ys (x.leaves c)

theorem sent_append : ∀ (xs ys : List Attempt) (c : Cluster), sent (xs ++ ys) c = sent xs c ++ sent ys (after xs c)
  | [], _, _ => rfl
  | x :: xs, ys, c => by
    rw [List.cons_append, sent, sent_append xs ys, ← List.append_assoc]
    rfl

theorem honest_of_not_mem : ∀ {xs : List Attempt} {c : Cluster}, (∀ x ∈ xs, some .notFound ∉ x.failures) →
    ∀ k ∈ sent xs c, k.Honest
  | [], _, _, _, hk => nomatch hk
  | x :: _, _, h, k, hk => by
    rcases List.mem_append.1 hk with hk | hk
    · exact Program.honest_of_not_mem (h x List.mem_cons_self) k hk
    · exact honest_of_not_mem (fun y hy => h y (List.mem_cons_of_mem x hy)) k hk

/-- **What every attempt secures holds after any row of them.** -/
theorem secured_after {Q : Unit → Cluster → Prop} : ∀ (xs : List Attempt) {c : Cluster},
    (∀ x ∈ xs, ∀ c, I c → x.action.Secures F I Q c) → I c → (∀ k ∈ sent xs c, F k) → I (after xs c)
  | [], _, _, h, _ => h
  | x :: xs, c, hx, h, hF =>
    have hnow := (hx x List.mem_cons_self c h).cut h (fun k hk => hF k (List.mem_append_left _ hk))
    secured_after xs (fun y hy => hx y (List.mem_cons_of_mem x hy)) hnow (fun k hk => hF k (List.mem_append_right _ hk))

end Attempt
end ServiceExposure
