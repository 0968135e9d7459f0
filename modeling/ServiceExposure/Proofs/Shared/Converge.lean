import ServiceExposure.Proofs.Cluster.Commit
import ServiceExposure.Proofs.Cluster.Pool
import ServiceExposure.Proofs.Shared.Plans
/-!
# Converging a shared object among others

`SharedResource.converge` reads, plans and writes, and others may write between the read and the write.  Creating needs
a free name and replacing needs the version that was read, so either of them stores what is planned for the object as it
stands at that moment (`SharedResource.Effect`).  Deleting needs nothing, so it may hit another object than the one that
was read.  `converge_keeps` says so for any guarded resource, and `converge_atomic` is what follows for the forwarding
tables and the policy, which are never deleted.
-/
namespace ServiceExposure

namespace SharedResource

/-- The object is changed as is planned for it as it stands. -/
def Effect (s : SharedResource) (contributor : Contributor) (desired : ExposedPorts) (c c' : Cluster) : Prop :=
  ∃ change, s.plan (c.get? s.kind s.name) contributor desired = .ok change ∧ c' = c.commit s.kind s.name change

/-- How far a converging contributor has come. -/
inductive Progress where
  | pending
  | committed

/-- The calls of a converging contributor. -/
inductive ConvergeStep (s : SharedResource) (contributor : Contributor) (desired : ExposedPorts) :
    Progress → Call → Progress → Prop where
  | quiet {k : Call} (h : k.Quiet) : ConvergeStep s contributor desired .pending k .pending
  | effect {k : Call} (h : s.Effect contributor desired k.before k.after) :
      ConvergeStep s contributor desired .pending k .committed
  /-- An object was read of which nothing is to stay; what is deleted is whatever stands there by now. -/
  | delete {k : Call} (read : s.kind.Object) (hp : s.plan (some read) contributor desired = .ok .delete)
      (hr : k.request = .delete s.kind s.name) : ConvergeStep s contributor desired .pending k .committed

/-- How a converging contributor ends. -/
def ConvergeEnd : Progress → Except Error Unit → Prop
  | .pending, .error _ | .committed, .ok _ => True
  | .pending, .ok _ | .committed, .error _ => False

/-- What a converging contributor may do: it changes nothing until it makes its change, which is its last call. -/
def conduct (s : SharedResource) (contributor : Contributor) (desired : ExposedPorts) : Conduct (Except Error Unit) :=
  ⟨Progress, s.ConvergeStep contributor desired, ConvergeEnd⟩

/-! ## The calls of one cycle -/

section Cycle

variable {s : SharedResource} {contributor : Contributor} {desired : ExposedPorts}

theorem keeps_failed (e : Error) (K : Knowledge) :
    (Program.done (.error e)).Keeps (s.conduct contributor desired) .pending K := trivial

theorem keeps_succeeded (K : Knowledge) :
    (Program.done (.ok ())).Keeps (s.conduct contributor desired) .committed K := trivial

/-- A call that is refused changes nothing and ends the cycle. -/
theorem keeps_refused {k : Call} (hq : k.Quiet) (e : Error) : ∃ (φ : Progress) (K : Knowledge),
    s.ConvergeStep contributor desired .pending k φ ∧ K.Holds k.after ∧
      (Program.done (.error e)).Keeps (s.conduct contributor desired) φ K :=
  ⟨.pending, .nothing, .quiet hq, trivial, keeps_failed e _⟩

/-- A call that makes the planned change ends the cycle. -/
theorem keeps_effect {k : Call} (change : Change s.kind.Object)
    (hp : s.plan (k.before.get? s.kind s.name) contributor desired = .ok change)
    (ha : k.after = k.before.commit s.kind s.name change) : ∃ (φ : Progress) (K : Knowledge),
    s.ConvergeStep contributor desired .pending k φ ∧ K.Holds k.after ∧
      (Program.done (.ok ())).Keeps (s.conduct contributor desired) φ K :=
  ⟨.committed, .nothing, .effect ⟨change, hp, ha⟩, trivial, keeps_succeeded _⟩

/-- A new object is stored only where there is none. -/
theorem create_keeps (hg : s.Guarded) {current : Option s.kind.Object} {o : s.kind.Object}
    (hp : s.plan current contributor desired = .ok (.create o)) (K : Knowledge) :
    (s.write (.create o)).run.Keeps (s.conduct contributor desired) .pending K := by
  obtain ⟨rfl, hname⟩ := hg.create hp
  intro failure c _ _
  match failure with
  | some why => exact keeps_refused (.of_failure _ why c) _
  | none =>
    cases hget : c.get? s.kind (s.kind.nameOf o) with
    | some stored =>
      have hserve : c.serve (.create s.kind o) = (.error .conflict, c) := by simp only [Cluster.serve, hget]
      simp only [Call.reply, hserve]
      exact keeps_refused (by simp only [Call.Quiet, Call.after, hserve]) _
    | none =>
      have hserve : c.serve (.create s.kind o) = (.ok (), c.put s.kind (s.kind.nameOf o) o) := by
        simp only [Cluster.serve, hget]
      have hafter : (c.serve (.create s.kind o)).2 = c.put s.kind s.name o := by rw [hserve, hname]
      rw [hname] at hget
      simp only [Call.reply, hserve]
      exact keeps_effect (.create o) (by rw [hget]; exact hp) hafter

/-- An object is replaced only where it is the one that was read. -/
theorem replace_keeps (hg : s.Guarded) {read o : s.kind.Object}
    (hp : s.plan (some read) contributor desired = .ok (.replace o)) :
    (s.write (.replace o)).run.Keeps (s.conduct contributor desired) .pending (.read s.kind s.name read) := by
  obtain ⟨_, hread, hv, -⟩ := hg.replace hp
  cases hread
  intro failure c _ hK
  match failure with
  | some why => exact keeps_refused (.of_failure _ why c) _
  | none =>
    cases hget : c.get? s.kind (s.kind.nameOf o) with
    | none =>
      have hserve : c.serve (.replace s.kind (s.kind.nameOf o) o) = (.error .notFound, c) := by
        simp only [Cluster.serve, hget]
      simp only [Call.reply, hserve]
      exact keeps_refused (by simp only [Call.Quiet, Call.after, hserve]) _
    | some stored =>
      by_cases he : (s.kind.metadata o).resourceVersion = (s.kind.metadata stored).resourceVersion
      · have hserve : c.serve (.replace s.kind (s.kind.nameOf o) o) = (.ok (), c.put s.kind (s.kind.nameOf o) o) := by
          simp only [Cluster.serve, hget, if_pos he]
        -- the stored object has the version that was read, so it is what was read
        obtain ⟨hname, rfl⟩ := Cluster.Recalls.same hK hget (he.symm.trans hv)
        have hafter : (c.serve (.replace s.kind (s.kind.nameOf o) o)).2 = c.put s.kind s.name o := by rw [hserve, hname]
        rw [hname] at hget
        simp only [Call.reply, hserve]
        exact keeps_effect (.replace o) (by rw [hget]; exact hp) hafter
      · have hserve : c.serve (.replace s.kind (s.kind.nameOf o) o) = (.error .conflict, c) := by
          simp only [Cluster.serve, hget, if_neg he]
        simp only [Call.reply, hserve]
        exact keeps_refused (by simp only [Call.Quiet, Call.after, hserve]) _

theorem delete_keeps {read : s.kind.Object} (hp : s.plan (some read) contributor desired = .ok .delete)
    (K : Knowledge) : (s.write .delete).run.Keeps (s.conduct contributor desired) .pending K := by
  have hok : ∀ k : Call, k.request = .delete s.kind s.name → ∃ (φ : Progress) (K : Knowledge),
      s.ConvergeStep contributor desired .pending k φ ∧ K.Holds k.after ∧
        (Program.done (.ok ())).Keeps (s.conduct contributor desired) φ K := fun k hr =>
    ⟨.committed, .nothing, .delete read hp hr, trivial, keeps_succeeded _⟩
  intro failure c _ _
  match failure with
  | some why =>
    by_cases hw : why = .notFound
    · simp only [Call.reply, if_pos hw]
      exact hok ⟨.delete s.kind s.name, some why, c⟩ rfl
    · simp only [Call.reply, if_neg hw]
      exact keeps_refused (.of_failure _ why c) _
  | none =>
    cases hget : c.get? s.kind s.name with
    | none =>
      have hserve : c.serve (.delete s.kind s.name) = (.error .notFound, c) := by simp only [Cluster.serve, hget]
      simp only [Call.reply, hserve, if_pos]
      exact hok ⟨.delete s.kind s.name, none, c⟩ rfl
    | some stored =>
      have hserve : c.serve (.delete s.kind s.name) = (.ok (), c.remove s.kind s.name) := by
        simp only [Cluster.serve, hget]
      simp only [Call.reply, hserve]
      exact hok ⟨.delete s.kind s.name, none, c⟩ rfl

/-- What is done with the answer to the read. -/
def onRead (s : SharedResource) (contributor : Contributor) (desired : ExposedPorts) :
    Except Refusal (Option s.kind.Object) → Program (Except Error Unit)
  | .error why => .done (.error (.api .get s.kind s.name why))
  | .ok current =>
    match s.plan current contributor desired with
    | .error e => .done (.error (.parse e))
    | .ok change => (s.write change).run

theorem run_cycle : (s.cycle contributor desired).run = .call (.get s.kind s.name) (s.onRead contributor desired) := by
  refine congrArg (Program.call _) (funext fun reply => ?_)
  match reply with
  | .error why => rfl
  | .ok (current : Option s.kind.Object) =>
    change (Action.ofParse (s.plan current contributor desired) >>= s.write : Action Unit).run =
      match s.plan current contributor desired with
      | .error e => .done (.error (.parse e))
      | .ok change => (s.write change).run
    generalize s.plan current contributor desired = planned
    cases planned <;> rfl

/-- **One cycle**: it reads, plans and writes. -/
theorem cycle_keeps (hg : s.Guarded) (K : Knowledge) :
    (s.cycle contributor desired).run.Keeps (s.conduct contributor desired) .pending K := by
  rw [run_cycle]
  intro failure c hc _
  match failure with
  | some why => exact keeps_refused (.of_failure _ why c) _
  | none =>
    have hquiet : (⟨.get s.kind s.name, none, c⟩ : Call).Quiet := rfl
    change ∃ ψ K', _ ∧ _ ∧ (s.onRead contributor desired (.ok (c.get? s.kind s.name))).Keeps _ _ _
    cases hp : s.plan (c.get? s.kind s.name) contributor desired with
    | error e =>
      have hdone : s.onRead contributor desired (.ok (c.get? s.kind s.name)) = .done (.error (.parse e)) := by
        simp only [onRead, hp]
      rw [hdone]
      exact ⟨.pending, .nothing, .quiet hquiet, trivial, keeps_failed _ _⟩
    | ok change =>
      have hwrite : s.onRead contributor desired (.ok (c.get? s.kind s.name)) = (s.write change).run := by
        simp only [onRead, hp]
      rw [hwrite]
      cases change with
      | unchanged =>
        exact keeps_effect (k := ⟨.get s.kind s.name, none, c⟩) .unchanged hp rfl
      | create o => exact ⟨.pending, .nothing, .quiet hquiet, trivial, create_keeps hg hp _⟩
      | replace o =>
        obtain ⟨read, hread, -⟩ := hg.replace hp
        rw [hread] at hp
        exact ⟨.pending, .read s.kind s.name read, .quiet hquiet, hc.recalls hread, replace_keeps hg hp⟩
      | delete =>
        obtain ⟨read, hread⟩ := hg.delete hp
        rw [hread] at hp
        exact ⟨.pending, .nothing, .quiet hquiet, trivial, delete_keeps hp _⟩

/-- **A convergence keeps to its conduct**, however many cycles it takes. -/
theorem converge_keeps (hg : s.Guarded) (retry : RetryPolicy) :
    (s.converge retry contributor desired).run.Keeps (s.conduct contributor desired) .pending .nothing := by
  refine Action.keeps_onConflict retry (cycle_keeps hg _) (fun φ e h => ?_)
  cases φ with
  | pending => rfl
  | committed => exact h.elim

end Cycle

/-! ## The calls of a convergence -/

section Run

variable {s : SharedResource} {contributor : Contributor} {desired : ExposedPorts}

theorem conduct_atOnce : (s.conduct contributor desired).AtOnce Progress.pending where
  only := fun h => by cases h <;> rfl
  quiet := fun h => by
    cases h with
    | quiet hq => exact hq

/-- As long as the change is not made, nothing is changed. -/
theorem quiet_of_pending {ks : List Call} (h : (s.conduct contributor desired).Path .pending ks .pending) :
    ∀ k ∈ ks, k.Quiet := by
  rcases conduct_atOnce.path_cases h with ⟨hquiet, -⟩ | ⟨-, -, -, -, -, hne⟩
  · exact hquiet
  · exact absurd rfl hne

/-- The change is made by the last call, and nothing is changed before. -/
theorem last_of_committed {ks : List Call} (h : (s.conduct contributor desired).Path .pending ks .committed) :
    ∃ quiet k, ks = quiet ++ [k] ∧ (∀ q ∈ quiet, q.Quiet) ∧
      s.ConvergeStep contributor desired .pending k .committed := by
  rcases conduct_atOnce.path_cases h with ⟨-, hpending⟩ | ⟨quiet, k, hks, hquiet, hstep, -⟩
  · cases hpending
  · exact ⟨quiet, k, hks, hquiet, hstep⟩

/-- A program of a pool that has just been started. -/
theorem follows_start (hg : s.Guarded) (retry : RetryPolicy) {p : Pool} (hp : p.cluster.Versioned) :
    (p.step (.start (s.converge retry contributor desired))).Follows (s.conduct contributor desired) p.programs.length
      Progress.pending :=
  Pool.follows_started hp (converge_keeps hg retry)

/-- Who has made the change is done. -/
theorem eq_done_of_committed {p : Program (Except Error Unit)} {K : Knowledge} {c : Cluster}
    (h : p.Keeps (s.conduct contributor desired) .committed K) (hc : c.Versioned) (hK : K.Holds c) :
    p = .done (.ok ()) := by
  match p, h with
  | .done (.ok ()), _ => rfl
  | .done (.error e), h => exact h.elim
  | .call r next, h =>
    obtain ⟨ψ, -, hs, -⟩ := h none c hc hK
    cases hs

theorem done_of_committed {p : Pool} {i : Nat} (h : p.Follows (s.conduct contributor desired) i Progress.committed) :
    p.programs[i]? = some (.done (.ok ())) := by
  obtain ⟨rest, K, hi, hk, hK⟩ := h.keeps
  rw [hi]
  exact congrArg some (eq_done_of_committed hk h.versioned hK)

/-- A resource that is never deleted changes as is planned for it as it stands. -/
theorem effect_of_committed (hd : ∀ current, s.plan current contributor desired ≠ .ok .delete) {k : Call}
    (h : s.ConvergeStep contributor desired .pending k .committed) :
    s.Effect contributor desired k.before k.after := by
  cases h with
  | effect he => exact he
  | delete read hp hr => exact absurd hp (hd _)

end Run

end SharedResource

namespace SharedResource

/-- **A convergence of a forwarding table or of the policy is one atomic step, or nothing.**  Whatever ran on the
cluster before and whoever runs on it beside: one that returns `ok` changed the object by its last call, as is planned
for the object as it stood then; until then, and when it fails, it changes nothing. -/
theorem converge_atomic {s : SharedResource}
    (hs : (∃ t : ForwardingTable, s = t.resource) ∨ ∃ a : Admission, s = a.resource) (retry : RetryPolicy)
    (contributor : Contributor) (desired : ExposedPorts) (earlier ms : List Pool.Move) :
    let p := (Pool.run {} earlier).step (.start (s.converge retry contributor desired))
    let i := (Pool.run {} earlier).programs.length
    ((p.run ms).programs[i]? = some (.done (.ok ())) →
      ∃ quiet last, p.calls i ms = quiet ++ [last] ∧ (∀ k ∈ quiet, k.after = k.before) ∧
        s.Effect contributor desired last.before last.after) ∧
    ((p.run ms).programs[i]? ≠ some (.done (.ok ())) → ∀ k ∈ p.calls i ms, k.after = k.before) := by
  intro p i
  have hg : s.Guarded := by
    rcases hs with ⟨t, rfl⟩ | ⟨a, rfl⟩
    · exact t.guarded
    · exact a.guarded
  have hd : ∀ current, s.plan current contributor desired ≠ .ok .delete := by
    rcases hs with ⟨t, rfl⟩ | ⟨a, rfl⟩
    · exact fun current h => t.plan_ne_delete current contributor desired (Except.ok.inj h)
    · exact fun current => a.plan_ne_delete current contributor desired
  have hv : (Pool.run {} earlier).cluster.Versioned := Pool.versioned_run Cluster.versioned_empty earlier
  have hstart : p.Follows (s.conduct contributor desired) i Progress.pending := follows_start hg retry hv
  obtain ⟨φ, hpath, hend⟩ := Pool.follows_run ms hstart
  constructor
  · intro hok
    match φ, hend.ended hok, hpath with
    | .committed, _, hpath =>
      obtain ⟨quiet, last, hcalls, hq, hlast⟩ := last_of_committed hpath
      exact ⟨quiet, last, hcalls, hq, effect_of_committed hd hlast⟩
  · intro hne
    match φ, hend, hpath with
    | .pending, _, hpath => exact quiet_of_pending hpath
    | .committed, hend, _ => exact absurd (done_of_committed hend) hne

/-- Two contributors read while there is no table yet; the second one loses the race and starts over. -/
theorem converge_atomic_race :
    let t : ForwardingTable := ⟨"tcp-services", "ecosystem", .tcp⟩
    let start (name : String) (port : Int) : Pool.Move :=
      .start (t.resource.converge .standard ⟨"ecosystem", name⟩ (.ofList [⟨.tcp, port, port⟩]))
    let p := Pool.run {} [start "scm" 2222, start "ldap" 389]
    let ms := [.turn 0 none, .turn 1 none, .turn 0 none, .turn 1 none, .turn 1 none, .turn 1 none]
    (p.run ms).programs[1]? = some (.done (.ok ())) ∧
      ∃ quiet last, p.calls 1 ms = quiet ++ [last] ∧ (∀ k ∈ quiet, k.after = k.before) ∧
        t.resource.Effect ⟨"ecosystem", "ldap"⟩ (.ofList [⟨.tcp, 389, 389⟩]) last.before last.after := by
  intro t start p ms
  have hdone : (p.run ms).programs[1]? = some (.done (.ok ())) := by decide +kernel
  exact ⟨hdone, (converge_atomic (.inl ⟨t, rfl⟩) .standard ⟨"ecosystem", "ldap"⟩ (.ofList [⟨.tcp, 389, 389⟩])
    [start "scm" 2222] ms).1 hdone⟩

end SharedResource
end ServiceExposure
