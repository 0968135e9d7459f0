import ServiceExposure.Proofs.Cluster.Pool
import ServiceExposure.Proofs.Owned.Chores
/-!
# Owned objects among others

Whoever applies an owned object reads it, and creates it where there was none or replaces what was read, so that what is
stored is always the wanted form of what stands there at that moment (`Owned.Applies`), however many races are lost.  Once
the object is found in that form or stored, nothing more is called (`Owned.keeps_stages`).
Bringing routes about is different: it acts on a list, and what is stored or deleted is what was decided when the routes
were listed, whatever stands elsewhere by then (`PortRoutes.Step`).
-/
namespace ServiceExposure

namespace Owned

/-- The object is stored in its wanted form, or nothing is changed. -/
def Applies (kind : Kind) (desired : kind.Object) (k : Call) : Prop :=
  k.Quiet ∨ k.after =
    k.before.put kind (kind.nameOf desired) (wantedOver kind desired (k.before.get? kind (kind.nameOf desired)))

/-- The object that stands there is taken out, or nothing is changed. -/
def Deletes (kind : Kind) (name : String) (k : Call) : Prop :=
  k.Quiet ∨ (∃ o, k.before.get? kind name = some o) ∧ k.after = k.before.remove kind name

/-- How far applying an object has come: nothing was stored yet, the object was found in its wanted form, or it was
stored. -/
inductive Stage where
  | pending
  | found
  | stored

/-- How applying an object may end in a stage. -/
def Stage.Ends (a : Except Error Bool) : Stage → Prop
  | .pending => ∃ e, a = .error e
  | .found => a = .ok false
  | .stored => a = .ok true

/-- The calls of whoever applies an object. -/
inductive ApplyStep (kind : Kind) (desired : kind.Object) : Stage → Call → Stage → Prop where
  | quiet {k : Call} (h : k.Quiet) : ApplyStep kind desired .pending k .pending
  /-- The object is read in its wanted form. -/
  | find {c : Cluster} {o : kind.Object} (hget : c.get? kind (kind.nameOf desired) = some o)
      (hform : form kind desired o = o) :
      ApplyStep kind desired .pending ⟨.get kind (kind.nameOf desired), none, c⟩ .found
  | create {c : Cluster} (hget : c.get? kind (kind.nameOf desired) = none) :
      ApplyStep kind desired .pending ⟨.create kind desired, none, c⟩ .stored
  /-- What is replaced is the object that stands there at that moment. -/
  | replace {c : Cluster} {o : kind.Object} (hget : c.get? kind (kind.nameOf desired) = some o) :
      ApplyStep kind desired .pending ⟨.replace kind (kind.nameOf desired) (form kind desired o), none, c⟩ .stored

def conduct (kind : Kind) (desired : kind.Object) : Conduct (Except Error Bool) :=
  ⟨Stage, ApplyStep kind desired, fun stage a => stage.Ends a⟩

section Calls

variable {kind : Kind} {desired : kind.Object} {k : Call}

/-- **What is stored** is the wanted form of what stands there. -/
theorem ApplyStep.after (h : ApplyStep kind desired .pending k .stored) : k.after =
    k.before.put kind (kind.nameOf desired) (wantedOver kind desired (k.before.get? kind (kind.nameOf desired))) := by
  cases h with
  | create hget => simp only [Call.after, Cluster.serve, hget, wantedOver]
  | replace hget => simp only [Call.after, Cluster.serve, hget, wantedOver, resourceVersion_form, if_true]

/-- Nothing is changed but by the last call. -/
theorem conduct_atOnce : (conduct kind desired).AtOnce Stage.pending where
  only := fun h => by cases h <;> rfl
  quiet := fun h => by
    cases h with
    | quiet hq => exact hq

theorem ApplyStep.applies {φ ψ : Stage} (h : ApplyStep kind desired φ k ψ) : Applies kind desired k := by
  cases h with
  | quiet hq => exact .inl hq
  | find => exact .inl rfl
  | create hget => exact .inr (ApplyStep.create hget).after
  | replace hget => exact .inr (ApplyStep.replace hget).after

theorem step_create {c : Cluster} {reply : Unit} (h : (c.serve (.create kind desired)).1 = .ok reply) :
    ApplyStep kind desired .pending ⟨.create kind desired, none, c⟩ .stored := by
  simp only [Cluster.serve] at h
  split at h
  · cases h
  · rename_i hget
    exact .create hget

theorem step_replace {c : Cluster} {read : kind.Object} {reply : Unit}
    (hread : c.Recalls kind (kind.nameOf desired) read)
    (h : (c.serve (.replace kind (kind.nameOf (form kind desired read)) (form kind desired read))).1 = .ok reply) :
    ApplyStep kind desired .pending
      ⟨.replace kind (kind.nameOf (form kind desired read)) (form kind desired read), none, c⟩ .stored := by
  simp only [Cluster.serve] at h
  split at h
  · cases h
  · rename_i stored hget
    split at h
    · rename_i hv
      rw [resourceVersion_form] at hv
      -- the stored object has the version that was read, so it is what was read
      obtain ⟨hname, rfl⟩ := hread.same hget hv.symm
      rw [hname] at hget ⊢
      exact .replace hget
    · cases h

theorem keeps_store {r : Request} {reported : String} {K : Knowledge}
    (h : ∀ c reply, K.Holds c → (c.serve r).1 = .ok reply → ApplyStep kind desired .pending ⟨r, none, c⟩ .stored) :
    (Action.request r reported >>= fun _ => (pure true : Action Bool)).run.Keeps (conduct kind desired) Stage.pending K :=
  Action.keeps_request (R := conduct kind desired) (fun _ hq => ApplyStep.quiet hq)
    (fun e => ⟨e, rfl⟩) (fun c reply _ hK hserve => ⟨Stage.stored, .nothing, h c reply hK hserve, trivial, rfl⟩)

end Calls

theorem cycle_keeps (kind : Kind) (desired : kind.Object) :
    (cycle kind desired).run.Keeps (conduct kind desired) Stage.pending .nothing := by
  refine Action.keeps_request (R := conduct kind desired) (fun _ hq => ApplyStep.quiet hq) (fun e => ⟨e, rfl⟩)
    (fun c reply hc _ hserve => ?_)
  cases hserve
  cases hget : c.get? kind (kind.nameOf desired) with
  | none =>
    refine ⟨Stage.pending, .nothing, ApplyStep.quiet rfl, trivial, ?_⟩
    exact keeps_store (fun c _ _ hserve => step_create hserve)
  | some read =>
    dsimp only
    by_cases hform : form kind desired read = read
    · rw [if_pos hform]
      exact ⟨Stage.found, .nothing, ApplyStep.find hget hform, trivial, rfl⟩
    · rw [if_neg hform]
      refine ⟨Stage.pending, .read kind (kind.nameOf desired) read, ApplyStep.quiet rfl, hc.recalls hget, ?_⟩
      exact keeps_store (fun c _ hread hserve => step_replace hread hserve)

/-- **Applying an object among others**, stage by stage. -/
theorem keeps_stages (retry : RetryPolicy) (kind : Kind) (desired : kind.Object) :
    (apply retry kind desired).run.Keeps (conduct kind desired) Stage.pending .nothing := by
  refine Action.keeps_onConflict (P := conduct kind desired) retry (cycle_keeps kind desired) (fun stage e hend => ?_)
  cases stage with
  | pending => rfl
  | found => cases hend
  | stored => cases hend

/-- **Applying an object among others** stores it in its wanted form over what stands there, whatever that is by then. -/
theorem keeps_apply (retry : RetryPolicy) (kind : Kind) (desired : kind.Object) :
    (apply retry kind desired).run.Keeps (.always _ (Applies kind desired)) () .nothing :=
  Program.Keeps.imp (R := .always _ (Applies kind desired)) (fun _ => ()) (fun h => ApplyStep.applies h)
    (fun _ => trivial) (keeps_stages retry kind desired)

/-- **Deleting an object among others** takes out whatever stands there. -/
theorem keeps_deleteIfExists (kind : Kind) (name : String) :
    (deleteIfExists kind name).run.Keeps (.always _ (Deletes kind name)) () .nothing := by
  intro failure c _ _
  refine ⟨(), .nothing, ?_, trivial, trivial⟩
  cases failure with
  | some why => exact .inl rfl
  | none =>
    cases hget : c.get? kind name with
    | none => exact .inl (by simp only [Call.Quiet, Call.after, Cluster.serve, hget])
    | some o => exact .inr ⟨⟨o, hget⟩, by simp only [Call.after, Cluster.serve, hget]⟩

end Owned

namespace PortRoutes

/-- The routes of a transport that a list shows. -/
def seen (t : Transport) (c : Cluster) : List PortRoute :=
  ((c.table t.kind).values.filter (fun o =>
    Selector.matchesLabels Label.exposedService (t.kind.metadata o).labelSet)).map t.ofObject

/-- What a contributor that brings its routes about goes by. -/
inductive Sight where
  | nothing
  /-- The routes of a transport, as they were when they were listed. -/
  | routes (t : Transport) (c : Cluster)

/-- The calls of a contributor that brings its routes about. -/
inductive Step (owner : Contributor) (desired : ExposedPorts) : Sight → Call → Sight → Prop where
  | quiet {φ : Sight} {k : Call} (h : k.Quiet) : Step owner desired φ k φ
  | list {φ : Sight} {k : Call} (t : Transport) (hr : k.request = .list t.kind Label.exposedService)
      (hs : k.failure = none) : Step owner desired φ k (.routes t k.before)
  /-- A route of its own that it gave up when it listed them. -/
  | remove {t : Transport} {c : Cluster} {k : Call} {name : String} {o : t.kind.Object}
      (hname : name ∈ stale owner (seen t c) (granted owner (seen t c) (wanted t owner desired)))
      (hget : k.before.get? t.kind name = some o) (h : k.after = k.before.remove t.kind name) :
      Step owner desired (.routes t c) k (.routes t c)
  /-- A route that it was granted when it listed them. -/
  | put {t : Transport} {c : Cluster} {k : Call} {r : PortRoute}
      (hr : r ∈ granted owner (seen t c) (wanted t owner desired))
      (h : k.after = k.before.put t.kind r.metadata.anyName
        (Owned.wantedOver t.kind (t.toObject r) (k.before.get? t.kind r.metadata.anyName))) :
      Step owner desired (.routes t c) k (.routes t c)

def conduct (owner : Contributor) (desired : ExposedPorts) : Conduct (Except Error Unit) :=
  ⟨Sight, Step owner desired, fun _ _ => True⟩

variable {owner : Contributor} {desired : ExposedPorts}

theorem Step.of_deletes {t : Transport} {c : Cluster} {k : Call} {name : String}
    (hname : name ∈ stale owner (seen t c) (granted owner (seen t c) (wanted t owner desired)))
    (h : Owned.Deletes t.kind name k) : Step owner desired (.routes t c) k (.routes t c) := by
  rcases h with hq | ⟨⟨o, hget⟩, ha⟩
  · exact .quiet hq
  · exact .remove hname hget ha

theorem Step.of_applies {t : Transport} {c : Cluster} {k : Call} {r : PortRoute}
    (hr : r ∈ granted owner (seen t c) (wanted t owner desired)) (h : Owned.Applies t.kind (t.toObject r) k) :
    Step owner desired (.routes t c) k (.routes t c) := by
  rcases h with hq | ha
  · exact .quiet hq
  · rw [nameOf_toObject] at ha
    exact .put hr ha

/-- **Bringing routes about among others**: what is done is what was decided when they were listed. -/
theorem converge_keeps (reported : String) (retry : RetryPolicy) (t : Transport) (φ : Sight) :
    (converge reported retry t owner desired).run.Keeps (conduct owner desired) φ .nothing := by
  refine Action.keeps_request (fun _ hq => .quiet hq) (fun _ => trivial) (fun c reply _ _ hserve => ?_)
  cases hserve
  refine ⟨.routes t c, .nothing, .list t rfl rfl, trivial, ?_⟩
  have hdrop : ∀ name ∈ stale owner (seen t c) (granted owner (seen t c) (wanted t owner desired)),
      (do let _ ← Owned.deleteIfExists t.kind name : Action Unit).run.Keeps
        (.always _ (Step owner desired (.routes t c) · (.routes t c))) () .nothing := fun name hname =>
    Action.keeps_after_always (fun _ h => Step.of_deletes hname h) (fun _ => trivial)
      (Owned.keeps_deleteIfExists t.kind name) (fun _ => trivial)
  have hwrite : ∀ r ∈ granted owner (seen t c) (wanted t owner desired),
      (do let _ ← Owned.apply retry t.kind (t.toObject r) : Action Unit).run.Keeps
        (.always _ (Step owner desired (.routes t c) · (.routes t c))) () .nothing := fun r hr =>
    Action.keeps_after_always (fun _ h => Step.of_applies hr h) (fun _ => trivial)
      (Owned.keeps_apply retry t.kind (t.toObject r)) (fun _ => trivial)
  exact Action.keeps_after_always (fun _ h => h) (fun _ => trivial) (Action.keeps_forEach hdrop)
    (fun _ => .of_always (fun _ h => h) (fun _ => trivial) (Action.keeps_forEach hwrite))

end PortRoutes
end ServiceExposure
