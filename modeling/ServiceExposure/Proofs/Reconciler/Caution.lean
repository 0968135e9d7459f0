import ServiceExposure.Controller.Questions
import ServiceExposure.Proofs.Cluster.Caution
import ServiceExposure.Proofs.Shared.Converge
import ServiceExposure.Reconciler.Ingresses
import ServiceExposure.Reconciler.Ports
/-!
# What is rejected is rejected before anything is written

A malformed annotation, rewrite or record, an exposed port that the service does not have, and a question that nobody
answers all come to light while an operation still reads (`Reconciler.rejection_changes_nothing`).  Records are read
inside attempts that are repeated, but the policy, which has them, is the first place of all, and an attempt whose write
was served is the last one.  Everything that comes later fails with refusals only (`Action.OnlyRefused`).
-/
namespace ServiceExposure

/-- Tests for an error that a refused request causes. -/
def Error.isRefusal : Error → Bool
  | .api _ _ _ _ => true
  | .parse _ | .undeclaredPort _ _ | .maintenance _ | .readiness _ _ => false

/-- The questions are answered without writing anything. -/
structure Questions.OnlyAsk (q : Questions) : Prop where
  maintenance : q.maintenance.Reads
  readiness : ∀ deployment, (q.readiness deployment).Reads

theorem Questions.onlyAsk_ofCluster (globalConfig : String) : (ofCluster globalConfig).OnlyAsk :=
  ⟨⟨rfl, fun _ _ => trivial⟩, fun _ => ⟨rfl, fun _ _ => trivial⟩⟩

namespace Action

variable {α β : Type}

/-- Nothing but a refusal makes the action fail. -/
abbrev OnlyRefused (x : Action α) : Prop := x.Avoids (fun e => e.isRefusal = false)

/-- Nothing but a refusal makes the action fail, once a write of its own was served. -/
abbrev Careful (x : Action α) : Prop := x.Cautious (fun e => e.isRefusal = false)

theorem reads_request {r : Request} (hr : r.verb.isWrite = false) (reported : String) : (request r reported).run.Reads :=
  asks_request hr reported

theorem reads_bind {x : Action α} {f : α → Action β} (hx : x.run.Reads) (hf : ∀ a, (f a).run.Reads) :
    (x >>= f).run.Reads := asks_bind hx hf

theorem onlyRefused_request (r : Request) (reported : String) : (request r reported).OnlyRefused :=
  avoids_request (fun _ => nofun)

end Action

/-! ## Objects -/

namespace Owned

theorem onlyRefused_deleteIfExists (kind : Kind) (name : String) : (deleteIfExists kind name).OnlyRefused := by
  intro reply
  cases reply with
  | ok u => exact id
  | error why =>
    by_cases hw : why = .notFound
    · simp only [if_pos hw]
      exact id
    · simp only [if_neg hw]
      exact nofun

theorem onlyRefused_apply (retry : RetryPolicy) (kind : Kind) (desired : kind.Object) :
    (apply retry kind desired).OnlyRefused := by
  refine Action.avoids_onConflict retry (Action.avoids_bind (Action.onlyRefused_request _ _) (fun current => ?_))
  split
  · exact Action.avoids_bind (Action.onlyRefused_request _ _) (fun _ => Action.avoids_pure true)
  · split
    · exact Action.avoids_pure false
    · exact Action.avoids_bind (Action.onlyRefused_request _ _) (fun _ => Action.avoids_pure true)

end Owned

namespace SharedResource

variable {s : SharedResource} {contributor : Contributor} {desired : ExposedPorts}

theorem cautious_write {E : Error → Prop} (change : Change s.kind.Object) : (s.write change).Cautious E := by
  cases change with
  | unchanged => exact trivial
  | create o => exact Action.cautious_request _ _
  | replace o => exact Action.cautious_request _ _
  | delete =>
    refine Action.cautious_bind (fun reply => ⟨trivial, fun _ u hu => ?_⟩) (fun _ => Action.avoids_pure ())
    subst hu
    exact id

/-- **A convergence that fails has not written**, whichever attempt it fails in. -/
theorem cautious_converge {E : Error → Prop} (s : SharedResource) (retry : RetryPolicy) (contributor : Contributor)
    (desired : ExposedPorts) : (s.converge retry contributor desired).Cautious E :=
  Action.cautious_onConflict retry (Action.cautious_after_reads (Action.reads_request rfl _)
    (fun _ => Action.cautious_after_reads (Action.asks_ofParse _) cautious_write))

theorem onlyRefused_write (change : Change s.kind.Object) : (s.write change).OnlyRefused := by
  cases change with
  | unchanged => exact Action.avoids_pure ()
  | create o => exact Action.onlyRefused_request _ _
  | replace o => exact Action.onlyRefused_request _ _
  | delete => exact Action.avoids_bind (Owned.onlyRefused_deleteIfExists _ _) (fun _ => Action.avoids_pure ())

theorem onlyRefused_converge (retry : RetryPolicy)
    (hplan : ∀ current, ∃ change, s.plan current contributor desired = .ok change) :
    (s.converge retry contributor desired).OnlyRefused := by
  refine Action.avoids_onConflict retry (Action.avoids_bind (Action.onlyRefused_request _ _) (fun current => ?_))
  obtain ⟨change, hchange⟩ := hplan current
  rw [hchange]
  exact Action.avoids_bind (Action.avoids_pure change) onlyRefused_write

end SharedResource

theorem PortRoutes.onlyRefused_converge (ns : String) (retry : RetryPolicy) (t : Transport) (owner : Contributor)
    (ports : ExposedPorts) : (converge ns retry t owner ports).OnlyRefused := by
  refine Action.avoids_bind (Action.onlyRefused_request _ _) (fun objects => ?_)
  refine Action.avoids_bind (Action.avoids_forEach (fun name => ?_) _) (fun _ => Action.avoids_forEach (fun route => ?_) _)
  · exact Action.avoids_bind (Owned.onlyRefused_deleteIfExists _ _) (fun _ => Action.avoids_pure ())
  · exact Action.avoids_bind (Owned.onlyRefused_apply _ _ _) (fun _ => Action.avoids_pure ())

/-! ## Operations -/

namespace Reconciler

variable {r : Reconciler}

theorem onlyRefused_materialize (r : Reconciler) (owner : Contributor) (ports : ExposedPorts) :
    (r.materialize owner ports).OnlyRefused := by
  unfold materialize
  cases r.backend with
  | nginx =>
    exact Action.avoids_bind (SharedResource.onlyRefused_converge _ (fun _ => ⟨_, rfl⟩))
      (fun _ => SharedResource.onlyRefused_converge _ (fun _ => ⟨_, rfl⟩))
  | traefik =>
    exact Action.avoids_bind (PortRoutes.onlyRefused_converge _ _ _ _ _)
      (fun _ => PortRoutes.onlyRefused_converge _ _ _ _ _)

/-- **The policy goes first**, and only there is anything read that may be malformed. -/
theorem careful_convergePorts (r : Reconciler) (contributor : Contributor) (ports : ExposedPorts) :
    (r.convergePorts contributor ports).Careful :=
  Action.cautious_bind (SharedResource.cautious_converge _ _ _ _)
    (fun _ => Action.avoids_bind (SharedResource.onlyRefused_converge _ (fun _ => ⟨_, rfl⟩))
      (fun _ => r.onlyRefused_materialize contributor ports))

theorem careful_expose (r : Reconciler) (s : Service) : (r.expose s).Careful :=
  Action.cautious_after_reads trivial (fun ports => r.careful_convergePorts (r.contributorOf s) ports)

theorem reads_ask {p : Program (Except String Bool)} (hp : p.Reads) (error : String → Error) : (ask p error).run.Reads :=
  Program.Asks.bind (f := fun answer : Except String Bool => Program.done (answer.mapError error)) (fun _ => trivial) hp

/-- What is left to find out once it is known whether there is maintenance. -/
def stateAfter (r : Reconciler) (service : String) (maintenance : Bool) : Action RoutingState :=
  if maintenance then pure .maintenance
  else do
    let ready ← ask (r.questions.readiness service) (.readiness service)
    return if ready then .ready else .starting

theorem state_eq (r : Reconciler) (service : String) : r.state service =
    if service = r.settings.staticContent.service then r.stateAfter service false
    else ask r.questions.maintenance .maintenance >>= r.stateAfter service := by
  unfold state
  split <;> rfl

theorem reads_stateAfter (hq : r.questions.OnlyAsk) (service : String) :
    ∀ maintenance, (r.stateAfter service maintenance).run.Reads
  | true => trivial
  | false => Action.reads_bind (reads_ask (hq.readiness service) _) (fun _ => trivial)

theorem reads_state (hq : r.questions.OnlyAsk) (service : String) : (r.state service).run.Reads := by
  rw [state_eq]
  split
  · exact reads_stateAfter hq service false
  · exact Action.reads_bind (reads_ask hq.maintenance _) (reads_stateAfter hq service)

theorem reads_planAll (hq : r.questions.OnlyAsk) (s : Service) (paths : List CesService) (further : Dict String) :
    (r.planAll s paths further).run.Reads := by
  unfold planAll
  split
  · trivial
  · exact Action.reads_bind (reads_state hq s.name) (fun _ => Action.reads_bind (Action.asks_ofParse _) (fun _ => trivial))

theorem onlyRefused_applyMiddlewares (r : Reconciler) (owner : Service) (ingress : String) (c : RouteConfig) :
    ∀ ps : List MiddlewarePurpose, (r.applyMiddlewares owner ingress c ps).OnlyRefused
  | [] => Action.avoids_pure []
  | p :: ps => by
    refine Action.avoids_bind ?_ (fun _ => Action.avoids_bind (onlyRefused_applyMiddlewares r owner ingress c ps)
      (fun _ => Action.avoids_pure _))
    unfold applyMiddleware
    dsimp only
    split
    · exact Action.avoids_bind (Owned.onlyRefused_deleteIfExists _ _) (fun _ => Action.avoids_pure _)
    · exact Action.avoids_bind (Owned.onlyRefused_apply _ _ _) (fun _ => Action.avoids_pure _)

theorem onlyRefused_applyIngress (r : Reconciler) (owner : Service) (further : Dict String) (p : PlannedIngress) :
    (r.applyIngress owner further p).OnlyRefused := by
  refine Action.avoids_bind ?_ (fun annotations => Action.avoids_bind (Owned.onlyRefused_apply _ _ _)
    (fun _ => Action.avoids_pure ()))
  unfold routeAnnotations
  cases r.backend with
  | nginx => exact Action.avoids_pure _
  | traefik => exact Action.avoids_bind (r.onlyRefused_applyMiddlewares owner _ _ _) (fun _ => Action.avoids_pure _)

theorem onlyRefused_dropIngress (r : Reconciler) (name : String) : (r.dropIngress name).OnlyRefused := by
  have hdelete : ∀ kind n, (do let _ ← Owned.deleteIfExists kind n : Action Unit).OnlyRefused := fun kind n =>
    Action.avoids_bind (Owned.onlyRefused_deleteIfExists kind n) (fun _ => Action.avoids_pure ())
  refine Action.avoids_bind ?_ (fun _ => hdelete .ingress name)
  unfold removeRoute
  cases r.backend with
  | nginx => exact Action.avoids_pure ()
  | traefik => exact Action.avoids_forEach (fun (p : MiddlewarePurpose) => hdelete .middleware (p.middlewareName name)) _

/-- **Everything that a service needs is planned first**, and only then is anything written. -/
theorem careful_updateIngresses (hq : r.questions.OnlyAsk) (s : Service) : (r.updateIngresses s).Careful := by
  refine Action.cautious_after_reads (Action.asks_ofParse _) (fun paths => ?_)
  refine Action.cautious_after_reads (Action.asks_ofParse _) (fun further => ?_)
  refine Action.cautious_after_reads (reads_planAll hq s paths further) (fun planned => Program.Avoids.cautious ?_)
  refine Action.avoids_bind (Action.avoids_forEach (r.onlyRefused_applyIngress s planned.2) planned.1) (fun _ => ?_)
  exact Action.avoids_bind (Action.onlyRefused_request _ _) (fun _ => Action.avoids_forEach r.onlyRefused_dropIngress _)

/-- **What is rejected changes nothing.**  Whatever is stored, whatever fails and whoever writes beside: an operation that
ends with a permanent error, or because a question was not answered, has changed nothing by any of its calls. -/
theorem rejection_changes_nothing {r : Reconciler} (hq : r.questions.OnlyAsk) {x : Action Unit}
    (hx : (∃ s, x = r.expose s) ∨ (∃ who, x = r.unexpose who) ∨ ∃ s, x = r.updateIngresses s) {e : Error}
    (he : e.isPermanent = true ∨ (∃ cause, e = .maintenance cause) ∨ ∃ deployment cause, e = .readiness deployment cause)
    (p : Pool) (ms : List Pool.Move) :
    let q := p.step (.start x)
    let i := p.programs.length
    (q.run ms).programs[i]? = some (.done (.error e)) → ∀ k ∈ q.calls i ms, k.after = k.before := by
  intro q i hend
  have hcareful : x.Careful := by
    rcases hx with ⟨s, rfl⟩ | ⟨who, rfl⟩ | ⟨s, rfl⟩
    · exact r.careful_expose s
    · exact r.careful_convergePorts who .empty
    · exact careful_updateIngresses hq s
  have hrefusal : e.isRefusal = false := by
    rcases he with he | ⟨cause, rfl⟩ | ⟨deployment, cause, rfl⟩
    · cases e with
      | api verb kind name why => cases he
      | parse | undeclaredPort | maintenance | readiness => rfl
    · rfl
    · rfl
  have hstart : q.programs[i]? = some x := by simp [q, i, Pool.step]
  exact Pool.quiet_of_cautious ms hstart hcareful hend hrefusal

/-- The policy gets a malformed record while somebody is about to replace it: the replacement is refused, and the next
attempt finds the record. -/
theorem rejection_changes_nothing_race :
    let r : Reconciler := ⟨{}, .nginx, .ofCluster "global-config"⟩
    let policy (annotations : List (String × String)) : NetworkPolicy :=
      { metadata := { Metadata.named "ecosystem" "nginx-ingress-exposed" with annotations := some (.ofList annotations) } }
    let put (annotations : List (String × String)) : Pool.Move :=
      .put .networkPolicy "nginx-ingress-exposed" (policy annotations)
    let key := "k8s.cloudogu.com/ces-exposed-ports-scm"
    let x := r.unexpose ⟨"ecosystem", "ldap"⟩
    let p := Pool.run {} [put []]
    let ms := [.turn 0 none, put [(key, "22")], .turn 0 none, .turn 0 none]
    ((p.step (.start x)).run ms).programs[0]? = some (.done (.error (.parse (.malformed key)))) ∧
      ∀ k ∈ (p.step (.start x)).calls 0 ms, k.after = k.before := by
  intro r policy put key x p ms
  have hend : ((p.step (.start x)).run ms).programs[0]? = some (.done (.error (.parse (.malformed key)))) := by
    decide +kernel
  exact ⟨hend, rejection_changes_nothing (Questions.onlyAsk_ofCluster _) (.inr (.inl ⟨_, rfl⟩)) (.inl rfl) p ms hend⟩

end Reconciler
end ServiceExposure
