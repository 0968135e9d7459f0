import ServiceExposure.Controller.Questions
import ServiceExposure.Proofs.Cluster.Sending
import ServiceExposure.Proofs.Reconciler.Places
import ServiceExposure.Reconciler.Ingresses
/-!
# From place to place

Exposing ports visits one place after the other (`Reconciler.convergePorts_bind`), and what a service does afterwards about
its ingresses concerns none of the places (`Reconciler.asks_updateIngresses`).  A request of a program that visits a place
is about the object there and leads on: the program is still there and has changed nothing, or it has made its change and
goes on (`Reconciler.Visits.call`).
-/
namespace ServiceExposure

/-! ## What a convergence asks -/

namespace SharedResource

/-- The request is about the object. -/
def Concerns (s : SharedResource) (q : Request) : Prop := q.kind = s.kind ∧ q.name? = some s.name

instance (s : SharedResource) (q : Request) : Decidable (s.Concerns q) := inferInstanceAs (Decidable (_ ∧ _))

variable {s : SharedResource} {contributor : Contributor} {desired : ExposedPorts}

/-- An object that is stored under its name is read with its name. -/
theorem named_serve {c : Cluster} (hnamed : ∀ o, c.get? s.kind s.name = some o → s.kind.nameOf o = s.name)
    {q : Request} (hq : s.Concerns q) : Request.Named q (c.serve q).1 := by
  cases q with
  | list | create | replace | delete => trivial
  | get kind name =>
    obtain ⟨hkind, hname⟩ : kind = s.kind ∧ some name = some s.name := hq
    cases hkind
    cases hname
    change Request.Named (.get s.kind s.name) (.ok (c.get? s.kind s.name))
    cases hget : c.get? s.kind s.name with
    | none => trivial
    | some o => exact hnamed o hget

theorem asks_write (hg : s.Guarded) {current : Option s.kind.Object} {change : Change s.kind.Object}
    (hnamed : ∀ read, current = some read → s.kind.nameOf read = s.name)
    (hp : s.plan current contributor desired = .ok change) : (s.write change).run.Asks Request.Named s.Concerns := by
  cases change with
  | unchanged => trivial
  | create o => exact Action.asks_request ⟨rfl, congrArg some (hg.create hp).2⟩ _
  | replace o =>
    obtain ⟨read, hread, -, hname⟩ := hg.replace hp
    exact Action.asks_request ⟨rfl, congrArg some (hname.trans (hnamed read hread))⟩ _
  | delete => exact Action.asks_bind ⟨⟨rfl, rfl⟩, fun _ _ => trivial⟩ (fun _ => trivial)

theorem asks_onRead (hg : s.Guarded) (reply : Except Refusal (Option s.kind.Object))
    (hnamed : ∀ read, reply = .ok (some read) → s.kind.nameOf read = s.name) :
    (s.onRead contributor desired reply).Asks Request.Named s.Concerns := by
  cases reply with
  | error why => trivial
  | ok current =>
    simp only [onRead]
    cases hp : s.plan current contributor desired with
    | error e => trivial
    | ok change => exact asks_write hg (fun read hread => hnamed read (congrArg Except.ok hread)) hp

theorem asks_cycle (hg : s.Guarded) : (s.cycle contributor desired).run.Asks Request.Named s.Concerns := by
  rw [run_cycle]
  refine ⟨⟨rfl, rfl⟩, fun reply hreply => asks_onRead hg reply ?_⟩
  rintro read rfl
  exact hreply

/-- **Whatever a convergence asks is about its object**, as long as objects are stored under their names. -/
theorem asks_converge (hg : s.Guarded) (retry : RetryPolicy) :
    (s.converge retry contributor desired).run.Asks Request.Named s.Concerns :=
  Program.Asks.attempt (fun _ => asks_cycle hg) _ _ _

end SharedResource

namespace Reconciler

variable {r : Reconciler} {who : Contributor} {ports : ExposedPorts}

/-! ## What is asked about ingresses -/

/-- The request concerns none of the places, and changes ingresses at most. -/
def Spares (r : Reconciler) (q : Request) : Prop :=
  (q.verb.isWrite = false ∨ q.kind = .ingress) ∧ ∀ place, ¬ (r.objectAt place).Concerns q

theorem spares_of_kind {q : Request} (hq : q.verb.isWrite = false ∨ q.kind = .ingress) (hs : q.kind ≠ .service)
    (hc : q.kind ≠ .configMap) (hp : q.kind ≠ .networkPolicy) : r.Spares q := by
  refine ⟨hq, fun place h => ?_⟩
  cases place with
  | policy => exact hp h.1
  | balancer => exact hs h.1
  | tcp => exact hc h.1
  | udp => exact hc h.1

theorem spares_ingress {q : Request} (h : q.kind = .ingress) : r.Spares q := by
  refine spares_of_kind (.inr h) ?_ ?_ ?_ <;> rw [h] <;> decide

theorem spares_config {globalConfig : String} (ht : globalConfig ≠ r.settings.tcpServices)
    (hu : globalConfig ≠ r.settings.udpServices) : r.Spares (.get .configMap globalConfig) := by
  refine ⟨.inl rfl, fun place h => ?_⟩
  cases place with
  | policy | balancer => cases h.1
  | tcp => exact ht (Option.some.inj h.2)
  | udp => exact hu (Option.some.inj h.2)

/-- Whatever the answers are, the program spares the places. -/
abbrev Aside (r : Reconciler) (x : Action Unit) : Prop := x.run.Asks (fun _ _ => True) r.Spares

theorem asks_apply {o : Ingress} (retry : RetryPolicy) :
    (Owned.apply retry .ingress o).run.Asks (fun _ _ => True) r.Spares := by
  refine Program.Asks.attempt (fun _ => ?_) _ _ _
  refine Action.asks_bind (Action.asks_request (spares_ingress rfl) _) (fun reply => ?_)
  match reply with
  | none => exact Action.asks_bind (Action.asks_request (spares_ingress rfl) _) (fun _ => trivial)
  | some (current : Ingress) =>
    dsimp only
    split
    · trivial
    · exact Action.asks_bind (Action.asks_request (spares_ingress rfl) _) (fun _ => trivial)

theorem asks_state {globalConfig : String} (hq : r.questions = .ofCluster globalConfig)
    (ht : globalConfig ≠ r.settings.tcpServices) (hu : globalConfig ≠ r.settings.udpServices) (service : String) :
    (r.state service).run.Asks (fun _ _ => True) r.Spares := by
  have hmaintenance : (ask r.questions.maintenance .maintenance).run.Asks (fun _ _ => True) r.Spares := by
    rw [hq]
    exact ⟨spares_config ht hu, fun _ _ => trivial⟩
  have hreadiness : (ask (r.questions.readiness service) (.readiness service)).run.Asks (fun _ _ => True) r.Spares := by
    rw [hq]
    exact ⟨spares_of_kind (.inl rfl) nofun nofun nofun, fun _ _ => trivial⟩
  have hrest : ∀ maintenance : Bool, (if maintenance = true then pure RoutingState.maintenance else do
      let ready ← ask (r.questions.readiness service) (.readiness service)
      return if ready = true then .ready else .starting : Action RoutingState).run.Asks (fun _ _ => True) r.Spares := by
    intro maintenance
    cases maintenance with
    | true => trivial
    | false => exact Action.asks_bind hreadiness (fun _ => trivial)
  unfold state
  dsimp only
  split
  · exact hrest false
  · exact Action.asks_bind hmaintenance hrest

/-- **What a service does about its ingresses spares the places.** -/
theorem asks_updateIngresses (hb : r.backend = .nginx) {globalConfig : String}
    (hq : r.questions = .ofCluster globalConfig) (ht : globalConfig ≠ r.settings.tcpServices)
    (hu : globalConfig ≠ r.settings.udpServices) (s : Service) : r.Aside (r.updateIngresses s) := by
  unfold updateIngresses
  refine Action.asks_bind (Action.asks_ofParse _) (fun paths => ?_)
  refine Action.asks_bind (Action.asks_ofParse _) (fun further => ?_)
  refine Action.asks_bind ?_ (fun planned => ?_)
  · unfold planAll
    split
    · trivial
    · refine Action.asks_bind (asks_state hq ht hu _) (fun state => ?_)
      exact Action.asks_bind (Action.asks_ofParse _) (fun _ => trivial)
  · refine Action.asks_bind (Action.asks_forEach (fun p => ?_) _) (fun _ => ?_)
    · unfold applyIngress routeAnnotations
      rw [hb]
      exact Action.asks_bind trivial (fun _ => Action.asks_bind (asks_apply _) (fun _ => trivial))
    · refine Action.asks_bind (Action.asks_request (spares_ingress rfl) _) (fun existing => ?_)
      refine Action.asks_forEach (fun name => ?_) _
      unfold dropIngress removeRoute
      rw [hb]
      exact Action.asks_bind trivial (fun _ =>
        Action.asks_bind ⟨spares_ingress rfl, fun _ _ => trivial⟩ (fun _ => trivial))

/-! ## Visiting places -/

/-- Visits places one after the other, and then does something else. -/
def tour (r : Reconciler) (who : Contributor) (ports : ExposedPorts) : List Place → Action Unit → Action Unit
  | [], last => last
  | place :: places, last => do
    (r.objectAt place).converge r.settings.retry who (place.wants ports)
    r.tour who ports places last

theorem convergePorts_bind (hb : r.backend = .nginx) (who : Contributor) (ports : ExposedPorts) (last : Action Unit) :
    (r.convergePorts who ports >>= fun _ => last) = r.tour who ports [.policy, .balancer, .tcp, .udp] last := by
  unfold convergePorts materialize
  rw [hb]
  simp only [bind_assoc]
  rfl

/-- What is left of a program that is at a place, on a cluster that is as the program knows it. -/
structure Visits (r : Reconciler) (who : Contributor) (ports : ExposedPorts) (place : Place) (rest : Action Unit)
    (c : Cluster) : Prop where
  left : ∃ (here : Action Unit) (places : List Place) (last : Action Unit) (K : Knowledge),
    rest = (here >>= fun _ => r.tour who ports places last) ∧
      here.run.Asks Request.Named (r.objectAt place).Concerns ∧
      here.run.Keeps ((r.objectAt place).conduct who (place.wants ports)) .pending K ∧ K.Holds c ∧ r.Aside last

/-- What is left of a program after a place: another place, or what spares them all. -/
def Leaves (r : Reconciler) (who : Contributor) (ports : ExposedPorts) (rest : Action Unit) (c : Cluster) : Prop :=
  r.Aside rest ∨ ∃ place, r.Visits who ports place rest c

theorem leaves_tour {last : Action Unit} (hl : r.Aside last) (c : Cluster) :
    ∀ places, r.Leaves who ports (r.tour who ports places last) c
  | [] => .inl hl
  | place :: places => .inr ⟨place, _, places, last, .nothing, rfl, SharedResource.asks_converge (r.guarded_objectAt place) _,
      SharedResource.converge_keeps (r.guarded_objectAt place) _, trivial, hl⟩

variable {place : Place} {rest : Action Unit} {c c' : Cluster}

/-- A program that fails at a place visits it for ever. -/
theorem visits_failed (who : Contributor) (ports : ExposedPorts) (place : Place) (e : Error) (c : Cluster) :
    r.Visits who ports place (.done (.error e)) c :=
  ⟨.done (.error e), [], pure (), .nothing, rfl, trivial, trivial, trivial, trivial⟩

/-- Nobody is done at a place without having made the change there. -/
theorem Visits.ne_done (h : r.Visits who ports place rest c) : rest ≠ .done (.ok ()) := by
  obtain ⟨here, places, last, K, rfl, -, hkeeps, -⟩ := h.left
  match here, hkeeps with
  | .done (.error e), _ => exact fun h => nomatch h
  | .done (.ok ()), hkeeps => exact hkeeps.elim
  | .call q next, _ => exact fun h => nomatch h

/-- Others may write meanwhile. -/
theorem Visits.write (h : r.Visits who ports place rest c) (w : c.Write c') : r.Visits who ports place rest c' := by
  obtain ⟨here, places, last, K, hrest, hasks, hkeeps, hK, hl⟩ := h.left
  exact ⟨here, places, last, K, hrest, hasks, hkeeps, K.lasts w hK, hl⟩

/-- **A request at a place** is about the object there.  Either nothing has changed and the program is still there, or the
change is made and the program goes on. -/
theorem Visits.call {q : Request} {next : Except Refusal q.Reply → Action Unit}
    (h : r.Visits who ports place (.call q next) c) (hv : c.Versioned)
    (hnamed : ∀ o, c.get? (r.objectAt place).kind (r.objectAt place).name = some o →
      (r.objectAt place).kind.nameOf o = (r.objectAt place).name) :
    (r.objectAt place).Concerns q ∧ ∃ ψ,
      (r.objectAt place).ConvergeStep who (place.wants ports) .pending ⟨q, none, c⟩ ψ ∧
        match ψ with
        | .pending => r.Visits who ports place (next (c.serve q).1) (c.serve q).2
        | .committed => r.Leaves who ports (next (c.serve q).1) (c.serve q).2 := by
  obtain ⟨here, places, last, K, hrest, hasks, hkeeps, hK, hl⟩ := h.left
  match here, hasks, hkeeps with
  | .done (.error e), _, _ => exact nomatch hrest
  | .done (.ok ()), _, hkeeps => exact hkeeps.elim
  | .call q' next', ⟨hq, hnext⟩, hkeeps =>
    have hcall := hrest.trans (Action.call_bind next' (fun _ => r.tour who ports places last))
    cases hcall
    obtain ⟨ψ, K', hstep, hK', hkeeps⟩ := hkeeps none c hv hK
    have hfair := SharedResource.named_serve hnamed hq
    refine ⟨hq, ψ, hstep, ?_⟩
    cases ψ with
    | pending => exact ⟨next' (c.serve q).1, places, last, K', rfl, hnext _ hfair, hkeeps, hK', hl⟩
    | committed =>
      have hdone : next' (c.serve q).1 = .done (.ok ()) :=
        SharedResource.eq_done_of_committed hkeeps (hv.serve q) hK'
      dsimp only
      rw [hdone]
      exact leaves_tour hl _ places

end Reconciler
end ServiceExposure
