import ServiceExposure.Proofs.Reconciler.Caution
/-!
# Situations

What an update of ingresses comes to with nobody else around depends on the cluster and on the answers to two questions,
which together are a `Situation`.  Where the questions are answered by reading, they are asked before anything is written,
so the answers are those of the cluster as it was (`Reconciler.alone_updateIngresses_within`).  An update either fails
while it is planned, or carries out what was planned (`Reconciler.carryOut`).
-/
namespace ServiceExposure

/-- A cluster, and what is answered to the questions about it. -/
structure Situation where
  cluster : Cluster
  named : cluster.Named
  maintenance : Except String Bool
  readiness : String → Except String Bool

theorem Program.runOn_of_reads {α : Type} : ∀ {p : Program α}, p.Reads → ∀ c, p.runOn c = ((p.runOn c).1, c)
  | .done _, _, _ => rfl
  | .call q next, ⟨hq, hnext⟩, c => by
    have hrun : (Program.call q next).runOn c = (next (c.serve q).1).runOn c :=
      congrArg (next (c.serve q).1).runOn (c.serve_of_reads hq)
    rw [hrun]
    exact runOn_of_reads (hnext (c.serve q).1 trivial) c

namespace Reconciler

variable {r : Reconciler} {σ : Situation} {s : Service} {c : Cluster} {paths : List CesService} {further : Dict String}

/-- The reconciler where the questions are answered as in a situation. -/
def within (r : Reconciler) (σ : Situation) : Reconciler :=
  { r with questions := ⟨.done σ.maintenance, fun deployment => .done (σ.readiness deployment)⟩ }

/-- Where the ingresses of a service lead.  The service that shows the maintenance page is shown itself. -/
def routing (r : Reconciler) (σ : Situation) (service : String) : Except Error RoutingState :=
  match if service = r.settings.staticContent.service then .ok false else σ.maintenance with
  | .error cause => .error (.maintenance cause)
  | .ok true => .ok .maintenance
  | .ok false =>
    match σ.readiness service with
    | .error cause => .error (.readiness service cause)
    | .ok ready => .ok (if ready then .ready else .starting)

theorem not_isPermanent_of_routing {service : String} {e : Error} (h : r.routing σ service = .error e) :
    e.isPermanent = false := by
  unfold routing at h
  split at h
  · cases h
    rfl
  · cases h
  · split at h <;> cases h
    rfl

theorem alone_ask_done (answer : Except String Bool) (error : String → Error) (c : Cluster) :
    (ask (.done answer) error).alone c = (answer.mapError error, c) := rfl

theorem alone_stateAfter (r : Reconciler) (σ : Situation) (service : String) (c : Cluster) (maintenance : Bool) :
    ((r.within σ).stateAfter service maintenance).alone c =
      (if maintenance then .ok .maintenance else match σ.readiness service with
        | .error cause => .error (.readiness service cause)
        | .ok ready => .ok (if ready then .ready else .starting), c) := by
  unfold stateAfter within
  dsimp only
  cases maintenance with
  | true => rfl
  | false => cases σ.readiness service <;> rfl

theorem alone_state (r : Reconciler) (σ : Situation) (service : String) (c : Cluster) :
    ((r.within σ).state service).alone c = (r.routing σ service, c) := by
  have hsettings : (r.within σ).settings = r.settings := rfl
  have hask : ask (r.within σ).questions.maintenance Error.maintenance = ask (.done σ.maintenance) .maintenance := rfl
  rw [state_eq, hsettings, hask]
  unfold routing
  by_cases hstatic : service = r.settings.staticContent.service
  · rw [if_pos hstatic, if_pos hstatic]
    exact r.alone_stateAfter σ service c false
  · rw [if_neg hstatic, if_neg hstatic, Action.alone_bind, alone_ask_done]
    cases σ.maintenance with
    | error cause => rfl
    | ok maintenance =>
      refine (r.alone_stateAfter σ service c maintenance).trans ?_
      cases maintenance <;> rfl

/-- What is done once everything is planned. -/
def carryOut (r : Reconciler) (s : Service) (paths : List CesService) (planned : List PlannedIngress × Dict String) :
    Action Unit := do
  Action.forEach (r.applyIngress s planned.2) planned.1
  let existing : List Ingress ← Action.request (.list .ingress (ownedSelector s.name)) (ownedSelector s.name)
  Action.forEach r.dropIngress
    ((existing.map (·.metadata.anyName)).filter (fun name => name ∉ paths.map CesService.name))

theorem updateIngresses_eq (r : Reconciler) (s : Service) : r.updateIngresses s = (do
    let paths ← Action.ofParse (pathsOf s)
    let further ← Action.ofParse (furtherAnnotationsOf s)
    let planned ← r.planAll s paths further
    r.carryOut s paths planned) := rfl

theorem alone_ofParse {α : Type} (x : Except ParseError α) (c : Cluster) :
    (Action.ofParse x).alone c = (x.mapError .parse, c) := rfl

/-- What the paths need, and the further annotations that their ingresses get. -/
def plans (r : Reconciler) (σ : Situation) (s : Service) (paths : List CesService) (further : Dict String) :
    Except Error (List PlannedIngress × Dict String) :=
  if paths = [] then .ok ([], .empty)
  else match r.routing σ s.name with
    | .error e => .error e
    | .ok state =>
      match paths.mapM (r.plan state s.name) with
      | .error e => .error (.parse e)
      | .ok planned => .ok (planned, if state = .ready then further else .empty)

theorem alone_planAll (r : Reconciler) (σ : Situation) (s : Service) (paths : List CesService) (further : Dict String)
    (c : Cluster) : ((r.within σ).planAll s paths further).alone c = (r.plans σ s paths further, c) := by
  unfold planAll plans
  by_cases hpaths : paths = []
  · rw [if_pos hpaths, if_pos hpaths]
    rfl
  · have hplan : ∀ state, (r.within σ).plan state s.name = r.plan state s.name := fun _ => rfl
    rw [if_neg hpaths, if_neg hpaths, Action.alone_bind, alone_state]
    cases r.routing σ s.name with
    | error e => rfl
    | ok state =>
      simp only [Action.alone_bind, alone_ofParse, hplan]
      cases paths.mapM (r.plan state s.name) with
      | error e => rfl
      | ok planned => rfl

/-- What an update is about to do: the paths that are declared, and what was planned for them. -/
def agenda (r : Reconciler) (σ : Situation) (s : Service) :
    Except Error (List CesService × List PlannedIngress × Dict String) :=
  match pathsOf s, furtherAnnotationsOf s with
  | .error e, _ | .ok _, .error e => .error (.parse e)
  | .ok paths, .ok further => (r.plans σ s paths further).map (fun planned => (paths, planned))

/-- **An update fails while it is planned, or carries out what was planned.** -/
theorem alone_updateIngresses (r : Reconciler) (σ : Situation) (s : Service) (c : Cluster) :
    ((r.within σ).updateIngresses s).alone c = match r.agenda σ s with
      | .error e => (.error e, c)
      | .ok (paths, planned) => (r.carryOut s paths planned).alone c := by
  rw [updateIngresses_eq]
  unfold agenda
  simp only [Action.alone_bind, alone_ofParse, alone_planAll]
  cases pathsOf s with
  | error e => rfl
  | ok paths =>
    cases furtherAnnotationsOf s with
    | error e => rfl
    | ok further =>
      dsimp only [Except.mapError]
      cases r.plans σ s paths further with
      | error e => rfl
      | ok planned => rfl

theorem plans_eq_ok {planned : List PlannedIngress × Dict String} (h : r.plans σ s paths further = .ok planned) :
    paths = [] ∧ planned = ([], .empty) ∨ ∃ state, r.routing σ s.name = .ok state ∧
      paths.mapM (r.plan state s.name) = .ok planned.1 ∧ planned.2 = if state = .ready then further else .empty := by
  unfold plans at h
  split at h
  case isTrue hnil =>
    cases h
    exact .inl ⟨hnil, rfl⟩
  case isFalse =>
    split at h
    · cases h
    case h_2 state hstate =>
      split at h
      · cases h
      case h_2 ingresses hplan =>
        cases h
        exact .inr ⟨state, hstate, hplan, rfl⟩

theorem agenda_eq_ok {planned : List PlannedIngress × Dict String} (h : r.agenda σ s = .ok (paths, planned)) :
    pathsOf s = .ok paths ∧ ∃ further, furtherAnnotationsOf s = .ok further ∧
      r.plans σ s paths further = .ok planned := by
  unfold agenda at h
  split at h
  · cases h
  · cases h
  case h_3 declared further hpaths hfurther =>
    cases hplans : r.plans σ s declared further with
    | error e =>
      rw [hplans] at h
      cases h
    | ok ingresses =>
      rw [hplans] at h
      cases h
      exact ⟨hpaths, further, hfurther, hplans⟩

/-- The situation that a reconciler finds when it reads the answers from a cluster. -/
def situationIn (r : Reconciler) (hc : c.Named) : Situation :=
  ⟨c, hc, (r.questions.maintenance.runOn c).1, fun deployment => ((r.questions.readiness deployment).runOn c).1⟩

theorem alone_ask_of_reads {p : Program (Except String Bool)} (hp : p.Reads) (error : String → Error) (c : Cluster) :
    (ask p error).alone c = (ask (.done (p.runOn c).1) error).alone c := by
  have hrun := Program.runOn_of_reads hp c
  change (p >>= fun answer => Program.done (answer.mapError error)).run _ c = _
  rw [Program.run_bind]
  exact congrArg (fun q : Except String Bool × Cluster => (q.1.mapError error, q.2)) hrun

theorem alone_state_within (hq : r.questions.OnlyAsk) (hc : c.Named) (service : String) :
    (r.state service).alone c = ((r.within (r.situationIn hc)).state service).alone c := by
  have hafter : ∀ maintenance, (r.stateAfter service maintenance).alone c =
      ((r.within (r.situationIn hc)).stateAfter service maintenance).alone c := by
    intro maintenance
    cases maintenance with
    | true => rfl
    | false =>
      change (_ >>= _ : Action RoutingState).alone c = (_ >>= _ : Action RoutingState).alone c
      rw [Action.alone_bind, Action.alone_bind, alone_ask_of_reads (hq.readiness service)]
      rfl
  have hsettings : (r.within (r.situationIn hc)).settings = r.settings := rfl
  have hask : ask (r.within (r.situationIn hc)).questions.maintenance Error.maintenance =
      ask (.done (r.questions.maintenance.runOn c).1) .maintenance := rfl
  rw [state_eq, state_eq, hsettings, hask]
  split
  · exact hafter false
  · rw [Action.alone_bind, Action.alone_bind, alone_ask_of_reads hq.maintenance, alone_ask_done]
    cases (r.questions.maintenance.runOn c).1.mapError Error.maintenance with
    | error e => rfl
    | ok maintenance => exact hafter maintenance

/-- **Answers that are read** are those of the cluster as it was. -/
theorem alone_updateIngresses_within (hq : r.questions.OnlyAsk) (hc : c.Named) (s : Service) :
    (r.updateIngresses s).alone c = ((r.within (r.situationIn hc)).updateIngresses s).alone c := by
  have hplan : ∀ paths further, (r.planAll s paths further).alone c =
      ((r.within (r.situationIn hc)).planAll s paths further).alone c := by
    intro paths further
    unfold planAll
    split
    · rfl
    · rw [Action.alone_bind, Action.alone_bind, alone_state_within hq hc]
      rfl
  rw [updateIngresses_eq, updateIngresses_eq, Action.alone_bind, Action.alone_bind, alone_ofParse]
  cases (pathsOf s).mapError Error.parse with
  | error e => rfl
  | ok paths =>
    dsimp only
    rw [Action.alone_bind, Action.alone_bind, alone_ofParse]
    cases (furtherAnnotationsOf s).mapError Error.parse with
    | error e => rfl
    | ok further =>
      dsimp only
      rw [Action.alone_bind, Action.alone_bind, hplan]
      rfl

end Reconciler
end ServiceExposure
