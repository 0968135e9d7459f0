import ServiceExposure.Controller.System
import ServiceExposure.Proofs.Reconciler.Standing
import ServiceExposure.Proofs.Watch.Index
/-!
# A journal of what tasks do

Tasks run at the same time, so what the places show in the end depends on the order in which tasks look their services up
and make their requests.  A `Trace` is the system together with a journal of both.  `Trace.lastFound` is what the latest
look-up of a service found, and `Trace.lastTold` is what the latest request that concerns the service told an object.
-/
namespace ServiceExposure

/-- What a task has done. -/
inductive Entry where
  /-- It looked its service up and found that it wants these ports. -/
  | found (service : String) (ports : ExposedPorts)
  /-- It made a request, having found these ports. -/
  | requested (service : String) (ports : ExposedPorts) (q : Request)

namespace Entry

def found? (service : String) : Entry → Option ExposedPorts
  | .found name ports => if service = name then some ports else none
  | .requested _ _ _ => none

def told? (s : SharedResource) (service : String) : Entry → Option ExposedPorts
  | .found _ _ => none
  | .requested name ports q => s.tells q name ports service

end Entry

/-- A system, and what has been done in it. -/
structure Trace where
  system : System
  /-- The ports that each task has found, in the order of the tasks. -/
  found : List ExposedPorts := []
  /-- What tasks have done, the latest first. -/
  journal : List Entry := []

namespace Trace

/-- The ports that were found by the latest look-up of a service. -/
def lastFound (t : Trace) (service : String) : ExposedPorts :=
  (t.journal.findSome? (Entry.found? service)).getD .empty

/-- The ports that an object was last told for a service; whoever deletes the object says for everybody that there are
none. -/
def lastTold (t : Trace) (s : SharedResource) (service : String) : ExposedPorts :=
  (t.journal.findSome? (Entry.told? s service)).getD .empty

/-- Writes down what a move does. -/
def note (t : Trace) : Move → List ExposedPorts × List Entry
  | .receive => (t.found ++ [.empty], t.journal)
  | .lookUp i =>
    match t.system.tasks[i]? with
    | some ⟨.exposure name, _, _⟩ =>
      (t.found.set i (t.system.index.portsOf name), .found name (t.system.index.portsOf name) :: t.journal)
    | _ => (t.found, t.journal)
  | .work i =>
    match t.system.tasks[i]?, t.found[i]? with
    | some ⟨_, _, .working (.done _)⟩, _ => (t.found.eraseIdx i, t.journal)
    | some ⟨.exposure name, _, .working (.call q _)⟩, some ports => (t.found, .requested name ports q :: t.journal)
    | _, _ => (t.found, t.journal)
  | _ => (t.found, t.journal)

end Trace

/-- Tests for a move that is about services, drops no update and lets no task fail. -/
def System.isSmooth (s : System) : Move → Bool
  | .observe (.service x) => (s.observe (.service x)).queue.waiting = s.queue.waiting ++ (s.index.observeService x).2
  | .observe (.serviceGone n) =>
    (s.observe (.serviceGone n)).queue.waiting = s.queue.waiting ++ (s.index.forgetService n).2
  | .receive | .lookUp _ | .tick _ => true
  | .work i =>
    match s.tasks[i]? with
    | some ⟨_, _, .working (.done (.error _))⟩ => false
    | _ => true
  | _ => false

namespace Trace

/-- One smooth move, written down; `none` if it cannot happen now or is not smooth. -/
def step (c : Controller) (t : Trace) (m : Move) : Option Trace :=
  if t.system.isSmooth m then (t.system.step c m).map (fun s => ⟨s, (t.note m).1, (t.note m).2⟩) else none

def run (c : Controller) (t : Trace) : List Move → Option Trace
  | [] => some t
  | m :: ms => (t.step c m).bind (fun t => run c t ms)

theorem lastFound_cons (s : System) (found : List ExposedPorts) (e : Entry) (es : List Entry) (service : String) :
    (⟨s, found, e :: es⟩ : Trace).lastFound service =
      (e.found? service).getD ((⟨s, found, es⟩ : Trace).lastFound service) := by
  unfold lastFound
  rw [List.findSome?_cons]
  cases e.found? service <;> rfl

theorem lastTold_cons (s : System) (found : List ExposedPorts) (e : Entry) (es : List Entry) (o : SharedResource)
    (service : String) : (⟨s, found, e :: es⟩ : Trace).lastTold o service =
      (e.told? o service).getD ((⟨s, found, es⟩ : Trace).lastTold o service) := by
  unfold lastTold
  rw [List.findSome?_cons]
  cases e.told? o service <;> rfl

end Trace

/-- What is assumed of a controller and of the services that are seen.  It works behind nginx, with objects that differ
and have addresses; the services are in the namespace of the index, and their names, their records and the ports that
they want differ. -/
structure Controller.Suits (c : Controller) (ns : String) (seen : Service → Prop) : Prop where
  nginx : c.reconciler.backend = .nginx
  questions : ∃ globalConfig, c.reconciler.questions = .ofCluster globalConfig ∧
    globalConfig ≠ c.reconciler.settings.tcpServices ∧ globalConfig ≠ c.reconciler.settings.udpServices
  tables : c.reconciler.settings.tcpServices ≠ c.reconciler.settings.udpServices
  addressed : c.reconciler.Addressed
  home : ∀ {s}, seen s → (c.reconciler.contributorOf s).ns = ns
  begins : ∀ {s}, seen s → OwnershipRecords.BeginsAlphanum s.name
  keys : ∀ {s s'}, seen s → seen s' →
    c.reconciler.settings.ownership.key s.name = c.reconciler.settings.ownership.key s'.name → s.name = s'.name
  apart : ∀ {s s' ports ports' id}, seen s → seen s' → s.exposedPorts = .ok ports → s'.exposedPorts = .ok ports' →
    id ∈ ports.forwardable.ids → id ∈ ports'.forwardable.ids → s.name = s'.name

/-- A service that was seen may want what it wanted in some version, or nothing. -/
def Asked (seen : Service → Prop) (name : String) (ports : ExposedPorts) : Prop :=
  (∃ s, seen s ∧ s.name = name) ∧ (ports = .empty ∨ ∃ s, seen s ∧ s.name = name ∧ s.exposedPorts = .ok ports)

namespace Controller

variable {c : Controller} {ns : String} {seen : Service → Prop}

theorem Suits.lawful (h : c.Suits ns seen) : Wishes.Lawful (Asked seen) := by
  have hempty : ∀ {ports : ExposedPorts} {id}, ports = .empty → id ∉ ports.forwardable.ids := by
    rintro ports id rfl hid
    cases hid
  constructor
  · rintro n ports ⟨-, rfl | ⟨s, -, -, hp⟩⟩
    · exact ExposedPorts.valid_empty
    · exact Service.valid_of_exposedPorts hp
  · rintro n ports n' ports' id ⟨-, e | ⟨s, hs, rfl, hp⟩⟩ ⟨-, e' | ⟨s', hs', rfl, hp'⟩⟩ hid hid'
    · exact absurd hid (hempty e)
    · exact absurd hid (hempty e)
    · exact absurd hid' (hempty e')
    · exact h.apart hs hs' hp hp' hid hid'

theorem Suits.separates (h : c.Suits ns seen) :
    c.reconciler.settings.ownership.Separates (fun n => ∃ ports, Asked seen n ports) where
  begins := by
    rintro _ ⟨ports, ⟨s, hs, rfl⟩, -⟩
    exact h.begins hs
  keys := by
    rintro _ _ ⟨ports, ⟨s, hs, rfl⟩, -⟩ ⟨ports', ⟨s', hs', rfl⟩, -⟩ hk
    exact h.keys hs hs' hk

theorem asked_portsOf {i : Index} (hi : i.Holds seen) {name : String} (hn : ∃ s, seen s ∧ s.name = name) :
    Asked seen name (i.portsOf name) := by
  refine ⟨hn, ?_⟩
  rcases i.portsOf_cases name with he | ⟨s, ports, hs, hp, he⟩
  · exact .inl he
  · rw [he]
    exact .inr ⟨s, (hi hs).2, (hi hs).1, hp⟩

/-- **What a task sets out to do** once it has looked its service up. -/
theorem visits_actionFor (h : c.Suits ns seen) {i : Index} (hi : i.Holds seen) (hns : i.ns = ns) (name : String)
    (cluster : Cluster) :
    c.reconciler.Leaves ⟨ns, name⟩ (i.portsOf name) (c.actionFor i (.exposure name)) cluster := by
  unfold actionFor
  dsimp only
  cases hs : i.service? name with
  | none =>
    have hports : i.portsOf name = .empty := Index.portsOf_of_none hs
    have htour := Reconciler.convergePorts_bind h.nginx ⟨ns, name⟩ .empty (pure ())
    rw [bind_pure] at htour
    dsimp only
    unfold Reconciler.unexpose
    rw [hports, hns, htour]
    have haside : c.reconciler.Aside (pure ()) := trivial
    exact Reconciler.leaves_tour haside cluster _
  | some s =>
    obtain ⟨hname, hseen⟩ := hi hs
    have hwho : c.reconciler.contributorOf s = ⟨ns, name⟩ := by
      rw [← h.home hseen, ← hname]
      rfl
    obtain ⟨globalConfig, hq, htcp, hudp⟩ := h.questions
    have haside := Reconciler.asks_updateIngresses h.nginx hq htcp hudp s
    dsimp only
    unfold Reconciler.expose
    cases hp : s.exposedPorts with
    | error e => exact .inr ⟨.policy, Reconciler.visits_failed _ _ _ e cluster⟩
    | ok ports =>
      have htour := Reconciler.convergePorts_bind h.nginx ⟨ns, name⟩ ports (c.reconciler.updateIngresses s)
      rw [Index.portsOf_of_ok hs hp, hwho]
      exact htour ▸ Reconciler.leaves_tour haside cluster _

end Controller
end ServiceExposure
