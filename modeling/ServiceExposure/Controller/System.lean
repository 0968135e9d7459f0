import ServiceExposure.Watch.Index
import ServiceExposure.Controller.Metrics
import ServiceExposure.Reconciler.Ports
import ServiceExposure.Reconciler.Ingresses
import ServiceExposure.Reconciler.Redirect
import ServiceExposure.Cluster.Address
import ServiceExposure.Text.Duration
/-!
# The controller

The controller takes updates from the queue and reconciles each of them in a task of its own.  A task looks the update up
in the index, then makes its requests one by one, and is given up when it takes too long.  A request that cannot be sent
fails at once.  A failure is counted and reported; one that another attempt may mend puts the same update back into the
queue after a delay.

`System.step` is one move of the whole: a change that is observed, an update that is taken, one request of one task, a
timeout, an update that is put back, or time that goes on.  Any order of moves is a run.  `System.settle` is one such
run: it moves on until everything waits for the clock.  Time is counted in milliseconds.
-/
namespace ServiceExposure

/-- Why a task failed. -/
inductive Failure where
  | reconcile (e : Error)
  /-- The task was not done after this long. -/
  | timeout (ms : Nat)
deriving DecidableEq

namespace Failure

/-- Tests whether another attempt may mend a failure. -/
def isRetryable : Failure → Bool
  | .reconcile e => !e.isPermanent
  | .timeout _ => true

/-- Tests for a task that was given up. -/
def isTimeout : Failure → Bool
  | .reconcile _ => false
  | .timeout _ => true

def message : Failure → String
  | .reconcile e => e.message
  | .timeout ms => "reconciliation did not complete within " ++ Duration.text ms

end Failure

/-- Which service an event is about. -/
structure ServiceRef where
  ns : Option String
  name : String
  uid : Option String
deriving DecidableEq

/-- An event that reports a failure on the service that it concerns. -/
structure FailureReport where
  /-- What was being done. -/
  action : UpdateKind
  regarding : ServiceRef
  note : String
deriving DecidableEq

namespace FailureReport

def eventType : String := "Warning"

def reason : String := "ReconcileFailed"

def reporter : String := "exposure-controller"

def ofFailure (action : UpdateKind) (s : Service) (f : Failure) : FailureReport :=
  ⟨action, ⟨s.metadata.ns, s.name, s.metadata.uid⟩, f.message⟩

/-- Tests whether two reports are of one series: the same action on the same service. -/
def sameSeries (r r' : FailureReport) : Bool := r.action = r'.action && r.regarding = r'.regarding

end FailureReport

/-- How far a task has come. -/
inductive Stage where
  /-- The update has been taken, but not been looked up. -/
  | taken
  /-- This much is left to do. -/
  | working (rest : Action Unit)
  /-- A request stays without an answer. -/
  | silent
  /-- The report of the failure stays without an answer. -/
  | reporting
  /-- The task has failed, and its update is put back at a time. -/
  | resting (due : Nat)

/-- The reconciliation of one update. -/
structure Task where
  update : Update
  /-- When the update was taken. -/
  since : Nat
  stage : Stage

structure Controller where
  reconciler : Reconciler
  /-- How long a task may take. -/
  timeout : Nat
  /-- How long after a failure the update is put back. -/
  requeueDelay : Nat

/-- The controller at work. -/
structure System where
  clock : Nat := 0
  index : Index
  queue : UpdateQueue
  tasks : List Task := []
  metrics : Metrics := {}
  session : Session := {}
  /-- The reports that were published, the earliest first. -/
  reports : List FailureReport := []
  /-- The first report of each series. -/
  series : List FailureReport := []

/-- What can happen next; tasks are given by their position. -/
inductive Move where
  /-- A change is observed. -/
  | observe (o : Observation)
  /-- The first update of the queue is taken. -/
  | receive
  /-- A task looks its update up. -/
  | lookUp (task : Nat)
  /-- A task makes its next request or, with nothing left to do, ends. -/
  | work (task : Nat)
  /-- A task is given up. -/
  | expire (task : Nat)
  /-- The update of a task that failed is put back. -/
  | putBack (task : Nat)
  /-- Time goes on. -/
  | tick (ms : Nat)

namespace Controller

/-- What an update asks for, by the index. -/
def actionFor (c : Controller) (i : Index) : Update → Action Unit
  | .exposure name =>
    match i.service? name with
    | some s => do
      c.reconciler.expose s
      c.reconciler.updateIngresses s
    | none => c.reconciler.unexpose ⟨i.ns, name⟩
  | .ingresses name =>
    match i.service? name with
    | some s => c.reconciler.updateIngresses s
    | none => pure ()
  | .redirect => c.reconciler.redirect i.redirect.1 i.redirect.2

end Controller

namespace System

/-- Observes a change and queues the updates that it calls for. -/
def observe (s : System) (o : Observation) : System :=
  { s with index := (s.index.observe o).1, queue := s.queue.offerAll (s.index.observe o).2 }

/-- Tests for a report that has an address.  The first of a series is a new event in the namespace of the service; the
others are sent to that event, whose name begins with the name of the service. -/
def canPublish (s : System) (r : FailureReport) : Bool :=
  let ns := r.regarding.ns.getD ""
  Address.fits ns && Address.isSegment ns && (Address.fits r.regarding.name || !s.series.any r.sameSeries)

/-- Publishes a report.  Within a series it is the first report that is published again. -/
def publish (s : System) (r : FailureReport) : System :=
  match s.series.find? r.sameSeries with
  | some first => { s with reports := s.reports ++ [first] }
  | none => { s with reports := s.reports ++ [r], series := s.series ++ [r] }

/-- Reports a failure, if the service that it concerns is known.  Whether publishing succeeds makes no difference;
`false` means that it stays without an answer. -/
def report (s : System) (u : Update) (f : Failure) : Bool × System :=
  match u.service?.bind s.index.service? with
  | none => (true, s)
  | some service =>
    let r := FailureReport.ofFailure u.kind service f
    if !s.canPublish r then (true, s)
    else match Session.nextFault? .create .events none s.session.faults with
      | some (fault, faults) => (!fault.silent, { s with session := { s.session with faults } })
      | none => (true, s.publish r)

def setStage (s : System) (i : Nat) (t : Task) (stage : Stage) : System :=
  { s with tasks := s.tasks.set i { t with stage } }

def endTask (s : System) (i : Nat) : System := { s with tasks := s.tasks.eraseIdx i }

/-- Counts and reports the failure of a task.  The update is put back later if another attempt may mend it. -/
def fail (c : Controller) (s : System) (i : Nat) (t : Task) (f : Failure) : System :=
  let m := if f.isTimeout then s.metrics.timedOut t.update.kind else s.metrics
  let (answered, s) := { s with metrics := m.failed t.update.kind }.report t.update f
  if !answered then s.setStage i t .reporting
  else if f.isRetryable then s.setStage i t (.resting (s.clock + c.requeueDelay))
  else s.endTask i

/-- Makes the next request of a task. -/
def work (c : Controller) (s : System) (i : Nat) (t : Task) : Action Unit → System
  | .done (.ok ()) => s.endTask i
  | .done (.error e) => s.fail c i t (.reconcile e)
  | .call r next =>
    if !r.isSendable c.reconciler.settings.ns then s.setStage i t (.working (next (.error .unaddressed)))
    else match Session.send c.reconciler.settings.ns r s.session with
      | (some reply, session) => { s with session }.setStage i t (.working (next reply))
      | (none, session) => { s with session }.setStage i t .silent

/-- Tests whether a task has taken too long. -/
def isOverdue (c : Controller) (s : System) (t : Task) : Bool := t.since + c.timeout ≤ s.clock

/-- One move; `none` if it cannot happen now. -/
def step (c : Controller) (s : System) : Move → Option System
  | .observe o => some (s.observe o)
  | .receive =>
    match s.queue.waiting with
    | [] => none
    | u :: us =>
      some { s with
        queue := { s.queue with waiting := us }
        tasks := s.tasks ++ [⟨u, s.clock, .taken⟩]
        metrics := s.metrics.started u.kind }
  | .lookUp i =>
    match s.tasks[i]? with
    | some ⟨u, since, .taken⟩ => some (s.setStage i ⟨u, since, .taken⟩ (.working (c.actionFor s.index u)))
    | _ => none
  | .work i =>
    match s.tasks[i]? with
    | some ⟨u, since, .working rest⟩ => some (s.work c i ⟨u, since, .working rest⟩ rest)
    | _ => none
  | .expire i =>
    match s.tasks[i]? with
    | some t =>
      match t.stage with
      | .taken | .working _ | .silent =>
        if s.isOverdue c t then some (s.fail c i t (.timeout c.timeout)) else none
      | .reporting | .resting _ => none
    | none => none
  | .putBack i =>
    match s.tasks[i]? with
    | some ⟨u, _, .resting due⟩ =>
      if due ≤ s.clock ∧ s.queue.hasRoom then some ({ s with queue := s.queue.offer u }.endTask i) else none
    | _ => none
  | .tick ms => some { s with clock := s.clock + ms }

/-- What a task does next without waiting for the clock.  A task that has taken too long is given up as soon as it would
have to wait for an answer; what it can do at once it does first. -/
def nextOf (c : Controller) (s : System) (i : Nat) (t : Task) : Option Move :=
  match t.stage with
  | .taken => some (.lookUp i)
  | .working (.done _) => some (.work i)
  | .working (.call r _) =>
    if s.isOverdue c t ∧ r.isSendable c.reconciler.settings.ns then some (.expire i) else some (.work i)
  | .silent => if s.isOverdue c t then some (.expire i) else none
  | .reporting => none
  | .resting due => if due ≤ s.clock ∧ s.queue.hasRoom then some (.putBack i) else none

/-- What happens next without waiting for the clock: the earliest task that can go on does, then the next update is
taken. -/
def next? (c : Controller) (s : System) : Option Move :=
  match (s.tasks.zipIdx.findSome? (fun t => s.nextOf c t.2 t.1)) with
  | some m => some m
  | none => if s.queue.waiting = [] then none else some .receive

/-- Moves on until everything waits for the clock, for at most `fuel` moves. -/
def settle (c : Controller) : (fuel : Nat) → System → System
  | 0, s => s
  | fuel + 1, s =>
    match (s.next? c).bind (s.step c) with
    | some s => settle c fuel s
    | none => s

end System
end ServiceExposure
