import ServiceExposure.Controller.System
import ServiceExposure.Proofs.Watch.History
import Mathlib.Data.Multiset.AddSub
/-!
# The books of a system

Tasks run at the same time and end in three ways: they succeed, they give up on a failure that no other attempt would
mend, or they send their update back into the queue.  `Books` keeps account of a system at work.  Every task gets a number
when it starts, and what happens to it is noted under its number; what the queue takes is noted, too.

The books only watch (`Books.system_run`).  `Books.Turn` lists what one step can do to system and books together; whatever
holds of them after every step is proved from that list, without a look at the step itself.
-/
namespace ServiceExposure

/-- What can happen in a system and around it. -/
inductive Happening where
  | move (m : Move)
  /-- Others offer updates to the queue, as a resynchronisation does. -/
  | offer (us : List Update)

def System.happen (c : Controller) (s : System) : Happening → Option System
  | .move m => s.step c m
  | .offer us => some { s with queue := s.queue.offerAll us }

/-- What is written down; tasks are given by their number. -/
inductive Note where
  | put (u : Update)
  | started (n : Nat) (u : Update)
  | succeeded (n : Nat) (u : Update)
  | failed (n : Nat) (u : Update) (f : Failure)
  /-- The task ended with a failure that no other attempt would mend. -/
  | gaveUp (n : Nat) (u : Update)
  /-- The task ended by sending its update back. -/
  | resent (n : Nat) (u : Update)
deriving DecidableEq

namespace Note

/-- The task that a note is about. -/
def number? : Note → Option Nat
  | .put _ => none
  | .started n _ | .succeeded n _ | .failed n _ _ | .gaveUp n _ | .resent n _ => some n

def put? : Note → Option Update
  | .put u => some u
  | _ => none

def succeeded? : Note → Option Update
  | .succeeded _ u => some u
  | _ => none

def gaveUp? : Note → Option Update
  | .gaveUp _ u => some u
  | _ => none

def resent? : Note → Option Update
  | .resent _ u => some u
  | _ => none

def about (n : Nat) (notes : List Note) : List Note := notes.filter (fun note => note.number? = some n)

def isStart (k : UpdateKind) : Note → Bool
  | .started _ u => u.kind = k
  | _ => false

def isFailure (k : UpdateKind) : Note → Bool
  | .failed _ u _ => u.kind = k
  | _ => false

def isTimeout (k : UpdateKind) : Note → Bool
  | .failed _ u f => u.kind = k && f.isTimeout
  | _ => false

end Note

namespace Stage

def isRunning : Stage → Bool
  | .taken | .working _ | .silent => true
  | .reporting | .resting _ => false

def isResting : Stage → Bool
  | .resting _ => true
  | _ => false

end Stage

/-- A system, and what has been written down of it. -/
structure Books where
  system : System
  /-- The numbers of the tasks, in the order of the tasks. -/
  numbers : List Nat := []
  next : Nat := 0
  /-- What has happened, the latest first. -/
  log : List Note

namespace Books

/-- The books are opened before the first task. -/
def start (s : System) : Books := { system := s, log := s.queue.waiting.map .put }

def notesOn (b : Books) (n : Nat) : List Note := Note.about n b.log

/-- The tasks with their numbers. -/
def crew (b : Books) : List (Nat × Task) := b.numbers.zip b.system.tasks

/-- The updates that the notes of one sort are about. -/
def updates (b : Books) (sort : Note → Option Update) : Multiset Update := (b.log.filterMap sort : List Update)

/-- The updates of the tasks of one sort. -/
def updatesOf (b : Books) (sort : Task → Bool) : Multiset Update :=
  ((b.system.tasks.filter sort).map Task.update : List Update)

/-- Writes down that a task failed, and that it gave up where it is there no more. -/
def noteFailure (b : Books) (s : System) (i n : Nat) (u : Update) (f : Failure) : Books :=
  if s.tasks.length < b.system.tasks.length then
    ⟨s, b.numbers.eraseIdx i, b.next, .gaveUp n u :: .failed n u f :: b.log⟩
  else ⟨s, b.numbers, b.next, .failed n u f :: b.log⟩

/-- Writes down a move that led to a system. -/
def note (c : Controller) (b : Books) (s : System) : Move → Books
  | .observe o => { b with system := s, log := (b.system.queue.taken (b.system.index.observe o).2).map .put ++ b.log }
  | .receive =>
    match b.system.queue.waiting with
    | [] => { b with system := s }
    | u :: _ => ⟨s, b.numbers ++ [b.next], b.next + 1, .started b.next u :: b.log⟩
  | .lookUp _ | .tick _ => { b with system := s }
  | .work i =>
    match b.system.tasks[i]?, b.numbers[i]? with
    | some ⟨u, _, .working (.done (.ok ()))⟩, some n =>
      ⟨s, b.numbers.eraseIdx i, b.next, .succeeded n u :: b.log⟩
    | some ⟨u, _, .working (.done (.error e))⟩, some n => b.noteFailure s i n u (.reconcile e)
    | _, _ => { b with system := s }
  | .expire i =>
    match b.system.tasks[i]?, b.numbers[i]? with
    | some t, some n => b.noteFailure s i n t.update (.timeout c.timeout)
    | _, _ => { b with system := s }
  | .putBack i =>
    match b.system.tasks[i]?, b.numbers[i]? with
    | some t, some n => ⟨s, b.numbers.eraseIdx i, b.next, .put t.update :: .resent n t.update :: b.log⟩
    | _, _ => { b with system := s }

/-- What happens, written down; `none` if it cannot happen now. -/
def step (c : Controller) (b : Books) : Happening → Option Books
  | .move m => (b.system.step c m).map (fun s => b.note c s m)
  | .offer us => some { b with
      system := { b.system with queue := b.system.queue.offerAll us }
      log := (b.system.queue.taken us).map .put ++ b.log }

def run (c : Controller) (b : Books) : List Happening → Option Books
  | [] => some b
  | h :: hs => (b.step c h).bind (fun b => run c b hs)

/-- The books only watch: the system does what it does without them. -/
theorem system_step (c : Controller) (b : Books) (h : Happening) :
    (b.step c h).map Books.system = b.system.happen c h := by
  cases h with
  | offer us => rfl
  | move m =>
    have hsystem : ∀ s, (b.note c s m).system = s := by
      intro s
      cases m <;> unfold note <;> dsimp only <;> repeat' split
      all_goals first | rfl | (unfold noteFailure; split <;> rfl)
    rw [step, Option.map_map, System.happen]
    cases b.system.step c m with
    | none => rfl
    | some s => exact congrArg some (hsystem s)

theorem system_run (c : Controller) : ∀ (hs : List Happening) (b : Books),
    (b.run c hs).map Books.system = hs.foldlM (System.happen c) b.system
  | [], b => rfl
  | h :: hs, b => by
    rw [run, List.foldlM_cons, ← system_step, Option.map_bind]
    cases b.step c h with
    | none => rfl
    | some b => exact system_run c hs b

end Books

/-! ## What one step writes down -/

/-- The place of the task that makes a move. -/
def Move.worker? : Move → Option Nat
  | .lookUp i | .work i | .expire i | .putBack i => some i
  | .observe _ | .receive | .tick _ => none

namespace System

theorem exists_worker {c : Controller} {s s' : System} {m : Move} {i : Nat} (h : s.step c m = some s')
    (hm : m.worker? = some i) : ∃ t, s.tasks[i]? = some t := by
  cases ht : s.tasks[i]? with
  | some t => exact ⟨t, rfl⟩
  | none => cases m <;> cases hm <;> simp only [step, ht] at h <;> cases h

/-- Reporting a failure makes no difference to queue, tasks and counts. -/
theorem report_eq (s : System) (u : Update) (f : Failure) : ∃ answered session reports series,
    s.report u f = (answered, { s with session, reports, series }) := by
  unfold report
  cases u.service?.bind s.index.service? with
  | none => exact ⟨_, _, _, _, rfl⟩
  | some service =>
    dsimp only
    split
    · exact ⟨_, _, _, _, rfl⟩
    · cases Session.nextFault? .create .events none s.session.faults with
      | some fault => exact ⟨_, _, _, _, rfl⟩
      | none =>
        unfold publish
        dsimp only
        split <;> exact ⟨_, _, _, _, rfl⟩

/-- **A failure** is counted, and the task then is about to report it, waits to be sent back, or is gone. -/
theorem fail_cases (c : Controller) (s : System) (i : Nat) (t : Task) (f : Failure) :
    ∃ session reports series tasks, s.fail c i t f = { s with
        tasks, session, reports, series
        metrics := (if f.isTimeout then s.metrics.timedOut t.update.kind else s.metrics).failed t.update.kind } ∧
      ((∃ stage, tasks = s.tasks.set i { t with stage } ∧
        (stage = .reporting ∨ stage = .resting (s.clock + c.requeueDelay) ∧ f.isRetryable)) ∨
      tasks = s.tasks.eraseIdx i ∧ f.isRetryable = false) := by
  unfold fail
  dsimp only
  generalize (if f.isTimeout then s.metrics.timedOut t.update.kind else s.metrics).failed t.update.kind = metrics
  obtain ⟨answered, session, reports, series, hreport⟩ := report_eq { s with metrics } t.update f
  rw [hreport]
  cases answered with
  | false => exact ⟨_, _, _, _, rfl, .inl ⟨.reporting, rfl, .inl rfl⟩⟩
  | true =>
    cases hf : f.isRetryable with
    | true => exact ⟨_, _, _, _, rfl, .inl ⟨.resting _, rfl, .inr ⟨rfl, rfl⟩⟩⟩
    | false => exact ⟨_, _, _, _, rfl, .inr ⟨rfl, rfl⟩⟩

end System

namespace Books

variable {c : Controller} {b b' : Books}

/-- What one step can do to the books. -/
inductive Turn (c : Controller) (b : Books) : Books → Prop where
  /-- The queue takes updates, or time goes on; the tasks stay as they are. -/
  | aside (s : System) (us : List Update) :
      s.tasks = b.system.tasks → s.metrics = b.system.metrics → b.system.clock ≤ s.clock →
      s.queue = { b.system.queue with waiting := b.system.queue.waiting ++ us } →
      Turn c b ⟨s, b.numbers, b.next, us.map .put ++ b.log⟩
  | starts (u : Update) (us : List Update) : b.system.queue.waiting = u :: us →
      Turn c b ⟨{ b.system with
          queue := { b.system.queue with waiting := us }
          tasks := b.system.tasks ++ [⟨u, b.system.clock, .taken⟩]
          metrics := b.system.metrics.started u.kind },
        b.numbers ++ [b.next], b.next + 1, .started b.next u :: b.log⟩
  | works (i n : Nat) (t : Task) (stage : Stage) (session : Session) :
      b.system.tasks[i]? = some t → b.numbers[i]? = some n → t.stage.isRunning → stage.isRunning →
      Turn c b ⟨{ b.system with session, tasks := b.system.tasks.set i { t with stage } }, b.numbers, b.next, b.log⟩
  | succeeds (i n : Nat) (t : Task) :
      b.system.tasks[i]? = some t → b.numbers[i]? = some n → t.stage.isRunning →
      Turn c b ⟨b.system.endTask i, b.numbers.eraseIdx i, b.next, .succeeded n t.update :: b.log⟩
  | fails (i n : Nat) (t : Task) (f : Failure) (stage : Stage) (s : System) :
      b.system.tasks[i]? = some t → b.numbers[i]? = some n → t.stage.isRunning →
      (stage = .reporting ∨ stage = .resting (b.system.clock + c.requeueDelay) ∧ f.isRetryable) →
      s.tasks = b.system.tasks.set i { t with stage } →
      s.metrics = (if f.isTimeout then b.system.metrics.timedOut t.update.kind else b.system.metrics).failed
        t.update.kind →
      s.clock = b.system.clock → s.queue = b.system.queue →
      Turn c b ⟨s, b.numbers, b.next, .failed n t.update f :: b.log⟩
  | givesUp (i n : Nat) (t : Task) (f : Failure) (s : System) :
      b.system.tasks[i]? = some t → b.numbers[i]? = some n → t.stage.isRunning → f.isRetryable = false →
      s.tasks = b.system.tasks.eraseIdx i →
      s.metrics = (if f.isTimeout then b.system.metrics.timedOut t.update.kind else b.system.metrics).failed
        t.update.kind →
      s.clock = b.system.clock → s.queue = b.system.queue →
      Turn c b ⟨s, b.numbers.eraseIdx i, b.next, .gaveUp n t.update :: .failed n t.update f :: b.log⟩
  | resends (i n : Nat) (t : Task) :
      b.system.tasks[i]? = some t → b.numbers[i]? = some n → t.stage.isResting →
      Turn c b ⟨{ b.system with
          queue := { b.system.queue with waiting := b.system.queue.waiting ++ [t.update] } }.endTask i,
        b.numbers.eraseIdx i, b.next, .put t.update :: .resent n t.update :: b.log⟩

section Moves

variable {i n : Nat} {t : Task} {s : System}

theorem turn_noteFailure (ht : b.system.tasks[i]? = some t) (hn : b.numbers[i]? = some n) (hrunning : t.stage.isRunning)
    (f : Failure) : Turn c b (b.noteFailure (b.system.fail c i t f) i n t.update f) := by
  obtain ⟨hi, -⟩ := List.getElem?_eq_some_iff.1 ht
  obtain ⟨session, reports, series, tasks, hfail, hcases⟩ := System.fail_cases c b.system i t f
  rw [hfail, noteFailure]
  -- the task is gone exactly where there are fewer tasks than before
  rcases hcases with ⟨stage, rfl, hstage⟩ | ⟨rfl, hf⟩
  · rw [if_neg (by simp only [List.length_set, Nat.lt_irrefl, not_false_iff])]
    exact .fails i n t f stage _ ht hn hrunning hstage rfl rfl rfl rfl
  · rw [if_pos (by simp only [List.length_eraseIdx_of_lt hi]; omega)]
    exact .givesUp i n t f _ ht hn hrunning hf rfl rfl rfl rfl

theorem turn_lookUp (ht : b.system.tasks[i]? = some t) (hn : b.numbers[i]? = some n)
    (hs : b.system.step c (.lookUp i) = some s) : Turn c b (b.note c s (.lookUp i)) := by
  obtain ⟨u, since, stage⟩ := t
  simp only [System.step, ht] at hs
  cases stage with
  | working | silent | reporting | resting => cases hs
  | taken =>
    cases hs
    exact .works i n _ _ b.system.session ht hn rfl rfl

theorem turn_work (ht : b.system.tasks[i]? = some t) (hn : b.numbers[i]? = some n)
    (hs : b.system.step c (.work i) = some s) : Turn c b (b.note c s (.work i)) := by
  obtain ⟨u, since, stage⟩ := t
  simp only [System.step, ht] at hs
  cases stage with
  | taken | silent | reporting | resting => cases hs
  | working rest =>
    cases hs
    rcases rest with (e | ⟨⟨⟩⟩) | ⟨q, next⟩
    · simp only [note, ht, hn]
      exact turn_noteFailure ht hn rfl (.reconcile e)
    · simp only [note, ht, hn]
      exact .succeeds i n _ ht hn rfl
    · -- whatever the answer is, the task goes on or falls silent
      simp only [note, ht]
      unfold System.work
      dsimp only
      split
      · exact .works i n _ _ b.system.session ht hn rfl rfl
      · split
        · exact .works i n _ _ _ ht hn rfl rfl
        · exact .works i n _ _ _ ht hn rfl rfl

theorem turn_expire (ht : b.system.tasks[i]? = some t) (hn : b.numbers[i]? = some n)
    (hs : b.system.step c (.expire i) = some s) : Turn c b (b.note c s (.expire i)) := by
  obtain ⟨u, since, stage⟩ := t
  simp only [System.step, ht] at hs
  cases stage with
  | reporting | resting => cases hs
  | taken | working | silent =>
    simp only [Option.ite_none_right_eq_some, Option.some.injEq] at hs
    obtain ⟨-, rfl⟩ := hs
    simp only [note, ht, hn]
    exact turn_noteFailure ht hn rfl (.timeout c.timeout)

theorem turn_putBack (ht : b.system.tasks[i]? = some t) (hn : b.numbers[i]? = some n)
    (hs : b.system.step c (.putBack i) = some s) : Turn c b (b.note c s (.putBack i)) := by
  obtain ⟨u, since, stage⟩ := t
  simp only [System.step, ht] at hs
  cases stage with
  | taken | working | silent | reporting => cases hs
  | resting due =>
    simp only [Option.ite_none_right_eq_some, Option.some.injEq] at hs
    obtain ⟨⟨-, hroom⟩, rfl⟩ := hs
    simp only [note, ht, hn, UpdateQueue.offer, hroom, if_true]
    exact .resends i n _ ht hn rfl

end Moves

/-- **One step** does one of the listed things. -/
theorem turn_step (hlength : b.numbers.length = b.system.tasks.length) {h : Happening} (hstep : b.step c h = some b') :
    Turn c b b' := by
  cases h with
  | offer us =>
    cases hstep
    exact .aside _ _ rfl rfl (Nat.le_refl _) (UpdateQueue.offerAll_eq us _)
  | move m =>
    obtain ⟨s, hs, rfl⟩ := Option.map_eq_some_iff.1 hstep
    have hworker : ∀ i, m.worker? = some i → ∃ t n, b.system.tasks[i]? = some t ∧ b.numbers[i]? = some n := by
      intro i hm
      obtain ⟨t, ht⟩ := System.exists_worker hs hm
      obtain ⟨hi, -⟩ := List.getElem?_eq_some_iff.1 ht
      exact ⟨t, _, ht, List.getElem?_eq_getElem (hlength ▸ hi)⟩
    cases m with
    | observe o =>
      cases hs
      exact .aside _ _ rfl rfl (Nat.le_refl _) (UpdateQueue.offerAll_eq _ _)
    | tick ms =>
      cases hs
      refine Turn.aside _ [] rfl rfl (Nat.le_add_right _ _) ?_
      simp only [List.append_nil]
    | receive =>
      cases hw : b.system.queue.waiting with
      | nil =>
        simp only [System.step, hw] at hs
        cases hs
      | cons u us =>
        simp only [System.step, hw] at hs
        cases hs
        simp only [note, hw]
        exact .starts u us hw
    | lookUp i =>
      obtain ⟨t, n, ht, hn⟩ := hworker i rfl
      exact turn_lookUp ht hn hs
    | work i =>
      obtain ⟨t, n, ht, hn⟩ := hworker i rfl
      exact turn_work ht hn hs
    | expire i =>
      obtain ⟨t, n, ht, hn⟩ := hworker i rfl
      exact turn_expire ht hn hs
    | putBack i =>
      obtain ⟨t, n, ht, hn⟩ := hworker i rfl
      exact turn_putBack ht hn hs

end Books

end ServiceExposure
