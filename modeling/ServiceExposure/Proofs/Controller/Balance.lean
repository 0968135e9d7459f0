import ServiceExposure.Controller.Questions
import ServiceExposure.Proofs.Controller.Fates
/-!
# What becomes of an update

What was put on the queue waits there, is worked on, waits to be sent back or was dealt with, and no update is in two of
these places for one time that it was put.  A task whose failure another attempt may mend sends its update back once, and
no other task does (`Books.balanced_run`).  The counters tell how many tasks were started, failed and timed out.
-/
namespace ServiceExposure

namespace Books

variable {c : Controller} {b b' : Books} {i n : Nat} {t : Task}

/-! ## No update is lost or doubled -/

/-- What was put on the queue is there, at a task, or at the end of one. -/
def Conserved (b : Books) : Prop :=
  ∀ u, (b.updates Note.put?).count u = b.system.queue.waiting.count u + (b.system.tasks.map Task.update).count u +
    (b.updates Note.succeeded?).count u + (b.updates Note.gaveUp?).count u + (b.updates Note.resent?).count u

theorem count_eraseIdx {tasks : List Task} (ht : tasks[i]? = some t) (u : Update) :
    (tasks.map Task.update).count u = ((tasks.eraseIdx i).map Task.update).count u + [t.update].count u := by
  obtain ⟨hi, he⟩ := List.getElem?_eq_some_iff.1 ht
  rw [← ((List.getElem_cons_eraseIdx_perm hi).map Task.update).count_eq u, he, List.map_cons, List.count_cons,
    List.count_singleton]

theorem map_update_set {tasks : List Task} (ht : tasks[i]? = some t) (stage : Stage) :
    (tasks.set i { t with stage }).map Task.update = tasks.map Task.update := by
  have hu : (tasks.map Task.update)[i]? = some t.update := by rw [List.getElem?_map, ht]; rfl
  obtain ⟨hi, he⟩ := List.getElem?_eq_some_iff.1 hu
  rw [List.map_set]
  dsimp only
  rw [← he, List.set_getElem_self]

/-- What is noted balances what is moved. -/
theorem Conserved.of_log (h : b.Conserved) (notes : List Note) (hlog : b'.log = notes ++ b.log)
    (hmoved : ∀ u, (notes.filterMap Note.put?).count u + b.system.queue.waiting.count u +
        (b.system.tasks.map Task.update).count u =
      b'.system.queue.waiting.count u + (b'.system.tasks.map Task.update).count u +
        (notes.filterMap Note.succeeded?).count u + (notes.filterMap Note.gaveUp?).count u +
        (notes.filterMap Note.resent?).count u) : b'.Conserved := by
  intro u
  have hu := h u
  have hm := hmoved u
  simp only [updates, hlog, List.filterMap_append, Multiset.coe_count, List.count_append] at hu ⊢
  omega

/-- **One step** only moves updates on. -/
theorem Conserved.turn (h : b.Conserved) (hturn : Turn c b b') : b'.Conserved := by
  cases hturn with
  | aside s us htasks hmetrics hclock hqueue =>
    have hput : (us.map Note.put).filterMap Note.put? = us := by
      rw [List.filterMap_map]
      exact List.filterMap_some
    have hnone : ∀ sort : Note → Option Update, (∀ u, sort (.put u) = none) →
        (us.map Note.put).filterMap sort = [] := by
      intro sort hsort
      rw [List.filterMap_map, List.filterMap_eq_nil_iff]
      exact fun u _ => hsort u
    refine h.of_log (us.map .put) rfl fun u => ?_
    rw [hput, hnone _ fun _ => rfl, hnone _ fun _ => rfl, hnone _ fun _ => rfl, htasks, hqueue, List.count_append,
      List.count_nil]
    omega
  | starts v us hw =>
    refine h.of_log [.started b.next v] rfl fun u => ?_
    rw [hw, List.map_append, List.count_append, List.count_cons]
    simp only [List.filterMap_cons, List.filterMap_nil, Note.put?, Note.succeeded?, Note.gaveUp?, Note.resent?,
      List.map_cons, List.map_nil, List.count_nil, List.count_singleton]
    omega
  | works i n t stage session ht hn hrunning hstage =>
    refine h.of_log [] rfl fun u => ?_
    rw [map_update_set ht]
    simp only [List.filterMap_nil, List.count_nil]
    omega
  | succeeds i n t ht hn hrunning =>
    refine h.of_log [.succeeded n t.update] rfl fun u => ?_
    rw [count_eraseIdx ht]
    simp only [List.filterMap_cons, List.filterMap_nil, Note.put?, Note.succeeded?, Note.gaveUp?, Note.resent?,
      System.endTask, List.count_nil]
    omega
  | fails i n t f stage s ht hn hrunning hstage htasks hmetrics hclock hqueue =>
    refine h.of_log [.failed n t.update f] rfl fun u => ?_
    rw [htasks, hqueue, map_update_set ht]
    simp only [List.filterMap_cons, List.filterMap_nil, Note.put?, Note.succeeded?, Note.gaveUp?, Note.resent?,
      List.count_nil]
    omega
  | givesUp i n t f s ht hn hrunning hf htasks hmetrics hclock hqueue =>
    refine h.of_log [.gaveUp n t.update, .failed n t.update f] rfl fun u => ?_
    rw [htasks, hqueue, count_eraseIdx ht]
    simp only [List.filterMap_cons, List.filterMap_nil, Note.put?, Note.succeeded?, Note.gaveUp?, Note.resent?,
      List.count_nil]
    omega
  | resends i n t ht hn hresting =>
    refine h.of_log [.put t.update, .resent n t.update] rfl fun u => ?_
    rw [count_eraseIdx ht]
    simp only [List.filterMap_cons, List.filterMap_nil, Note.put?, Note.succeeded?, Note.gaveUp?, Note.resent?,
      System.endTask, List.count_append, List.count_nil]
    omega

/-! ## The counters -/

structure Counted (b : Books) : Prop where
  reconciles : ∀ k, b.system.metrics.reconciles.count k = b.log.countP (Note.isStart k)
  failures : ∀ k, b.system.metrics.failures.count k = b.log.countP (Note.isFailure k)
  timeouts : ∀ k, b.system.metrics.timeouts.count k = b.log.countP (Note.isTimeout k)

/-- Where nothing is counted, nothing is noted that should be. -/
theorem Counted.of_metrics (h : b.Counted) (hmetrics : b'.system.metrics = b.system.metrics) (notes : List Note)
    (hlog : b'.log = notes ++ b.log)
    (hnotes : ∀ note ∈ notes, ∀ k, note.isStart k = false ∧ note.isFailure k = false ∧ note.isTimeout k = false) :
    b'.Counted := by
  have hsame : ∀ p : Note → Bool, (∀ note ∈ notes, p note = false) → b'.log.countP p = b.log.countP p := by
    intro p hp
    have hzero : notes.countP p = 0 := List.countP_eq_zero.2 fun note hnote => by simp only [hp note hnote,
      Bool.false_eq_true, not_false_iff]
    rw [hlog, List.countP_append, hzero, Nat.zero_add]
  constructor <;> intro k <;> rw [hmetrics]
  · exact (h.reconciles k).trans (hsame _ fun note hnote => (hnotes note hnote k).1).symm
  · exact (h.failures k).trans (hsame _ fun note hnote => (hnotes note hnote k).2.1).symm
  · exact (h.timeouts k).trans (hsame _ fun note hnote => (hnotes note hnote k).2.2).symm

/-- A failure is counted, and so is a timeout among the failures. -/
theorem Counted.failed (h : b.Counted) {u : Update} {f : Failure} (n : Nat)
    (hmetrics : b'.system.metrics =
      (if f.isTimeout then b.system.metrics.timedOut u.kind else b.system.metrics).failed u.kind)
    (hlog : b'.log = .failed n u f :: b.log) : b'.Counted := by
  constructor <;> intro k <;> rw [hmetrics, hlog, List.countP_cons]
  · rw [← h.reconciles k]
    cases f.isTimeout <;> rfl
  · rw [← h.failures k]
    cases f.isTimeout <;> simp only [Metrics.failed, Metrics.timedOut, Counter.count_bump, Note.isFailure,
      decide_eq_true_eq, eq_comm (a := k), if_true, if_false, Bool.false_eq_true]
  · rw [← h.timeouts k]
    cases hf : f.isTimeout <;> simp [Metrics.failed, Metrics.timedOut, Counter.count_bump, Note.isTimeout, hf,
      eq_comm (a := k)]

/-- **One step** counts what it notes. -/
theorem Counted.turn (h : b.Counted) (hturn : Turn c b b') : b'.Counted := by
  cases hturn with
  | aside s us htasks hmetrics hclock hqueue =>
    refine h.of_metrics hmetrics (us.map .put) rfl fun note hnote k => ?_
    obtain ⟨u, -, rfl⟩ := List.mem_map.1 hnote
    exact ⟨rfl, rfl, rfl⟩
  | starts u us hw =>
    constructor <;> intro k <;> rw [List.countP_cons]
    · rw [← h.reconciles k]
      simp only [Metrics.started, Counter.count_bump, Note.isStart, decide_eq_true_eq, eq_comm (a := k)]
    · exact h.failures k
    · exact h.timeouts k
  | works i n t stage session ht hn hrunning hstage => exact ⟨h.reconciles, h.failures, h.timeouts⟩
  | succeeds i n t ht hn hrunning =>
    refine h.of_metrics rfl [.succeeded n t.update] rfl fun note hnote k => ?_
    rw [List.mem_singleton.1 hnote]
    exact ⟨rfl, rfl, rfl⟩
  | fails i n t f stage s ht hn hrunning hstage htasks hmetrics hclock hqueue => exact h.failed n hmetrics rfl
  | givesUp i n t f s ht hn hrunning hf htasks hmetrics hclock hqueue =>
    have hfailed : Counted ⟨s, b.numbers, b.next, .failed n t.update f :: b.log⟩ := h.failed n hmetrics rfl
    refine hfailed.of_metrics rfl [.gaveUp n t.update] rfl fun note hnote k => ?_
    rw [List.mem_singleton.1 hnote]
    exact ⟨rfl, rfl, rfl⟩
  | resends i n t ht hn hresting =>
    refine h.of_metrics rfl [.put t.update, .resent n t.update] rfl fun note hnote k => ?_
    rcases List.mem_cons.1 hnote with rfl | hnote
    · exact ⟨rfl, rfl, rfl⟩
    · rw [List.mem_singleton.1 hnote]
      exact ⟨rfl, rfl, rfl⟩

/-! ## Updates that wait to be sent back -/

/-- The queue takes updates, and no update waits for longer than it has to. -/
structure Returning (c : Controller) (b : Books) : Prop where
  isOpen : b.system.queue.isOpen
  due : ∀ t ∈ b.system.tasks, ∀ due, t.stage = .resting due → due ≤ b.system.clock + c.requeueDelay

/-- **One step** lets no update wait for longer. -/
theorem Returning.turn (h : b.Returning c) (hturn : Turn c b b') : b'.Returning c := by
  cases hturn with
  | aside s us htasks hmetrics hclock hqueue =>
    refine ⟨hqueue ▸ h.isOpen, fun t ht due hdue => ?_⟩
    have hle := h.due t (htasks ▸ ht) due hdue
    dsimp only
    omega
  | starts u us hw =>
    refine ⟨h.isOpen, fun t ht due hdue => ?_⟩
    rcases List.mem_append.1 ht with ht | ht
    · exact h.due t ht due hdue
    · rw [List.mem_singleton.1 ht] at hdue
      cases hdue
  | works i n t stage session ht hn hrunning hstage =>
    refine ⟨h.isOpen, fun t' ht' due hdue => ?_⟩
    rcases List.mem_or_eq_of_mem_set ht' with ht' | rfl
    · exact h.due t' ht' due hdue
    · obtain rfl : stage = .resting due := hdue
      cases hstage
  | succeeds i n t ht hn hrunning =>
    exact ⟨h.isOpen, fun t' ht' => h.due t' (List.mem_of_mem_eraseIdx ht')⟩
  | fails i n t f stage s ht hn hrunning hstage htasks hmetrics hclock hqueue =>
    refine ⟨hqueue ▸ h.isOpen, fun t' ht' due hdue => ?_⟩
    dsimp only at ht' ⊢
    rw [htasks] at ht'
    rw [hclock]
    rcases List.mem_or_eq_of_mem_set ht' with ht' | rfl
    · exact h.due t' ht' due hdue
    · obtain rfl : stage = .resting due := hdue
      rcases hstage with hstage | ⟨hstage, -⟩
      · cases hstage
      · -- the delay begins now
        cases hstage
        exact Nat.le_refl _
  | givesUp i n t f s ht hn hrunning hf htasks hmetrics hclock hqueue =>
    refine ⟨hqueue ▸ h.isOpen, fun t' ht' => ?_⟩
    dsimp only at ht' ⊢
    rw [hclock]
    exact h.due t' (List.mem_of_mem_eraseIdx (htasks ▸ ht'))
  | resends i n t ht hn hresting =>
    exact ⟨h.isOpen, fun t' ht' => h.due t' (List.mem_of_mem_eraseIdx ht')⟩

/-! ## Whole runs -/

/-- What the books say at any time. -/
structure Balanced (c : Controller) (b : Books) : Prop where
  /-- What was put on the queue waits in it, is worked on, waits to be sent back, or was dealt with. -/
  conserved : b.updates Note.put? = (b.system.queue.waiting : Multiset Update) +
    b.updatesOf (fun t => !t.stage.isResting) + b.updatesOf (fun t => t.stage.isResting) +
    b.updates Note.succeeded? + b.updates Note.gaveUp? + b.updates Note.resent?
  /-- Each task that is there has a number of its own. -/
  numbered : b.numbers.length = b.system.tasks.length ∧ b.numbers.Nodup
  fates : ∀ n < b.next, ∃ u, Fate b.crew n u (b.notesOn n)
  /-- Nothing is noted of a task that was not started. -/
  unused : ∀ n, b.next ≤ n → b.notesOn n = []
  /-- A failure that another attempt may mend sends the same update back once, as soon as the task is gone. -/
  resentOnce : ∀ n u f, .failed n u f ∈ b.log → f.isRetryable →
    b.log.count (.resent n u) = if n ∈ b.numbers then 0 else 1
  /-- Nothing else is sent back. -/
  resentOnly : ∀ n u, .resent n u ∈ b.log → ∃ f, .failed n u f ∈ b.log ∧ f.isRetryable
  /-- Where the queue has room, an update that waits can be sent back when the delay is over. -/
  returns : ∀ i n t, b.numbers[i]? = some n → b.system.tasks[i]? = some t → t.stage.isResting →
    b.system.queue.hasRoom → ∀ ms, c.requeueDelay ≤ ms →
    ∃ b', b.run c [.move (.tick ms), .move (.putBack i)] = some b' ∧
      b'.system.queue.waiting = b.system.queue.waiting ++ [t.update] ∧
      b'.log = .put t.update :: .resent n t.update :: b.log
  counted : b.Counted

theorem Conserved.updates_eq (h : b.Conserved) : b.updates Note.put? = (b.system.queue.waiting : Multiset Update) +
    b.updatesOf (fun t => !t.stage.isResting) + b.updatesOf (fun t => t.stage.isResting) +
    b.updates Note.succeeded? + b.updates Note.gaveUp? + b.updates Note.resent? := by
  ext u
  -- the tasks are those that rest and the others
  have hsplit := ((List.filter_append_perm (fun t => t.stage.isResting) b.system.tasks).map Task.update).count_eq u
  rw [List.map_append, List.count_append] at hsplit
  have hu := h u
  simp only [Multiset.count_add, updatesOf, Multiset.coe_count]
  omega

theorem Returning.putBack (h : b.Returning c) (hn : b.numbers[i]? = some n) (ht : b.system.tasks[i]? = some t)
    (hresting : t.stage.isResting) (hroom : b.system.queue.hasRoom) {ms : Nat} (hms : c.requeueDelay ≤ ms) :
    ∃ b', b.run c [.move (.tick ms), .move (.putBack i)] = some b' ∧
      b'.system.queue.waiting = b.system.queue.waiting ++ [t.update] ∧
      b'.log = .put t.update :: .resent n t.update :: b.log := by
  obtain ⟨u, since, stage⟩ := t
  cases stage with
  | taken | working | silent | reporting => cases hresting
  | resting due =>
    have hdue := h.due _ (List.mem_of_getElem? ht) due rfl
    have hnow : due ≤ b.system.clock + ms ∧ b.system.queue.hasRoom := ⟨by omega, hroom⟩
    simp only [run, step, System.step, Option.map_some, Option.bind_some, note, ht, hn, if_pos hnow, UpdateQueue.offer,
      if_pos hroom, System.endTask]
    exact ⟨_, rfl, rfl, rfl⟩

structure Kept (c : Controller) (b : Books) : Prop where
  numbered : ∃ crew, b.Numbered crew
  conserved : b.Conserved
  counted : b.Counted
  returning : b.Returning c

theorem Kept.balanced (h : b.Kept c) : b.Balanced c := by
  obtain ⟨crew, hcrew⟩ := h.numbered
  have hlength : b.numbers.length = b.system.tasks.length := by
    rw [hcrew.numbers, hcrew.tasks, List.length_map, List.length_map]
  have hzip : b.crew = crew := (List.zip_of_prod hcrew.numbers.symm hcrew.tasks.symm).symm
  exact {
    conserved := h.conserved.updates_eq
    numbered := ⟨hlength, hcrew.nodup⟩
    fates := hzip ▸ hcrew.fates
    unused := hcrew.unused
    resentOnce := fun n u f => hcrew.resentOnce
    resentOnly := fun n u => hcrew.resentOnly
    returns := fun i n t hn ht hr hroom ms hms => h.returning.putBack hn ht hr hroom hms
    counted := h.counted }

theorem Kept.turn (h : b.Kept c) (hturn : Turn c b b') : b'.Kept c := by
  obtain ⟨crew, hcrew⟩ := h.numbered
  exact ⟨hcrew.turn hturn, h.conserved.turn hturn, h.counted.turn hturn, h.returning.turn hturn⟩

theorem Kept.step (h : b.Kept c) {happening : Happening} (hstep : b.step c happening = some b') : b'.Kept c := by
  obtain ⟨crew, hcrew⟩ := h.numbered
  have hlength : b.numbers.length = b.system.tasks.length := by
    rw [hcrew.numbers, hcrew.tasks, List.length_map, List.length_map]
  exact h.turn (turn_step hlength hstep)

theorem Kept.run : ∀ {hs : List Happening} {b : Books}, b.Kept c → b.run c hs = some b' → b'.Kept c
  | [], _, h, hrun => Option.some.inj hrun ▸ h
  | happening :: hs, b, h, hrun => by
    obtain ⟨after, hstep, hrun⟩ := Option.bind_eq_some_iff.1 hrun
    exact (h.step hstep).run hrun

/-- The books are opened as if the queue had just taken what waits in it. -/
theorem kept_start (c : Controller) {s : System} (htasks : s.tasks = []) (hmetrics : s.metrics = {})
    (hopen : s.queue.isOpen) : (start s).Kept c := by
  have hempty : Kept c ⟨{ s with queue := { s.queue with waiting := [] } }, [], 0, []⟩ := by
    refine ⟨⟨[], htasks, rfl, List.nodup_nil, nofun, nofun, fun _ _ => rfl⟩, fun u => ?_, ?_, hopen, ?_⟩
    · simp only [updates, htasks, List.filterMap_nil, List.map_nil, Multiset.coe_count, List.count_nil]
    · constructor <;> intro k <;> simp only [hmetrics, List.countP_nil] <;> cases k <;> rfl
    · exact fun t ht => nomatch (htasks ▸ ht : t ∈ [])
  have hturn : Turn c ⟨{ s with queue := { s.queue with waiting := [] } }, [], 0, []⟩
      ⟨s, [], 0, s.queue.waiting.map .put ++ []⟩ := .aside s s.queue.waiting rfl rfl (Nat.le_refl _) rfl
  have hstart := hempty.turn hturn
  rwa [List.append_nil] at hstart

/-- **Every update** that was put on the queue has one place or one end, and the counters tell how many there are. -/
theorem balanced_run (c : Controller) (s : System) (hs : List Happening) (b : Books) (htasks : s.tasks = [])
    (hmetrics : s.metrics = {}) (hopen : s.queue.isOpen) (hrun : (start s).run c hs = some b) : b.Balanced c :=
  ((kept_start c htasks hmetrics hopen).run hrun).balanced

/-- Two updates come; one task succeeds, and the other one is given up and sends its update back, which is taken
again. -/
def busyDay : List Happening :=
  [.offer [.exposure "scm", .ingresses "ldap"], .move .receive, .move .receive, .move (.lookUp 1), .move (.work 1),
    .move (.tick 10000), .move (.expire 0), .move (.tick 5000), .move (.putBack 0), .move .receive]

theorem balanced_busyDay :
    let c : Controller := ⟨⟨{}, .nginx, .ofCluster "global-config"⟩, 10000, 5000⟩
    let s : System :=
      { index := { ns := "ecosystem", globalConfig := "global-config", exposedService := "exposed" }
        queue := { capacity := 8 } }
    s.tasks = [] ∧ s.metrics = {} ∧ s.queue.isOpen ∧ ∃ b, (start s).run c busyDay = some b ∧
      b.log = [.started 2 (.exposure "scm"), .put (.exposure "scm"), .resent 0 (.exposure "scm"),
        .failed 0 (.exposure "scm") (.timeout 10000), .succeeded 1 (.ingresses "ldap"), .started 1 (.ingresses "ldap"),
        .started 0 (.exposure "scm"), .put (.exposure "scm"), .put (.ingresses "ldap")] ∧ b.Balanced c := by
  intro c s
  have hrun : ((start s).run c busyDay).any (fun b => b.log =
      [.started 2 (.exposure "scm"), .put (.exposure "scm"), .resent 0 (.exposure "scm"),
        .failed 0 (.exposure "scm") (.timeout 10000), .succeeded 1 (.ingresses "ldap"), .started 1 (.ingresses "ldap"),
        .started 0 (.exposure "scm"), .put (.exposure "scm"), .put (.ingresses "ldap")]) = true := by decide +kernel
  obtain ⟨b, hrun, hlog⟩ := Option.any_eq_true _ _ |>.1 hrun
  exact ⟨rfl, rfl, rfl, b, hrun, of_decide_eq_true hlog, balanced_run c s busyDay b rfl rfl rfl hrun⟩

end Books

end ServiceExposure
