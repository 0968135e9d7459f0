import ServiceExposure.Watch.Index
/-!
# Regular resynchronisation

Everything is reconciled again in regular periods, which makes up for updates that were dropped.  A tick that is due
fires at the next look at the clock.  The next one is due a period after this one was due, or a period after it fired
where it was late by more than a small tolerance.  Time is counted in milliseconds.
-/
namespace ServiceExposure

/-- A clock that ticks in regular periods. -/
structure Ticker where
  period : Nat
  /-- When the next tick is due. -/
  due : Nat
  /-- Time goes on between two ticks. -/
  pos : 0 < period

namespace Ticker

/-- How late a tick may be without shifting the following ones. -/
def tolerance : Nat := 5

/-- A clock that is started at a time; the first tick is then. -/
def start (period now : Nat) (pos : 0 < period) : Ticker := ⟨period, now, pos⟩

/-- The clock after a tick that fired at a time. -/
def next (t : Ticker) (now : Nat) : Ticker :=
  { t with due := (if t.due + tolerance < now then now else t.due) + t.period }

theorem due_lt_due_next (t : Ticker) (now : Nat) (h : t.due ≤ now) : t.due < (t.next now).due := by
  have := t.pos
  simp only [next]
  split <;> omega

/-- Fires the ticks that are due at a time; gives their number and the clock after them. -/
def fire (t : Ticker) (now : Nat) : Nat × Ticker :=
  if _h : t.due ≤ now then
    let (n, t') := (t.next now).fire now
    (n + 1, t')
  else (0, t)
termination_by now + 1 - t.due
decreasing_by have := due_lt_due_next t now _h; omega

end Ticker

namespace Index

/-- Queues the updates that reconcile everything in the index. -/
def resync (i : Index) (q : UpdateQueue) : UpdateQueue := q.offerAll i.everything

/-- Queues the updates for every tick that is due at a time. -/
def resyncAt (i : Index) (t : Ticker) (now : Nat) (q : UpdateQueue) : UpdateQueue × Ticker :=
  ((t.fire now).1.repeat i.resync q, (t.fire now).2)

end Index
end ServiceExposure
