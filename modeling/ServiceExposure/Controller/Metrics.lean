import ServiceExposure.Watch.Update
/-!
# Metrics

The controller counts, for each kind of update, the reconciliations that it started, those that failed, and those of
the failed ones that did not complete in time.
-/
namespace ServiceExposure

/-- A count for each kind of update. -/
structure Counter where
  exposure : Nat := 0
  ingress : Nat := 0
  redirect : Nat := 0
deriving DecidableEq

namespace Counter

def count (c : Counter) : UpdateKind → Nat
  | .exposure => c.exposure
  | .ingress => c.ingress
  | .redirect => c.redirect

def bump (c : Counter) : UpdateKind → Counter
  | .exposure => { c with exposure := c.exposure + 1 }
  | .ingress => { c with ingress := c.ingress + 1 }
  | .redirect => { c with redirect := c.redirect + 1 }

theorem count_bump (c : Counter) (k j : UpdateKind) : (c.bump k).count j = c.count j + if j = k then 1 else 0 := by
  cases k <;> cases j <;> rfl

end Counter

/-- What the controller counts. -/
structure Metrics where
  reconciles : Counter := {}
  failures : Counter := {}
  timeouts : Counter := {}
deriving DecidableEq

namespace Metrics

def started (m : Metrics) (k : UpdateKind) : Metrics := { m with reconciles := m.reconciles.bump k }

def failed (m : Metrics) (k : UpdateKind) : Metrics := { m with failures := m.failures.bump k }

def timedOut (m : Metrics) (k : UpdateKind) : Metrics := { m with timeouts := m.timeouts.bump k }

/-- The exported name of a count. -/
def exportedName (what : String) (k : UpdateKind) : String :=
  "exposure_controller_" ++ what ++ "_total\x7bkind=\"" ++ k.name ++ "\"\x7d"

/-- The counts that were ever touched, under their exported names. -/
def exported (m : Metrics) : List (String × Nat) :=
  ([("reconcile", m.reconciles), ("reconcile_failures", m.failures), ("reconcile_timeouts", m.timeouts)].flatMap
    (fun c => UpdateKind.all.map (fun k => (exportedName c.1 k, c.2.count k)))).filter (fun c => c.2 ≠ 0)

end Metrics
end ServiceExposure
